import Mathlib.Algebra.Order.Ring.Int
import IbSrp.LabelledRuns

/-!
# The SRP transport class: `struct srp_rport` and its recovery timers

`rport->mutex` is held for a whole call of `srp_start_tl_fail_timers`, of
`srp_reconnect_rport`, of a timeout handler from the point where it gets the
mutex, and of the first part of `srp_stop_rport_timers`. The sysfs attributes are
written without the mutex. A write is two steps: first the test of the new value
with what follows from it, then the assignment. `storing` lists the assignments
that are still to be made.

What is done with the mutex is one step where no write can make a difference to
it or see it half done. `__srp_start_tl_fail_timers` reads the timeouts and
queues `reconnect_work` before it sets the state, and after a failed attempt to
reconnect the state is set before the timeouts are read. These are steps of
their own, and `held` says what the holder of the mutex has still to do.

A delayed work is pending from the time it is queued until its handler starts.
A handler that has started waits for the mutex; `cancel_delayed_work` does not
reach it, and the work can be queued again in the meantime. `started` counts
such handlers. The handler of `reconnect_work` goes on after it has released the
mutex: `retrying` counts those that are about to queue the work again. One that
holds the mutex is counted in neither, and `held` says so.

`blocked` says whether the SCSI devices of the port are blocked. How long a work
is pending is left open.
-/
namespace IbSrp.RportTransport
open LabelledRuns

/-- `enum srp_rport_state` -/
inductive RportState where
  | running
  | blocked
  | failFast
  | lost
deriving DecidableEq, Repr

structure DelayedWork where
  pending : Bool := false
  started : ℕ := 0
deriving DecidableEq, Repr

/-- `queue_delayed_work`; a work that is pending stays as it is. -/
def DelayedWork.queue (w : DelayedWork) : DelayedWork := { w with pending := true }

/-- `cancel_delayed_work` -/
def DelayedWork.cancel (w : DelayedWork) : DelayedWork := { w with pending := false }

/-- The work is taken off its queue and its handler starts. -/
def DelayedWork.start (w : DelayedWork) : DelayedWork := ⟨false, w.started+1⟩

def DelayedWork.finish (w : DelayedWork) : DelayedWork := { w with started := w.started-1 }

structure SrpRport where
  state : RportState := .running
  blocked : Bool := false
  reconnectDelay : ℤ
  fastIoFailTmo : ℤ
  devLossTmo : ℤ
  failedReconnects : ℤ := 0
  reconnectWork : DelayedWork := {}
  fastIoFailWork : DelayedWork := {}
  devLossWork : DelayedWork := {}
deriving DecidableEq, Repr

def scsiDeviceBlockMaxTimeout : ℤ := 600

def longMax : ℤ := 0x7fffffffffffffff

/-- `srp_tmo_valid` for a kernel with `hz` ticks in a second. -/
def srpTmoValid (hz : ℕ) (reconnectDelay fastIoFailTmo devLossTmo : ℤ) : Bool :=
  if reconnectDelay < 0 ∧ fastIoFailTmo < 0 ∧ devLossTmo < 0 then false
  else if reconnectDelay = 0 then false
  else if scsiDeviceBlockMaxTimeout < fastIoFailTmo then false
  else if fastIoFailTmo < 0 ∧ scsiDeviceBlockMaxTimeout < devLossTmo then false
  else if longMax/hz ≤ devLossTmo then false
  else if 0 ≤ fastIoFailTmo ∧ 0 ≤ devLossTmo ∧ devLossTmo ≤ fastIoFailTmo then false
  else true

/-- The transitions that `srp_rport_set_state` accepts. -/
def RportState.accepts : RportState → RportState → Bool
  | .lost, .running => false
  | _, .running => true
  | .running, .blocked => true
  | _, .blocked => false
  | .lost, .failFast => false
  | _, .failFast => true
  | _, .lost => true

/-- `srp_rport_set_state`, with whether it returned 0. -/
def srpRportSetState (newState : RportState) (rport : SrpRport) : Bool × SrpRport :=
  if rport.state.accepts newState then (true, { rport with state := newState }) else (false, rport)

def rportFailIoFast (rport : SrpRport) : SrpRport :=
  match srpRportSetState .failFast rport with
  | (false, rport) => rport
  | (true, rport) => { rport with blocked := false }

/-- `rport_fast_io_fail_timedout` with the mutex -/
def rportFastIoFailTimedout (rport : SrpRport) : SrpRport :=
  if rport.state = .blocked then rportFailIoFast rport else rport

/-- `rport_dev_loss_timedout` with the mutex -/
def rportDevLossTimedout (rport : SrpRport) : SrpRport :=
  { (srpRportSetState .lost rport).2 with blocked := false }

/-- What the holder of `rport->mutex` has still to do: start the timers after a failed attempt
to reconnect, by `reconnect_work` or by another thread, or set the state to BLOCKED with the
timeouts that were read. -/
inductive Held where
  | startTimers (work : Bool)
  | setBlocked (fastIoFailTmo devLossTmo : ℤ)
deriving DecidableEq, Repr

/-- `__srp_start_tl_fail_timers` up to `srp_rport_set_state`. The state does not change while
the mutex is held, and nothing is left to do if it will be refused. -/
def srpStartTlFailTimers (rport : SrpRport) : SrpRport × Option Held :=
  if rport.state = .lost then (rport, none)
  else
    let rport := if 0 < rport.reconnectDelay then
        { rport with reconnectWork := rport.reconnectWork.queue } else rport
    (rport, if rport.state.accepts .blocked then
        some (.setBlocked rport.fastIoFailTmo rport.devLossTmo) else none)

/-- The rest of `__srp_start_tl_fail_timers` -/
def srpSetBlocked (fastIoFailTmo devLossTmo : ℤ) (rport : SrpRport) : SrpRport :=
  if 0 ≤ fastIoFailTmo ∨ 0 ≤ devLossTmo then
    match srpRportSetState .blocked rport with
    | (false, rport) => rport
    | (true, rport) =>
        { rport with
          blocked := true,
          fastIoFailWork :=
            if 0 ≤ fastIoFailTmo then rport.fastIoFailWork.queue else rport.fastIoFailWork,
          devLossWork :=
            if 0 ≤ devLossTmo then rport.devLossWork.queue else rport.devLossWork }
  else rport

/-- How an attempt to reconnect goes: waiting for the mutex is interrupted, or the callback
`reconnect` fails or succeeds. -/
inductive Attempt where
  | interrupted
  | failed
  | succeeded
deriving DecidableEq, Repr

/-- How far `srp_reconnect_rport` has come: it returned 0 or an error, or it goes on with
`__srp_start_tl_fail_timers` and then returns an error. -/
inductive Progress where
  | success
  | error
  | starting
deriving DecidableEq, Repr

/-- `srp_reconnect_rport` up to the call of `__srp_start_tl_fail_timers` -/
def srpReconnectRport (attempt : Attempt) (rport : SrpRport) : Progress × SrpRport :=
  if attempt = .interrupted then (.error, rport)
  else
    let rport := { rport with blocked := true }
    if rport.state ≠ .lost ∧ attempt = .succeeded then
      let rport := { rport with
        fastIoFailWork := rport.fastIoFailWork.cancel,
        devLossWork := rport.devLossWork.cancel,
        failedReconnects := 0 }
      (.success, { (srpRportSetState .running rport).2 with blocked := false })
    else if rport.state = .running then
      (.starting, { rportFailIoFast rport with blocked := false })
    else if rport.state ≠ .blocked then (.error, { rport with blocked := false })
    else (.error, rport)

/-- The end of `srp_reconnect_work` after a failed attempt. -/
def srpReconnectWorkRetry (rport : SrpRport) : SrpRport :=
  let rport := { rport with failedReconnects := rport.failedReconnects+1 }
  if 0 < rport.reconnectDelay*min 100 (max 1 (rport.failedReconnects-10)) then
    { rport with reconnectWork := rport.reconnectWork.queue }
  else rport

/-- `store_reconnect_delay` for a number that was parsed, up to the assignment; nothing if the
number is refused. -/
def storeReconnectDelay (hz : ℕ) (delay : ℤ) (rport : SrpRport) : Option SrpRport :=
  if srpTmoValid hz delay rport.fastIoFailTmo rport.devLossTmo = false then none
  else some
    { rport with
      reconnectWork :=
        if rport.reconnectDelay ≤ 0 ∧ 0 < delay ∧ rport.state ≠ .running then
          rport.reconnectWork.queue
        else if delay ≤ 0 then rport.reconnectWork.cancel
        else rport.reconnectWork }

/-- `store_srp_rport_fast_io_fail_tmo` up to the assignment -/
def storeSrpRportFastIoFailTmo (hz : ℕ) (tmo : ℤ) (rport : SrpRport) : Option SrpRport :=
  if srpTmoValid hz rport.reconnectDelay tmo rport.devLossTmo = false then none else some rport

/-- `store_srp_rport_dev_loss_tmo` up to the assignment -/
def storeSrpRportDevLossTmo (hz : ℕ) (tmo : ℤ) (rport : SrpRport) : Option SrpRport :=
  if srpTmoValid hz rport.reconnectDelay rport.fastIoFailTmo tmo = false then none else some rport

/-- The part of `srp_stop_rport_timers` that holds the mutex. -/
def srpStopRportTimers (rport : SrpRport) : SrpRport :=
  let rport := if rport.state = .blocked then rportFailIoFast rport else rport
  (srpRportSetState .lost rport).2

inductive WorkName where
  | reconnect
  | fastIoFail
  | devLoss
deriving DecidableEq, Repr

def SrpRport.work (rport : SrpRport) : WorkName → DelayedWork
  | .reconnect => rport.reconnectWork
  | .fastIoFail => rport.fastIoFailWork
  | .devLoss => rport.devLossWork

def SrpRport.setWork (rport : SrpRport) (name : WorkName) (w : DelayedWork) : SrpRport :=
  match name with
  | .reconnect => { rport with reconnectWork := w }
  | .fastIoFail => { rport with fastIoFailWork := w }
  | .devLoss => { rport with devLossWork := w }

inductive TmoName where
  | reconnectDelay
  | fastIoFail
  | devLoss
deriving DecidableEq, Repr

def SrpRport.setTmo (rport : SrpRport) (name : TmoName) (value : ℤ) : SrpRport :=
  match name with
  | .reconnectDelay => { rport with reconnectDelay := value }
  | .fastIoFail => { rport with fastIoFailTmo := value }
  | .devLoss => { rport with devLossTmo := value }

/-- The port with its timers. `stopping` lists the works that `srp_stop_rport_timers` has
still to cancel, once it has been called. -/
structure State where
  rport : SrpRport
  held : Option Held := none
  retrying : ℕ := 0
  storing : List (TmoName × ℤ) := []
  stopping : Option (List WorkName) := none
deriving DecidableEq, Repr

inductive Event where
  | tlError
  | setBlocked
  | reconnect (attempt : Attempt)
  | startTimers
  | start (name : WorkName)
  | reconnectWork (attempt : Attempt)
  | retry
  | fastIoFailTimedout
  | devLossTimedout
  | store (name : TmoName) (value : ℤ)
  | assign (name : TmoName) (value : ℤ)
  | stop
  | cancelSync
deriving DecidableEq, Repr

/-- A port that was added with these timeouts. -/
def State.added (reconnectDelay fastIoFailTmo devLossTmo : ℤ) : State :=
  { rport := { reconnectDelay := reconnectDelay, fastIoFailTmo := fastIoFailTmo,
               devLossTmo := devLossTmo } }

/-- Whether no handler of the work is executing. -/
def State.idle (s : State) (name : WorkName) : Bool :=
  (s.rport.work name).started = 0 &&
    (name ≠ .reconnect || s.retrying = 0 && s.held ≠ some (.startTimers true))

def store (hz : ℕ) : TmoName → ℤ → SrpRport → Option SrpRport
  | .reconnectDelay => storeReconnectDelay hz
  | .fastIoFail => storeSrpRportFastIoFailTmo hz
  | .devLoss => storeSrpRportDevLossTmo hz

/-- A write has tested its value, which was accepted or refused. -/
def State.stored (s : State) (name : TmoName) (value : ℤ) : Option SrpRport → State
  | none => s
  | some rport => { s with rport := rport, storing := s.storing++[(name, value)] }

/-- What follows an attempt by the handler of `reconnect_work` or by another thread: the timers
are still to be started, or the call has returned. A handler whose call returned an error is
about to queue its work again. -/
def State.reconnected (s : State) (work : Bool) (r : Progress × SrpRport) : State :=
  { s with
    rport := { r.2 with
      reconnectWork := if work then r.2.reconnectWork.finish else r.2.reconnectWork },
    held := if r.1 = .starting then some (.startTimers work) else s.held,
    retrying := if work ∧ r.1 = .error then s.retrying+1 else s.retrying }

/-- The attributes are gone when `srp_stop_rport_timers` is called, and no write is in
progress. -/
def step (hz : ℕ) (s : State) : Event → Option State
  | .tlError =>
      if s.held ≠ none then none
      else
        let r := srpStartTlFailTimers s.rport
        some { s with rport := r.1, held := r.2 }
  | .setBlocked =>
      match s.held with
      | some (.setBlocked fastIoFailTmo devLossTmo) =>
          some { s with rport := srpSetBlocked fastIoFailTmo devLossTmo s.rport, held := none }
      | _ => none
  | .reconnect attempt =>
      if s.held ≠ none ∧ attempt ≠ .interrupted then none
      else some (s.reconnected false (srpReconnectRport attempt s.rport))
  | .startTimers =>
      match s.held with
      | some (.startTimers work) =>
          let r := srpStartTlFailTimers s.rport
          some { s with rport := r.1, held := r.2,
                        retrying := if work then s.retrying+1 else s.retrying }
      | _ => none
  | .start name =>
      if (s.rport.work name).pending then
        some { s with rport := s.rport.setWork name (s.rport.work name).start }
      else none
  | .reconnectWork attempt =>
      if s.rport.reconnectWork.started = 0 ∨ s.held ≠ none ∧ attempt ≠ .interrupted then none
      else some (s.reconnected true (srpReconnectRport attempt s.rport))
  | .retry =>
      if s.retrying = 0 then none
      else some { s with rport := srpReconnectWorkRetry s.rport, retrying := s.retrying-1 }
  | .fastIoFailTimedout =>
      if s.rport.fastIoFailWork.started = 0 ∨ s.held ≠ none then none
      else
        let rport := { s.rport with fastIoFailWork := s.rport.fastIoFailWork.finish }
        some { s with rport := rportFastIoFailTimedout rport }
  | .devLossTimedout =>
      if s.rport.devLossWork.started = 0 ∨ s.held ≠ none then none
      else
        let rport := { s.rport with devLossWork := s.rport.devLossWork.finish }
        some { s with rport := rportDevLossTimedout rport }
  | .store name value =>
      if s.stopping ≠ none then none
      else some (s.stored name value (store hz name value s.rport))
  | .assign name value =>
      if (name, value) ∈ s.storing then
        some { s with rport := s.rport.setTmo name value,
                      storing := s.storing.erase (name, value) }
      else none
  | .stop =>
      if s.stopping ≠ none ∨ s.storing ≠ [] ∨ s.held ≠ none then none
      else some { s with rport := srpStopRportTimers s.rport,
                         stopping := some [.reconnect, .fastIoFail, .devLoss] }
  | .cancelSync =>
      match s.stopping with
      | some (name::names) =>
          if s.idle name then
            some { s with rport := s.rport.setWork name (s.rport.work name).cancel,
                          stopping := some names }
          else none
      | _ => none

section
variable {rport : SrpRport}

theorem rportFailIoFast_eq (h : rport.state ≠ .lost) :
    rportFailIoFast rport = { rport with state := .failFast, blocked := false } := by
  have haccepts : rport.state.accepts .failFast = true := by
    cases hs : rport.state <;> simp_all [RportState.accepts]
  simp [rportFailIoFast, srpRportSetState, haccepts]

theorem srpRportSetState_running (h : rport.state ≠ .lost) :
    (srpRportSetState .running rport).2 = { rport with state := .running } := by
  have haccepts : rport.state.accepts .running = true := by
    cases hs : rport.state <;> simp_all [RportState.accepts]
  simp [srpRportSetState, haccepts]

theorem srpRportSetState_lost (rport : SrpRport) :
    (srpRportSetState .lost rport).2 = { rport with state := .lost } := by
  have haccepts : rport.state.accepts .lost = true := by
    cases rport.state <;> rfl
  simp [srpRportSetState, haccepts]

theorem rportDevLossTimedout_eq (rport : SrpRport) :
    rportDevLossTimedout rport = { rport with state := .lost, blocked := false } := by
  unfold rportDevLossTimedout
  rw [srpRportSetState_lost]

theorem srpStopRportTimers_eq (rport : SrpRport) :
    srpStopRportTimers rport =
      { rport with
        state := .lost, blocked := if rport.state = .blocked then false else rport.blocked } := by
  unfold srpStopRportTimers
  split_ifs with hs
  · rw [rportFailIoFast_eq (by rw [hs]; decide), srpRportSetState_lost]
  · rw [srpRportSetState_lost]

/-- The reconnect timer after an error. -/
def SrpRport.reconnectQueued (rport : SrpRport) : DelayedWork :=
  if 0 < rport.reconnectDelay then rport.reconnectWork.queue else rport.reconnectWork

theorem queue_or_keep (queued : Prop) [Decidable queued] (w : DelayedWork) :
    (if queued then w.queue else w) = w ∨ (if queued then w.queue else w) = w.queue := by
  split_ifs
  · exact Or.inr rfl
  · exact Or.inl rfl

/-- Everything the first part of `__srp_start_tl_fail_timers` can do. -/
inductive TlFailTimers (rport : SrpRport) : SrpRport × Option Held → Prop
  | lost : rport.state = .lost → TlFailTimers rport (rport, none)
  | failed : rport.state ≠ .lost → rport.state ≠ .running →
      TlFailTimers rport ({ rport with reconnectWork := rport.reconnectQueued }, none)
  | running : rport.state = .running →
      TlFailTimers rport
        ({ rport with reconnectWork := rport.reconnectQueued },
          some (.setBlocked rport.fastIoFailTmo rport.devLossTmo))

theorem accepts_blocked_iff (state : RportState) :
    state.accepts .blocked = true ↔ state = .running := by
  cases state <;> decide

theorem srpStartTlFailTimers_cases (rport : SrpRport) :
    TlFailTimers rport (srpStartTlFailTimers rport) := by
  have hqueued : (if 0 < rport.reconnectDelay then
      { rport with reconnectWork := rport.reconnectWork.queue } else rport) =
        { rport with reconnectWork := rport.reconnectQueued } := by
    unfold SrpRport.reconnectQueued
    split_ifs <;> rfl
  unfold srpStartTlFailTimers
  simp only [hqueued, accepts_blocked_iff]
  split_ifs with hlost hrunning
  · exact .lost hlost
  · exact .running hrunning
  · exact .failed hlost hrunning

inductive SetBlocked (fastIoFailTmo devLossTmo : ℤ) (rport : SrpRport) : SrpRport → Prop
  | kept : SetBlocked fastIoFailTmo devLossTmo rport rport
  | blocked : rport.state = .running → 0 ≤ fastIoFailTmo ∨ 0 ≤ devLossTmo →
      SetBlocked fastIoFailTmo devLossTmo rport
        { rport with
          state := .blocked, blocked := true,
          fastIoFailWork :=
            if 0 ≤ fastIoFailTmo then rport.fastIoFailWork.queue else rport.fastIoFailWork,
          devLossWork :=
            if 0 ≤ devLossTmo then rport.devLossWork.queue else rport.devLossWork }

theorem srpSetBlocked_cases (fastIoFailTmo devLossTmo : ℤ) (rport : SrpRport) :
    SetBlocked fastIoFailTmo devLossTmo rport (srpSetBlocked fastIoFailTmo devLossTmo rport) := by
  unfold srpSetBlocked srpRportSetState
  simp only [accepts_blocked_iff]
  by_cases htmo : 0 ≤ fastIoFailTmo ∨ 0 ≤ devLossTmo
  · by_cases hrunning : rport.state = .running
    · rw [if_pos htmo, if_pos hrunning]
      exact .blocked hrunning htmo
    · rw [if_pos htmo, if_neg hrunning]
      exact .kept
  · rw [if_neg htmo]
    exact .kept

inductive Reconnected (rport : SrpRport) : Attempt → Progress × SrpRport → Prop
  | interrupted : Reconnected rport .interrupted (.error, rport)
  | succeeded : rport.state ≠ .lost →
      Reconnected rport .succeeded
        (.success,
          { rport with
            state := .running, blocked := false, failedReconnects := 0,
            fastIoFailWork := rport.fastIoFailWork.cancel,
            devLossWork := rport.devLossWork.cancel })
  | failFast : rport.state = .running →
      Reconnected rport .failed (.starting, { rport with state := .failFast, blocked := false })
  | unblocked {attempt : Attempt} :
      rport.state = .lost ∨ rport.state = .failFast ∧ attempt = .failed →
      Reconnected rport attempt (.error, { rport with blocked := false })
  | blocked : rport.state = .blocked →
      Reconnected rport .failed (.error, { rport with blocked := true })

theorem srpReconnectRport_cases (attempt : Attempt) (rport : SrpRport) :
    Reconnected rport attempt (srpReconnectRport attempt rport) := by
  have hfailed : attempt ≠ .interrupted → ¬(rport.state ≠ .lost ∧ attempt = .succeeded) →
      rport.state = .lost ∨ attempt = .failed := by
    cases attempt <;> simp
  unfold srpReconnectRport
  simp only
  split_ifs with hinterrupted hok hrunning hblocked
  · rw [hinterrupted]
    exact .interrupted
  · rw [hok.2, srpRportSetState_running (by exact hok.1)]
    exact .succeeded hok.1
  · have hlost : rport.state ≠ .lost := by
      rw [hrunning]
      decide
    rw [(hfailed hinterrupted hok).resolve_left hlost, rportFailIoFast_eq (by exact hlost)]
    exact .failFast hrunning
  · apply Reconnected.unblocked
    cases hs : rport.state with
    | running => exact (hrunning hs).elim
    | blocked => exact (hblocked hs).elim
    | failFast => exact Or.inr ⟨rfl, (hfailed hinterrupted hok).resolve_left (by rw [hs]; decide)⟩
    | lost => exact Or.inl rfl
  · have hs : rport.state = .blocked := not_not.mp hblocked
    rw [(hfailed hinterrupted hok).resolve_left (by rw [hs]; decide)]
    exact .blocked hs

/-- A failed handler of `reconnect_work` queues its work again if there is a delay. -/
theorem srpReconnectWorkRetry_eq (rport : SrpRport) :
    srpReconnectWorkRetry rport =
      { rport with
        failedReconnects := rport.failedReconnects+1, reconnectWork := rport.reconnectQueued } := by
  have hfactor : 0 < min 100 (max 1 (rport.failedReconnects+1-10)) := by omega
  have hsign : 0 < rport.reconnectDelay*min 100 (max 1 (rport.failedReconnects+1-10)) ↔
      0 < rport.reconnectDelay := mul_pos_iff_of_pos_right hfactor
  unfold srpReconnectWorkRetry SrpRport.reconnectQueued
  simp only [hsign]
  split_ifs <;> rfl

end

/-- The mutex is free, or the caller does not wait for it. -/
def State.admits (s : State) (attempt : Attempt) : Prop := s.held = none ∨ attempt = .interrupted

inductive Stepped (s : State) : Event → State → Prop
  | tlError {r : SrpRport × Option Held} : s.held = none → TlFailTimers s.rport r →
      Stepped s .tlError { s with rport := r.1, held := r.2 }
  | setBlocked {fastIoFailTmo devLossTmo : ℤ} {rport : SrpRport} :
      s.held = some (.setBlocked fastIoFailTmo devLossTmo) →
      SetBlocked fastIoFailTmo devLossTmo s.rport rport →
      Stepped s .setBlocked { s with rport := rport, held := none }
  | reconnect {attempt : Attempt} {r : Progress × SrpRport} : s.admits attempt →
      Reconnected s.rport attempt r → Stepped s (.reconnect attempt) (s.reconnected false r)
  | startTimers {work : Bool} {r : SrpRport × Option Held} :
      s.held = some (.startTimers work) → TlFailTimers s.rport r →
      Stepped s .startTimers
        { s with rport := r.1, held := r.2,
                 retrying := if work then s.retrying+1 else s.retrying }
  | started {name : WorkName} : (s.rport.work name).pending = true →
      Stepped s (.start name) { s with rport := s.rport.setWork name (s.rport.work name).start }
  | reconnectWork {attempt : Attempt} {r : Progress × SrpRport} :
      s.rport.reconnectWork.started ≠ 0 → s.admits attempt → Reconnected s.rport attempt r →
      Stepped s (.reconnectWork attempt) (s.reconnected true r)
  | retry : s.retrying ≠ 0 →
      Stepped s .retry
        { s with rport := { s.rport with failedReconnects := s.rport.failedReconnects+1,
                                         reconnectWork := s.rport.reconnectQueued },
                 retrying := s.retrying-1 }
  | failedFast : s.rport.fastIoFailWork.started ≠ 0 → s.held = none → s.rport.state = .blocked →
      Stepped s .fastIoFailTimedout
        { s with rport := { s.rport with state := .failFast, blocked := false,
                                         fastIoFailWork := s.rport.fastIoFailWork.finish } }
  | failedLate : s.rport.fastIoFailWork.started ≠ 0 → s.held = none → s.rport.state ≠ .blocked →
      Stepped s .fastIoFailTimedout
        { s with rport := { s.rport with fastIoFailWork := s.rport.fastIoFailWork.finish } }
  | devLoss : s.rport.devLossWork.started ≠ 0 → s.held = none →
      Stepped s .devLossTimedout
        { s with rport := { s.rport with state := .lost, blocked := false,
                                         devLossWork := s.rport.devLossWork.finish } }
  | refused {name : TmoName} {value : ℤ} : Stepped s (.store name value) s
  | storeQueued {value : ℤ} : s.stopping = none → s.rport.reconnectDelay ≤ 0 → 0 < value →
      s.rport.state ≠ .running →
      Stepped s (.store .reconnectDelay value)
        { s with rport := { s.rport with reconnectWork := s.rport.reconnectWork.queue },
                 storing := s.storing++[(.reconnectDelay, value)] }
  | storeCancelled {value : ℤ} : s.stopping = none → value ≤ 0 →
      Stepped s (.store .reconnectDelay value)
        { s with rport := { s.rport with reconnectWork := s.rport.reconnectWork.cancel },
                 storing := s.storing++[(.reconnectDelay, value)] }
  | storeKept {name : TmoName} {value : ℤ} : s.stopping = none →
      (name = .reconnectDelay → 0 < value ∧
        (0 < s.rport.reconnectDelay ∨ s.rport.state = .running)) →
      Stepped s (.store name value) { s with storing := s.storing++[(name, value)] }
  | assigned {name : TmoName} {value : ℤ} : (name, value) ∈ s.storing →
      Stepped s (.assign name value)
        { s with rport := s.rport.setTmo name value, storing := s.storing.erase (name, value) }
  | stop : s.stopping = none → s.storing = [] → s.held = none →
      Stepped s .stop
        { s with rport := { s.rport with
                   state := .lost,
                   blocked := if s.rport.state = .blocked then false else s.rport.blocked },
                 stopping := some [.reconnect, .fastIoFail, .devLoss] }
  | cancelSync {name : WorkName} {names : List WorkName} : s.stopping = some (name::names) →
      s.idle name = true →
      Stepped s .cancelSync
        { s with rport := s.rport.setWork name (s.rport.work name).cancel, stopping := some names }

section
variable {hz : ℕ} {s s' : State} {e : Event}

theorem stored_cases (hstop : s.stopping = none) (name : TmoName) (value : ℤ) :
    Stepped s (.store name value) (s.stored name value (store hz name value s.rport)) := by
  cases name with
  | reconnectDelay =>
      simp only [store, storeReconnectDelay]
      split_ifs with hvalid hqueue hcancel
      · exact .refused
      · exact .storeQueued hstop hqueue.1 hqueue.2.1 hqueue.2.2
      · exact .storeCancelled hstop hcancel
      · apply Stepped.storeKept hstop
        intro _
        have hpos : 0 < value := by omega
        refine ⟨hpos, ?_⟩
        by_contra hnot
        have hparts := not_or.mp hnot
        exact hqueue ⟨Int.not_lt.mp hparts.1, hpos, hparts.2⟩
  | fastIoFail =>
      simp only [store, storeSrpRportFastIoFailTmo]
      split_ifs
      · exact .refused
      · exact .storeKept hstop TmoName.noConfusion
  | devLoss =>
      simp only [store, storeSrpRportDevLossTmo]
      split_ifs
      · exact .refused
      · exact .storeKept hstop TmoName.noConfusion

theorem admits_of_not {attempt : Attempt} (h : ¬(s.held ≠ none ∧ attempt ≠ .interrupted)) :
    s.admits attempt := by
  by_cases hheld : s.held = none
  · exact Or.inl hheld
  · exact Or.inr (not_not.mp fun hattempt => h ⟨hheld, hattempt⟩)

theorem step_cases (h : step hz s e = some s') : Stepped s e s' := by
  cases e with
  | tlError =>
      simp only [step] at h
      split_ifs at h with hheld
      cases h
      exact .tlError (not_not.mp hheld) (srpStartTlFailTimers_cases s.rport)
  | setBlocked =>
      simp only [step] at h
      split at h
      · rename_i fastIoFailTmo devLossTmo hheld
        cases h
        exact .setBlocked hheld (srpSetBlocked_cases fastIoFailTmo devLossTmo s.rport)
      · cases h
  | reconnect attempt =>
      simp only [step] at h
      split_ifs at h with hheld
      cases h
      exact .reconnect (admits_of_not hheld) (srpReconnectRport_cases attempt s.rport)
  | startTimers =>
      simp only [step] at h
      split at h
      · rename_i work hheld
        cases h
        exact .startTimers hheld (srpStartTlFailTimers_cases s.rport)
      · cases h
  | start name =>
      simp only [step] at h
      split_ifs at h with hpending
      cases h
      exact .started hpending
  | reconnectWork attempt =>
      simp only [step] at h
      split_ifs at h with hguard
      cases h
      have hparts := not_or.mp hguard
      exact .reconnectWork hparts.1 (admits_of_not hparts.2)
        (srpReconnectRport_cases attempt s.rport)
  | retry =>
      simp only [step, srpReconnectWorkRetry_eq] at h
      split_ifs at h with hretrying
      cases h
      exact .retry hretrying
  | fastIoFailTimedout =>
      simp only [step, rportFastIoFailTimedout] at h
      split_ifs at h with hguard hblocked
      · cases h
        have hparts := not_or.mp hguard
        rw [rportFailIoFast_eq (by rw [hblocked]; decide)]
        exact .failedFast hparts.1 (not_not.mp hparts.2) hblocked
      · cases h
        have hparts := not_or.mp hguard
        exact .failedLate hparts.1 (not_not.mp hparts.2) hblocked
  | devLossTimedout =>
      simp only [step, rportDevLossTimedout_eq] at h
      split_ifs at h with hguard
      cases h
      have hparts := not_or.mp hguard
      exact .devLoss hparts.1 (not_not.mp hparts.2)
  | store name value =>
      simp only [step] at h
      split_ifs at h with hstop
      cases h
      exact stored_cases (not_not.mp hstop) name value
  | assign name value =>
      simp only [step] at h
      split_ifs at h with hmem
      cases h
      exact .assigned hmem
  | stop =>
      simp only [step, srpStopRportTimers_eq] at h
      split at h
      · cases h
      · rename_i hstop
        cases h
        have hparts := not_or.mp hstop
        have hrest := not_or.mp hparts.2
        exact .stop (not_not.mp hparts.1) (not_not.mp hrest.1) (not_not.mp hrest.2)
  | cancelSync =>
      simp only [step] at h
      split at h
      · rename_i name names hstop
        split_ifs at h with hidle
        cases h
        exact .cancelSync hstop hidle
      · cases h

end

end IbSrp.RportTransport

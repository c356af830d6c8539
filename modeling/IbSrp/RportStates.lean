import IbSrp.RportTransport

/-!
# The states of a remote port

The documented diagram says which causes move a port from one state to another.
The model follows it with one exception. `cancel_delayed_work` does not stop a
handler of `dev_loss_work` that has started and waits for `rport->mutex`. If a
reconnect succeeds meanwhile, the handler still declares the port lost, although
it is RUNNING and no error has occurred since.

`Effect` keeps of a step what matters here: the state of the port and its device
loss timer. In every run in which no reconnect succeeds while a handler of
`dev_loss_work` waits, a port that is RUNNING has an idle device loss timer, and
every change of state is an edge of the diagram.
-/
namespace IbSrp.RportStates
open LabelledRuns RportTransport

inductive Cause where
  | tlError
  | reconnectFailed
  | reconnected
  | fastIoFailExpired
  | devLossExpired
  | removed
deriving DecidableEq, Repr

/-- The documented state diagram, and the removal of a port. -/
inductive Diagram : RportState → Cause → RportState → Prop
  | error : Diagram .running .tlError .blocked
  | errorAfterDeletion : Diagram .running .reconnectFailed .failFast
  | fastIoFail : Diagram .blocked .fastIoFailExpired .failFast
  | blockedLost : Diagram .blocked .devLossExpired .lost
  | failFastLost : Diagram .failFast .devLossExpired .lost
  | blockedRunning : Diagram .blocked .reconnected .running
  | failFastRunning : Diagram .failFast .reconnected .running
  | removed {state : RportState} : Diagram state .removed .lost

/-- The cause for which an event can change the state. -/
def cause : Event → Option Cause
  | .setBlocked => some .tlError
  | .reconnect .failed => some .reconnectFailed
  | .reconnectWork .failed => some .reconnectFailed
  | .reconnect .succeeded => some .reconnected
  | .reconnectWork .succeeded => some .reconnected
  | .fastIoFailTimedout => some .fastIoFailExpired
  | .devLossTimedout => some .devLossExpired
  | .stop => some .removed
  | _ => none

/-- What an event does to the state of the port and to its device loss timer. -/
inductive Effect : RportState → DelayedWork → Event → RportState → DelayedWork → Prop
  | same {state : RportState} {w : DelayedWork} {e : Event} : Effect state w e state w
  | blocked {w w' : DelayedWork} : w' = w ∨ w' = w.queue → Effect .running w .setBlocked .blocked w'
  | failFast {w : DelayedWork} {e : Event} : cause e = some .reconnectFailed →
      Effect .running w e .failFast w
  | reconnected {state : RportState} {w : DelayedWork} {e : Event} : state ≠ .lost →
      cause e = some .reconnected → Effect state w e .running w.cancel
  | started {state : RportState} {w : DelayedWork} : w.pending = true →
      Effect state w (.start .devLoss) state w.start
  | fastIoFail {w : DelayedWork} : Effect .blocked w .fastIoFailTimedout .failFast w
  | devLoss {state : RportState} {w : DelayedWork} : w.started ≠ 0 →
      Effect state w .devLossTimedout .lost w.finish
  | removed {state : RportState} {w : DelayedWork} : Effect state w .stop .lost w
  | cancelled {state : RportState} {w : DelayedWork} : Effect state w .cancelSync state w.cancel

section
variable {hz : ℕ} {s s' : State} {e : Event} {rport rport' : SrpRport}

theorem effect_tlError {r : SrpRport × Option Held} (h : TlFailTimers rport r) :
    Effect rport.state rport.devLossWork e r.1.state r.1.devLossWork := by
  cases h <;> exact .same

theorem effect_setBlocked {fastIoFailTmo devLossTmo : ℤ}
    (h : SetBlocked fastIoFailTmo devLossTmo rport rport') :
    Effect rport.state rport.devLossWork .setBlocked rport'.state rport'.devLossWork := by
  cases h with
  | kept => exact .same
  | blocked hrunning _ =>
      rw [hrunning]
      exact .blocked (queue_or_keep _ _)

theorem effect_reconnect {attempt : Attempt} {r : Progress × SrpRport}
    (h : Reconnected rport attempt r)
    (hfailed : attempt = .failed → cause e = some .reconnectFailed)
    (hsucceeded : attempt = .succeeded → cause e = some .reconnected) :
    Effect rport.state rport.devLossWork e r.2.state r.2.devLossWork := by
  cases h with
  | interrupted => exact .same
  | succeeded hlost => exact .reconnected hlost (hsucceeded rfl)
  | failFast hrunning =>
      rw [hrunning]
      exact .failFast (hfailed rfl)
  | unblocked _ => exact .same
  | blocked _ => exact .same

/-- Every step of the model has one of these effects. -/
theorem step_effect (h : step hz s e = some s') :
    Effect s.rport.state s.rport.devLossWork e s'.rport.state s'.rport.devLossWork := by
  cases step_cases h with
  | tlError _ htimers => exact effect_tlError htimers
  | setBlocked _ hblocked => exact effect_setBlocked hblocked
  | reconnect _ hattempt =>
      exact effect_reconnect hattempt (fun ha => by rw [ha]; rfl) (fun ha => by rw [ha]; rfl)
  | startTimers _ htimers => exact effect_tlError htimers
  | @started name hpending =>
      cases name with
      | reconnect => exact .same
      | fastIoFail => exact .same
      | devLoss => exact .started hpending
  | reconnectWork _ _ hattempt =>
      exact effect_reconnect hattempt (fun ha => by rw [ha]; rfl) (fun ha => by rw [ha]; rfl)
  | retry _ => exact .same
  | failedFast _ _ hblocked =>
      rw [hblocked]
      exact .fastIoFail
  | failedLate _ _ _ => exact .same
  | devLoss hstarted _ => exact .devLoss hstarted
  | refused => exact .same
  | storeQueued _ _ _ _ => exact .same
  | storeCancelled _ _ => exact .same
  | storeKept _ _ => exact .same
  | @assigned name value _ =>
      cases name with
      | reconnectDelay => exact .same
      | fastIoFail => exact .same
      | devLoss => exact .same
  | stop _ _ _ => exact .removed
  | @cancelSync name _ _ _ =>
      cases name with
      | reconnect => exact .same
      | fastIoFail => exact .same
      | devLoss => exact .cancelled

end

def Idle (w : DelayedWork) : Prop := w.pending = false ∧ w.started = 0

/-- No reconnect succeeds while a handler of `dev_loss_work` waits for the mutex. -/
def Unraced (s : State) (e : Event) : Prop :=
  cause e = some .reconnected → s.rport.devLossWork.started = 0

/-- Neither a part of a transport layer error nor the removal of the port. -/
def Quiet (e : Event) : Prop := e ≠ .tlError ∧ e ≠ .setBlocked ∧ e ≠ .stop

section
variable {state state' : RportState} {w w' : DelayedWork} {e : Event}

/-- While the device loss timer of a running port is idle, the diagram is followed. -/
theorem Effect.diagram (h : Effect state w e state' w') (hidle : state = .running → Idle w) :
    state' = state ∨ ∃ c, cause e = some c ∧ Diagram state c state' := by
  cases h with
  | same => exact Or.inl rfl
  | blocked _ => exact Or.inr ⟨_, rfl, .error⟩
  | failFast hcause => exact Or.inr ⟨_, hcause, .errorAfterDeletion⟩
  | reconnected hlost hcause =>
      cases state with
      | running => exact Or.inl rfl
      | blocked => exact Or.inr ⟨_, hcause, .blockedRunning⟩
      | failFast => exact Or.inr ⟨_, hcause, .failFastRunning⟩
      | lost => exact (hlost rfl).elim
  | started _ => exact Or.inl rfl
  | fastIoFail => exact Or.inr ⟨_, rfl, .fastIoFail⟩
  | devLoss hstarted =>
      cases state with
      | running => exact (hstarted (hidle rfl).2).elim
      | blocked => exact Or.inr ⟨_, rfl, .blockedLost⟩
      | failFast => exact Or.inr ⟨_, rfl, .failFastLost⟩
      | lost => exact Or.inl rfl
  | removed => exact Or.inr ⟨_, rfl, .removed⟩
  | cancelled => exact Or.inl rfl

/-- What the diagram says about LOST, BLOCKED and FAIL_FAST. -/
theorem diagram_paths (h : state' = state ∨ ∃ c, cause e = some c ∧ Diagram state c state') :
    (state = .lost → state' = .lost) ∧
      (state' = .blocked → state = .blocked ∨ state = .running) ∧
      (state = .failFast → state' = .failFast ∨ state' = .lost ∨
        state' = .running ∧ cause e = some .reconnected) := by
  cases h with
  | inl hsame =>
      rw [hsame]
      exact ⟨id, Or.inl, Or.inl⟩
  | inr hedge =>
      obtain ⟨c, hcause, hedge⟩ := hedge
      cases hedge <;> simp [hcause]

theorem Effect.lost (h : Effect .lost w e state' w') : state' = .lost := by
  cases h with
  | same => rfl
  | reconnected hlost _ => exact (hlost rfl).elim
  | started _ => rfl
  | devLoss _ => rfl
  | removed => rfl
  | cancelled => rfl

/-- A port that gets RUNNING has an idle device loss timer, if no handler was waiting. -/
theorem Effect.idle (h : Effect state w e state' w') (hidle : state = .running → Idle w)
    (hunraced : cause e = some .reconnected → w.started = 0) : state' = .running → Idle w' := by
  intro hrunning
  cases h with
  | same => exact hidle hrunning
  | blocked _ => cases hrunning
  | failFast _ => cases hrunning
  | reconnected _ hcause => exact ⟨rfl, hunraced hcause⟩
  | started hpending =>
      rw [(hidle hrunning).1] at hpending
      cases hpending
  | fastIoFail => cases hrunning
  | devLoss _ => cases hrunning
  | removed => cases hrunning
  | cancelled => exact ⟨rfl, (hidle hrunning).2⟩

/-- Without an error the device loss timer stays idle. -/
theorem Effect.quiet (h : Effect state w e state' w') (hidle : Idle w) (hlost : state ≠ .lost)
    (hquiet : Quiet e) : Idle w' ∧ state' ≠ .lost := by
  cases h with
  | same => exact ⟨hidle, hlost⟩
  | blocked _ => exact (hquiet.2.1 rfl).elim
  | failFast _ => exact ⟨hidle, RportState.noConfusion⟩
  | reconnected _ _ => exact ⟨⟨rfl, hidle.2⟩, RportState.noConfusion⟩
  | started hpending =>
      rw [hidle.1] at hpending
      cases hpending
  | fastIoFail => exact ⟨hidle, RportState.noConfusion⟩
  | devLoss hstarted => exact (hstarted hidle.2).elim
  | removed => exact (hquiet.2.2 rfl).elim
  | cancelled => exact ⟨⟨rfl, hidle.2⟩, hlost⟩

end

section
variable {hz : ℕ} {s s' : State}

theorem idle_run {reconnectDelay fastIoFailTmo devLossTmo : ℤ}
    (hrun : Run (step hz) Unraced (State.added reconnectDelay fastIoFailTmo devLossTmo) s) :
    s.rport.state = .running → Idle s.rport.devLossWork := by
  apply hrun.invariant (I := fun s => s.rport.state = .running → Idle s.rport.devLossWork)
  · exact fun _ => ⟨rfl, rfl⟩
  · intro s e s' hs hok hstep
    exact (step_effect hstep).idle hs hok

theorem quiet_run {ok : State → Event → Prop} (hquiet : ∀ s e, ok s e → Quiet e)
    (hidle : Idle s.rport.devLossWork) (hlost : s.rport.state ≠ .lost)
    (hrun : Run (step hz) ok s s') : s'.rport.state ≠ .lost := by
  have h : Idle s'.rport.devLossWork ∧ s'.rport.state ≠ .lost := by
    apply hrun.invariant (I := fun s => Idle s.rport.devLossWork ∧ s.rport.state ≠ .lost)
    · exact ⟨hidle, hlost⟩
    · intro s e s' hs hok hstep
      exact (step_effect hstep).quiet hs.1 hs.2 (hquiet s e hok)
  exact h.2

theorem started_of_devLossTimedout (h : step hz s .devLossTimedout = some s') :
    s.rport.devLossWork.started ≠ 0 := by
  cases step_cases h with
  | devLoss hstarted _ => exact hstarted

/-- In every run in which no reconnect succeeds while a handler of `dev_loss_work` waits for
the mutex: LOST is not left, BLOCKED is entered only from RUNNING, FAIL_FAST is left only to
LOST or by a successful reconnect to RUNNING, the device loss timer moves the port to LOST only
from BLOCKED or FAIL_FAST, and a RUNNING port is not declared lost before the next error. -/
theorem rport_states_safe {reconnectDelay fastIoFailTmo devLossTmo : ℤ}
    (hrun : Run (step hz) Unraced (State.added reconnectDelay fastIoFailTmo devLossTmo) s) :
    (∀ e s', step hz s e = some s' →
      (s.rport.state = .lost → s'.rport.state = .lost) ∧
      (s'.rport.state = .blocked → s.rport.state = .blocked ∨ s.rport.state = .running) ∧
      (s.rport.state = .failFast → s'.rport.state = .failFast ∨ s'.rport.state = .lost ∨
        s'.rport.state = .running ∧ cause e = some .reconnected) ∧
      (e = .devLossTimedout → s.rport.state ≠ .lost →
        s.rport.state = .blocked ∨ s.rport.state = .failFast)) ∧
      (s.rport.state = .running → ∀ s', Run (step hz) (fun _ e => Quiet e) s s' →
        s'.rport.state ≠ .lost) := by
  have hidle := idle_run hrun
  constructor
  · intro e s' hstep
    have hpaths := diagram_paths ((step_effect hstep).diagram hidle)
    refine ⟨hpaths.1, hpaths.2.1, hpaths.2.2, ?_⟩
    intro he hlost
    rw [he] at hstep
    have hstarted := started_of_devLossTimedout hstep
    cases hs : s.rport.state with
    | running => exact (hstarted (hidle hs).2).elim
    | blocked => exact Or.inl rfl
    | failFast => exact Or.inr rfl
    | lost => exact (hlost hs).elim
  · intro hrunning s' hrun'
    exact quiet_run (fun _ _ => id) (hidle hrunning) (by rw [hrunning]; decide) hrun'

end

instance (s : State) (e : Event) : Decidable (Unraced s e) :=
  inferInstanceAs (Decidable (cause e = some .reconnected → s.rport.devLossWork.started = 0))

/-- The port fails, the fast I/O fail timer expires, and a reconnect succeeds. -/
def recovered : List Event :=
  [.tlError, .setBlocked, .start .fastIoFail, .fastIoFailTimedout, .reconnect .succeeded]

theorem rport_states_safe_recovered : ∃ s,
    Run (step 1000) Unraced (State.added 10 15 600) s ∧ s.rport.state = .running ∧
      ∀ s', Run (step 1000) (fun _ e => Quiet e) s s' → s'.rport.state ≠ .lost := by
  have h : Reaches (guarded (step 1000) Unraced) recovered (State.added 10 15 600)
      (fun s => s.rport.state = .running) = true := by decide +kernel
  obtain ⟨s, hrun, hs⟩ := run_of_reaches h
  have hrunning := of_decide_eq_true hs
  exact ⟨s, hrun, hrunning, (rport_states_safe hrun).2 hrunning⟩

/-- The handler of `dev_loss_work` starts just before the reconnect succeeds. -/
def overtaken : List Event :=
  [.tlError, .setBlocked, .start .fastIoFail, .fastIoFailTimedout, .start .devLoss,
    .reconnect .succeeded]

theorem running_port_lost : ∃ s, AnyRun (step 1000) (State.added 10 15 600) s ∧
    s.rport.state = .running ∧
      ∃ s', step 1000 s .devLossTimedout = some s' ∧ s'.rport.state = .lost := by
  have h : Reaches (step 1000) overtaken (State.added 10 15 600)
      (fun s => s.rport.state = .running ∧
        ∃ s' ∈ step 1000 s .devLossTimedout, s'.rport.state = .lost) = true := by
    decide +kernel
  obtain ⟨s, hrun, hs⟩ := anyRun_of_reaches h
  exact ⟨s, hrun, of_decide_eq_true hs⟩

end IbSrp.RportStates

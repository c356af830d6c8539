import IbSrp.RportStates

/-!
# The recovery timers of a remote port

A port that is BLOCKED has blocked devices, and the devices are released only
by a timer or by a reconnect. In every run the devices are blocked exactly in
state BLOCKED, and then a handler of `fast_io_fail_work` or `dev_loss_work` is
still to come, whatever is written to the timeouts meanwhile.

In FAIL_FAST the device loss timer should be running too. It is, unless a
reconnect attempt fails on a port that is RUNNING: the port then gets FAIL_FAST
first and the timers are started afterwards, which is only done on the way to
BLOCKED. Such a port is not removed any more unless a reconnect succeeds.

`srp_stop_rport_timers` sets LOST and then cancels the works one by one. A work
that has been cancelled stays idle, because nothing queues a work in state LOST
except the handler of `reconnect_work` itself.
-/
namespace IbSrp.RportTimers
open LabelledRuns RportTransport RportStates

/-- Pending, or dispatched and not yet run. -/
def Due (w : DelayedWork) : Prop := w.pending = true ∨ w.started ≠ 0

theorem due_queue (w : DelayedWork) : Due w.queue := Or.inl rfl

theorem due_start (w : DelayedWork) : Due w.start := Or.inr (Nat.succ_ne_zero _)

section
variable {hz : ℕ} {s s' : State} {e : Event}

theorem lost_step (h : step hz s e = some s') (hlost : s.rport.state = .lost) :
    s'.rport.state = .lost := by
  have heffect := step_effect h
  rw [hlost] at heffect
  exact heffect.lost

theorem lost_of_stopping {ok : State → Event → Prop} {reconnectDelay fastIoFailTmo devLossTmo : ℤ}
    (hrun : Run (step hz) ok (State.added reconnectDelay fastIoFailTmo devLossTmo) s) :
    s.stopping ≠ none → s.rport.state = .lost := by
  apply hrun.invariant (I := fun s => s.stopping ≠ none → s.rport.state = .lost)
  · exact fun h => (h rfl).elim
  · intro s e s' hs _ hstep hstop
    have hkeep : s.stopping ≠ none → s'.rport.state = .lost := fun h => lost_step hstep (hs h)
    cases step_cases hstep with
    | stop _ _ _ => rfl
    | cancelSync hnames _ => exact hkeep (by rw [hnames]; exact Option.some_ne_none _)
    | _ => exact hkeep hstop

end

/-- The devices are blocked in state BLOCKED only, and then a timer will release them. -/
structure Released (rport : SrpRport) : Prop where
  devices : rport.blocked = true ↔ rport.state = .blocked
  timer : rport.state = .blocked → Due rport.fastIoFailWork ∨ Due rport.devLossWork

section
variable {rport rport' : SrpRport}

theorem Released.unblocked (h : rport.state ≠ .blocked) (hdevices : rport.blocked = false) :
    Released rport := by
  constructor
  · simp [h, hdevices]
  · exact fun hblocked => (h hblocked).elim

theorem Released.tlError (h : Released rport) {r : SrpRport × Option Held}
    (htimers : TlFailTimers rport r) : Released r.1 := by
  cases htimers <;> exact ⟨h.devices, h.timer⟩

theorem Released.setBlocked (h : Released rport) {fastIoFailTmo devLossTmo : ℤ}
    (hblocked : SetBlocked fastIoFailTmo devLossTmo rport rport') : Released rport' := by
  cases hblocked with
  | kept => exact h
  | blocked _ htmo =>
      constructor
      · simp
      · intro _
        cases htmo with
        | inl hfast =>
            simp only [if_pos hfast]
            exact Or.inl (due_queue _)
        | inr hloss =>
            simp only [if_pos hloss]
            exact Or.inr (due_queue _)

theorem Released.reconnected (h : Released rport) {attempt : Attempt} {r : Progress × SrpRport}
    (hattempt : Reconnected rport attempt r) : Released r.2 := by
  cases hattempt with
  | interrupted => exact h
  | succeeded _ => exact .unblocked RportState.noConfusion rfl
  | failFast _ => exact .unblocked RportState.noConfusion rfl
  | unblocked hstate =>
      have hnot : rport.state ≠ .blocked := by
        cases hstate with
        | inl hlost =>
            rw [hlost]
            decide
        | inr hfail =>
            rw [hfail.1]
            decide
      exact .unblocked hnot rfl
  | blocked hblocked => exact ⟨by simp [hblocked], h.timer⟩

theorem Released.start (h : Released rport) (name : WorkName) :
    Released (rport.setWork name (rport.work name).start) := by
  cases name with
  | reconnect => exact ⟨h.devices, h.timer⟩
  | fastIoFail => exact ⟨h.devices, fun _ => Or.inl (due_start _)⟩
  | devLoss => exact ⟨h.devices, fun _ => Or.inr (due_start _)⟩

theorem Released.setWork (h : Released rport) (hlost : rport.state = .lost) (name : WorkName)
    (w : DelayedWork) : Released (rport.setWork name w) := by
  have hdevices : rport.blocked = false := by
    have hiff := h.devices
    rw [hlost] at hiff
    simpa using hiff
  have hnot : rport.state ≠ .blocked := by
    rw [hlost]
    decide
  cases name <;> exact .unblocked hnot hdevices

theorem Released.setTmo (h : Released rport) (name : TmoName) (value : ℤ) :
    Released (rport.setTmo name value) := by
  cases name <;> exact ⟨h.devices, h.timer⟩

theorem Released.stop (h : Released rport) :
    Released { rport with
      state := .lost, blocked := if rport.state = .blocked then false else rport.blocked } := by
  apply Released.unblocked
  · exact RportState.noConfusion
  · change (if rport.state = .blocked then false else rport.blocked) = false
    split_ifs with hblocked
    · rfl
    · exact Bool.eq_false_iff.mpr fun hdevices => hblocked (h.devices.mp hdevices)

end

section
variable {hz : ℕ} {s s' : State} {e : Event}

theorem Released.stepped (h : Released s.rport) (hstop : s.stopping ≠ none → s.rport.state = .lost)
    (hstep : step hz s e = some s') : Released s'.rport := by
  cases step_cases hstep with
  | tlError _ htimers => exact h.tlError htimers
  | setBlocked _ hblocked => exact h.setBlocked hblocked
  | reconnect _ hattempt => exact h.reconnected hattempt
  | startTimers _ htimers => exact h.tlError htimers
  | started _ => exact h.start _
  | reconnectWork _ _ hattempt =>
      have hr := h.reconnected hattempt
      exact ⟨hr.devices, hr.timer⟩
  | retry _ => exact ⟨h.devices, h.timer⟩
  | failedFast _ _ _ => exact .unblocked RportState.noConfusion rfl
  | failedLate _ _ hnot => exact ⟨h.devices, fun hblocked => (hnot hblocked).elim⟩
  | devLoss _ _ => exact .unblocked RportState.noConfusion rfl
  | refused => exact h
  | storeQueued _ _ _ _ => exact ⟨h.devices, h.timer⟩
  | storeCancelled _ _ => exact ⟨h.devices, h.timer⟩
  | storeKept _ _ => exact h
  | assigned _ => exact h.setTmo _ _
  | stop _ _ _ => exact h.stop
  | cancelSync hnames _ =>
      exact h.setWork (hstop (by rw [hnames]; exact Option.some_ne_none _)) _ _

/-- In every run the devices are blocked exactly when the port is BLOCKED, and then one of the
two timers that release them is due. -/
theorem blocked_devices_released {reconnectDelay fastIoFailTmo devLossTmo : ℤ}
    (hrun : AnyRun (step hz) (State.added reconnectDelay fastIoFailTmo devLossTmo) s) :
    (s.rport.blocked = true ↔ s.rport.state = .blocked) ∧
      (s.rport.state = .blocked → Due s.rport.fastIoFailWork ∨ Due s.rport.devLossWork) := by
  have h : Released s.rport ∧ (s.stopping ≠ none → s.rport.state = .lost) := by
    refine ⟨?_, lost_of_stopping hrun⟩
    induction hrun with
    | start => exact .unblocked RportState.noConfusion rfl
    | more hrun _ hstep ih => exact ih.stepped (lost_of_stopping hrun) hstep
  exact ⟨h.1.devices, h.1.timer⟩

end

/-- An error, a failed attempt to reconnect, and both timeouts switched off or changed. -/
def blockedThenWritten : List Event :=
  [.tlError, .setBlocked, .reconnect .failed, .store .fastIoFail (-1), .assign .fastIoFail (-1),
    .start .fastIoFail]

theorem blocked_devices_released_after_write : ∃ s,
    AnyRun (step 1000) (State.added 10 15 600) s ∧ s.rport.state = .blocked ∧
      s.rport.fastIoFailTmo = -1 ∧ s.rport.blocked = true ∧
      (Due s.rport.fastIoFailWork ∨ Due s.rport.devLossWork) := by
  have h : Reaches (step 1000) blockedThenWritten (State.added 10 15 600)
      (fun s => s.rport.state = .blocked ∧ s.rport.fastIoFailTmo = -1) = true := by
    decide +kernel
  obtain ⟨s, hrun, hs⟩ := anyRun_of_reaches h
  have hstate := of_decide_eq_true hs
  have hreleased := blocked_devices_released hrun
  exact ⟨s, hrun, hstate.1, hstate.2, hreleased.1.mpr hstate.1, hreleased.2 hstate.1⟩

/-- The event is part of a write to a timeout. -/
def writes : Event → Bool
  | .store _ _ => true
  | .assign _ _ => true
  | _ => false

/-- No timeout is written, and no attempt to reconnect fails on a port that is RUNNING. -/
def FailsFromBlocked (s : State) (e : Event) : Prop :=
  writes e = false ∧ (cause e = some .reconnectFailed → s.rport.state ≠ .running)

/-- With the device loss timeout on, the device loss timer of a failed port is due. -/
structure LossDue (rport : SrpRport) : Prop where
  tmo : 0 ≤ rport.devLossTmo
  due : rport.state = .blocked ∨ rport.state = .failFast → Due rport.devLossWork

/-- A thread that is about to set BLOCKED has read a device loss timeout that is on. -/
def LossRead (held : Option Held) : Prop :=
  ∀ fastIoFailTmo devLossTmo, held = some (.setBlocked fastIoFailTmo devLossTmo) → 0 ≤ devLossTmo

section
variable {rport rport' : SrpRport}

theorem LossDue.tlError (h : LossDue rport) {r : SrpRport × Option Held}
    (htimers : TlFailTimers rport r) : LossDue r.1 ∧ LossRead r.2 := by
  cases htimers with
  | lost _ => exact ⟨h, fun _ _ hheld => by cases hheld⟩
  | failed _ _ => exact ⟨⟨h.tmo, h.due⟩, fun _ _ hheld => by cases hheld⟩
  | running _ =>
      refine ⟨⟨h.tmo, h.due⟩, ?_⟩
      intro fastIoFailTmo devLossTmo hheld
      cases hheld
      exact h.tmo

theorem LossDue.setBlocked (h : LossDue rport) {fastIoFailTmo devLossTmo : ℤ}
    (hread : 0 ≤ devLossTmo) (hblocked : SetBlocked fastIoFailTmo devLossTmo rport rport') :
    LossDue rport' := by
  cases hblocked with
  | kept => exact h
  | blocked _ _ =>
      refine ⟨h.tmo, fun _ => ?_⟩
      simp only [if_pos hread]
      exact due_queue _

theorem LossDue.reconnected (h : LossDue rport) {attempt : Attempt} {r : Progress × SrpRport}
    (hattempt : Reconnected rport attempt r)
    (hfailed : attempt = .failed → rport.state ≠ .running) :
    LossDue r.2 ∧ r.1 ≠ .starting := by
  cases hattempt with
  | interrupted => exact ⟨h, Progress.noConfusion⟩
  | succeeded _ => exact ⟨⟨h.tmo, by simp⟩, Progress.noConfusion⟩
  | failFast hrunning => exact (hfailed rfl hrunning).elim
  | unblocked _ => exact ⟨⟨h.tmo, h.due⟩, Progress.noConfusion⟩
  | blocked _ => exact ⟨⟨h.tmo, h.due⟩, Progress.noConfusion⟩

theorem LossDue.start (h : LossDue rport) (name : WorkName) :
    LossDue (rport.setWork name (rport.work name).start) := by
  cases name with
  | reconnect => exact ⟨h.tmo, h.due⟩
  | fastIoFail => exact ⟨h.tmo, h.due⟩
  | devLoss => exact ⟨h.tmo, fun _ => due_start _⟩

theorem LossDue.setWork (h : LossDue rport) (hlost : rport.state = .lost) (name : WorkName)
    (w : DelayedWork) : LossDue (rport.setWork name w) := by
  cases name <;> exact ⟨h.tmo, by simp [SrpRport.setWork, hlost]⟩

end

section
variable {hz : ℕ} {s s' : State} {e : Event}

theorem LossDue.stepped (h : LossDue s.rport ∧ LossRead s.held)
    (hstop : s.stopping ≠ none → s.rport.state = .lost) (hok : FailsFromBlocked s e)
    (hstep : step hz s e = some s') : LossDue s'.rport ∧ LossRead s'.held := by
  have hdue := h.1
  cases step_cases hstep with
  | tlError _ htimers => exact hdue.tlError htimers
  | setBlocked hheld hblocked =>
      exact ⟨hdue.setBlocked (h.2 _ _ hheld) hblocked, fun _ _ hnone => by cases hnone⟩
  | reconnect _ hattempt =>
      have hr := hdue.reconnected hattempt fun ha => hok.2 (by rw [ha]; rfl)
      refine ⟨⟨hr.1.tmo, hr.1.due⟩, ?_⟩
      simp only [State.reconnected, if_neg hr.2]
      exact h.2
  | startTimers _ htimers => exact hdue.tlError htimers
  | started _ => exact ⟨hdue.start _, h.2⟩
  | reconnectWork _ _ hattempt =>
      have hr := hdue.reconnected hattempt fun ha => hok.2 (by rw [ha]; rfl)
      refine ⟨⟨hr.1.tmo, hr.1.due⟩, ?_⟩
      simp only [State.reconnected, if_neg hr.2]
      exact h.2
  | retry _ => exact ⟨⟨hdue.tmo, hdue.due⟩, h.2⟩
  | failedFast _ _ hblocked => exact ⟨⟨hdue.tmo, fun _ => hdue.due (Or.inl hblocked)⟩, h.2⟩
  | failedLate _ _ _ => exact ⟨⟨hdue.tmo, hdue.due⟩, h.2⟩
  | devLoss _ _ => exact ⟨⟨hdue.tmo, by simp⟩, h.2⟩
  | refused => exact h
  | storeQueued _ _ _ _ => cases hok.1
  | storeCancelled _ _ => cases hok.1
  | storeKept _ _ => cases hok.1
  | assigned _ => cases hok.1
  | stop _ _ _ => exact ⟨⟨hdue.tmo, by simp⟩, h.2⟩
  | cancelSync hnames _ =>
      exact ⟨hdue.setWork (hstop (by rw [hnames]; exact Option.some_ne_none _)) _ _, h.2⟩

/-- In every run with fixed timeouts in which no attempt to reconnect fails on a RUNNING port,
the device loss timer of a port that is BLOCKED or FAIL_FAST is due. -/
theorem dev_loss_due {reconnectDelay fastIoFailTmo devLossTmo : ℤ} (htmo : 0 ≤ devLossTmo)
    (hrun : Run (step hz) FailsFromBlocked (State.added reconnectDelay fastIoFailTmo devLossTmo) s)
    (hstate : s.rport.state = .blocked ∨ s.rport.state = .failFast) : Due s.rport.devLossWork := by
  have h : LossDue s.rport ∧ LossRead s.held := by
    clear hstate
    induction hrun with
    | start => exact ⟨⟨htmo, by simp [State.added]⟩, fun _ _ hheld => by cases hheld⟩
    | more hrun hok hstep ih => exact LossDue.stepped ih (lost_of_stopping hrun) hok hstep
  exact h.1.due hstate

end

instance (s : State) (e : Event) : Decidable (FailsFromBlocked s e) :=
  inferInstanceAs (Decidable (_ ∧ (cause e = some .reconnectFailed → s.rport.state ≠ .running)))

theorem dev_loss_due_fail_fast : ∃ s,
    Run (step 1000) FailsFromBlocked (State.added 10 15 600) s ∧ s.rport.state = .failFast ∧
      Due s.rport.devLossWork := by
  have h : Reaches (guarded (step 1000) FailsFromBlocked)
      [.tlError, .setBlocked, .start .fastIoFail, .fastIoFailTimedout] (State.added 10 15 600)
      (fun s => s.rport.state = .failFast) = true := by decide +kernel
  obtain ⟨s, hrun, hs⟩ := run_of_reaches h
  have hstate := of_decide_eq_true hs
  exact ⟨s, hrun, hstate, dev_loss_due (by decide) hrun (Or.inr hstate)⟩

/-- The event neither reconnects the port nor removes it. -/
def Unrepaired (e : Event) : Prop := cause e ≠ some .reconnected ∧ e ≠ .stop

/-- A port in FAIL_FAST whose device loss timer is idle stays as it is. -/
theorem failFast_run {hz : ℕ} {s s' : State} (hstate : s.rport.state = .failFast)
    (hidle : Idle s.rport.devLossWork) (hrun : Run (step hz) (fun _ e => Unrepaired e) s s') :
    s'.rport.state = .failFast := by
  have h : s'.rport.state = .failFast ∧ Idle s'.rport.devLossWork := by
    apply hrun.invariant (I := fun s => s.rport.state = .failFast ∧ Idle s.rport.devLossWork)
    · exact ⟨hstate, hidle⟩
    · intro s e s' hs hok hstep
      have heffect := step_effect hstep
      rw [hs.1] at heffect
      generalize s'.rport.state = state', s'.rport.devLossWork = w' at heffect
      cases heffect with
      | same => exact ⟨rfl, hs.2⟩
      | reconnected _ hcause => exact (hok.1 hcause).elim
      | started hpending =>
          rw [hs.2.1] at hpending
          cases hpending
      | devLoss hstarted => exact (hstarted hs.2.2).elim
      | removed => exact (hok.2 rfl).elim
      | cancelled => exact ⟨rfl, rfl, hs.2.2⟩
  exact h.1

/-- An attempt of the error handler fails on a RUNNING port: the port is FAIL_FAST, its device
loss timer is not running, and without a successful reconnect it is never removed. -/
theorem dev_loss_never_starts : srpTmoValid 1000 10 15 600 = true ∧
    ∃ s, Run (step 1000) (fun _ e => writes e = false) (State.added 10 15 600) s ∧
      s.rport.state = .failFast ∧ Idle s.rport.devLossWork ∧
      ∀ s', Run (step 1000) (fun _ e => Unrepaired e) s s' → s'.rport.state = .failFast := by
  have h : Reaches (guarded (step 1000) fun _ e => writes e = false) [.reconnect .failed]
      (State.added 10 15 600)
      (fun s => s.rport.state = .failFast ∧ s.rport.devLossWork.pending = false ∧
        s.rport.devLossWork.started = 0) = true := by decide +kernel
  obtain ⟨s, hrun, hs⟩ := run_of_reaches h
  have hstate := of_decide_eq_true hs
  exact ⟨by decide, s, hrun, hstate.1, hstate.2, fun s' => failFast_run hstate.1 hstate.2⟩

def Halted (s : State) (name : WorkName) : Prop :=
  (s.rport.work name).pending = false ∧ s.idle name = true

theorem work_setWork (rport : SrpRport) (name name' : WorkName) (w : DelayedWork) :
    (rport.setWork name w).work name' = if name' = name then w else rport.work name' := by
  cases name <;> cases name' <;> rfl

section
variable {hz : ℕ} {s s' : State} {e : Event} {name : WorkName}

theorem Halted.started (h : Halted s name) : (s.rport.work name).started = 0 := by
  have hidle := h.2
  simp only [State.idle, Bool.and_eq_true, decide_eq_true_eq] at hidle
  exact hidle.1

theorem Halted.retrying (h : Halted s .reconnect) : s.retrying = 0 := by
  have hidle := h.2
  simp only [State.idle, Bool.and_eq_true] at hidle
  simp only [ne_eq, not_true_eq_false, decide_false, Bool.false_or, Bool.and_eq_true,
    decide_eq_true_eq] at hidle
  exact hidle.2.1

/-- The effect of `cancel_delayed_work_sync` when it returns. -/
theorem halted_cancel (hidle : s.idle name = true) (names : List WorkName) :
    Halted { s with rport := s.rport.setWork name (s.rport.work name).cancel,
                    stopping := some names } name := by
  unfold Halted State.idle at *
  simp only [work_setWork, if_true]
  exact ⟨rfl, hidle⟩

theorem Halted.keep (h : Halted s name) (hwork : s'.rport.work name = s.rport.work name)
    (hretrying : name = .reconnect → s'.retrying = s.retrying ∧ s'.held = s.held) :
    Halted s' name := by
  unfold Halted State.idle at *
  rw [hwork]
  cases name with
  | reconnect =>
      rw [(hretrying rfl).1, (hretrying rfl).2]
      exact h
  | fastIoFail => exact h
  | devLoss => exact h

theorem tlFailTimers_lost {rport : SrpRport} {r : SrpRport × Option Held}
    (h : TlFailTimers rport r) (hlost : rport.state = .lost) : r = (rport, none) := by
  cases h with
  | lost _ => rfl
  | failed hnot _ => exact (hnot hlost).elim
  | running hrunning =>
      rw [hlost] at hrunning
      cases hrunning

theorem reconnected_lost {rport : SrpRport} {attempt : Attempt} {r : Progress × SrpRport}
    (h : Reconnected rport attempt r) (hlost : rport.state = .lost) :
    r.1 = .error ∧ ∀ name, r.2.work name = rport.work name := by
  cases h with
  | interrupted => exact ⟨rfl, fun _ => rfl⟩
  | succeeded hnot => exact (hnot hlost).elim
  | failFast hrunning =>
      rw [hlost] at hrunning
      cases hrunning
  | unblocked _ => exact ⟨rfl, fun name => by cases name <;> rfl⟩
  | blocked hblocked =>
      rw [hlost] at hblocked
      cases hblocked

/-- While the port is LOST and no attribute can be written, a cancelled work stays idle. -/
theorem Halted.stepped (h : Halted s name) (hlost : s.rport.state = .lost)
    (hstop : s.stopping ≠ none) (hstoring : s.storing = []) (hheld : s.held = none)
    (hstep : step hz s e = some s') : Halted s' name := by
  cases step_cases hstep with
  | tlError _ htimers =>
      rw [tlFailTimers_lost htimers hlost]
      exact h.keep rfl fun _ => ⟨rfl, hheld.symm⟩
  | setBlocked hsome _ =>
      rw [hheld] at hsome
      cases hsome
  | reconnect _ hattempt =>
      have hr := reconnected_lost hattempt hlost
      refine h.keep ?_ fun _ => ⟨by simp [State.reconnected], by simp [State.reconnected, hr.1]⟩
      rw [← hr.2 name]
      cases name <;> rfl
  | startTimers hsome _ =>
      rw [hheld] at hsome
      cases hsome
  | @started other hpending =>
      have hne : name ≠ other := by
        rintro rfl
        rw [h.1] at hpending
        cases hpending
      exact h.keep (by rw [work_setWork, if_neg hne]) fun _ => ⟨rfl, rfl⟩
  | reconnectWork hstarted _ hattempt =>
      have hne : name ≠ .reconnect := by
        rintro rfl
        exact hstarted h.started
      refine h.keep ?_ fun hname => (hne hname).elim
      have hwork := (reconnected_lost hattempt hlost).2 name
      cases name with
      | reconnect => exact (hne rfl).elim
      | fastIoFail => exact hwork
      | devLoss => exact hwork
  | retry hretrying =>
      cases name with
      | reconnect => exact (hretrying h.retrying).elim
      | fastIoFail => exact h
      | devLoss => exact h
  | failedFast _ _ hblocked =>
      rw [hlost] at hblocked
      cases hblocked
  | failedLate hstarted _ _ =>
      cases name with
      | reconnect => exact h
      | fastIoFail => exact (hstarted h.started).elim
      | devLoss => exact h
  | devLoss hstarted _ =>
      cases name with
      | reconnect => exact h
      | fastIoFail => exact h
      | devLoss => exact (hstarted h.started).elim
  | refused => exact h
  | storeQueued hnone _ _ _ => exact (hstop hnone).elim
  | storeCancelled hnone _ => exact (hstop hnone).elim
  | storeKept hnone _ => exact (hstop hnone).elim
  | assigned hmem =>
      rw [hstoring] at hmem
      cases hmem
  | stop hnone _ _ => exact (hstop hnone).elim
  | @cancelSync other others _ hidle =>
      by_cases hname : name = other
      · rw [hname]
        exact halted_cancel hidle others
      · exact h.keep (by rw [work_setWork, if_neg hname]) fun _ => ⟨rfl, rfl⟩

/-- On a port that is LOST the mutex is free again after each step. -/
theorem held_of_lost (h : s.held = none) (hlost : s.rport.state = .lost)
    (hstep : step hz s e = some s') : s'.held = none := by
  cases step_cases hstep with
  | tlError _ htimers => rw [tlFailTimers_lost htimers hlost]
  | setBlocked _ _ => rfl
  | reconnect _ hattempt =>
      simp only [State.reconnected, (reconnected_lost hattempt hlost).1]
      exact h
  | startTimers _ htimers => rw [tlFailTimers_lost htimers hlost]
  | reconnectWork _ _ hattempt =>
      simp only [State.reconnected, (reconnected_lost hattempt hlost).1]
      exact h
  | _ => exact h

/-- Once the removal has begun, no write is in progress, the mutex is free after each step, and
the works that have been cancelled are idle. -/
structure Stopping (s : State) : Prop where
  storing : s.stopping ≠ none → s.storing = []
  held : s.stopping ≠ none → s.held = none
  halted : ∀ names, s.stopping = some names → ∀ name ∉ names, Halted s name

theorem Stopping.stepped (h : Stopping s) (hlost : s.stopping ≠ none → s.rport.state = .lost)
    (hstep : step hz s e = some s') : Stopping s' := by
  have hsame : s'.stopping = s.stopping → Stopping s' := by
    intro hstopping
    constructor
    · intro hstop
      rw [hstopping] at hstop
      have hnone := h.storing hstop
      cases step_cases hstep with
      | storeQueued hno _ _ _ => exact (hstop hno).elim
      | storeCancelled hno _ => exact (hstop hno).elim
      | storeKept hno _ => exact (hstop hno).elim
      | assigned hmem =>
          rw [hnone] at hmem
          cases hmem
      | _ => exact hnone
    · intro hstop
      rw [hstopping] at hstop
      exact held_of_lost (h.held hstop) (hlost hstop) hstep
    · intro names hnames name hname
      rw [hstopping] at hnames
      have hstop : s.stopping ≠ none := by
        rw [hnames]
        exact Option.some_ne_none _
      exact (h.halted names hnames name hname).stepped (hlost hstop) hstop (h.storing hstop)
        (h.held hstop) hstep
  have hcases := step_cases hstep
  cases hcases with
  | stop _ hstoring hheld =>
      refine ⟨fun _ => hstoring, fun _ => hheld, ?_⟩
      intro names hnames name hname
      cases hnames
      cases name <;> simp at hname
  | @cancelSync other others hnames hidle =>
      have hstop : s.stopping ≠ none := by
        rw [hnames]
        exact Option.some_ne_none _
      refine ⟨fun _ => h.storing hstop, fun _ => h.held hstop, ?_⟩
      intro names hnames' name hname
      cases hnames'
      by_cases hother : name = other
      · rw [hother]
        exact halted_cancel hidle others
      · have hname' : name ∉ other::others := by
          simp [hother, hname]
        exact (h.halted _ hnames name hname').stepped (hlost hstop) hstop (h.storing hstop)
          (h.held hstop) hstep
  | _ => exact hsame rfl

theorem stopping_run {reconnectDelay fastIoFailTmo devLossTmo : ℤ}
    (hrun : AnyRun (step hz) (State.added reconnectDelay fastIoFailTmo devLossTmo) s) :
    Stopping s := by
  induction hrun with
  | start => exact ⟨fun _ => rfl, fun _ => rfl, fun _ hnames => by cases hnames⟩
  | more hrun _ hstep ih => exact ih.stepped (lost_of_stopping hrun) hstep

theorem returned_step (h : s.stopping = some []) (hstep : step hz s e = some s') :
    s'.stopping = some [] := by
  cases step_cases hstep with
  | stop hnone _ _ =>
      rw [h] at hnone
      cases hnone
  | cancelSync hnames _ =>
      rw [h] at hnames
      cases hnames
  | _ => exact h

/-- Once `srp_stop_rport_timers` has returned, no work is pending or executing, and none ever
will be. -/
theorem timers_stay_stopped {reconnectDelay fastIoFailTmo devLossTmo : ℤ}
    (hrun : AnyRun (step hz) (State.added reconnectDelay fastIoFailTmo devLossTmo) s)
    (hreturned : s.stopping = some []) (hlater : AnyRun (step hz) s s') (name : WorkName) :
    (s'.rport.work name).pending = false ∧ s'.idle name = true := by
  have hstopped : s'.stopping = some [] := by
    apply hlater.invariant (I := fun s => s.stopping = some [])
    · exact hreturned
    · exact fun _ _ _ hs _ hstep => returned_step hs hstep
  exact (stopping_run (hrun.append hlater)).halted [] hstopped name List.not_mem_nil

end

/-- The handler of `reconnect_work` is executing when the timers are stopped, and queues its
work once more before it returns. -/
def stoppedWhileRetrying : List Event :=
  [.tlError, .setBlocked, .start .reconnect, .start .devLoss, .reconnectWork .failed, .stop, .retry,
    .cancelSync, .cancelSync, .devLossTimedout, .cancelSync]

theorem timers_stay_stopped_retrying : ∃ s,
    AnyRun (step 1000) (State.added 10 15 600) s ∧ s.stopping = some [] ∧
      ∀ s', AnyRun (step 1000) s s' → ∀ name,
        (s'.rport.work name).pending = false ∧ s'.idle name = true := by
  have h : Reaches (step 1000) stoppedWhileRetrying (State.added 10 15 600)
      (fun s => s.stopping = some []) = true := by decide +kernel
  obtain ⟨s, hrun, hs⟩ := anyRun_of_reaches h
  have hreturned := of_decide_eq_true hs
  exact ⟨s, hrun, hreturned, fun s' => timers_stay_stopped hrun hreturned⟩

end IbSrp.RportTimers

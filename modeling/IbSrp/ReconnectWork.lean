import IbSrp.RportTimers

/-!
# The reconnect work of a remote port

`reconnect_work` is queued by an error, by its own handler after a failed
attempt, and by a write that switches the delay on. While a port is BLOCKED or
FAIL_FAST and its delay is positive, the work is pending or executing, provided
that writes keep apart from each other and from failures. A write that switches
the delay on looks at the state and at the old delay; if the port fails after
the test and before the assignment, or a whole write comes between the time
where an error reads the delay and the time where it sets BLOCKED, neither the
write nor the failure queues the work. A write that switches the delay off
cancels the work before it assigns the delay.

A successful reconnect cancels the other two works but not this one. If the
error handler is faster than the timer, the handler of `reconnect_work` finds a
port that is RUNNING and reconnects it once more. `recovered` says whether an
attempt has succeeded since an error was last reported.
-/
namespace IbSrp.ReconnectWork
open LabelledRuns RportTransport RportStates RportTimers

/-- Pending or executing. -/
def Busy (s : State) : Prop :=
  Due s.rport.reconnectWork ∨ s.retrying ≠ 0 ∨ s.held = some (.startTimers true)

theorem Busy.pending_or_executing {s : State} (h : Busy s) :
    s.rport.reconnectWork.pending = true ∨ s.idle .reconnect = false := by
  unfold Busy Due at h
  simp only [State.idle, SrpRport.work]
  rcases h with (hpending | hstarted) | hretrying | hheld
  · exact Or.inl hpending
  · exact Or.inr (by simp [hstarted])
  · exact Or.inr (by simp [hretrying])
  · exact Or.inr (by simp [hheld])

theorem busy_of_executing {s : State} (h : s.idle .reconnect = false) :
    s.rport.reconnectWork.started ≠ 0 ∨ s.retrying ≠ 0 ∨ s.held = some (.startTimers true) := by
  by_contra hnot
  have hparts := not_or.mp hnot
  have hrest := not_or.mp hparts.2
  rw [not_not] at hparts hrest
  simp [State.idle, SrpRport.work, hparts.1, hrest] at h

def Failed (rport : SrpRport) : Prop := rport.state = .blocked ∨ rport.state = .failFast

theorem Failed.not_running {rport : SrpRport} (h : Failed rport) : rport.state ≠ .running := by
  intro hrunning
  unfold Failed at h
  rw [hrunning] at h
  cases h <;> contradiction

theorem Failed.not_lost {rport : SrpRport} (h : Failed rport) : rport.state ≠ .lost := by
  intro hlost
  unfold Failed at h
  rw [hlost] at h
  cases h <;> contradiction

/-- The delays that writes in progress have still to assign. -/
def storedDelays (storing : List (TmoName × ℤ)) : List ℤ :=
  storing.filterMap fun p => if p.1 = .reconnectDelay then some p.2 else none

theorem mem_storedDelays {storing : List (TmoName × ℤ)} {value : ℤ} :
    value ∈ storedDelays storing ↔ (.reconnectDelay, value) ∈ storing := by
  unfold storedDelays
  rw [List.mem_filterMap]
  constructor
  · rintro ⟨⟨name, value'⟩, hmem, heq⟩
    simp only [Option.ite_none_right_eq_some, Option.some.injEq] at heq
    rwa [heq.1, heq.2] at hmem
  · exact fun hmem => ⟨_, hmem, by simp⟩

theorem storedDelays_append (storing : List (TmoName × ℤ)) (name : TmoName) (value : ℤ) :
    storedDelays (storing++[(name, value)]) =
      storedDelays storing++(if name = .reconnectDelay then [value] else []) := by
  unfold storedDelays
  rw [List.filterMap_append]
  cases name <;> rfl

theorem storedDelays_erase {storing : List (TmoName × ℤ)} {p : TmoName × ℤ} {value : ℤ}
    (h : value ∈ storedDelays (storing.erase p)) : value ∈ storedDelays storing :=
  mem_storedDelays.mpr (List.mem_of_mem_erase (mem_storedDelays.mp h))

theorem mem_storedDelays_erase_other {storing : List (TmoName × ℤ)} {name : TmoName}
    (hname : name ≠ .reconnectDelay) (v value : ℤ) :
    v ∈ storedDelays (storing.erase (name, value)) ↔ v ∈ storedDelays storing := by
  have hne : (TmoName.reconnectDelay, v) ≠ (name, value) := by
    intro heq
    cases heq
    exact hname rfl
  rw [mem_storedDelays, mem_storedDelays, List.mem_erase_of_ne hne]

/-- An error has read the delay and has still to set BLOCKED. -/
def reporting (s : State) : Bool :=
  match s.held with
  | some (.setBlocked _ _) => true
  | _ => false

/-- The port has failed, or an error is being reported. -/
def Down (s : State) : Prop := Failed s.rport ∨ reporting s = true

/-- The delay of an accepted write that begins with the event. -/
def writtenDelay (hz : ℕ) (s : State) : Event → Option ℤ
  | .store .reconnectDelay value =>
      if (storeReconnectDelay hz value s.rport).isSome then some value else none
  | _ => none

/-- The write does not overlap with one that switches the other way. It does not switch the
delay on while an error is being reported, nor off while the port is down, unless a handler of
`reconnect_work` is executing. -/
def BeginsApart (s : State) (value : ℤ) : Prop :=
  (∀ other ∈ storedDelays s.storing, 0 < value ↔ 0 < other) ∧
    (0 < value → s.rport.reconnectDelay ≤ 0 → reporting s = false) ∧
    (value ≤ 0 → 0 < s.rport.reconnectDelay → Down s → s.idle .reconnect = false)

/-- Between the halves of a write that switches the delay on, a RUNNING port does not fail and
no handler looks at the old delay to decide whether to try again. -/
def LeavesApart (s : State) (e : Event) : Prop :=
  s.rport.reconnectDelay ≤ 0 → (∃ value ∈ storedDelays s.storing, 0 < value) →
    e ≠ .retry ∧ (s.rport.state = .running → e ≠ .tlError ∧ cause e ≠ some .reconnectFailed)

/-- Writes keep apart from each other and from failures. -/
def Undisturbed (hz : ℕ) (s : State) (e : Event) : Prop :=
  (∀ value ∈ writtenDelay hz s e, BeginsApart s value) ∧ LeavesApart s e

/-- The delay is positive or about to become so. -/
def Wanted (s : State) : Prop :=
  0 < s.rport.reconnectDelay ∨ ∃ value ∈ storedDelays s.storing, 0 < value

/-- The work is pending or executing, or about to be queued by the holder of the mutex. -/
def Awaited (s : State) : Prop :=
  Busy s ∨ s.held = some (.startTimers false) ∧ 0 < s.rport.reconnectDelay

structure Scheduled (s : State) : Prop where
  apart : (∀ value ∈ storedDelays s.storing, 0 < value) ∨
    ∀ value ∈ storedDelays s.storing, value ≤ 0
  awaited : Down s → Wanted s → Awaited s

section
variable {rport rport' : SrpRport}

theorem due_reconnectQueued (h : Due rport.reconnectWork) : Due rport.reconnectQueued := by
  unfold SrpRport.reconnectQueued
  split_ifs
  · exact due_queue _
  · exact h

theorem due_of_delay (h : 0 < rport.reconnectDelay) : Due rport.reconnectQueued := by
  unfold SrpRport.reconnectQueued
  rw [if_pos h]
  exact due_queue _

theorem reconnected_delay {attempt : Attempt} {r : Progress × SrpRport}
    (h : Reconnected rport attempt r) : r.2.reconnectDelay = rport.reconnectDelay := by
  cases h <;> rfl

theorem tlFailTimers_delay {r : SrpRport × Option Held} (h : TlFailTimers rport r) :
    r.1.reconnectDelay = rport.reconnectDelay := by
  cases h <;> rfl

end

section
variable {hz : ℕ} {s s' : State} {e : Event}

/-- A step that leaves the delay and the writes alone has to keep the work awaited. -/
theorem Scheduled.keep (h : Scheduled s) (hstoring : s'.storing = s.storing)
    (hdelay : s'.rport.reconnectDelay = s.rport.reconnectDelay)
    (hawaited : Down s' → Wanted s → Down s ∧ (Awaited s → Awaited s') ∨ Awaited s') :
    Scheduled s' := by
  constructor
  · rw [hstoring]
    exact h.apart
  · intro hdown hwanted
    unfold Wanted at hwanted
    rw [hstoring, hdelay] at hwanted
    cases hawaited hdown hwanted with
    | inl hkept => exact hkept.2 (h.awaited hkept.1 hwanted)
    | inr hawaited => exact hawaited

theorem Scheduled.up (h : Scheduled s) (hstoring : s'.storing = s.storing) (hup : ¬ Down s') :
    Scheduled s' := by
  constructor
  · rw [hstoring]
    exact h.apart
  · exact fun hdown => (hup hdown).elim

/-- When a RUNNING port fails, its delay is positive or nobody is about to make it so. -/
theorem LeavesApart.delay (h : LeavesApart s e) (hwanted : Wanted s)
    (he : e = .tlError ∨ cause e = some .reconnectFailed)
    (hrunning : s.rport.state = .running) : 0 < s.rport.reconnectDelay := by
  cases hwanted with
  | inl hdelay => exact hdelay
  | inr hstored =>
      by_contra hnot
      have hquiet := (h (Int.not_lt.mp hnot) hstored).2 hrunning
      cases he with
      | inl htl => exact hquiet.1 htl
      | inr hreconnect => exact hquiet.2 hreconnect

theorem not_down_running (hstate : s.rport.state = .running) (hheld : s.held = none) :
    ¬ Down s := by
  rintro (hfailed | hreporting)
  · exact hfailed.not_running hstate
  · simp [reporting, hheld] at hreporting

theorem not_down_lost (hstate : s.rport.state = .lost) (hheld : s.held = none) : ¬ Down s := by
  rintro (hfailed | hreporting)
  · exact hfailed.not_lost hstate
  · simp [reporting, hheld] at hreporting

theorem Awaited.busy (h : Awaited s) (hheld : s.held ≠ some (.startTimers false)) : Busy s :=
  h.resolve_right fun hright => hheld hright.1

theorem Busy.mono (h : Busy s) (hwork : Due s.rport.reconnectWork → Due s'.rport.reconnectWork)
    (hretrying : s'.retrying = s.retrying)
    (hheld : s.held = some (.startTimers true) → s'.held = some (.startTimers true)) :
    Busy s' := by
  rcases h with hdue | hsame | hstarting
  · exact Or.inl (hwork hdue)
  · exact Or.inr (Or.inl (by rwa [hretrying]))
  · exact Or.inr (Or.inr (hheld hstarting))

theorem Scheduled.tlError (h : Scheduled s) {r : SrpRport × Option Held} (hheld : s.held = none)
    (htimers : TlFailTimers s.rport r) (hok : LeavesApart s .tlError) :
    Scheduled { s with rport := r.1, held := r.2 } := by
  refine h.keep rfl (tlFailTimers_delay htimers) ?_
  intro hdown hwanted
  cases htimers with
  | lost hlost => exact absurd hdown (not_down_lost hlost rfl)
  | failed hlost hrunning =>
      have hfailed : Failed s.rport := by
        cases hs : s.rport.state with
        | running => exact (hrunning hs).elim
        | blocked => exact Or.inl hs
        | failFast => exact Or.inr hs
        | lost => exact (hlost hs).elim
      refine Or.inl ⟨Or.inl hfailed, fun hawaited => Or.inl ?_⟩
      have hbusy := hawaited.busy (by simp [hheld])
      exact hbusy.mono due_reconnectQueued rfl fun hsome => by simp [hheld] at hsome
  | running hrunning => exact Or.inr (Or.inl (Or.inl (due_of_delay
      (hok.delay hwanted (Or.inl rfl) hrunning))))

theorem Scheduled.setBlocked (h : Scheduled s) {fastIoFailTmo devLossTmo : ℤ} {rport : SrpRport}
    (hheld : s.held = some (.setBlocked fastIoFailTmo devLossTmo))
    (hblocked : SetBlocked fastIoFailTmo devLossTmo s.rport rport) :
    Scheduled { s with rport := rport, held := none } := by
  refine h.keep rfl (by cases hblocked <;> rfl) ?_
  intro _ _
  refine Or.inl ⟨Or.inr (by simp [reporting, hheld]), fun hawaited => Or.inl ?_⟩
  have hbusy := hawaited.busy (by simp [hheld])
  refine hbusy.mono ?_ rfl fun hsome => by simp [hheld] at hsome
  cases hblocked <;> exact id

/-- The timers are started after a failed attempt, which left the port in FAIL_FAST. -/
theorem Scheduled.startTimers (h : Scheduled s) {work : Bool} {r : SrpRport × Option Held}
    (hheld : s.held = some (.startTimers work)) (hstate : s.rport.state = .failFast)
    (htimers : TlFailTimers s.rport r) :
    Scheduled { s with rport := r.1, held := r.2,
                       retrying := if work then s.retrying+1 else s.retrying } := by
  refine h.keep rfl (tlFailTimers_delay htimers) ?_
  intro _ hwanted
  cases htimers with
  | lost hlost =>
      rw [hstate] at hlost
      cases hlost
  | running hrunning =>
      rw [hstate] at hrunning
      cases hrunning
  | failed _ _ =>
      refine Or.inl ⟨Or.inl (Or.inr hstate), fun hawaited => Or.inl ?_⟩
      cases work with
      | true => exact Or.inr (Or.inl (Nat.succ_ne_zero _))
      | false =>
          cases hawaited with
          | inl hbusy =>
              exact hbusy.mono due_reconnectQueued rfl fun hsome => by simp [hheld] at hsome
          | inr hdelay => exact Or.inl (due_of_delay hdelay.2)

/-- The devices of a port that has failed are blocked or unblocked, nothing else. -/
theorem Scheduled.unchanged (h : Scheduled s) (blocked : Bool) :
    Scheduled (s.reconnected false (.error, { s.rport with blocked := blocked })) :=
  ⟨h.apart, h.awaited⟩

theorem Scheduled.reconnect (h : Scheduled s) {attempt : Attempt} {r : Progress × SrpRport}
    (hadmits : s.admits attempt) (hattempt : Reconnected s.rport attempt r)
    (hok : attempt = .failed → s.rport.state = .running → Wanted s → 0 < s.rport.reconnectDelay) :
    Scheduled (s.reconnected false r) := by
  cases hattempt with
  | interrupted => exact h.unchanged s.rport.blocked
  | succeeded _ =>
      exact h.up rfl (not_down_running rfl (hadmits.resolve_right Attempt.noConfusion))
  | failFast hrunning =>
      refine h.keep rfl rfl fun _ hwanted => ?_
      exact Or.inr (Or.inr ⟨rfl, hok rfl hrunning hwanted⟩)
  | unblocked _ => exact h.unchanged false
  | blocked _ => exact h.unchanged true

/-- After an attempt of the handler of `reconnect_work` the port is RUNNING or the handler goes
on. -/
theorem Scheduled.reconnectWork (h : Scheduled s) {attempt : Attempt} {r : Progress × SrpRport}
    (hadmits : s.admits attempt) (hattempt : Reconnected s.rport attempt r) :
    Scheduled (s.reconnected true r) := by
  have hdelay := reconnected_delay hattempt
  cases hattempt with
  | succeeded _ =>
      exact h.up rfl (not_down_running rfl (hadmits.resolve_right Attempt.noConfusion))
  | failFast _ => exact h.keep rfl hdelay fun _ _ => Or.inr (Or.inl (Or.inr (Or.inr rfl)))
  | interrupted =>
      exact h.keep rfl hdelay fun _ _ => Or.inr (Or.inl (Or.inr (Or.inl (Nat.succ_ne_zero _))))
  | unblocked _ =>
      exact h.keep rfl hdelay fun _ _ => Or.inr (Or.inl (Or.inr (Or.inl (Nat.succ_ne_zero _))))
  | blocked _ =>
      exact h.keep rfl hdelay fun _ _ => Or.inr (Or.inl (Or.inr (Or.inl (Nat.succ_ne_zero _))))

theorem Scheduled.start (h : Scheduled s) (name : WorkName) :
    Scheduled { s with rport := s.rport.setWork name (s.rport.work name).start } := by
  cases name with
  | reconnect => exact h.keep rfl rfl fun _ _ => Or.inr (Or.inl (Or.inl (due_start _)))
  | fastIoFail => exact ⟨h.apart, h.awaited⟩
  | devLoss => exact ⟨h.apart, h.awaited⟩

theorem mem_storedDelays_append {storing : List (TmoName × ℤ)} {value v : ℤ} :
    v ∈ storedDelays (storing++[(.reconnectDelay, value)]) ↔
      v ∈ storedDelays storing ∨ v = value := by
  rw [storedDelays_append]
  simp

theorem Scheduled.storeOn (h : Scheduled s) {value : ℤ} {w : DelayedWork}
    (hapart : BeginsApart s value) (hvalue : 0 < value)
    (hwork : Down s → 0 < s.rport.reconnectDelay ∧ w = s.rport.reconnectWork ∨ Due w) :
    Scheduled { s with rport := { s.rport with reconnectWork := w },
                       storing := s.storing++[(.reconnectDelay, value)] } := by
  constructor
  · refine Or.inl fun v hv => ?_
    cases mem_storedDelays_append.mp hv with
    | inl hold => exact (hapart.1 v hold).mp hvalue
    | inr hnew => rwa [hnew]
  · intro hdown _
    cases hwork hdown with
    | inl hkept =>
        rw [hkept.2]
        exact h.awaited hdown (Or.inl hkept.1)
    | inr hdue => exact Or.inl (Or.inl hdue)

theorem scheduled_storeOff {value : ℤ} (hapart : BeginsApart s value)
    (hvalue : value ≤ 0) :
    Scheduled { s with rport := { s.rport with reconnectWork := s.rport.reconnectWork.cancel },
                       storing := s.storing++[(.reconnectDelay, value)] } := by
  have hneg : ∀ v ∈ storedDelays (s.storing++[(.reconnectDelay, value)]), v ≤ 0 := by
    intro v hv
    cases mem_storedDelays_append.mp hv with
    | inl hold =>
        have hiff := hapart.1 v hold
        omega
    | inr hnew => rwa [hnew]
  refine ⟨Or.inr hneg, ?_⟩
  intro hdown hwanted
  cases hwanted with
  | inl hdelay =>
      left
      rcases busy_of_executing (hapart.2.2 hvalue hdelay hdown) with hstarted | hother
      · exact Or.inl (Or.inr hstarted)
      · exact Or.inr hother
  | inr hstored =>
      obtain ⟨v, hv, hpos⟩ := hstored
      exact absurd hpos (Int.not_lt.mpr (hneg v hv))

theorem Scheduled.storeOther (h : Scheduled s) {name : TmoName} (hname : name ≠ .reconnectDelay)
    (value : ℤ) : Scheduled { s with storing := s.storing++[(name, value)] } := by
  have hstoring : storedDelays (s.storing++[(name, value)]) = storedDelays s.storing := by
    rw [storedDelays_append, if_neg hname, List.append_nil]
  constructor
  · simp only [hstoring]
    exact h.apart
  · simp only [Wanted, hstoring]
    exact h.awaited

theorem Scheduled.assignOther (h : Scheduled s) {name : TmoName} (hname : name ≠ .reconnectDelay)
    (value : ℤ) :
    Scheduled { s with rport := s.rport.setTmo name value,
                       storing := s.storing.erase (name, value) } := by
  have hmem : ∀ v, v ∈ storedDelays (s.storing.erase (name, value)) ↔ v ∈ storedDelays s.storing :=
    fun v => mem_storedDelays_erase_other hname v value
  have hapart := h.apart
  have hawaited := h.awaited
  unfold Wanted at hawaited
  simp only [← hmem] at hapart hawaited
  cases name with
  | reconnectDelay => exact (hname rfl).elim
  | fastIoFail => exact ⟨hapart, hawaited⟩
  | devLoss => exact ⟨hapart, hawaited⟩

theorem Scheduled.assignDelay (h : Scheduled s) {value : ℤ}
    (hmem : (.reconnectDelay, value) ∈ s.storing) :
    Scheduled { s with rport := { s.rport with reconnectDelay := value },
                       storing := s.storing.erase (.reconnectDelay, value) } := by
  have hvalue : value ∈ storedDelays s.storing := mem_storedDelays.mpr hmem
  cases h.apart with
  | inl hpositive =>
      refine ⟨Or.inl fun v hv => hpositive v (storedDelays_erase hv), ?_⟩
      intro hdown _
      have hpos := hpositive value hvalue
      have hawaited := h.awaited hdown (Or.inr ⟨value, hvalue, hpos⟩)
      exact hawaited.imp id fun hstarting => ⟨hstarting.1, hpos⟩
  | inr hnegative =>
      refine ⟨Or.inr fun v hv => hnegative v (storedDelays_erase hv), ?_⟩
      intro _ hwanted
      cases hwanted with
      | inl hdelay => exact absurd hdelay (Int.not_lt.mpr (hnegative value hvalue))
      | inr hstored =>
          obtain ⟨v, hv, hpos⟩ := hstored
          exact absurd hpos (Int.not_lt.mpr (hnegative v (storedDelays_erase hv)))

/-- A write that goes on to its assignment has been accepted. -/
theorem writtenDelay_of_stored {value : ℤ}
    (hstep : step hz s (.store .reconnectDelay value) = some s')
    (hstored : s'.storing = s.storing++[(.reconnectDelay, value)]) :
    value ∈ writtenDelay hz s (.store .reconnectDelay value) := by
  simp only [step] at hstep
  split_ifs at hstep
  cases hstep
  cases haccepted : storeReconnectDelay hz value s.rport with
  | none => simp [store, haccepted, State.stored] at hstored
  | some rport => simp [writtenDelay, haccepted]

theorem Scheduled.stepped (h : Scheduled s)
    (hstop : s.stopping ≠ none → s.rport.state = .lost ∧ s.held = none)
    (hstarting : ∀ work, s.held = some (.startTimers work) → s.rport.state = .failFast)
    (hok : Undisturbed hz s e) (hstep : step hz s e = some s') : Scheduled s' := by
  cases step_cases hstep with
  | tlError hheld htimers => exact h.tlError hheld htimers hok.2
  | setBlocked hheld hblocked => exact h.setBlocked hheld hblocked
  | reconnect hadmits hattempt =>
      exact h.reconnect hadmits hattempt fun ha hrunning hwanted =>
        hok.2.delay hwanted (Or.inr (by rw [ha]; rfl)) hrunning
  | startTimers hheld htimers => exact h.startTimers hheld (hstarting _ hheld) htimers
  | started _ => exact h.start _
  | reconnectWork _ hadmits hattempt => exact h.reconnectWork hadmits hattempt
  | retry _ =>
      refine h.keep rfl rfl fun _ hwanted => ?_
      refine Or.inr (Or.inl (Or.inl (due_of_delay ?_)))
      cases hwanted with
      | inl hdelay => exact hdelay
      | inr hstored =>
          by_contra hnot
          exact (hok.2 (Int.not_lt.mp hnot) hstored).1 rfl
  | failedFast _ _ hblocked =>
      exact h.keep rfl rfl fun _ _ => Or.inl ⟨Or.inl (Or.inl hblocked), id⟩
  | failedLate _ _ _ => exact ⟨h.apart, h.awaited⟩
  | devLoss _ hheld => exact h.up rfl (not_down_lost rfl hheld)
  | refused => exact h
  | storeQueued _ _ hpos _ =>
      exact h.storeOn (hok.1 _ (writtenDelay_of_stored hstep rfl)) hpos fun _ =>
        Or.inr (due_queue _)
  | storeCancelled _ hle =>
      exact scheduled_storeOff (hok.1 _ (writtenDelay_of_stored hstep rfl)) hle
  | @storeKept name value _ hkept =>
      by_cases hname : name = .reconnectDelay
      · subst hname
        have hapart := hok.1 _ (writtenDelay_of_stored hstep rfl)
        have hkept := hkept rfl
        refine h.storeOn hapart hkept.1 fun hdown => ?_
        cases hkept.2 with
        | inl hdelay => exact Or.inl ⟨hdelay, rfl⟩
        | inr hrunning =>
            have hreporting := hdown.resolve_left fun hfailed => hfailed.not_running hrunning
            refine Or.inl ⟨Int.not_le.mp fun hle => ?_, rfl⟩
            rw [hapart.2.1 hkept.1 hle] at hreporting
            cases hreporting
      · exact h.storeOther hname value
  | @assigned name value hmem =>
      by_cases hname : name = .reconnectDelay
      · subst hname
        exact h.assignDelay hmem
      · exact h.assignOther hname value
  | stop _ _ hheld => exact h.up rfl (not_down_lost rfl hheld)
  | @cancelSync name _ hnames _ =>
      have hlost := hstop (by rw [hnames]; exact Option.some_ne_none _)
      exact h.up rfl (not_down_lost (by cases name <;> exact hlost.1) hlost.2)

theorem starting_reconnected {attempt : Attempt} {r : Progress × SrpRport} {byWork work : Bool}
    (hs : ∀ work, s.held = some (.startTimers work) → s.rport.state = .failFast)
    (hadmits : s.admits attempt) (hattempt : Reconnected s.rport attempt r)
    (hheld : (s.reconnected byWork r).held = some (.startTimers work)) :
    r.2.state = .failFast := by
  cases hattempt with
  | interrupted => exact hs work hheld
  | succeeded _ =>
      have hnone := hadmits.resolve_right Attempt.noConfusion
      cases hnone.symm.trans hheld
  | failFast _ => rfl
  | unblocked _ => exact hs work hheld
  | blocked _ => exact hs work hheld

/-- A thread that has still to start the timers has set FAIL_FAST. -/
theorem failFast_of_startTimers {ok : State → Event → Prop}
    {reconnectDelay fastIoFailTmo devLossTmo : ℤ}
    (hrun : Run (step hz) ok (State.added reconnectDelay fastIoFailTmo devLossTmo) s) :
    ∀ work, s.held = some (.startTimers work) → s.rport.state = .failFast := by
  apply hrun.invariant (I := fun s => ∀ work, s.held = some (.startTimers work) →
    s.rport.state = .failFast)
  · exact fun _ hheld => by cases hheld
  · intro s e s' hs _ hstep work hheld
    cases step_cases hstep with
    | tlError _ htimers => cases htimers <;> cases hheld
    | setBlocked _ _ => cases hheld
    | reconnect hadmits hattempt => exact starting_reconnected hs hadmits hattempt hheld
    | startTimers _ htimers => cases htimers <;> cases hheld
    | @started name _ =>
        have hstate := hs work hheld
        cases name <;> exact hstate
    | reconnectWork _ hadmits hattempt => exact starting_reconnected hs hadmits hattempt hheld
    | failedFast _ hnone _ => cases hnone.symm.trans hheld
    | devLoss _ hnone => cases hnone.symm.trans hheld
    | @assigned name _ _ =>
        have hstate := hs work hheld
        cases name <;> exact hstate
    | stop _ _ hnone => cases hnone.symm.trans hheld
    | @cancelSync name _ _ _ =>
        have hstate := hs work hheld
        cases name <;> exact hstate
    | _ => exact hs work hheld

/-- In every run in which writes keep apart from each other and from failures: while the mutex is
free, the port is BLOCKED or FAIL_FAST and the delay is positive, `reconnect_work` is pending or
executing. -/
theorem reconnect_work_scheduled {reconnectDelay fastIoFailTmo devLossTmo : ℤ}
    (hrun : Run (step hz) (Undisturbed hz) (State.added reconnectDelay fastIoFailTmo devLossTmo) s)
    (hfree : s.held = none) (hstate : s.rport.state = .blocked ∨ s.rport.state = .failFast)
    (hdelay : 0 < s.rport.reconnectDelay) :
    s.rport.reconnectWork.pending = true ∨ s.idle .reconnect = false := by
  have h : Scheduled s := by
    clear hstate hdelay hfree
    induction hrun with
    | start =>
        refine ⟨Or.inl (by simp [State.added, storedDelays]), fun hdown => ?_⟩
        exact (not_down_running rfl rfl hdown).elim
    | more hrun hok hstep ih =>
        refine ih.stepped (fun hstop => ⟨lost_of_stopping hrun hstop, ?_⟩)
          (failFast_of_startTimers hrun) hok hstep
        exact (stopping_run (hrun.mono fun _ _ _ => trivial)).held hstop
  have hawaited := h.awaited (Or.inl hstate) (Or.inl hdelay)
  exact (hawaited.busy (by simp [hfree])).pending_or_executing

end

instance (s : State) (value : ℤ) : Decidable (BeginsApart s value) :=
  inferInstanceAs (Decidable ((∀ other ∈ storedDelays s.storing, 0 < value ↔ 0 < other) ∧
    (_ → _ → reporting s = false) ∧
    (_ → _ → (s.rport.state = .blocked ∨ s.rport.state = .failFast) ∨ reporting s = true →
      s.idle .reconnect = false)))

instance (s : State) (e : Event) : Decidable (LeavesApart s e) :=
  inferInstanceAs (Decidable (_ → (∃ value ∈ storedDelays s.storing, 0 < value) →
    e ≠ .retry ∧ (_ → e ≠ .tlError ∧ cause e ≠ some .reconnectFailed)))

instance (hz : ℕ) (s : State) (e : Event) : Decidable (Undisturbed hz s e) :=
  inferInstanceAs (Decidable ((∀ value ∈ writtenDelay hz s e, BeginsApart s value) ∧ _))

/-- The delay is switched off and on again while the handler of `reconnect_work` is executing. -/
def switchedWhileExecuting : List Event :=
  [.tlError, .setBlocked, .start .reconnect, .store .reconnectDelay (-1),
    .assign .reconnectDelay (-1), .reconnectWork .failed, .retry, .store .reconnectDelay 20,
    .assign .reconnectDelay 20]

theorem reconnect_work_scheduled_switched : ∃ s,
    Run (step 1000) (Undisturbed 1000) (State.added 10 15 600) s ∧ s.held = none ∧
      s.rport.state = .blocked ∧ s.rport.reconnectDelay = 20 ∧
      (s.rport.reconnectWork.pending = true ∨ s.idle .reconnect = false) := by
  have h : Reaches (guarded (step 1000) (Undisturbed 1000)) switchedWhileExecuting
      (State.added 10 15 600)
      (fun s => s.held = none ∧ s.rport.state = .blocked ∧ s.rport.reconnectDelay = 20) =
        true := by decide +kernel
  obtain ⟨s, hrun, hs⟩ := run_of_reaches h
  have hstate := of_decide_eq_true hs
  refine ⟨s, hrun, hstate.1, hstate.2.1, hstate.2.2, ?_⟩
  apply reconnect_work_scheduled hrun hstate.1 (Or.inl hstate.2.1)
  rw [hstate.2.2]
  decide

/-- The port fails between the two halves of a write that switches the delay on. -/
def failedDuringWrite : List Event :=
  [.store .reconnectDelay 10, .tlError, .setBlocked, .assign .reconnectDelay 10]

theorem reconnect_work_forgotten : srpTmoValid 1000 (-1) 15 600 = true ∧
    ∃ s, AnyRun (step 1000) (State.added (-1) 15 600) s ∧ s.storing = [] ∧ s.held = none ∧
      s.rport.state = .blocked ∧ s.rport.reconnectDelay = 10 ∧
      s.rport.reconnectWork.pending = false ∧ s.idle .reconnect = true := by
  have h : Reaches (step 1000) failedDuringWrite (State.added (-1) 15 600)
      (fun s => s.storing = [] ∧ s.held = none ∧ s.rport.state = .blocked ∧
        s.rport.reconnectDelay = 10 ∧ s.rport.reconnectWork.pending = false ∧
        s.idle .reconnect = true) = true := by decide +kernel
  obtain ⟨s, hrun, hs⟩ := anyRun_of_reaches h
  exact ⟨by decide, s, hrun, of_decide_eq_true hs⟩

/-- A port, and whether an attempt to reconnect it has succeeded since an error was last
reported. -/
structure Watched where
  port : State
  recovered : Bool := false
deriving DecidableEq, Repr

def Watched.recoveredAfter (w : Watched) : Event → Bool
  | .tlError => false
  | .reconnect .succeeded => w.recovered || decide (w.port.rport.state ≠ .lost)
  | .reconnectWork .succeeded => w.recovered || decide (w.port.rport.state ≠ .lost)
  | _ => w.recovered

def watch (hz : ℕ) (w : Watched) (e : Event) : Option Watched :=
  (step hz w.port e).map fun port => ⟨port, w.recoveredAfter e⟩

/-- When an attempt succeeds, `reconnect_work` is neither pending nor executing, apart from the
handler that made the attempt. -/
def repairsAlone (s : State) : Event → Bool
  | .reconnect .succeeded => !s.rport.reconnectWork.pending && s.idle .reconnect
  | .reconnectWork .succeeded =>
      !s.rport.reconnectWork.pending && s.rport.reconnectWork.started = 1 && s.retrying = 0
  | _ => true

/-- Besides, no attempt fails on a port that has been recovered. -/
def Settled (w : Watched) (e : Event) : Prop :=
  repairsAlone w.port e = true ∧ (w.recovered = true → cause e ≠ some .reconnectFailed)

/-- A recovered port is RUNNING, nobody holds the mutex and nobody is about to reconnect it,
unless it is lost. -/
def Healthy (w : Watched) : Prop :=
  w.recovered = true → w.port.rport.state = .lost ∨
    w.port.rport.state = .running ∧ w.port.held = none ∧ Halted w.port .reconnect

section
variable {hz : ℕ} {s s' : State} {w w' : Watched} {e : Event}

/-- An attempt of the error handler leaves a recovered port healthy. -/
theorem healthy_reconnect {attempt : Attempt} {r : Progress × SrpRport}
    (hadmits : w.port.admits attempt) (hattempt : Reconnected w.port.rport attempt r)
    (h : Healthy w) (hlost : w.port.rport.state ≠ .lost) (hok : Settled w (.reconnect attempt)) :
    Healthy ⟨w.port.reconnected false r, w.recoveredAfter (.reconnect attempt)⟩ := by
  intro hrecovered
  cases hattempt with
  | interrupted => exact h hrecovered
  | succeeded _ =>
      have halone := hok.1
      simp only [repairsAlone, Bool.and_eq_true, Bool.not_eq_true'] at halone
      exact Or.inr ⟨rfl, hadmits.resolve_right Attempt.noConfusion, halone⟩
  | failFast _ => exact (hok.2 hrecovered rfl).elim
  | unblocked hstate =>
      cases hstate with
      | inl h => exact (hlost h).elim
      | inr hfail =>
          rw [hfail.2] at hok hrecovered
          exact (hok.2 hrecovered rfl).elim
  | blocked _ => exact (hok.2 hrecovered rfl).elim

/-- Only a successful attempt of `reconnect_work` is possible. -/
theorem healthy_reconnectWork {attempt : Attempt} {r : Progress × SrpRport}
    (hadmits : w.port.admits attempt) (hattempt : Reconnected w.port.rport attempt r)
    (h : Healthy w) (hlost : w.port.rport.state ≠ .lost)
    (hstarted : w.port.rport.reconnectWork.started ≠ 0)
    (hok : Settled w (.reconnectWork attempt)) :
    Healthy ⟨w.port.reconnected true r, w.recoveredAfter (.reconnectWork attempt)⟩ := by
  have hidle : w.recovered = true → False := by
    intro hrecovered
    cases h hrecovered with
    | inl h => exact hlost h
    | inr hhealthy => exact hstarted hhealthy.2.2.started
  intro hrecovered
  cases hattempt with
  | succeeded _ =>
      have halone := hok.1
      have hnone := hadmits.resolve_right Attempt.noConfusion
      simp only [repairsAlone, Bool.and_eq_true, Bool.not_eq_true', decide_eq_true_eq] at halone
      refine Or.inr ⟨rfl, hnone, halone.1.1, ?_⟩
      simp [State.idle, SrpRport.work, State.reconnected, DelayedWork.finish, halone.1.2, halone.2,
        hnone]
  | interrupted => exact (hidle hrecovered).elim
  | failFast _ => exact (hidle hrecovered).elim
  | unblocked hstate =>
      cases hstate with
      | inl h => exact (hlost h).elim
      | inr hfail =>
          rw [hfail.2] at hrecovered
          exact (hidle hrecovered).elim
  | blocked _ => exact (hidle hrecovered).elim

theorem Healthy.stepped (h : Healthy w) (hok : Settled w e) (hstep : watch hz w e = some w') :
    Healthy w' := by
  obtain ⟨port, hport, rfl⟩ := Option.map_eq_some_iff.mp hstep
  by_cases hlost : w.port.rport.state = .lost
  · exact fun _ => Or.inl (lost_step hport hlost)
  have hhealthy : w.recovered = true → w.port.rport.state = .running ∧ w.port.held = none ∧
      Halted w.port .reconnect := fun hrecovered => (h hrecovered).resolve_left hlost
  cases step_cases hport with
  | tlError _ _ => exact fun hrecovered => by cases hrecovered
  | setBlocked hheld _ =>
      exact fun hrecovered => by cases (hhealthy hrecovered).2.1.symm.trans hheld
  | reconnect hadmits hattempt => exact healthy_reconnect hadmits hattempt h hlost hok
  | startTimers hheld _ =>
      exact fun hrecovered => by cases (hhealthy hrecovered).2.1.symm.trans hheld
  | @started name hpending =>
      intro hrecovered
      have hkept := hhealthy hrecovered
      cases name with
      | reconnect =>
          rw [hkept.2.2.1] at hpending
          cases hpending
      | fastIoFail => exact Or.inr hkept
      | devLoss => exact Or.inr hkept
  | reconnectWork hstarted hadmits hattempt =>
      exact healthy_reconnectWork hadmits hattempt h hlost hstarted hok
  | retry hretrying =>
      exact fun hrecovered => (hretrying (hhealthy hrecovered).2.2.retrying).elim
  | failedFast _ _ hblocked =>
      intro hrecovered
      rw [(hhealthy hrecovered).1] at hblocked
      cases hblocked
  | failedLate _ _ _ => exact fun hrecovered => Or.inr (hhealthy hrecovered)
  | devLoss _ _ => exact fun _ => Or.inl rfl
  | refused => exact fun hrecovered => Or.inr (hhealthy hrecovered)
  | storeQueued _ _ _ hnot => exact fun hrecovered => (hnot (hhealthy hrecovered).1).elim
  | storeCancelled _ _ =>
      intro hrecovered
      have hkept := hhealthy hrecovered
      exact Or.inr ⟨hkept.1, hkept.2.1, rfl, hkept.2.2.2⟩
  | storeKept _ _ => exact fun hrecovered => Or.inr (hhealthy hrecovered)
  | @assigned name _ _ =>
      intro hrecovered
      have hkept := hhealthy hrecovered
      cases name <;> exact Or.inr hkept
  | stop _ _ _ => exact fun _ => Or.inl rfl
  | @cancelSync name _ _ _ =>
      intro hrecovered
      have hkept := hhealthy hrecovered
      cases name with
      | reconnect => exact Or.inr ⟨hkept.1, hkept.2.1, rfl, hkept.2.2.2⟩
      | fastIoFail => exact Or.inr hkept
      | devLoss => exact Or.inr hkept

/-- In every run in which `reconnect_work` is idle whenever an attempt succeeds, and no attempt
fails on a recovered port: when the handler of `reconnect_work` calls `reconnect`, no attempt
has succeeded since the last error. -/
theorem reconnect_work_repairs {reconnectDelay fastIoFailTmo devLossTmo : ℤ} {attempt : Attempt}
    (hrun : Run (watch hz) Settled
      { port := State.added reconnectDelay fastIoFailTmo devLossTmo } w)
    (hstep : step hz w.port (.reconnectWork attempt) = some s')
    (hcalled : attempt ≠ .interrupted ∧ w.port.rport.state ≠ .lost) : w.recovered = false := by
  have h : Healthy w := by
    apply hrun.invariant (I := Healthy)
    · exact fun hrecovered => by cases hrecovered
    · exact fun _ _ _ hs hok hstep => hs.stepped hok hstep
  cases step_cases hstep with
  | reconnectWork hstarted _ _ =>
      apply Bool.eq_false_iff.mpr
      intro hrecovered
      cases h hrecovered with
      | inl hlost => exact hcalled.2 hlost
      | inr hhealthy => exact hstarted hhealthy.2.2.started

end

instance (w : Watched) (e : Event) : Decidable (Settled w e) :=
  inferInstanceAs (Decidable (_ ∧ (w.recovered = true → cause e ≠ some .reconnectFailed)))

/-- The port recovers, fails again, and its work starts. -/
def repairedByWork : List Event :=
  [.tlError, .setBlocked, .start .reconnect, .reconnectWork .succeeded, .tlError, .setBlocked,
    .start .reconnect]

theorem reconnect_work_repairs_twice : ∃ w s',
    Run (watch 1000) Settled { port := State.added 10 15 600 } w ∧
      step 1000 w.port (.reconnectWork .succeeded) = some s' ∧ w.port.rport.state = .blocked ∧
      w.recovered = false := by
  have h : Reaches (guarded (watch 1000) Settled) repairedByWork { port := State.added 10 15 600 }
      (fun w => w.port.rport.state = .blocked ∧
        (step 1000 w.port (.reconnectWork .succeeded)).isSome) = true := by decide +kernel
  obtain ⟨w, hrun, hs⟩ := run_of_reaches h
  have hstate := of_decide_eq_true hs
  obtain ⟨s', hstep⟩ := Option.isSome_iff_exists.mp hstate.2
  refine ⟨w, s', hrun, hstep, hstate.1, ?_⟩
  exact reconnect_work_repairs hrun hstep ⟨Attempt.noConfusion, by rw [hstate.1]; decide⟩

/-- The error handler reconnects the port before the reconnect timer expires. -/
def repairedByHandler : List Event :=
  [.tlError, .setBlocked, .reconnect .succeeded, .start .reconnect]

/-- The handler of `reconnect_work` calls `reconnect` on a recovered port; here the call fails
and the port is FAIL_FAST. -/
theorem healthy_connection_torn_down : ∃ w,
    AnyRun (watch 1000) { port := State.added 10 15 600 } w ∧ w.recovered = true ∧
      w.port.rport.state = .running ∧
      ∃ s', step 1000 w.port (.reconnectWork .failed) = some s' ∧ s'.rport.state = .failFast := by
  have h : Reaches (watch 1000) repairedByHandler { port := State.added 10 15 600 }
      (fun w => w.recovered = true ∧ w.port.rport.state = .running ∧
        ∃ s' ∈ step 1000 w.port (.reconnectWork .failed), s'.rport.state = .failFast) = true := by
    decide +kernel
  obtain ⟨w, hrun, hs⟩ := anyRun_of_reaches h
  exact ⟨w, hrun, of_decide_eq_true hs⟩

end IbSrp.ReconnectWork

import IbSrp.RequestSlots

/-!
# Which command a response completes

The tag of an SRP_CMD is that of its request slot. A response is matched to the
command that its slot carries when it arrives, which is not always the command
it answers: `srp_abort` frees the slot also when the target never confirmed the
abort, the slot is used again with the same tag, and the late answer to the
first command then completes the second one.

The target is honest if it sends a response only for an SRP_CMD that it has
received and not answered. With an honest target a response completes the
command it answers in every run in which no slot is taken while its tag is
still in use: no answer with that tag is owed, and no other slot with that tag
carries a command. Slots have different tags unless the ring has more than 2^16
of them.
-/
namespace IbSrp.ResponseMatching
open LabelledRuns Channel ChannelSystem SlotOwnership RequestSlots

/-- A response is the answer to a command that the target still owes one, or it
belongs to a task management request. -/
def Honest (s : Sys) : Event → Prop
  | .rsp tag _ answer => isTskMgmtTag tag = true ∨ (tag, answer) ∈ s.owed
  | _ => True

instance (s : Sys) (e : Event) : Decidable (Honest s e) := by
  cases e <;> unfold Honest <;> infer_instance

/-- Neither the target nor another slot still uses the tag of slot `i`. -/
def TagUnused (target : SrpTargetPort) (chIdx : ℕ) (s : Sys) (i : ℕ) : Prop :=
  (∀ p ∈ s.owed, p.1 ≠ buildSrpTag chIdx i) ∧
    ∀ j < target.reqRingSize, j ≠ i → buildSrpTag chIdx j = buildSrpTag chIdx i →
      (s.ch.reqRing j).scmnd = none

instance (target : SrpTargetPort) (chIdx : ℕ) (s : Sys) (i : ℕ) :
    Decidable (TagUnused target chIdx s i) :=
  inferInstanceAs (Decidable (_ ∧ _))

/-- A slot is taken only while its tag is unused. A call takes one if the device is ready and
there is a transmit buffer for the command. -/
def TakesUnused (target : SrpTargetPort) (chIdx : ℕ) (s : Sys) : Event → Prop
  | .queuecommand readiness _ => readiness = .ready → (srpGetTxIu .cmd s.ch).1 ≠ none →
      ∀ i ∈ s.ch.freeReqs.head?, TagUnused target chIdx s i
  | _ => True

instance (target : SrpTargetPort) (chIdx : ℕ) (s : Sys) (e : Event) :
    Decidable (TakesUnused target chIdx s e) := by
  cases e <;> unfold TakesUnused <;> infer_instance

structure Matching (chIdx : ℕ) (s : Sys) : Prop where
  tagged : ∀ p ∈ s.owed, ∃ i, p.1 = buildSrpTag chIdx i
  carried : ∀ i c, (slotsOf s).busy i = some c → ∀ p ∈ s.owed, p.1 = buildSrpTag chIdx i → p.2 = c
  claimed : ∀ cl ∈ s.claims, ∀ a, cl.completer = .rsp a → a = cl.scmnd.id
  done : ∀ p ∈ s.done, ∀ a, p.2 = .rsp a → a = p.1

theorem buildSrpTag_srpTagIdx (chIdx i : ℕ) :
    buildSrpTag chIdx (srpTagIdx (buildSrpTag chIdx i)) = buildSrpTag chIdx i := by
  rw [srpTagIdx_buildSrpTag]
  unfold buildSrpTag
  omega

section
variable {hca : Hca} {target : SrpTargetPort} {chIdx : ℕ} {s s' : Sys}

theorem Matching.shrink (h : Matching chIdx s) (howed : s'.owed ⊆ s.owed)
    (hbusy : ∀ i c, (slotsOf s').busy i = some c → (slotsOf s).busy i = some c)
    (hclaims : ∀ cl ∈ s'.claims, cl ∈ s.claims ∨ ∀ a, cl.completer = .rsp a → a = cl.scmnd.id)
    (hdone : ∀ p ∈ s'.done, p ∈ s.done ∨ ∀ a, p.2 = .rsp a → a = p.1) : Matching chIdx s' := by
  constructor
  · intro p hp
    exact h.tagged p (howed hp)
  · intro i c hc p hp
    exact h.carried i c (hbusy i c hc) p (howed hp)
  · intro cl hcl
    cases hclaims cl hcl with
    | inl hold => exact h.claimed cl hold
    | inr hnew => exact hnew
  · intro p hp
    cases hdone p hp with
    | inl hold => exact h.done p hold
    | inr hnew => exact hnew

theorem busy_of_update_none {busy : ℕ → Option ℕ} {i j c : ℕ}
    (h : Function.update busy i none j = some c) : busy j = some c := by
  by_cases hj : j = i
  · rw [hj, Function.update_self] at h
    cases h
  · rwa [Function.update_of_ne hj] at h

theorem Matching.claim (h : Matching chIdx s) {i : ℕ} {delta : BitVec 32} {completer : Completer}
    {c : ScsiCmnd} {owed : List (ℕ × ℕ)} {reconnect : Option ℕ} (howed : owed ⊆ s.owed)
    (hanswer : ∀ a, completer = .rsp a → a = c.id) :
    Matching chIdx { s.claim i delta completer c (emptied s.ch i) with
      owed := owed, reconnect := reconnect } := by
  apply h.shrink howed
  · intro j d hd
    change (slotsOf (s.claim i delta completer c (emptied s.ch i))).busy j = some d at hd
    rw [slotsOf_claim] at hd
    exact busy_of_update_none hd
  · intro cl hcl
    rcases List.mem_append.mp hcl with hold | hnew
    · exact Or.inl hold
    · rw [List.mem_singleton.mp hnew]
      exact Or.inr hanswer
  · intro p hp
    exact Or.inl hp

/-- A matched response answers the command it claims. -/
theorem Matching.answer (h : Matching chIdx s) {tag answer : ℕ} {c : ScsiCmnd}
    (howed : (tag, answer) ∈ s.owed) (hc : (s.ch.reqRing (srpTagIdx tag)).scmnd = some c) :
    answer = c.id := by
  obtain ⟨i, hi⟩ := h.tagged _ howed
  have hbusy : (slotsOf s).busy (srpTagIdx tag) = some c.id := by simp [slotsOf, hc]
  have htag : tag = buildSrpTag chIdx (srpTagIdx tag) := by
    change tag = buildSrpTag chIdx i at hi
    rw [hi, buildSrpTag_srpTagIdx]
  exact h.carried _ _ hbusy _ howed htag

theorem Matching.freeClaim (h : Matching chIdx s) {k : ℕ} {c : Claim}
    (hk : s.claims[k]? = some c) : Matching chIdx (s.freeClaim hca target k c) := by
  have hmem := List.mem_of_getElem? hk
  apply h.shrink
  · intro p hp
    exact hp
  · intro i d hd
    rw [slotsOf_freeClaim] at hd
    exact hd
  · intro cl hcl
    exact Or.inl (List.mem_of_mem_eraseIdx hcl)
  · intro p hp
    rcases List.mem_append.mp hp with hold | hnew
    · exact Or.inl hold
    · rw [List.mem_singleton.mp hnew]
      exact Or.inr (h.claimed c hmem)

theorem Matching.sent (h : Matching chIdx s) (howned : Owned target.reqRingSize (slotsOf s))
    {i id : ℕ} {rest : List ℕ} {ch : SrpRdmaCh} (hunused : TagUnused target chIdx s i)
    (hslots : slotsOf { s with ch := ch } =
      { slotsOf s with free := rest, busy := Function.update (slotsOf s).busy i (some id),
                       log := (slotsOf s).log++[.took i] }) :
    Matching chIdx (s.queued chIdx id (.sent i, ch)) := by
  have hbusy : (slotsOf (s.queued chIdx id (.sent i, ch))).busy =
      Function.update (slotsOf s).busy i (some id) := by
    change (slotsOf { s with ch := ch }).busy = _
    rw [hslots]
  constructor
  · intro p hp
    rcases List.mem_append.mp hp with hold | hnew
    · exact h.tagged p hold
    · rw [List.mem_singleton.mp hnew]
      exact ⟨i, rfl⟩
  · intro j c hc p hp htag
    rw [hbusy] at hc
    by_cases hj : j = i
    · subst hj
      rw [Function.update_self] at hc
      rcases List.mem_append.mp hp with hold | hnew
      · exact (hunused.1 p hold htag).elim
      · rw [List.mem_singleton.mp hnew]
        exact Option.some.inj hc
    · rw [Function.update_of_ne hj] at hc
      rcases List.mem_append.mp hp with hold | hnew
      · exact h.carried j c hc p hold htag
      · rw [List.mem_singleton.mp hnew] at htag
        have hnone := hunused.2 j (howned.busy_lt j c hc) hj htag.symm
        simp [slotsOf, hnone] at hc
  · exact h.claimed
  · exact h.done

theorem Matching.queued (h : Matching chIdx s) (howned : Owned target.reqRingSize (slotsOf s))
    {scmnd : ScsiCmnd} {p : QueueResult × SrpRdmaCh}
    (hunused : ∀ i ∈ s.ch.freeReqs.head?, p.1 = .sent i → TagUnused target chIdx s i)
    (hq : Queuecommand hca target scmnd s.ch p) : Matching chIdx (s.queued chIdx scmnd.id p) := by
  have hslots := slots_queuecommand hq
  obtain ⟨res, ch⟩ := p
  have hbusy : (∀ i, res ≠ .sent i) →
      ∀ i c, (slotsOf { s with ch := ch }).busy i = some c → (slotsOf s).busy i = some c := by
    intro hne i c hc
    rcases hslots with ⟨he, _⟩ | ⟨j, rest, _, he, _⟩ | ⟨j, _, _, _, hj⟩
    · rwa [he] at hc
    · rw [he] at hc
      exact busy_of_update_none hc
    · exact (hne j hj).elim
  cases res with
  | sent i =>
      rcases hslots with ⟨_, hne⟩ | ⟨_, _, _, _, hne⟩ | ⟨j, rest, hfree, he, hj⟩
      · exact (hne i rfl).elim
      · exact (hne i rfl).elim
      · cases hj
        exact h.sent howned (hunused i (by simp [hfree]) rfl) he
  | completed =>
      apply h.shrink
      · exact List.Subset.refl _
      · exact hbusy fun i hi => by cases hi
      · intro cl hcl
        exact Or.inl hcl
      · intro p hp
        rcases List.mem_append.mp hp with hold | hnew
        · exact Or.inl hold
        · rw [List.mem_singleton.mp hnew]
          exact Or.inr fun a ha => by cases ha
  | hostBusy =>
      apply h.shrink
      · exact List.Subset.refl _
      · exact hbusy fun i hi => by cases hi
      · intro cl hcl
        exact Or.inl hcl
      · intro p hp
        exact Or.inl hp

/-- A step that changes neither claims nor completions, and the slots not either. -/
theorem Matching.same (h : Matching chIdx s) {ch : SrpRdmaCh} {owed : List (ℕ × ℕ)}
    {reconnect : Option ℕ} (hch : SameSlots s.ch ch) (howed : owed ⊆ s.owed) :
    Matching chIdx { s with ch := ch, owed := owed, reconnect := reconnect } := by
  apply h.shrink howed
  · intro i c hc
    change (slotsOf { s with ch := ch }).busy i = some c at hc
    rwa [slotsOf_same hch] at hc
  · intro cl hcl
    exact Or.inl hcl
  · intro p hp
    exact Or.inl hp

/-- A command that has been sent has a slot. -/
theorem takes_of_sent {readiness : Readiness} {scmnd : ScsiCmnd} {ch : SrpRdmaCh}
    {p : QueueResult × SrpRdmaCh} (hq : srpQueuecommand hca target readiness scmnd ch = some p)
    {i : ℕ} (hsent : p.1 = .sent i) : readiness = .ready ∧ (srpGetTxIu .cmd ch).1 ≠ none := by
  constructor
  · cases readiness with
    | ready => rfl
    | failing | blocked =>
        cases hq
        cases hsent
  · cases srpQueuecommand_cases _ _ hq with
    | sent hget _ _ _ => simp [hget]
    | failing | blocked | noIu _ | mapFailed _ _ _ | postFailed _ _ _ _ => cases hsent

theorem Matching.stepped {e : Event} (h : Matching chIdx s)
    (howned : Owned target.reqRingSize (slotsOf s)) (hhonest : Honest s e)
    (hunused : TakesUnused target chIdx s e) (hstep : Stepped hca target chIdx s e s') :
    Matching chIdx s' := by
  cases hstep with
  | queued _ _ hq =>
      refine h.queued howned (fun i hi hsent => ?_) (srpQueuecommand_cases _ _ hq)
      have htakes := takes_of_sent hq hsent
      exact hunused htakes.1 htakes.2 i hi
  | ignored => exact h
  | unmatched _ => exact h.same ⟨rfl, fun _ => rfl, rfl⟩ List.erase_subset
  | matched htsk hlt hc =>
      have howed := hhonest.resolve_left (by simp [htsk])
      apply h.claim List.erase_subset
      intro a ha
      cases ha
      exact h.answer howed hc
  | finished _ hc => exact h.claim (List.Subset.refl _) fun a ha => by cases ha
  | aborted _ hc => exact h.claim (List.Subset.refl _) fun a ha => by cases ha
  | freed hk => exact h.freeClaim hk
  | tskMgmt => exact h.same (srpSendTskMgmt_same hca s.ch) (List.Subset.refl _)
  | targetRequest => exact h.same (srpResponseCommon_same hca _ s.ch) (List.Subset.refl _)
  | complete => exact h.same ⟨rfl, fun _ => rfl, rfl⟩ (List.Subset.refl _)
  | forget => exact h.same (.refl s.ch) List.erase_subset
  | reconnectStart => exact h.same ⟨rfl, fun _ => rfl, rfl⟩ (List.Subset.refl _)
  | reconnectClaimed _ _ hc => exact h.claim (List.Subset.refl _) fun a ha => by cases ha
  | reconnectSkipped => exact h.same (.refl s.ch) (List.Subset.refl _)
  | @reconnected created grant _ =>
      have hch : SameSlots s.ch (srpCreateChIb target created s.ch) := by
        cases created <;> exact ⟨rfl, fun _ => rfl, rfl⟩
      cases created with
      | false => exact h.same hch (List.Subset.refl _)
      | true =>
          cases grant with
          | none => exact h.same hch (List.nil_subset _)
          | some reqLim =>
              exact h.same ⟨hch.freeReqs, hch.scmnd, hch.slotLog⟩ (List.nil_subset _)

theorem matching_login (reqLim : BitVec 32) : Matching chIdx (Sys.login target reqLim) := by
  constructor
  · intro p hp
    cases hp
  · intro i c hc
    cases hc
  · intro cl hcl
    cases hcl
  · intro p hp
    cases hp

/-- With an honest target, in every run in which slots are taken only while their tag is
unused, every command that a response completed is the one it answered. -/
theorem response_completes_its_command {reqLim : BitVec 32}
    (hrun : Run (step hca target chIdx)
      (fun s e => Honest s e ∧ TakesUnused target chIdx s e) (Sys.login target reqLim) s) :
    ∀ c answer, (c, .rsp answer) ∈ s.done → answer = c := by
  have h : Owned target.reqRingSize (slotsOf s) ∧ Matching chIdx s := by
    apply hrun.invariant (I := fun s => Owned target.reqRingSize (slotsOf s) ∧ Matching chIdx s)
    · exact ⟨owned_login reqLim, matching_login reqLim⟩
    · intro s e s' hs hok hstep
      have hstepped := step_cases hstep
      exact ⟨hs.1.move (move_stepped hstepped), hs.2.stepped hs.1 hok.1 hok.2 hstepped⟩
  intro c answer hmem
  exact h.2.done _ hmem answer rfl

end

/-- One command, its answer, and the slot used again. -/
def answeredInTime : List Event :=
  [.queuecommand .ready (noData 0), .rsp 0 1 0, .free 0, .queuecommand .ready (noData 1),
    .rsp 1 1 1, .free 0, .queuecommand .ready (noData 2), .rsp 0 1 2, .free 0]

theorem response_completes_its_command_in_time : ∃ s,
    Run (step willingHca smallTarget 0)
      (fun s e => Honest s e ∧ TakesUnused smallTarget 0 s e) (Sys.login smallTarget 4) s ∧
      s.done = [(0, .rsp 0), (1, .rsp 1), (2, .rsp 2)] ∧
      ∀ c answer, (c, .rsp answer) ∈ s.done → answer = c := by
  have h : Reaches (guarded (step willingHca smallTarget 0)
      fun s e => Honest s e ∧ TakesUnused smallTarget 0 s e) answeredInTime
      (Sys.login smallTarget 4) (fun s => s.done = [(0, .rsp 0), (1, .rsp 1), (2, .rsp 2)]) =
      true := by decide +kernel
  obtain ⟨s, hrun, hdone⟩ := run_of_reaches h
  exact ⟨s, hrun, of_decide_eq_true hdone, response_completes_its_command hrun⟩

/-- The abort of command 0 gets no response. Its slot is freed and later carries command 2,
which the late answer to command 0 completes. -/
def answeredLate : List Event :=
  [.queuecommand .ready (noData 0), .abort 0, .tskMgmt, .free 0,
    .queuecommand .ready (noData 1), .complete true, .complete true, .complete true,
    .rsp 1 1 1, .free 0, .queuecommand .ready (noData 2), .rsp 0 1 0, .free 0]

theorem response_completes_other_command : ∃ s,
    Run (step willingHca smallTarget 0) Honest (Sys.login smallTarget 4) s ∧
      s.done = [(0, .abort), (1, .rsp 1), (2, .rsp 0)] := by
  have h : Reaches (guarded (step willingHca smallTarget 0) Honest) answeredLate
      (Sys.login smallTarget 4) (fun s => s.done = [(0, .abort), (1, .rsp 1), (2, .rsp 0)]) =
      true := by decide +kernel
  obtain ⟨s, hrun, hdone⟩ := run_of_reaches h
  exact ⟨s, hrun, of_decide_eq_true hdone⟩

end IbSrp.ResponseMatching

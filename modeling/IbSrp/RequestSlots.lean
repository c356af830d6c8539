import IbSrp.ChannelFrames
import IbSrp.SlotOwnership

/-!
# Every command is completed at most once and every slot is conserved

The channel refines the abstract slot machine: `slotsOf` reads the owner of each
slot off the system state, and every step is a move of `SlotOwnership`. The
invariant of the moves then holds in every state of every run, whatever the
order in which responses, aborts, resets, terminations and reconnects claim and
free requests.

The ring has one slot more than the mid-layer may have commands outstanding, so
that the first entry of `free_reqs` exists whenever `srp_queuecommand` takes it.
-/
namespace IbSrp.RequestSlots
open LabelledRuns Channel ChannelSystem ChannelFrames SlotOwnership
open SlotEvent

/-- The owners of the slots, read off the system state. -/
def slotsOf (s : Sys) : Slots where
  free := s.ch.freeReqs
  busy i := (s.ch.reqRing i).scmnd.map ScsiCmnd.id
  claimed := s.claims.map fun c => (c.slot, c.scmnd.id)
  nextId := s.nextId
  accepted := s.accepted
  done := s.done.map Prod.fst
  log := s.ch.slotLog

structure SameSlots (ch ch' : SrpRdmaCh) : Prop where
  freeReqs : ch'.freeReqs = ch.freeReqs
  scmnd : ∀ i, (ch'.reqRing i).scmnd = (ch.reqRing i).scmnd
  slotLog : ch'.slotLog = ch.slotLog

theorem SameSlots.refl (ch : SrpRdmaCh) : SameSlots ch ch := ⟨rfl, fun _ => rfl, rfl⟩

theorem SameSlots.trans {a b c : SrpRdmaCh} (h : SameSlots a b) (h' : SameSlots b c) :
    SameSlots a c := by
  constructor
  · rw [h'.freeReqs, h.freeReqs]
  · intro i
    rw [h'.scmnd, h.scmnd]
  · rw [h'.slotLog, h.slotLog]

theorem sameSlots_of_mappingOnly {ch ch' : SrpRdmaCh} (h : MappingOnly ch ch') :
    SameSlots ch ch' := by
  obtain ⟨_, _, _, _, rfl⟩ := h
  exact ⟨rfl, fun _ => rfl, rfl⟩

theorem sameSlots_of_slotMapped {i : ℕ} {ch ch' : SrpRdmaCh} (h : SlotMapped i ch ch') :
    SameSlots ch ch' := by
  obtain ⟨ch₁, mrList, hmap, he | he⟩ := h
  · rw [he]
    exact sameSlots_of_mappingOnly hmap
  · refine (sameSlots_of_mappingOnly hmap).trans ?_
    rw [he]
    refine ⟨rfl, fun j => ?_, rfl⟩
    by_cases hj : j = i
    · simp [SrpRdmaCh.setReq, hj]
    · simp [SrpRdmaCh.setReq, hj]

theorem srpUnmapData_same (hca : Hca) (target : SrpTargetPort) (scmnd : ScsiCmnd) (i : ℕ)
    (ch : SrpRdmaCh) : SameSlots ch (srpUnmapData hca target scmnd i ch) := by
  obtain ⟨touched, h⟩ := srpUnmapData_frame hca target scmnd i ch
  obtain ⟨h₁, h₂, h₃⟩ := sameSlots_of_mappingOnly h
  exact ⟨h₁, h₂, h₃⟩

theorem srpGetTxIu_same (iuType : SrpIuType) (ch : SrpRdmaCh) :
    SameSlots ch (srpGetTxIu iuType ch).2 := by
  obtain ⟨_, _, _, h⟩ := srpGetTxIu_frame iuType ch
  rw [h]
  exact ⟨rfl, fun _ => rfl, rfl⟩

theorem sameSlots_of_sendIu {hca : Hca} {iuType : SrpIuType} {ch ch' : SrpRdmaCh}
    (h : SendIu hca iuType ch ch') : SameSlots ch ch' := by
  obtain ⟨_, _, _, _, _, rfl, _⟩ := h.frame
  exact ⟨rfl, fun _ => rfl, rfl⟩

theorem srpSendTskMgmt_same (hca : Hca) (ch : SrpRdmaCh) :
    SameSlots ch (srpSendTskMgmt hca ch).2 :=
  sameSlots_of_sendIu (sendIu_srpSendTskMgmt hca ch)

theorem srpResponseCommon_same (hca : Hca) (delta : BitVec 32) (ch : SrpRdmaCh) :
    SameSlots ch (srpResponseCommon hca delta ch).2 := by
  obtain ⟨h₁, h₂, h₃⟩ := sameSlots_of_sendIu (sendIu_srpResponseCommon hca delta ch)
  exact ⟨h₁, h₂, h₃⟩

theorem busy_update (ch : SrpRdmaCh) (i : ℕ) (req : SrpRequest) :
    (fun j => (Function.update ch.reqRing i req j).scmnd.map ScsiCmnd.id) =
      Function.update (fun j => (ch.reqRing j).scmnd.map ScsiCmnd.id) i
        (req.scmnd.map ScsiCmnd.id) := by
  funext j
  by_cases hj : j = i
  · subst hj
    simp
  · simp [hj]

theorem slotsOf_claim {s : Sys} {i : ℕ} {c : ScsiCmnd} (delta : BitVec 32)
    (completer : Completer) :
    slotsOf (s.claim i delta completer c (emptied s.ch i)) =
      { slotsOf s with busy := Function.update (slotsOf s).busy i none,
                       claimed := (slotsOf s).claimed++[(i, c.id)] } := by
  simp [slotsOf, Sys.claim, emptied, SrpRdmaCh.setReq, busy_update]

theorem move_claim {s : Sys} {i : ℕ} {c : ScsiCmnd} (delta : BitVec 32) (completer : Completer)
    (hc : (s.ch.reqRing i).scmnd = some c) :
    Move (slotsOf s) (slotsOf (s.claim i delta completer c (emptied s.ch i))) := by
  have hbusy : (slotsOf s).busy i = some c.id := by simp [slotsOf, hc]
  rw [slotsOf_claim]
  exact .claim hbusy

theorem slotsOf_same {s : Sys} {ch : SrpRdmaCh} (h : SameSlots s.ch ch) :
    slotsOf { s with ch := ch } = slotsOf s := by
  have hbusy : (fun i => (ch.reqRing i).scmnd.map ScsiCmnd.id) =
      fun i => (s.ch.reqRing i).scmnd.map ScsiCmnd.id := by
    funext i
    rw [h.scmnd]
  simp only [slotsOf, h.freeReqs, h.slotLog, hbusy]

theorem slotsOf_freeClaim (hca : Hca) (target : SrpTargetPort) (s : Sys) (k : ℕ) (c : Claim) :
    slotsOf (s.freeClaim hca target k c) =
      { slotsOf s with free := (slotsOf s).free++[c.slot],
                       claimed := (slotsOf s).claimed.eraseIdx k,
                       done := (slotsOf s).done++[c.scmnd.id],
                       log := (slotsOf s).log++[put c.slot] } := by
  have h := srpUnmapData_same hca target c.scmnd c.slot s.ch
  cases hcomp : c.completer <;>
    simp [slotsOf, Sys.freeClaim, srpFreeReq, hcomp, h.freeReqs, h.scmnd, h.slotLog,
      List.eraseIdx_map]

theorem move_freeClaim (hca : Hca) (target : SrpTargetPort) {s : Sys} {k : ℕ} {c : Claim}
    (hk : s.claims[k]? = some c) : Move (slotsOf s) (slotsOf (s.freeClaim hca target k c)) := by
  have hget : (slotsOf s).claimed[k]? = some (c.slot, c.scmnd.id) := by
    simp [slotsOf, List.getElem?_map, hk]
  rw [slotsOf_freeClaim]
  exact .release hget

section
variable {hca : Hca} {target : SrpTargetPort}

/-- Taking a slot and putting it back after an error, for command `scmnd`. -/
theorem slotsOf_error {s : Sys} {ch₁ ch₂ : SrpRdmaCh} {iu i : ℕ} {rest : List ℕ}
    {scmnd : ScsiCmnd} (hget : SameSlots s.ch ch₁) (hfree : ch₁.freeReqs = i::rest)
    (hmap : SameSlots (srpTakeReq i rest scmnd ch₁) ch₂) :
    slotsOf { s with ch := srpQueuecommandError iu i ch₂ } =
      { slotsOf s with busy := Function.update (slotsOf s).busy i none,
                       log := (slotsOf s).log++[took i, put i] } := by
  have hbusy : (fun j => (ch₂.reqRing j).scmnd.map ScsiCmnd.id) =
      Function.update (fun j => (s.ch.reqRing j).scmnd.map ScsiCmnd.id) i (some scmnd.id) := by
    funext j
    rw [hmap.scmnd]
    by_cases hj : j = i
    · subst hj
      simp [srpTakeReq]
    · simp [srpTakeReq, hj, hget.scmnd]
  ext1
  · change i::ch₂.freeReqs = s.ch.freeReqs
    rw [hmap.freeReqs, ← hget.freeReqs, hfree]
    rfl
  · change (fun j => (Function.update ch₂.reqRing i _ j).scmnd.map ScsiCmnd.id) = _
    rw [busy_update, hbusy, Function.update_idem]
    rfl
  · rfl
  · rfl
  · rfl
  · rfl
  · change ch₂.slotLog++[put i] = s.ch.slotLog++[took i, put i]
    rw [hmap.slotLog]
    change ch₁.slotLog++[took i]++[put i] = _
    rw [hget.slotLog, List.append_assoc]
    rfl

theorem slotsOf_sent {s : Sys} {ch₁ ch₃ : SrpRdmaCh} {i : ℕ} {rest : List ℕ} {scmnd : ScsiCmnd}
    (hget : SameSlots s.ch ch₁) (hmap : SameSlots (srpTakeReq i rest scmnd ch₁) ch₃) :
    slotsOf { s with ch := ch₃ } =
      { slotsOf s with free := rest,
                       busy := Function.update (slotsOf s).busy i (some scmnd.id),
                       log := (slotsOf s).log++[took i] } := by
  ext1
  · exact hmap.freeReqs
  · funext j
    change (ch₃.reqRing j).scmnd.map ScsiCmnd.id = _
    rw [hmap.scmnd]
    by_cases hj : j = i
    · subst hj
      simp [srpTakeReq]
    · simp [srpTakeReq, hj, hget.scmnd, slotsOf]
  · rfl
  · rfl
  · rfl
  · rfl
  · change ch₃.slotLog = s.ch.slotLog++[took i]
    rw [hmap.slotLog]
    change ch₁.slotLog++[took i] = _
    rw [hget.slotLog]

theorem slots_queuecommand {s : Sys} {scmnd : ScsiCmnd} {p : QueueResult × SrpRdmaCh}
    (h : Queuecommand hca target scmnd s.ch p) :
    (slotsOf { s with ch := p.2 } = slotsOf s ∧ ∀ i, p.1 ≠ .sent i) ∨
    (∃ i rest, s.ch.freeReqs = i::rest ∧ slotsOf { s with ch := p.2 } =
      { slotsOf s with busy := Function.update (slotsOf s).busy i none,
                       log := (slotsOf s).log++[took i, put i] } ∧ ∀ j, p.1 ≠ .sent j) ∨
    (∃ i rest, s.ch.freeReqs = i::rest ∧ slotsOf { s with ch := p.2 } =
      { slotsOf s with free := rest,
                       busy := Function.update (slotsOf s).busy i (some scmnd.id),
                       log := (slotsOf s).log++[took i] } ∧ p.1 = .sent i) := by
  cases h with
  | failing => exact Or.inl ⟨rfl, fun i h => by cases h⟩
  | blocked => exact Or.inl ⟨rfl, fun i h => by cases h⟩
  | noIu hget =>
      have hsame := srpGetTxIu_same .cmd s.ch
      rw [hget] at hsame
      exact Or.inl ⟨slotsOf_same hsame, fun i h => by cases h⟩
  | @mapFailed ch₁ ch₂ iu i rest hget hfree hmap =>
      have hsame := srpGetTxIu_same .cmd s.ch
      rw [hget] at hsame
      have hmapped := sameSlots_of_slotMapped (srpMapData_frame hca target hmap)
      exact Or.inr (Or.inl ⟨i, rest, by rw [← hsame.freeReqs, hfree],
        slotsOf_error hsame hfree hmapped, fun j h => by cases h⟩)
  | @sent ch₁ ch₂ ch₃ iu i rest layout hget hfree hmap hpost =>
      have hsame := srpGetTxIu_same .cmd s.ch
      rw [hget] at hsame
      have hmapped := sameSlots_of_slotMapped (srpMapData_frame hca target hmap)
      have hposted := sameSlots_of_mappingOnly (mappingOnly_srpPostSend hca iu layout.numSge ch₂)
      rw [hpost] at hposted
      exact Or.inr (Or.inr ⟨i, rest, by rw [← hsame.freeReqs, hfree],
        slotsOf_sent hsame (hmapped.trans hposted), rfl⟩)
  | @postFailed ch₁ ch₂ ch₃ iu i rest layout hget hfree hmap hpost =>
      have hsame := srpGetTxIu_same .cmd s.ch
      rw [hget] at hsame
      have hmapped := sameSlots_of_slotMapped (srpMapData_frame hca target hmap)
      have hposted := sameSlots_of_mappingOnly (mappingOnly_srpPostSend hca iu layout.numSge ch₂)
      rw [hpost] at hposted
      have hunmap := srpUnmapData_same hca target scmnd i ch₃
      exact Or.inr (Or.inl ⟨i, rest, by rw [← hsame.freeReqs, hfree],
        slotsOf_error hsame hfree ((hmapped.trans hposted).trans hunmap), fun j h => by cases h⟩)

theorem move_queued {chIdx : ℕ} {s : Sys} {scmnd : ScsiCmnd} {p : QueueResult × SrpRdmaCh}
    (hid : scmnd.id = s.nextId) (hq : Queuecommand hca target scmnd s.ch p) :
    Move (slotsOf s) (slotsOf (s.queued chIdx scmnd.id p)) := by
  have hslots := slots_queuecommand hq
  obtain ⟨res, ch⟩ := p
  cases res with
  | sent i =>
      have hs : slotsOf (s.queued chIdx scmnd.id (.sent i, ch)) =
          { slotsOf { s with ch := ch } with
              nextId := s.nextId+1, accepted := s.accepted++[scmnd.id] } := rfl
      rcases hslots with ⟨_, hne⟩ | ⟨_, _, _, _, hne⟩ | ⟨j, rest, hfree, he, _⟩
      · exact (hne i rfl).elim
      · exact (hne i rfl).elim
      · rw [hs, he, hid]
        exact Move.take (a := slotsOf s) hfree
  | completed =>
      have hs : slotsOf (s.queued chIdx scmnd.id (.completed, ch)) =
          { slotsOf { s with ch := ch } with
              nextId := s.nextId+1, done := (slotsOf s).done++[s.nextId] } := by
        simp [slotsOf, Sys.queued, hid]
      rcases hslots with ⟨he, _⟩ | ⟨i, rest, hfree, he, _⟩ | ⟨_, _, _, _, hne⟩
      · rw [hs, he]
        exact Move.refuse true
      · rw [hs, he]
        exact Move.bounce true hfree
      · cases hne
  | hostBusy =>
      have hs : slotsOf (s.queued chIdx scmnd.id (.hostBusy, ch)) =
          { slotsOf { s with ch := ch } with
              nextId := s.nextId+1, done := (slotsOf s).done++[] } := by
        simp [slotsOf, Sys.queued]
      rcases hslots with ⟨he, _⟩ | ⟨i, rest, hfree, he, _⟩ | ⟨_, _, _, _, hne⟩
      · rw [hs, he]
        exact Move.refuse false
      · rw [hs, he]
        exact Move.bounce false hfree
      · cases hne

/-- Every step of the channel is a move of the slots. -/
theorem move_stepped {chIdx : ℕ} {s s' : Sys} {e : Event}
    (h : Stepped hca target chIdx s e s') : Move (slotsOf s) (slotsOf s') := by
  cases h with
  | queued _ hid hq => exact move_queued hid (srpQueuecommand_cases _ _ hq)
  | ignored => exact .skip
  | unmatched _ => exact .skip
  | matched _ _ hc => exact move_claim _ _ hc
  | finished _ hc => exact move_claim _ _ hc
  | aborted _ hc => exact move_claim _ _ hc
  | freed hk => exact move_freeClaim hca target hk
  | tskMgmt =>
      rw [slotsOf_same (srpSendTskMgmt_same hca s.ch)]
      exact .skip
  | targetRequest =>
      rw [slotsOf_same (srpResponseCommon_same hca _ s.ch)]
      exact .skip
  | complete => exact .skip
  | forget => exact .skip
  | reconnectStart => exact .skip
  | reconnectClaimed _ _ hc => exact move_claim _ _ hc
  | reconnectSkipped => exact .skip
  | @reconnected created grant _ => cases created <;> cases grant <;> exact .skip

theorem owned_login (reqLim : BitVec 32) :
    Owned target.reqRingSize (slotsOf (Sys.login target reqLim)) := by
  have hout : (slotsOf (Sys.login target reqLim)).out target.reqRingSize = [] := by
    simp [Slots.out, busyList, slotsOf, Sys.login, SrpRdmaCh.login]
  constructor
  · intro i c hc
    cases hc
  · rw [hout]
    simp [slotsOf, Sys.login, SrpRdmaCh.login]
  · rw [hout]
    exact List.nodup_nil
  · exact List.nodup_nil
  · intro c
    rw [hout]
    simp [slotsOf, Sys.login]
  · intro c hc
    cases hc
  · intro c hc
    cases hc
  · intro p hp i
    rw [List.prefix_nil.mp hp]
    simp
  · intro i
    rw [hout]
    rfl

theorem owned_run {chIdx : ℕ} {ok : Sys → Event → Prop} {reqLim : BitVec 32} {s : Sys}
    (hrun : Run (step hca target chIdx) ok (Sys.login target reqLim) s) :
    Owned target.reqRingSize (slotsOf s) := by
  apply hrun.invariant (I := fun s => Owned target.reqRingSize (slotsOf s)) (owned_login reqLim)
  intro s e s' howned _ hstep
  exact howned.move (move_stepped (step_cases hstep))

/-- The commands outstanding are those in slots that are not free. -/
theorem outstanding_perm {n : ℕ} {s : Sys} (h : Owned n (slotsOf s)) :
    s.outstanding.Perm (((slotsOf s).out n).map Prod.snd) := by
  apply (List.perm_ext_iff_of_nodup (h.accepted_nodup.filter _)
    (List.nodup_append.mp h.commands).1).mpr
  intro c
  rw [h.accepted_iff]
  simp [slotsOf]

theorem freeReqs_ne_nil {s : Sys} (h : Owned target.reqRingSize (slotsOf s))
    (hout : s.outstanding.length < target.canQueue) : s.ch.freeReqs ≠ [] := by
  intro hnil
  have hlen := h.slots.length_eq
  have hsame := (outstanding_perm h).length_eq
  have hge := target.queueSize_ge
  simp only [slotsOf, hnil, List.nil_append, List.length_map, List.length_range] at hlen hsame
  simp only [SrpTargetPort.reqRingSize, srpTskMgmtSqSize, srpRspSqSize] at hlen hge hsame
  omega

theorem scmnd_of_mem_freeReqs {n i : ℕ} {s : Sys} (h : Owned n (slotsOf s))
    (hi : i ∈ s.ch.freeReqs) : (s.ch.reqRing i).scmnd = none := by
  cases hc : (s.ch.reqRing i).scmnd with
  | none => rfl
  | some c =>
      have hbusy : (slotsOf s).busy i = some c.id := by simp [slotsOf, hc]
      have hmem : (i, c.id) ∈ busyList n (slotsOf s).busy :=
        (busyList_update_none (h.busy_lt i _ hbusy) hbusy).mem_iff.mpr List.mem_cons_self
      have hout : i ∈ ((slotsOf s).out n).map Prod.fst :=
        List.mem_map.mpr ⟨(i, c.id), List.mem_append_left _ hmem, rfl⟩
      have hnodup := h.slots.nodup_iff.mpr List.nodup_range
      exact ((List.nodup_append.mp hnodup).2.2 i hi i hout rfl).elim

/-- In every state of every run: no command has been completed twice, every slot taken off
`free_reqs` was put back at most once, `free_reqs` has no duplicates and no slot with a
command, and it is not empty while fewer than `can_queue` commands are outstanding. -/
theorem requests_conserved {chIdx : ℕ} {reqLim : BitVec 32} {s : Sys}
    (hrun : AnyRun (step hca target chIdx) (Sys.login target reqLim) s) :
    (s.done.map Prod.fst).Nodup ∧ Balanced s.ch.slotLog ∧ s.ch.freeReqs.Nodup ∧
      (∀ i ∈ s.ch.freeReqs, (s.ch.reqRing i).scmnd = none) ∧
      (s.outstanding.length < target.canQueue → s.ch.freeReqs ≠ []) := by
  have h := owned_run hrun
  have hnodup := h.slots.nodup_iff.mpr List.nodup_range
  constructor
  · exact (List.nodup_append.mp h.commands).2.1
  constructor
  · exact h.balanced
  constructor
  · exact (List.nodup_append.mp hnodup).1
  constructor
  · intro i hi
    exact scmnd_of_mem_freeReqs h hi
  · exact freeReqs_ne_nil h

end

/-- A command is aborted, and its response comes while the abort is waiting and once more
after the slot has been freed. -/
def abortedTwiceAnswered : List Event :=
  [.queuecommand .ready (noData 0), .abort 0, .rsp 0 1 0, .free 0, .rsp 0 1 0]

theorem requests_conserved_aborted : ∃ s,
    AnyRun (step willingHca smallTarget 0) (Sys.login smallTarget 4) s ∧
      s.done = [(0, .abort)] ∧ s.ch.freeReqs.Nodup ∧ Balanced s.ch.slotLog := by
  have h : Reaches (step willingHca smallTarget 0) abortedTwiceAnswered (Sys.login smallTarget 4)
      (fun s => s.done = [(0, .abort)]) = true := by decide +kernel
  obtain ⟨s, hrun, hdone⟩ := anyRun_of_reaches h
  have hs := requests_conserved hrun
  exact ⟨s, hrun, of_decide_eq_true hdone, hs.2.2.1, hs.2.1⟩

end IbSrp.RequestSlots

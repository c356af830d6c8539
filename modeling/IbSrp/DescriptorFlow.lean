import IbSrp.RegistrationCount
import IbSrp.RequestSlots

/-!
# How memory descriptors move between the pool and the requests

A mapping takes descriptors off the front of the pool's free list and leaves
them in the list of its request slot. Unmapping posts an invalidation for each
of them and puts them all back. A request holds the descriptors of its slot from
the time its command was mapped until it is freed; claiming it changes nothing.
A slot whose command carries no data keeps the list of an earlier command, which
nobody reads.

For every step of the channel the lemmas say how the free list and the held
descriptors change, up to order, and how many work requests were posted. All of
this is about devices with fast registration.
-/
namespace IbSrp.DescriptorFlow
open MemoryRegistration MappingCoverage MappingResults Channel ChannelSystem ChannelFrames
open SlotOwnership RequestSlots RegistrationCount

/-- The descriptors `descs` were taken off the free list; at most one work request was
posted for each. -/
structure Took (descs : List MrDesc) (ch ch' : SrpRdmaCh) : Prop where
  free : ch.pool.freeList = descs++ch'.pool.freeList
  id : ch'.pool.id = ch.pool.id
  sq : ch'.sq.length ≤ ch.sq.length+descs.length

theorem Took.refl (ch : SrpRdmaCh) : Took [] ch ch := by
  constructor
  · rfl
  · rfl
  · exact Nat.le_refl _

theorem Took.trans {ds ds' : List MrDesc} {a b c : SrpRdmaCh} (h : Took ds a b)
    (h' : Took ds' b c) : Took (ds++ds') a c := by
  have hsq := h.sq
  have hsq' := h'.sq
  constructor
  · rw [h.free, h'.free, List.append_assoc]
  · rw [h'.id, h.id]
  · rw [List.length_append]
    omega

section
variable {hca : Hca} {target : SrpTargetPort} {ch ch' : SrpRdmaCh}

theorem attempt_took {pages : List ℕ} {o : Outcome} {d : Option MrDesc}
    (h : attempt (mrOps hca) true ch pages = (o, d, ch')) : Took d.toList ch ch' := by
  simp only [attempt, mrOps, srpFrPoolGet, if_true] at h
  cases hfree : ch.pool.freeList with
  | nil =>
      rw [hfree] at h
      cases h
      exact .refl ch
  | cons d freeList =>
      rw [hfree] at h
      cases h
      constructor
      · exact hfree
      · rfl
      · simp only [ibPostSend]
        split_ifs <;> simp

theorem mapResult_took {dev : SrpDevice} {scat : List Sg} {st : MapState MrDesc}
    (hfast : dev.useFastReg = true) (h : MapResult dev (mrOps hca) scat ch (st, ch')) :
    Took st.mrList ch ch' := by
  apply mapResult_collects Took.refl Took.trans _ h
  intro ch pages o d ch' ha
  rw [hfast] at ha
  exact attempt_took ha

end

/-- The descriptors that the request in slot `i` holds for command `scmnd`. -/
def heldBy (ch : SrpRdmaCh) (i : ℕ) (scmnd : ScsiCmnd) : List MrDesc :=
  if scmnd.hasData then (ch.reqRing i).mrList else []

def requests (target : SrpTargetPort) (s : Sys) : List (ℕ × ScsiCmnd) :=
  busyList target.reqRingSize (fun i => (s.ch.reqRing i).scmnd) ++
    s.claims.map fun c => (c.slot, c.scmnd)

def held (target : SrpTargetPort) (s : Sys) : List MrDesc :=
  (requests target s).flatMap fun p => heldBy s.ch p.1 p.2

section
variable {hca : Hca} {target : SrpTargetPort} {ch ch' : SrpRdmaCh}

theorem hasData_of_mapped {scmnd : ScsiCmnd} {scat : List Sg} (hsg : scmnd.sglist = some scat)
    (hnone : scmnd.dataDirection ≠ .none) (hbidi : scmnd.dataDirection ≠ .bidirectional) :
    scmnd.hasData = true := by
  cases hdir : scmnd.dataDirection <;> simp_all [ScsiCmnd.hasData]

/-- What `srp_map_data` takes is what the request holds if the command can be sent. -/
theorem srpMapData_took (hfast : target.dev.useFastReg = true) {scmnd : ScsiCmnd} {i : ℕ}
    {l : Option CmdLayout} (h : srpMapData hca target scmnd i ch = (l, ch')) :
    ∃ descs, Took descs ch ch' ∧ (l ≠ none → heldBy ch' i scmnd = descs) ∧
      descs.length ≤ registrations target scmnd := by
  unfold srpMapData at h
  cases hsg : scmnd.sglist with
  | none =>
      rw [hsg] at h
      cases h
      exact ⟨[], .refl ch, fun _ => by simp [heldBy, ScsiCmnd.hasData, hsg], Nat.zero_le _⟩
  | some scat =>
      rw [hsg] at h
      simp only at h
      obtain ⟨⟨st, ch₁⟩, hmap, hresult, _⟩ := srpMapSg_spec target.dev target.registerAlways
        target.hasPool (mrOps hca) ch (scmnd.len_lt scat hsg)
      have htook : Took st.mrList ch (ch₁.setReq i { ch₁.reqRing i with mrList := st.mrList }) := by
        obtain ⟨h₁, h₂, h₃⟩ := mapResult_took hfast hresult
        exact ⟨h₁, h₂, h₃⟩
      rw [hmap] at h
      simp only at h
      split_ifs at h with hnone hbidi hempty himm hone hdesc hmany
      · cases h
        exact ⟨[], .refl ch, fun _ => by simp [heldBy, ScsiCmnd.hasData, hnone], Nat.zero_le _⟩
      · cases h
        exact ⟨[], .refl ch, fun hl => (hl rfl).elim, Nat.zero_le _⟩
      · cases h
        exact ⟨[], .refl ch, fun hl => (hl rfl).elim, Nat.zero_le _⟩
      · cases h
        exact ⟨[], ⟨rfl, rfl, Nat.le_refl _⟩, fun _ => by simp [heldBy, SrpRdmaCh.setReq],
          Nat.zero_le _⟩
      · cases h
        exact ⟨[], ⟨rfl, rfl, Nat.le_refl _⟩, fun _ => by simp [heldBy, SrpRdmaCh.setReq],
          Nat.zero_le _⟩
      all_goals
        have hcount := nmdesc_le_registrations hsg (Bool.not_eq_true _ ▸ himm) hone hmap
        have hdata := hasData_of_mapped hsg hnone hbidi
        cases h
        exact ⟨st.mrList, htook, fun _ => by simp [heldBy, hdata, SrpRdmaCh.setReq], hcount⟩

/-- The descriptors `descs` were put back; at most one work request was posted for each. -/
structure PutBack (descs : List MrDesc) (ch ch' : SrpRdmaCh) : Prop where
  free : ch'.pool.freeList = descs.reverse++ch.pool.freeList
  id : ch'.pool.id = ch.pool.id
  touched : ch'.touched = ch.touched++descs.map fun d => (d, ch.pool.id)
  sq : ch'.sq.length ≤ ch.sq.length+descs.length
  reqRing : ch'.reqRing = ch.reqRing

theorem PutBack.mem_touched {descs : List MrDesc} {ch ch' : SrpRdmaCh} (h : PutBack descs ch ch')
    {q : MrDesc × ℕ} (hq : q ∈ ch'.touched) :
    q ∈ ch.touched ∨ q.1 ∈ descs ∧ q.2 = ch.pool.id := by
  rw [h.touched] at hq
  cases List.mem_append.mp hq with
  | inl hold => exact Or.inl hold
  | inr hnew =>
      obtain ⟨d, hd, rfl⟩ := List.mem_map.mp hnew
      exact Or.inr ⟨hd, rfl⟩

theorem PutBack.none (ch : SrpRdmaCh) : PutBack [] ch ch := by
  constructor <;> simp

theorem invalidate_sq (hca : Hca) (descs : List MrDesc) (ch : SrpRdmaCh) :
    (descs.foldl (fun ch d => (srpInvRkey hca d ch).2) ch).pool = ch.pool ∧
      (descs.foldl (fun ch d => (srpInvRkey hca d ch).2) ch).sq.length ≤
        ch.sq.length+descs.length := by
  induction descs generalizing ch with
  | nil => exact ⟨rfl, Nat.le_refl _⟩
  | cons d descs ih =>
      have h := ih (srpInvRkey hca d ch).2
      have hone : (srpInvRkey hca d ch).2.sq.length ≤ ch.sq.length+1 := by
        simp only [srpInvRkey, ibPostSend]
        split_ifs <;> simp
      constructor
      · exact h.1
      · have hlen := h.2
        rw [List.foldl_cons, List.length_cons]
        omega

theorem srpUnmapData_putBack (hfast : target.dev.useFastReg = true) (scmnd : ScsiCmnd) (i : ℕ)
    (ch : SrpRdmaCh) : PutBack (heldBy ch i scmnd) ch (srpUnmapData hca target scmnd i ch) := by
  unfold srpUnmapData heldBy
  rw [hfast, Bool.and_true]
  cases scmnd.hasData with
  | false => exact .none ch
  | true =>
      simp only [if_true]
      set ch₁ : SrpRdmaCh :=
        { ch with touched := ch.touched++(ch.reqRing i).mrList.map fun d => (d, ch.pool.id) }
      have hinv := invalidate_sq hca (ch.reqRing i).mrList ch₁
      have hframe := invalidate_frame hca (ch.reqRing i).mrList ch₁
      obtain ⟨_, _, _, _, he⟩ := hframe
      constructor
      · simp only [srpFrPoolPut, hinv.1]
        rfl
      · simp only [srpFrPoolPut, hinv.1]
        rfl
      · simp only [srpFrPoolPut, he]
        rfl
      · exact hinv.2
      · simp only [srpFrPoolPut, he]
        rfl

end

section
variable {target : SrpTargetPort} {s s' : Sys}

theorem busyList_map {α β : Type} (n : ℕ) (f : ℕ → Option α) (g : α → β) :
    busyList n (fun i => (f i).map g) = (busyList n f).map fun p => (p.1, g p.2) := by
  unfold busyList
  rw [List.map_filterMap]
  apply List.filterMap_congr
  intro i _
  cases h : f i <;> simp [h]

theorem requests_slots (target : SrpTargetPort) (s : Sys) :
    (requests target s).map Prod.fst = ((slotsOf s).out target.reqRingSize).map Prod.fst := by
  have h := busyList_map target.reqRingSize (fun i => (s.ch.reqRing i).scmnd) ScsiCmnd.id
  simp only [requests, Slots.out, slotsOf, h, List.map_append, List.map_map]
  rfl

/-- A free slot belongs to no request. -/
theorem free_not_requests (h : Owned target.reqRingSize (slotsOf s)) {i : ℕ} {rest : List ℕ}
    (hfree : s.ch.freeReqs = i::rest) : i < target.reqRingSize ∧
      (s.ch.reqRing i).scmnd = none ∧ ∀ p ∈ requests target s, p.1 ≠ i := by
  have hhead := h.free_head hfree
  have hzero := List.count_eq_zero.mp hhead.2.2
  rw [← requests_slots] at hzero
  constructor
  · exact hhead.1
  constructor
  · exact Option.map_eq_none_iff.mp hhead.2.1
  · intro p hp he
    exact hzero (List.mem_map.mpr ⟨p, hp, he⟩)

theorem heldBy_of_mrList {ch ch' : SrpRdmaCh} {i : ℕ} (h : ch'.reqRing i = ch.reqRing i)
    (scmnd : ScsiCmnd) : heldBy ch' i scmnd = heldBy ch i scmnd := by
  unfold heldBy
  rw [h]

/-- The requests hold the same in a channel in which only a slot of none of them changed. -/
theorem held_others {i : ℕ} {ch : SrpRdmaCh} (hi : ∀ p ∈ requests target s, p.1 ≠ i)
    (hring : ∀ j, j ≠ i → ch.reqRing j = s.ch.reqRing j) :
    (requests target s).flatMap (fun p => heldBy ch p.1 p.2) = held target s := by
  apply List.flatMap_congr
  intro p hp
  exact heldBy_of_mrList (hring p.1 (hi p hp)) p.2

theorem held_same {i : ℕ} (hi : ∀ p ∈ requests target s, p.1 ≠ i)
    (hring : ∀ j, j ≠ i → s'.ch.reqRing j = s.ch.reqRing j)
    (hscmnd : (s'.ch.reqRing i).scmnd = (s.ch.reqRing i).scmnd) (hclaims : s'.claims = s.claims) :
    held target s' = held target s := by
  have hsame : (fun j => (s'.ch.reqRing j).scmnd) = fun j => (s.ch.reqRing j).scmnd := by
    funext j
    by_cases hj : j = i
    · rw [hj, hscmnd]
    · rw [hring j hj]
  have hrequests : requests target s' = requests target s := by
    unfold requests
    rw [hsame, hclaims]
  unfold held
  rw [hrequests]
  exact held_others hi hring

theorem held_taken {i : ℕ} {scmnd : ScsiCmnd} (hlt : i < target.reqRingSize)
    (hi : ∀ p ∈ requests target s, p.1 ≠ i)
    (hring : ∀ j, j ≠ i → s'.ch.reqRing j = s.ch.reqRing j)
    (hnone : (s.ch.reqRing i).scmnd = none) (hscmnd : (s'.ch.reqRing i).scmnd = some scmnd)
    (hclaims : s'.claims = s.claims) :
    (held target s').Perm (heldBy s'.ch i scmnd ++ held target s) := by
  have hupdate : (fun j => (s'.ch.reqRing j).scmnd) =
      Function.update (fun j => (s.ch.reqRing j).scmnd) i (some scmnd) := by
    funext j
    by_cases hj : j = i
    · subst hj
      rw [hscmnd, Function.update_self]
    · rw [Function.update_of_ne hj, hring j hj]
  have hrequests : (requests target s').Perm ((i, scmnd)::requests target s) := by
    unfold requests
    rw [hupdate, hclaims]
    exact (busyList_update_some scmnd hlt hnone).append_right _
  have hperm := hrequests.flatMap_right fun p => heldBy s'.ch p.1 p.2
  rw [List.flatMap_cons, held_others hi hring] at hperm
  exact hperm

/-- The same descriptors are on the free list or held, except for some that were lost. -/
structure Flow (target : SrpTargetPort) (s s' : Sys) : Prop where
  free : ∃ lost, (s'.ch.pool.freeList++held target s'++lost).Perm
    (s.ch.pool.freeList++held target s)
  id : s'.ch.pool.id = s.ch.pool.id
  touched : ∀ q ∈ s'.ch.touched, q ∈ s.ch.touched ∨
    (q.1 ∈ s.ch.pool.freeList++held target s ∧ q.2 = s.ch.pool.id)

/-- What `srp_queuecommand` has done when the data has been mapped or mapping has failed. -/
structure MappedSlot (s : Sys) (i : ℕ) (c : ScsiCmnd) (descs : List MrDesc)
    (ch : SrpRdmaCh) : Prop where
  free : s.ch.pool.freeList = descs++ch.pool.freeList
  id : ch.pool.id = s.ch.pool.id
  sq : ch.sq.length ≤ (unreleased s.ch.sq).length+descs.length
  touched : ch.touched = s.ch.touched
  others : ∀ j, j ≠ i → ch.reqRing j = s.ch.reqRing j
  scmnd : (ch.reqRing i).scmnd = some c

end

section
variable {hca : Hca} {target : SrpTargetPort} {s : Sys} {chIdx id i iu : ℕ} {rest : List ℕ}
  {scmnd : ScsiCmnd} {descs : List MrDesc} {ch₁ ch₂ : SrpRdmaCh} {l : Option CmdLayout}

theorem mappedSlot_of_srpMapData (hfast : target.dev.useFastReg = true)
    (hget : srpGetTxIu .cmd s.ch = (some iu, ch₁))
    (hmap : srpMapData hca target scmnd i (srpTakeReq i rest scmnd ch₁) = (l, ch₂)) :
    ∃ descs, MappedSlot s i scmnd descs ch₂ ∧ (l ≠ none → heldBy ch₂ i scmnd = descs) ∧
      descs.length ≤ registrations target scmnd := by
  obtain ⟨freeTx, reqLim, qpInError, hframe⟩ := srpGetTxIu_frame .cmd s.ch
  rw [hget] at hframe
  simp only at hframe
  subst hframe
  obtain ⟨descs, htook, hheld, hcount⟩ := srpMapData_took hfast hmap
  refine ⟨descs, ?_, hheld, hcount⟩
  obtain ⟨ch', mrList, hmapping, he⟩ := srpMapData_frame hca target hmap
  obtain ⟨_, _, _, _, rfl⟩ := hmapping
  constructor
  · exact htook.free
  · exact htook.id
  · exact htook.sq
  · cases he with
    | inl he => rw [he]; rfl
    | inr he => rw [he]; rfl
  · intro j hj
    cases he with
    | inl he => simp [he, srpTakeReq, hj]
    | inr he => simp [he, srpTakeReq, SrpRdmaCh.setReq, hj]
  · cases he with
    | inl he => simp [he, srpTakeReq]
    | inr he => simp [he, srpTakeReq, SrpRdmaCh.setReq]

/-- The end of `srp_queuecommand` after an error: the slot is empty again. -/
theorem error_held {s' : Sys} (howned : Owned target.reqRingSize (slotsOf s))
    (hfree : s.ch.freeReqs = i::rest) (hothers : ∀ j, j ≠ i → ch₂.reqRing j = s.ch.reqRing j)
    (hch : s'.ch = srpQueuecommandError iu i ch₂) (hclaims : s'.claims = s.claims) :
    held target s' = held target s := by
  obtain ⟨_, hnone, hnot⟩ := free_not_requests howned hfree
  apply held_same hnot
  · intro j hj
    simp [hch, srpQueuecommandError, SrpRdmaCh.setReq, srpPutTxIu, hj, hothers]
  · simp [hch, srpQueuecommandError, SrpRdmaCh.setReq, hnone]
  · exact hclaims

theorem flow_mapFailed {s' : Sys} (howned : Owned target.reqRingSize (slotsOf s))
    (hfree : s.ch.freeReqs = i::rest) (hslot : MappedSlot s i scmnd descs ch₂)
    (hch : s'.ch = srpQueuecommandError iu i ch₂) (hclaims : s'.claims = s.claims) :
    Flow target s s' ∧ s'.ch.sq.length+(held target s').length ≤
      (unreleased s.ch.sq).length+(held target s).length+descs.length := by
  have hheld := error_held howned hfree hslot.others hch hclaims
  have hpool : s'.ch.pool = ch₂.pool := by rw [hch]; rfl
  have htouched : s'.ch.touched = s.ch.touched := by rw [hch, ← hslot.touched]; rfl
  have hsq : s'.ch.sq = ch₂.sq := by rw [hch]; rfl
  constructor
  · constructor
    · refine ⟨descs, ?_⟩
      rw [hheld, hpool, hslot.free, List.append_assoc descs]
      exact List.perm_append_comm
    · rw [hpool, hslot.id]
    · intro q hq
      rw [htouched] at hq
      exact Or.inl hq
  · have := hslot.sq
    rw [hheld, hsq]
    omega

theorem flow_sent {s' : Sys} (howned : Owned target.reqRingSize (slotsOf s))
    (hfree : s.ch.freeReqs = i::rest) (hslot : MappedSlot s i scmnd descs ch₂)
    (hheldBy : heldBy ch₂ i scmnd = descs) {numSge : ℕ}
    (hch : s'.ch = (srpPostSend hca iu numSge ch₂).2) (hclaims : s'.claims = s.claims) :
    Flow target s s' ∧ s'.ch.sq.length+(held target s').length ≤
      (unreleased s.ch.sq).length+(held target s).length+2*descs.length+1 := by
  obtain ⟨hlt, hnone, hnot⟩ := free_not_requests howned hfree
  obtain ⟨posts, sq, hframe, hone⟩ := srpPostSend_frame hca iu numSge ch₂
  have hring : s'.ch.reqRing = ch₂.reqRing := by rw [hch, hframe]
  have htouched : s'.ch.touched = s.ch.touched := by rw [hch, hframe, ← hslot.touched]
  have hheld : (held target s').Perm (descs++held target s) := by
    rw [← hheldBy, ← heldBy_of_mrList (congrFun hring i)]
    apply held_taken hlt hnot _ hnone _ hclaims
    · intro j hj
      rw [hring, hslot.others j hj]
    · rw [hring, hslot.scmnd]
  constructor
  · constructor
    · refine ⟨[], ?_⟩
      rw [List.append_nil, hch, hframe, hslot.free]
      apply (hheld.append_left _).trans
      rw [← List.append_assoc]
      exact List.perm_append_comm.append_right _
    · rw [hch, hframe, hslot.id]
    · intro q hq
      rw [htouched] at hq
      exact Or.inl hq
  · have hlen := hheld.length_eq
    have hsq := hslot.sq
    rw [List.length_append] at hlen
    rw [hch, hframe]
    simp only
    omega

theorem flow_postFailed {s' : Sys} (hfast : target.dev.useFastReg = true)
    (howned : Owned target.reqRingSize (slotsOf s)) (hfree : s.ch.freeReqs = i::rest)
    (hslot : MappedSlot s i scmnd descs ch₂) (hheldBy : heldBy ch₂ i scmnd = descs) {numSge : ℕ}
    (hch : s'.ch = srpQueuecommandError iu i
      (srpUnmapData hca target scmnd i (srpPostSend hca iu numSge ch₂).2))
    (hclaims : s'.claims = s.claims) :
    Flow target s s' ∧ s'.ch.sq.length+(held target s').length ≤
      (unreleased s.ch.sq).length+(held target s).length+2*descs.length+1 := by
  obtain ⟨posts, sq, hframe, hone⟩ := srpPostSend_frame hca iu numSge ch₂
  set ch₃ := (srpPostSend hca iu numSge ch₂).2
  have hsame : ch₃.pool = ch₂.pool ∧ ch₃.touched = ch₂.touched ∧
      ch₃.sq.length ≤ ch₂.sq.length+1 := by
    rw [hframe]
    exact ⟨rfl, rfl, hone⟩
  have hring : ch₃.reqRing = ch₂.reqRing := by rw [hframe]
  have hback : PutBack (heldBy ch₃ i scmnd) ch₃ (srpUnmapData hca target scmnd i ch₃) :=
    srpUnmapData_putBack hfast scmnd i ch₃
  rw [heldBy_of_mrList (congrFun hring i), hheldBy] at hback
  have hheld : held target s' = held target s := by
    apply error_held howned hfree _ hch hclaims
    intro j hj
    rw [hback.reqRing, hring, hslot.others j hj]
  have hpool : s'.ch.pool = (srpUnmapData hca target scmnd i ch₃).pool := by rw [hch]; rfl
  have htouched : s'.ch.touched = (srpUnmapData hca target scmnd i ch₃).touched := by rw [hch]; rfl
  have hsq : s'.ch.sq = (srpUnmapData hca target scmnd i ch₃).sq := by rw [hch]; rfl
  constructor
  · constructor
    · refine ⟨[], ?_⟩
      rw [List.append_nil, hheld, hpool, hback.free, hsame.1, hslot.free]
      exact ((List.reverse_perm descs).append_right _).append_right _
    · rw [hpool, hback.id, hsame.1, hslot.id]
    · intro q hq
      rw [htouched] at hq
      cases hback.mem_touched hq with
      | inl hold =>
          rw [hsame.2.1, hslot.touched] at hold
          exact Or.inl hold
      | inr hnew =>
          rw [hslot.free, ← hslot.id, ← hsame.1]
          exact Or.inr ⟨List.mem_append_left _ (List.mem_append_left _ hnew.1), hnew.2⟩
  · have h₁ := hback.sq
    have h₂ := hslot.sq
    have h₃ := hsame.2.2
    rw [hheld, hsq]
    omega

theorem Flow.same {s' : Sys} (hpool : s'.ch.pool = s.ch.pool)
    (htouched : s'.ch.touched = s.ch.touched) (hheld : held target s' = held target s) :
    Flow target s s' := by
  constructor
  · exact ⟨[], by rw [List.append_nil, hpool, hheld]⟩
  · rw [hpool]
  · intro q hq
    rw [htouched] at hq
    exact Or.inl hq

theorem queued_ch (s : Sys) (chIdx id : ℕ) (p : QueueResult × SrpRdmaCh) :
    (s.queued chIdx id p).ch = p.2 ∧ (s.queued chIdx id p).claims = s.claims := by
  obtain ⟨res, ch⟩ := p
  cases res <;> exact ⟨rfl, rfl⟩

theorem srpGetTxIu_freeReqs (iuType : SrpIuType) (h : srpGetTxIu iuType s.ch = (some iu, ch₁)) :
    ch₁.freeReqs = s.ch.freeReqs := by
  have hsame := srpGetTxIu_same iuType s.ch
  rw [h] at hsame
  exact hsame.freeReqs

/-- The descriptors and the work requests of one call of `srp_queuecommand`: if there was
room for two work requests for each registration and for one more, there is room for the
work requests posted and the invalidations to come. -/
theorem flow_queued (hfast : target.dev.useFastReg = true)
    (howned : Owned target.reqRingSize (slotsOf s)) {p : QueueResult × SrpRdmaCh}
    (hq : Queuecommand hca target scmnd s.ch p) :
    Flow target s (s.queued chIdx id p) ∧
      ∀ m, s.ch.sq.length+(held target s).length ≤ m →
        (unreleased s.ch.sq).length+(held target s).length+2*registrations target scmnd+1 ≤ m →
        (s.queued chIdx id p).ch.sq.length+(held target (s.queued chIdx id p)).length ≤ m := by
  have hs := queued_ch s chIdx id p
  have hsame : p.2.pool = s.ch.pool → p.2.touched = s.ch.touched →
      p.2.reqRing = s.ch.reqRing → Flow target s (s.queued chIdx id p) ∧
        held target (s.queued chIdx id p) = held target s := by
    intro hpool htouched hring
    have hheld : held target (s.queued chIdx id p) = held target s := by
      simp only [held, requests, heldBy, hs.1, hs.2, hring]
    exact ⟨.same (by rw [hs.1, hpool]) (by rw [hs.1, htouched]) hheld, hheld⟩
  cases hq with
  | failing =>
      obtain ⟨hflow, hheld⟩ := hsame rfl rfl rfl
      exact ⟨hflow, fun m hm _ => by rwa [hs.1, hheld]⟩
  | blocked =>
      obtain ⟨hflow, hheld⟩ := hsame rfl rfl rfl
      exact ⟨hflow, fun m hm _ => by rwa [hs.1, hheld]⟩
  | @noIu ch₁ hget =>
      obtain ⟨_, _, _, hframe⟩ := srpGetTxIu_frame .cmd s.ch
      rw [hget] at hframe
      simp only at hframe
      subst hframe
      obtain ⟨hflow, hheld⟩ := hsame rfl rfl rfl
      refine ⟨hflow, fun m _ hm => ?_⟩
      rw [hs.1, hheld]
      simp only
      omega
  | mapFailed hget hfree hmap =>
      obtain ⟨descs, hslot, _, hcount⟩ := mappedSlot_of_srpMapData hfast hget hmap
      rw [srpGetTxIu_freeReqs .cmd hget] at hfree
      obtain ⟨hflow, hlen⟩ := flow_mapFailed howned hfree hslot hs.1 hs.2
      exact ⟨hflow, fun m _ hm => by omega⟩
  | @sent ch₁ ch₂ ch₃ iu i rest layout hget hfree hmap hpost =>
      obtain ⟨descs, hslot, hheldBy, hcount⟩ := mappedSlot_of_srpMapData hfast hget hmap
      rw [srpGetTxIu_freeReqs .cmd hget] at hfree
      obtain rfl : (srpPostSend hca iu layout.numSge ch₂).2 = ch₃ := congrArg Prod.snd hpost
      obtain ⟨hflow, hlen⟩ := flow_sent howned hfree hslot (hheldBy (by simp)) hs.1 hs.2
      exact ⟨hflow, fun m _ hm => by omega⟩
  | @postFailed ch₁ ch₂ ch₃ iu i rest layout hget hfree hmap hpost =>
      obtain ⟨descs, hslot, hheldBy, hcount⟩ := mappedSlot_of_srpMapData hfast hget hmap
      rw [srpGetTxIu_freeReqs .cmd hget] at hfree
      obtain rfl : (srpPostSend hca iu layout.numSge ch₂).2 = ch₃ := congrArg Prod.snd hpost
      obtain ⟨hflow, hlen⟩ := flow_postFailed hfast howned hfree hslot (hheldBy (by simp)) hs.1 hs.2
      exact ⟨hflow, fun m _ hm => by omega⟩

end

section
variable {hca : Hca} {target : SrpTargetPort} {s : Sys} {i : ℕ} {c : ScsiCmnd}

theorem flow_sendIu {iuType : SrpIuType} {ch : SrpRdmaCh} (h : SendIu hca iuType s.ch ch) :
    Flow target s { s with ch := ch } ∧
      ch.sq.length+(held target { s with ch := ch }).length ≤
        (unreleased s.ch.sq).length+(held target s).length+1 := by
  obtain ⟨_, _, _, _, sq, rfl, hsq⟩ := h.frame
  constructor
  · exact .same rfl rfl rfl
  · change sq.length+(held target s).length ≤ _
    omega

theorem held_claim (hlt : i < target.reqRingSize) (hc : (s.ch.reqRing i).scmnd = some c)
    {delta : BitVec 32} {completer : Completer} {owed : List (ℕ × ℕ)} {reconnect : Option ℕ} :
    (held target { s.claim i delta completer c (emptied s.ch i) with
      owed := owed, reconnect := reconnect }).Perm (held target s) := by
  set s' : Sys := { s.claim i delta completer c (emptied s.ch i) with
    owed := owed, reconnect := reconnect }
  have hring : ∀ j, ((emptied s.ch i).reqRing j).mrList = (s.ch.reqRing j).mrList := by
    intro j
    by_cases hj : j = i
    · simp [emptied, SrpRdmaCh.setReq, hj]
    · simp [emptied, SrpRdmaCh.setReq, hj]
  have hupdate : (fun j => ((emptied s.ch i).reqRing j).scmnd) =
      Function.update (fun j => (s.ch.reqRing j).scmnd) i none := by
    funext j
    by_cases hj : j = i
    · subst hj
      simp [emptied, SrpRdmaCh.setReq]
    · simp [emptied, SrpRdmaCh.setReq, hj]
  have hrequests : (requests target s').Perm (requests target s) := by
    change (busyList target.reqRingSize (fun j => ((emptied s.ch i).reqRing j).scmnd) ++
      (s.claims++[(⟨i, c, delta, completer⟩ : Claim)]).map fun cl => (cl.slot, cl.scmnd)).Perm _
    rw [hupdate, List.map_append, ← List.append_assoc]
    exact (List.perm_append_singleton _ _).trans
      ((busyList_update_none hlt hc).symm.append_right _)
  have hperm := hrequests.flatMap_right fun p => heldBy s'.ch p.1 p.2
  have hheldBy : (fun p : ℕ × ScsiCmnd => heldBy s'.ch p.1 p.2) =
      fun p => heldBy s.ch p.1 p.2 := by
    funext p
    unfold heldBy
    change (if p.2.hasData then ((emptied s.ch i).reqRing p.1).mrList else []) = _
    rw [hring]
  unfold held
  rw [hheldBy] at hperm ⊢
  exact hperm

theorem flow_claim (hlt : i < target.reqRingSize) (hc : (s.ch.reqRing i).scmnd = some c)
    {delta : BitVec 32} {completer : Completer} {owed : List (ℕ × ℕ)} {reconnect : Option ℕ} :
    Flow target s { s.claim i delta completer c (emptied s.ch i) with
      owed := owed, reconnect := reconnect } := by
  constructor
  · refine ⟨[], ?_⟩
    rw [List.append_nil]
    exact (held_claim hlt hc).append_left _
  · rfl
  · intro q hq
    exact Or.inl hq

/-- Apart from the lists of slots, freeing a request does what unmapping its data does. -/
theorem freeClaim_unmapped (hca : Hca) (target : SrpTargetPort) (k : ℕ) (cl : Claim) (s : Sys) :
    (s.freeClaim hca target k cl).ch.pool =
        (srpUnmapData hca target cl.scmnd cl.slot s.ch).pool ∧
      (s.freeClaim hca target k cl).ch.sq = (srpUnmapData hca target cl.scmnd cl.slot s.ch).sq ∧
      (s.freeClaim hca target k cl).ch.touched =
        (srpUnmapData hca target cl.scmnd cl.slot s.ch).touched ∧
      (s.freeClaim hca target k cl).ch.reqRing =
        (srpUnmapData hca target cl.scmnd cl.slot s.ch).reqRing := by
  unfold Sys.freeClaim srpFreeReq
  cases cl.completer <;> exact ⟨rfl, rfl, rfl, rfl⟩

theorem held_freed {k : ℕ} {cl : Claim} {s' : Sys} (hk : s.claims[k]? = some cl)
    (hclaims : s'.claims = s.claims.eraseIdx k) (hring : s'.ch.reqRing = s.ch.reqRing) :
    (held target s).Perm (heldBy s.ch cl.slot cl.scmnd ++ held target s') := by
  have herase := LabelledRuns.perm_eraseIdx hk
  rw [← hclaims] at herase
  have hrequests : (requests target s).Perm ((cl.slot, cl.scmnd)::requests target s') := by
    unfold requests
    rw [hring]
    exact ((herase.map fun c => (c.slot, c.scmnd)).append_left _).trans List.perm_middle
  have hperm := hrequests.flatMap_right fun p => heldBy s.ch p.1 p.2
  have hheldBy : (fun p : ℕ × ScsiCmnd => heldBy s'.ch p.1 p.2) =
      fun p => heldBy s.ch p.1 p.2 := by
    funext p
    exact heldBy_of_mrList (congrFun hring p.1) p.2
  rw [List.flatMap_cons] at hperm
  unfold held
  rw [hheldBy]
  exact hperm

/-- Freeing a claimed request puts back what it holds. -/
theorem flow_freed (hfast : target.dev.useFastReg = true) {k : ℕ} {cl : Claim}
    (hk : s.claims[k]? = some cl) :
    Flow target s (s.freeClaim hca target k cl) ∧
      (s.freeClaim hca target k cl).ch.sq.length+
        (held target (s.freeClaim hca target k cl)).length ≤
        s.ch.sq.length+(held target s).length := by
  have hback : PutBack (heldBy s.ch cl.slot cl.scmnd) s.ch
      (srpUnmapData hca target cl.scmnd cl.slot s.ch) :=
    srpUnmapData_putBack hfast cl.scmnd cl.slot s.ch
  obtain ⟨hpool, hsq, htouched, hring⟩ := freeClaim_unmapped hca target k cl s
  set s' := s.freeClaim hca target k cl with hs'
  have hheld : (held target s).Perm (heldBy s.ch cl.slot cl.scmnd ++ held target s') :=
    held_freed hk rfl (hring.trans hback.reqRing)
  constructor
  · constructor
    · refine ⟨[], ?_⟩
      rw [List.append_nil, hpool, hback.free, List.append_assoc]
      apply ((List.reverse_perm _).append_right _).trans
      apply List.Perm.trans _ (hheld.symm.append_left _)
      rw [← List.append_assoc, ← List.append_assoc]
      exact List.perm_append_comm.append_right _
    · rw [hpool, hback.id]
    · intro q hq
      rw [htouched] at hq
      cases hback.mem_touched hq with
      | inl hold => exact Or.inl hold
      | inr hnew =>
          have hmem : q.1 ∈ held target s := hheld.mem_iff.mpr (List.mem_append_left _ hnew.1)
          exact Or.inr ⟨List.mem_append_right _ hmem, hnew.2⟩
  · have hlen := hheld.length_eq
    have h := hback.sq
    rw [List.length_append] at hlen
    rw [hsq]
    omega

end

end IbSrp.DescriptorFlow

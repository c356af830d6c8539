import IbSrp.CallInterleaving

/-!
# The owners of transmit buffers

Every buffer of the transmit ring is in one place during the life of a
connection: on `free_tx`, with a call that has taken it and not yet posted or
returned it, or posted. A posted buffer comes back when its completion is polled.
If it completes in error it never comes back before the next connection.

Here the HCA completes the requests in progress in any order. The model of the
send queue takes for granted that completed requests stand before those in
progress, so a request that completes early first overtakes the others.
Registrations and invalidations are in the queue as well and carry no buffer;
they have an entry in the completion queue only when they fail.
-/
namespace IbSrp.TransmitRing
open LabelledRuns MappingCoverage Channel ChannelFrames
open ChannelSystem (emptied srpClaimReq_cases smallTarget willingHca noData)
open CallInterleaving (Call Next CmdPhase IuPhase)

/-- Request number `k` of those in progress becomes the first of them. -/
def overtake (k : ℕ) : List Posted → List Posted
  | [] => []
  | p::sq =>
      if p.status = none then
        match (p::sq)[k]? with
        | none => p::sq
        | some q => q::(p::sq).eraseIdx k
      else p::overtake k sq

def iuOf (p : Posted) : Option ℕ :=
  match p.wr with
  | .send iu => some iu
  | .fastReg _ => none
  | .localInv _ => none

/-- The buffer of a request that has not completed in error. -/
def pendingIu (p : Posted) : Option ℕ := if p.status = some false then none else iuOf p

/-- The buffers that are posted and whose completion has not been polled. -/
def posted (sq : List Posted) : List ℕ := sq.filterMap pendingIu

/-- The buffer of the request that completes next. -/
def nextIu (sq : List Posted) : Option ℕ :=
  (sq.find? fun p => p.status = none).bind iuOf

/-- The buffer that a call has taken and neither posted nor returned. -/
def heldIu : Call → List ℕ
  | .cmd .putReq _ _ _ => []
  | .cmd _ iu _ _ => [iu]
  | .tskMgmt _ iu => [iu]
  | .rsp _ iu => [iu]
  | .unmatched _ => []
  | .answered _ _ _ => []
  | .ended _ _ => []

/-- A channel with the calls in progress, and the buffers that completed in error. -/
structure State where
  sys : CallInterleaving.State
  failed : List ℕ := []

inductive Event where
  | call (e : CallInterleaving.Event)
  | complete (k : ℕ) (ok : Bool)

/-- What happens on a connection apart from completions of the HCA. -/
def isCall : CallInterleaving.Event → Bool
  | .complete _ => false
  | .createChIb _ => false
  | _ => true

def step (hca : Hca) (target : SrpTargetPort) (s : State) : Event → Option State
  | .call e =>
      if isCall e then
        (CallInterleaving.step hca target s.sys e).map fun sys => { s with sys := sys }
      else none
  | .complete k ok =>
      let sq := overtake k s.sys.ch.sq
      some { sys := { s.sys with ch := { s.sys.ch with sq := completeFirst ok sq } },
             failed := s.failed++if ok then [] else (nextIu sq).toList }

/-- Completed requests stand before those in progress. -/
def InOrder (sq : List Posted) : Prop :=
  sq.Pairwise fun p q => p.status = none → q.status = none

theorem inOrder_of_none {sq : List Posted} (h : ∀ p ∈ sq, p.status = none) : InOrder sq := by
  induction sq with
  | nil => exact .nil
  | cons p sq ih =>
      apply List.Pairwise.cons
      · intro q hq _
        exact h q (List.mem_cons_of_mem p hq)
      · exact ih fun q hq => h q (List.mem_cons_of_mem p hq)

theorem overtake_perm (k : ℕ) (sq : List Posted) : (overtake k sq).Perm sq := by
  induction sq with
  | nil => exact .nil
  | cons p sq ih =>
      unfold overtake
      split
      · split
        · exact .refl _
        · rename_i q hq
          exact (perm_eraseIdx hq).symm
      · exact ih.cons p

theorem InOrder.overtake {sq : List Posted} (h : InOrder sq) (k : ℕ) : InOrder (overtake k sq) := by
  induction sq with
  | nil => exact .nil
  | cons p sq ih =>
      have htail := List.pairwise_cons.mp h
      have hperm := overtake_perm k (p::sq)
      unfold TransmitRing.overtake at hperm ⊢
      split
      · rename_i hnone
        rw [if_pos hnone] at hperm
        apply inOrder_of_none
        intro q hq
        rcases List.mem_cons.mp (hperm.mem_iff.mp hq) with rfl | hmem
        · exact hnone
        · exact htail.1 q hmem hnone
      · apply List.Pairwise.cons
        · intro q hq
          exact htail.1 q ((overtake_perm k sq).mem_iff.mp hq)
        · exact ih htail.2

theorem InOrder.completeFirst {sq : List Posted} (h : InOrder sq) (ok : Bool) :
    InOrder (completeFirst ok sq) := by
  induction sq with
  | nil => exact .nil
  | cons p sq ih =>
      have htail := List.pairwise_cons.mp h
      unfold Channel.completeFirst
      split
      · apply List.Pairwise.cons _ htail.2
        intro q _ hnone
        cases hnone
      · rename_i hdone
        apply List.Pairwise.cons _ (ih htail.2)
        intro q _ hnone
        exact (hdone hnone).elim

theorem InOrder.append {sq more : List Posted} (h : InOrder sq)
    (hmore : ∀ p ∈ more, p.status = none) : InOrder (sq++more) := by
  apply List.pairwise_append.mpr
  refine ⟨h, inOrder_of_none hmore, ?_⟩
  intro p _ q hq _
  exact hmore q hq

theorem unreleased_suffix (sq : List Posted) : unreleased sq <:+ sq := by
  induction sq with
  | nil => exact List.suffix_refl _
  | cons p sq ih =>
      unfold unreleased
      split
      · exact ih.trans (List.suffix_cons p sq)
      · exact List.suffix_refl _

theorem InOrder.unreleased {sq : List Posted} (h : InOrder sq) : InOrder (unreleased sq) :=
  h.sublist (unreleased_suffix sq).sublist

theorem posted_completeFirst_true (sq : List Posted) :
    posted (completeFirst true sq) = posted sq := by
  induction sq with
  | nil => rfl
  | cons p sq ih =>
      unfold completeFirst
      split
      · rename_i hnone
        have hsame : pendingIu { p with status := some true } = pendingIu p := by
          simp [pendingIu, iuOf, hnone]
        unfold posted
        rw [List.filterMap_cons, List.filterMap_cons, hsame]
      · unfold posted at ih ⊢
        rw [List.filterMap_cons, List.filterMap_cons, ih]

theorem posted_cons (p : Posted) (sq : List Posted) :
    posted (p::sq) = (pendingIu p).toList++posted sq := by
  unfold posted
  rw [List.filterMap_cons]
  cases pendingIu p <;> rfl

theorem posted_completeFirst_false (sq : List Posted) :
    (posted sq).Perm ((nextIu sq).toList++posted (completeFirst false sq)) := by
  induction sq with
  | nil => exact .nil
  | cons p sq ih =>
      unfold completeFirst
      split
      · rename_i hnone
        have hnext : nextIu (p::sq) = pendingIu p := by simp [nextIu, pendingIu, hnone]
        have hfailed : pendingIu { p with status := some false } = none := by simp [pendingIu]
        rw [posted_cons, posted_cons, hnext, hfailed]
        exact .refl _
      · rename_i hdone
        have hnext : nextIu (p::sq) = nextIu sq := by simp [nextIu, hdone]
        rw [posted_cons, posted_cons, hnext]
        have hrest := ih.append_left (pendingIu p).toList
        exact hrest.trans (List.perm_append_comm_assoc ..)

theorem posted_completeFirst (ok : Bool) (sq : List Posted) :
    (posted sq).Perm ((if ok then [] else (nextIu sq).toList)++posted (completeFirst ok sq)) := by
  cases ok with
  | false => exact posted_completeFirst_false sq
  | true => exact .of_eq (posted_completeFirst_true sq).symm

theorem pendingIu_of_completed {p : Posted} (h : p.status ≠ none) : pendingIu p = p.sentIu := by
  unfold pendingIu Posted.sentIu iuOf
  cases hs : p.status with
  | none => exact (h hs).elim
  | some ok => cases ok <;> cases p.wr <;> rfl

theorem sentIu_of_no_completion {p : Posted} (h : p.completion = false) : p.sentIu = none := by
  unfold Posted.completion at h
  unfold Posted.sentIu
  cases hs : p.status with
  | none => rfl
  | some ok =>
      rw [hs] at h
      cases ok <;> cases hw : p.wr <;> simp_all [Wr.signalled]

/-- Polling returns the buffers of the completed requests that it takes off the queue. -/
theorem posted_unreleased {sq : List Posted} (h : InOrder sq) :
    posted sq = sq.filterMap Posted.sentIu++posted (unreleased sq) := by
  induction sq with
  | nil => rfl
  | cons p sq ih =>
      have htail := List.pairwise_cons.mp h
      unfold unreleased
      split
      · rename_i hany
        have hdone : p.status ≠ none := by
          intro hnone
          obtain ⟨q, hq, hcompletion⟩ := List.any_eq_true.mp hany
          have hstatus : q.status = none := by
            rcases List.mem_cons.mp hq with rfl | hmem
            · exact hnone
            · exact htail.1 q hmem hnone
          simp [Posted.completion, hstatus] at hcompletion
        rw [posted_cons, ih htail.2, pendingIu_of_completed hdone, List.filterMap_cons]
        cases p.sentIu <;> rfl
      · rename_i hnone
        have hsent : (p::sq).filterMap Posted.sentIu = [] := by
          apply List.filterMap_eq_nil_iff.mpr
          intro q hq
          apply sentIu_of_no_completion
          rw [← Bool.not_eq_true]
          intro hcompletion
          exact hnone (List.any_eq_true.mpr ⟨q, hq, hcompletion⟩)
        rw [hsent, List.nil_append]

/-- The buffers of a channel that no call holds. -/
def resting (ch : SrpRdmaCh) : List ℕ := ch.freeTx++posted ch.sq

/-- A function that is given the buffers `a` and leaves with the buffers `b`. -/
def Moves (a b : List ℕ) (ch ch' : SrpRdmaCh) : Prop :=
  InOrder ch.sq → InOrder ch'.sq ∧ (a++resting ch).Perm (b++resting ch')

/-- Nothing happens but that requests without a buffer are posted. -/
def Unsent (ch ch' : SrpRdmaCh) : Prop :=
  ch'.freeTx = ch.freeTx ∧
    ∃ more, ch'.sq = ch.sq++more ∧ ∀ p ∈ more, p.status = none ∧ iuOf p = none

section
variable {hca : Hca} {target : SrpTargetPort} {ch ch' ch'' : SrpRdmaCh}

theorem Unsent.refl (ch : SrpRdmaCh) : Unsent ch ch :=
  ⟨rfl, [], by simp, fun p hp => by cases hp⟩

theorem Unsent.trans (h : Unsent ch ch') (h' : Unsent ch' ch'') : Unsent ch ch'' := by
  obtain ⟨hfree, more, hsq, hmore⟩ := h
  obtain ⟨hfree', more', hsq', hmore'⟩ := h'
  refine ⟨hfree'.trans hfree, more++more', by rw [hsq', hsq, List.append_assoc], ?_⟩
  intro p hp
  rcases List.mem_append.mp hp with hold | hnew
  · exact hmore p hold
  · exact hmore' p hnew

/-- Only what the queue and the list of free buffers hold matters. -/
theorem Unsent.of_eq (h : Unsent ch ch') (hfree : ch''.freeTx = ch'.freeTx)
    (hsq : ch''.sq = ch'.sq) : Unsent ch ch'' := by
  obtain ⟨hfree', more, hsq', hmore⟩ := h
  exact ⟨hfree.trans hfree', more, hsq.trans hsq', hmore⟩

theorem Unsent.posted_eq (h : Unsent ch ch') : posted ch'.sq = posted ch.sq := by
  obtain ⟨_, more, hsq, hmore⟩ := h
  have hnone : more.filterMap pendingIu = [] := by
    apply List.filterMap_eq_nil_iff.mpr
    intro p hp
    simp [pendingIu, hmore p hp]
  rw [hsq]
  unfold posted
  rw [List.filterMap_append, hnone, List.append_nil]

theorem Unsent.moves (h : Unsent ch ch') (a : List ℕ) : Moves a a ch ch' := by
  have hposted := h.posted_eq
  obtain ⟨hfree, more, hsq, hmore⟩ := h
  intro horder
  constructor
  · rw [hsq]
    exact horder.append fun p hp => (hmore p hp).1
  · unfold resting
    rw [hfree, hposted]

theorem Moves.trans {a b c : List ℕ} (h : Moves a b ch ch') (h' : Moves b c ch' ch'') :
    Moves a c ch ch'' := by
  intro horder
  obtain ⟨horder', hperm⟩ := h horder
  obtain ⟨horder'', hperm'⟩ := h' horder'
  exact ⟨horder'', hperm.trans hperm'⟩

theorem unsent_ibPostSend (hca : Hca) {wr : Wr} (hwr : iuOf ⟨wr, none⟩ = none) (ch : SrpRdmaCh) :
    Unsent ch (ibPostSend hca wr ch).2 := by
  unfold ibPostSend
  simp only
  cases hca.postSend ch.posts with
  | false => exact (Unsent.refl ch).of_eq rfl rfl
  | true =>
      refine ⟨rfl, [⟨wr, none⟩], rfl, ?_⟩
      intro p hp
      rw [List.mem_singleton.mp hp]
      exact ⟨rfl, hwr⟩

theorem unsent_srpFrPoolGet (ch : SrpRdmaCh) : Unsent ch (srpFrPoolGet ch).2 := by
  unfold srpFrPoolGet
  split <;> exact (Unsent.refl ch).of_eq rfl rfl

theorem unsent_attempt {useFastReg : Bool} {pages : List ℕ}
    {o : Outcome × Option MrDesc × SrpRdmaCh}
    (h : attempt (mrOps hca) useFastReg ch pages = o) : Unsent ch o.2.2 := by
  subst h
  cases useFastReg with
  | false =>
      simp only [attempt, mrOps, Bool.false_eq_true, if_false]
      cases hca.fmrPoolMapPhys ch.fmrMaps with
      | none => exact (Unsent.refl ch).of_eq rfl rfl
      | some idx => exact (Unsent.refl ch).of_eq rfl rfl
  | true =>
      have hget := unsent_srpFrPoolGet ch
      simp only [attempt, mrOps, if_true]
      obtain ⟨d, ch₁, he⟩ : ∃ d ch₁, srpFrPoolGet ch = (d, ch₁) := ⟨_, _, rfl⟩
      rw [he] at hget ⊢
      cases d with
      | none => exact hget
      | some d => exact hget.trans (unsent_ibPostSend hca rfl ch₁)

theorem unsent_srpMapData {scmnd : ScsiCmnd} {i : ℕ} {l : Option CmdLayout}
    (h : srpMapData hca target scmnd i ch = (l, ch')) : Unsent ch ch' := by
  obtain ⟨ch₁, mrList, hmap, he⟩ := srpMapData_relates hca target Unsent.refl
    (fun _ _ _ => Unsent.trans) unsent_attempt h
  cases he with
  | inl he =>
      rw [he]
      exact hmap
  | inr he =>
      rw [he]
      exact hmap.of_eq rfl rfl

theorem unsent_invalidate (hca : Hca) (descs : List MrDesc) (ch : SrpRdmaCh) :
    Unsent ch (descs.foldl (fun ch d => (srpInvRkey hca d ch).2) ch) := by
  induction descs generalizing ch with
  | nil => exact .refl ch
  | cons d descs ih =>
      have hfirst : Unsent ch (srpInvRkey hca d ch).2 := unsent_ibPostSend hca rfl ch
      exact hfirst.trans (ih _)

theorem unsent_srpUnmapData (hca : Hca) (target : SrpTargetPort) (scmnd : ScsiCmnd) (i : ℕ)
    (ch : SrpRdmaCh) : Unsent ch (srpUnmapData hca target scmnd i ch) := by
  unfold srpUnmapData
  split
  · have hstart : Unsent ch { ch with
        touched := ch.touched++(ch.reqRing i).mrList.map fun d => (d, ch.pool.id) } :=
      (Unsent.refl ch).of_eq rfl rfl
    exact (hstart.trans (unsent_invalidate hca (ch.reqRing i).mrList _)).of_eq rfl rfl
  · exact .refl ch

theorem unsent_srpFreeReq (hca : Hca) (target : SrpTargetPort) (i : ℕ) (scmnd : ScsiCmnd)
    (delta : BitVec 32) (ch : SrpRdmaCh) : Unsent ch (srpFreeReq hca target i scmnd delta ch) :=
  (unsent_srpUnmapData hca target scmnd i ch).of_eq rfl rfl

theorem moves_srpSendCompletion (ch : SrpRdmaCh) : Moves [] [] ch (srpSendCompletion ch) := by
  intro horder
  constructor
  · exact horder.unreleased
  · have hreturned : (ch.sq.filterMap Posted.sentIu++ch.freeTx).Perm
        (srpSendCompletion ch).freeTx :=
      (List.reverse_perm _).symm.append_right _
    have hpolled := (List.perm_append_comm.trans hreturned).append_right (posted (unreleased ch.sq))
    unfold resting
    rw [posted_unreleased horder, List.nil_append, List.nil_append, ← List.append_assoc]
    exact hpolled

theorem moves_srpGetTxIu_none {iuType : SrpIuType} (h : srpGetTxIu iuType ch = (none, ch')) :
    Moves [] [] ch ch' := by
  have hpoll := moves_srpSendCompletion ch
  unfold srpGetTxIu at h
  simp only at h
  split at h
  · cases h
    exact hpoll
  · split_ifs at h <;> cases h <;> exact hpoll

theorem moves_srpGetTxIu_some {iuType : SrpIuType} {iu : ℕ}
    (h : srpGetTxIu iuType ch = (some iu, ch')) : Moves [] [iu] ch ch' := by
  intro horder
  have hpoll := moves_srpSendCompletion ch horder
  unfold resting at hpoll ⊢
  unfold srpGetTxIu at h
  simp only at h
  split at h
  · cases h
  · rename_i freeTx hfree
    rw [hfree] at hpoll
    split_ifs at h <;> cases h <;> exact hpoll

theorem moves_srpPostSend_sent {iu numSge : ℕ} (h : srpPostSend hca iu numSge ch = (true, ch')) :
    Moves [iu] [] ch ch' := by
  unfold srpPostSend ibPostSend at h
  split at h
  · cases h
  · obtain ⟨hok, rfl⟩ := Prod.mk.inj h
    intro horder
    simp only [hok, if_true]
    constructor
    · exact horder.append fun p hp => by rw [List.mem_singleton.mp hp]
    · have hposted : posted (ch.sq++[⟨.send iu, none⟩]) = posted ch.sq++[iu] := by
        simp [posted, pendingIu, iuOf]
      simp only [resting, hposted]
      rw [List.nil_append, ← List.append_assoc ch.freeTx]
      exact List.perm_append_comm

theorem moves_srpPostSend_refused {iu numSge : ℕ}
    (h : srpPostSend hca iu numSge ch = (false, ch')) (a : List ℕ) : Moves a a ch ch' := by
  unfold srpPostSend ibPostSend at h
  split at h
  · cases h
    exact (Unsent.refl _).moves a
  · obtain ⟨hok, rfl⟩ := Prod.mk.inj h
    apply Unsent.moves
    exact (Unsent.refl ch).of_eq rfl (by simp [hok])

theorem moves_srpPutTxIu (iu : ℕ) (iuType : SrpIuType) (ch : SrpRdmaCh) :
    Moves [iu] [] ch (srpPutTxIu iu iuType ch) := by
  intro horder
  exact ⟨horder, .refl _⟩

end

/-- The buffer that a call holds when it has gone on. -/
def nextHeld : Next → List ℕ
  | .call c => heldIu c
  | .sent => []
  | .done => []

section
variable {hca : Hca} {target : SrpTargetPort}

theorem advance_moves (hca : Hca) (target : SrpTargetPort) (c : Call) (ch : SrpRdmaCh) :
    Moves (heldIu c) (nextHeld (c.advance hca target ch).1) ch (c.advance hca target ch).2 := by
  cases c with
  | cmd phase iu i scmnd =>
      cases phase with
      | map =>
          simp only [Call.advance]
          split <;> rename_i hmap <;> exact (unsent_srpMapData hmap).moves [iu]
      | post numSge =>
          simp only [Call.advance]
          split <;> rename_i hpost
          · exact moves_srpPostSend_sent hpost
          · exact moves_srpPostSend_refused hpost [iu]
      | unmap => exact (unsent_srpUnmapData hca target scmnd i ch).moves [iu]
      | putIu => exact moves_srpPutTxIu iu .cmd ch
      | putReq => exact ((Unsent.refl ch).of_eq rfl rfl).moves []
  | tskMgmt phase iu =>
      cases phase with
      | post =>
          simp only [Call.advance]
          split <;> rename_i hpost
          · exact moves_srpPostSend_sent hpost
          · exact moves_srpPostSend_refused hpost [iu]
      | putIu => exact moves_srpPutTxIu iu .tskMgmt ch
  | rsp phase iu =>
      cases phase with
      | post =>
          simp only [Call.advance]
          split <;> rename_i hpost
          · exact moves_srpPostSend_sent hpost
          · exact moves_srpPostSend_refused hpost [iu]
      | putIu => exact moves_srpPutTxIu iu .rsp ch
  | unmatched delta => exact ((Unsent.refl ch).of_eq rfl rfl).moves []
  | answered i scmnd delta =>
      exact ((unsent_srpFreeReq hca target i scmnd delta ch).of_eq rfl rfl).moves []
  | ended i scmnd => exact (unsent_srpFreeReq hca target i scmnd 0 ch).moves []

end

def held (s : CallInterleaving.State) : List ℕ := s.calls.flatMap heldIu

/-- A step of the channel and its calls loses no buffer and makes none. -/
def Keeps (s s' : CallInterleaving.State) : Prop :=
  InOrder s.ch.sq → InOrder s'.ch.sq ∧ (held s++resting s.ch).Perm (held s'++resting s'.ch)

section
variable {hca : Hca} {target : SrpTargetPort} {s s' : CallInterleaving.State}

theorem Moves.keeps {ch : SrpRdmaCh} (h : Moves [] [] s.ch ch) (hch : s'.ch = ch)
    (hheld : held s' = held s) : Keeps s s' := by
  intro horder
  obtain ⟨horder', hperm⟩ := h horder
  rw [hch, hheld]
  exact ⟨horder', hperm.append_left _⟩

theorem Moves.keeps_call {ch : SrpRdmaCh} {c : Call} (h : Moves [] (heldIu c) s.ch ch)
    (hch : s'.ch = ch) (hcalls : s'.calls = s.calls++[c]) : Keeps s s' := by
  intro horder
  obtain ⟨horder', hperm⟩ := h horder
  have hheld : held s' = held s++heldIu c := by
    unfold held
    rw [hcalls, List.flatMap_append, List.flatMap_singleton]
  rw [hch, hheld, List.append_assoc]
  exact ⟨horder', hperm.append_left _⟩

theorem keeps_of_same (hfree : s'.ch.freeTx = s.ch.freeTx) (hsq : s'.ch.sq = s.ch.sq)
    (hheld : held s' = held s) : Keeps s s' := by
  have h : Unsent s.ch s'.ch := (Unsent.refl s.ch).of_eq hfree hsq
  exact (h.moves []).keeps rfl hheld

theorem held_of_getElem {k : ℕ} {c : Call} (h : s.calls[k]? = some c) :
    (held s).Perm (heldIu c++(s.calls.eraseIdx k).flatMap heldIu) := by
  have hcalls := (perm_eraseIdx h).flatMap_right heldIu
  rw [List.flatMap_cons] at hcalls
  exact hcalls

theorem resume_held (hca : Hca) (target : SrpTargetPort) (s : CallInterleaving.State) (k : ℕ)
    (c : Call) :
    (held (s.resume hca target k c)).Perm
      (nextHeld (c.advance hca target s.ch).1++(s.calls.eraseIdx k).flatMap heldIu) := by
  unfold CallInterleaving.State.resume held
  cases h : c.advance hca target s.ch with
  | mk next ch =>
      cases next with
      | call c =>
          simp only [List.flatMap_append, List.flatMap_singleton, nextHeld]
          exact List.perm_append_comm
      | sent => exact .refl _
      | done => exact .refl _

theorem resume_ch (s : CallInterleaving.State) (k : ℕ) (c : Call) :
    (s.resume hca target k c).ch = (c.advance hca target s.ch).2 := by
  unfold CallInterleaving.State.resume
  cases c.advance hca target s.ch with
  | mk next ch => cases next <;> rfl

theorem keeps_resume {k : ℕ} {c : Call} (h : s.calls[k]? = some c) :
    Keeps s (s.resume hca target k c) := by
  intro horder
  obtain ⟨horder', hperm⟩ := advance_moves hca target c s.ch horder
  rw [resume_ch]
  constructor
  · exact horder'
  · set rest := (s.calls.eraseIdx k).flatMap heldIu
    have hbefore : (held s++resting s.ch).Perm (rest++(heldIu c++resting s.ch)) := by
      rw [← List.append_assoc]
      exact ((held_of_getElem h).trans List.perm_append_comm).append_right _
    have hafter := ((resume_held hca target s k c).trans
      List.perm_append_comm).append_right (resting (c.advance hca target s.ch).2)
    rw [List.append_assoc] at hafter
    exact hbefore.trans ((hperm.append_left rest).trans hafter.symm)

theorem keeps_claimed (i : ℕ) (sdev scmnd : Option ℕ) :
    Keeps s (s.claimed i (srpClaimReq i sdev scmnd s.ch)) := by
  rcases srpClaimReq_cases i sdev scmnd s.ch with he | ⟨c, _, _, he⟩
  · rw [he]
    exact keeps_of_same rfl rfl rfl
  · rw [he]
    have hclaim : Unsent s.ch (emptied s.ch i) := (Unsent.refl s.ch).of_eq rfl rfl
    exact (hclaim.moves []).keeps_call (c := .ended i c) rfl rfl

theorem keeps_processRsp (tag : ℕ) (delta : BitVec 32) :
    Keeps s (s.processRsp target tag delta) := by
  have hsame := (Unsent.refl s.ch).moves []
  unfold CallInterleaving.State.processRsp
  simp only
  split_ifs
  · exact keeps_of_same rfl rfl rfl
  · rcases srpClaimReq_cases (srpTagIdx tag) none none s.ch with he | ⟨c, _, _, he⟩
    · rw [he]
      exact hsame.keeps_call (c := .unmatched delta) rfl rfl
    · rw [he]
      have hclaim : Unsent s.ch (emptied s.ch (srpTagIdx tag)) :=
        (Unsent.refl s.ch).of_eq rfl rfl
      exact (hclaim.moves []).keeps_call (c := .answered (srpTagIdx tag) c delta) rfl rfl
  · exact hsame.keeps_call (c := .unmatched delta) rfl rfl

theorem keeps_of_call {e : CallInterleaving.Event} (he : isCall e = true)
    (h : CallInterleaving.step hca target s e = some s') : Keeps s s' := by
  cases CallInterleaving.step_inversion h with
  | noCmdIu hget => exact (moves_srpGetTxIu_none hget).keeps rfl rfl
  | @cmdIu scmnd iu i rest ch hget _ =>
      have htaken : Moves [iu] [iu] ch (srpTakeReq i rest scmnd ch) :=
        ((Unsent.refl ch).of_eq rfl rfl).moves [iu]
      have hmoves := (moves_srpGetTxIu_some hget).trans htaken
      exact hmoves.keeps_call (c := .cmd .map iu i scmnd) rfl rfl
  | noTskMgmtIu hget => exact (moves_srpGetTxIu_none hget).keeps rfl rfl
  | @tskMgmtIu iu ch hget =>
      exact (moves_srpGetTxIu_some hget).keeps_call (c := .tskMgmt .post iu) rfl rfl
  | processRsp => exact keeps_processRsp _ _
  | noRspIu hget =>
      have hmoves := moves_srpGetTxIu_none hget
      exact Moves.keeps (s := s) hmoves rfl rfl
  | @rspIu delta iu ch hget =>
      have hmoves := moves_srpGetTxIu_some hget
      exact Moves.keeps_call (s := s) (c := .rsp .post iu) hmoves rfl rfl
  | finish _ => exact keeps_claimed _ _ none
  | abortLate _ => exact keeps_of_same rfl rfl rfl
  | abort _ => exact keeps_claimed _ none _
  | resume hc => exact keeps_resume hc
  | complete => cases he
  | connected => exact keeps_of_same rfl rfl rfl
  | createChIb => cases he

end

/-- Every buffer of the ring has one place. -/
structure Owned (target : SrpTargetPort) (s : State) : Prop where
  order : InOrder s.sys.ch.sq
  ring : (s.failed++(held s.sys++resting s.sys.ch)).Perm (txRing target)

/-- A connection at its start: the ring is on `free_tx` and no call holds a buffer. -/
structure Connected (target : SrpTargetPort) (s : State) : Prop where
  free : s.sys.ch.freeTx = txRing target
  sq : s.sys.ch.sq = []
  idle : held s.sys = []
  failed : s.failed = []

section
variable {hca : Hca} {target : SrpTargetPort} {s s' : State} {e : Event}

theorem connected_login (target : SrpTargetPort) (reqLim : BitVec 32) :
    Connected target { sys := .login target reqLim } :=
  ⟨rfl, rfl, rfl, rfl⟩

/-- `srp_reconnect_rport` blocks commands and task management, so no call holds a buffer then. -/
theorem connected_createChIb {s s' : CallInterleaving.State} (hidle : held s = [])
    (h : CallInterleaving.step hca target s (.createChIb true) = some s') :
    Connected target { sys := s' } := by
  cases h
  exact ⟨rfl, rfl, hidle, rfl⟩

theorem Connected.owned (h : Connected target s) : Owned target s := by
  constructor
  · rw [h.sq]
    exact .nil
  · unfold resting
    rw [h.failed, h.idle, h.free, h.sq]
    simp [posted]

theorem Owned.complete (h : Owned target s) (k : ℕ) (ok : Bool)
    (hs : step hca target s (.complete k ok) = some s') : Owned target s' := by
  cases hs
  constructor
  · exact (h.order.overtake k).completeFirst ok
  · set sq := overtake k s.sys.ch.sq
    set lost : List ℕ := if ok then [] else (nextIu sq).toList
    set free := s.sys.ch.freeTx
    have hlost : (posted s.sys.ch.sq).Perm (lost++posted (completeFirst ok sq)) :=
      ((overtake_perm k s.sys.ch.sq).filterMap pendingIu).symm.trans (posted_completeFirst ok sq)
    have hpast : (lost++(free++posted (completeFirst ok sq))).Perm (resting s.sys.ch) :=
      (List.perm_append_comm_assoc ..).trans (hlost.symm.append_left free)
    have hplaces : (lost++(held s.sys++(free++posted (completeFirst ok sq)))).Perm
        (held s.sys++resting s.sys.ch) :=
      (List.perm_append_comm_assoc ..).trans (hpast.append_left _)
    have hring := (hplaces.append_left s.failed).trans h.ring
    rw [← List.append_assoc] at hring
    exact hring

theorem Owned.call {e : CallInterleaving.Event} (h : Owned target s)
    (hs : step hca target s (.call e) = some s') : Owned target s' := by
  simp only [step] at hs
  split_ifs at hs with he
  obtain ⟨sys, hsys, rfl⟩ := Option.map_eq_some_iff.mp hs
  obtain ⟨horder, hperm⟩ := keeps_of_call he hsys h.order
  exact ⟨horder, (hperm.symm.append_left s.failed).trans h.ring⟩

theorem Owned.step (h : Owned target s) (hs : step hca target s e = some s') :
    Owned target s' := by
  cases e with
  | call e => exact h.call hs
  | complete k ok => exact h.complete k ok hs

theorem txRing_nodup (target : SrpTargetPort) : (txRing target).Nodup :=
  List.nodup_reverse.mpr List.nodup_range

theorem mem_txRing {iu : ℕ} : iu ∈ txRing target ↔ iu < target.queueSize := by
  unfold txRing
  rw [List.mem_reverse, List.mem_range]

/-- A buffer that is taken from the channel is nowhere else. -/
theorem Owned.taken (h : Owned target s) {iuType : SrpIuType} {iu : ℕ} {ch : SrpRdmaCh}
    (hget : srpGetTxIu iuType s.sys.ch = (some iu, ch)) :
    iu ∉ ch.freeTx ∧ iu ∉ posted ch.sq ∧ iu ∉ held s.sys ∧ iu ∉ s.failed := by
  have hmoved := (moves_srpGetTxIu_some hget h.order).2
  have hring := ((hmoved.symm.append_left (held s.sys)).append_left s.failed).trans h.ring
  have hcount := List.nodup_iff_count_le_one.mp (hring.nodup_iff.mpr (txRing_nodup target)) iu
  simp only [List.count_append, List.count_singleton_self, resting] at hcount
  refine ⟨?_, ?_, ?_, ?_⟩ <;> intro hmem <;> have hpos := List.count_pos_iff.mpr hmem <;> omega

/-- Every buffer of the ring is in one of four places, and a buffer that is handed out is in
none of the others. -/
theorem iu_in_one_place (hstart : Connected target s) (hrun : AnyRun (step hca target) s s') :
    (∀ iu < target.queueSize, s'.sys.ch.freeTx.count iu+(held s'.sys).count iu+
        (posted s'.sys.ch.sq).count iu+s'.failed.count iu = 1) ∧
      s'.sys.ch.freeTx.Nodup ∧
      (∀ iu ∈ s'.sys.ch.freeTx, iu < target.queueSize ∧ iu ∉ posted s'.sys.ch.sq) ∧
      ∀ iuType iu ch, srpGetTxIu iuType s'.sys.ch = (some iu, ch) →
        iu ∉ ch.freeTx ∧ iu ∉ posted ch.sq ∧ iu ∉ held s'.sys ∧ iu ∉ s'.failed := by
  have howned : Owned target s' := by
    apply hrun.invariant (I := Owned target) hstart.owned
    intro s e s' h _ hs
    exact h.step hs
  have hnodup := howned.ring.nodup_iff.mpr (txRing_nodup target)
  have hresting : (resting s'.sys.ch).Nodup := hnodup.of_append_right.of_append_right
  refine ⟨?_, hresting.of_append_left, ?_, fun iuType iu ch hget => howned.taken hget⟩
  · intro iu hiu
    have hone := howned.ring.count_eq iu
    rw [List.count_eq_one_of_mem (txRing_nodup target) (mem_txRing.mpr hiu)] at hone
    simp only [List.count_append, resting] at hone
    omega
  · intro iu hiu
    constructor
    · apply mem_txRing.mp
      apply howned.ring.mem_iff.mp
      simp [resting, hiu]
    · exact List.disjoint_of_nodup_append hresting hiu

end

def sends (id : ℕ) : List Event :=
  [.call (.queuecommand (noData id)), .call (.resume 0), .call (.resume 0)]

/-- Two commands are sent. The second completes first; the first completes in error. Then a
task management request takes the buffer that has come back. -/
theorem iu_in_one_place_after_error : ∃ s,
    AnyRun (step willingHca smallTarget) { sys := .login smallTarget 4 } s ∧
      (s.sys.ch.freeTx = [0] ∧ held s.sys = [1] ∧ s.failed = [2]) ∧
      (posted s.sys.ch.sq).count 1 = 0 := by
  have h : Reaches (step willingHca smallTarget)
      (sends 0++sends 1++[.complete 1 true, .complete 0 false, .call .tskMgmt])
      { sys := .login smallTarget 4 }
      (fun s => s.sys.ch.freeTx = [0] ∧ held s.sys = [1] ∧ s.failed = [2]) = true := by
    decide +kernel
  obtain ⟨s, hrun, hs⟩ := anyRun_of_reaches h
  have hplaces := of_decide_eq_true hs
  have hone := (iu_in_one_place (connected_login smallTarget 4) hrun).1 1 (by decide)
  rw [hplaces.2.1, List.count_singleton_self] at hone
  exact ⟨s, hrun, hplaces, by omega⟩

end IbSrp.TransmitRing

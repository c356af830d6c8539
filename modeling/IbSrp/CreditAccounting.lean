import Mathlib.Algebra.BigOperators.Group.List.Basic
import Mathlib.Tactic.LinearCombination
import IbSrp.CallInterleaving

/-!
# The initiator's request limit

The request limit is the credit the target granted, plus the credit of every
message handled since, minus the units taken and not returned. A unit is taken
when a call gets a buffer for an SRP_CMD or SRP_TSK_MGMT. It is returned when
the call puts the buffer back, and it is gone once the work request is posted.
All of this is modulo 2^32, as the counter is.

Every section of a call changes the limit by the amount `Call.added`. The
invariant follows section by section, so it holds for every interleaving of
calls and messages. If the target grants no negative credit and no addition
overflows, the limit never becomes negative, because a unit is taken only while
the limit is positive.
-/
namespace IbSrp.CreditAccounting
open LabelledRuns Channel ChannelFrames CallInterleaving
open ChannelSystem (srpClaimReq_cases noData smallTarget willingHca)

/-- What an event adds to the request limit. -/
def added (s : State) : Event → BitVec 32
  | .rsp tag delta => if isTskMgmtTag tag then delta else 0
  | .targetRequest delta => delta
  | .resume k => (s.calls[k]?.map Call.added).getD 0
  | _ => 0

def NonNegative : Event → Prop
  | .rsp _ delta => 0 ≤ delta.toInt
  | .targetRequest delta => 0 ≤ delta.toInt
  | _ => True

/-- The sum of credit fields, not modulo 2^32. -/
def creditSum (credit : List (BitVec 32)) : ℕ := (credit.map BitVec.toNat).sum

@[simp] theorem creditSum_nil : creditSum [] = 0 := rfl

@[simp] theorem creditSum_cons (delta : BitVec 32) (credit : List (BitVec 32)) :
    creditSum (delta::credit) = delta.toNat+creditSum credit := by simp [creditSum]

@[simp] theorem creditSum_append (credit credit' : List (BitVec 32)) :
    creditSum (credit++credit') = creditSum credit+creditSum credit' := by simp [creditSum]

theorem ofNat_creditSum (credit : List (BitVec 32)) :
    BitVec.ofNat 32 (creditSum credit) = credit.sum := by
  induction credit with
  | nil => rfl
  | cons delta credit ih =>
      rw [creditSum_cons, BitVec.ofNat_add, ih, BitVec.ofNat_toNat, BitVec.setWidth_eq,
        List.sum_cons]

section
variable {hca : Hca} {target : SrpTargetPort} {ch ch' : SrpRdmaCh}

theorem mappingOnly_reqLim (h : MappingOnly ch ch') : ch'.reqLim = ch.reqLim := by
  obtain ⟨_, _, _, _, rfl⟩ := h
  rfl

theorem srpPostSend_reqLim (hca : Hca) (iu numSge : ℕ) (ch : SrpRdmaCh) :
    (srpPostSend hca iu numSge ch).2.reqLim = ch.reqLim :=
  mappingOnly_reqLim (mappingOnly_srpPostSend hca iu numSge ch)

theorem srpMapData_reqLim (hca : Hca) (target : SrpTargetPort) (scmnd : ScsiCmnd) (i : ℕ)
    (ch : SrpRdmaCh) : (srpMapData hca target scmnd i ch).2.reqLim = ch.reqLim := by
  obtain ⟨l, ch', h⟩ : ∃ l ch', srpMapData hca target scmnd i ch = (l, ch') := ⟨_, _, rfl⟩
  obtain ⟨ch₁, mrList, hmap, he⟩ := srpMapData_frame hca target h
  have hsame := mappingOnly_reqLim hmap
  rw [h]
  cases he with
  | inl he => rw [he, hsame]
  | inr he =>
      rw [he]
      exact hsame

theorem srpUnmapData_reqLim (hca : Hca) (target : SrpTargetPort) (scmnd : ScsiCmnd) (i : ℕ)
    (ch : SrpRdmaCh) : (srpUnmapData hca target scmnd i ch).reqLim = ch.reqLim := by
  obtain ⟨touched, h⟩ := srpUnmapData_frame hca target scmnd i ch
  rw [mappingOnly_reqLim h]

theorem srpFreeReq_reqLim (hca : Hca) (target : SrpTargetPort) (i : ℕ) (scmnd : ScsiCmnd)
    (delta : BitVec 32) (ch : SrpRdmaCh) :
    (srpFreeReq hca target i scmnd delta ch).reqLim = ch.reqLim+delta := by
  simp [srpFreeReq, srpUnmapData_reqLim]

theorem srpGetTxIu_none {iuType : SrpIuType} (h : srpGetTxIu iuType ch = (none, ch')) :
    ch'.reqLim = ch.reqLim := by
  unfold srpGetTxIu at h
  simp only at h
  split at h
  · cases h
    rfl
  · cases iuType <;> simp only [reduceCtorEq, if_true, if_false] at h
    · split_ifs at h <;> cases h
      rfl
    · split_ifs at h <;> cases h
      rfl
    · cases h

theorem srpGetTxIu_rsp {iu : ℕ} (h : srpGetTxIu .rsp ch = (some iu, ch')) :
    ch'.reqLim = ch.reqLim := by
  unfold srpGetTxIu at h
  simp only at h
  split at h
  · cases h
  · cases h
    rfl

/-- A command gets a buffer only if more than the reserve for task management is left. -/
theorem srpGetTxIu_cmd {iu : ℕ} (h : srpGetTxIu .cmd ch = (some iu, ch')) :
    ch'.reqLim = ch.reqLim-1 ∧ (srpTskMgmtSqSize : ℤ) < ch.reqLim.toInt := by
  unfold srpGetTxIu at h
  simp only [reduceCtorEq, if_false] at h
  split at h
  · cases h
  · split_ifs at h with hle
    · cases h
    · cases h
      exact ⟨rfl, Int.not_le.mp hle⟩

theorem srpGetTxIu_tskMgmt {iu : ℕ} (h : srpGetTxIu .tskMgmt ch = (some iu, ch')) :
    ch'.reqLim = ch.reqLim-1 ∧ 0 < ch.reqLim.toInt := by
  unfold srpGetTxIu at h
  simp only [reduceCtorEq, if_true, if_false] at h
  split at h
  · cases h
  · split_ifs at h with hle
    · cases h
    · cases h
      exact ⟨rfl, Int.not_le.mp hle⟩

theorem advance_reqLim (hca : Hca) (target : SrpTargetPort) (c : Call) (ch : SrpRdmaCh) :
    (c.advance hca target ch).2.reqLim = ch.reqLim+c.added := by
  cases c with
  | cmd phase iu i scmnd =>
      cases phase with
      | map =>
          have h := srpMapData_reqLim hca target scmnd i ch
          simp only [Call.advance]
          split <;> simp_all [Call.added]
      | post numSge =>
          have h := srpPostSend_reqLim hca iu numSge ch
          simp only [Call.advance]
          split <;> simp_all [Call.added]
      | unmap => simp [Call.advance, Call.added, srpUnmapData_reqLim]
      | putIu => simp [Call.advance, Call.added, srpPutTxIu]
      | putReq => simp [Call.advance, Call.added, SrpRdmaCh.setReq]
  | tskMgmt phase iu =>
      cases phase with
      | post =>
          have h := srpPostSend_reqLim hca iu 1 ch
          simp only [Call.advance]
          split <;> simp_all [Call.added]
      | putIu => simp [Call.advance, Call.added, srpPutTxIu]
  | rsp phase iu =>
      cases phase with
      | post =>
          have h := srpPostSend_reqLim hca iu 1 ch
          simp only [Call.advance]
          split <;> simp_all [Call.added]
      | putIu => simp [Call.advance, Call.added, srpPutTxIu]
  | unmatched delta => simp [Call.advance, Call.added]
  | answered i scmnd delta => simp [Call.advance, Call.added, srpFreeReq_reqLim]
  | ended i scmnd => simp [Call.advance, Call.added, srpFreeReq_reqLim]

/-- What a section adds to the limit it takes from the units or from the open credit. -/
theorem advance_worth (hca : Hca) (target : SrpTargetPort) (c : Call) (ch : SrpRdmaCh) :
    c.added.toNat+(c.advance hca target ch).1.units = c.units+creditSum c.credit := by
  cases c with
  | cmd phase iu i scmnd =>
      cases phase with
      | map =>
          simp only [Call.advance]
          split <;> simp [Call.added, Next.units, Call.units, Call.credit]
      | post numSge =>
          simp only [Call.advance]
          split <;> simp [Call.added, Next.units, Call.units, Call.credit]
      | unmap => simp [Call.advance, Call.added, Next.units, Call.units, Call.credit]
      | putIu => simp [Call.advance, Call.added, Next.units, Call.units, Call.credit]
      | putReq => simp [Call.advance, Call.added, Next.units, Call.units, Call.credit]
  | tskMgmt phase iu =>
      cases phase with
      | post =>
          simp only [Call.advance]
          split <;> simp [Call.added, Next.units, Call.units, Call.credit]
      | putIu => simp [Call.advance, Call.added, Next.units, Call.units, Call.credit]
  | rsp phase iu =>
      cases phase with
      | post =>
          simp only [Call.advance]
          split <;> simp [Call.added, Next.units, Call.units, Call.credit]
      | putIu => simp [Call.advance, Call.added, Next.units, Call.units, Call.credit]
  | unmatched delta => simp [Call.advance, Call.added, Next.units, Call.units, Call.credit]
  | answered i scmnd delta => simp [Call.advance, Call.added, Next.units, Call.units, Call.credit]
  | ended i scmnd => simp [Call.advance, Call.added, Next.units, Call.units, Call.credit]

theorem advance_units (hca : Hca) (target : SrpTargetPort) (c : Call) (ch : SrpRdmaCh) :
    c.added+BitVec.ofNat 32 (c.advance hca target ch).1.units =
      BitVec.ofNat 32 c.units+c.credit.sum := by
  have h := congrArg (BitVec.ofNat 32) (advance_worth hca target c ch)
  rw [BitVec.ofNat_add, BitVec.ofNat_add, ofNat_creditSum, BitVec.ofNat_toNat,
    BitVec.setWidth_eq] at h
  exact h

/-- A call that goes on has no open credit. -/
theorem advance_credit {c c' : Call} (h : c.advance hca target ch = (.call c', ch')) :
    c'.credit = [] := by
  cases c with
  | cmd phase iu i scmnd =>
      cases phase with
      | map =>
          simp only [Call.advance] at h
          split at h <;> cases h <;> rfl
      | post numSge =>
          simp only [Call.advance] at h
          split at h <;> cases h
          rfl
      | unmap =>
          cases h
          rfl
      | putIu =>
          cases h
          rfl
      | putReq => cases h
  | tskMgmt phase iu =>
      cases phase with
      | post =>
          simp only [Call.advance] at h
          split at h <;> cases h
          rfl
      | putIu => cases h
  | rsp phase iu =>
      cases phase with
      | post =>
          simp only [Call.advance] at h
          split at h <;> cases h
          rfl
      | putIu => cases h
  | unmatched delta => cases h
  | answered i scmnd delta => cases h
  | ended i scmnd => cases h

end

/-- What a step does to the request limit, the units and the messages. -/
inductive Section (hca : Hca) (target : SrpTargetPort) (s : State) :
    Event → State → Prop
  | channel {e : Event} {ch : SrpRdmaCh} : ch.reqLim = s.ch.reqLim →
      Section hca target s e { s with ch := ch }
  | acquired {e : Event} {c : Call} {ch : SrpRdmaCh} : c.units = 1 →
      c.credit = [] → ch.reqLim = s.ch.reqLim-1 → 0 < s.ch.reqLim.toInt →
      Section hca target s e (s.call c ch)
  | claimed {e : Event} {c : Call} {ch : SrpRdmaCh} : c.units = 0 →
      c.credit = [] → ch.reqLim = s.ch.reqLim → Section hca target s e (s.call c ch)
  | received {tag : ℕ} {delta : BitVec 32} {c : Call} {ch : SrpRdmaCh} : c.units = 0 →
      c.credit = [delta] → ch.reqLim = s.ch.reqLim →
      Section hca target s (.rsp tag delta)
        { s.call c ch with received := s.received++[delta] }
  | credited {e : Event} {delta : BitVec 32} {calls : List Call}
      {ch : SrpRdmaCh} : added s e = delta → (NonNegative e → 0 ≤ delta.toInt) →
      (∀ c ∈ calls, c.units = 0 ∧ c.credit = []) →
      ch.reqLim = s.ch.reqLim+delta →
      Section hca target s e
        { s with ch := ch, calls := s.calls++calls, received := s.received++[delta],
                 handled := s.handled++[delta] }
  | resumed {k : ℕ} {c : Call} : s.calls[k]? = some c →
      Section hca target s (.resume k) (s.resume hca target k c)

section
variable {hca : Hca} {target : SrpTargetPort} {s s' : State} {e : Event}

theorem section_claimed (i : ℕ) (sdev scmnd : Option ℕ) :
    Section hca target s e (s.claimed i (srpClaimReq i sdev scmnd s.ch)) := by
  rcases srpClaimReq_cases i sdev scmnd s.ch with he | ⟨c, _, _, he⟩
  · rw [he]
    exact .channel rfl
  · rw [he]
    exact .claimed rfl rfl rfl

theorem section_processRsp (tag : ℕ) (delta : BitVec 32) :
    Section hca target s (.rsp tag delta) (s.processRsp target tag delta) := by
  unfold State.processRsp
  simp only
  split_ifs with htsk hlt
  · have h : Section hca target s (.rsp tag delta)
        { s with ch := { s.ch with reqLim := s.ch.reqLim+delta }, calls := s.calls++[],
                 received := s.received++[delta], handled := s.handled++[delta] } :=
      .credited (by simp [added, htsk]) id (by simp) rfl
    rw [List.append_nil] at h
    exact h
  · rcases srpClaimReq_cases (srpTagIdx tag) none none s.ch with he | ⟨c, _, _, he⟩
    · rw [he]
      exact .received rfl rfl rfl
    · rw [he]
      exact .received rfl rfl rfl
  · exact .received rfl rfl rfl

theorem section_noRspIu {delta : BitVec 32} {ch : SrpRdmaCh}
    (hget : srpGetTxIu .rsp { s.ch with reqLim := s.ch.reqLim+delta } = (none, ch)) :
    Section hca target s (.targetRequest delta)
      { s with ch := ch, received := s.received++[delta], handled := s.handled++[delta] } := by
  have h : Section hca target s (.targetRequest delta)
      { s with ch := ch, calls := s.calls++[], received := s.received++[delta],
               handled := s.handled++[delta] } :=
    .credited rfl id (by simp) (srpGetTxIu_none hget)
  rw [List.append_nil] at h
  exact h

theorem step_section (h : step hca target s e = some s') : Section hca target s e s' := by
  cases step_inversion h with
  | noCmdIu hget => exact .channel (srpGetTxIu_none hget)
  | cmdIu hget _ =>
      have hunit := srpGetTxIu_cmd hget
      exact .acquired rfl rfl hunit.1 (lt_trans (by decide) hunit.2)
  | noTskMgmtIu hget => exact .channel (srpGetTxIu_none hget)
  | tskMgmtIu hget =>
      have hunit := srpGetTxIu_tskMgmt hget
      exact .acquired rfl rfl hunit.1 hunit.2
  | processRsp => exact section_processRsp _ _
  | noRspIu hget => exact section_noRspIu hget
  | rspIu hget => exact .credited rfl id (by simp [Call.units, Call.credit]) (srpGetTxIu_rsp hget)
  | finish _ => exact section_claimed _ _ none
  | abortLate _ => exact .channel rfl
  | abort _ => exact section_claimed _ none _
  | resume hc => exact .resumed hc
  | complete => exact .channel rfl
  | connected => exact .channel rfl
  | @createChIb created => cases created <;> exact .channel rfl

/-- The account of a channel since the login that granted `grant`. -/
structure Accounted (grant : BitVec 32) (s : State) : Prop where
  counted : (s.handled++s.unhandled).Perm s.received
  balance : s.ch.reqLim+BitVec.ofNat 32 s.units = grant+s.handled.sum

theorem units_call (s : State) (c : Call) (ch : SrpRdmaCh) :
    (s.call c ch).units = s.units+c.units := by
  simp [State.units, State.call, Nat.add_assoc]

theorem unhandled_call (s : State) (c : Call) (ch : SrpRdmaCh) :
    (s.call c ch).unhandled = s.unhandled++c.credit := by
  simp [State.unhandled, State.call]

theorem resume_units (hca : Hca) (target : SrpTargetPort) {k : ℕ} {c : Call}
    (hk : s.calls[k]? = some c) :
    (s.resume hca target k c).units+c.units = s.units+(c.advance hca target s.ch).1.units := by
  have hsum := ((perm_eraseIdx hk).map Call.units).sum_eq
  rw [List.map_cons, List.sum_cons] at hsum
  unfold State.resume State.units
  split <;> simp_all [Next.units] <;> omega

theorem resume_unhandled (hca : Hca) (target : SrpTargetPort) {k : ℕ} {c : Call}
    (hk : s.calls[k]? = some c) :
    s.unhandled.Perm (c.credit++(s.resume hca target k c).unhandled) := by
  have hperm := (perm_eraseIdx hk).flatMap_right Call.credit
  rw [List.flatMap_cons] at hperm
  unfold State.resume State.unhandled
  split
  · have hnone := advance_credit (by assumption)
    simpa [hnone] using hperm
  · exact hperm
  · exact hperm

theorem resume_reqLim (hca : Hca) (target : SrpTargetPort) (s : State) (k : ℕ) (c : Call) :
    (s.resume hca target k c).ch.reqLim = s.ch.reqLim+c.added := by
  have h := advance_reqLim hca target c s.ch
  unfold State.resume
  split <;> simp_all

theorem resume_handled (hca : Hca) (target : SrpTargetPort) (s : State) (k : ℕ) (c : Call) :
    (s.resume hca target k c).handled = s.handled++c.credit ∧
      (s.resume hca target k c).received = s.received := by
  unfold State.resume
  split <;> exact ⟨rfl, rfl⟩

theorem Accounted.balance_of {grant a : BitVec 32} {u : ℕ} {d : List (BitVec 32)}
    (h : Accounted grant s) (hlim : s'.ch.reqLim = s.ch.reqLim+a)
    (hunits : s'.units = s.units+u) (hhandled : s'.handled = s.handled++d)
    (hchange : a+BitVec.ofNat 32 u = d.sum) :
    s'.ch.reqLim+BitVec.ofNat 32 s'.units = grant+s'.handled.sum := by
  rw [hlim, hunits, hhandled, BitVec.ofNat_add, List.sum_append, ← hchange]
  linear_combination h.balance

theorem Accounted.section {grant : BitVec 32} (h : Accounted grant s)
    (hs : Section hca target s e s') : Accounted grant s' := by
  cases hs with
  | channel hlim =>
      constructor
      · exact h.counted
      · exact h.balance_of (a := 0) (u := 0) (d := []) (by simp [hlim]) rfl (by simp) rfl
  | acquired hunit hcredit hlim _ =>
      constructor
      · rw [unhandled_call, hcredit, List.append_nil]
        exact h.counted
      · apply h.balance_of (a := -1) (u := 1) (d := [])
        · simp [State.call, hlim, BitVec.sub_eq_add_neg]
        · rw [units_call, hunit]
        · simp [State.call]
        · rfl
  | claimed hunit hcredit hlim =>
      constructor
      · rw [unhandled_call, hcredit, List.append_nil]
        exact h.counted
      · apply h.balance_of (a := 0) (u := 0) (d := [])
        · simp [State.call, hlim]
        · rw [units_call, hunit]
        · simp [State.call]
        · rfl
  | @received tag delta c ch hunit hcredit hlim =>
      constructor
      · change (s.handled++(s.call c ch).unhandled).Perm (s.received++[delta])
        rw [unhandled_call, hcredit, ← List.append_assoc]
        exact h.counted.append_right _
      · apply h.balance_of (a := 0) (u := 0) (d := [])
        · simp [State.call, hlim]
        · change (s.call c ch).units = _
          rw [units_call, hunit]
        · simp [State.call]
        · rfl
  | @credited e delta calls ch hadded _ hcalls hlim =>
      have hunits : (calls.map Call.units).sum = 0 :=
        List.sum_eq_zero (by simpa using fun c hc => (hcalls c hc).1)
      have hcredit : calls.flatMap Call.credit = [] :=
        List.flatMap_eq_nil_iff.mpr fun c hc => (hcalls c hc).2
      constructor
      · simp only [State.unhandled, List.flatMap_append, hcredit, List.append_nil]
        rw [List.append_assoc]
        exact (List.perm_append_comm.append_left _).trans
          (by rw [← List.append_assoc]; exact h.counted.append_right _)
      · apply h.balance_of (a := delta) (u := 0) (d := [delta])
        · exact hlim
        · simp [State.units, hunits]
        · rfl
        · simp
  | @resumed k c hk =>
      have hmessages := resume_handled hca target s k c
      constructor
      · rw [hmessages.1, hmessages.2, List.append_assoc]
        exact ((resume_unhandled hca target hk).symm.append_left _).trans h.counted
      · have hunits := congrArg (BitVec.ofNat 32) (resume_units hca target hk)
        rw [BitVec.ofNat_add, BitVec.ofNat_add] at hunits
        rw [resume_reqLim, hmessages.1, List.sum_append]
        linear_combination h.balance+hunits+advance_units hca target c s.ch

theorem accounted_login (target : SrpTargetPort) (reqLim : BitVec 32) :
    Accounted reqLim (State.login target reqLim) := by
  constructor
  · exact List.Perm.refl _
  · rfl

/-- The event does not take the request limit beyond the largest value of an `s32`. -/
def NoWrap (s : State) (e : Event) : Prop := s.ch.reqLim.toInt+(added s e).toInt < 2^31

structure Solvent (s : State) : Prop where
  reqLim : 0 ≤ s.ch.reqLim.toInt
  credit : ∀ d ∈ s.unhandled, 0 ≤ d.toInt

theorem toInt_add {x y : BitVec 32} (hx : 0 ≤ x.toInt) (hy : 0 ≤ y.toInt)
    (h : x.toInt+y.toInt < 2^31) : 0 ≤ (x+y).toInt := by
  rw [BitVec.toInt_add, Int.bmod_eq_of_le (by omega) (by omega)]
  omega

theorem toInt_sub_one {x : BitVec 32} {n : ℤ} (hn : 0 ≤ n) (h : n < x.toInt) :
    n ≤ (x-1).toInt := by
  have hlt := BitVec.toInt_lt (x := x)
  rw [BitVec.toInt_sub]
  change n ≤ (x.toInt-1).bmod (2^32)
  rw [Int.bmod_eq_of_le (by omega) (by omega)]
  omega

theorem added_nonneg {c : Call} (h : ∀ d ∈ c.credit, 0 ≤ d.toInt) : 0 ≤ c.added.toInt := by
  cases c with
  | cmd phase iu i scmnd => cases phase <;> simp [Call.added]
  | tskMgmt phase iu => cases phase <;> simp [Call.added]
  | rsp phase iu => simp [Call.added]
  | unmatched delta => exact h delta List.mem_cons_self
  | answered i scmnd delta => exact h delta List.mem_cons_self
  | ended i scmnd => simp [Call.added]

theorem Solvent.section (h : Solvent s) (hs : Section hca target s e s') (hpos : NonNegative e)
    (hwrap : NoWrap s e) : Solvent s' := by
  cases hs with
  | channel hlim =>
      constructor
      · rw [hlim]
        exact h.reqLim
      · exact h.credit
  | acquired hunit hcredit hlim hlt =>
      constructor
      · rw [call_ch, hlim]
        exact toInt_sub_one le_rfl hlt
      · rw [unhandled_call, hcredit, List.append_nil]
        exact h.credit
  | claimed hunit hcredit hlim =>
      constructor
      · rw [call_ch, hlim]
        exact h.reqLim
      · rw [unhandled_call, hcredit, List.append_nil]
        exact h.credit
  | @received tag delta c ch hunit hcredit hlim =>
      constructor
      · rw [call_ch, hlim]
        exact h.reqLim
      · intro d hd
        change d ∈ (s.call c ch).unhandled at hd
        rw [unhandled_call, hcredit] at hd
        rcases List.mem_append.mp hd with hold | hnew
        · exact h.credit d hold
        · rw [List.mem_singleton.mp hnew]
          exact hpos
  | @credited e delta calls ch hadded hdelta hcalls hlim =>
      unfold NoWrap at hwrap
      rw [hadded] at hwrap
      constructor
      · rw [hlim]
        exact toInt_add h.reqLim (hdelta hpos) hwrap
      · have hcredit : calls.flatMap Call.credit = [] :=
          List.flatMap_eq_nil_iff.mpr fun c hc => (hcalls c hc).2
        simp only [State.unhandled, List.flatMap_append, hcredit, List.append_nil]
        exact h.credit
  | @resumed k c hk =>
      have hopen := resume_unhandled hca target hk
      have hcredit : ∀ d ∈ c.credit, 0 ≤ d.toInt := fun d hd =>
        h.credit d (hopen.mem_iff.mpr (List.mem_append_left _ hd))
      have hadded : added s (.resume k) = c.added := by simp [added, hk]
      unfold NoWrap at hwrap
      rw [hadded] at hwrap
      constructor
      · rw [resume_reqLim]
        exact toInt_add h.reqLim (added_nonneg hcredit) hwrap
      · intro d hd
        exact h.credit d (hopen.mem_iff.mpr (List.mem_append_right _ hd))

/-- A command that gets a buffer leaves the reserve for task management. -/
theorem reserve_left {scmnd : ScsiCmnd} (h : step hca target s (.queuecommand scmnd) = some s')
    (hcalls : s'.calls ≠ s.calls) : (srpTskMgmtSqSize : ℤ) ≤ s'.ch.reqLim.toInt := by
  cases step_inversion h with
  | noCmdIu _ => exact (hcalls rfl).elim
  | @cmdIu _ _ _ _ ch hget _ =>
      have hunit := srpGetTxIu_cmd hget
      change _ ≤ ch.reqLim.toInt
      rw [hunit.1]
      exact toInt_sub_one (by decide) hunit.2

end

section
variable (hca : Hca) (target : SrpTargetPort) (grant : BitVec 32) (s : State)

/-- In every state of every run since a login, each message received is handled once or still
being handled, and the request limit is the grant plus the credit of the messages handled
minus the units taken and not returned. If no credit is negative and no addition overflows,
the limit is never negative, and a command that gets a buffer leaves the reserve. -/
theorem credit_conserved :
    (AnyRun (step hca target) (State.login target grant) s →
      (s.handled++s.unhandled).Perm s.received ∧
        s.ch.reqLim = grant+s.handled.sum-BitVec.ofNat 32 s.units) ∧
    (0 ≤ grant.toInt → Run (step hca target) (fun s e => NonNegative e ∧ NoWrap s e)
        (State.login target grant) s →
      0 ≤ s.ch.reqLim.toInt ∧
        ∀ scmnd s', step hca target s (.queuecommand scmnd) = some s' → s'.calls ≠ s.calls →
          (srpTskMgmtSqSize : ℤ) ≤ s'.ch.reqLim.toInt) := by
  constructor
  · intro hrun
    have h : Accounted grant s := by
      apply hrun.invariant (I := Accounted grant) (accounted_login target grant)
      intro s e s' hs _ hstep
      exact hs.section (step_section hstep)
    exact ⟨h.counted, by linear_combination h.balance⟩
  · intro hgrant hrun
    have h : Solvent s := by
      apply hrun.invariant (I := Solvent) ⟨hgrant, fun d hd => by cases hd⟩
      intro s e s' hs hok hstep
      exact hs.section (step_section hstep) hok.1 hok.2
    exact ⟨h.reqLim, fun scmnd s' hstep hcalls => reserve_left hstep hcalls⟩

end

instance (e : Event) : Decidable (NonNegative e) := by
  cases e <;> unfold NonNegative <;> infer_instance

instance (s : State) (e : Event) : Decidable (NoWrap s e) :=
  inferInstanceAs (Decidable (_ < _))

/-- A command is sent and answered, a task management request is sent, and the target asks
for a reply; the answer is handled in two sections around the other calls. -/
def oneOfEach : List Event :=
  [.queuecommand (noData 0), .resume 0, .resume 0, .rsp 0 1, .tskMgmt, .targetRequest 2,
    .resume 0, .resume 0, .resume 0]

theorem credit_conserved_one_of_each : ∃ s,
    Run (step willingHca smallTarget)
      (fun s e => NonNegative e ∧ NoWrap s e) (State.login smallTarget 4) s ∧
      (s.sent = 2 ∧ s.handled = [2, 1] ∧ s.calls.length = 0) ∧
      s.ch.reqLim = 4+s.handled.sum-BitVec.ofNat 32 s.units ∧ 0 ≤ s.ch.reqLim.toInt := by
  have h : Reaches (guarded (step willingHca smallTarget)
      fun s e => NonNegative e ∧ NoWrap s e) oneOfEach (State.login smallTarget 4)
      (fun s => s.sent = 2 ∧ s.handled = [2, 1] ∧ s.calls.length = 0) = true := by decide +kernel
  obtain ⟨s, hrun, hs⟩ := run_of_reaches h
  have hcredit := credit_conserved willingHca smallTarget 4 s
  have hany := hrun.mono (fun _ _ _ => trivial)
  exact ⟨s, hrun, of_decide_eq_true hs, (hcredit.1 hany).2, (hcredit.2 (by decide) hrun).1⟩

end IbSrp.CreditAccounting

import IbSrp.CreditAccounting
import IbSrp.TargetChannel

/-!
# Conservation of credit between initiator and target

Every unit of the credit that a login grants should be in one place. At the
initiator it is in the request limit, with a call that has taken a buffer, or with
a response that is being handled. Under way it is a request or a field of a
response. At the target it is a request that is not answered yet, a response that
is being built or posted, or part of `req_lim_delta`. It is lost when a response
cannot be posted. The sum over these places is the granted credit, and since it is
below 2^31, no counter overflows.

This is so on a big-endian CPU. On a little-endian one a response exchanges
`req_lim_delta` four times and keeps a byte of each result. Credit that is found
by the exchange of a byte where it does not show is gone, which happens when a
request is aborted between two exchanges, or when the compiler does not begin with
the low-order byte.

`worth` is the part of the initiator. It changes by the credit of the messages
received and by nothing else, whichever sections of calls run.
-/
namespace IbSrp.CreditProtocol
open LabelledRuns Channel CreditAccounting TargetChannel
open CallInterleaving (Call)
open ChannelSystem (noData smallTarget willingHca)

/-- The credit at the initiator and in the requests it has sent. -/
def worth (s : CallInterleaving.State) : ℕ := s.ch.reqLim.toNat+s.units+creditSum s.unhandled

/-- The credit of the message that an event brings. -/
def messages : CallInterleaving.Event → List (BitVec 32)
  | .rsp _ delta => [delta]
  | .targetRequest delta => [delta]
  | _ => []

theorem toNat_sub_one {x : BitVec 32} (h : 0 < x.toInt) : (x-1).toNat+1 = x.toNat := by
  rw [BitVec.toInt_eq_toNat_cond] at h
  split at h <;> bv_omega

section
variable {hca : Hca} {target : SrpTargetPort} {s s' : CallInterleaving.State}
variable {e : CallInterleaving.Event}

theorem processRsp_received (tag : ℕ) (delta : BitVec 32) :
    (s.processRsp target tag delta).received = s.received++[delta] := by
  unfold CallInterleaving.State.processRsp
  simp only
  split_ifs
  · rfl
  · split <;> rfl
  · rfl

theorem claimed_received (i : ℕ) (p : Option ScsiCmnd × SrpRdmaCh) :
    (s.claimed i p).received = s.received := by
  unfold CallInterleaving.State.claimed
  split <;> rfl

theorem step_received (h : CallInterleaving.step hca target s e = some s') :
    s'.received = s.received++messages e := by
  cases CallInterleaving.step_inversion h with
  | processRsp => exact processRsp_received _ _
  | noRspIu _ => rfl
  | rspIu _ => rfl
  | finish _ => simp [messages, claimed_received]
  | abort _ => simp [messages, claimed_received]
  | resume _ => simp [messages, resume_handled]
  | _ => simp [messages, CallInterleaving.State.call]

theorem section_sent (h : Section hca target s e s') : s.sent ≤ s'.sent := by
  cases h with
  | channel _ => exact le_rfl
  | acquired _ _ _ _ => exact le_rfl
  | claimed _ _ _ => exact le_rfl
  | received _ _ _ => exact le_rfl
  | credited _ _ _ _ => exact le_rfl
  | resumed hk =>
      unfold CallInterleaving.State.resume
      split
      · exact le_rfl
      · exact Nat.le_succ _
      · exact le_rfl

/-- The initiator gains what it receives, as long as its limit does not overflow. -/
theorem worth_section (h : Section hca target s e s')
    (hbound : s.ch.reqLim.toNat+(s.calls.map Call.units).sum+creditSum s.unhandled+
      creditSum s'.received < 2^32+creditSum s.received) :
    worth s'+creditSum s.received = worth s+creditSum s'.received := by
  cases h with
  | channel hlim =>
      unfold worth
      rw [hlim]
      rfl
  | @acquired e c ch hunit hcredit hlim hpos =>
      have hone := toNat_sub_one hpos
      unfold worth
      rw [units_call, unhandled_call, hunit, hcredit, List.append_nil]
      simp only [CallInterleaving.State.call, hlim]
      omega
  | @claimed e c ch hunit hcredit hlim =>
      unfold worth
      rw [units_call, unhandled_call, hunit, hcredit, List.append_nil]
      simp only [CallInterleaving.State.call, hlim]
      omega
  | @received tag delta c ch hunit hcredit hlim =>
      change ch.reqLim.toNat+(s.call c ch).units+creditSum (s.call c ch).unhandled+_ =
        worth s+creditSum (s.received++[delta])
      unfold worth
      rw [units_call, unhandled_call, hunit, hcredit, hlim, creditSum_append, creditSum_append]
      omega
  | @credited e delta calls ch _ _ hcalls hlim =>
      have hunits : (calls.map Call.units).sum = 0 :=
        List.sum_eq_zero (by simpa using fun c hc => (hcalls c hc).1)
      have hcredit : calls.flatMap Call.credit = [] :=
        List.flatMap_eq_nil_iff.mpr fun c hc => (hcalls c hc).2
      simp only [creditSum_append, creditSum_cons, creditSum_nil] at hbound
      have hadd : ch.reqLim.toNat = s.ch.reqLim.toNat+delta.toNat := by
        rw [hlim]
        exact BitVec.toNat_add_of_lt (by omega)
      simp only [worth, CallInterleaving.State.units, CallInterleaving.State.unhandled,
        List.map_append, List.sum_append, List.flatMap_append, hunits, hcredit, hadd,
        creditSum_append, creditSum_cons, creditSum_nil]
      omega
  | @resumed k c hk =>
      have hunits := resume_units hca target hk
      have hperm := (resume_unhandled hca target hk).map BitVec.toNat
      have hopen : creditSum s.unhandled = creditSum c.credit+
          creditSum (s.resume hca target k c).unhandled := by
        rw [← creditSum_append]
        exact hperm.sum_eq
      have hcall := ((perm_eraseIdx hk).map Call.units).sum_eq
      rw [List.map_cons, List.sum_cons] at hcall
      have hworth := advance_worth hca target c s.ch
      have hreceived := (resume_handled hca target s k c).2
      rw [hreceived] at hbound ⊢
      have hadd : (s.resume hca target k c).ch.reqLim.toNat = s.ch.reqLim.toNat+c.added.toNat := by
        rw [resume_reqLim]
        exact BitVec.toNat_add_of_lt (by omega)
      unfold worth
      omega

end

def rspCredit (rsps : List Response) : ℕ := creditSum (rsps.map Response.reqLimDelta)

theorem rspCredit_append (rsps rsps' : List Response) :
    rspCredit (rsps++rsps') = rspCredit rsps+rspCredit rsps' := by
  unfold rspCredit
  rw [List.map_append, creditSum_append]

theorem rspCredit_singleton (rsp : Response) : rspCredit [rsp] = rsp.reqLimDelta.toNat := by
  simp [rspCredit]

theorem rspCredit_eraseIdx {rsps : List Response} {k : ℕ} {rsp : Response}
    (hk : rsps[k]? = some rsp) :
    rspCredit rsps = rsp.reqLimDelta.toNat+rspCredit (rsps.eraseIdx k) := by
  have hperm := ((perm_eraseIdx hk).map Response.reqLimDelta).map BitVec.toNat
  exact hperm.sum_eq

/-- The place of the macro's argument where a credit of one shows. -/
def isLow (mask : BitVec 32) : Bool := mask.getLsbD 0

/-- The credit of a response that is being built: that of its request, until the low-order byte
has been taken, and what it has taken. -/
def buildingCredit (b : Building) : ℕ := b.masks.countP isLow+b.reqLimDelta.toNat

/-- A response has its credit before or after the exchange of the low-order byte. -/
structure Counted (hostBigEndian : Bool) (b : Building) : Prop where
  masks : ∀ mask ∈ b.masks, mask ∈ constantCpuToBe32 hostBigEndian
  low : b.masks.countP isLow = 1 ∧ b.reqLimDelta = 0 ∨
    b.masks.countP isLow = 0 ∧ b.reqLimDelta ≠ 0

/-- The whole credit goes into the response if it is found under the mask: the low-order byte
has room for it, or there is none. -/
def Kept (reqLimDelta mask : BitVec 32) : Prop :=
  if isLow mask then (1+reqLimDelta) &&& mask = 1+reqLimDelta else reqLimDelta = 0

/-- On a little-endian CPU every exchange puts the whole credit into the response. -/
def Exact (hostBigEndian : Bool) (s : State) : Event → Prop
  | .exchange k i => hostBigEndian = false →
      ∀ b ∈ s.building[k]?, ∀ mask ∈ b.masks[i]?, Kept s.tgt.reqLimDelta mask
  | _ => True

theorem kept_bigEndian (reqLimDelta : BitVec 32) {mask : BitVec 32}
    (h : mask ∈ constantCpuToBe32 true) : Kept reqLimDelta mask := by
  rw [List.mem_singleton.mp h]
  exact BitVec.and_allOnes

theorem one_and_of_not_low {mask : BitVec 32} (h : isLow mask = false) : 1 &&& mask = 0 := by
  apply BitVec.eq_of_getLsbD_eq
  intro i _
  cases i with
  | zero => simpa [isLow] using h
  | succ i => simp

section
variable {hostBigEndian : Bool} {b : Building} {i : ℕ} {mask delta : BitVec 32}

/-- An exchange for the low-order byte takes the credit, one for another byte finds none. -/
theorem Counted.exchange (h : Counted hostBigEndian b) (hi : b.masks[i]? = some mask)
    (hkept : Kept delta mask) (hlt : delta.toNat+1 < 2^32) :
    Counted hostBigEndian (b.exchange i mask delta) ∧
      buildingCredit (b.exchange i mask delta) = buildingCredit b+delta.toNat := by
  have hmasks : ∀ mask' ∈ b.masks.eraseIdx i, mask' ∈ constantCpuToBe32 hostBigEndian :=
    fun mask' hmem => h.masks mask' (List.mem_of_mem_eraseIdx hmem)
  have hcount := countP_eraseIdx hi isLow
  unfold Kept at hkept
  cases hlow : isLow mask with
  | true =>
      rw [hlow, if_pos rfl] at hkept hcount
      have hbefore : b.masks.countP isLow = 1 ∧ b.reqLimDelta = 0 :=
        h.low.resolve_right fun hafter => by omega
      have hadd : (1+delta).toNat = 1+delta.toNat :=
        BitVec.toNat_add_of_lt (by change 1+_ < _; omega)
      have hnew : (b.exchange i mask delta).reqLimDelta = 1+delta := by
        simp only [Building.exchange, hbefore.2, hkept]
        exact BitVec.zero_or
      have hne : 1+delta ≠ 0 := by
        intro heq
        rw [heq] at hadd
        change 0 = 1+delta.toNat at hadd
        omega
      have hzero : (b.exchange i mask delta).masks.countP isLow = 0 := by
        change (b.masks.eraseIdx i).countP isLow = 0
        omega
      constructor
      · exact ⟨hmasks, Or.inr ⟨hzero, by rwa [hnew]⟩⟩
      · rw [buildingCredit, buildingCredit, hzero, hnew, hadd, hbefore.1, hbefore.2]
        change 0+(1+_) = 1+0+_
        omega
  | false =>
      rw [hlow, if_neg Bool.false_ne_true] at hkept hcount
      have hnew : (b.exchange i mask delta).reqLimDelta = b.reqLimDelta := by
        change b.reqLimDelta ||| ((1+delta) &&& mask) = b.reqLimDelta
        rw [hkept]
        change b.reqLimDelta ||| (1 &&& mask) = b.reqLimDelta
        rw [one_and_of_not_low hlow]
        exact BitVec.or_zero
      have hsame : (b.exchange i mask delta).masks.countP isLow = b.masks.countP isLow :=
        hcount.symm
      constructor
      · exact ⟨hmasks, by rw [hsame, hnew]; exact h.low⟩
      · rw [buildingCredit, buildingCredit, hsame, hnew, hkept]
        rfl

theorem Counted.one_le (h : Counted hostBigEndian b) : 1 ≤ buildingCredit b := by
  unfold buildingCredit
  cases h.low with
  | inl hbefore => omega
  | inr hafter =>
      have hpos : b.reqLimDelta.toNat ≠ 0 := fun hzero => hafter.2 (BitVec.eq_of_toNat_eq hzero)
      omega

end

/-- The account of a connection since the login that granted `rqSize`. -/
structure Balanced (hostBigEndian : Bool) (rqSize : ℕ) (s : State) : Prop where
  delivered : s.delivered ≤ s.ini.sent
  counted : ∀ b ∈ s.building, Counted hostBigEndian b
  built : ∀ rsp ∈ s.sending, 1 ≤ rsp.reqLimDelta.toNat
  balance : worth s.ini+s.requests.length+(s.building.map buildingCredit).sum+
    rspCredit s.sending+rspCredit s.flight+s.tgt.reqLimDelta.toNat+creditSum s.lost =
      rqSize+s.delivered

section
variable {hca : Hca} {target : SrpTargetPort} {hostBigEndian : Bool} {rqSize : ℕ} {s s' : State}

/-- What the initiator keeps and what is not a request under way is part of the grant. -/
theorem Balanced.bound (h : Balanced hostBigEndian rqSize s) :
    s.ini.ch.reqLim.toNat+(s.ini.calls.map Call.units).sum+creditSum s.ini.unhandled+
      s.requests.length+(s.building.map buildingCredit).sum+rspCredit s.sending+
      rspCredit s.flight+s.tgt.reqLimDelta.toNat ≤ rqSize := by
  have hbalance := h.balance
  have hdelivered := h.delivered
  unfold worth CallInterleaving.State.units at hbalance
  omega

theorem Balanced.initiator (h : Balanced hostBigEndian rqSize s) (hsize : rqSize < 2^31)
    {e : CallInterleaving.Event} {ini : CallInterleaving.State} {flight : List Response}
    (hstep : CallInterleaving.step hca target s.ini e = some ini)
    (hflight : rspCredit s.flight = creditSum (messages e)+rspCredit flight) :
    Balanced hostBigEndian rqSize { s with ini := ini, flight := flight } := by
  have hreceived := congrArg creditSum (step_received hstep)
  rw [creditSum_append] at hreceived
  have hsection := step_section hstep
  have hbound := h.bound
  have hworth := worth_section hsection (by omega)
  have hbalance := h.balance
  constructor
  · exact h.delivered.trans (section_sent hsection)
  · exact h.counted
  · exact h.built
  · change worth ini+s.requests.length+(s.building.map buildingCredit).sum+rspCredit s.sending+
      rspCredit flight+s.tgt.reqLimDelta.toNat+creditSum s.lost = rqSize+s.delivered
    omega

theorem Balanced.deliverRequest (h : Balanced hostBigEndian rqSize s)
    (hsent : s.delivered < s.ini.sent) (ioctx : SrptSendIoctx) :
    Balanced hostBigEndian rqSize
      { s with tgt := srptProcessRcvCompletion s.tgt, delivered := s.delivered+1,
               requests := s.requests++[ioctx] } := by
  have hbalance := h.balance
  constructor
  · exact hsent
  · exact h.counted
  · exact h.built
  · simp only [srptProcessRcvCompletion, List.length_append, List.length_singleton]
    omega

theorem Balanced.requests (h : Balanced hostBigEndian rqSize s) {requests : List SrptSendIoctx}
    (hlength : requests.length = s.requests.length) :
    Balanced hostBigEndian rqSize { s with requests := requests } := by
  constructor
  · exact h.delivered
  · exact h.counted
  · exact h.built
  · change _+requests.length+_+_+_+_+_ = _
    rw [hlength]
    exact h.balance

theorem countP_constantCpuToBe32 (hostBigEndian : Bool) :
    (constantCpuToBe32 hostBigEndian).countP isLow = 1 := by
  cases hostBigEndian <;> decide

theorem Balanced.queued (h : Balanced hostBigEndian rqSize s) (hsize : rqSize < 2^31) {k : ℕ}
    {ioctx : SrptSendIoctx} {answer : Answer × SrptRdmaCh} (hk : s.requests[k]? = some ioctx)
    (hanswer : Queued hostBigEndian s.tgt answer) :
    Balanced hostBigEndian rqSize (s.queued k answer) := by
  have hlength := (perm_eraseIdx hk).length_eq
  rw [List.length_cons] at hlength
  have hbound := h.bound
  have hbalance := h.balance
  cases hanswer with
  | aborted =>
      have hadd : (s.tgt.reqLimDelta+1).toNat = s.tgt.reqLimDelta.toNat+1 :=
        BitVec.toNat_add_of_lt (by change _+1 < _; omega)
      constructor
      · exact h.delivered
      · exact h.counted
      · exact h.built
      · simp only [State.queued, hadd]
        omega
  | xferFailed => exact h.requests (List.length_set ..)
  | @building b hmasks hzero =>
      have hcount : b.masks.countP isLow = 1 := by
        rw [hmasks]
        exact countP_constantCpuToBe32 hostBigEndian
      have hcredit : buildingCredit b = 1 := by
        rw [buildingCredit, hcount, hzero]
        rfl
      constructor
      · exact h.delivered
      · intro b' hmem
        cases List.mem_append.mp hmem with
        | inl hold => exact h.counted b' hold
        | inr hnew =>
            rw [List.mem_singleton.mp hnew]
            exact ⟨fun mask hmask => by rwa [← hmasks], Or.inl ⟨hcount, hzero⟩⟩
      · exact h.built
      · simp only [State.queued, List.map_append, List.sum_append, List.map_cons, List.map_nil,
          List.sum_singleton, hcredit]
        omega

theorem Balanced.exchanged (h : Balanced hostBigEndian rqSize s) (hsize : rqSize < 2^31)
    {k i : ℕ} {b : Building} {mask : BitVec 32} (hk : s.building[k]? = some b)
    (hi : b.masks[i]? = some mask)
    (hkept : hostBigEndian = false → Kept s.tgt.reqLimDelta mask) :
    Balanced hostBigEndian rqSize (s.exchanged k i b mask) := by
  have hbound := h.bound
  have hbalance := h.balance
  have hb := h.counted b (List.mem_of_getElem? hk)
  have hkept' : Kept s.tgt.reqLimDelta mask := by
    cases hostBigEndian with
    | true => exact kept_bigEndian _ (hb.masks mask (List.mem_of_getElem? hi))
    | false => exact hkept rfl
  have hnext := hb.exchange hi hkept' (by omega)
  have hsum := sum_map_set (f := buildingCredit) hk (b.exchange i mask s.tgt.reqLimDelta)
  constructor
  · exact h.delivered
  · intro b' hmem
    cases List.mem_or_eq_of_mem_set hmem with
    | inl hold => exact h.counted b' hold
    | inr hnew =>
        rw [hnew]
        exact hnext.1
  · exact h.built
  · simp only [State.exchanged]
    change _+_+_+_+_+0+_ = _
    omega

theorem Balanced.complete (h : Balanced hostBigEndian rqSize s) {k : ℕ} {b : Building}
    (hk : s.building[k]? = some b) (hmasks : b.masks = []) :
    Balanced hostBigEndian rqSize
      { s with building := s.building.eraseIdx k, sending := s.sending++[b.response s.tgt] } := by
  have hbalance := h.balance
  have hone := (h.counted b (List.mem_of_getElem? hk)).one_le
  have hcredit : buildingCredit b = b.reqLimDelta.toNat := by
    simp [buildingCredit, hmasks]
  have hsum := ((perm_eraseIdx hk).map buildingCredit).sum_nat
  rw [List.map_cons, List.sum_cons] at hsum
  constructor
  · exact h.delivered
  · exact fun b' hmem => h.counted b' (List.mem_of_mem_eraseIdx hmem)
  · intro rsp hmem
    cases List.mem_append.mp hmem with
    | inl hold => exact h.built rsp hold
    | inr hnew =>
        rw [List.mem_singleton.mp hnew, response_reqLimDelta]
        omega
  · simp only [rspCredit_append, rspCredit_singleton, response_reqLimDelta]
    omega

theorem srptPostSend_reqLimDelta (ok : Bool) (ch : SrptRdmaCh) :
    (srptPostSend ok ch).reqLimDelta = ch.reqLimDelta := by
  cases ok <;> rfl

theorem Balanced.posted (h : Balanced hostBigEndian rqSize s) {k : ℕ} {rsp : Response}
    (hk : s.sending[k]? = some rsp) (ok : Bool) :
    Balanced hostBigEndian rqSize (s.posted k rsp ok) := by
  have hcredit := rspCredit_eraseIdx hk
  have hbalance := h.balance
  have hbuilt : ∀ rsp' ∈ s.sending.eraseIdx k, 1 ≤ rsp'.reqLimDelta.toNat :=
    fun rsp' hmem => h.built rsp' (List.mem_of_mem_eraseIdx hmem)
  cases ok with
  | true =>
      constructor
      · exact h.delivered
      · exact h.counted
      · exact hbuilt
      · simp only [State.posted, srptPostSend_reqLimDelta, if_true, rspCredit_append,
          rspCredit_singleton]
        omega
  | false =>
      constructor
      · exact h.delivered
      · exact h.counted
      · exact hbuilt
      · simp only [State.posted, srptPostSend_reqLimDelta, Bool.false_eq_true, if_false,
          creditSum_append, creditSum_cons, creditSum_nil]
        omega

theorem messages_of_isLocal {e : CallInterleaving.Event} (h : isLocal e = true) :
    messages e = [] := by
  cases e with
  | rsp tag delta => cases h
  | targetRequest delta => cases h
  | _ => rfl

theorem Balanced.step {e : Event} (h : Balanced hostBigEndian rqSize s) (hsize : rqSize < 2^31)
    (hok : Exact hostBigEndian s e)
    (hstep : TargetChannel.step hca target hostBigEndian s e = some s') :
    Balanced hostBigEndian rqSize s' := by
  cases e with
  | initiator e =>
      simp only [TargetChannel.step] at hstep
      split at hstep
      · rename_i hlocal
        obtain ⟨ini, hini, rfl⟩ := Option.map_eq_some_iff.mp hstep
        exact h.initiator hsize hini (by simp [messages_of_isLocal hlocal])
      · cases hstep
  | deliverRequest mgmt reads tag buf =>
      simp only [TargetChannel.step] at hstep
      split at hstep
      · rename_i hsent
        cases hstep
        exact h.deliverRequest hsent _
      · cases hstep
  | writePending k =>
      cases hstep
      exact h.requests (List.length_modify ..)
  | rdmaReadDone k =>
      cases hstep
      exact h.requests (List.length_modify ..)
  | queueResponse k statusOnly cmd =>
      obtain ⟨ioctx, hk, rfl⟩ := Option.map_eq_some_iff.mp hstep
      cases statusOnly with
      | true => exact h.queued hsize hk (queued_srptQueueResponse ..)
      | false => exact h.queued hsize hk (queued_srptQueueResponse ..)
  | exchange k i =>
      obtain ⟨b, hk, hmap⟩ := Option.bind_eq_some_iff.mp hstep
      obtain ⟨mask, hi, rfl⟩ := Option.map_eq_some_iff.mp hmap
      exact h.exchanged hsize hk hi fun hlittle => hok hlittle b hk mask hi
  | built k =>
      obtain ⟨b, hk, hbuilt⟩ := Option.bind_eq_some_iff.mp hstep
      split_ifs at hbuilt with hmasks
      cases hbuilt
      exact h.complete hk hmasks
  | postSend k ok =>
      obtain ⟨rsp, hk, rfl⟩ := Option.map_eq_some_iff.mp hstep
      exact h.posted hk ok
  | deliverResponse k =>
      simp only [TargetChannel.step] at hstep
      split at hstep
      · cases hstep
      · rename_i rsp hk
        obtain ⟨ini, hini, rfl⟩ := Option.map_eq_some_iff.mp hstep
        exact h.initiator hsize hini (by simp [messages, rspCredit_eraseIdx hk])

theorem balanced_login (target : SrpTargetPort) (hsize : rqSize < 2^31) :
    Balanced hostBigEndian rqSize (State.login target rqSize) := by
  constructor
  · exact le_rfl
  · exact fun b hb => absurd hb List.not_mem_nil
  · exact fun rsp hrsp => absurd hrsp List.not_mem_nil
  · change (BitVec.ofNat 32 rqSize).toNat+0+0+0+0+0+0+0+0 = rqSize+0
    rw [BitVec.toNat_ofNat, Nat.mod_eq_of_lt (by omega)]

end

/-- Credit fields as the signed numbers that they are. -/
def signedSum (credit : List (BitVec 32)) : ℤ := (credit.map BitVec.toInt).sum

theorem signedSum_eq {credit : List (BitVec 32)} (h : creditSum credit < 2^31) :
    signedSum credit = creditSum credit := by
  induction credit with
  | nil => rfl
  | cons delta credit ih =>
      rw [creditSum_cons] at h ⊢
      have hdelta : delta.toInt = delta.toNat := BitVec.toInt_eq_toNat_of_lt (by omega)
      have hrest : (credit.map BitVec.toInt).sum = creditSum credit := ih (by omega)
      rw [signedSum, List.map_cons, List.sum_cons, hdelta, hrest, Nat.cast_add]

/-- The requests the target has received and not finished. -/
def unanswered (s : State) : ℕ := s.requests.length+s.building.length+s.sending.length

/-- The initiator's request limit, the requests in flight, the requests that the target has
not finished, the credit in responses in flight and the target's `req_lim_delta`. -/
def totalCredit (s : State) : ℤ :=
  s.ini.ch.reqLim.toInt+(s.ini.sent-s.delivered)+unanswered s+
    signedSum (s.flight.map Response.reqLimDelta)+s.tgt.reqLimDelta.toInt

/-- The credit that functions in progress hold: the units of calls that have a buffer, the
credit of delivered responses that is not added yet, and what responses that are being built or
posted have taken from `req_lim_delta`. -/
def inHand (s : State) : ℤ :=
  (s.ini.calls.map Call.units).sum+signedSum s.ini.unhandled+
    ((s.building.map buildingCredit).sum-s.building.length)+
    (signedSum (s.sending.map Response.reqLimDelta)-s.sending.length)

section
variable {hca : Hca} {target : SrpTargetPort} {hostBigEndian : Bool} {rqSize : ℕ} {s : State}

theorem length_le_rspCredit {rsps : List Response} (h : ∀ rsp ∈ rsps, 1 ≤ rsp.reqLimDelta.toNat) :
    rsps.length ≤ rspCredit rsps := by
  induction rsps with
  | nil => exact le_rfl
  | cons rsp rsps ih =>
      have hrsp := h rsp List.mem_cons_self
      have hrest := ih fun rsp' hmem => h rsp' (List.mem_cons_of_mem rsp hmem)
      have hcons : rspCredit (rsp::rsps) = rsp.reqLimDelta.toNat+rspCredit rsps := by
        simp [rspCredit]
      rw [hcons, List.length_cons]
      omega

theorem length_le_buildingCredit {building : List Building}
    (h : ∀ b ∈ building, Counted hostBigEndian b) :
    building.length ≤ (building.map buildingCredit).sum := by
  induction building with
  | nil => exact le_rfl
  | cons b building ih =>
      have hb := (h b List.mem_cons_self).one_le
      have hrest := ih fun b' hmem => h b' (List.mem_cons_of_mem b hmem)
      rw [List.length_cons, List.map_cons, List.sum_cons]
      omega

theorem Balanced.total_add (h : Balanced hostBigEndian rqSize s) (hsize : rqSize < 2^31) :
    totalCredit s+inHand s+creditSum s.lost = rqSize := by
  have hbound := h.bound
  have hbalance := h.balance
  have hlim : s.ini.ch.reqLim.toInt = s.ini.ch.reqLim.toNat :=
    BitVec.toInt_eq_toNat_of_lt (by omega)
  have hdelta : s.tgt.reqLimDelta.toInt = s.tgt.reqLimDelta.toNat :=
    BitVec.toInt_eq_toNat_of_lt (by omega)
  have hopen : signedSum s.ini.unhandled = creditSum s.ini.unhandled := signedSum_eq (by omega)
  have hsending : signedSum (s.sending.map Response.reqLimDelta) = rspCredit s.sending :=
    signedSum_eq (by change rspCredit s.sending < _; omega)
  have hflight : signedSum (s.flight.map Response.reqLimDelta) = rspCredit s.flight :=
    signedSum_eq (by change rspCredit s.flight < _; omega)
  unfold worth CallInterleaving.State.units at hbalance
  unfold totalCredit inHand unanswered
  rw [hlim, hdelta, hopen, hsending, hflight]
  omega

theorem Balanced.inHand_nonneg (h : Balanced hostBigEndian rqSize s) (hsize : rqSize < 2^31) :
    0 ≤ inHand s := by
  have hbound := h.bound
  have hlength := length_le_rspCredit h.built
  have hbuilding := length_le_buildingCredit h.counted
  have hopen : signedSum s.ini.unhandled = creditSum s.ini.unhandled := signedSum_eq (by omega)
  have hsending : signedSum (s.sending.map Response.reqLimDelta) = rspCredit s.sending :=
    signedSum_eq (by change rspCredit s.sending < _; omega)
  unfold inHand
  rw [hopen, hsending]
  omega

theorem inHand_quiet (hcalls : s.ini.calls = []) (hbuilding : s.building = [])
    (hsending : s.sending = []) : inHand s = 0 := by
  simp [inHand, CallInterleaving.State.unhandled, hcalls, hbuilding, hsending, signedSum]

/-- In every state of every run since a login that granted `rqSize`, in which on a little-endian
CPU every exchange of `req_lim_delta` puts all it finds into the response, the credit of both
ends and of the messages between them never exceeds the grant. As long as every response could
be posted it is the grant up to what functions in progress hold, and they hold nothing when none
is in progress. The target never has more requests to answer than it granted. -/
theorem credit_shared (hsize : rqSize < 2^31)
    (hrun : Run (step hca target hostBigEndian) (Exact hostBigEndian)
      (State.login target rqSize) s) :
    totalCredit s ≤ rqSize ∧
    (s.lost = [] → totalCredit s+inHand s = rqSize) ∧
    (s.lost = [] → s.ini.calls = [] → s.building = [] → s.sending = [] →
      totalCredit s = rqSize) ∧
    unanswered s ≤ rqSize := by
  have h : Balanced hostBigEndian rqSize s := by
    apply hrun.invariant (I := Balanced hostBigEndian rqSize) (balanced_login target hsize)
    exact fun s e s' hs hok hstep => hs.step hsize hok hstep
  have htotal := h.total_add hsize
  have hnonneg := h.inHand_nonneg hsize
  refine ⟨by omega, ?_, ?_, ?_⟩
  · intro hlost
    rw [hlost] at htotal
    simpa using htotal
  · intro hlost hcalls hbuilding hsending
    rw [hlost, inHand_quiet hcalls hbuilding hsending] at htotal
    simpa using htotal
  · have hbound := h.bound
    have hlength := length_le_rspCredit h.built
    have hbuilding := length_le_buildingCredit h.counted
    unfold unanswered
    omega

end

/-- A command is sent in three sections and delivered. -/
def sends (id : ℕ) : List Event :=
  [.initiator (.queuecommand (noData id)), .initiator (.resume 0), .initiator (.resume 0),
    .deliverRequest false false id fun _ => 0]

instance (reqLimDelta mask : BitVec 32) : Decidable (Kept reqLimDelta mask) :=
  inferInstanceAs (Decidable (if isLow mask then _ else _))

def exactly (hostBigEndian : Bool) (s : State) : Event → Bool
  | .exchange k i => hostBigEndian ||
      (s.building[k]?).all fun b => (b.masks[i]?).all fun mask => Kept s.tgt.reqLimDelta mask
  | _ => true

theorem exactly_iff (hostBigEndian : Bool) (s : State) (e : Event) :
    exactly hostBigEndian s e = true ↔ Exact hostBigEndian s e := by
  cases e with
  | exchange k i => cases hostBigEndian <;> simp [exactly, Exact, Option.all_eq_true]
  | _ => simp [exactly, Exact]

instance (hostBigEndian : Bool) (s : State) (e : Event) : Decidable (Exact hostBigEndian s e) :=
  decidable_of_iff _ (exactly_iff hostBigEndian s e)

/-- The response to the only request is posted, delivered and handled. -/
def finishes : List Event :=
  [.built 0, .postSend 0 true, .deliverResponse 0, .initiator (.resume 0)]

/-- Two commands are sent. The target aborts the first; the response to the second returns
the credit of both. -/
theorem credit_shared_after_abort : ∃ s,
    Run (step willingHca smallTarget false) (Exact false) (State.login smallTarget 4) s ∧
      (s.ini.handled = [2] ∧ s.ini.ch.reqLim = 4) ∧ totalCredit s = 4 ∧ unanswered s ≤ 4 := by
  have h : Reaches (guarded (step willingHca smallTarget false) (Exact false))
      (sends 0++sends 1++[.queueResponse 0 false { aborted := true }, .queueResponse 0 true {},
        .exchange 0 0, .exchange 0 2, .exchange 0 0, .exchange 0 0]++finishes)
      (State.login smallTarget 4)
      (fun s => (s.ini.handled = [2] ∧ s.ini.ch.reqLim = 4) ∧ s.lost = [] ∧
        s.ini.calls.length = 0 ∧ s.building.length = 0 ∧ s.sending.length = 0) = true := by
    decide +kernel
  obtain ⟨s, hrun, hs⟩ := run_of_reaches h
  obtain ⟨hhandled, hlost, hcalls, hbuilding, hsending⟩ := of_decide_eq_true hs
  have hcredit := credit_shared (by decide) hrun
  have htotal := hcredit.2.2.1 hlost (List.length_eq_zero_iff.mp hcalls)
    (List.length_eq_zero_iff.mp hbuilding) (List.length_eq_zero_iff.mp hsending)
  exact ⟨s, hrun, hhandled, htotal, hcredit.2.2.2⟩

/-- The first command is aborted between the first and the second exchange of the response to
the second. No post has failed, nothing is in progress, and a unit of credit is gone. -/
theorem credit_lost_between_exchanges : ∃ s,
    AnyRun (step willingHca smallTarget false) (State.login smallTarget 4) s ∧
      s.lost = [] ∧ s.ini.calls.length = 0 ∧ s.building.length = 0 ∧ s.sending.length = 0 ∧
      totalCredit s = 3 := by
  have h : Reaches (step willingHca smallTarget false)
      (sends 0++sends 1++[.queueResponse 1 true {}, .exchange 0 0,
        .queueResponse 0 false { aborted := true }, .exchange 0 0, .exchange 0 0,
        .exchange 0 0]++finishes)
      (State.login smallTarget 4)
      (fun s => s.lost = [] ∧ s.ini.calls.length = 0 ∧ s.building.length = 0 ∧
        s.sending.length = 0 ∧ totalCredit s = 3) = true := by decide +kernel
  obtain ⟨s, hrun, hs⟩ := anyRun_of_reaches h
  exact ⟨s, hrun, of_decide_eq_true hs⟩

end IbSrp.CreditProtocol

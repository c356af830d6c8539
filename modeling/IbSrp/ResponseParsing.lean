import IbSrp.ByteBuffer
import IbSrp.TaskManagement

/-!
# Parsing an SRP_RSP in its receive buffer

`srp_process_rsp` gets a pointer into a receive buffer of `max_ti_iu_len` bytes and
reads the fields of the response where `struct srp_rsp` has them. Behind the 36
bytes of that structure are `resp_data_len` bytes of response data and then the
sense data. Both lengths come from the target, and neither is compared with the
size of the buffer or with the length of the message.

`reads` lists the byte ranges of the buffer that a call reads, as offset and
length. The number of bytes to copy is a minimum of two `int`s that `memcpy` takes
as a `size_t`, so a negative number is a very large one.
-/
namespace IbSrp.ResponseParsing
open ByteBuffer Channel
open ChannelSystem (Sys smallTarget willingHca noData)
open TaskManagement (SrpRsp)

def scsiSenseBuffersize : ℕ := 96

/-- `sizeof (struct srp_rsp)`, the offset of `data` -/
def srpRspSize : ℕ := 36

/-- A number in the byte order of the host. -/
def loadHost (hostBigEndian : Bool) (n : ℕ) (m : Buffer) (off : ℕ) : ℕ :=
  if hostBigEndian then value (load m off n) else value (load m off n).reverse

section
variable (buf : Buffer)

def reqLimDelta : BitVec 32 := BitVec.ofNat 32 (loadBe 4 buf 4)

def tag (hostBigEndian : Bool) : ℕ := loadHost hostBigEndian 8 buf 8

def flags : Byte := buf 18

def status : Byte := buf 19

def dataOutResCnt : BitVec 32 := BitVec.ofNat 32 (loadBe 4 buf 20)

def dataInResCnt : BitVec 32 := BitVec.ofNat 32 (loadBe 4 buf 24)

def senseDataLen : BitVec 32 := BitVec.ofNat 32 (loadBe 4 buf 28)

def respDataLen : BitVec 32 := BitVec.ofNat 32 (loadBe 4 buf 32)

/-- `rsp->flags & SRP_RSP_FLAG_SNSVALID` -/
def snsvalid : Bool := (flags buf).getLsbD 1

/-- `min_t(int, sense_data_len, SCSI_SENSE_BUFFERSIZE)` as a `size_t` -/
def senseCount : ℕ := (min (senseDataLen buf).toInt scsiSenseBuffersize % 2^64).toNat

/-- The residual count that the flags announce, and the field it is read from. -/
def residual : Option (BitVec 32 × ℕ × ℕ) :=
  if (flags buf).getLsbD 5 then some (dataInResCnt buf, 24, 4)
  else if (flags buf).getLsbD 4 then some (-dataInResCnt buf, 24, 4)
  else if (flags buf).getLsbD 3 then some (dataOutResCnt buf, 20, 4)
  else if (flags buf).getLsbD 2 then some (-dataOutResCnt buf, 20, 4)
  else none

/-- The range of the receive buffer that is copied into the sense buffer. -/
def copiedSense : Option (ℕ × ℕ) :=
  if snsvalid buf then some (srpRspSize+(respDataLen buf).toNat, senseCount buf) else none

def commandReads : List (ℕ × ℕ) :=
  [(8, 8), (19, 1), (18, 1)]++(if snsvalid buf then [(32, 4), (28, 4)] else [])++
    (copiedSense buf).toList++((residual buf).map Prod.snd).toList++[(4, 4)]

end

/-- What `srp_process_rsp` changes outside of the command it completes. -/
structure Rx where
  ch : SrpRdmaCh
  tskMgmtStatus : Byte
  tskMgmtDone : ℕ

/-- A completed command; `sense` is the range of the receive buffer that is copied into its
sense buffer. -/
structure Completed where
  scmnd : ScsiCmnd
  result : Byte
  sense : Option (ℕ × ℕ)
  resid : Option (BitVec 32)

structure Processed where
  rx : Rx
  completed : Option Completed := none
  reads : List (ℕ × ℕ)

section
variable (hca : Hca) (target : SrpTargetPort) (hostBigEndian : Bool)

/-- The request that a response is for, taken over from its slot. -/
def claimTag (tag : ℕ) (ch : SrpRdmaCh) : Option ScsiCmnd × SrpRdmaCh :=
  if srpTagIdx tag < target.reqRingSize then srpClaimReq (srpTagIdx tag) none none ch
  else (none, ch)

def Rx.credited (rx : Rx) (buf : Buffer) : Rx :=
  { rx with ch := { rx.ch with reqLim := rx.ch.reqLim+reqLimDelta buf } }

def srpProcessRsp (buf : Buffer) (rx : Rx) : Processed :=
  if isTskMgmtTag (tag buf hostBigEndian) then
    let rx := { rx.credited buf with tskMgmtStatus := -1, tskMgmtDone := rx.tskMgmtDone+1 }
    if 4 ≤ (respDataLen buf).toNat then
      { rx := { rx with tskMgmtStatus := buf (srpRspSize+3) },
        reads := [(8, 8), (4, 4), (32, 4), (srpRspSize+3, 1)] }
    else { rx := rx, reads := [(8, 8), (4, 4), (32, 4)] }
  else
    match claimTag target (tag buf hostBigEndian) rx.ch with
    | (none, _) => { rx := rx.credited buf, reads := [(8, 8), (4, 4)] }
    | (some scmnd, ch) =>
        let ch := srpFreeReq hca target (srpTagIdx (tag buf hostBigEndian)) scmnd (reqLimDelta buf)
          ch
        { rx := { rx with
            ch := { ch with hostScribble := Function.update ch.hostScribble scmnd.id none } },
          completed := some ⟨scmnd, status buf, copiedSense buf, (residual buf).map Prod.fst⟩,
          reads := commandReads buf }

end

/-- The fields of the response that the task management model has. -/
def rspOf (hostBigEndian : Bool) (buf : Buffer) : SrpRsp :=
  { reqLimDelta := reqLimDelta buf, tag := tag buf hostBigEndian, flags := flags buf,
    respDataLen := respDataLen buf, data := fun i => buf (srpRspSize+i) }

/-- A task management response is processed as in the model of task management. -/
theorem srpProcessRsp_tskMgmt (hca : Hca) (target : SrpTargetPort) {hostBigEndian : Bool}
    {buf : Buffer} (h : isTskMgmtTag (tag buf hostBigEndian) = true) (s : TaskManagement.State) :
    (srpProcessRsp hca target hostBigEndian buf ⟨s.sys.ch, s.tskMgmtStatus, s.tskMgmtDone⟩).rx =
      let s' := s.processTskMgmtRsp (rspOf hostBigEndian buf)
      ⟨s'.sys.ch, s'.tskMgmtStatus, s'.tskMgmtDone⟩ := by
  simp only [srpProcessRsp, h, if_true]
  split_ifs with hresp <;>
    simp [TaskManagement.State.processTskMgmtRsp, rspOf, hresp, Rx.credited]

/-- The response to a command is processed as in the model of the channel, in which the
request is first claimed and then freed. -/
theorem srpProcessRsp_command (hca : Hca) (target : SrpTargetPort) {hostBigEndian : Bool}
    {buf : Buffer} (h : isTskMgmtTag (tag buf hostBigEndian) = false) (s : Sys) (answer : ℕ)
    (tskMgmtStatus : Byte) (tskMgmtDone : ℕ) :
    (srpProcessRsp hca target hostBigEndian buf ⟨s.ch, tskMgmtStatus, tskMgmtDone⟩).rx.ch =
      let s' := s.processRsp target (tag buf hostBigEndian) (reqLimDelta buf) answer
      match s'.claims[s.claims.length]? with
      | none => s'.ch
      | some c => (s'.freeClaim hca target s.claims.length c).ch := by
  simp only [srpProcessRsp, h, Sys.processRsp, claimTag, Bool.false_eq_true, if_false]
  by_cases hlt : srpTagIdx (tag buf hostBigEndian) < target.reqRingSize
  · simp only [if_pos hlt]
    cases hc : (s.ch.reqRing (srpTagIdx (tag buf hostBigEndian))).scmnd with
    | none => simp [ChannelSystem.srpClaimReq_none hc, Rx.credited]
    | some scmnd =>
        simp [ChannelSystem.srpClaimReq_some hc, Sys.claimed, Sys.claim, Sys.freeClaim]
  · simp [if_neg hlt, Rx.credited]

/-- The call reads bytes of the buffer only, and copies no more than the sense buffer has
room for. -/
structure InBuffer (len : ℕ) (p : Processed) : Prop where
  reads : ∀ r ∈ p.reads, r.2 = 0 ∨ r.1+r.2 ≤ len
  sense : ∀ c ∈ p.completed, ∀ r ∈ c.sense, r.2 ≤ scsiSenseBuffersize

/-- What the lengths in the response have to satisfy: the status of a task management
response lies in the buffer, and so does the sense data of a command, whose length is not
negative as an `int`. -/
def LengthsFit (target : SrpTargetPort) (hostBigEndian : Bool) (len : ℕ) (buf : Buffer)
    (ch : SrpRdmaCh) : Prop :=
  if isTskMgmtTag (tag buf hostBigEndian) then
    4 ≤ (respDataLen buf).toNat → srpRspSize+4 ≤ len
  else
    srpTagIdx (tag buf hostBigEndian) < target.reqRingSize →
      (ch.reqRing (srpTagIdx (tag buf hostBigEndian))).scmnd ≠ none → snsvalid buf →
      (senseDataLen buf).toNat < 2^31 ∧ (senseDataLen buf = 0 ∨
        srpRspSize+(respDataLen buf).toNat+min (senseDataLen buf).toNat scsiSenseBuffersize ≤ len)

section
variable {hca : Hca} {target : SrpTargetPort} {hostBigEndian : Bool} {buf : Buffer} {len : ℕ}

theorem senseCount_of_lt (h : (senseDataLen buf).toNat < 2^31) :
    senseCount buf = min (senseDataLen buf).toNat scsiSenseBuffersize := by
  unfold senseCount scsiSenseBuffersize
  rw [BitVec.toInt_eq_toNat_of_lt (by omega)]
  omega

/-- A length from 2^31 on is negative, and `memcpy` gets a count of almost 2^64. -/
theorem senseCount_of_ge (h : 2^31 ≤ (senseDataLen buf).toNat) :
    scsiSenseBuffersize < senseCount buf := by
  have hlt := (senseDataLen buf).isLt
  unfold senseCount scsiSenseBuffersize
  rw [BitVec.toInt_eq_toNat_cond, if_neg (by omega)]
  omega

theorem residual_in_header (r : ℕ × ℕ) (h : r ∈ (residual buf).map Prod.snd) :
    r.1+r.2 ≤ srpRspSize := by
  unfold residual at h
  split_ifs at h <;> simp at h <;> simp [← h, srpRspSize]

theorem claimTag_cases (target : SrpTargetPort) (tag : ℕ) (ch : SrpRdmaCh) :
    (srpTagIdx tag < target.reqRingSize ∧ (ch.reqRing (srpTagIdx tag)).scmnd ≠ none ∧
      ∃ scmnd ch', claimTag target tag ch = (some scmnd, ch')) ∨
    (¬ (srpTagIdx tag < target.reqRingSize ∧ (ch.reqRing (srpTagIdx tag)).scmnd ≠ none) ∧
      ∃ ch', claimTag target tag ch = (none, ch')) := by
  unfold claimTag
  by_cases hlt : srpTagIdx tag < target.reqRingSize
  · rw [if_pos hlt]
    cases hc : (ch.reqRing (srpTagIdx tag)).scmnd with
    | none => exact Or.inr ⟨fun h => h.2 rfl, _, ChannelSystem.srpClaimReq_none hc⟩
    | some scmnd =>
        exact Or.inl ⟨hlt, Option.some_ne_none _, _, _, ChannelSystem.srpClaimReq_some hc⟩
  · rw [if_neg hlt]
    exact Or.inr ⟨fun h => hlt h.1, _, rfl⟩

theorem sense_fits (buf : Buffer) (len : ℕ) :
    ((senseCount buf = 0 ∨ srpRspSize+(respDataLen buf).toNat+senseCount buf ≤ len) ∧
      senseCount buf ≤ scsiSenseBuffersize) ↔
    (senseDataLen buf).toNat < 2^31 ∧ (senseDataLen buf = 0 ∨
      srpRspSize+(respDataLen buf).toNat+min (senseDataLen buf).toNat scsiSenseBuffersize ≤
        len) := by
  by_cases hlt : (senseDataLen buf).toNat < 2^31
  · have hzero : senseDataLen buf = 0 ↔ (senseDataLen buf).toNat = 0 := by
      rw [← BitVec.toNat_inj]
      rfl
    rw [senseCount_of_lt hlt, hzero]
    unfold scsiSenseBuffersize
    omega
  · have hge := senseCount_of_ge (Nat.le_of_not_lt hlt)
    omega

/-- A task management response reads one byte behind the header, or none. -/
theorem inBuffer_tskMgmt (hlen : srpRspSize ≤ len) (rx : Rx)
    (htsk : isTskMgmtTag (tag buf hostBigEndian) = true) :
    InBuffer len (srpProcessRsp hca target hostBigEndian buf rx) ↔
      (4 ≤ (respDataLen buf).toNat → srpRspSize+4 ≤ len) := by
  unfold srpProcessRsp
  simp only [htsk, if_true]
  unfold srpRspSize at hlen ⊢
  by_cases hresp : 4 ≤ (respDataLen buf).toNat
  · simp only [hresp, if_true, forall_const]
    constructor
    · intro h
      have hlast := h.reads (36+3, 1) (by simp)
      simpa using hlast
    · intro h
      constructor
      · simp
        omega
      · simp
  · simp only [hresp, if_false, false_imp_iff, iff_true]
    constructor
    · simp
      omega
    · simp

theorem inBuffer_unmatched (hlen : srpRspSize ≤ len) {rx : Rx} {ch : SrpRdmaCh}
    (htsk : ¬ isTskMgmtTag (tag buf hostBigEndian) = true)
    (hclaim : claimTag target (tag buf hostBigEndian) rx.ch = (none, ch)) :
    InBuffer len (srpProcessRsp hca target hostBigEndian buf rx) := by
  unfold srpProcessRsp
  rw [if_neg htsk, hclaim]
  unfold srpRspSize at hlen
  constructor
  · simp
    omega
  · simp

/-- All that is read to complete a command but the sense data is in the header. -/
theorem commandReads_in (hlen : srpRspSize ≤ len) :
    (∀ r ∈ commandReads buf, r.2 = 0 ∨ r.1+r.2 ≤ len) ↔
      ∀ r ∈ copiedSense buf, r.2 = 0 ∨ r.1+r.2 ≤ len := by
  have hfixed : 36 ≤ len := hlen
  unfold commandReads
  constructor
  · intro h r hr
    apply h
    simp [Option.mem_def.mp hr]
  · intro h
    simp only [List.forall_mem_append]
    refine ⟨⟨⟨⟨?_, ?_⟩, ?_⟩, ?_⟩, ?_⟩
    · simp
      omega
    · split_ifs
      · simp
        omega
      · simp
    · exact fun r hr => h r (Option.mem_toList.mp hr)
    · intro r hr
      exact Or.inr ((residual_in_header r (Option.mem_toList.mp hr)).trans hlen)
    · simp
      omega

/-- The response to a command reads its sense data behind the header. -/
theorem inBuffer_completed (hlen : srpRspSize ≤ len) {rx : Rx} {scmnd : ScsiCmnd} {ch : SrpRdmaCh}
    (htsk : ¬ isTskMgmtTag (tag buf hostBigEndian) = true)
    (hclaim : claimTag target (tag buf hostBigEndian) rx.ch = (some scmnd, ch)) :
    InBuffer len (srpProcessRsp hca target hostBigEndian buf rx) ↔ (snsvalid buf = true →
      (senseDataLen buf).toNat < 2^31 ∧ (senseDataLen buf = 0 ∨ srpRspSize+
        (respDataLen buf).toNat+min (senseDataLen buf).toNat scsiSenseBuffersize ≤ len)) := by
  have hreads : (srpProcessRsp hca target hostBigEndian buf rx).reads = commandReads buf := by
    simp only [srpProcessRsp, if_neg htsk, hclaim]
  have hcompleted : (srpProcessRsp hca target hostBigEndian buf rx).completed =
      some ⟨scmnd, status buf, copiedSense buf, (residual buf).map Prod.fst⟩ := by
    simp only [srpProcessRsp, if_neg htsk, hclaim]
  have hiff : InBuffer len (srpProcessRsp hca target hostBigEndian buf rx) ↔
      ∀ r ∈ copiedSense buf, (r.2 = 0 ∨ r.1+r.2 ≤ len) ∧ r.2 ≤ scsiSenseBuffersize := by
    constructor
    · intro h r hr
      have hin := h.reads
      rw [hreads, commandReads_in hlen] at hin
      exact ⟨hin r hr, h.sense _ hcompleted r hr⟩
    · intro h
      constructor
      · rw [hreads, commandReads_in hlen]
        exact fun r hr => (h r hr).1
      · intro c hc r hr
        rw [hcompleted] at hc
        cases hc
        exact (h r hr).2
  rw [hiff, ← sense_fits]
  unfold copiedSense
  cases hsns : snsvalid buf <;> simp

/-- A response is parsed within its buffer if and only if its lengths fit. -/
theorem response_parsed_in_buffer (hca : Hca) (target : SrpTargetPort) (hostBigEndian : Bool)
    (buf : Buffer) (rx : Rx) (len : ℕ) (hlen : srpRspSize ≤ len) :
    InBuffer len (srpProcessRsp hca target hostBigEndian buf rx) ↔
      LengthsFit target hostBigEndian len buf rx.ch := by
  unfold LengthsFit
  by_cases htsk : isTskMgmtTag (tag buf hostBigEndian) = true
  · rw [if_pos htsk]
    exact inBuffer_tskMgmt hlen rx htsk
  · rw [if_neg htsk]
    rcases claimTag_cases target (tag buf hostBigEndian) rx.ch with
      ⟨hidx, hbusy, scmnd, ch, hclaim⟩ | ⟨hnone, ch, hclaim⟩
    · rw [inBuffer_completed hlen htsk hclaim]
      exact ⟨fun h _ _ => h, fun h => h hidx hbusy⟩
    · constructor
      · exact fun _ hidx hbusy => (hnone ⟨hidx, hbusy⟩).elim
      · exact fun _ => inBuffer_unmatched hlen htsk hclaim

end

/-- A response to the command in slot 0 with sense data. -/
def senseRsp (senseLen respLen : ℕ) : Buffer :=
  store (store (store (fun _ => 0) 18 [2]) 28 (bigEndian 4 senseLen)) 32 (bigEndian 4 respLen)

/-- A channel with a command in slot 0. -/
def busyRx : Rx where
  ch := (SrpRdmaCh.login smallTarget 4).setReq 0 { scmnd := some (noData 7) }
  tskMgmtStatus := 0
  tskMgmtDone := 0

theorem response_parsed_in_buffer_sense :
    srpRspSize ≤ 64 ∧
      InBuffer 64 (srpProcessRsp willingHca smallTarget false (senseRsp 18 4) busyRx) := by
  refine ⟨by decide, (response_parsed_in_buffer _ _ _ _ _ 64 (by decide)).mpr ?_⟩
  unfold LengthsFit
  rw [if_neg (by decide)]
  intro _ _ _
  decide

/-- In a buffer of 64 bytes: sense data behind 65536 bytes of response data is read beyond
the buffer, and for a sense length of 2^31 almost 2^64 bytes are copied. -/
theorem response_parsed_beyond_buffer :
    ¬ InBuffer 64 (srpProcessRsp willingHca smallTarget false (senseRsp 18 (2^16)) busyRx) ∧
      ¬ InBuffer 64 (srpProcessRsp willingHca smallTarget false (senseRsp (2^31) 0) busyRx) := by
  constructor
  · intro h
    exact absurd (h.reads (36+2^16, 18) (by decide)) (by decide)
  · intro h
    exact absurd (h.sense _ rfl (36, 2^64-2^31) (by decide)) (by decide)

end IbSrp.ResponseParsing

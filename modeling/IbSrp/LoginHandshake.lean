import IbSrp.AclNames
import IbSrp.CommandExchange
import IbSrp.TargetOptions

/-!
# The login of a channel

`srp_send_req` puts an SRP_LOGIN_REQ into the private data of a connection request. It asks
for requests of up to `max_iu_len` bytes and names both ports by 16 bytes each, of which the
older drafts of the protocol have the halves in the opposite order. `srpt_cm_req_recv`
checks the length, the names and the list of admitted initiators, and answers with an
SRP_LOGIN_RSP or an SRP_LOGIN_REJ. Note the order of its checks: other channels of the
initiator are closed before the name of the target and the admission are looked at.
`srp_cm_rep_handler` takes over what the reply grants.

The receive buffers of a channel are allocated after its first login and kept when it
reconnects, so they have the size that was granted first. Rings, queue pairs and the rest
of the connection are in `ChannelConnection` and `ChannelRelease`; here are the contents of
the messages and what both sides conclude from them.
-/
namespace IbSrp.LoginHandshake
open ByteBuffer Channel LabelledRuns AclNames
open CommandGather (maxIuLen)
open TargetOptions (srpRev10IbIoClass)
open TargetChannel (SrptRdmaCh SrpCmdRsp srptBuildCmdRsp)

/-- What `srp_send_req` reads of the target and of the host. -/
structure Identity where
  idExt : BitVec 64
  iocGuid : BitVec 64
  initiatorExt : BitVec 64
  interfaceId : BitVec 64
  nodeGuid : BitVec 64
  ioClass : ℤ
  topspinWorkarounds : Bool
deriving DecidableEq, Repr

namespace Identity

/-- `srp_target_is_topspin` -/
def isTopspin (t : Identity) : Bool :=
  let oui := (bigEndian 8 t.iocGuid.toNat).take 3
  t.topspinWorkarounds && (oui = [0x00, 0x05, 0xad] || oui = [0x00, 0x1b, 0x0d])

def initiatorPortId (t : Identity) : List Byte :=
  if t.isTopspin then List.replicate 8 0++bigEndian 8 t.nodeGuid.toNat
  else if t.ioClass = srpRev10IbIoClass then
    bigEndian 8 t.interfaceId.toNat++bigEndian 8 t.initiatorExt.toNat
  else bigEndian 8 t.initiatorExt.toNat++bigEndian 8 t.interfaceId.toNat

def targetPortId (t : Identity) : List Byte :=
  if t.ioClass = srpRev10IbIoClass then bigEndian 8 t.iocGuid.toNat++bigEndian 8 t.idExt.toNat
  else bigEndian 8 t.idExt.toNat++bigEndian 8 t.iocGuid.toNat

end Identity

def srpLoginReq : Byte := 0x00
def srpLoginRsp : Byte := 0xc0
def srpLoginRej : Byte := 0xc2

def srpBufFormatDirect : ℕ := 1 <<< 1
def srpBufFormatIndirect : ℕ := 1 <<< 2
def srpBufFormatImm : ℕ := 1 <<< 3

def srpMultichanSingle : Byte := 0
def srpMultichanMulti : Byte := 1

def srpMtchAction : Byte := 0x03

/-- The SRP_LOGIN_REQ of `srp_send_req`, in memory that has been cleared. -/
def srpSendReq (target : SrpTargetPort) (t : Identity) (multich : Bool) : Buffer :=
  let m : Buffer := store (fun _ => 0) 0 [srpLoginReq]
  let m := store m 16 (bigEndian 4 (maxIuLen target))
  let m := store m 24
    (bigEndian 2 (srpBufFormatDirect ||| srpBufFormatIndirect ||| srpBufFormatImm))
  let m := store m 26 [if multich then srpMultichanMulti else srpMultichanSingle]
  let m := store m 32 t.initiatorPortId
  store m 48 t.targetPortId

/-- The module parameters of the target. -/
structure Srpt where
  maxReqSize : ℕ
  serviceGuid : BitVec 64

/-- A port of the target with the names of its ACLs. -/
structure SrptPort where
  port : ℕ
  enabled : Bool
  maxRspSize : ℕ
  aclNames : List (List Char)

/-- How the calls of `srpt_cm_req_recv` end. A session that could not be created is handed to
`transport_deregister_session`, which is taken to return. -/
structure Calls where
  bufs : Bool := true
  ch : Bool := true
  ring : Bool := true
  createChIb : ℤ := 0
  rtr : ℤ := 0
  initSession : Bool := true
  sendRep : ℤ := 0

structure Listed where
  iPortId : List Byte
  tPortId : List Byte
  port : ℕ
  active : Bool
deriving DecidableEq

structure SrptLogin where
  ch : SrptRdmaCh
  rqSize : ℕ
  rspSize : ℕ
  sessName : List Char

inductive Answer where
  | none
  | rej (m : Buffer)
  | rep (m : Buffer) (login : SrptLogin)

structure Handled where
  ret : ℤ
  answer : Answer
  chs : List Listed

def einval : ℤ := 22
def enomem : ℤ := 12

def srptRqSize : ℕ := 128

def rejInsufficientResources : ℕ := 0x00010001
def rejReqItIuLengthTooLarge : ℕ := 0x00010002
def rejUnableAssociateChannel : ℕ := 0x00010003
def rejChannelLimitReached : ℕ := 0x00010006

def multichanNoChan : Byte := 0
def multichanTerminated : Byte := 1
def multichanMaintained : Byte := 2

def putRej (req : Buffer) (reason : ℕ) : Buffer :=
  let m : Buffer := store (fun _ => 0) 4 (bigEndian 4 reason)
  let m := store m 0 [srpLoginRej]
  let m := store m 8 (load req 8 8)
  store m 24 (bigEndian 2 (srpBufFormatDirect ||| srpBufFormatIndirect))

def putRsp (req : Buffer) (rspFlags : Byte) : Buffer :=
  let m : Buffer := store (fun _ => 0) 26 [rspFlags]
  let m := store m 0 [srpLoginRsp]
  let m := store m 8 (load req 8 8)
  let m := store m 16 (load req 16 4)
  let m := store m 20 (load req 16 4)
  let m := store m 24 (bigEndian 2 (srpBufFormatDirect ||| srpBufFormatIndirect))
  store m 4 (bigEndian 4 srptRqSize)

theorem iuLen_ge {n maxReqSize : ℕ} (h : ¬ (maxReqSize < n ∨ n < 64)) : 64 ≤ n :=
  Nat.le_of_not_lt fun hlt => h (Or.inr hlt)

def isSingle (req : Buffer) : Bool := req 26 &&& srpMtchAction = srpMultichanSingle

/-- The existing channels that a login closes. -/
def replaces (port : SrptPort) (req : Buffer) (c : Listed) : Bool :=
  isSingle req && (c.iPortId = load req 32 16 && c.tPortId = load req 48 16 &&
    c.port = port.port && c.active)

def closeExisting (port : SrptPort) (req : Buffer) (chs : List Listed) : List Listed :=
  chs.map fun c => if replaces port req c then { c with active := false } else c

def rspFlags (port : SrptPort) (req : Buffer) (chs : List Listed) : Byte :=
  if isSingle req then
    if chs.any (replaces port req) then multichanTerminated else multichanNoChan
  else multichanMaintained

/-- The second half of `srpt_cm_req_recv`, from the check of the target port identifier. A
channel without ring or without ACL is rejected with result 0. -/
def srptSetUpCh (srpt : Srpt) (port : SrptPort) (calls : Calls) (stack : List Byte)
    (chs : List Listed) (req : Buffer) (flags : Byte) (itIuLen : ℕ) (hlen : 64 ≤ itIuLen) :
    Handled :=
  if load req 48 8 ≠ bigEndian 8 srpt.serviceGuid.toNat ∨
      load req 56 8 ≠ bigEndian 8 srpt.serviceGuid.toNat then
    ⟨-enomem, .rej (putRej req rejUnableAssociateChannel), chs⟩
  else if calls.ch = false then ⟨-enomem, .rej (putRej req rejInsufficientResources), chs⟩
  else if calls.ring = false then ⟨0, .rej (putRej req 0), chs⟩
  else if calls.createChIb ≠ 0 then
    ⟨calls.createChIb, .rej (putRej req rejInsufficientResources), chs⟩
  else if calls.rtr ≠ 0 then ⟨calls.rtr, .rej (putRej req rejInsufficientResources), chs⟩
  else if srptLookupAcl stack port.aclNames (load req 32 16) = false then
    ⟨0, .rej (putRej req rejChannelLimitReached), chs⟩
  else if calls.initSession = false then ⟨0, .rej (putRej req rejInsufficientResources), chs⟩
  else if calls.sendRep ≠ 0 then ⟨calls.sendRep, .rej (putRej req 0), chs⟩
  else
    ⟨0, .rep (putRsp req flags)
      { ch := { reqLim := BitVec.ofNat 32 srptRqSize, maxTiIuLen := itIuLen, maxTiIuLen_ge := hlen }
        rqSize := srptRqSize
        rspSize := port.maxRspSize
        sessName := sessName (load req 32 16) },
      chs++[⟨load req 32 16, load req 48 16, port.port, true⟩]⟩

def srptCmReqRecv (srpt : Srpt) (port : SrptPort) (calls : Calls) (stack : List Byte)
    (chs : List Listed) (req : Buffer) : Handled :=
  if calls.bufs = false then ⟨-enomem, .none, chs⟩
  else if h : srpt.maxReqSize < loadBe 4 req 16 ∨ loadBe 4 req 16 < 64 then
    ⟨-einval, .rej (putRej req rejReqItIuLengthTooLarge), chs⟩
  else if port.enabled = false then
    ⟨-einval, .rej (putRej req rejInsufficientResources), chs⟩
  else
    srptSetUpCh srpt port calls stack (closeExisting port req chs) req (rspFlags port req chs)
      (loadBe 4 req 16) (iuLen_ge h)

/-- What a login grants to a channel of the initiator. -/
structure Granted where
  maxTiIuLen : ℕ
  maxItIuLen : ℕ
  bufFmt : ℕ
  reqLim : BitVec 32
deriving DecidableEq, Repr

structure Host where
  canQueue : ℤ
  cmdPerLun : ℤ
deriving DecidableEq, Repr

/-- The first part of `srp_cm_rep_handler`; there is no result for another message. -/
def srpCmRepHandler (lrsp : Buffer) (host : Host) : Option (Granted × Host) :=
  if lrsp 0 = srpLoginRsp then
    let reqLim := BitVec.ofNat 32 (loadBe 4 lrsp 4)
    let canQueue := min (reqLim-BitVec.ofNat 32 srpTskMgmtSqSize).toInt host.canQueue
    some (⟨loadBe 4 lrsp 20, loadBe 4 lrsp 16, loadBe 2 lrsp 24, reqLim⟩,
      ⟨canQueue, min canQueue host.cmdPerLun⟩)
  else none

section
variable (target : SrpTargetPort) (t : Identity) (multich : Bool)

theorem initiatorPortId_length : t.initiatorPortId.length = 16 := by
  unfold Identity.initiatorPortId
  split_ifs <;> simp

theorem targetPortId_length : t.targetPortId.length = 16 := by
  unfold Identity.targetPortId
  split_ifs <;> simp

theorem load_initiatorPortId : load (srpSendReq target t multich) 32 16 = t.initiatorPortId := by
  have hlen := initiatorPortId_length t
  unfold srpSendReq
  simp only
  rw [load_store_of_disjoint _ _ (Or.inl (by decide)), load_store _ _ (by omega),
    List.take_of_length_le (by omega)]

theorem load_targetPortId : load (srpSendReq target t multich) 48 16 = t.targetPortId := by
  have hlen := targetPortId_length t
  unfold srpSendReq
  simp only
  rw [load_store _ _ (by omega), List.take_of_length_le (by omega)]

theorem load_iuLen : load (srpSendReq target t multich) 16 4 = bigEndian 4 (maxIuLen target) := by
  have hlen := bigEndian_length 4 (maxIuLen target)
  unfold srpSendReq
  simp only
  rw [load_store_of_disjoint _ _ (Or.inl (by decide)),
    load_store_of_disjoint _ _ (Or.inl (by decide)),
    load_store_of_disjoint _ _ (Or.inl (by decide)),
    load_store_of_disjoint _ _ (Or.inl (by decide)), load_store _ _ hlen.ge,
    List.take_of_length_le hlen.le]

theorem loadBe_iuLen (hlt : maxIuLen target < 2^32) :
    loadBe 4 (srpSendReq target t multich) 16 = maxIuLen target := by
  rw [loadBe, load_iuLen, value_bigEndian]
  exact Nat.mod_eq_of_lt hlt

end

theorem bigEndian_inj (v w : BitVec 64) :
    bigEndian 8 v.toNat = bigEndian 8 w.toNat ↔ v = w := by
  constructor
  · intro heq
    have hvalue := congrArg value heq
    have hv : v.toNat < 256^8 := v.isLt
    have hw : w.toNat < 256^8 := w.isLt
    rw [value_bigEndian, value_bigEndian, Nat.mod_eq_of_lt hv, Nat.mod_eq_of_lt hw] at hvalue
    exact BitVec.eq_of_toNat_eq hvalue
  · exact fun heq => heq ▸ rfl

/-- Both halves of the target port identifier have to be the GUID of the service, so their
order does not matter. -/
theorem names_service (target : SrpTargetPort) (t : Identity) (multich : Bool)
    (guid : BitVec 64) :
    ¬ (load (srpSendReq target t multich) 48 8 ≠ bigEndian 8 guid.toNat ∨
        load (srpSendReq target t multich) 56 8 ≠ bigEndian 8 guid.toNat) ↔
      t.idExt = guid ∧ t.iocGuid = guid := by
  have hload := load_targetPortId target t multich
  rw [load_add _ _ 8 8] at hload
  unfold Identity.targetPortId at hload
  rw [not_or, not_not, not_not]
  split_ifs at hload with hrev
  · have hparts := List.append_inj hload (by simp)
    rw [hparts.1, hparts.2, bigEndian_inj, bigEndian_inj, and_comm]
  · have hparts := List.append_inj hload (by simp)
    rw [hparts.1, hparts.2, bigEndian_inj, bigEndian_inj]

/-- The checks of the second half. -/
structure SetsUp (srpt : Srpt) (port : SrptPort) (calls : Calls) (stack : List Byte)
    (req : Buffer) : Prop where
  guid : ¬ (load req 48 8 ≠ bigEndian 8 srpt.serviceGuid.toNat ∨
    load req 56 8 ≠ bigEndian 8 srpt.serviceGuid.toNat)
  ch : calls.ch ≠ false
  ring : calls.ring ≠ false
  createChIb : calls.createChIb = 0
  rtr : calls.rtr = 0
  acl : srptLookupAcl stack port.aclNames (load req 32 16) ≠ false
  initSession : calls.initSession ≠ false
  sendRep : calls.sendRep = 0

structure Accepts (srpt : Srpt) (port : SrptPort) (calls : Calls) (stack : List Byte)
    (req : Buffer) : Prop extends SetsUp srpt port calls stack req where
  bufs : calls.bufs ≠ false
  len : ¬ (srpt.maxReqSize < loadBe 4 req 16 ∨ loadBe 4 req 16 < 64)
  enabled : port.enabled ≠ false

section
variable {srpt : Srpt} {port : SrptPort} {calls : Calls} {stack : List Byte} {chs : List Listed}
  {req : Buffer}

def srptLogin (port : SrptPort) (req : Buffer) (hlen : 64 ≤ loadBe 4 req 16) : SrptLogin where
  ch :=
    { reqLim := BitVec.ofNat 32 srptRqSize, maxTiIuLen := loadBe 4 req 16, maxTiIuLen_ge := hlen }
  rqSize := srptRqSize
  rspSize := port.maxRspSize
  sessName := sessName (load req 32 16)

theorem rep_of_accepts (h : Accepts srpt port calls stack req) :
    (srptCmReqRecv srpt port calls stack chs req).answer =
      .rep (putRsp req (rspFlags port req chs)) (srptLogin port req (iuLen_ge h.len)) := by
  unfold srptCmReqRecv srptSetUpCh
  rw [if_neg h.bufs, dif_neg h.len, if_neg h.enabled, if_neg h.guid, if_neg h.ch, if_neg h.ring,
    if_neg (not_not_intro h.createChIb), if_neg (not_not_intro h.rtr), if_neg h.acl,
    if_neg h.initSession, if_neg (not_not_intro h.sendRep)]
  rfl

theorem setsUp_of_rep {flags : Byte} {itIuLen : ℕ} {hlen : 64 ≤ itIuLen} {m : Buffer}
    {login : SrptLogin}
    (h : (srptSetUpCh srpt port calls stack chs req flags itIuLen hlen).answer = .rep m login) :
    SetsUp srpt port calls stack req := by
  unfold srptSetUpCh at h
  split_ifs at h with hguid hch hring hcreate hrtr hacl hsession hsend
  exact ⟨hguid, hch, hring, not_not.mp hcreate, not_not.mp hrtr, hacl, hsession,
    not_not.mp hsend⟩

theorem accepts_of_rep {m : Buffer} {login : SrptLogin}
    (h : (srptCmReqRecv srpt port calls stack chs req).answer = .rep m login) :
    Accepts srpt port calls stack req := by
  unfold srptCmReqRecv at h
  split_ifs at h with hbufs hlen henabled
  exact ⟨setsUp_of_rep h, hbufs, hlen, henabled⟩

end

section
variable {target : SrpTargetPort} (hlt : maxIuLen target < 2^32) (t : Identity) (multich : Bool)
  (srpt : Srpt) {port : SrptPort} (hnames : ∀ n ∈ port.aclNames, WellFormed n) {stack : List Byte}
  (hstack : stack.length = 16)
include hlt hnames hstack

/-- What the checks come to for a login of this initiator, when the resources are there. -/
theorem accepts_iff : Accepts srpt port {} stack (srpSendReq target t multich) ↔
    maxIuLen target ≤ srpt.maxReqSize ∧ port.enabled = true ∧ t.idExt = srpt.serviceGuid ∧
      t.iocGuid = srpt.serviceGuid ∧
      ∃ n ∈ port.aclNames, Numerals.value 16 (skipMark n) = value t.initiatorPortId := by
  have hlen := loadBe_iuLen target t multich hlt
  have hguid := names_service target t multich srpt.serviceGuid
  have hacl := srptLookupAcl_iff hstack (initiatorPortId_length t) hnames
  have hmin : 64 ≤ maxIuLen target := by
    unfold maxIuLen srpCmdSize srpIndirectBufSize
    omega
  constructor
  · intro h
    have hids := hguid.mp h.guid
    have hnot := h.len
    have hadmitted := h.acl
    rw [hlen] at hnot
    rw [load_initiatorPortId, Bool.ne_false_iff] at hadmitted
    exact ⟨by omega, Bool.ne_false_iff.mp h.enabled, hids.1, hids.2, hacl.mp hadmitted⟩
  · rintro ⟨hmax, henabled, hid, hioc, hname⟩
    constructor
    · constructor
      · exact hguid.mpr ⟨hid, hioc⟩
      · exact Bool.noConfusion
      · exact Bool.noConfusion
      · rfl
      · rfl
      · rw [load_initiatorPortId, Bool.ne_false_iff]
        exact hacl.mpr hname
      · exact Bool.noConfusion
      · rfl
    · exact Bool.noConfusion
    · rw [hlen]
      omega
    · exact Bool.ne_false_iff.mpr henabled

/-- When the resources are there, a login of this initiator is accepted exactly if its requests
fit in the buffers of the target, the port is enabled, both halves of the target port
identifier are the GUID of the service and one of the ACLs has the number of the initiator
port identifier as its name. -/
theorem login_accepted_iff (chs : List Listed) :
    (∃ m login, (srptCmReqRecv srpt port {} stack chs (srpSendReq target t multich)).answer =
        .rep m login) ↔
      maxIuLen target ≤ srpt.maxReqSize ∧ port.enabled = true ∧ t.idExt = srpt.serviceGuid ∧
        t.iocGuid = srpt.serviceGuid ∧
        ∃ n ∈ port.aclNames, Numerals.value 16 (skipMark n) = value t.initiatorPortId := by
  rw [← accepts_iff hlt t multich srpt hnames hstack]
  constructor
  · rintro ⟨m, login, hrep⟩
    exact accepts_of_rep hrep
  · exact fun h => ⟨_, _, rep_of_accepts h⟩

end

/-- A target with a default request size and one ACL. -/
def defaultSrpt : Srpt := ⟨4148, 0x0002c90300000001⟩

def oneAcl : SrptPort := ⟨1, true, 256, ["0x00000000000000000002c90300000011".toList]⟩

def oneInitiator : Identity :=
  ⟨0x0002c90300000001, 0x0002c90300000001, 0, 0x0002c90300000011, 0x0002c90300000010,
    TargetOptions.srpRev16aIbIoClass, true⟩

theorem wellFormed_oneAcl : ∀ n ∈ oneAcl.aclNames, WellFormed n := by
  intro n hn
  rw [List.mem_singleton.mp hn]
  constructor
  case digits => exact List.all_eq_true.mp (by decide)
  all_goals decide

theorem login_accepted_default : ∃ m login,
    (srptCmReqRecv defaultSrpt oneAcl {} (List.replicate 16 0xff) []
      (srpSendReq ChannelSystem.smallTarget oneInitiator true)).answer = .rep m login := by
  apply (login_accepted_iff (by decide) oneInitiator true defaultSrpt wellFormed_oneAcl
    (by simp) []).mpr
  exact ⟨by decide, rfl, rfl, rfl, _, List.mem_singleton_self _, by decide⟩

/-- The name of the session is a name under which an ACL admits this initiator and no other. -/
theorem session_name_admits {iPortId iPortId' stack : List Byte} (hlen : iPortId.length = 16)
    (hlen' : iPortId'.length = 16) (hstack : stack.length = 16) :
    srptLookupAcl stack [sessName iPortId] iPortId' = true ↔ iPortId' = iPortId := by
  have hname : ∀ n ∈ [sessName iPortId], WellFormed n := by
    intro n hn
    rw [List.mem_singleton.mp hn]
    exact wellFormed_sessName iPortId
  rw [srptLookupAcl_iff hstack hlen' hname]
  simp only [List.mem_singleton, exists_eq_left, value_sessName hlen]
  constructor
  · intro heq
    rw [← bigEndian_value iPortId', ← bigEndian_value iPortId, hlen, hlen', heq]
  · exact fun heq => heq ▸ rfl

theorem session_name_admits_one :
    srptLookupAcl (List.replicate 16 0xff) [sessName oneInitiator.initiatorPortId]
      oneInitiator.initiatorPortId = true :=
  (session_name_admits (initiatorPortId_length _) (initiatorPortId_length _) (by simp)).mpr rfl

section
variable (req : Buffer) (flags : Byte)

theorem putRsp_opcode : putRsp req flags 0 = srpLoginRsp := by
  unfold putRsp
  rw [store_of_disjoint _ _ (Or.inl (by decide)), store_of_disjoint _ _ (Or.inl (by decide)),
    store_of_disjoint _ _ (Or.inl (by decide)), store_of_disjoint _ _ (Or.inl (by decide)),
    store_of_disjoint _ _ (Or.inl (by decide)), store_head]

theorem putRsp_reqLimDelta : loadBe 4 (putRsp req flags) 4 = srptRqSize := by
  unfold putRsp
  simp only
  rw [loadBe_store_bigEndian]
  rfl

theorem putRsp_bufFmt :
    loadBe 2 (putRsp req flags) 24 = srpBufFormatDirect ||| srpBufFormatIndirect := by
  unfold putRsp
  simp only
  rw [loadBe, load_store_of_disjoint _ _ (Or.inr (by decide))]
  exact loadBe_store_bigEndian _ _ _ _

theorem putRsp_maxTiIuLen : loadBe 4 (putRsp req flags) 20 = loadBe 4 req 16 := by
  unfold putRsp
  simp only
  rw [loadBe, load_store_of_disjoint _ _ (Or.inr (by decide)),
    load_store_of_disjoint _ _ (Or.inl (by decide)), load_store _ _ (by simp),
    List.take_of_length_le (by simp)]
  rfl

theorem putRsp_maxItIuLen : loadBe 4 (putRsp req flags) 16 = loadBe 4 req 16 := by
  unfold putRsp
  simp only
  rw [loadBe, load_store_of_disjoint _ _ (Or.inr (by decide)),
    load_store_of_disjoint _ _ (Or.inl (by decide)),
    load_store_of_disjoint _ _ (Or.inl (by decide)), load_store _ _ (by simp),
    List.take_of_length_le (by simp)]
  rfl

theorem srpCmRepHandler_putRsp (host : Host) :
    srpCmRepHandler (putRsp req flags) host =
      some (⟨loadBe 4 req 16, loadBe 4 req 16, srpBufFormatDirect ||| srpBufFormatIndirect,
          BitVec.ofNat 32 srptRqSize⟩,
        ⟨min 127 host.canQueue, min (min 127 host.canQueue) host.cmdPerLun⟩) := by
  unfold srpCmRepHandler
  rw [if_pos (putRsp_opcode req flags), putRsp_reqLimDelta, putRsp_bufFmt, putRsp_maxTiIuLen,
    putRsp_maxItIuLen]
  rfl

end

/-- A channel of the initiator, with the target's end of its last login. -/
structure Peer where
  granted : Option Granted := none
  rxSize : Option ℕ := none
  login : Option SrptLogin := none

structure State where
  host : Host
  chs : List Peer

/-- A login attempt for channel `k`: what the target is like at that time, and whether the
initiator can allocate the buffers of the channel. -/
structure Attempt where
  k : ℕ
  multich : Bool
  port : SrptPort
  calls : Calls
  stack : List Byte
  listed : List Listed
  iuBufs : Bool

section
variable (srpt : Srpt) (target : SrpTargetPort) (t : Identity)

/-- The buffers of a channel are allocated once. -/
def Peer.granting (c : Peer) (iuBufs : Bool) (g : Granted) (login : SrptLogin) : Peer where
  granted := some g
  rxSize := c.rxSize.or (if iuBufs then some g.maxTiIuLen else none)
  login := some login

def attempt (s : State) (e : Attempt) : Option State :=
  match s.chs[e.k]? with
  | none => none
  | some c =>
      match (srptCmReqRecv srpt e.port e.calls e.stack e.listed
        (srpSendReq target t e.multich)).answer with
      | .none => some s
      | .rej _ => some s
      | .rep m login =>
          match srpCmRepHandler m s.host with
          | none => some s
          | some (g, host) => some ⟨host, s.chs.set e.k (c.granting e.iuBufs g login)⟩

variable {srpt target t}

/-- Either nothing changes, or the channel has been granted what it asked for. -/
theorem attempt_cases {s s' : State} {e : Attempt} (hstep : attempt srpt target t s e = some s') :
    s' = s ∨ ∃ c, s.chs[e.k]? = some c ∧
      ∃ h : Accepts srpt e.port e.calls e.stack (srpSendReq target t e.multich),
        let req := srpSendReq target t e.multich
        let g : Granted := ⟨loadBe 4 req 16, loadBe 4 req 16,
          srpBufFormatDirect ||| srpBufFormatIndirect, BitVec.ofNat 32 srptRqSize⟩
        s' = ⟨⟨min 127 s.host.canQueue, min (min 127 s.host.canQueue) s.host.cmdPerLun⟩,
          s.chs.set e.k (c.granting e.iuBufs g (srptLogin e.port req (iuLen_ge h.len)))⟩ := by
  unfold attempt at hstep
  cases hk : s.chs[e.k]? with
  | none =>
      rw [hk] at hstep
      cases hstep
  | some c =>
      rw [hk] at hstep
      simp only at hstep
      cases hanswer : (srptCmReqRecv srpt e.port e.calls e.stack e.listed
          (srpSendReq target t e.multich)).answer with
      | none =>
          rw [hanswer] at hstep
          cases hstep
          exact Or.inl rfl
      | rej m =>
          rw [hanswer] at hstep
          cases hstep
          exact Or.inl rfl
      | rep m login =>
          have h := accepts_of_rep hanswer
          rw [rep_of_accepts h] at hstep
          simp only [srpCmRepHandler_putRsp] at hstep
          cases hstep
          exact Or.inr ⟨c, rfl, h, rfl⟩

/-- What holds of a channel after any number of logins: both sides have the length that the
initiator asks for, which the target has room for. -/
structure Agreed (srpt : Srpt) (target : SrpTargetPort) (c : Peer) : Prop where
  granted : ∀ g, c.granted = some g → maxIuLen target ≤ srpt.maxReqSize ∧
    g = ⟨maxIuLen target, maxIuLen target, srpBufFormatDirect ||| srpBufFormatIndirect,
      BitVec.ofNat 32 srptRqSize⟩ ∧
    ∃ login, c.login = some login ∧ login.ch.maxTiIuLen = maxIuLen target ∧
      login.ch.reqLim = BitVec.ofNat 32 srptRqSize ∧ login.rqSize = srptRqSize
  rxSize : ∀ n, c.rxSize = some n → n = maxIuLen target

theorem Agreed.granting (hlt : maxIuLen target < 2^32) {c : Peer} (h : Agreed srpt target c)
    {port : SrptPort} {calls : Calls} {stack : List Byte} {multich : Bool}
    (haccepts : Accepts srpt port calls stack (srpSendReq target t multich)) (iuBufs : Bool) :
    Agreed srpt target (c.granting iuBufs
      ⟨loadBe 4 (srpSendReq target t multich) 16, loadBe 4 (srpSendReq target t multich) 16,
        srpBufFormatDirect ||| srpBufFormatIndirect, BitVec.ofNat 32 srptRqSize⟩
      (srptLogin port (srpSendReq target t multich) (iuLen_ge haccepts.len))) := by
  have hlen := loadBe_iuLen target t multich hlt
  have hnot := haccepts.len
  constructor
  · intro g hg
    cases hg
    rw [hlen] at hnot
    exact ⟨by omega, by rw [hlen], _, rfl, hlen, rfl, rfl⟩
  · intro n hn
    simp only [Peer.granting, hlen] at hn
    cases hrx : c.rxSize with
    | none =>
        rw [hrx, Option.none_or] at hn
        split_ifs at hn
        exact (Option.some.inj hn).symm
    | some size =>
        rw [hrx, Option.some_or] at hn
        exact h.rxSize n (hrx.trans hn)

structure Sound (srpt : Srpt) (target : SrpTargetPort) (s : State) : Prop where
  agreed : ∀ c ∈ s.chs, Agreed srpt target c
  canQueue : ∀ c ∈ s.chs, c.granted ≠ none → s.host.canQueue ≤ 127

theorem Sound.attempt (hlt : maxIuLen target < 2^32) {s s' : State} {e : Attempt}
    (h : Sound srpt target s) (hstep : attempt srpt target t s e = some s') :
    Sound srpt target s' := by
  cases attempt_cases hstep with
  | inl hsame => exact hsame ▸ h
  | inr hgrant =>
      obtain ⟨c, hk, haccepts, rfl⟩ := hgrant
      constructor
      · intro c' hc'
        cases List.mem_or_eq_of_mem_set hc' with
        | inl hold => exact h.agreed c' hold
        | inr hnew =>
            rw [hnew]
            exact (h.agreed c (List.mem_of_getElem? hk)).granting hlt haccepts e.iuBufs
      · intro _ _ _
        exact min_le_left _ _

/-- `n` channels before their first login. -/
def State.initial (n : ℕ) (host : Host) : State := ⟨host, List.replicate n {}⟩

theorem sound_of_run (hlt : maxIuLen target < 2^32) {n : ℕ} {host : Host} {s : State}
    (hrun : AnyRun (attempt srpt target t) (State.initial n host) s) : Sound srpt target s := by
  apply hrun.invariant (I := Sound srpt target)
  · constructor
    · intro c hc
      rw [List.eq_of_mem_replicate hc]
      constructor <;> (intro _ h; cases h)
    · intro c hc hgranted
      rw [List.eq_of_mem_replicate hc] at hgranted
      exact absurd rfl hgranted
  · exact fun _ _ _ h _ hstep => h.attempt hlt hstep

/-- The target with what `srp_map_data` reads of the login. -/
def withGrant (target : SrpTargetPort) (g : Granted) : SrpTargetPort :=
  { target with bufFormatImm := g.bufFmt.testBit 3, maxItIuLen := g.maxItIuLen }

/-- The result of `srpt_build_cmd_rsp` -/
def cmdRspLen (rsp : SrpCmdRsp) : ℕ := TargetChannel.srpRspSize+rsp.senseData.length

theorem cmdRspLen_eq (ch : SrptRdmaCh) (delta : BitVec 32) (tag : ℕ) (status : Byte)
    (sense : List Byte) : cmdRspLen (srptBuildCmdRsp ch delta tag status sense) =
      36+min (ch.maxTiIuLen-36) sense.length := by
  unfold srptBuildCmdRsp cmdRspLen TargetChannel.srpRspSize
  by_cases hnil : sense = []
  · simp [hnil]
  · simp [hnil]

/-- The sense data of the core always fits in the buffer of a response if the buffer has room
for all of it or for what the initiator can take. -/
theorem forall_cmdRspLen_le_iff (ch : SrptRdmaCh) (size : ℕ) :
    (∀ delta tag status sense, sense.length ≤ 96 →
      cmdRspLen (srptBuildCmdRsp ch delta tag status sense) ≤ size) ↔
        min 132 ch.maxTiIuLen ≤ size := by
  have hge := ch.maxTiIuLen_ge
  constructor
  · intro h
    have hfull := h 0 0 0 (List.replicate 96 0) (by simp)
    rw [cmdRspLen_eq, List.length_replicate] at hfull
    omega
  · intro h delta tag status sense hlen
    rw [cmdRspLen_eq]
    omega

/-- A target without immediate data gets no immediate data. -/
theorem srpMapDataSge_withGrant {g : Granted} (himm : g.bufFmt.testBit 3 = false)
    (scmnd : ScsiCmnd) : CommandGather.srpMapDataSge (withGrant target g) scmnd = [] := by
  unfold CommandGather.srpMapDataSge SrpTargetPort.immediate withGrant
  simp only [himm]
  cases scmnd.sglist with
  | none => rfl
  | some scat => simp

theorem request_fits {g : Granted} (himm : g.bufFmt.testBit 3 = false) (hpos : 0 < target.cmdSgCnt)
    {hca : Hca} {scmnd : ScsiCmnd} {i : ℕ} {ch ch' : SrpRdmaCh} {layout : CmdLayout}
    (hmap : srpMapData hca (withGrant target g) scmnd i ch = (some layout, ch')) :
    layout.len ≤ maxIuLen target ∧ layout.numSge = 1 := by
  have hnum := CommandGather.srpMapData_numSge hmap
  have hlen := SrpCommand.srpMapData_len hca (withGrant target g) (fun _ => 0) scmnd i ch
  rw [srpMapDataSge_withGrant himm] at hnum
  rw [hmap] at hlen
  obtain ⟨desc, _, hdesc⟩ := Option.map_eq_some_iff.mp hlen.symm
  have hle : desc.len (withGrant target g) ≤ maxIuLen (withGrant target g) :=
    CommandGather.len_le_maxIuLen desc hpos
  exact ⟨hdesc ▸ hle, hnum⟩

/-- Both sides of a channel agree after any number of logins and failed logins, of any of the
channels and with whatever the target was like at the time. The credit is the number of
contexts that the target has, and the host keeps one of them for task management. Every
request that the initiator sends fits in a receive buffer of the target, with no data behind
it. Every response fits in the receive buffers of the initiator, which were allocated for an
earlier login; the target itself has room for it if `srp_max_rsp_size` leaves room for the
sense data, and only then. -/
theorem logins_agree (hlt : maxIuLen target < 2^32) (hpos : 0 < target.cmdSgCnt) {n : ℕ}
    {host : Host} {s : State} (hrun : AnyRun (attempt srpt target t) (State.initial n host) s)
    {c : Peer} (hc : c ∈ s.chs) {g : Granted} (hg : c.granted = some g) :
    ∃ login, c.login = some login ∧ g.reqLim = login.ch.reqLim ∧ g.reqLim.toNat = login.rqSize ∧
      s.host.canQueue < login.rqSize ∧
      (∀ hca scmnd i ch layout ch',
        srpMapData hca (withGrant target g) scmnd i ch = (some layout, ch') →
          layout.len ≤ srpt.maxReqSize ∧ layout.numSge = 1) ∧
      CommandExchange.tskMgmtSize ≤ srpt.maxReqSize ∧
      ∀ ch : SrptRdmaCh, ch.maxTiIuLen = login.ch.maxTiIuLen →
        (∀ size, c.rxSize = some size → 40 ≤ size ∧
          ∀ delta tag status sense, cmdRspLen (srptBuildCmdRsp ch delta tag status sense) ≤ size) ∧
        ((∀ delta tag status sense, sense.length ≤ 96 →
            cmdRspLen (srptBuildCmdRsp ch delta tag status sense) ≤ login.rspSize) ↔
          min 132 (maxIuLen target) ≤ login.rspSize) := by
  have hsound := sound_of_run hlt hrun
  have hagreed := hsound.agreed c hc
  obtain ⟨hmax, rfl, login, hlogin, hti, hlim, hrq⟩ := hagreed.granted g hg
  have hqueue := hsound.canQueue c hc (by rw [hg]; exact Option.some_ne_none _)
  have hmin : 68 ≤ maxIuLen target := by
    unfold maxIuLen srpCmdSize srpIndirectBufSize
    omega
  refine ⟨login, hlogin, hlim.symm, by rw [hrq]; rfl, ?_, ?_, ?_, ?_⟩
  · rw [hrq]
    unfold srptRqSize
    omega
  · intro hca scmnd i ch layout ch' hmap
    have himm : (srpBufFormatDirect ||| srpBufFormatIndirect).testBit 3 = false := by decide
    have hfits := request_fits himm hpos hmap
    exact ⟨Nat.le_trans hfits.1 hmax, hfits.2⟩
  · unfold CommandExchange.tskMgmtSize
    omega
  · intro ch hch
    rw [hti] at hch
    constructor
    · intro size hsize
      rw [hagreed.rxSize size hsize]
      refine ⟨by omega, ?_⟩
      intro delta tag status sense
      rw [cmdRspLen_eq, hch]
      omega
    · rw [forall_cmdRspLen_le_iff, hch]

end

/-- A login that is rejected, because the port is not enabled, and one that is accepted. -/
def twoLogins : List Attempt :=
  [⟨0, false, { oneAcl with enabled := false }, {}, List.replicate 16 0xff, [], true⟩,
    ⟨0, false, oneAcl, {}, List.replicate 16 0xff, [], true⟩]

theorem logins_agree_second : ∃ s c login,
    AnyRun (attempt defaultSrpt ChannelSystem.smallTarget oneInitiator)
      (State.initial 1 ⟨62, 62⟩) s ∧ c ∈ s.chs ∧ c.login = some login ∧
      s.host.canQueue < login.rqSize := by
  have hreach : Reaches (attempt defaultSrpt ChannelSystem.smallTarget oneInitiator) twoLogins
      (State.initial 1 ⟨62, 62⟩) (fun s => s.chs.any fun c => c.granted.isSome) = true := by
    decide +kernel
  obtain ⟨s, hrun, hs⟩ := anyRun_of_reaches hreach
  obtain ⟨c, hc, hsome⟩ := List.any_eq_true.mp hs
  obtain ⟨g, hg⟩ := Option.isSome_iff_exists.mp hsome
  obtain ⟨login, hlogin, _, _, hqueue, _⟩ := logins_agree (by decide) (by decide) hrun hc hg
  exact ⟨s, c, login, hrun, hc, hlogin, hqueue⟩

end IbSrp.LoginHandshake

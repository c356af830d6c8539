import IbSrp.TaskManagement
import IbSrp.CallInterleaving

/-!
# The initiator's channel connected to a channel of the target driver

The target counts the credit it owes in `req_lim_delta`. A request that is
aborted gets no response and adds one to it. The next response takes all of it:
`srpt_build_cmd_rsp` and `srpt_build_tskmgmt_rsp` exchange it for zero and return
it together with the credit of the request they answer. The exchange is the
argument of `__constant_cpu_to_be32`. On a little-endian CPU this macro has its
argument in four places, one for each byte, so there are four exchanges, in an
order that the compiler chooses, and each of them is a step. The response is
posted in a later step. Other requests may be answered or aborted in between.
When the post fails the credit of that response is gone.

The core of the target decides when `srpt_queue_response` is called, whether a
command has been aborted, and what it is answered with. A read command whose data
could not be transferred stays, and is finished by another call.

Messages are delivered once, in any order. The initiator is the channel of
`CallInterleaving`, and it receives what this target sends and nothing else. Tags
play no part in the account, so a delivered request may carry any tag.
-/
namespace IbSrp.TargetChannel
open Channel CallInterleaving
open TaskManagement (SrpRsp srptBuildTskmgmtRsp srpTskMgmtSuccess srpTskMgmtFailed)

inductive SrptCommandState where
  | new | needData | dataIn | cmdRspSent | mgmt | mgmtRspSent | done
deriving DecidableEq, Repr

/-- A request that was received. `reads` is a read command with data; `buf` is what the
buffer holds behind the header of a response. -/
structure SrptSendIoctx where
  tag : ℕ
  state : SrptCommandState := .new
  reads : Bool := false
  queueStatusOnly : Bool := false
  buf : ℕ → BitVec 8 := fun _ => 0

structure SrptRdmaCh where
  reqLim : BitVec 32
  reqLimDelta : BitVec 32 := 0
  maxTiIuLen : ℕ := 64
  maxTiIuLen_ge : 64 ≤ maxTiIuLen := by decide

def srpRspFlagSnsvalid : BitVec 8 := 2

def srpRspSize : ℕ := 36

/-- The fields of an SRP_RSP that the response to a command uses. -/
structure SrpCmdRsp where
  reqLimDelta : BitVec 32
  tag : ℕ
  status : BitVec 8
  flags : BitVec 8 := 0
  senseDataLen : BitVec 32 := 0
  senseData : List (BitVec 8) := []

/-- `srpt_build_cmd_rsp`, which truncates sense data that does not fit. `reqLimDelta` is the
value that the field of this name gets. -/
def srptBuildCmdRsp (ch : SrptRdmaCh) (reqLimDelta : BitVec 32) (tag : ℕ) (status : BitVec 8)
    (senseData : List (BitVec 8)) : SrpCmdRsp :=
  let rsp := { reqLimDelta := reqLimDelta, tag := tag, status := status }
  if senseData = [] then rsp
  else
    let senseData := senseData.take (ch.maxTiIuLen-srpRspSize)
    { rsp with
      flags := srpRspFlagSnsvalid, senseDataLen := BitVec.ofNat 32 senseData.length,
      senseData := senseData }

inductive Response where
  | cmd (rsp : SrpCmdRsp)
  | mgmt (rsp : SrpRsp)

def Response.tag : Response → ℕ
  | .cmd rsp => rsp.tag
  | .mgmt rsp => rsp.tag

def Response.reqLimDelta : Response → BitVec 32
  | .cmd rsp => rsp.reqLimDelta
  | .mgmt rsp => rsp.reqLimDelta

def srpTskMgmtFuncNotSupp : BitVec 8 := 0x04

inductive TmrResponse where
  | functionComplete | functionRejected | other
deriving DecidableEq, Repr

def tcmToSrpTskMgmtStatus : TmrResponse → BitVec 8
  | .functionComplete => srpTskMgmtSuccess
  | .functionRejected => srpTskMgmtFuncNotSupp
  | .other => srpTskMgmtFailed

/-- What the core says about a request when it asks for a response, and whether
`srpt_xfer_data` can post the transfer of the data. -/
structure SeCmd where
  aborted : Bool := false
  xferOk : Bool := true
  scsiStatus : BitVec 8 := 0
  senseData : List (BitVec 8) := []
  tmrResponse : TmrResponse := .functionComplete

def SrptCommandState.responding : SrptCommandState → SrptCommandState
  | .new => .cmdRspSent
  | .dataIn => .cmdRspSent
  | .mgmt => .mgmtRspSent
  | state => state

/-- The masks of the places where `__constant_cpu_to_be32` has its argument. -/
def constantCpuToBe32 (hostBigEndian : Bool) : List (BitVec 32) :=
  if hostBigEndian then [0xffffffff] else [0xff, 0xff00, 0xff0000, 0xff000000]

/-- A response that is being built. `ioctx` has the state that `srpt_queue_response` found,
`masks` are those of the exchanges that are still to be made. -/
structure Building where
  cmd : SeCmd
  ioctx : SrptSendIoctx
  masks : List (BitVec 32)
  reqLimDelta : BitVec 32 := 0

/-- The argument of the macro is evaluated in the place with number `i`. -/
def Building.exchange (b : Building) (i : ℕ) (mask reqLimDelta : BitVec 32) : Building :=
  { b with
    masks := b.masks.eraseIdx i,
    reqLimDelta := b.reqLimDelta ||| ((1+reqLimDelta) &&& mask) }

def Building.response (ch : SrptRdmaCh) (b : Building) : Response :=
  if b.ioctx.state ≠ .mgmt then
    .cmd (srptBuildCmdRsp ch b.reqLimDelta b.ioctx.tag b.cmd.scsiStatus b.cmd.senseData)
  else
    .mgmt (srptBuildTskmgmtRsp b.reqLimDelta b.ioctx.buf
      (tcmToSrpTskMgmtStatus b.cmd.tmrResponse) b.ioctx.tag)

/-- The result of `srpt_queue_response` up to the building of the response. -/
inductive Answer where
  | aborted
  | xferFailed (ioctx : SrptSendIoctx)
  | building (b : Building)

def srptQueueResponse (hostBigEndian : Bool) (cmd : SeCmd) (ioctx : SrptSendIoctx)
    (ch : SrptRdmaCh) : Answer × SrptRdmaCh :=
  if cmd.aborted ∨ ioctx.state = .cmdRspSent then
    (.aborted, { ch with reqLimDelta := ch.reqLimDelta+1 })
  else if ioctx.reads ∧ !ioctx.queueStatusOnly ∧ !cmd.xferOk then
    (.xferFailed { ioctx with state := ioctx.state.responding }, ch)
  else (.building { cmd := cmd, ioctx := ioctx, masks := constantCpuToBe32 hostBigEndian }, ch)

/-- `srpt_queue_status` up to the building of the response -/
def srptQueueStatus (hostBigEndian : Bool) (cmd : SeCmd) (ioctx : SrptSendIoctx)
    (ch : SrptRdmaCh) : Answer × SrptRdmaCh :=
  srptQueueResponse hostBigEndian cmd { ioctx with queueStatusOnly := true } ch

/-- What `srpt_queue_response` does to the credit of the channel. -/
inductive Queued (hostBigEndian : Bool) (ch : SrptRdmaCh) : Answer × SrptRdmaCh → Prop
  | aborted : Queued hostBigEndian ch (.aborted, { ch with reqLimDelta := ch.reqLimDelta+1 })
  | xferFailed {ioctx : SrptSendIoctx} : Queued hostBigEndian ch (.xferFailed ioctx, ch)
  | building {b : Building} : b.masks = constantCpuToBe32 hostBigEndian → b.reqLimDelta = 0 →
      Queued hostBigEndian ch (.building b, ch)

theorem queued_srptQueueResponse (hostBigEndian : Bool) (cmd : SeCmd) (ioctx : SrptSendIoctx)
    (ch : SrptRdmaCh) : Queued hostBigEndian ch (srptQueueResponse hostBigEndian cmd ioctx ch) := by
  unfold srptQueueResponse
  split
  · exact .aborted
  · split
    · exact .xferFailed
    · exact .building rfl rfl

theorem response_reqLimDelta (ch : SrptRdmaCh) (b : Building) :
    (b.response ch).reqLimDelta = b.reqLimDelta := by
  unfold Building.response
  split
  · unfold srptBuildCmdRsp
    split <;> rfl
  · unfold srptBuildTskmgmtRsp
    split <;> rfl

def srptSetCmdState (state : SrptCommandState) (ioctx : SrptSendIoctx) : SrptSendIoctx :=
  if ioctx.state = .done then ioctx else { ioctx with state := state }

/-- `srpt_test_and_set_cmd_state`; `srpt_handle_rdma_comp` and, by `srpt_abort_cmd`,
`srpt_handle_rdma_err_comp` use it to go on from `SRPT_STATE_NEED_DATA`. -/
def srptTestAndSetCmdState (old state : SrptCommandState) (ioctx : SrptSendIoctx) :
    SrptSendIoctx :=
  if ioctx.state = old then { ioctx with state := state } else ioctx

/-- `srpt_post_send`; `ok` if there was room in the send queue and `ib_post_send` succeeded. -/
def srptPostSend (ok : Bool) (ch : SrptRdmaCh) : SrptRdmaCh :=
  let ch := { ch with reqLim := ch.reqLim+1 }
  if ok then ch else { ch with reqLim := ch.reqLim-1 }

/-- The request limit that `srpt_process_rcv_completion` leaves. -/
def srptProcessRcvCompletion (ch : SrptRdmaCh) : SrptRdmaCh :=
  { ch with reqLim := ch.reqLim-1 }

/-- Both ends of a connection. `delivered` counts the requests the target has received,
`requests` are those of them that are not answered yet. The responses in `building` are not
complete, those in `sending` are built and not posted, those in `flight` posted and not
delivered. `lost` is the credit of the
responses that could not be posted. -/
structure State where
  ini : CallInterleaving.State
  tgt : SrptRdmaCh
  delivered : ℕ := 0
  requests : List SrptSendIoctx := []
  building : List Building := []
  sending : List Response := []
  flight : List Response := []
  lost : List (BitVec 32) := []

inductive Event where
  | initiator (e : CallInterleaving.Event)
  | deliverRequest (mgmt reads : Bool) (tag : ℕ) (buf : ℕ → BitVec 8)
  | writePending (k : ℕ)
  | rdmaReadDone (k : ℕ)
  | queueResponse (k : ℕ) (statusOnly : Bool) (cmd : SeCmd)
  | exchange (k i : ℕ)
  | built (k : ℕ)
  | postSend (k : ℕ) (ok : Bool)
  | deliverResponse (k : ℕ)

/-- The target has accepted a login and granted `rqSize`. -/
def State.login (target : SrpTargetPort) (rqSize : ℕ) : State :=
  { ini := CallInterleaving.State.login target (BitVec.ofNat 32 rqSize),
    tgt := { reqLim := BitVec.ofNat 32 rqSize } }

/-- What the initiator does by itself. Its next login starts another connection. -/
def isLocal : CallInterleaving.Event → Bool
  | .rsp _ _ => false
  | .targetRequest _ => false
  | .createChIb _ => false
  | _ => true

/-- Request number `k` has been through `srpt_queue_response`. -/
def State.queued (s : State) (k : ℕ) : Answer × SrptRdmaCh → State
  | (.aborted, tgt) => { s with tgt := tgt, requests := s.requests.eraseIdx k }
  | (.xferFailed ioctx, tgt) => { s with tgt := tgt, requests := s.requests.set k ioctx }
  | (.building b, tgt) =>
      { s with tgt := tgt, requests := s.requests.eraseIdx k, building := s.building++[b] }

/-- Response number `k` exchanges `req_lim_delta` for zero. -/
def State.exchanged (s : State) (k i : ℕ) (b : Building) (mask : BitVec 32) : State :=
  { s with
    tgt := { s.tgt with reqLimDelta := 0 },
    building := s.building.set k (b.exchange i mask s.tgt.reqLimDelta) }

def State.posted (s : State) (k : ℕ) (rsp : Response) (ok : Bool) : State :=
  let s := { s with tgt := srptPostSend ok s.tgt, sending := s.sending.eraseIdx k }
  if ok then { s with flight := s.flight++[rsp] } else { s with lost := s.lost++[rsp.reqLimDelta] }

/-- A request as `srpt_handle_cmd` or `srpt_handle_tsk_mgmt` starts on it. -/
def received (mgmt reads : Bool) (tag : ℕ) (buf : ℕ → BitVec 8) : SrptSendIoctx :=
  { tag := tag, state := if mgmt then .mgmt else .new, reads := reads, buf := buf }

/-- `hostBigEndian` is the byte order of the target's CPU. -/
def step (hca : Hca) (target : SrpTargetPort) (hostBigEndian : Bool) (s : State) :
    Event → Option State
  | .initiator e =>
      if isLocal e then
        (CallInterleaving.step hca target s.ini e).map fun ini => { s with ini := ini }
      else none
  | .deliverRequest mgmt reads tag buf =>
      if s.delivered < s.ini.sent then
        some { s with
          tgt := srptProcessRcvCompletion s.tgt, delivered := s.delivered+1,
          requests := s.requests++[received mgmt reads tag buf] }
      else none
  | .writePending k => some { s with requests := s.requests.modify k (srptSetCmdState .needData) }
  | .rdmaReadDone k =>
      some { s with requests := s.requests.modify k (srptTestAndSetCmdState .needData .dataIn) }
  | .queueResponse k statusOnly cmd =>
      (s.requests[k]?).map fun ioctx => s.queued k
        (if statusOnly then srptQueueStatus hostBigEndian cmd ioctx s.tgt
          else srptQueueResponse hostBigEndian cmd ioctx s.tgt)
  | .exchange k i =>
      (s.building[k]?).bind fun b => (b.masks[i]?).map fun mask => s.exchanged k i b mask
  | .built k =>
      (s.building[k]?).bind fun b =>
        if b.masks = [] then
          some { s with building := s.building.eraseIdx k,
                        sending := s.sending++[b.response s.tgt] }
        else none
  | .postSend k ok => (s.sending[k]?).map fun rsp => s.posted k rsp ok
  | .deliverResponse k =>
      match s.flight[k]? with
      | none => none
      | some rsp =>
          (CallInterleaving.step hca target s.ini (.rsp rsp.tag rsp.reqLimDelta)).map fun ini =>
            { s with ini := ini, flight := s.flight.eraseIdx k }

end IbSrp.TargetChannel

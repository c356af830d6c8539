import Mathlib.Logic.Function.Basic
import Mathlib.Data.BitVec
import IbSrp.MappingResults

/-!
# An RDMA channel: `struct srp_rdma_ch` and the functions on its hot path

The channel keeps its lists as the source does: transmit buffers in `freeTx`,
request slots in `freeReqs`, memory descriptors in the free list of its pool.
Transmit buffers and request slots are numbered by their place in the ring.
Memory descriptors are numbered within the pool they were allocated in, and a
new pool gets a new number.

`sq` is the send queue: the work requests that have been posted and whose slots
have not been released. The HCA completes them in order. A completion entry
exists for signalled requests and for failed ones; polling it releases its slot
and all earlier ones.

The outcomes of calls into the HCA driver are given by `Hca`: call number `n` of
`ib_post_send` succeeds if `postSend n` says so. Two histories are kept: `slotLog`
of the request slots that were taken off `free_reqs` and put back on it, and
`touched` of the memory descriptors that were read or put back while unmapping,
each with the pool the channel had at that moment.
-/
namespace IbSrp.Channel
open MemoryRegistration MappingCoverage

/-- The outcomes of the calls into the HCA driver, by call number. -/
structure Hca where
  postSend : ℕ → Bool
  fmrPoolMapPhys : ℕ → Option ℕ

structure MrDesc where
  pool : ℕ
  idx : ℕ
deriving DecidableEq, Repr

inductive DataDirection where
  | bidirectional | toDevice | fromDevice | none
deriving DecidableEq, Repr

/-- A SCSI command. `sglist` is its DMA-mapped list: none if it has no data, empty if
mapping it fails. A command carries less than 4 GiB. -/
structure ScsiCmnd where
  id : ℕ
  device : ℕ := 0
  dataDirection : DataDirection := .none
  sglist : Option (List Sg) := none
  bufflen : ℕ := 0
  len_lt : ∀ scat ∈ sglist, sgLen scat < 2^32 := by decide
deriving DecidableEq

/-- A command whose data `srp_unmap_data` unmaps. -/
def ScsiCmnd.hasData (scmnd : ScsiCmnd) : Bool :=
  scmnd.sglist.isSome &&
    (scmnd.dataDirection = .toDevice || scmnd.dataDirection = .fromDevice)

def srpRspSqSize : ℕ := 1

def srpTskMgmtSqSize : ℕ := 1

def srpMaxImmSge : ℕ := 2

def srpImmDataOutOffset : ℕ := 80

def srpCmdSize : ℕ := 48

def srpDirectBufSize : ℕ := 16

def srpIndirectBufSize : ℕ := 20

/-- What the functions below read of the target, its host and its device. A login
may lower `can_queue` but leaves the rings as they were allocated. -/
structure SrpTargetPort where
  dev : SrpDevice
  hasPool : Bool
  registerAlways : Bool := false
  enableImmData : Bool := false
  bufFormatImm : Bool := false
  maxItIuLen : ℕ := 0
  cmdSgCnt : ℕ
  allowExtSg : Bool := false
  canQueue : ℕ
  queueSize : ℕ
  queueSize_ge : canQueue+srpRspSqSize+srpTskMgmtSqSize ≤ queueSize := by decide

def SrpTargetPort.reqRingSize (target : SrpTargetPort) : ℕ := target.queueSize-srpTskMgmtSqSize

def SrpTargetPort.maxSendWr (target : SrpTargetPort) : ℕ :=
  (1+target.dev.useFastReg.toNat)*target.queueSize

inductive Wr where
  | send (iu : ℕ)
  | fastReg (desc : MrDesc)
  | localInv (desc : MrDesc)
deriving DecidableEq, Repr

def Wr.signalled : Wr → Bool
  | .send _ => true
  | .fastReg _ => false
  | .localInv _ => false

/-- A posted work request; the HCA sets `status` when it completes the request. -/
structure Posted where
  wr : Wr
  status : Option Bool := none
deriving DecidableEq, Repr

/-- A request for which there is an entry in the completion queue. -/
def Posted.completion (p : Posted) : Bool :=
  match p.status with
  | none => false
  | some ok => p.wr.signalled || !ok

/-- The transmit buffer that comes back with a successful completion. -/
def Posted.sentIu (p : Posted) : Option ℕ :=
  match p.status, p.wr with
  | some true, .send iu => some iu
  | _, _ => none

/-- What stays in the send queue when every completion has been polled. -/
def unreleased : List Posted → List Posted
  | [] => []
  | p::sq => if (p::sq).any Posted.completion then unreleased sq else p::sq

/-- The HCA completes the first request that is still in progress. -/
def completeFirst (ok : Bool) : List Posted → List Posted
  | [] => []
  | p::sq => if p.status = none then { p with status := some ok }::sq else p::completeFirst ok sq

structure MrPool where
  id : ℕ
  freeList : List MrDesc
deriving DecidableEq, Repr

def srpCreateFrPool (id poolSize : ℕ) : MrPool :=
  ⟨id, (List.range poolSize).map fun idx => ⟨id, idx⟩⟩

/-- A request slot. `mrList` is the part of `fr_list` or `fmr_list` that `nmdesc` counts. -/
structure SrpRequest where
  scmnd : Option ScsiCmnd := none
  mrList : List MrDesc := []
deriving DecidableEq

inductive SlotEvent where
  | took (i : ℕ)
  | put (i : ℕ)
deriving DecidableEq, Repr

structure SrpRdmaCh where
  reqLim : BitVec 32
  freeTx : List ℕ
  freeReqs : List ℕ
  pool : MrPool
  reqRing : ℕ → SrpRequest := fun _ => {}
  hostScribble : ℕ → Option ℕ := fun _ => none
  sq : List Posted := []
  connected : Bool := true
  qpInError : Bool := false
  posts : ℕ := 0
  fmrMaps : ℕ := 0
  slotLog : List SlotEvent := []
  touched : List (MrDesc × ℕ) := []

/-- The transmit ring, in the order in which it is put on `free_tx`. -/
def txRing (target : SrpTargetPort) : List ℕ := (List.range target.queueSize).reverse

/-- A channel after its first login with request limit `reqLim`. -/
def SrpRdmaCh.login (target : SrpTargetPort) (reqLim : BitVec 32) : SrpRdmaCh :=
  { reqLim := reqLim,
    freeTx := txRing target,
    freeReqs := List.range target.reqRingSize,
    pool := srpCreateFrPool 0 target.canQueue }

def SrpRdmaCh.setReq (ch : SrpRdmaCh) (i : ℕ) (req : SrpRequest) : SrpRdmaCh :=
  { ch with reqRing := Function.update ch.reqRing i req }

inductive SrpIuType where
  | cmd | tskMgmt | rsp
deriving DecidableEq, Repr

section
variable (hca : Hca) (target : SrpTargetPort)

/-- `ib_post_send`; a request that was refused takes no slot of the send queue. -/
def ibPostSend (wr : Wr) (ch : SrpRdmaCh) : Bool × SrpRdmaCh :=
  let ok := hca.postSend ch.posts
  (ok, { ch with posts := ch.posts+1, sq := if ok then ch.sq++[⟨wr, none⟩] else ch.sq })

/-- Poll all entries of the send completion queue. -/
def srpSendCompletion (ch : SrpRdmaCh) : SrpRdmaCh :=
  { ch with freeTx := (ch.sq.filterMap Posted.sentIu).reverse++ch.freeTx,
            qpInError := ch.qpInError || ch.sq.any (fun p => p.status = some false),
            sq := unreleased ch.sq }

def srpPutTxIu (iu : ℕ) (iuType : SrpIuType) (ch : SrpRdmaCh) : SrpRdmaCh :=
  { ch with freeTx := iu::ch.freeTx,
            reqLim := if iuType = .rsp then ch.reqLim else ch.reqLim+1 }

def srpGetTxIu (iuType : SrpIuType) (ch : SrpRdmaCh) : Option ℕ × SrpRdmaCh :=
  let rsv : ℤ := if iuType = .tskMgmt then 0 else srpTskMgmtSqSize
  let ch := srpSendCompletion ch
  match ch.freeTx with
  | [] => (none, ch)
  | iu::freeTx =>
      if iuType = .rsp then (some iu, { ch with freeTx := freeTx })
      else if ch.reqLim.toInt ≤ rsv then (none, ch)
      else (some iu, { ch with freeTx := freeTx, reqLim := ch.reqLim-1 })

def srpPostSend (iu numSge : ℕ) (ch : SrpRdmaCh) : Bool × SrpRdmaCh :=
  if srpMaxImmSge+1 < numSge then (false, ch) else ibPostSend hca (.send iu) ch

def srpFrPoolGet (ch : SrpRdmaCh) : Option MrDesc × SrpRdmaCh :=
  match ch.pool.freeList with
  | [] => (none, ch)
  | d::freeList => (some d, { ch with pool := { ch.pool with freeList := freeList } })

/-- Each descriptor is added at the head of the free list. -/
def srpFrPoolPut (descs : List MrDesc) (ch : SrpRdmaCh) : SrpRdmaCh :=
  { ch with pool := { ch.pool with freeList := descs.reverse++ch.pool.freeList } }

def mrOps : MrOps SrpRdmaCh MrDesc where
  srpFrPoolGet := srpFrPoolGet
  ibPostSend ch d := ibPostSend hca (.fastReg d) ch
  ibFmrPoolMapPhys ch _ :=
    ((hca.fmrPoolMapPhys ch.fmrMaps).map (MrDesc.mk ch.pool.id),
      { ch with fmrMaps := ch.fmrMaps+1 })

/-- What `srp_map_data` fixes about the SRP_CMD: its length and its gather entries. -/
structure CmdLayout where
  len : ℕ
  numSge : ℕ
deriving DecidableEq, Repr

/-- Whether `srp_map_data` sends the data in the SRP_CMD itself. -/
def SrpTargetPort.immediate (scmnd : ScsiCmnd) (scat : List Sg) : Bool :=
  target.enableImmData && target.bufFormatImm && scat.length ≤ srpMaxImmSge &&
    srpImmDataOutOffset+scmnd.bufflen ≤ target.maxItIuLen && scmnd.dataDirection = .toDevice

/-- `srp_map_data` for request slot `i`; there is no layout if it returns an error. -/
def srpMapData (scmnd : ScsiCmnd) (i : ℕ) (ch : SrpRdmaCh) : Option CmdLayout × SrpRdmaCh :=
  match scmnd.sglist with
  | none => (some ⟨srpCmdSize, 1⟩, ch)
  | some scat =>
      if scmnd.dataDirection = .none then (some ⟨srpCmdSize, 1⟩, ch)
      else if scmnd.dataDirection = .bidirectional then (none, ch)
      else if scat = [] then (none, ch)
      else if target.immediate scmnd scat then
        (some ⟨srpImmDataOutOffset, scat.length+1⟩, ch.setReq i { ch.reqRing i with mrList := [] })
      else if scat.length = 1 ∧ target.registerAlways = false then
        (some ⟨srpCmdSize+srpDirectBufSize, 1⟩, ch.setReq i { ch.reqRing i with mrList := [] })
      else
        match srpMapSg target.dev target.registerAlways target.hasPool (mrOps hca) scat ch with
        | none => (none, ch)
        | some (st, ch) =>
            let ch := ch.setReq i { ch.reqRing i with mrList := st.mrList }
            if st.ndesc = 1 then (some ⟨srpCmdSize+srpDirectBufSize, 1⟩, ch)
            else if target.cmdSgCnt < st.ndesc ∧ target.allowExtSg = false then (none, ch)
            else (some ⟨srpCmdSize+srpIndirectBufSize+
              (min st.ndesc target.cmdSgCnt)*srpDirectBufSize, 1⟩, ch)

def srpInvRkey (desc : MrDesc) (ch : SrpRdmaCh) : Bool × SrpRdmaCh :=
  ibPostSend hca (.localInv desc) ch

/-- `srp_unmap_data` for request slot `i`. A failed invalidation is only reported. -/
def srpUnmapData (scmnd : ScsiCmnd) (i : ℕ) (ch : SrpRdmaCh) : SrpRdmaCh :=
  if scmnd.hasData && target.dev.useFastReg then
    let descs := (ch.reqRing i).mrList
    let ch := { ch with touched := ch.touched++descs.map fun d => (d, ch.pool.id) }
    srpFrPoolPut descs (descs.foldl (fun ch d => (srpInvRkey hca d ch).2) ch)
  else ch

/-- `srp_claim_req`: the command of slot `i`, if there is one that matches. -/
def srpClaimReq (i : ℕ) (sdev scmnd : Option ℕ) (ch : SrpRdmaCh) : Option ScsiCmnd × SrpRdmaCh :=
  match (ch.reqRing i).scmnd with
  | none => (none, ch)
  | some c =>
      if (sdev = none ∨ sdev = some c.device) ∧ (scmnd = none ∨ scmnd = some c.id) then
        (some c, ch.setReq i { ch.reqRing i with scmnd := none })
      else (none, ch)

def srpFreeReq (i : ℕ) (scmnd : ScsiCmnd) (reqLimDelta : BitVec 32) (ch : SrpRdmaCh) :
    SrpRdmaCh :=
  let ch := srpUnmapData hca target scmnd i ch
  { ch with reqLim := ch.reqLim+reqLimDelta, freeReqs := ch.freeReqs++[i],
            slotLog := ch.slotLog++[SlotEvent.put i] }

/-- `srp_finish_req`: the command that is finished, if the slot holds one that matches. -/
def srpFinishReq (i : ℕ) (sdev : Option ℕ) (ch : SrpRdmaCh) : Option ScsiCmnd × SrpRdmaCh :=
  match srpClaimReq i sdev none ch with
  | (none, ch) => (none, ch)
  | (some scmnd, ch) => (some scmnd, srpFreeReq hca target i scmnd 0 ch)

/-- Whether the device may take commands: `srp_chkready` and `scsi_device_blocked`. -/
inductive Readiness where
  | ready | blocked | failing
deriving DecidableEq, Repr

/-- How `srp_queuecommand` returns: the command was sent, it was completed with an error,
or the mid-layer is told to try again. -/
inductive QueueResult where
  | sent (i : ℕ)
  | completed
  | hostBusy
deriving DecidableEq, Repr

/-- The labels `err_iu` and below: the buffer, its credit and the slot are returned. -/
def srpQueuecommandError (iu i : ℕ) (ch : SrpRdmaCh) : SrpRdmaCh :=
  let ch := srpPutTxIu iu .cmd ch
  let ch := ch.setReq i { ch.reqRing i with scmnd := none }
  { ch with freeReqs := i::ch.freeReqs, slotLog := ch.slotLog++[SlotEvent.put i] }

/-- Slot `i` is taken off the list, which leaves `freeReqs`, and gets the command. -/
def srpTakeReq (i : ℕ) (freeReqs : List ℕ) (scmnd : ScsiCmnd) (ch : SrpRdmaCh) : SrpRdmaCh :=
  { ch with freeReqs := freeReqs,
            slotLog := ch.slotLog++[SlotEvent.took i],
            hostScribble := Function.update ch.hostScribble scmnd.id (some i),
            reqRing := Function.update ch.reqRing i { ch.reqRing i with scmnd := some scmnd } }

/-- `srp_queuecommand` takes the first free slot without checking that there is one;
there is no result when the list is empty. -/
def srpQueuecommand (readiness : Readiness) (scmnd : ScsiCmnd) (ch : SrpRdmaCh) :
    Option (QueueResult × SrpRdmaCh) :=
  match readiness with
  | .failing => some (.completed, ch)
  | .blocked => some (.hostBusy, ch)
  | .ready =>
      match srpGetTxIu .cmd ch with
      | (none, ch) => some (.hostBusy, ch)
      | (some iu, ch) =>
          match ch.freeReqs with
          | [] => none
          | i::freeReqs =>
              match srpMapData hca target scmnd i (srpTakeReq i freeReqs scmnd ch) with
              | (none, ch) => some (.completed, srpQueuecommandError iu i ch)
              | (some layout, ch) =>
                  match srpPostSend hca iu layout.numSge ch with
                  | (true, ch) => some (.sent i, ch)
                  | (false, ch) => some (.hostBusy, srpQueuecommandError iu i
                      (srpUnmapData hca target scmnd i ch))

inductive Queuecommand (scmnd : ScsiCmnd) (ch : SrpRdmaCh) : QueueResult × SrpRdmaCh → Prop
  | failing : Queuecommand scmnd ch (.completed, ch)
  | blocked : Queuecommand scmnd ch (.hostBusy, ch)
  | noIu {ch₁ : SrpRdmaCh} : srpGetTxIu .cmd ch = (none, ch₁) →
      Queuecommand scmnd ch (.hostBusy, ch₁)
  | mapFailed {ch₁ ch₂ : SrpRdmaCh} {iu i : ℕ} {rest : List ℕ} :
      srpGetTxIu .cmd ch = (some iu, ch₁) → ch₁.freeReqs = i::rest →
      srpMapData hca target scmnd i (srpTakeReq i rest scmnd ch₁) = (none, ch₂) →
      Queuecommand scmnd ch (.completed, srpQueuecommandError iu i ch₂)
  | sent {ch₁ ch₂ ch₃ : SrpRdmaCh} {iu i : ℕ} {rest : List ℕ} {layout : CmdLayout} :
      srpGetTxIu .cmd ch = (some iu, ch₁) → ch₁.freeReqs = i::rest →
      srpMapData hca target scmnd i (srpTakeReq i rest scmnd ch₁) = (some layout, ch₂) →
      srpPostSend hca iu layout.numSge ch₂ = (true, ch₃) → Queuecommand scmnd ch (.sent i, ch₃)
  | postFailed {ch₁ ch₂ ch₃ : SrpRdmaCh} {iu i : ℕ} {rest : List ℕ} {layout : CmdLayout} :
      srpGetTxIu .cmd ch = (some iu, ch₁) → ch₁.freeReqs = i::rest →
      srpMapData hca target scmnd i (srpTakeReq i rest scmnd ch₁) = (some layout, ch₂) →
      srpPostSend hca iu layout.numSge ch₂ = (false, ch₃) →
      Queuecommand scmnd ch
        (.hostBusy, srpQueuecommandError iu i (srpUnmapData hca target scmnd i ch₃))

theorem srpQueuecommand_cases {readiness : Readiness} {scmnd : ScsiCmnd} {ch : SrpRdmaCh}
    {p : QueueResult × SrpRdmaCh}
    (h : srpQueuecommand hca target readiness scmnd ch = some p) :
    Queuecommand hca target scmnd ch p := by
  cases readiness with
  | failing =>
      cases h
      exact .failing
  | blocked =>
      cases h
      exact .blocked
  | ready =>
      simp only [srpQueuecommand] at h
      obtain ⟨o, ch₁, hget⟩ : ∃ o ch₁, srpGetTxIu .cmd ch = (o, ch₁) := ⟨_, _, rfl⟩
      rw [hget] at h
      cases o with
      | none =>
          cases h
          exact .noIu hget
      | some iu =>
          cases hfree : ch₁.freeReqs with
          | nil => simp [hfree] at h
          | cons i rest =>
              simp only [hfree] at h
              obtain ⟨l, ch₂, hmap⟩ : ∃ l ch₂, srpMapData hca target scmnd i
                (srpTakeReq i rest scmnd ch₁) = (l, ch₂) := ⟨_, _, rfl⟩
              rw [hmap] at h
              cases l with
              | none =>
                  cases h
                  exact .mapFailed hget hfree hmap
              | some layout =>
                  obtain ⟨ok, ch₃, hpost⟩ : ∃ ok ch₃, srpPostSend hca iu layout.numSge ch₂ =
                    (ok, ch₃) := ⟨_, _, rfl⟩
                  simp only [hpost] at h
                  cases ok with
                  | true =>
                      cases h
                      exact .sent hget hfree hmap hpost
                  | false =>
                      cases h
                      exact .postFailed hget hfree hmap hpost

/-- Take a transmit buffer, post it, and put it back if it could not be posted. -/
def srpSendIu (iuType : SrpIuType) (ch : SrpRdmaCh) : Bool × SrpRdmaCh :=
  match srpGetTxIu iuType ch with
  | (none, ch) => (false, ch)
  | (some iu, ch) =>
      match srpPostSend hca iu 1 ch with
      | (true, ch) => (true, ch)
      | (false, ch) => (false, srpPutTxIu iu iuType ch)

/-- The part of `srp_send_tsk_mgmt` for which it holds `rport->mutex`: after its check of
the connection and before its wait for the response. -/
def srpSendTskMgmt (ch : SrpRdmaCh) : Bool × SrpRdmaCh := srpSendIu hca .tskMgmt ch

def srpResponseCommon (reqDelta : BitVec 32) (ch : SrpRdmaCh) : Bool × SrpRdmaCh :=
  srpSendIu hca .rsp { ch with reqLim := ch.reqLim+reqDelta }

/-- The part of `srp_create_ch_ib` and of the loop around it in `srp_rport_reconnect`
that concerns the channel: with new verbs objects there is a new pool and an empty
send queue; the transmit ring is put on `free_tx` in any case. -/
def srpCreateChIb (created : Bool) (ch : SrpRdmaCh) : SrpRdmaCh :=
  let ch := if created then
      { ch with pool := srpCreateFrPool (ch.pool.id+1) target.canQueue, sq := [] } else ch
  { ch with freeTx := txRing target, qpInError := false }

end

def buildSrpTag (ch reqIdx : ℕ) : ℕ := (ch % 2^16)*2^16+reqIdx % 2^16

def srpTagIdx (tag : ℕ) : ℕ := tag % 2^16

def isTskMgmtTag (tag : ℕ) : Bool := tag.testBit 31

theorem srpTagIdx_buildSrpTag (ch reqIdx : ℕ) :
    srpTagIdx (buildSrpTag ch reqIdx) = reqIdx % 2^16 := by
  unfold srpTagIdx buildSrpTag
  omega

end IbSrp.Channel

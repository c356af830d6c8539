import IbSrp.LabelledRuns
import Mathlib.Data.Int.Basic

/-!
# Connecting a channel and destroying its queue pair

`srp_create_target`, `srp_rport_reconnect` and `srp_remove_target` work on a
target one after another: the first returns before there is an rport, and
`srp_stop_rport_timers` lets no reconnect begin after it has returned. What they do
to one channel is here one program, with a step for each call that can fail or
wait. CM events, path records and receive completions come in at any time.

A CM ID delivers what was asked of it: the result of resolving an address or a
route once, and events of a connection after a REQ has been sent. It delivers
nothing once it has been destroyed. A path record query delivers its result once,
and nothing cancels it.

The receive requests of a queue pair complete in the order in which they were
posted, and those of a queue pair in the error state complete with an error.
-/
namespace IbSrp.ChannelConnection

/-- `wr_id` of a receive request: an information unit or `SRP_LAST_WR_ID`. -/
inductive RecvWr where
  | iu (i : ℕ)
  | last
deriving DecidableEq, Repr

/-- A queue pair with its receive completion queue. Entry `k` of `wcs` tells whether request
`k` of `recvs` completed with success. -/
structure Qp where
  recvs : List RecvWr
  wcs : List Bool
  processed : ℕ
  inError : Bool
  processed_le : processed ≤ wcs.length
  wcs_le : wcs.length ≤ recvs.length

def Qp.created : Qp := ⟨[], [], 0, false, Nat.le_refl 0, Nat.le_refl 0⟩

section
variable (qp : Qp)

theorem Qp.wcs_le_post (wr : RecvWr) : qp.wcs.length ≤ (qp.recvs++[wr]).length := by
  rw [List.length_append]
  exact Nat.le_add_right_of_le qp.wcs_le

theorem Qp.processed_le_complete (ok : Bool) : qp.processed ≤ (qp.wcs++[ok]).length := by
  rw [List.length_append]
  exact Nat.le_add_right_of_le qp.processed_le

theorem Qp.complete_le {ok : Bool} (h : qp.wcs.length < qp.recvs.length) :
    (qp.wcs++[ok]).length ≤ qp.recvs.length := by
  rw [List.length_append]
  exact h

/-- `ib_post_recv` -/
def Qp.post (wr : RecvWr) : Qp :=
  { qp with recvs := qp.recvs++[wr], wcs_le := qp.wcs_le_post wr }

/-- `ib_modify_qp` to `IB_QPS_ERR`. -/
def Qp.modifyToError : Qp := { qp with inError := true }

def Qp.complete (ok : Bool) : Option Qp :=
  if h : qp.wcs.length < qp.recvs.length then
    if ok && qp.inError then none
    else some { qp with wcs := qp.wcs++[ok], inError := qp.inError || !ok,
                        processed_le := qp.processed_le_complete ok, wcs_le := qp.complete_le h }
  else none

def Qp.poll : Option (RecvWr × Bool × Qp) :=
  if h : qp.processed < qp.wcs.length then
    some (qp.recvs.get ⟨qp.processed, Nat.lt_of_lt_of_le h qp.wcs_le⟩,
      qp.wcs.get ⟨qp.processed, h⟩, { qp with processed := qp.processed+1, processed_le := h })
  else none

end

/-- What a CM ID has still to deliver. -/
structure CmId where
  addr : Bool := false
  route : Bool := false
  conn : Bool := false
deriving DecidableEq, Repr

def CmId.quiet (id : CmId) : Bool := !id.addr && !id.route && !id.conn

/-- The part of a channel that concerns its connection. `newCmId` is the variable of
`srp_new_rdma_cm_id`, `pathQueries` counts path record queries without a result. -/
structure SrpRdmaCh where
  done : ℕ := 0
  status : ℤ := 0
  connected : Bool := false
  cmId : Option CmId := none
  newCmId : Option CmId := none
  pathQueries : ℕ := 0
  qp : Option Qp := none

structure SrpTargetPort where
  usingRdmaCm : Bool
  isTopspin : Bool := false
  queueSize : ℕ

def srpPortRedirect : ℤ := 1
def srpDlidRedirect : ℤ := 2
def srpStaleConn : ℤ := 3
def enxio : ℤ := 6
def enomem : ℤ := 12
def econnreset : ℤ := 104
def ehostunreach : ℤ := 113

def initDone (ch : SrpRdmaCh) : SrpRdmaCh := { ch with done := 0 }

def completeDone (ch : SrpRdmaCh) : SrpRdmaCh := { ch with done := ch.done+1 }

/-- An SRP_LOGIN_RSP and what happens to the calls of `srp_cm_rep_handler`: `posts` receive
requests can be posted, and the error of a call that fails is `-(err+1)`. -/
structure Rep where
  loginRsp : Bool := true
  iuBufs : Bool := true
  posts : ℕ
  rts : Bool := true
  err : ℕ := 0

inductive IbRej where
  | portCmRedirect (dlid : ℕ)
  | portRedirect
  | duplicateLocalCommId
  | consumerDefined
  | staleConn
  | other

inductive IbCmEvent where
  | reqError
  | repReceived (rep : Rep)
  | rejReceived (rej : IbRej)
  | dreqReceived
  | timewaitExit
  | mraReceived
  | dreqError
  | drepReceived
  | unhandled

inductive RdmaRej where
  | duplicateLocalCommId
  | consumerDefined
  | staleConn
  | other

inductive RdmaCmEvent where
  | addrResolved
  | addrError
  | routeResolved
  | routeError
  | unreachable
  | connectError
  | established (rep : Rep)
  | rejected (rej : RdmaRej)
  | disconnected
  | timewaitExit
  | unhandled

inductive CmEvent where
  | ib (e : IbCmEvent)
  | rdma (e : RdmaCmEvent)

section
variable (target : SrpTargetPort)

/-- The loop of `srp_cm_rep_handler` that posts the receive ring. -/
def postRing (posts : ℕ) (qp : Qp) : Qp :=
  (List.range posts).foldl (fun qp i => qp.post (.iu i)) qp

def srpCmRepHandler (rep : Rep) (ch : SrpRdmaCh) : SrpRdmaCh :=
  if rep.loginRsp = false then { ch with status := -econnreset }
  else if rep.iuBufs = false then { ch with status := -enomem }
  else
    let ch := { ch with qp := ch.qp.map (postRing (min rep.posts target.queueSize)) }
    if rep.posts < target.queueSize then { ch with status := -(rep.err+1) }
    else if target.usingRdmaCm || rep.rts then { ch with status := 0 }
    else { ch with status := -(rep.err+1) }

/-- `srp_ib_cm_rej_handler`: the status of the channel. -/
def srpIbCmRejHandler : IbRej → ℤ
  | .portCmRedirect dlid => if dlid ≠ 0 then srpDlidRedirect else srpPortRedirect
  | .portRedirect => if target.isTopspin then srpPortRedirect else -econnreset
  | .duplicateLocalCommId => -econnreset
  | .consumerDefined => -econnreset
  | .staleConn => srpStaleConn
  | .other => -econnreset

def srpIbCmHandler (ch : SrpRdmaCh) : IbCmEvent → SrpRdmaCh
  | .reqError => completeDone { ch with status := -econnreset }
  | .repReceived rep => completeDone (srpCmRepHandler target rep ch)
  | .rejReceived rej => completeDone { ch with status := srpIbCmRejHandler target rej }
  | .dreqReceived => { ch with connected := false }
  | .timewaitExit => completeDone { ch with status := 0 }
  | .mraReceived => ch
  | .dreqError => ch
  | .drepReceived => ch
  | .unhandled => ch

def srpRdmaCmRejHandler : RdmaRej → ℤ
  | .duplicateLocalCommId => -econnreset
  | .consumerDefined => -econnreset
  | .staleConn => srpStaleConn
  | .other => -econnreset

def srpRdmaCmHandler (ch : SrpRdmaCh) : RdmaCmEvent → SrpRdmaCh
  | .addrResolved => completeDone { ch with status := 0 }
  | .addrError => completeDone { ch with status := -enxio }
  | .routeResolved => completeDone { ch with status := 0 }
  | .routeError => completeDone { ch with status := -ehostunreach }
  | .unreachable => completeDone { ch with status := -ehostunreach }
  | .connectError => completeDone { ch with status := -econnreset }
  | .established rep => completeDone (srpCmRepHandler target rep ch)
  | .rejected rej => completeDone { ch with status := srpRdmaCmRejHandler rej }
  | .disconnected => if ch.connected then completeDone { ch with status := 0 } else ch
  | .timewaitExit => completeDone { ch with status := 0 }
  | .unhandled => ch

/-- The CM ID after it has delivered an event, if it can deliver it. -/
def CmId.deliver (id : CmId) : CmEvent → Option CmId
  | .ib _ => if !target.usingRdmaCm && id.conn then some id else none
  | .rdma e =>
      if target.usingRdmaCm then
        match e with
        | .addrResolved => if id.addr then some { id with addr := false } else none
        | .addrError => if id.addr then some { id with addr := false } else none
        | .routeResolved => if id.route then some { id with route := false } else none
        | .routeError => if id.route then some { id with route := false } else none
        | .unhandled => some id
        | _ => if id.conn then some id else none
      else none

def cmHandler (ch : SrpRdmaCh) : CmEvent → SrpRdmaCh
  | .ib e => srpIbCmHandler target ch e
  | .rdma e => srpRdmaCmHandler target ch e

end

def srpPathRecCompletion (status : ℤ) (ch : SrpRdmaCh) : SrpRdmaCh :=
  completeDone { ch with status := status }

/-- `srp_handle_qp_err`, as far as it concerns the connection. -/
def srpHandleQpErr : RecvWr → SrpRdmaCh → SrpRdmaCh
  | .last, ch => completeDone ch
  | .iu _, ch => ch

/-- `srp_recv_completion` for one completion. `srp_handle_recv` posts the buffer again. -/
def srpRecvCompletion (reposted : Bool) (ch : SrpRdmaCh) : Option SrpRdmaCh :=
  (ch.qp.bind Qp.poll).map fun p =>
    match p with
    | (wr, true, qp) => { ch with qp := some (if reposted then qp.post wr else qp) }
    | (wr, false, qp) => srpHandleQpErr wr { ch with qp := some qp }

/-- Who connects the channel: `srp_create_target` or `srp_rport_reconnect`. -/
inductive Caller where
  | login
  | reconnect
deriving DecidableEq, Repr

/-- What follows `srp_destroy_qp`: the rest of `srp_create_ch_ib` or of `srp_free_ch_ib`. -/
inductive Rest where
  | create (caller : Caller) (ok : Bool)
  | free
deriving DecidableEq, Repr

/-- The next call of the program. `ok` tells whether all calls of this attempt succeeded;
`last` is the number of the request `SRP_LAST_WR_ID`, if it was posted. -/
inductive Pc where
  | newCmId (caller : Caller)
  | resolveAddr (caller : Caller)
  | waitAddr (caller : Caller)
  | createChIb (caller : Caller) (ok : Bool)
  | created (caller : Caller) (ok : Bool)
  | lookupPath (caller : Caller)
  | waitPath (caller : Caller)
  | sendReq (caller : Caller)
  | waitRep (caller : Caller)
  | idle
  | freeChIb
  | modifyQp (rest : Rest)
  | postRecv (rest : Rest)
  | drain (rest : Rest) (last : ℕ)
  | ibDestroyQp (rest : Rest) (last : Option ℕ)
  | freed
deriving DecidableEq, Repr

structure State where
  pc : Pc
  ch : SrpRdmaCh

/-- A channel that `srp_create_target` has just allocated. -/
def State.allocated : State := ⟨.newCmId .login, {}⟩

/-- The program goes on with `go`, where `ok` is the result of its next call, or with `wake`
from `wait_for_completion` or, if there is a signal, from the interruptible version. -/
inductive Event where
  | cm (new : Bool) (e : CmEvent)
  | pathRec (status : ℤ)
  | completeRecv (ok : Bool)
  | recvCompletion (reposted : Bool)
  | reconnect (scanning : Bool)
  | remove
  | go (ok : Bool)
  | wake (signal : Bool)

/-- After a failure `srp_create_target` frees the channel, `srp_rport_reconnect` returns. -/
def Caller.failed : Caller → Pc
  | .login => .freeChIb
  | .reconnect => .idle

/-- `srp_rport_reconnect` creates a queue pair even if there is no new CM ID. -/
def Caller.noCmId : Caller → Pc
  | .login => .freeChIb
  | .reconnect => .createChIb .reconnect false

section
variable (target : SrpTargetPort)

/-- The call of `srp_new_cm_id` that creates a CM ID. With the IB CM it takes the place of the
old one, which is destroyed. -/
def srpNewCmId (ok : Bool) (caller : Caller) (ch : SrpRdmaCh) : State :=
  if ok = false then ⟨caller.noCmId, ch⟩
  else if target.usingRdmaCm then ⟨.resolveAddr caller, { ch with newCmId := some {} }⟩
  else ⟨.createChIb caller true, { ch with cmId := some {} }⟩

/-- `rdma_resolve_addr` in `srp_new_rdma_cm_id`. -/
def rdmaResolveAddr (ok : Bool) (caller : Caller) (ch : SrpRdmaCh) : State :=
  let ch := initDone ch
  if ok then ⟨.waitAddr caller, { ch with newCmId := some { addr := true } }⟩
  else ⟨caller.noCmId, { ch with newCmId := none }⟩

/-- `srp_new_rdma_cm_id` after `wait_for_completion_interruptible`. -/
def addrResolved (signal : Bool) (caller : Caller) (ch : SrpRdmaCh) : State :=
  if signal ∨ ch.status ≠ 0 then ⟨caller.noCmId, { ch with newCmId := none }⟩
  else ⟨.createChIb caller true, { ch with cmId := ch.newCmId, newCmId := none }⟩

/-- `srp_create_ch_ib` up to its call of `srp_destroy_qp`. -/
def srpCreateChIb (created : Bool) (caller : Caller) (ok : Bool) (ch : SrpRdmaCh) : State :=
  if created then
    match ch.qp with
    | some _ => ⟨.modifyQp (.create caller ok), ch⟩
    | none => ⟨.created caller ok, { ch with qp := some .created }⟩
  else
    match caller with
    | .login => ⟨.freeChIb, ch⟩
    | .reconnect => ⟨.created .reconnect false, ch⟩

/-- `srp_lookup_path` up to its wait. -/
def srpLookupPath (ok : Bool) (caller : Caller) (ch : SrpRdmaCh) : State :=
  let ch := initDone ch
  if ok = false then ⟨caller.failed, ch⟩
  else if target.usingRdmaCm then
    ⟨.waitPath caller, { ch with cmId := ch.cmId.map fun id => { id with route := true } }⟩
  else ⟨.waitPath caller, { ch with pathQueries := ch.pathQueries+1 }⟩

/-- The rest of `srp_lookup_path`. The RDMA version does not look at the result of the wait. -/
def pathResolved (signal : Bool) (caller : Caller) (ch : SrpRdmaCh) : State :=
  if signal && !target.usingRdmaCm then ⟨caller.failed, ch⟩
  else if ch.status ≠ 0 then ⟨caller.failed, ch⟩
  else ⟨.sendReq caller, ch⟩

/-- `srp_send_req` in the loop of `srp_connect_ch`. -/
def srpSendReq (ok : Bool) (caller : Caller) (ch : SrpRdmaCh) : State :=
  let ch := initDone ch
  if ok then ⟨.waitRep caller, { ch with cmId := ch.cmId.map fun id => { id with conn := true } }⟩
  else ⟨caller.failed, ch⟩

/-- The loop of `srp_connect_ch` after its wait. -/
def srpConnectCh (signal : Bool) (caller : Caller) (ch : SrpRdmaCh) : State :=
  if signal then ⟨caller.failed, ch⟩
  else if ch.status = 0 then ⟨.idle, { ch with connected := true }⟩
  else if ch.status = srpPortRedirect then ⟨.lookupPath caller, ch⟩
  else if ch.status = srpDlidRedirect then ⟨.sendReq caller, ch⟩
  else if ch.status = srpStaleConn then ⟨caller.failed, { ch with status := -econnreset }⟩
  else ⟨caller.failed, ch⟩

/-- `srp_free_ch_ib` up to its call of `srp_destroy_qp`. -/
def srpFreeChIb (ch : SrpRdmaCh) : State :=
  let ch := { ch with cmId := none }
  match ch.qp with
  | some _ => ⟨.modifyQp .free, ch⟩
  | none => ⟨.freed, ch⟩

/-- The beginning of `srp_destroy_qp`: `ib_modify_qp` and `init_completion`. -/
def drainStart (ok : Bool) (rest : Rest) (qp : Qp) (ch : SrpRdmaCh) : State :=
  if ok then ⟨.postRecv rest, initDone { ch with qp := some qp.modifyToError }⟩
  else ⟨.ibDestroyQp rest none, ch⟩

def drainPost (ok : Bool) (rest : Rest) (qp : Qp) (ch : SrpRdmaCh) : State :=
  if ok then ⟨.drain rest qp.recvs.length, { ch with qp := some (qp.post .last) }⟩
  else ⟨.ibDestroyQp rest none, ch⟩

def qpDestroyed (ch : SrpRdmaCh) : Rest → State
  | .create caller ok => ⟨.created caller ok, { ch with qp := some .created }⟩
  | .free => ⟨.freed, { ch with qp := none }⟩

/-- The next call of the program returns. In `created` the result `ok` stands for
`srp_alloc_req_data` and for the other channels of the target. -/
def go (s : State) (ok : Bool) : Option State :=
  match s.pc with
  | .newCmId caller => some (srpNewCmId target ok caller s.ch)
  | .resolveAddr caller => some (rdmaResolveAddr ok caller s.ch)
  | .createChIb caller connectable => some (srpCreateChIb ok caller connectable s.ch)
  | .created caller connectable =>
      some (if connectable && ok then ⟨.lookupPath caller, s.ch⟩ else ⟨caller.failed, s.ch⟩)
  | .lookupPath caller => some (srpLookupPath target ok caller s.ch)
  | .sendReq caller => some (srpSendReq ok caller s.ch)
  | .freeChIb => some (srpFreeChIb s.ch)
  | .modifyQp rest => s.ch.qp.map fun qp => drainStart ok rest qp s.ch
  | .postRecv rest => s.ch.qp.map fun qp => drainPost ok rest qp s.ch
  | .ibDestroyQp rest _ => some (qpDestroyed s.ch rest)
  | .waitAddr _ => none
  | .waitPath _ => none
  | .waitRep _ => none
  | .drain _ _ => none
  | .idle => none
  | .freed => none

/-- The program after a wait. -/
def woken (signal : Bool) (ch : SrpRdmaCh) : Pc → Option State
  | .waitAddr caller => some (addrResolved signal caller ch)
  | .waitPath caller => some (pathResolved target signal caller ch)
  | .waitRep caller => some (srpConnectCh signal caller ch)
  | .drain rest last => if signal then none else some ⟨.ibDestroyQp rest (some last), ch⟩
  | _ => none

def wake (s : State) (signal : Bool) : Option State :=
  if signal then woken target true s.ch s.pc
  else if 0 < s.ch.done then woken target false { s.ch with done := s.ch.done-1 } s.pc
  else none

def cmEvent (new : Bool) (e : CmEvent) (ch : SrpRdmaCh) : Option SrpRdmaCh :=
  if new then
    (ch.newCmId.bind fun id => id.deliver target e).map fun id =>
      cmHandler target { ch with newCmId := some id } e
  else
    (ch.cmId.bind fun id => id.deliver target e).map fun id =>
      cmHandler target { ch with cmId := some id } e

def step (s : State) : Event → Option State
  | .cm new e => (cmEvent target new e s.ch).map fun ch => { s with ch := ch }
  | .pathRec status =>
      if 0 < s.ch.pathQueries then
        some { s with ch :=
          srpPathRecCompletion status { s.ch with pathQueries := s.ch.pathQueries-1 } }
      else none
  | .completeRecv ok =>
      (s.ch.qp.bind fun qp => qp.complete ok).map fun qp =>
        { s with ch := { s.ch with qp := some qp } }
  | .recvCompletion reposted =>
      (srpRecvCompletion reposted s.ch).map fun ch => { s with ch := ch }
  | .reconnect scanning =>
      if s.pc = .idle then
        some ⟨if scanning then .idle else .newCmId .reconnect, { s.ch with connected := false }⟩
      else none
  | .remove =>
      if s.pc = .idle then some ⟨.freeChIb, { s.ch with connected := false }⟩ else none
  | .go ok => go target s ok
  | .wake signal => wake target s signal

end

end IbSrp.ChannelConnection

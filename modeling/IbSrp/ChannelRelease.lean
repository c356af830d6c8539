import IbSrp.LabelledRuns
import IbSrp.CmIdentifier

/-!
# How the target driver releases a channel

A channel of the target begins with an SRP_LOGIN_REQ and ends in
`srpt_release_channel_work`, or in the error path of the login when the REP cannot be sent.
In between its state goes from connecting to live, to disconnecting, to draining and to
releasing. Several parties move it: the handler of the connection manager, which takes one
event after another from the work list of the CM ID; the HCA, which reports the last work
request of a queue pair in the error state; the completion thread and the target core, which
post work requests; and everybody who may close a channel, that is another login of the same
initiator, the target core and the removal of the device.

A handler that has taken a decision under the lock acts on it later, without the lock. So
each section under a lock is an event of its own here. A call of the HCA driver is one step,
and so is `__srpt_close_ch`: it runs under the lock of the device, and a message that the CM
receives in the middle of it might as well have come before. Objects are used in the events:
the queue pair, the CM ID and the channel itself. `fault` is set when one is used that has
been destroyed, when `BUG_ON` finds no channel, or when the release work is queued twice.

Neither the HCA nor the target core is part of the driver. What is assumed of them is said by
`DriverErrs` and `SessionUsed`, not by the steps.
-/
namespace IbSrp.ChannelRelease
open LabelledRuns CmIdentifier

/-- `enum rdma_ch_state` -/
inductive ChState where
  | connecting | live | disconnecting | draining | releasing
deriving DecidableEq, Repr

/-- Where the handler for a CM ID is: at `ib_send_cm_rep`, at the insertion into
`rch_list`, in the error path of the login, at `srpt_ch_qp_rts`, at `srpt_close_ch` after
that, at `ib_send_cm_drep`, or at `srpt_ch_qp_err`. -/
inductive Handler where
  | idle | replying | listing | unwinding | rts | closing | drep | resetting
deriving DecidableEq, Repr

/-- How much of a channel is gone. The release has begun; the session is deregistered, the
completion thread has stopped, the queue pair is destroyed, the ring is freed, the channel is
off the list, the CM ID is destroyed, the channel is freed. -/
inductive Work where
  | none | begun | sess | thread | ib | ring | unlisted | cm | done
deriving DecidableEq, Repr

/-- `struct srpt_rdma_ch`. `nexus` stands for the port identifiers of both sides and the
port, `lastWqe` says that the HCA is going to report the last work request. -/
structure Ch where
  nexus : ℕ
  state : ChState := .connecting
  handler : Handler := .replying
  work : Work := .none
  listed : Bool := false
  qpErr : Bool := false
  lastWqe : Bool := false
  cm : CmId := {}
  releaseDone : Bool := false
  fault : Bool := false
deriving DecidableEq, Repr

namespace Ch

def hasSess (c : Ch) : Bool := c.work = .none || c.work = .begun

def hasThread (c : Ch) : Bool := c.hasSess || c.work = .sess

def hasQp (c : Ch) : Bool := c.hasThread || c.work = .thread

def hasCm (c : Ch) : Bool := c.work ≠ .cm && c.work ≠ .done

def allocated (c : Ch) : Bool := c.work ≠ .done

def use (alive : Bool) (c : Ch) : Ch := { c with fault := c.fault || !alive }

/-- Whether a login of the same initiator takes the channel for an existing one. -/
def active (c : Ch) : Bool := c.state = .connecting || c.state = .live

/-- The messages of `__srpt_close_ch`: a connecting channel sends a REJ and then, like a live
one, a DREQ. -/
def closeCm (sent : Bool) (c : Ch) : CmId :=
  if c.state = .connecting then c.cm.ibSendCmRej.ibSendCmDreq sent else c.cm.ibSendCmDreq sent

/-- `__srpt_close_ch`; `sent` says whether a DREQ can be sent. -/
def close (sent : Bool) (c : Ch) : Ch :=
  if c.active then
    { c.use (c.allocated && c.hasCm) with state := .disconnecting, cm := c.closeCm sent }
  else c.use c.allocated

/-- The part of `srpt_drain_channel` under the lock. -/
def drain (c : Ch) : Ch :=
  if c.listed ∧ (c.active ∨ c.state = .disconnecting) then
    { c with state := .draining, handler := .resetting }
  else c

/-- `srpt_cm_handler` up to the end of its first section. -/
def srptCmHandler (c : Ch) : CmEvent → Ch
  | .rtuReceived | .userEstablished =>
      if c.state = .connecting then { c.use c.listed with state := .live, handler := .rts }
      else c.use c.listed
  | .dreqReceived =>
      if c.active then { c.use c.listed with state := .disconnecting, handler := .drep }
      else c.use c.listed
  | .rejReceived | .drepReceived | .timewaitExit => c.drain

/-- The next section of `srpt_release_channel_work`; `ib_destroy_cm_id` waits for the handler. -/
def releaseWork (c : Ch) : Option Ch :=
  match c.work with
  | .none => none
  | .begun => some { c with work := .sess }
  | .sess => some { c with work := .thread }
  | .thread => some { c with work := .ib }
  | .ib => some { c with work := .ring }
  | .ring => some { c with work := .unlisted, listed := false }
  | .unlisted => if c.handler = .idle then some { c with work := .cm } else none
  | .cm => some { c with work := .done }
  | .done => none

/-- The next section of the error path of `srpt_cm_req_recv`. The handler returns an error in
the end, and the CM destroys the CM ID. -/
def unwind (c : Ch) : Option Ch :=
  match c.work with
  | .begun => some { c with work := .sess }
  | .sess => some { c with work := .thread }
  | .thread => some { c with work := .ib }
  | .ib => some { c with work := .ring }
  | .ring => some { c with work := .done, handler := .idle }
  | .none | .unlisted | .cm | .done => none

end Ch

/-- The events of one channel. `cm` is work of the CM, `repError` a REP that got no answer,
`commEst` a message of the initiator before its RTU, `deliver` the next event of the work
list, `complete` a work request of the completion thread, `post` one of the target core, and
`qpError` an error that the HCA itself finds. -/
inductive ChEvent where
  | rep (sent : Bool)
  | unwind
  | listAdd
  | cm (input : CmInput)
  | repError
  | commEst
  | deliver
  | qpRts (ok : Bool)
  | closeCh (sent : Bool)
  | drep
  | qpErr (ok : Bool)
  | qpError
  | lastWqe
  | work
  | closeSession (sent : Bool)
  | complete
  | post
deriving DecidableEq, Repr

def Ch.step (c : Ch) : ChEvent → Option Ch
  | .rep sent =>
      if c.handler = .replying then
        match c.cm.ibSendCmRep sent with
        | some cm => some { c with cm := cm, handler := .listing }
        | none => some { c with state := .releasing, handler := .unwinding, work := .begun }
      else none
  | .unwind => if c.handler = .unwinding then c.unwind else none
  | .listAdd =>
      if c.handler = .listing then some { c with listed := true, handler := .idle } else none
  | .cm input =>
      if c.hasCm then (c.cm.cmWorkHandler input).map fun cm => { c with cm := cm } else none
  | .repError =>
      if c.hasCm then c.cm.cmRepError.map fun cm => { c.drain with cm := cm } else none
  | .commEst => if c.hasQp then some { c.use c.hasCm with cm := c.cm.cmEstablish } else none
  | .deliver =>
      if c.handler = .idle ∧ c.hasCm then
        match c.cm.workList with
        | [] => none
        | e::rest => some (Ch.srptCmHandler { c with cm := { c.cm with workList := rest } } e)
      else none
  | .qpRts ok =>
      if c.handler = .rts then
        some { c.use c.hasQp with handler := if ok then .idle else .closing }
      else none
  | .closeCh sent =>
      if c.handler = .closing then some { c.close sent with handler := .idle } else none
  | .drep =>
      if c.handler = .drep then
        some { c.use (c.allocated && c.hasCm) with cm := c.cm.ibSendCmDrep, handler := .idle }
      else none
  | .qpErr ok =>
      if c.handler = .resetting then
        some { c.use c.hasQp with
          handler := .idle, qpErr := c.qpErr || ok, lastWqe := c.lastWqe || (ok && !c.qpErr) }
      else none
  | .qpError =>
      if c.hasQp ∧ !c.qpErr then some { c with qpErr := true, lastWqe := true } else none
  | .lastWqe =>
      if c.hasQp ∧ c.lastWqe then
        if c.state = .draining then
          some { c.use (c.work = .none) with lastWqe := false, state := .releasing, work := .begun }
        else some { c with lastWqe := false }
      else none
  | .work => if c.handler = .unwinding then none else c.releaseWork
  | .closeSession sent =>
      if c.hasSess ∧ !c.releaseDone then some { c.close sent with releaseDone := true } else none
  | .complete => if c.hasThread then some (c.use c.hasQp) else none
  | .post => some (c.use c.hasQp)

/-- `req` is an SRP_LOGIN_REQ up to the point where the reply is sent, provided that it gets
as far as the list of channels: a request that is refused because of its length or because
the port is not enabled closes nothing and is no event here. With SRP_MULTICHAN_SINGLE the
existing channels are closed, whether or not the request is rejected after that. `releaseSdev`
is the loop of `srpt_release_sdev`. No DREQ can be sent for the channels in `failed`. -/
inductive Event where
  | req (nexus : ℕ) (single created : Bool) (failed : List ℕ)
  | releaseSdev (failed : List ℕ)
  | ch (k : ℕ) (e : ChEvent)
deriving DecidableEq, Repr

abbrev State := List Ch

def closeListed (p : Ch → Bool) (failed : List ℕ) (s : State) : State :=
  s.mapIdx fun k c => if c.listed && p c then c.close (k ∉ failed) else c

def login (nexus : ℕ) (single created : Bool) (failed : List ℕ) (s : State) : State :=
  (if single then closeListed (fun c => c.nexus = nexus && c.active) failed s else s)++
    if created then [{ nexus := nexus }] else []

def step (s : State) : Event → Option State
  | .req nexus single created failed => some (login nexus single created failed s)
  | .releaseSdev failed => some (closeListed (fun _ => true) failed s)
  | .ch k e =>
      match s[k]? with
      | none => none
      | some c => (c.step e).map (s.set k)

/-- A queue pair enters the error state only when the driver tells it to. -/
def DriverErrs (_ : State) : Event → Prop
  | .ch _ .qpError => False
  | _ => True

/-- The target core uses a channel only as long as its session is registered. -/
def SessionUsed (s : State) : Event → Prop
  | .ch k .post => ∀ c, s[k]? = some c → c.hasSess = true
  | _ => True

/-- The stages that the release work and the error path of the login share. -/
def Work.common : Work → Bool
  | .sess | .thread | .ib | .ring => true
  | .none | .begun | .unlisted | .cm | .done => false

inductive Moved (c : Ch) : ChEvent → Ch → Prop
  | repSent {sent : Bool} {cm : CmId} : c.handler = .replying →
      c.cm.ibSendCmRep sent = some cm →
      Moved c (.rep sent) { c with cm := cm, handler := .listing }
  | repFailed {sent : Bool} : c.handler = .replying →
      Moved c (.rep sent) { c with state := .releasing, handler := .unwinding, work := .begun }
  | unwound {w : Work} : c.handler = .unwinding → w.common = true →
      Moved c .unwind { c with work := w }
  | unwoundAll : c.handler = .unwinding →
      Moved c .unwind { c with work := .done, handler := .idle }
  | listAdd : c.handler = .listing → Moved c .listAdd { c with listed := true, handler := .idle }
  | cm {input : CmInput} {cm : CmId} : Handled c.cm input cm →
      Moved c (.cm input) { c with cm := cm }
  | repError {cm : CmId} : c.listed = true → c.active = true ∨ c.state = .disconnecting →
      c.cm.cmRepError = some cm →
      Moved c .repError { c with state := .draining, handler := .resetting, cm := cm }
  | repErrorLost {cm : CmId} : ¬ (c.listed = true ∧ (c.active = true ∨ c.state = .disconnecting)) →
      c.cm.cmRepError = some cm → Moved c .repError { c with cm := cm }
  | commEst : c.hasQp = true → Moved c .commEst { c.use c.hasCm with cm := c.cm.cmEstablish }
  | rtu {e : CmEvent} {rest : List CmEvent} : c.handler = .idle → c.hasCm = true →
      c.cm.workList = e::rest → e.final = false → e ≠ .dreqReceived → c.state = .connecting →
      Moved c .deliver { c.use c.listed with
        state := .live, handler := .rts, cm := { c.cm with workList := rest } }
  | dreq {rest : List CmEvent} : c.handler = .idle → c.hasCm = true →
      c.cm.workList = .dreqReceived::rest → c.active = true →
      Moved c .deliver { c.use c.listed with
        state := .disconnecting, handler := .drep, cm := { c.cm with workList := rest } }
  | ignored {e : CmEvent} {rest : List CmEvent} : c.handler = .idle → c.hasCm = true →
      c.cm.workList = e::rest → e.final = false → c.active = false ∨ e ≠ .dreqReceived →
      Moved c .deliver { c.use c.listed with cm := { c.cm with workList := rest } }
  | drained {e : CmEvent} {rest : List CmEvent} : c.handler = .idle →
      c.cm.workList = e::rest → e.final = true → c.listed = true →
      c.active = true ∨ c.state = .disconnecting →
      Moved c .deliver { c with
        state := .draining, handler := .resetting, cm := { c.cm with workList := rest } }
  | drainedBefore {e : CmEvent} {rest : List CmEvent} : c.handler = .idle → c.hasCm = true →
      c.cm.workList = e::rest → e.final = true →
      ¬ (c.listed = true ∧ (c.active = true ∨ c.state = .disconnecting)) →
      Moved c .deliver { c with cm := { c.cm with workList := rest } }
  | qpRts {ok : Bool} : c.handler = .rts →
      Moved c (.qpRts ok) { c.use c.hasQp with handler := if ok then .idle else .closing }
  | closeCh {sent : Bool} : c.handler = .closing →
      Moved c (.closeCh sent) { c.close sent with handler := .idle }
  | drep : c.handler = .drep →
      Moved c .drep
        { c.use (c.allocated && c.hasCm) with cm := c.cm.ibSendCmDrep, handler := .idle }
  | qpErr {ok : Bool} : c.handler = .resetting →
      Moved c (.qpErr ok) { c.use c.hasQp with
        handler := .idle, qpErr := c.qpErr || ok, lastWqe := c.lastWqe || (ok && !c.qpErr) }
  | qpError : Moved c .qpError { c with qpErr := true, lastWqe := true }
  | lastWqe : c.hasQp = true → c.lastWqe = true → c.state = .draining →
      Moved c .lastWqe
        { c.use (c.work = .none) with lastWqe := false, state := .releasing, work := .begun }
  | lastWqeIgnored : c.hasQp = true → c.lastWqe = true → c.state ≠ .draining →
      Moved c .lastWqe { c with lastWqe := false }
  | worked {w : Work} : c.handler ≠ .unwinding → c.work = .begun ∨ c.work.common = true →
      w.common = true → Moved c .work { c with work := w }
  | listDel : c.handler ≠ .unwinding → c.work = .ring →
      Moved c .work { c with work := .unlisted, listed := false }
  | destroyCm : c.handler = .idle → c.work = .unlisted → Moved c .work { c with work := .cm }
  | free : c.handler ≠ .unwinding → c.work = .cm → Moved c .work { c with work := .done }
  | closeSession {sent : Bool} : c.hasSess = true → c.releaseDone = false →
      Moved c (.closeSession sent) { c.close sent with releaseDone := true }
  | complete : c.hasThread = true → Moved c .complete (c.use c.hasQp)
  | post : Moved c .post (c.use c.hasQp)

section
variable {c c' : Ch}

theorem moved_of_releaseWork (hhandler : c.handler ≠ .unwinding) (h : c.releaseWork = some c') :
    Moved c .work c' := by
  unfold Ch.releaseWork at h
  cases hw : c.work with
  | none | done =>
      rw [hw] at h
      cases h
  | begun =>
      rw [hw] at h
      cases h
      exact .worked hhandler (Or.inl hw) rfl
  | sess | thread | ib =>
      rw [hw] at h
      cases h
      exact .worked hhandler (Or.inr (hw ▸ rfl)) rfl
  | ring =>
      rw [hw] at h
      cases h
      exact .listDel hhandler hw
  | unlisted =>
      rw [hw] at h
      simp only at h
      split_ifs at h with hidle
      cases h
      exact .destroyCm hidle hw
  | cm =>
      rw [hw] at h
      cases h
      exact .free hhandler hw

theorem moved_of_unwind (hhandler : c.handler = .unwinding) (h : c.unwind = some c') :
    Moved c .unwind c' := by
  unfold Ch.unwind at h
  cases hw : c.work with
  | none | unlisted | cm | done =>
      rw [hw] at h
      cases h
  | begun | sess | thread | ib =>
      rw [hw] at h
      cases h
      exact .unwound hhandler rfl
  | ring =>
      rw [hw] at h
      cases h
      exact .unwoundAll hhandler

theorem moved_of_drain {e : CmEvent} {rest : List CmEvent} (hidle : c.handler = .idle)
    (hcm : c.hasCm = true) (hlist : c.cm.workList = e::rest) (hfinal : e.final = true) :
    Moved c .deliver (Ch.drain { c with cm := { c.cm with workList := rest } }) := by
  unfold Ch.drain
  split_ifs with hdrain
  · exact .drained hidle hlist hfinal hdrain.1 hdrain.2
  · exact .drainedBefore hidle hcm hlist hfinal hdrain

theorem moved_of_deliver {e : CmEvent} {rest : List CmEvent} (hidle : c.handler = .idle)
    (hcm : c.hasCm = true) (hlist : c.cm.workList = e::rest) :
    Moved c .deliver (Ch.srptCmHandler { c with cm := { c.cm with workList := rest } } e) := by
  cases e with
  | rtuReceived =>
      simp only [Ch.srptCmHandler]
      split_ifs with hstate
      · exact .rtu hidle hcm hlist rfl (by decide) hstate
      · exact .ignored hidle hcm hlist rfl (Or.inr (by decide))
  | userEstablished =>
      simp only [Ch.srptCmHandler]
      split_ifs with hstate
      · exact .rtu hidle hcm hlist rfl (by decide) hstate
      · exact .ignored hidle hcm hlist rfl (Or.inr (by decide))
  | dreqReceived =>
      simp only [Ch.srptCmHandler]
      split_ifs with hactive
      · exact .dreq hidle hcm hlist hactive
      · exact .ignored hidle hcm hlist rfl (Or.inl (Bool.eq_false_iff.mpr hactive))
  | rejReceived => exact moved_of_drain hidle hcm hlist rfl
  | drepReceived => exact moved_of_drain hidle hcm hlist rfl
  | timewaitExit => exact moved_of_drain hidle hcm hlist rfl

theorem moved_of_repError {cm : CmId} (herror : c.cm.cmRepError = some cm) :
    Moved c .repError { c.drain with cm := cm } := by
  unfold Ch.drain
  split_ifs with hdrain
  · exact .repError hdrain.1 hdrain.2 herror
  · exact .repErrorLost hdrain herror

theorem moved_of_step {e : ChEvent} (h : c.step e = some c') : Moved c e c' := by
  cases e with
  | rep sent =>
      simp only [Ch.step] at h
      split_ifs at h with hhandler
      cases hsent : c.cm.ibSendCmRep sent with
      | none =>
          rw [hsent] at h
          cases h
          exact .repFailed hhandler
      | some cm =>
          rw [hsent] at h
          cases h
          exact .repSent hhandler hsent
  | unwind =>
      simp only [Ch.step] at h
      split_ifs at h with hhandler
      exact moved_of_unwind hhandler h
  | listAdd =>
      simp only [Ch.step] at h
      split_ifs at h with hhandler
      cases h
      exact .listAdd hhandler
  | cm input =>
      simp only [Ch.step] at h
      split_ifs at h with hcm
      obtain ⟨cm, hwork, rfl⟩ := Option.map_eq_some_iff.mp h
      exact .cm (handled_of_work hwork)
  | repError =>
      simp only [Ch.step] at h
      split_ifs at h with hcm
      obtain ⟨cm, herror, rfl⟩ := Option.map_eq_some_iff.mp h
      exact moved_of_repError herror
  | commEst =>
      simp only [Ch.step] at h
      split_ifs at h with hqp
      cases h
      exact .commEst hqp
  | deliver =>
      simp only [Ch.step] at h
      split_ifs at h with hguard
      cases hlist : c.cm.workList with
      | nil =>
          rw [hlist] at h
          cases h
      | cons e rest =>
          rw [hlist] at h
          cases h
          exact moved_of_deliver hguard.1 hguard.2 hlist
  | qpRts ok =>
      simp only [Ch.step] at h
      by_cases hhandler : c.handler = .rts
      · rw [if_pos hhandler] at h
        cases h
        exact .qpRts hhandler
      · rw [if_neg hhandler] at h
        cases h
  | closeCh sent =>
      simp only [Ch.step] at h
      split_ifs at h with hhandler
      cases h
      exact .closeCh hhandler
  | drep =>
      simp only [Ch.step] at h
      split_ifs at h with hhandler
      cases h
      exact .drep hhandler
  | qpErr ok =>
      simp only [Ch.step] at h
      split_ifs at h with hhandler
      cases h
      exact .qpErr hhandler
  | qpError =>
      simp only [Ch.step] at h
      split_ifs at h
      cases h
      exact .qpError
  | lastWqe =>
      simp only [Ch.step] at h
      split_ifs at h with hguard hstate
      · cases h
        exact .lastWqe hguard.1 hguard.2 hstate
      · cases h
        exact .lastWqeIgnored hguard.1 hguard.2 hstate
  | work =>
      simp only [Ch.step] at h
      split_ifs at h with hhandler
      exact moved_of_releaseWork hhandler h
  | closeSession sent =>
      simp only [Ch.step] at h
      split_ifs at h with hguard
      cases h
      exact .closeSession hguard.1 (by simpa using hguard.2)
  | complete =>
      simp only [Ch.step] at h
      split_ifs at h with hthread
      cases h
      exact .complete hthread
  | post =>
      cases h
      exact .post

end

/-- The login is not over: the channel is not on the list yet. -/
structure Opening (c : Ch) : Prop where
  handler : c.handler = .replying ∨ c.handler = .listing
  state : c.state = .connecting ∨ c.state = .disconnecting
  work : c.work = .none
  listed : c.listed = false
  qpErr : c.qpErr = false
  lastWqe : c.lastWqe = false

/-- The channel is on the list and no final event has been handled. -/
structure Opened (c : Ch) : Prop where
  handler : c.handler = .idle ∨ c.handler = .rts ∨ c.handler = .closing ∨ c.handler = .drep
  state : c.active = true ∨ c.state = .disconnecting
  work : c.work = .none
  listed : c.listed = true
  qpErr : c.qpErr = false
  lastWqe : c.lastWqe = false

/-- A final event has been handled; the queue pair is to be reset, or has been. -/
structure Draining (c : Ch) : Prop where
  handler : c.handler = .resetting ∧ c.qpErr = false ∨ c.handler = .idle
  state : c.state = .draining
  work : c.work = .none
  listed : c.listed = true
  settled : Settled c.cm
  lastWqe : c.lastWqe = c.qpErr

/-- `srpt_release_channel_work` is queued or runs. -/
structure Releasing (c : Ch) : Prop where
  handler : c.handler = .idle
  state : c.state = .releasing
  work : c.work ≠ .none ∧ c.work ≠ .done
  listed : c.listed = true ↔ c.work ≠ .unlisted ∧ c.work ≠ .cm
  settled : Settled c.cm
  qpErr : c.qpErr = true
  lastWqe : c.lastWqe = false

/-- The login is taken back because its REP could not be sent. -/
structure Unwinding (c : Ch) : Prop where
  handler : c.handler = .unwinding
  state : c.state = .releasing
  work : c.work = .begun ∨ c.work.common = true
  listed : c.listed = false
  lastWqe : c.lastWqe = false

structure Gone (c : Ch) : Prop where
  handler : c.handler = .idle
  state : c.state = .releasing
  work : c.work = .done
  listed : c.listed = false

/-- Where a channel is between its login and its end. -/
inductive Phase (c : Ch) : Prop
  | opening (h : Opening c)
  | opened (h : Opened c)
  | draining (h : Draining c)
  | releasing (h : Releasing c)
  | unwinding (h : Unwinding c)
  | gone (h : Gone c)

structure Good (c : Ch) : Prop where
  fault : c.fault = false
  orderly : Orderly c.cm
  phase : Phase c

theorem good_new (nexus : ℕ) : Good { nexus := nexus } :=
  ⟨rfl, orderly_new, .opening ⟨Or.inl rfl, Or.inl rfl, rfl, rfl, rfl, rfl⟩⟩

section
variable {c c' : Ch}

theorem common_ne {w : Work} (h : w.common = true) :
    w ≠ .none ∧ w ≠ .begun ∧ w ≠ .unlisted ∧ w ≠ .cm ∧ w ≠ .done := by
  cases w with
  | none | begun | unlisted | cm | done => cases h
  | sess | thread | ib | ring => decide

theorem active_iff (c : Ch) : c.active = true ↔ c.state = .connecting ∨ c.state = .live := by
  simp [Ch.active]

theorem hasSess_of_none (hwork : c.work = .none) : c.hasSess = true := by
  simp [Ch.hasSess, hwork]

theorem hasThread_of_hasSess (h : c.hasSess = true) : c.hasThread = true := by
  simp [Ch.hasThread, h]

theorem hasQp_of_hasThread (h : c.hasThread = true) : c.hasQp = true := by
  simp [Ch.hasQp, h]

theorem hasQp_of_none (hwork : c.work = .none) : c.hasQp = true :=
  hasQp_of_hasThread (hasThread_of_hasSess (hasSess_of_none hwork))

theorem hasCm_of_none (hwork : c.work = .none) : (c.allocated && c.hasCm) = true := by
  simp [Ch.allocated, Ch.hasCm, hwork]

/-- The CM ID outlives the queue pair. -/
theorem hasCm_of_hasQp (h : c.hasQp = true) : c.hasCm = true := by
  unfold Ch.hasQp Ch.hasThread Ch.hasSess at h
  unfold Ch.hasCm
  cases hwork : c.work with
  | none | begun | sess | thread | ib | ring | unlisted => rfl
  | cm | done => simp [hwork] at h

theorem allocated_of_hasSess (h : c.hasSess = true) : c.allocated = true := by
  unfold Ch.hasSess at h
  unfold Ch.allocated
  cases hwork : c.work with
  | none | begun | sess | thread | ib | ring | unlisted | cm => rfl
  | done => simp [hwork] at h

theorem use_true (c : Ch) {alive : Bool} (halive : alive = true) : c.use alive = c := by
  unfold Ch.use
  rw [halive, Bool.not_true, Bool.or_false]

theorem Phase.opening_of (h : Phase c) (hlogin : c.handler = .replying ∨ c.handler = .listing) :
    Opening c := by
  cases h with
  | opening h => exact h
  | opened h => rcases h.handler with hh | hh | hh | hh <;> simp [hh] at hlogin
  | draining h => rcases h.handler with hh | hh <;> simp [hh] at hlogin
  | releasing h => simp [h.handler] at hlogin
  | unwinding h => simp [h.handler] at hlogin
  | gone h => simp [h.handler] at hlogin

theorem Phase.opened_of (h : Phase c)
    (hopen : c.handler = .rts ∨ c.handler = .closing ∨ c.handler = .drep) : Opened c := by
  cases h with
  | opening h => rcases h.handler with hh | hh <;> simp [hh] at hopen
  | opened h => exact h
  | draining h => rcases h.handler with hh | hh <;> simp [hh] at hopen
  | releasing h => simp [h.handler] at hopen
  | unwinding h => simp [h.handler] at hopen
  | gone h => simp [h.handler] at hopen

theorem Phase.draining_of (h : Phase c) (hreset : c.handler = .resetting) : Draining c := by
  cases h with
  | opening h => rcases h.handler with hh | hh <;> simp [hh] at hreset
  | opened h => rcases h.handler with hh | hh | hh | hh <;> simp [hh] at hreset
  | draining h => exact h
  | releasing h => simp [h.handler] at hreset
  | unwinding h => simp [h.handler] at hreset
  | gone h => simp [h.handler] at hreset

theorem Phase.unwinding_of (h : Phase c) (hunwind : c.handler = .unwinding) : Unwinding c := by
  cases h with
  | opening h => rcases h.handler with hh | hh <;> simp [hh] at hunwind
  | opened h => rcases h.handler with hh | hh | hh | hh <;> simp [hh] at hunwind
  | draining h => rcases h.handler with hh | hh <;> simp [hh] at hunwind
  | releasing h => simp [h.handler] at hunwind
  | unwinding h => exact h
  | gone h => simp [h.handler] at hunwind

theorem Phase.releasing_of (h : Phase c) (hhandler : c.handler ≠ .unwinding)
    (hwork : c.work ≠ .none) (hdone : c.work ≠ .done) : Releasing c := by
  cases h with
  | opening h => exact absurd h.work hwork
  | opened h => exact absurd h.work hwork
  | draining h => exact absurd h.work hwork
  | releasing h => exact h
  | unwinding h => exact absurd h.handler hhandler
  | gone h => exact absurd h.work hdone

/-- The last work request is reported to a draining channel only. -/
theorem Phase.draining_of_lastWqe (h : Phase c) (hqp : c.hasQp = true)
    (hlast : c.lastWqe = true) : Draining c := by
  cases h with
  | opening h => simp [h.lastWqe] at hlast
  | opened h => simp [h.lastWqe] at hlast
  | draining h => exact h
  | releasing h => simp [h.lastWqe] at hlast
  | unwinding h => simp [h.lastWqe] at hlast
  | gone h => simp [Ch.hasQp, Ch.hasThread, Ch.hasSess, h.work] at hqp

/-- RTU and DREQ are not delivered after a final event. -/
theorem Phase.opened_of_early (h : Phase c) (hidle : c.handler = .idle) (hcm : c.hasCm = true)
    {e : CmEvent} {rest : List CmEvent} (hlist : c.cm.workList = e::rest)
    (hearly : e.final = false) : Opened c := by
  have hmem : e ∈ c.cm.workList := hlist ▸ List.mem_cons_self
  cases h with
  | opening h => rcases h.handler with hh | hh <;> simp [hh] at hidle
  | opened h => exact h
  | draining h => exact absurd (hearly.symm.trans (h.settled.final e hmem)) (by decide)
  | releasing h => exact absurd (hearly.symm.trans (h.settled.final e hmem)) (by decide)
  | unwinding h => simp [h.handler] at hidle
  | gone h => simp [Ch.hasCm, h.work] at hcm

theorem Phase.opened_of_listed (h : Phase c) (hlisted : c.listed = true)
    (hstate : c.active = true ∨ c.state = .disconnecting) : Opened c := by
  cases h with
  | opening h => simp [h.listed] at hlisted
  | opened h => exact h
  | draining h => simp [Ch.active, h.state] at hstate
  | releasing h => simp [Ch.active, h.state] at hstate
  | unwinding h => simp [Ch.active, h.state] at hstate
  | gone h => simp [Ch.active, h.state] at hstate

theorem Phase.withCm (h : Phase c) {cm : CmId} (hsettled : Settled c.cm → Settled cm) :
    Phase { c with cm := cm } := by
  cases h with
  | opening h => exact .opening ⟨h.handler, h.state, h.work, h.listed, h.qpErr, h.lastWqe⟩
  | opened h => exact .opened ⟨h.handler, h.state, h.work, h.listed, h.qpErr, h.lastWqe⟩
  | draining h =>
      exact .draining ⟨h.handler, h.state, h.work, h.listed, hsettled h.settled, h.lastWqe⟩
  | releasing h =>
      exact .releasing
        ⟨h.handler, h.state, h.work, h.listed, hsettled h.settled, h.qpErr, h.lastWqe⟩
  | unwinding h => exact .unwinding ⟨h.handler, h.state, h.work, h.listed, h.lastWqe⟩
  | gone h => exact .gone ⟨h.handler, h.state, h.work, h.listed⟩

theorem Good.withCm (h : Good c) {cm : CmId} (horderly : Orderly cm)
    (hsettled : Settled c.cm → Settled cm) : Good { c with cm := cm } :=
  ⟨h.fault, horderly, h.phase.withCm hsettled⟩

theorem Orderly.closeCm (h : Orderly c.cm) (sent : Bool) : Orderly (c.closeCm sent) := by
  unfold Ch.closeCm
  split_ifs
  · exact h.ibSendCmRej.ibSendCmDreq sent
  · exact h.ibSendCmDreq sent

theorem Good.disconnected (h : Good c) (hactive : c.active = true) {cm : CmId}
    (hcm : Orderly cm) : Good { c with state := .disconnecting, cm := cm } := by
  refine ⟨h.fault, hcm, ?_⟩
  cases h.phase with
  | opening h =>
      exact .opening ⟨h.handler, Or.inr rfl, h.work, h.listed, h.qpErr, h.lastWqe⟩
  | opened h =>
      exact .opened ⟨h.handler, Or.inr rfl, h.work, h.listed, h.qpErr, h.lastWqe⟩
  | draining h => simp [Ch.active, h.state] at hactive
  | releasing h => simp [Ch.active, h.state] at hactive
  | unwinding h => simp [Ch.active, h.state] at hactive
  | gone h => simp [Ch.active, h.state] at hactive

theorem Phase.work_of_active (h : Phase c) (hactive : c.active = true) : c.work = .none := by
  cases h with
  | opening h => exact h.work
  | opened h => exact h.work
  | draining h => exact h.work
  | releasing h => simp [Ch.active, h.state] at hactive
  | unwinding h => simp [Ch.active, h.state] at hactive
  | gone h => simp [Ch.active, h.state] at hactive

theorem Good.close (h : Good c) (halloc : c.allocated = true) (sent : Bool) :
    Good (c.close sent) := by
  unfold Ch.close
  split_ifs with hactive
  · rw [use_true c (hasCm_of_none (h.phase.work_of_active hactive))]
    exact h.disconnected hactive (Orderly.closeCm h.orderly sent)
  · rw [use_true c halloc]
    exact h

theorem close_handler (c : Ch) (sent : Bool) : (c.close sent).handler = c.handler := by
  unfold Ch.close Ch.use
  split_ifs <;> rfl

theorem Opened.withHandler (h : Opened c) {next : Handler}
    (hnext : next = .idle ∨ next = .rts ∨ next = .closing ∨ next = .drep) :
    Phase { c with handler := next } :=
  .opened ⟨hnext, h.state, h.work, h.listed, h.qpErr, h.lastWqe⟩

theorem Opened.drained (h : Opened c) {cm : CmId} (hcm : Settled cm) :
    Phase { c with state := .draining, handler := .resetting, cm := cm } :=
  .draining ⟨Or.inl ⟨rfl, h.qpErr⟩, rfl, h.work, h.listed, hcm, h.lastWqe.trans h.qpErr.symm⟩

theorem Draining.reset (h : Draining c) (hreset : c.handler = .resetting) (ok : Bool) :
    Draining { c with
      handler := .idle, qpErr := c.qpErr || ok, lastWqe := c.lastWqe || (ok && !c.qpErr) } := by
  refine ⟨Or.inr rfl, h.state, h.work, h.listed, h.settled, ?_⟩
  have hbefore : c.qpErr = false := by
    cases h.handler with
    | inl hbefore => exact hbefore.2
    | inr hidle =>
        rw [hidle] at hreset
        cases hreset
  simp [h.lastWqe, hbefore]

theorem Draining.released (h : Draining c) (hlast : c.lastWqe = true) :
    Releasing { c with lastWqe := false, state := .releasing, work := .begun } := by
  have hqpErr : c.qpErr = true := h.lastWqe.symm.trans hlast
  refine ⟨?_, rfl, ⟨nofun, nofun⟩, ⟨fun _ => ⟨nofun, nofun⟩, fun _ => h.listed⟩, h.settled,
    hqpErr, rfl⟩
  cases h.handler with
  | inl hreset =>
      rw [hreset.2] at hqpErr
      cases hqpErr
  | inr hidle => exact hidle

/-- The release work goes on, and the channel is on the list before `list_del`. -/
theorem Releasing.worked (h : Releasing c) {w : Work} {l : Bool} (hw : w ≠ .none ∧ w ≠ .done)
    (hl : l = true ↔ w ≠ .unlisted ∧ w ≠ .cm) : Releasing { c with work := w, listed := l } :=
  ⟨h.handler, h.state, hw, hl, h.settled, h.qpErr, h.lastWqe⟩

/-- A section of the release work that leaves the channel on the list. -/
theorem Good.worked (h : Good c) (hhandler : c.handler ≠ .unwinding)
    (hwork : c.work = .begun ∨ c.work.common = true) {w : Work} (hw : w.common = true) :
    Good { c with work := w } := by
  have hnow : c.work ≠ .none ∧ c.work ≠ .unlisted ∧ c.work ≠ .cm ∧ c.work ≠ .done := by
    cases hwork with
    | inl hbegun =>
        rw [hbegun]
        decide
    | inr hcommon =>
        have hne := common_ne hcommon
        exact ⟨hne.1, hne.2.2⟩
  have hnext := common_ne hw
  have hreleasing := h.phase.releasing_of hhandler hnow.1 hnow.2.2.2
  have hlisted : c.listed = true := hreleasing.listed.mpr ⟨hnow.2.1, hnow.2.2.1⟩
  exact ⟨h.fault, h.orderly, .releasing (hreleasing.worked ⟨hnext.1, hnext.2.2.2.2⟩
    ⟨fun _ => ⟨hnext.2.2.1, hnext.2.2.2.1⟩, fun _ => hlisted⟩)⟩

theorem Phase.withReleaseDone (h : Phase c) (done : Bool) :
    Phase { c with releaseDone := done } := by
  cases h with
  | opening h => exact .opening ⟨h.handler, h.state, h.work, h.listed, h.qpErr, h.lastWqe⟩
  | opened h => exact .opened ⟨h.handler, h.state, h.work, h.listed, h.qpErr, h.lastWqe⟩
  | draining h => exact .draining ⟨h.handler, h.state, h.work, h.listed, h.settled, h.lastWqe⟩
  | releasing h =>
      exact .releasing ⟨h.handler, h.state, h.work, h.listed, h.settled, h.qpErr, h.lastWqe⟩
  | unwinding h => exact .unwinding ⟨h.handler, h.state, h.work, h.listed, h.lastWqe⟩
  | gone h => exact .gone ⟨h.handler, h.state, h.work, h.listed⟩

theorem Good.deliver (h : Good c) {e : CmEvent} {rest : List CmEvent}
    (hlist : c.cm.workList = e::rest) : Good { c with cm := { c.cm with workList := rest } } := by
  apply h.withCm (h.orderly.tail hlist)
  exact fun hsettled =>
    ⟨hsettled.finished, fun a ha => hsettled.final a (hlist ▸ List.mem_cons_of_mem e ha)⟩

/-- Every event but an error of the HCA and a late call of the core keeps a channel good. -/
theorem Good.moved {e : ChEvent} (h : Good c) (herr : e ≠ .qpError)
    (hpost : e = .post → c.hasSess = true) (hmoved : Moved c e c') : Good c' := by
  cases hmoved with
  | repSent hhandler hsent =>
      have hopening := h.phase.opening_of (Or.inl hhandler)
      exact ⟨h.fault, (h.orderly.ibSendCmRep hsent).1, .opening ⟨Or.inr rfl, hopening.state,
        hopening.work, hopening.listed, hopening.qpErr, hopening.lastWqe⟩⟩
  | repFailed hhandler =>
      have hopening := h.phase.opening_of (Or.inl hhandler)
      exact ⟨h.fault, h.orderly,
        .unwinding ⟨rfl, rfl, Or.inl rfl, hopening.listed, hopening.lastWqe⟩⟩
  | unwound hhandler hw =>
      have hunwinding := h.phase.unwinding_of hhandler
      exact ⟨h.fault, h.orderly,
        .unwinding ⟨hhandler, hunwinding.state, Or.inr hw, hunwinding.listed, hunwinding.lastWqe⟩⟩
  | unwoundAll hhandler =>
      have hunwinding := h.phase.unwinding_of hhandler
      exact ⟨h.fault, h.orderly, .gone ⟨rfl, hunwinding.state, rfl, hunwinding.listed⟩⟩
  | listAdd hhandler =>
      have hopening := h.phase.opening_of (Or.inr hhandler)
      have hstate : c.active = true ∨ c.state = .disconnecting :=
        hopening.state.imp_left fun hconnecting => (active_iff c).mpr (Or.inl hconnecting)
      exact ⟨h.fault, h.orderly, .opened ⟨Or.inl rfl, hstate, hopening.work, rfl, hopening.qpErr,
        hopening.lastWqe⟩⟩
  | cm hhandled => exact h.withCm (h.orderly.handled hhandled) fun hs => hs.handled hhandled
  | repError hlisted hstate herror =>
      have hcm := h.orderly.cmRepError herror
      exact ⟨h.fault, hcm.2.1, (h.phase.opened_of_listed hlisted hstate).drained hcm.1⟩
  | repErrorLost _ herror =>
      have hcm := h.orderly.cmRepError herror
      exact h.withCm hcm.2.1 fun _ => hcm.1
  | commEst hqp =>
      rw [use_true c (hasCm_of_hasQp hqp)]
      apply h.withCm h.orderly.cmEstablish
      intro hsettled
      rw [cmEstablish_of_finished hsettled.finished]
      exact hsettled
  | rtu hidle hcm hlist hearly _ _ =>
      have hopened := h.phase.opened_of_early hidle hcm hlist hearly
      rw [use_true c hopened.listed]
      exact ⟨h.fault, h.orderly.tail hlist, .opened ⟨Or.inr (Or.inl rfl), Or.inl rfl,
        hopened.work, hopened.listed, hopened.qpErr, hopened.lastWqe⟩⟩
  | dreq hidle hcm hlist hactive =>
      have hopened := h.phase.opened_of_early hidle hcm hlist rfl
      rw [use_true c hopened.listed]
      exact ⟨h.fault, h.orderly.tail hlist, .opened ⟨Or.inr (Or.inr (Or.inr rfl)), Or.inr rfl,
        hopened.work, hopened.listed, hopened.qpErr, hopened.lastWqe⟩⟩
  | ignored hidle hcm hlist hearly _ =>
      have hopened := h.phase.opened_of_early hidle hcm hlist hearly
      rw [use_true c hopened.listed]
      exact h.deliver hlist
  | drained hidle hlist hfinal hlisted hstate =>
      have hopened := h.phase.opened_of_listed hlisted hstate
      exact ⟨h.fault, h.orderly.tail hlist, hopened.drained (h.orderly.settled hlist hfinal)⟩
  | drainedBefore _ _ hlist _ _ => exact h.deliver hlist
  | @qpRts ok hhandler =>
      have hopened := h.phase.opened_of (Or.inl hhandler)
      rw [use_true c (hasQp_of_none hopened.work)]
      refine ⟨h.fault, h.orderly, hopened.withHandler ?_⟩
      cases ok with
      | true => exact Or.inl rfl
      | false => exact Or.inr (Or.inr (Or.inl rfl))
  | @closeCh sent hhandler =>
      have hopened := h.phase.opened_of (Or.inr (Or.inl hhandler))
      have hclose := h.close (allocated_of_hasSess (hasSess_of_none hopened.work)) sent
      have hopened' := hclose.phase.opened_of
        (Or.inr (Or.inl ((close_handler c sent).trans hhandler)))
      exact ⟨hclose.fault, hclose.orderly, hopened'.withHandler (Or.inl rfl)⟩
  | drep hhandler =>
      have hopened := h.phase.opened_of (Or.inr (Or.inr hhandler))
      rw [use_true c (hasCm_of_none hopened.work)]
      exact ⟨h.fault, h.orderly.ibSendCmDrep, .opened ⟨Or.inl rfl, hopened.state, hopened.work,
        hopened.listed, hopened.qpErr, hopened.lastWqe⟩⟩
  | @qpErr ok hhandler =>
      have hdraining := h.phase.draining_of hhandler
      rw [use_true c (hasQp_of_none hdraining.work)]
      exact ⟨h.fault, h.orderly, .draining (hdraining.reset hhandler ok)⟩
  | qpError => exact absurd rfl herr
  | lastWqe hqp hlast _ =>
      have hdraining := h.phase.draining_of_lastWqe hqp hlast
      rw [use_true c (decide_eq_true hdraining.work)]
      exact ⟨h.fault, h.orderly, .releasing (hdraining.released hlast)⟩
  | lastWqeIgnored hqp hlast hstate =>
      exact absurd (h.phase.draining_of_lastWqe hqp hlast).state hstate
  | worked hhandler hwork hw => exact h.worked hhandler hwork hw
  | listDel hhandler hwork =>
      have hreleasing := h.phase.releasing_of hhandler (hwork ▸ (by decide)) (hwork ▸ (by decide))
      exact ⟨h.fault, h.orderly, .releasing (hreleasing.worked (by decide) (by decide))⟩
  | destroyCm hidle hwork =>
      have hreleasing := h.phase.releasing_of (hidle ▸ (by decide)) (hwork ▸ (by decide))
        (hwork ▸ (by decide))
      have hlisted := hreleasing.listed
      simp only [hwork, ne_eq, not_true_eq_false, false_and, iff_false] at hlisted
      exact ⟨h.fault, h.orderly, .releasing (hreleasing.worked (by decide) (by simp [hlisted]))⟩
  | free hhandler hwork =>
      have hreleasing := h.phase.releasing_of hhandler (hwork ▸ (by decide)) (hwork ▸ (by decide))
      have hlisted := hreleasing.listed
      simp only [hwork, ne_eq, not_true_eq_false, and_false, iff_false] at hlisted
      exact ⟨h.fault, h.orderly,
        .gone ⟨hreleasing.handler, hreleasing.state, rfl, Bool.eq_false_iff.mpr hlisted⟩⟩
  | @closeSession sent hsess _ =>
      have hclose := h.close (allocated_of_hasSess hsess) sent
      exact ⟨hclose.fault, hclose.orderly, hclose.phase.withReleaseDone true⟩
  | complete hthread =>
      rw [use_true c (hasQp_of_hasThread hthread)]
      exact h
  | post =>
      rw [use_true c (hasQp_of_hasThread (hasThread_of_hasSess (hpost rfl)))]
      exact h

end

/-- What is assumed of the HCA and of the target core. -/
def Assumed (s : State) (e : Event) : Prop := DriverErrs s e ∧ SessionUsed s e

section
variable {s s' : State}

theorem moved_of_step_ch {k : ℕ} {e : ChEvent} (hstep : step s (.ch k e) = some s') :
    ∃ c c', s[k]? = some c ∧ Moved c e c' ∧ s' = s.set k c' := by
  simp only [step] at hstep
  cases hk : s[k]? with
  | none =>
      rw [hk] at hstep
      cases hstep
  | some c =>
      rw [hk] at hstep
      obtain ⟨c', hc', rfl⟩ := Option.map_eq_some_iff.mp hstep
      exact ⟨c, c', rfl, moved_of_step hc', rfl⟩

theorem forall_closeListed {I : Ch → Prop}
    (hclose : ∀ c sent, I c → c.listed = true → I (c.close sent)) (p : Ch → Bool)
    (failed : List ℕ) (h : ∀ c ∈ s, I c) : ∀ c ∈ closeListed p failed s, I c := by
  intro c hc
  obtain ⟨k, hk, rfl⟩ := List.mem_mapIdx.mp hc
  have hmem : s[k] ∈ s := List.getElem_mem hk
  split_ifs with hlisted
  · exact hclose _ _ (h _ hmem) (Bool.and_eq_true_iff.mp hlisted).1
  · exact h _ hmem

/-- What every event of a channel, a new login and a close keep, every step keeps. -/
theorem forall_step {I : Ch → Prop} (ok : Ch → ChEvent → Prop)
    (hnew : ∀ nexus, I { nexus := nexus })
    (hclose : ∀ c sent, I c → c.listed = true → I (c.close sent))
    (hmoved : ∀ c e c', I c → ok c e → Moved c e c' → I c') {e : Event}
    (hok : ∀ k e' c, e = .ch k e' → s[k]? = some c → ok c e') (hstep : step s e = some s')
    (h : ∀ c ∈ s, I c) : ∀ c ∈ s', I c := by
  cases e with
  | req nexus single created failed =>
      cases hstep
      unfold login
      intro c hc
      cases List.mem_append.mp hc with
      | inl hold =>
          split_ifs at hold
          · exact forall_closeListed hclose _ _ h c hold
          · exact h c hold
      | inr hcreated =>
          split_ifs at hcreated
          · cases List.mem_singleton.mp hcreated
            exact hnew nexus
          · cases hcreated
  | releaseSdev failed =>
      cases hstep
      exact forall_closeListed hclose _ _ h
  | ch k e =>
      obtain ⟨c, c', hk, hc', rfl⟩ := moved_of_step_ch hstep
      intro c₁ hc₁
      cases List.mem_or_eq_of_mem_set hc₁ with
      | inl hold => exact h c₁ hold
      | inr heq =>
          rw [heq]
          exact hmoved c e c' (h c (List.mem_of_getElem? hk)) (hok k e c rfl hk) hc'

theorem Good.closeListed {c : Ch} (h : Good c) (hlisted : c.listed = true) (sent : Bool) :
    Good (c.close sent) := by
  have hdone : c.work ≠ .done := by
    cases h.phase with
    | opening h => simp [h.listed] at hlisted
    | opened h => simp [h.work]
    | draining h => simp [h.work]
    | releasing h => exact h.work.2
    | unwinding h => simp [h.listed] at hlisted
    | gone h => simp [h.listed] at hlisted
  exact h.close (by simp [Ch.allocated, hdone]) sent

end

instance (s : State) (e : Event) : Decidable (DriverErrs s e) :=
  match e with
  | .ch _ .qpError => isFalse id
  | .req _ _ _ _ | .releaseSdev _ | .ch _ (.rep _) | .ch _ .unwind | .ch _ .listAdd
  | .ch _ (.cm _) | .ch _ .repError | .ch _ .commEst | .ch _ .deliver | .ch _ (.qpRts _)
  | .ch _ (.closeCh _) | .ch _ .drep | .ch _ (.qpErr _) | .ch _ .lastWqe | .ch _ .work
  | .ch _ (.closeSession _) | .ch _ .complete | .ch _ .post => isTrue trivial

instance (s : State) (e : Event) : Decidable (SessionUsed s e) :=
  match e with
  | .ch k .post => inferInstanceAs (Decidable (∀ c, s[k]? = some c → c.hasSess = true))
  | .req _ _ _ _ | .releaseSdev _ | .ch _ (.rep _) | .ch _ .unwind | .ch _ .listAdd
  | .ch _ (.cm _) | .ch _ .repError | .ch _ .commEst | .ch _ .deliver | .ch _ (.qpRts _)
  | .ch _ (.closeCh _) | .ch _ .drep | .ch _ (.qpErr _) | .ch _ .qpError | .ch _ .lastWqe
  | .ch _ .work | .ch _ (.closeSession _) | .ch _ .complete => isTrue trivial

instance (s : State) (e : Event) : Decidable (Assumed s e) :=
  inferInstanceAs (Decidable (DriverErrs s e ∧ SessionUsed s e))

/-- A channel gets live and is closed by a second login of the same initiator, whose DREQ gets
no answer. -/
def secondLogin : List Event :=
  [.req 7 true true [], .ch 0 (.rep true), .ch 0 .commEst, .ch 0 .listAdd, .ch 0 (.cm .establish),
    .ch 0 .deliver, .ch 0 (.qpRts true), .ch 0 .post, .req 7 true true [], .ch 1 (.rep true),
    .ch 0 (.cm .dreqError), .ch 0 (.cm .timewaitExit), .ch 0 .deliver, .ch 1 .listAdd,
    .ch 0 (.qpErr true), .ch 0 .complete, .ch 0 .lastWqe]

end IbSrp.ChannelRelease

import IbSrp.TargetChannel
import IbSrp.ChannelRelease

/-!
# The I/O contexts of a channel of the target

Each request that the target driver works on has an I/O context, which is taken from the
free list of the channel and counted with `kref`. The driver has a reference until the
response has been sent, and the core of the target has another one until it calls
`srpt_check_stop_free`. Whoever drops the last reference puts the context back on the list.
Three parties are at work: the thread that handles completions, the threads of the core,
and the HCA, which reads the context while a response is being sent.

A request of which the driver itself says that it cannot be processed is answered through
the core, which has no reference then. A task management function that is refused like that
keeps the reference for the core, and nobody drops it. And a read command keeps the reference
of the driver if its data cannot be transferred for another reason than a lack of resources.

The core is not part of this repository, and the steps let it call the driver at any time.
`core` notes what it has been told. What it may be expected to do with that is `CoreCalls`:
it calls `srpt_write_pending` for a new command once, and again if that failed for lack of
resources; it asks for one response, and again if that failed for lack of resources; it calls
`srpt_check_stop_free` after that; and it makes one call at a time.

The driver gets two errors wrong, and `Refusals` says that they do not occur. When an RDMA read
fails for another reason than a lack of resources, the context stays in a state in which the
driver would hand its data to the core. When a response cannot be posted for lack of resources,
the driver drops its reference and yet has the core ask for the response once more.
-/
namespace IbSrp.TargetContexts
open LabelledRuns
open ChannelRelease (ChState)
open TargetChannel (SrptCommandState)

/-- What `srpt_handle_cmd` and `srpt_handle_tsk_mgmt` make of a request. `reads` says that
data goes to the initiator. -/
inductive Kind where
  | cmd (reads : Bool)
  | cmdRefused (reads : Bool)
  | tmr | tmrRefused
deriving DecidableEq, Repr

/-- What a function of the driver returns: zero, a lack of resources, or another error. -/
inductive Ret where
  | ok | again | fatal
deriving DecidableEq, Repr

/-- What the core knows of a request: nothing; it is new; data was asked for, or could not be
asked for yet; a response is due, or due again; a response has been queued. -/
inductive Core where
  | idle | submitted | waiting | full | running | again | responded
deriving DecidableEq, Repr

/-- Where a call of `srpt_queue_response` is: after its first section, before it transfers the
data, before it posts the response, or before it drops a reference and returns `ret`. -/
inductive Call where
  | none | entered (previous : SrptCommandState) | transferring | posting | dropping (ret : Ret)
deriving DecidableEq, Repr

/-- `struct srpt_send_ioctx`. `coreRef` is the reference of the core, `leaked` one that nobody
drops, `abandoned` says that nobody will drop the reference of the driver, `putting` that the
thread for completions is about to drop it. `sending` and `reading` are work requests of the
HCA, `request` is the request that the context is for. `fault` notes a context that is used
while it is on the free list, a reference that is not there, data for a core that does not
wait, and two calls at a time. -/
structure Ioctx where
  state : SrptCommandState := .done
  kref : ℕ := 0
  free : Bool := true
  reads : Bool := false
  queueStatusOnly : Bool := false
  core : Core := .idle
  call : Call := .none
  coreRef : Bool := false
  leaked : Bool := false
  abandoned : Bool := false
  putting : Bool := false
  sending : Bool := false
  reading : Bool := false
  posted : ℕ := 0
  request : ℕ := 0
  fault : Bool := false
deriving DecidableEq, Repr

namespace Ioctx

def use (c : Ioctx) : Ioctx := { c with fault := c.fault || c.free }

/-- `srpt_set_cmd_state` -/
def setState (c : Ioctx) (state : SrptCommandState) : Ioctx :=
  if c.state = .done then c else { c with state := state }

/-- `kref_put` with `srpt_put_send_ioctx_kref` -/
def put (c : Ioctx) : Ioctx :=
  if c.kref = 1 then { c with kref := 0, free := true, fault := c.fault || c.free }
  else { c with kref := c.kref-1, fault := c.fault || c.kref = 0 }

/-- `transport_generic_handle_data` -/
def handleData (c : Ioctx) : Ioctx :=
  { c with core := .running, fault := c.fault || c.core ≠ .waiting }

/-- What the core knows after `srpt_queue_response` has returned. -/
def returned (c : Ioctx) (ret : Ret) : Core :=
  if ret = .again then .again else if c.coreRef then .responded else .idle

/-- `srpt_get_send_ioctx` and the references of the request. -/
def get (c : Ioctx) (kind : Kind) (request : ℕ) : Ioctx :=
  let c := { c with
    state := .new, kref := 1, free := false, reads := false, queueStatusOnly := false,
    core := .running, call := .none, abandoned := false, posted := 0, request := request }
  match kind with
  | .cmd reads => { c with kref := 2, coreRef := true, core := .submitted, reads := reads }
  | .cmdRefused reads => { c with reads := reads }
  | .tmr => { c with state := .mgmt, kref := 2, coreRef := true }
  | .tmrRefused => { c with state := .mgmt, kref := 2, leaked := true }

end Ioctx

/-- The events of one context. `writePending`, `queueResponse` and `checkStopFree` are calls
of the core; `srpt_queue_status` is `queueResponse true`. A completion of an RDMA read has the
same effect with and without an error. -/
inductive IoEvent where
  | writePending (ret : Ret)
  | rdmaComp
  | queueResponse (statusOnly : Bool)
  | checkAborted (aborted : Bool)
  | xferData (ret : Ret)
  | postSend (ret : Ret)
  | dropRef
  | sendComp (ok : Bool)
  | putRef
  | checkStopFree
deriving DecidableEq, Repr

namespace Ioctx

/-- `srpt_abort_cmd` in `srpt_queue_response` -/
def abortByCore (c : Ioctx) : Ioctx :=
  match c.state with
  | .needData => { c with state := .dataIn, call := .none }.handleData
  | .dataIn => { c with state := .done, call := .none, core := c.returned .ok }
  | .cmdRspSent => { c with state := .done, call := .dropping .ok }
  | .mgmtRspSent => { c with state := .done, call := .dropping .ok }
  | _ => { c with call := .none, core := c.returned .ok }

/-- `srpt_abort_cmd` for a response that could not be sent -/
def abortByComp (c : Ioctx) : Ioctx :=
  match c.state with
  | .needData => { c with state := .dataIn }.handleData
  | .dataIn => { c with state := .done }
  | .cmdRspSent => { c with state := .done, putting := true }
  | .mgmtRspSent => { c with state := .done, putting := true }
  | _ => c

def srptWritePending (c : Ioctx) (chState : ChState) (ret : Ret) : Ioctx :=
  let c := c.use.setState .needData
  match chState with
  | .connecting => { c with core := .running }
  | .live =>
      match ret with
      | .ok => { c with core := .waiting, reading := true }
      | .again => { c with core := .full }
      | .fatal => { c with core := .running }
  | .disconnecting | .draining | .releasing => { c.setState .dataIn with core := .running }

def step (chState : ChState) (c : Ioctx) : IoEvent → Option Ioctx
  | .writePending ret => some (c.srptWritePending chState ret)
  | .rdmaComp =>
      if c.reading then
        let c := { c.use with reading := false }
        if c.state = .needData then some { c with state := .dataIn }.handleData else some c
      else none
  | .queueResponse statusOnly =>
      if c.call = .none then
        some { c.use with
          state := c.state.responding, call := .entered c.state,
          queueStatusOnly := c.queueStatusOnly || statusOnly }
      else some { c with fault := true }
  | .checkAborted aborted =>
      match c.call with
      | .entered previous =>
          if aborted ∨ previous = .cmdRspSent then some c.use.abortByCore
          else if c.reads ∧ !c.queueStatusOnly then some { c.use with call := .transferring }
          else some { c.use with call := .posting }
      | _ => none
  | .xferData ret =>
      if c.call = .transferring then
        match ret with
        | .ok => some { c.use with call := .posting }
        | .again => some { c.use with call := .none, core := c.returned .again }
        | .fatal => some { c.use with
            call := .none, core := c.returned .fatal, abandoned := true }
      else none
  | .postSend ret =>
      if c.call = .posting then
        if ret = .ok then some { c.use with
          sending := true, posted := c.posted+1, call := .none, core := c.returned .ok }
        else some { c.use.setState .done with call := .dropping ret }
      else none
  | .dropRef =>
      match c.call with
      | .dropping ret => some { c.use.put with call := .none, core := c.returned ret }
      | _ => none
  | .sendComp ok =>
      if c.sending then
        let c := { c.use with sending := false }
        if ok then some { c with state := .done, putting := c.state ≠ .done }
        else some c.abortByComp
      else none
  | .putRef => if c.putting then some { c.use.put with putting := false } else none
  | .checkStopFree => some { c.use.put with core := .idle, coreRef := false }

end Ioctx

def CoreCalls (c : Ioctx) : IoEvent → Prop
  | .writePending _ => c.call = .none ∧ (c.core = .submitted ∨ c.core = .full)
  | .queueResponse statusOnly =>
      c.call = .none ∧ (c.core = .submitted ∨ c.core = .running ∨ c.core = .again) ∧
        (c.coreRef = true ∨ statusOnly = true)
  | .checkStopFree => c.call = .none ∧ c.core = .responded
  | _ => True

/-- Why a work request is not posted: an RDMA read only for lack of resources, and a response
never for that reason. -/
def Refusals : IoEvent → Prop
  | .writePending ret => ret ≠ .fatal
  | .postSend ret => ret ≠ .again
  | _ => True

def Call.drops : Call → Bool
  | .dropping _ => true
  | _ => false

/-- Whether the driver still has its reference. -/
def Ioctx.driverRef (c : Ioctx) : Bool := c.state ≠ .done || c.call.drops || c.putting

structure Counted (c : Ioctx) : Prop where
  kref : c.kref = c.driverRef.toNat+c.coreRef.toNat+c.leaked.toNat
  free : c.free = true ↔ c.kref = 0

/-- No response has been posted. -/
structure Quiet (c : Ioctx) : Prop where
  sending : c.sending = false
  putting : c.putting = false
  posted : c.posted = 0

/-- How far the core is with a request that it has not answered. -/
inductive Stage (c : Ioctx) : Prop
  | submitted : c.core = .submitted → c.state = .new → c.coreRef = true →
      c.reading = false → Stage c
  | waiting : c.core = .waiting → c.state = .needData → c.coreRef = true →
      c.reading = true → Stage c
  | full : c.core = .full → c.state = .needData → c.coreRef = true →
      c.reading = false → Stage c
  | running : c.core = .running → c.state = .new ∨ c.state = .dataIn ∨ c.state = .mgmt →
      c.reading = false → Stage c
  | again : c.core = .again → c.state = .cmdRspSent → c.coreRef = true →
      c.reading = false → Stage c

structure Working (c : Ioctx) : Prop where
  call : c.call = .none
  stage : Stage c
  quiet : Quiet c
  tmr : c.state = .mgmt → c.reads = false

/-- `srpt_queue_response` has not decided yet whether the request is answered. -/
def Call.answers : Call → Bool
  | .entered _ | .transferring | .posting => true
  | _ => false

/-- `srpt_queue_response` is about to answer the request. -/
structure Answering (c : Ioctx) : Prop where
  call : c.call.answers = true
  state : c.state = .cmdRspSent ∨ c.state = .mgmtRspSent
  reading : c.reading = false
  quiet : Quiet c
  tmr : c.state = .mgmtRspSent → c.reads = false
  status : c.coreRef = true ∨ c.queueStatusOnly = true
  transferring : c.call = .transferring → c.reads = true ∧ c.queueStatusOnly = false

/-- `srpt_queue_response` has given the request up and has still to drop a reference. -/
structure Dropping (c : Ioctx) : Prop where
  call : c.call.drops = true
  ret : c.call ≠ .dropping .again
  state : c.state = .done
  reading : c.reading = false
  quiet : Quiet c

/-- What is left after `srpt_queue_response`: a response that is being sent, a reference that is
about to be dropped or has been dropped, or one that nobody will drop. -/
inductive Rest (c : Ioctx) : Prop
  | sending : c.sending = true → c.state = .cmdRspSent ∨ c.state = .mgmtRspSent →
      c.putting = false → c.posted = 1 → Rest c
  | done : c.sending = false → c.state = .done → c.posted ≤ 1 → Rest c
  | abandoned : c.sending = false → c.state = .cmdRspSent → c.putting = false → c.posted = 0 →
      c.abandoned = true → Rest c

/-- The core has been told that the response is queued, or has nothing to do with it. -/
structure Answered (c : Ioctx) : Prop where
  call : c.call = .none
  core : c.core = .idle ∧ c.coreRef = false ∨ c.core = .responded ∧ c.coreRef = true
  reading : c.reading = false
  rest : Rest c

inductive Phase (c : Ioctx) : Prop
  | working (h : Working c)
  | answering (h : Answering c)
  | dropping (h : Dropping c)
  | answered (h : Answered c)

structure Good (c : Ioctx) : Prop where
  fault : c.fault = false
  counted : Counted c
  phase : Phase c

inductive Moves (c : Ioctx) : Ioctx → Prop
  | transfer : c.call = .none → c.core = .submitted ∨ c.core = .full →
      Moves c { c with state := .needData, core := .waiting, reading := true }
  | retry : c.call = .none → c.core = .submitted ∨ c.core = .full →
      Moves c { c with state := .needData, core := .full }
  | notLive : c.call = .none → c.core = .submitted ∨ c.core = .full →
      Moves c { c with state := .dataIn, core := .running }
  | data : c.reading = true →
      Moves c { c with reading := false, state := .dataIn, core := .running }
  | enter {statusOnly : Bool} : c.call = .none →
      c.core = .submitted ∨ c.core = .running ∨ c.core = .again →
      c.coreRef = true ∨ statusOnly = true →
      Moves c { c with
        state := c.state.responding, call := .entered c.state,
        queueStatusOnly := c.queueStatusOnly || statusOnly }
  | abort {previous : SrptCommandState} : c.call = .entered previous →
      Moves c { c with state := .done, call := .dropping .ok }
  | prepare {previous : SrptCommandState} : c.call = .entered previous → c.reads = true →
      c.queueStatusOnly = false → Moves c { c with call := .transferring }
  | ready : (∃ previous, c.call = .entered previous) ∨ c.call = .transferring →
      Moves c { c with call := .posting }
  | again : c.call = .transferring →
      Moves c { c with call := .none, core := c.returned .again }
  | abandon : c.call = .transferring →
      Moves c { c with call := .none, core := c.returned .fatal, abandoned := true }
  | post : c.call = .posting → Moves c { c with
      sending := true, posted := c.posted+1, call := .none, core := c.returned .ok }
  | giveUp {ret : Ret} : c.call = .posting → ret ≠ .again →
      Moves c { c with state := .done, call := .dropping ret }
  | drop {ret : Ret} : c.call = .dropping ret → ret ≠ .again →
      Moves c { c.put with call := .none, core := c.returned ret }
  | sent : c.sending = true → Moves c { c with sending := false, state := .done, putting := true }
  | put : c.putting = true → Moves c { c.put with putting := false }
  | stop : c.call = .none → c.core = .responded →
      Moves c { c.put with core := .idle, coreRef := false }

section
variable {c c' : Ioctx} {chState : ChState}

theorem Phase.working_of (h : Phase c) (hcall : c.call = .none)
    (hidle : c.core ≠ .idle) (hresponded : c.core ≠ .responded) : Working c := by
  cases h with
  | working h => exact h
  | answering h => simpa [hcall, Call.answers] using h.call
  | dropping h => simpa [hcall, Call.drops] using h.call
  | answered h =>
      cases h.core with
      | inl hcore => exact absurd hcore.1 hidle
      | inr hcore => exact absurd hcore.1 hresponded

theorem Phase.working_of_pending (h : Phase c) (hcall : c.call = .none)
    (hcore : c.core = .submitted ∨ c.core = .full) : Working c := by
  cases hcore with
  | inl hc => exact h.working_of hcall (hc ▸ nofun) (hc ▸ nofun)
  | inr hc => exact h.working_of hcall (hc ▸ nofun) (hc ▸ nofun)

theorem Phase.working_of_due (h : Phase c) (hcall : c.call = .none)
    (hcore : c.core = .submitted ∨ c.core = .running ∨ c.core = .again) : Working c := by
  rcases hcore with hc | hc | hc
  · exact h.working_of hcall (hc ▸ nofun) (hc ▸ nofun)
  · exact h.working_of hcall (hc ▸ nofun) (hc ▸ nofun)
  · exact h.working_of hcall (hc ▸ nofun) (hc ▸ nofun)

theorem Phase.working_of_reading (h : Phase c) (hreading : c.reading = true) : Working c := by
  cases h with
  | working h => exact h
  | answering h => simp [h.reading] at hreading
  | dropping h => simp [h.reading] at hreading
  | answered h => simp [h.reading] at hreading

theorem Phase.answering_of (h : Phase c) (hcall : c.call.answers = true) : Answering c := by
  cases h with
  | working h => simp [h.call, Call.answers] at hcall
  | answering h => exact h
  | dropping h =>
      have hdrops := h.call
      cases hc : c.call <;> simp [hc, Call.answers, Call.drops] at hcall hdrops
  | answered h => simp [h.call, Call.answers] at hcall

theorem Phase.dropping_of (h : Phase c) (hcall : c.call.drops = true) : Dropping c := by
  cases h with
  | working h => simp [h.call, Call.drops] at hcall
  | answering h =>
      have hanswers := h.call
      cases hc : c.call <;> simp [hc, Call.answers, Call.drops] at hcall hanswers
  | dropping h => exact h
  | answered h => simp [h.call, Call.drops] at hcall

theorem Phase.answered_of (h : Phase c) (hbusy : c.sending = true ∨ c.putting = true) :
    Answered c := by
  have hnot (hquiet : Quiet c) : False := by
    simp [hquiet.sending, hquiet.putting] at hbusy
  cases h with
  | working h => exact (hnot h.quiet).elim
  | answering h => exact (hnot h.quiet).elim
  | dropping h => exact (hnot h.quiet).elim
  | answered h => exact h

theorem Stage.core_ne (h : Stage c) : c.core ≠ .idle ∧ c.core ≠ .responded := by
  cases h with
  | submitted hcore _ _ _ | waiting hcore _ _ _ | full hcore _ _ _ | running hcore _ _
  | again hcore _ _ _ => simp [hcore]

theorem Phase.answered_of_core (h : Phase c) (hcall : c.call = .none)
    (hcore : c.core = .idle ∨ c.core = .responded) : Answered c := by
  cases h with
  | working h =>
      cases hcore with
      | inl hidle => exact absurd hidle h.stage.core_ne.1
      | inr hresponded => exact absurd hresponded h.stage.core_ne.2
  | answering h => simpa [hcall, Call.answers] using h.call
  | dropping h => simpa [hcall, Call.drops] using h.call
  | answered h => exact h

theorem Answered.coreRef_of (h : Answered c) (hcore : c.core = .responded) : c.coreRef = true := by
  cases h.core with
  | inl hidle => exact absurd (hidle.1.symm.trans hcore) (by decide)
  | inr hresponded => exact hresponded.2

theorem driverRef_of_state (hstate : c.state ≠ .done) : c.driverRef = true := by
  simp [Ioctx.driverRef, hstate]

theorem driverRef_of_putting (hputting : c.putting = true) : c.driverRef = true := by
  simp [Ioctx.driverRef, hputting]

theorem driverRef_of_drops (hcall : c.call.drops = true) : c.driverRef = true := by
  simp [Ioctx.driverRef, hcall]

theorem sent_ne_done (hsent : c.state = .cmdRspSent ∨ c.state = .mgmtRspSent) :
    c.state ≠ .done := by
  cases hsent with
  | inl hcmd => exact hcmd ▸ (by decide)
  | inr hmgmt => exact hmgmt ▸ (by decide)

theorem Stage.ne_done (h : Stage c) : c.state ≠ .done := by
  cases h with
  | submitted _ hstate _ _ | waiting _ hstate _ _ | full _ hstate _ _ | again _ hstate _ _ =>
      exact hstate ▸ (by decide)
  | running _ hstate _ => rcases hstate with hs | hs | hs <;> exact hs ▸ (by decide)

theorem Stage.waiting_of (h : Stage c) (hreading : c.reading = true) :
    c.core = .waiting ∧ c.state = .needData ∧ c.coreRef = true := by
  cases h with
  | waiting hcore hstate href _ => exact ⟨hcore, hstate, href⟩
  | submitted _ _ _ hr | full _ _ _ hr | running _ _ hr | again _ _ _ hr => simp [hr] at hreading

theorem Stage.pending_of (h : Stage c) (hcore : c.core = .submitted ∨ c.core = .full) :
    c.coreRef = true ∧ c.reading = false := by
  cases h with
  | submitted _ _ href hr | full _ _ href hr => exact ⟨href, hr⟩
  | waiting hc _ _ _ | running hc _ _ | again hc _ _ _ => simp [hc] at hcore

theorem Stage.responding_of (h : Stage c)
    (hcore : c.core = .submitted ∨ c.core = .running ∨ c.core = .again) :
    (c.state.responding = .cmdRspSent ∨
      c.state.responding = .mgmtRspSent ∧ c.state = .mgmt) ∧ c.reading = false := by
  cases h with
  | submitted _ hstate _ hr | again _ hstate _ hr =>
      rw [hstate]
      exact ⟨by decide, hr⟩
  | running _ hstate hr =>
      rcases hstate with hs | hs | hs <;> rw [hs] <;> exact ⟨by decide, hr⟩
  | waiting hc _ _ _ | full hc _ _ _ => simp [hc] at hcore

theorem Counted.kref_pos (h : Counted c) (href : c.driverRef = true ∨ c.coreRef = true) :
    0 < c.kref := by
  rw [h.kref]
  cases href with
  | inl hdriver =>
      rw [hdriver, Bool.toNat_true]
      omega
  | inr hcore =>
      rw [hcore, Bool.toNat_true]
      omega

theorem Counted.not_free (h : Counted c) (href : c.driverRef = true ∨ c.coreRef = true) :
    c.free = false := by
  have hpos := h.kref_pos href
  by_contra hne
  have hzero := h.free.mp (by simpa using hne)
  omega

/-- A context to which somebody has a reference can be used. -/
theorem Counted.use_eq (h : Counted c) (href : c.driverRef = true ∨ c.coreRef = true) :
    c.use = c := by
  have hfree := h.not_free href
  unfold Ioctx.use
  rw [hfree, Bool.or_false, ← hfree]

theorem Counted.put_eq (h : Counted c) (href : c.driverRef = true ∨ c.coreRef = true) :
    c.put = { c with kref := c.kref-1, free := decide (c.kref = 1) } := by
  have hfree := h.not_free href
  have hpos := h.kref_pos href
  unfold Ioctx.put
  by_cases hone : c.kref = 1
  · simp [hfree, hone]
  · have hzero : c.kref ≠ 0 := by omega
    simp [hfree, hone, hzero]

/-- As long as the driver keeps its reference the count stays right. -/
theorem Counted.same (h : Counted c) (hbefore : c.driverRef = true) (hafter : c'.driverRef = true)
    (hkref : c'.kref = c.kref) (hfree : c'.free = c.free) (hcore : c'.coreRef = c.coreRef)
    (hleaked : c'.leaked = c.leaked) : Counted c' := by
  constructor
  · rw [hkref, hcore, hleaked, hafter, ← hbefore]
    exact h.kref
  · rw [hfree, hkref]
    exact h.free

theorem Counted.less (h : Counted c)
    (hrefs : c.driverRef.toNat+c.coreRef.toNat = c'.driverRef.toNat+c'.coreRef.toNat+1)
    (hkref : c'.kref = c.kref-1) (hfree : c'.free = decide (c.kref = 1))
    (hleaked : c'.leaked = c.leaked) : Counted c' := by
  have hbefore := h.kref
  constructor
  · rw [hkref, hleaked]
    omega
  · rw [hfree, hkref, decide_eq_true_eq]
    omega

theorem Counted.dropped (h : Counted c) (hbefore : c.driverRef = true)
    (hafter : c'.driverRef = false) (hcore : c'.coreRef = c.coreRef)
    (hkref : c'.kref = c.kref-1) (hfree : c'.free = decide (c.kref = 1))
    (hleaked : c'.leaked = c.leaked) : Counted c' := by
  refine h.less ?_ hkref hfree hleaked
  rw [hbefore, hafter, hcore, Bool.toNat_true, Bool.toNat_false]
  omega

theorem Quiet.same (h : Quiet c) (hsending : c'.sending = c.sending)
    (hputting : c'.putting = c.putting) (hposted : c'.posted = c.posted) : Quiet c' :=
  ⟨hsending.trans h.sending, hputting.trans h.putting, hposted.trans h.posted⟩

theorem put_fields (c : Ioctx) : c.put.state = c.state ∧ c.put.posted = c.posted ∧
    c.put.request = c.request ∧ c.put.core = c.core ∧ c.put.call = c.call ∧
    c.put.sending = c.sending ∧ c.put.putting = c.putting ∧ c.put.leaked = c.leaked ∧
    c.put.abandoned = c.abandoned := by
  unfold Ioctx.put
  split_ifs <;> exact ⟨rfl, rfl, rfl, rfl, rfl, rfl, rfl, rfl, rfl⟩

theorem setState_of_ne (hne : c.state ≠ .done) (state : SrptCommandState) :
    c.setState state = { c with state := state } := if_neg hne

theorem abortByCore_of_sent (hsent : c.state = .cmdRspSent ∨ c.state = .mgmtRspSent) :
    c.abortByCore = { c with state := .done, call := .dropping .ok } := by
  unfold Ioctx.abortByCore
  cases hsent with
  | inl hcmd => rw [hcmd]
  | inr hmgmt => rw [hmgmt]

theorem abortByComp_of_sent (hsent : c.state = .cmdRspSent ∨ c.state = .mgmtRspSent) :
    c.abortByComp = { c with state := .done, putting := true } := by
  unfold Ioctx.abortByComp
  cases hsent with
  | inl hcmd => rw [hcmd]
  | inr hmgmt => rw [hmgmt]

theorem Rest.sent_of (h : Rest c) (hsending : c.sending = true) :
    (c.state = .cmdRspSent ∨ c.state = .mgmtRspSent) ∧ c.putting = false ∧ c.posted = 1 := by
  cases h with
  | sending _ hstate hputting hposted => exact ⟨hstate, hputting, hposted⟩
  | done hs _ _ | abandoned hs _ _ _ _ => simp [hs] at hsending

theorem Rest.done_of (h : Rest c) (hdone : c.putting = true ∨ c.state = .done) :
    c.sending = false ∧ c.state = .done ∧ c.posted ≤ 1 := by
  cases h with
  | done hs hstate hposted => exact ⟨hs, hstate, hposted⟩
  | sending _ hstate hp _ => simp [hp, sent_ne_done hstate] at hdone
  | abandoned _ hstate hp _ _ => simp [hp, hstate] at hdone

theorem Good.moves_writePending {ret : Ret} (h : Good c) (hlive : chState ≠ .connecting)
    (hcall : c.call = .none) (hcore : c.core = .submitted ∨ c.core = .full)
    (hret : ret ≠ .fatal) : Moves c (c.srptWritePending chState ret) := by
  have hworking := h.phase.working_of_pending hcall hcore
  have hstate := hworking.stage.ne_done
  unfold Ioctx.srptWritePending
  rw [h.counted.use_eq (Or.inl (driverRef_of_state hstate)), setState_of_ne hstate]
  cases chState with
  | connecting => exact absurd rfl hlive
  | live =>
      cases ret with
      | ok => exact .transfer hcall hcore
      | again => exact .retry hcall hcore
      | fatal => exact absurd rfl hret
  | disconnecting | draining | releasing =>
      simp only [Ioctx.setState, reduceCtorEq, if_false]
      exact .notLive hcall hcore

theorem Good.moves_checkAborted {aborted : Bool} (h : Good c)
    (hstep : c.step chState (.checkAborted aborted) = some c') : Moves c c' := by
  simp only [Ioctx.step] at hstep
  split at hstep
  case h_2 => cases hstep
  case h_1 previous hcall =>
      have hanswering := h.phase.answering_of (hcall ▸ rfl)
      have href := driverRef_of_state (sent_ne_done hanswering.state)
      rw [h.counted.use_eq (Or.inl href)] at hstep
      split_ifs at hstep with haborted hreads
      · cases hstep
        rw [abortByCore_of_sent hanswering.state]
        exact .abort hcall
      · cases hstep
        exact .prepare hcall hreads.1 (by simpa using hreads.2)
      · cases hstep
        exact .ready (Or.inl ⟨previous, hcall⟩)

/-- What a context can do if the core and the HCA behave as they should. -/
theorem Good.moves {e : IoEvent} (h : Good c) (hlive : chState ≠ .connecting)
    (hcore : CoreCalls c e) (hrefusals : Refusals e) (hstep : c.step chState e = some c') :
    Moves c c' := by
  cases e with
  | writePending ret =>
      cases hstep
      exact h.moves_writePending hlive hcore.1 hcore.2 hrefusals
  | rdmaComp =>
      simp only [Ioctx.step] at hstep
      by_cases hreading : c.reading = true
      · have hwaiting := (h.phase.working_of_reading hreading).stage.waiting_of hreading
        simp only [hreading, h.counted.use_eq (Or.inr hwaiting.2.2), hwaiting.2.1, if_true,
          Ioctx.handleData, hwaiting.1, ne_eq, not_true_eq_false, decide_false,
          Bool.or_false] at hstep
        cases hstep
        exact .data hreading
      · rw [if_neg hreading] at hstep
        cases hstep
  | queueResponse statusOnly =>
      have hworking := h.phase.working_of_due hcore.1 hcore.2.1
      have href := driverRef_of_state hworking.stage.ne_done
      simp only [Ioctx.step, hcore.1, if_true, h.counted.use_eq (Or.inl href)] at hstep
      cases hstep
      exact .enter hcore.1 hcore.2.1 hcore.2.2
  | checkAborted aborted => exact h.moves_checkAborted hstep
  | xferData ret =>
      simp only [Ioctx.step] at hstep
      by_cases hcall : c.call = .transferring
      · have hanswering := h.phase.answering_of (hcall ▸ rfl)
        have href := driverRef_of_state (sent_ne_done hanswering.state)
        rw [if_pos hcall, h.counted.use_eq (Or.inl href)] at hstep
        cases ret with
        | ok =>
            cases hstep
            exact .ready (Or.inr hcall)
        | again =>
            cases hstep
            exact .again hcall
        | fatal =>
            cases hstep
            exact .abandon hcall
      · rw [if_neg hcall] at hstep
        cases hstep
  | postSend ret =>
      simp only [Ioctx.step] at hstep
      by_cases hcall : c.call = .posting
      · have hstate := sent_ne_done (h.phase.answering_of (hcall ▸ rfl)).state
        rw [if_pos hcall, h.counted.use_eq (Or.inl (driverRef_of_state hstate)),
          setState_of_ne hstate] at hstep
        split_ifs at hstep
        · cases hstep
          exact .post hcall
        · cases hstep
          exact .giveUp hcall hrefusals
      · rw [if_neg hcall] at hstep
        cases hstep
  | dropRef =>
      simp only [Ioctx.step] at hstep
      split at hstep
      case h_2 => cases hstep
      case h_1 ret hcall =>
          have hdrops : c.call.drops = true := hcall ▸ rfl
          have hret := (h.phase.dropping_of hdrops).ret
          rw [h.counted.use_eq (Or.inl (driverRef_of_drops hdrops))] at hstep
          cases hstep
          exact .drop hcall fun heq => hret (heq ▸ hcall)
  | sendComp ok =>
      simp only [Ioctx.step] at hstep
      by_cases hsending : c.sending = true
      · have hsent := ((h.phase.answered_of (Or.inl hsending)).rest.sent_of hsending).1
        have hstate := sent_ne_done hsent
        rw [if_pos hsending, h.counted.use_eq (Or.inl (driverRef_of_state hstate))] at hstep
        split_ifs at hstep
        · simp only [ne_eq, hstate, not_false_eq_true, decide_true] at hstep
          cases hstep
          exact .sent hsending
        · rw [abortByComp_of_sent (c := { c with sending := false }) hsent] at hstep
          cases hstep
          exact .sent hsending
      · rw [if_neg hsending] at hstep
        cases hstep
  | putRef =>
      simp only [Ioctx.step] at hstep
      by_cases hputting : c.putting = true
      · rw [if_pos hputting, h.counted.use_eq (Or.inl (driverRef_of_putting hputting))] at hstep
        cases hstep
        exact .put hputting
      · rw [if_neg hputting] at hstep
        cases hstep
  | checkStopFree =>
      have href := (h.phase.answered_of_core hcore.1 (Or.inr hcore.2)).coreRef_of hcore.2
      simp only [Ioctx.step, h.counted.use_eq (Or.inr href)] at hstep
      cases hstep
      exact .stop hcore.1 hcore.2

theorem returned_of_ne {ret : Ret} (hret : ret ≠ .again) :
    c.returned ret = .idle ∧ c.coreRef = false ∨
      c.returned ret = .responded ∧ c.coreRef = true := by
  unfold Ioctx.returned
  rw [if_neg hret]
  cases c.coreRef with
  | false => exact Or.inl ⟨rfl, rfl⟩
  | true => exact Or.inr ⟨rfl, rfl⟩

theorem driverRef_eq_false (hstate : c.state = .done) (hcall : c.call = .none)
    (hputting : c.putting = false) : c.driverRef = false := by
  simp [Ioctx.driverRef, hstate, hcall, hputting, Call.drops]

theorem Good.work (h : Good c) (hworking : Working c) {state : SrptCommandState} {core : Core}
    {reading : Bool} (hstage : Stage { c with state := state, core := core, reading := reading })
    (hstate : state ≠ .mgmt) :
    Good { c with state := state, core := core, reading := reading } := by
  refine ⟨h.fault, ?_, .working ⟨hworking.call, hstage, hworking.quiet.same rfl rfl rfl, ?_⟩⟩
  · exact h.counted.same (driverRef_of_state hworking.stage.ne_done)
      (driverRef_of_state hstage.ne_done) rfl rfl rfl rfl
  · exact fun hs => absurd hs hstate

theorem Answering.counted (h : Answering c) (hcounted : Counted c) {call : Call} {core : Core}
    {abandoned sending : Bool} {posted : ℕ} :
    Counted { c with
      call := call, core := core, abandoned := abandoned, sending := sending,
      posted := posted } := by
  have hstate := sent_ne_done h.state
  exact hcounted.same (driverRef_of_state hstate) (driverRef_of_state hstate) rfl rfl rfl rfl

/-- Nobody is going to answer the request. -/
theorem Good.drops (h : Good c) (hanswering : Answering c) {ret : Ret} (hret : ret ≠ .again) :
    Good { c with state := .done, call := .dropping ret } := by
  refine ⟨h.fault, ?_, .dropping ⟨rfl, ?_, rfl, hanswering.reading,
    hanswering.quiet.same rfl rfl rfl⟩⟩
  · exact h.counted.same (driverRef_of_state (sent_ne_done hanswering.state))
      (driverRef_of_drops rfl) rfl rfl rfl rfl
  · exact fun heq => hret (Call.dropping.inj heq)

theorem Good.enter (h : Good c) (hworking : Working c) {statusOnly : Bool}
    (hcore : c.core = .submitted ∨ c.core = .running ∨ c.core = .again)
    (hstatus : c.coreRef = true ∨ statusOnly = true) :
    Good { c with
      state := c.state.responding, call := .entered c.state,
      queueStatusOnly := c.queueStatusOnly || statusOnly } := by
  have hresponding := hworking.stage.responding_of hcore
  have hsent := hresponding.1.imp_right And.left
  refine ⟨h.fault, ?_, .answering ⟨rfl, hsent, hresponding.2, hworking.quiet.same rfl rfl rfl,
    ?_, ?_, nofun⟩⟩
  · exact h.counted.same (driverRef_of_state hworking.stage.ne_done)
      (driverRef_of_state (sent_ne_done hsent)) rfl rfl rfl rfl
  · intro hmgmt
    cases hresponding.1 with
    | inl hcmd => exact absurd (hcmd.symm.trans hmgmt) (by decide)
    | inr hboth => exact hworking.tmr hboth.2
  · cases hstatus with
    | inl href => exact Or.inl href
    | inr honly => exact Or.inr (by simp [honly])

theorem Answering.read (h : Answering c) (hcall : c.call = .transferring) :
    c.state = .cmdRspSent ∧ c.coreRef = true := by
  have hreads := h.transferring hcall
  constructor
  · cases h.state with
    | inl hcmd => exact hcmd
    | inr hmgmt => exact absurd (hreads.1.symm.trans (h.tmr hmgmt)) (by decide)
  · cases h.status with
    | inl href => exact href
    | inr honly => exact absurd (honly.symm.trans hreads.2) (by decide)

theorem Good.drop (h : Good c) {ret : Ret} (hcall : c.call = .dropping ret) (hret : ret ≠ .again) :
    Good { c.put with call := .none, core := c.returned ret } := by
  have hdrops : c.call.drops = true := hcall ▸ rfl
  have hdropping := h.phase.dropping_of hdrops
  have hbefore := driverRef_of_drops hdrops
  have hquiet := hdropping.quiet
  rw [h.counted.put_eq (Or.inl hbefore)]
  refine ⟨h.fault, ?_, .answered ⟨rfl, returned_of_ne hret, hdropping.reading, ?_⟩⟩
  · exact h.counted.dropped hbefore (driverRef_eq_false hdropping.state rfl hquiet.putting)
      rfl rfl rfl rfl
  · exact .done hquiet.sending hdropping.state (hquiet.posted ▸ Nat.zero_le 1)

theorem Good.put (h : Good c) (hputting : c.putting = true) :
    Good { c.put with putting := false } := by
  have hanswered := h.phase.answered_of (Or.inr hputting)
  have hdone := hanswered.rest.done_of (Or.inl hputting)
  have hbefore := driverRef_of_putting hputting
  rw [h.counted.put_eq (Or.inl hbefore)]
  refine ⟨h.fault, ?_, .answered ⟨hanswered.call, hanswered.core, hanswered.reading,
    .done hdone.1 hdone.2.1 hdone.2.2⟩⟩
  exact h.counted.dropped hbefore (driverRef_eq_false hdone.2.1 hanswered.call rfl)
    rfl rfl rfl rfl

theorem Good.stop (h : Good c) (hcall : c.call = .none) (hcore : c.core = .responded) :
    Good { c.put with core := .idle, coreRef := false } := by
  have hanswered := h.phase.answered_of_core hcall (Or.inr hcore)
  have href := hanswered.coreRef_of hcore
  rw [h.counted.put_eq (Or.inr href)]
  refine ⟨h.fault, h.counted.less ?_ rfl rfl rfl,
    .answered ⟨hcall, Or.inl ⟨rfl, rfl⟩, hanswered.reading, ?_⟩⟩
  · rw [href]
    rfl
  · cases hanswered.rest with
    | sending hs hstate hp hposted => exact .sending hs hstate hp hposted
    | done hs hstate hposted => exact .done hs hstate hposted
    | abandoned hs hstate hp hposted ha => exact .abandoned hs hstate hp hposted ha

theorem Good.moved (h : Good c) (hmoves : Moves c c') : Good c' := by
  cases hmoves with
  | transfer hcall hcore =>
      have hworking := h.phase.working_of_pending hcall hcore
      exact h.work hworking (.waiting rfl rfl (hworking.stage.pending_of hcore).1 rfl) nofun
  | retry hcall hcore =>
      have hworking := h.phase.working_of_pending hcall hcore
      have hpending := hworking.stage.pending_of hcore
      exact h.work hworking (.full rfl rfl hpending.1 hpending.2) nofun
  | notLive hcall hcore =>
      have hworking := h.phase.working_of_pending hcall hcore
      have hpending := hworking.stage.pending_of hcore
      exact h.work hworking (.running rfl (Or.inr (Or.inl rfl)) hpending.2) nofun
  | data hreading =>
      have hworking := h.phase.working_of_reading hreading
      exact h.work hworking (.running rfl (Or.inr (Or.inl rfl)) rfl) nofun
  | enter hcall hcore hstatus =>
      have hworking := h.phase.working_of_due hcall hcore
      exact h.enter hworking hcore hstatus
  | abort hcall => exact h.drops (h.phase.answering_of (hcall ▸ rfl)) nofun
  | prepare hcall hreads honly =>
      have ha := h.phase.answering_of (hcall ▸ rfl)
      exact ⟨h.fault, ha.counted h.counted, .answering ⟨rfl, ha.state, ha.reading,
        ha.quiet.same rfl rfl rfl, ha.tmr, ha.status, fun _ => ⟨hreads, honly⟩⟩⟩
  | ready hcall =>
      have ha : Answering c := by
        rcases hcall with ⟨_, hentered⟩ | htransferring
        · exact h.phase.answering_of (hentered ▸ rfl)
        · exact h.phase.answering_of (htransferring ▸ rfl)
      exact ⟨h.fault, ha.counted h.counted, .answering ⟨rfl, ha.state, ha.reading,
        ha.quiet.same rfl rfl rfl, ha.tmr, ha.status, nofun⟩⟩
  | again hcall =>
      have ha := h.phase.answering_of (hcall ▸ rfl)
      have hread := ha.read hcall
      exact ⟨h.fault, ha.counted h.counted, .working ⟨rfl,
        .again rfl hread.1 hread.2 ha.reading, ha.quiet.same rfl rfl rfl,
        fun hs => nomatch hread.1.symm.trans hs⟩⟩
  | abandon hcall =>
      have ha := h.phase.answering_of (hcall ▸ rfl)
      have hread := ha.read hcall
      have hcore := returned_of_ne (c := c) (show Ret.fatal ≠ .again by decide)
      exact ⟨h.fault, ha.counted h.counted, .answered ⟨rfl, hcore, ha.reading,
        .abandoned ha.quiet.sending hread.1 ha.quiet.putting ha.quiet.posted rfl⟩⟩
  | post hcall =>
      have ha := h.phase.answering_of (hcall ▸ rfl)
      have hcore := returned_of_ne (c := c) (show Ret.ok ≠ .again by decide)
      have hposted : c.posted+1 = 1 := by rw [ha.quiet.posted]
      exact ⟨h.fault, ha.counted h.counted, .answered ⟨rfl, hcore, ha.reading,
        .sending rfl ha.state ha.quiet.putting hposted⟩⟩
  | giveUp hcall hret => exact h.drops (h.phase.answering_of (hcall ▸ rfl)) hret
  | drop hcall hret => exact h.drop hcall hret
  | sent hsending =>
      have ha := h.phase.answered_of (Or.inl hsending)
      have hsent := ha.rest.sent_of hsending
      refine ⟨h.fault, ?_, .answered ⟨ha.call, ha.core, ha.reading, .done rfl rfl hsent.2.2.le⟩⟩
      exact h.counted.same (driverRef_of_state (sent_ne_done hsent.1)) (driverRef_of_putting rfl)
        rfl rfl rfl rfl
  | put hputting => exact h.put hputting
  | stop hcall hcore => exact h.stop hcall hcore

/-- What is left of a context that is on the free list. -/
structure Unused (c : Ioctx) : Prop where
  state : c.state = .done
  core : c.core = .idle
  call : c.call = .none
  coreRef : c.coreRef = false
  leaked : c.leaked = false
  sending : c.sending = false
  reading : c.reading = false
  putting : c.putting = false

theorem Good.unused (h : Good c) (hfree : c.free = true) : Unused c := by
  have hzero := h.counted.free.mp hfree
  have hrefs : c.driverRef = false ∧ c.coreRef = false ∧ c.leaked = false := by
    rw [h.counted.kref] at hzero
    simpa [and_assoc] using hzero
  have hstate : c.state = .done := by
    by_contra hne
    exact Bool.false_ne_true (hrefs.1.symm.trans (driverRef_of_state hne))
  have hputting : c.putting = false := by
    by_contra hne
    exact Bool.false_ne_true (hrefs.1.symm.trans (driverRef_of_putting (by simpa using hne)))
  cases h.phase with
  | working h => exact absurd hstate h.stage.ne_done
  | answering h => exact absurd hstate (sent_ne_done h.state)
  | dropping h => exact absurd (hrefs.1.symm.trans (driverRef_of_drops h.call)) (by decide)
  | answered h =>
      have hcore : c.core = .idle := by
        cases h.core with
        | inl hidle => exact hidle.1
        | inr hresponded => exact absurd (hrefs.2.1.symm.trans hresponded.2) (by decide)
      exact ⟨hstate, hcore, h.call, hrefs.2.1, hrefs.2.2, (h.rest.done_of (Or.inr hstate)).1,
        h.reading, hputting⟩

/-- Nothing happens to a context on the free list. -/
theorem Unused.not_step {e : IoEvent} (h : Unused c) (hcore : CoreCalls c e) :
    c.step chState e ≠ some c' := by
  intro hstep
  cases e with
  | writePending ret => simp [CoreCalls, h.core] at hcore
  | queueResponse statusOnly => simp [CoreCalls, h.core] at hcore
  | checkStopFree => simp [CoreCalls, h.core] at hcore
  | rdmaComp => simp [Ioctx.step, h.reading] at hstep
  | checkAborted aborted => simp [Ioctx.step, h.call] at hstep
  | xferData ret => simp [Ioctx.step, h.call] at hstep
  | postSend ret => simp [Ioctx.step, h.call] at hstep
  | dropRef => simp [Ioctx.step, h.call] at hstep
  | sendComp ok => simp [Ioctx.step, h.sending] at hstep
  | putRef => simp [Ioctx.step, h.putting] at hstep

theorem Good.get (h : Good c) (hfree : c.free = true) (kind : Kind) (request : ℕ) :
    Good (c.get kind request) := by
  have hunused := h.unused hfree
  have hquiet : Quiet (c.get kind request) := by
    cases kind <;> exact ⟨hunused.sending, hunused.putting, rfl⟩
  cases kind with
  | cmd reads =>
      refine ⟨h.fault, ⟨?_, nofun, nofun⟩,
        .working ⟨rfl, .submitted rfl rfl rfl hunused.reading, hquiet, nofun⟩⟩
      simp [Ioctx.get, Ioctx.driverRef, hunused.leaked]
  | cmdRefused reads =>
      refine ⟨h.fault, ⟨?_, nofun, nofun⟩,
        .working ⟨rfl, .running rfl (Or.inl rfl) hunused.reading, hquiet, nofun⟩⟩
      simp [Ioctx.get, Ioctx.driverRef, hunused.leaked, hunused.coreRef]
  | tmr =>
      refine ⟨h.fault, ⟨?_, nofun, nofun⟩,
        .working ⟨rfl, .running rfl (Or.inr (Or.inr rfl)) hunused.reading, hquiet, fun _ => rfl⟩⟩
      simp [Ioctx.get, Ioctx.driverRef, hunused.leaked]
  | tmrRefused =>
      refine ⟨h.fault, ⟨?_, nofun, nofun⟩,
        .working ⟨rfl, .running rfl (Or.inr (Or.inr rfl)) hunused.reading, hquiet, fun _ => rfl⟩⟩
      simp [Ioctx.get, Ioctx.driverRef, hunused.coreRef]

end

end IbSrp.TargetContexts

import IbSrp.ChannelSystem

/-!
# Task management: `srp_abort` and `srp_reset_device` against the target

The error handler runs one function at a time. A call of `srp_send_tsk_mgmt`
checks the connection and initialises the completion `tsk_mgmt_done`, then waits
for `rport->mutex` and posts the request, then waits for the completion. Between
these steps anything else may happen on the channel. A wait that times out finds
the completion empty at that moment.

The target answers a request at most once, with the response that
`srpt_build_tskmgmt_rsp` builds for some response code, at any time and in any
order; `drop` is a request that is never answered. A new queue pair receives no
response to earlier requests. Requests are numbered in the order in which they
were sent, because tags are used again: every LUN reset has the same one.

`log` is the history, newest entry first: requests sent, responses processed,
results of `srp_send_tsk_mgmt` and of its callers. Every run of this system is a
run of the channel.
-/
namespace IbSrp.TaskManagement
open LabelledRuns Channel ChannelSystem

def srpTskMgmtSuccess : BitVec 8 := 0x00

def srpTskMgmtFailed : BitVec 8 := 0x05

def srpRspFlagRspvalid : BitVec 8 := 1

def srpTagNoReq : ℕ := 2^32-1

def srpTagTskMgmt : ℕ := 2^31

/-- The fields of an SRP_RSP that a task management response uses. `data` is what follows
the 36 bytes of the header in the buffer. -/
structure SrpRsp where
  reqLimDelta : BitVec 32
  tag : ℕ
  flags : BitVec 8 := 0
  respDataLen : BitVec 32 := 0
  data : ℕ → BitVec 8

/-- `srpt_build_tskmgmt_rsp`, which clears the header only. `buf` is the old content of the
buffer behind it, and `reqLimDelta` the value that the field of this name gets. -/
def srptBuildTskmgmtRsp (reqLimDelta : BitVec 32) (buf : ℕ → BitVec 8) (rspCode : BitVec 8)
    (tag : ℕ) : SrpRsp :=
  let rsp := { reqLimDelta := reqLimDelta, tag := tag, data := buf }
  if rspCode ≠ srpTskMgmtSuccess then
    { rsp with
      flags := srpRspFlagRspvalid, respDataLen := 4, data := Function.update buf 3 rspCode }
  else rsp

inductive TskMgmtFunc where
  | abortTask
  | lunReset
deriving DecidableEq, Repr

structure TskMgmtArgs where
  func : TskMgmtFunc
  reqTag : ℕ
  lun : ℕ
deriving DecidableEq, Repr

structure TskMgmt extends TskMgmtArgs where
  seq : ℕ
deriving DecidableEq, Repr

def TskMgmt.tag (req : TskMgmt) : ℕ := req.reqTag ||| srpTagTskMgmt

/-- What the error handler is told. -/
inductive Verdict where
  | success
  | failed
  | fastIoFail
deriving DecidableEq, Repr

/-- What a call of `srp_send_tsk_mgmt` does next; `readStatus` is `srp_reset_device` after it. -/
inductive Call where
  | check (args : TskMgmtArgs)
  | send (args : TskMgmtArgs)
  | wait (req : TskMgmt)
  | readStatus (req : TskMgmt)
deriving DecidableEq, Repr

inductive Entry where
  | sent (req : TskMgmt)
  | arrived (req : TskMgmt) (rspCode : BitVec 8)
  | returned (req : TskMgmt) (ok : Bool)
  | notSent (func : TskMgmtFunc) (verdict : Verdict)
  | verdict (req : TskMgmt) (verdict : Verdict)
deriving DecidableEq, Repr

structure State where
  sys : Sys
  tskMgmtDone : ℕ := 0
  tskMgmtStatus : BitVec 8 := 0
  call : Option Call := none
  nextSeq : ℕ := 0
  owed : List TskMgmt := []
  log : List Entry := []

/-- `lost` says whether the state of the rport is SRP_RPORT_LOST when a failed abort looks. -/
inductive Event where
  | channel (e : ChannelSystem.Event)
  | abort (id : ℕ)
  | resetDevice (lun : ℕ)
  | check (lost : Bool)
  | send (lost : Bool)
  | wake
  | timeout (lost : Bool)
  | readStatus
  | respond (req : TskMgmt) (rspCode : BitVec 8) (reqLimDelta : BitVec 32) (buf : ℕ → BitVec 8)
  | drop (req : TskMgmt)

def State.login (target : SrpTargetPort) (reqLim : BitVec 32) : State :=
  { sys := Sys.login target reqLim }

/-- The check with which `srp_send_tsk_mgmt` begins. -/
def State.usable (s : State) : Bool := s.sys.ch.connected && !s.sys.ch.qpInError

/-- What `srp_abort` makes of the result of `srp_send_tsk_mgmt`. -/
def srpAbortVerdict (ok lost : Bool) : Verdict :=
  if ok then .success else if lost then .fastIoFail else .failed

/-- What `srp_reset_device` makes of it. -/
def srpResetDeviceVerdict (ok : Bool) (tskMgmtStatus : BitVec 8) : Verdict :=
  if ok = false then .failed else if tskMgmtStatus ≠ 0 then .failed else .success

/-- The result of a function whose `srp_send_tsk_mgmt` failed. -/
def TskMgmtFunc.onFailure (func : TskMgmtFunc) (lost : Bool) (tskMgmtStatus : BitVec 8) : Verdict :=
  match func with
  | .abortTask => srpAbortVerdict false lost
  | .lunReset => srpResetDeviceVerdict false tskMgmtStatus

/-- `srp_send_tsk_mgmt` returns -1 before it has sent anything. -/
def State.notSent (s : State) (func : TskMgmtFunc) (lost : Bool) : State :=
  { s with call := none, log := .notSent func (func.onFailure lost s.tskMgmtStatus)::s.log }

def State.sent (s : State) (args : TskMgmtArgs) : State :=
  let req : TskMgmt := { args with seq := s.nextSeq }
  { s with
    call := some (.wait req), nextSeq := s.nextSeq+1, owed := s.owed++[req],
    log := .sent req::s.log }

/-- The wait is over because `tsk_mgmt_done` was completed. -/
def State.woken (s : State) (req : TskMgmt) : State :=
  let s := { s with tskMgmtDone := s.tskMgmtDone-1, log := .returned req true::s.log }
  match req.func with
  | .abortTask =>
      { s with call := none, log := .verdict req (srpAbortVerdict true false)::s.log }
  | .lunReset => { s with call := some (.readStatus req) }

def State.timedOut (s : State) (req : TskMgmt) (lost : Bool) : State :=
  { s with
    call := none,
    log := .verdict req (req.func.onFailure lost s.tskMgmtStatus)::.returned req false::s.log }

def State.statusRead (s : State) (req : TskMgmt) : State :=
  { s with
    call := none, log := .verdict req (srpResetDeviceVerdict true s.tskMgmtStatus)::s.log }

/-- The branch of `srp_process_rsp` for tags with SRP_TAG_TSK_MGMT. -/
def State.processTskMgmtRsp (s : State) (rsp : SrpRsp) : State :=
  { s with
    sys := { s.sys with ch := { s.sys.ch with reqLim := s.sys.ch.reqLim+rsp.reqLimDelta } },
    tskMgmtStatus := if 4 ≤ rsp.respDataLen.toNat then rsp.data 3 else BitVec.ofInt 8 (-1),
    tskMgmtDone := s.tskMgmtDone+1 }

/-- The response to `req` is received. -/
def State.answered (s : State) (req : TskMgmt) (rspCode : BitVec 8) (reqLimDelta : BitVec 32)
    (buf : ℕ → BitVec 8) : State :=
  let rsp := srptBuildTskmgmtRsp reqLimDelta buf rspCode req.tag
  { s.processTskMgmtRsp rsp with owed := s.owed.erase req, log := .arrived req rspCode::s.log }

/-- The steps of the channel that are not part of a task management function. The request
of an abort is freed when the abort is over. -/
def State.allows (s : State) : ChannelSystem.Event → Bool
  | .tskMgmt => false
  | .abort _ => false
  | .rsp tag _ _ => !isTskMgmtTag tag
  | .free k => s.call = none || (s.sys.claims[k]?).all fun c => c.completer ≠ .abort
  | _ => true

/-- The requests whose responses can still arrive after a step of the channel. -/
def State.owedAfter (s : State) : ChannelSystem.Event → List TskMgmt
  | .reconnectCreate true _ => []
  | _ => s.owed

section
variable (hca : Hca) (target : SrpTargetPort) (chIdx : ℕ)

def step (s : State) : Event → Option State
  | .channel e =>
      if s.allows e then
        (ChannelSystem.step hca target chIdx s.sys e).map fun sys =>
          { s with sys := sys, owed := s.owedAfter e }
      else none
  | .abort id =>
      if s.call ≠ none then none
      else
        match s.sys.ch.hostScribble id with
        | none => some s
        | some i =>
            match srpClaimReq i none (some id) s.sys.ch with
            | (none, _) => some s
            | (some scmnd, ch) =>
                some { s with
                  sys := s.sys.claim i 0 .abort scmnd ch,
                  call := some (.check ⟨.abortTask, buildSrpTag chIdx i, scmnd.device⟩) }
  | .resetDevice lun =>
      if s.call ≠ none then none
      else some { s with call := some (.check ⟨.lunReset, srpTagNoReq, lun⟩) }
  | .check lost =>
      match s.call with
      | some (.check args) =>
          if s.usable then some { s with tskMgmtDone := 0, call := some (.send args) }
          else some (s.notSent args.func lost)
      | _ => none
  | .send lost =>
      match s.call with
      | some (.send args) =>
          if s.sys.reconnect ≠ none then none
          else
            let r := srpSendTskMgmt hca s.sys.ch
            let s := { s with sys := { s.sys with ch := r.2 } }
            if r.1 then some (s.sent args) else some (s.notSent args.func lost)
      | _ => none
  | .wake =>
      match s.call with
      | some (.wait req) => if s.tskMgmtDone = 0 then none else some (s.woken req)
      | _ => none
  | .timeout lost =>
      match s.call with
      | some (.wait req) => if s.tskMgmtDone = 0 then some (s.timedOut req lost) else none
      | _ => none
  | .readStatus =>
      match s.call with
      | some (.readStatus req) => some (s.statusRead req)
      | _ => none
  | .respond req rspCode reqLimDelta buf =>
      if req ∈ s.owed then some (s.answered req rspCode reqLimDelta buf) else none
  | .drop req => some { s with owed := s.owed.erase req }

inductive Stepped (s : State) : Event → State → Prop
  | channel {e : ChannelSystem.Event} {sys : Sys} :
      ChannelSystem.step hca target chIdx s.sys e = some sys →
      Stepped s (.channel e) { s with sys := sys, owed := s.owedAfter e }
  | ignored {e : Event} : Stepped s e s
  | called {e : Event} {args : TskMgmtArgs} {sys : Sys} : s.call = none →
      sys = s.sys ∨ (∃ id, ChannelSystem.step hca target chIdx s.sys (.abort id) = some sys) →
      Stepped s e { s with sys := sys, call := some (.check args) }
  | checked {args : TskMgmtArgs} {lost : Bool} : s.call = some (.check args) → s.usable = true →
      Stepped s (.check lost) { s with tskMgmtDone := 0, call := some (.send args) }
  | refused {args : TskMgmtArgs} {lost : Bool} :
      Stepped s (.check lost) (s.notSent args.func lost)
  | sent {args : TskMgmtArgs} {lost : Bool} {sys : Sys} : s.call = some (.send args) →
      ChannelSystem.step hca target chIdx s.sys .tskMgmt = some sys →
      Stepped s (.send lost) ({ s with sys := sys }.sent args)
  | postFailed {args : TskMgmtArgs} {lost : Bool} {sys : Sys} :
      ChannelSystem.step hca target chIdx s.sys .tskMgmt = some sys →
      Stepped s (.send lost) ({ s with sys := sys }.notSent args.func lost)
  | woken {req : TskMgmt} : s.call = some (.wait req) → s.tskMgmtDone ≠ 0 →
      Stepped s .wake (s.woken req)
  | timedOut {req : TskMgmt} {lost : Bool} : s.call = some (.wait req) → s.tskMgmtDone = 0 →
      Stepped s (.timeout lost) (s.timedOut req lost)
  | statusRead {req : TskMgmt} : s.call = some (.readStatus req) →
      Stepped s .readStatus (s.statusRead req)
  | answered {req : TskMgmt} {rspCode : BitVec 8} {reqLimDelta : BitVec 32} {buf : ℕ → BitVec 8} :
      req ∈ s.owed →
      Stepped s (.respond req rspCode reqLimDelta buf) (s.answered req rspCode reqLimDelta buf)
  | dropped {req : TskMgmt} : Stepped s (.drop req) { s with owed := s.owed.erase req }

end

section
variable {hca : Hca} {target : SrpTargetPort} {chIdx : ℕ} {s s' : State}

theorem stepped_abort {id : ℕ} (h : step hca target chIdx s (.abort id) = some s') :
    Stepped hca target chIdx s (.abort id) s' := by
  simp only [step] at h
  split_ifs at h with hcall
  have hnone : s.call = none := not_not.mp hcall
  cases hid : s.sys.ch.hostScribble id with
  | none =>
      rw [hid] at h
      cases h
      exact .ignored
  | some i =>
      have hstep : ChannelSystem.step hca target chIdx s.sys (.abort id) =
          some (s.sys.claimed i 0 .abort (srpClaimReq i none (some id) s.sys.ch)) := by
        simp only [ChannelSystem.step, hid]
      rw [hid] at h
      simp only at h
      split at h
      · cases h
        exact .ignored
      · rename_i scmnd ch hclaim
        rw [hclaim] at hstep
        cases h
        exact .called hnone (Or.inr ⟨id, hstep⟩)

theorem stepped_send {lost : Bool} (h : step hca target chIdx s (.send lost) = some s') :
    Stepped hca target chIdx s (.send lost) s' := by
  simp only [step] at h
  split at h
  · rename_i args hcall
    split_ifs at h with hidle hok
    · have hstep : ChannelSystem.step hca target chIdx s.sys .tskMgmt = some _ := if_neg hidle
      cases h
      exact .sent hcall hstep
    · have hstep : ChannelSystem.step hca target chIdx s.sys .tskMgmt = some _ := if_neg hidle
      cases h
      exact .postFailed hstep
  · cases h

theorem step_cases {e : Event} (h : step hca target chIdx s e = some s') :
    Stepped hca target chIdx s e s' := by
  cases e with
  | channel e =>
      simp only [step] at h
      split_ifs at h
      obtain ⟨sys, hsys, rfl⟩ := Option.map_eq_some_iff.mp h
      exact .channel hsys
  | abort id => exact stepped_abort h
  | resetDevice lun =>
      simp only [step] at h
      split_ifs at h with hcall
      cases h
      exact .called (not_not.mp hcall) (Or.inl rfl)
  | check lost =>
      simp only [step] at h
      split at h
      · rename_i args hcall
        split_ifs at h with husable
        · cases h
          exact .checked hcall husable
        · cases h
          exact .refused
      · cases h
  | send lost => exact stepped_send h
  | wake =>
      simp only [step] at h
      split at h
      · rename_i req hcall
        split_ifs at h with hdone
        cases h
        exact .woken hcall hdone
      · cases h
  | timeout lost =>
      simp only [step] at h
      split at h
      · rename_i req hcall
        split_ifs at h with hdone
        cases h
        exact .timedOut hcall hdone
      · cases h
  | readStatus =>
      simp only [step] at h
      split at h
      · rename_i req hcall
        cases h
        exact .statusRead hcall
      · cases h
  | respond req rspCode reqLimDelta buf =>
      simp only [step] at h
      split_ifs at h with howed
      cases h
      exact .answered howed
  | drop req =>
      cases h
      exact .dropped

theorem isTskMgmtTag_tag (req : TskMgmt) : isTskMgmtTag req.tag = true := by
  unfold isTskMgmtTag TskMgmt.tag srpTagTskMgmt
  rw [Nat.testBit_or, Nat.testBit_two_pow_self, Bool.or_true]

/-- For the channel the response to a task management request is one more response that
matches no command. -/
theorem step_rsp_answered (req : TskMgmt) (rspCode : BitVec 8) (reqLimDelta : BitVec 32)
    (buf : ℕ → BitVec 8) : ∃ e,
    ChannelSystem.step hca target chIdx s.sys e =
      some (s.answered req rspCode reqLimDelta buf).sys := by
  obtain ⟨answer, hanswer⟩ := Infinite.exists_notMem_finset (s.sys.owed.map Prod.snd).toFinset
  have hnot : (req.tag, answer) ∉ s.sys.owed := by
    intro hmem
    exact hanswer (List.mem_toFinset.mpr (List.mem_map_of_mem hmem))
  refine ⟨.rsp req.tag (srptBuildTskmgmtRsp reqLimDelta buf rspCode req.tag).reqLimDelta answer, ?_⟩
  simp only [ChannelSystem.step, Sys.processRsp, isTskMgmtTag_tag, if_true,
    List.erase_of_not_mem hnot]
  rfl

/-- One step of this system is at most one step of the channel. -/
theorem channel_of_stepped {e : Event} (h : Stepped hca target chIdx s e s') :
    s'.sys = s.sys ∨ ∃ e, ChannelSystem.step hca target chIdx s.sys e = some s'.sys := by
  cases h with
  | channel hsys => exact Or.inr ⟨_, hsys⟩
  | ignored => exact Or.inl rfl
  | called _ hsys =>
      cases hsys with
      | inl hsame => exact Or.inl hsame
      | inr hclaim =>
          obtain ⟨id, hid⟩ := hclaim
          exact Or.inr ⟨_, hid⟩
  | checked _ _ => exact Or.inl rfl
  | refused => exact Or.inl rfl
  | sent _ hsys => exact Or.inr ⟨_, hsys⟩
  | postFailed hsys => exact Or.inr ⟨_, hsys⟩
  | @woken req _ _ =>
      left
      unfold State.woken
      cases req.func <;> rfl
  | timedOut _ _ => exact Or.inl rfl
  | statusRead _ => exact Or.inl rfl
  | answered _ => exact Or.inr (step_rsp_answered _ _ _ _)
  | dropped => exact Or.inl rfl

/-- Every run of task management functions is a run of the channel. -/
theorem channel_of_run {ok : State → Event → Prop} {start : State}
    (hrun : Run (step hca target chIdx) ok start s) :
    AnyRun (ChannelSystem.step hca target chIdx) start.sys s.sys := by
  induction hrun with
  | start => exact .start
  | more _ _ he ih =>
      cases channel_of_stepped (step_cases he) with
      | inl hsame =>
          rw [hsame]
          exact ih
      | inr hstep =>
          obtain ⟨e, hstep⟩ := hstep
          exact ih.more trivial hstep

end

end IbSrp.TaskManagement

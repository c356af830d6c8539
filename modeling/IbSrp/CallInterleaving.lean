import IbSrp.ChannelFrames

/-!
# Calls on a channel, one section at a time

`ch->lock` protects the request limit only inside short sections. Here a call
is cut at these sections: `srp_queuecommand` takes a buffer and a slot, maps the
data, posts the request and, if one of these fails, undoes what was done step by
step. Any number of calls may be in progress at once, and any of them may go on
next.

A call that has taken a buffer for an SRP_CMD or SRP_TSK_MGMT holds a unit of
credit until the work request is posted or the buffer is put back. A received
message whose credit is still to be added is part of the state as well. `sent`,
`received` and `handled` are histories: the units that were posted, the credit
fields of all messages received and of those handled.

The last results say that the functions of the channel model are these calls run
without interruption.
-/
namespace IbSrp.CallInterleaving
open LabelledRuns Channel ChannelSystem ChannelFrames

inductive CmdPhase where
  | map
  | post (numSge : ℕ)
  | unmap
  | putIu
  | putReq
deriving DecidableEq, Repr

inductive IuPhase where
  | post
  | putIu
deriving DecidableEq, Repr

/-- A call in progress. `unmatched` and `answered` are `srp_process_rsp` without and with a
claimed request; `ended` is a request claimed by an abort, a reset or a termination. -/
inductive Call where
  | cmd (phase : CmdPhase) (iu i : ℕ) (scmnd : ScsiCmnd)
  | tskMgmt (phase : IuPhase) (iu : ℕ)
  | rsp (phase : IuPhase) (iu : ℕ)
  | unmatched (delta : BitVec 32)
  | answered (i : ℕ) (scmnd : ScsiCmnd) (delta : BitVec 32)
  | ended (i : ℕ) (scmnd : ScsiCmnd)

/-- How a call goes on. A unit is `sent` when its work request has been posted. -/
inductive Next where
  | call (c : Call)
  | sent
  | done

structure State where
  ch : SrpRdmaCh
  calls : List Call := []
  sent : ℕ := 0
  received : List (BitVec 32) := []
  handled : List (BitVec 32) := []

inductive Event where
  | queuecommand (scmnd : ScsiCmnd)
  | tskMgmt
  | rsp (tag : ℕ) (delta : BitVec 32)
  | targetRequest (delta : BitVec 32)
  | finish (i : ℕ) (sdev : Option ℕ)
  | abort (id : ℕ)
  | resume (k : ℕ)
  | complete (ok : Bool)
  | connected (up : Bool)
  | createChIb (created : Bool)

/-- The unit of credit that a call holds. -/
def Call.units : Call → ℕ
  | .cmd .putReq _ _ _ => 0
  | .cmd _ _ _ _ => 1
  | .tskMgmt _ _ => 1
  | _ => 0

/-- The credit that a call has still to add for the message it handles. -/
def Call.credit : Call → List (BitVec 32)
  | .unmatched delta => [delta]
  | .answered _ _ delta => [delta]
  | _ => []

/-- What the next section of a call adds to the request limit. -/
def Call.added : Call → BitVec 32
  | .cmd .putIu _ _ _ => 1
  | .tskMgmt .putIu _ => 1
  | .unmatched delta => delta
  | .answered _ _ delta => delta
  | _ => 0

/-- The unit that is out when a call has gone on. -/
def Next.units : Next → ℕ
  | .call c => c.units
  | .sent => 1
  | .done => 0

def State.units (s : State) : ℕ := s.sent+(s.calls.map Call.units).sum

/-- The credit of messages that are being handled. -/
def State.unhandled (s : State) : List (BitVec 32) := s.calls.flatMap Call.credit

def State.login (target : SrpTargetPort) (reqLim : BitVec 32) : State :=
  { ch := SrpRdmaCh.login target reqLim }

def State.call (s : State) (c : Call) (ch : SrpRdmaCh) : State :=
  { s with ch := ch, calls := s.calls++[c] }

@[simp] theorem call_ch (s : State) (c : Call) (ch : SrpRdmaCh) : (s.call c ch).ch = ch := rfl

section
variable (hca : Hca) (target : SrpTargetPort)

def Call.advance : Call → SrpRdmaCh → Next × SrpRdmaCh
  | .cmd .map iu i scmnd, ch =>
      match srpMapData hca target scmnd i ch with
      | (none, ch) => (.call (.cmd .putIu iu i scmnd), ch)
      | (some layout, ch) => (.call (.cmd (.post layout.numSge) iu i scmnd), ch)
  | .cmd (.post numSge) iu i scmnd, ch =>
      match srpPostSend hca iu numSge ch with
      | (true, ch) => (.sent, ch)
      | (false, ch) => (.call (.cmd .unmap iu i scmnd), ch)
  | .cmd .unmap iu i scmnd, ch =>
      (.call (.cmd .putIu iu i scmnd), srpUnmapData hca target scmnd i ch)
  | .cmd .putIu iu i scmnd, ch => (.call (.cmd .putReq iu i scmnd), srpPutTxIu iu .cmd ch)
  | .cmd .putReq _ i _, ch =>
      let ch := ch.setReq i { ch.reqRing i with scmnd := none }
      (.done, { ch with freeReqs := i::ch.freeReqs, slotLog := ch.slotLog++[SlotEvent.put i] })
  | .tskMgmt .post iu, ch =>
      match srpPostSend hca iu 1 ch with
      | (true, ch) => (.sent, ch)
      | (false, ch) => (.call (.tskMgmt .putIu iu), ch)
  | .tskMgmt .putIu iu, ch => (.done, srpPutTxIu iu .tskMgmt ch)
  | .rsp .post iu, ch =>
      match srpPostSend hca iu 1 ch with
      | (true, ch) => (.done, ch)
      | (false, ch) => (.call (.rsp .putIu iu), ch)
  | .rsp .putIu iu, ch => (.done, srpPutTxIu iu .rsp ch)
  | .unmatched delta, ch => (.done, { ch with reqLim := ch.reqLim+delta })
  | .answered i scmnd delta, ch =>
      let ch := srpFreeReq hca target i scmnd delta ch
      (.done, { ch with hostScribble := Function.update ch.hostScribble scmnd.id none })
  | .ended i scmnd, ch => (.done, srpFreeReq hca target i scmnd 0 ch)

/-- Call number `k`, which is `c`, goes on with its next section. -/
def State.resume (s : State) (k : ℕ) (c : Call) : State :=
  let rest := s.calls.eraseIdx k
  let handled := s.handled++c.credit
  match c.advance hca target s.ch with
  | (.call c, ch) => { s with ch := ch, calls := rest++[c], handled := handled }
  | (.sent, ch) => { s with ch := ch, calls := rest, sent := s.sent+1, handled := handled }
  | (.done, ch) => { s with ch := ch, calls := rest, handled := handled }

/-- A claimed request is freed in a later section. -/
def State.claimed (s : State) (i : ℕ) : Option ScsiCmnd × SrpRdmaCh → State
  | (none, ch) => { s with ch := ch }
  | (some scmnd, ch) => s.call (.ended i scmnd) ch

/-- `srp_process_rsp` up to the end of its first section. -/
def State.processRsp (s : State) (tag : ℕ) (delta : BitVec 32) : State :=
  let s := { s with received := s.received++[delta] }
  if isTskMgmtTag tag then
    { s with ch := { s.ch with reqLim := s.ch.reqLim+delta }, handled := s.handled++[delta] }
  else if srpTagIdx tag < target.reqRingSize then
    match srpClaimReq (srpTagIdx tag) none none s.ch with
    | (none, ch) => s.call (.unmatched delta) ch
    | (some scmnd, ch) => s.call (.answered (srpTagIdx tag) scmnd delta) ch
  else s.call (.unmatched delta) s.ch

def step (s : State) : Event → Option State
  | .queuecommand scmnd =>
      match srpGetTxIu .cmd s.ch with
      | (none, ch) => some { s with ch := ch }
      | (some iu, ch) =>
          match ch.freeReqs with
          | [] => none
          | i::rest => some (s.call (.cmd .map iu i scmnd) (srpTakeReq i rest scmnd ch))
  | .tskMgmt =>
      match srpGetTxIu .tskMgmt s.ch with
      | (none, ch) => some { s with ch := ch }
      | (some iu, ch) => some (s.call (.tskMgmt .post iu) ch)
  | .rsp tag delta => some (s.processRsp target tag delta)
  | .targetRequest delta =>
      let s := { s with received := s.received++[delta], handled := s.handled++[delta] }
      match srpGetTxIu .rsp { s.ch with reqLim := s.ch.reqLim+delta } with
      | (none, ch) => some { s with ch := ch }
      | (some iu, ch) => some (s.call (.rsp .post iu) ch)
  | .finish i sdev =>
      if i < target.reqRingSize then some (s.claimed i (srpClaimReq i sdev none s.ch)) else none
  | .abort id =>
      match s.ch.hostScribble id with
      | none => some s
      | some i => some (s.claimed i (srpClaimReq i none (some id) s.ch))
  | .resume k => (s.calls[k]?).map (s.resume hca target k)
  | .complete ok => some { s with ch := { s.ch with sq := completeFirst ok s.ch.sq } }
  | .connected up => some { s with ch := { s.ch with connected := up } }
  | .createChIb created => some { s with ch := srpCreateChIb target created s.ch }

end

/-- A step with the results of the functions that it calls. -/
inductive Steps (hca : Hca) (target : SrpTargetPort) (s : State) : Event → State → Prop
  | noCmdIu {scmnd : ScsiCmnd} {ch : SrpRdmaCh} : srpGetTxIu .cmd s.ch = (none, ch) →
      Steps hca target s (.queuecommand scmnd) { s with ch := ch }
  | cmdIu {scmnd : ScsiCmnd} {iu i : ℕ} {rest : List ℕ} {ch : SrpRdmaCh} :
      srpGetTxIu .cmd s.ch = (some iu, ch) → ch.freeReqs = i::rest →
      Steps hca target s (.queuecommand scmnd)
        (s.call (.cmd .map iu i scmnd) (srpTakeReq i rest scmnd ch))
  | noTskMgmtIu {ch : SrpRdmaCh} : srpGetTxIu .tskMgmt s.ch = (none, ch) →
      Steps hca target s .tskMgmt { s with ch := ch }
  | tskMgmtIu {iu : ℕ} {ch : SrpRdmaCh} : srpGetTxIu .tskMgmt s.ch = (some iu, ch) →
      Steps hca target s .tskMgmt (s.call (.tskMgmt .post iu) ch)
  | processRsp {tag : ℕ} {delta : BitVec 32} :
      Steps hca target s (.rsp tag delta) (s.processRsp target tag delta)
  | noRspIu {delta : BitVec 32} {ch : SrpRdmaCh} :
      srpGetTxIu .rsp { s.ch with reqLim := s.ch.reqLim+delta } = (none, ch) →
      Steps hca target s (.targetRequest delta)
        { s with ch := ch, received := s.received++[delta], handled := s.handled++[delta] }
  | rspIu {delta : BitVec 32} {iu : ℕ} {ch : SrpRdmaCh} :
      srpGetTxIu .rsp { s.ch with reqLim := s.ch.reqLim+delta } = (some iu, ch) →
      Steps hca target s (.targetRequest delta)
        { s with ch := ch, calls := s.calls++[.rsp .post iu],
                 received := s.received++[delta], handled := s.handled++[delta] }
  | finish {i : ℕ} {sdev : Option ℕ} : i < target.reqRingSize →
      Steps hca target s (.finish i sdev) (s.claimed i (srpClaimReq i sdev none s.ch))
  | abortLate {id : ℕ} : s.ch.hostScribble id = none → Steps hca target s (.abort id) s
  | abort {id i : ℕ} : s.ch.hostScribble id = some i →
      Steps hca target s (.abort id) (s.claimed i (srpClaimReq i none (some id) s.ch))
  | resume {k : ℕ} {c : Call} : s.calls[k]? = some c →
      Steps hca target s (.resume k) (s.resume hca target k c)
  | complete {ok : Bool} : Steps hca target s (.complete ok)
      { s with ch := { s.ch with sq := completeFirst ok s.ch.sq } }
  | connected {up : Bool} :
      Steps hca target s (.connected up) { s with ch := { s.ch with connected := up } }
  | createChIb {created : Bool} :
      Steps hca target s (.createChIb created) { s with ch := srpCreateChIb target created s.ch }

theorem step_inversion {hca : Hca} {target : SrpTargetPort} {s s' : State} {e : Event}
    (h : step hca target s e = some s') : Steps hca target s e s' := by
  cases e with
  | queuecommand scmnd =>
      simp only [step] at h
      split at h
      · cases h
        exact .noCmdIu (by assumption)
      · split at h
        · cases h
        · cases h
          exact .cmdIu (by assumption) (by assumption)
  | tskMgmt =>
      simp only [step] at h
      split at h
      · cases h
        exact .noTskMgmtIu (by assumption)
      · cases h
        exact .tskMgmtIu (by assumption)
  | rsp tag delta =>
      cases h
      exact .processRsp
  | targetRequest delta =>
      simp only [step] at h
      split at h
      · cases h
        exact .noRspIu (by assumption)
      · cases h
        exact .rspIu (by assumption)
  | finish i sdev =>
      simp only [step] at h
      split_ifs at h with hi
      cases h
      exact .finish hi
  | abort id =>
      simp only [step] at h
      split at h
      · cases h
        exact .abortLate (by assumption)
      · cases h
        exact .abort (by assumption)
  | resume k =>
      obtain ⟨c, hc, rfl⟩ := Option.map_eq_some_iff.mp h
      exact .resume hc
  | complete ok =>
      cases h
      exact .complete
  | connected up =>
      cases h
      exact .connected
  | createChIb created =>
      cases h
      exact .createChIb

section
variable {hca : Hca} {target : SrpTargetPort} {s : State} {c c' : Call} {ch ch' : SrpRdmaCh}

theorem step_resume (hca : Hca) (target : SrpTargetPort) (s : State) (c : Call) (ch : SrpRdmaCh) :
    step hca target (s.call c ch) (.resume s.calls.length) =
      some ((s.call c ch).resume hca target s.calls.length c) := by
  simp [step, State.call]

theorem resume_call (hc : c.credit = []) (h : c.advance hca target ch = (.call c', ch')) :
    step hca target (s.call c ch) (.resume s.calls.length) = some (s.call c' ch') := by
  rw [step_resume]
  simp [State.resume, State.call, h, hc, List.eraseIdx_append_of_length_le]

theorem resume_sent (hc : c.credit = []) (h : c.advance hca target ch = (.sent, ch')) :
    step hca target (s.call c ch) (.resume s.calls.length) =
      some { s with ch := ch', sent := s.sent+1 } := by
  rw [step_resume]
  simp [State.resume, State.call, h, hc, List.eraseIdx_append_of_length_le]

theorem resume_done (hc : c.credit = []) (h : c.advance hca target ch = (.done, ch')) :
    step hca target (s.call c ch) (.resume s.calls.length) = some { s with ch := ch' } := by
  rw [step_resume]
  simp [State.resume, State.call, h, hc, List.eraseIdx_append_of_length_le]

/-- The units that `srp_queuecommand` has sent when it returns. -/
def sentUnits : QueueResult → ℕ
  | .sent _ => 1
  | _ => 0

/-- The end of `srp_queuecommand` from label `err_iu` on. -/
theorem error_uninterrupted (s : State) (iu i : ℕ) (scmnd : ScsiCmnd) (ch : SrpRdmaCh) :
    AnyRun (step hca target) (s.call (.cmd .putIu iu i scmnd) ch)
      { s with ch := srpQueuecommandError iu i ch } := by
  have hiu : step hca target (s.call (.cmd .putIu iu i scmnd) ch) (.resume s.calls.length) =
      some (s.call (.cmd .putReq iu i scmnd) (srpPutTxIu iu .cmd ch)) := resume_call rfl rfl
  have hreq : step hca target (s.call (.cmd .putReq iu i scmnd) (srpPutTxIu iu .cmd ch))
      (.resume s.calls.length) = some { s with ch := srpQueuecommandError iu i ch } := by
    exact resume_done rfl rfl
  exact (Run.start.more trivial hiu).more trivial hreq

theorem queuecommand_started (hca : Hca) (target : SrpTargetPort) (scmnd : ScsiCmnd) {iu i : ℕ}
    {rest : List ℕ} (hget : srpGetTxIu .cmd s.ch = (some iu, ch)) (hfree : ch.freeReqs = i::rest) :
    AnyRun (step hca target) s (s.call (.cmd .map iu i scmnd) (srpTakeReq i rest scmnd ch)) := by
  have h : step hca target s (.queuecommand scmnd) =
      some (s.call (.cmd .map iu i scmnd) (srpTakeReq i rest scmnd ch)) := by
    simp [step, hget, hfree]
  exact Run.start.more trivial h

theorem queuecommand_mapped {scmnd : ScsiCmnd} {iu i : ℕ} {rest : List ℕ} {layout : CmdLayout}
    (hget : srpGetTxIu .cmd s.ch = (some iu, ch)) (hfree : ch.freeReqs = i::rest)
    (hmap : srpMapData hca target scmnd i (srpTakeReq i rest scmnd ch) = (some layout, ch')) :
    AnyRun (step hca target) s (s.call (.cmd (.post layout.numSge) iu i scmnd) ch') := by
  have hadvance : (Call.cmd .map iu i scmnd).advance hca target (srpTakeReq i rest scmnd ch) =
      (.call (.cmd (.post layout.numSge) iu i scmnd), ch') := by simp [Call.advance, hmap]
  exact (queuecommand_started hca target scmnd hget hfree).more trivial (resume_call rfl hadvance)

/-- `srp_queuecommand` is the call with its sections one after another. -/
theorem queuecommand_uninterrupted {scmnd : ScsiCmnd} {p : QueueResult × SrpRdmaCh}
    (h : Queuecommand hca target scmnd s.ch p) :
    AnyRun (step hca target) s { s with ch := p.2, sent := s.sent+sentUnits p.1 } := by
  cases h with
  | failing => exact .start
  | blocked => exact .start
  | @noIu ch₁ hget =>
      have hstep : step hca target s (.queuecommand scmnd) = some { s with ch := ch₁ } := by
        simp [step, hget]
      exact Run.start.more trivial hstep
  | @mapFailed ch₁ ch₂ iu i rest hget hfree hmap =>
      have hadvance : (Call.cmd .map iu i scmnd).advance hca target (srpTakeReq i rest scmnd ch₁) =
          (.call (.cmd .putIu iu i scmnd), ch₂) := by simp [Call.advance, hmap]
      have hstarted := queuecommand_started hca target scmnd hget hfree
      have hfailed := hstarted.more trivial (resume_call rfl hadvance)
      exact hfailed.append (error_uninterrupted s iu i scmnd ch₂)
  | @sent ch₁ ch₂ ch₃ iu i rest layout hget hfree hmap hpost =>
      have hadvance : (Call.cmd (.post layout.numSge) iu i scmnd).advance hca target ch₂ =
          (.sent, ch₃) := by simp [Call.advance, hpost]
      exact (queuecommand_mapped hget hfree hmap).more trivial (resume_sent rfl hadvance)
  | @postFailed ch₁ ch₂ ch₃ iu i rest layout hget hfree hmap hpost =>
      have hadvance : (Call.cmd (.post layout.numSge) iu i scmnd).advance hca target ch₂ =
          (.call (.cmd .unmap iu i scmnd), ch₃) := by simp [Call.advance, hpost]
      have hposted := (queuecommand_mapped hget hfree hmap).more trivial (resume_call rfl hadvance)
      have hunmapped := hposted.more trivial (resume_call rfl rfl)
      exact hunmapped.append (error_uninterrupted s iu i scmnd _)

theorem tskMgmt_uninterrupted (hca : Hca) (target : SrpTargetPort) (s : State) :
    ∃ sent, AnyRun (step hca target) s
      { s with ch := (srpSendTskMgmt hca s.ch).2, sent := sent } := by
  unfold srpSendTskMgmt srpSendIu
  obtain ⟨o, ch₁, hget⟩ : ∃ o ch₁, srpGetTxIu .tskMgmt s.ch = (o, ch₁) := ⟨_, _, rfl⟩
  rw [hget]
  cases o with
  | none =>
      have hstep : step hca target s .tskMgmt = some { s with ch := ch₁ } := by
        simp only [step, hget]
      exact ⟨s.sent, Run.start.more trivial hstep⟩
  | some iu =>
      have hstep : step hca target s .tskMgmt = some (s.call (.tskMgmt .post iu) ch₁) := by
        simp only [step, hget]
      have hstarted : AnyRun (step hca target) s _ := Run.start.more trivial hstep
      obtain ⟨ok, ch₂, hpost⟩ : ∃ ok ch₂, srpPostSend hca iu 1 ch₁ = (ok, ch₂) := ⟨_, _, rfl⟩
      simp only [hpost]
      cases ok with
      | true =>
          have hadvance : (Call.tskMgmt .post iu).advance hca target ch₁ = (.sent, ch₂) := by
            simp [Call.advance, hpost]
          exact ⟨s.sent+1, hstarted.more trivial (resume_sent rfl hadvance)⟩
      | false =>
          have hadvance : (Call.tskMgmt .post iu).advance hca target ch₁ =
              (.call (.tskMgmt .putIu iu), ch₂) := by simp [Call.advance, hpost]
          have hfailed := hstarted.more trivial (resume_call rfl hadvance)
          exact ⟨s.sent, hfailed.more trivial (resume_done rfl rfl)⟩

theorem targetRequest_uninterrupted (hca : Hca) (target : SrpTargetPort) (s : State)
    (delta : BitVec 32) :
    AnyRun (step hca target) s
      { s with ch := (srpResponseCommon hca delta s.ch).2,
               received := s.received++[delta], handled := s.handled++[delta] } := by
  unfold srpResponseCommon srpSendIu
  set s₁ : State := { s with received := s.received++[delta], handled := s.handled++[delta] }
  obtain ⟨o, ch₁, hget⟩ : ∃ o ch₁,
    srpGetTxIu .rsp { s.ch with reqLim := s.ch.reqLim+delta } = (o, ch₁) := ⟨_, _, rfl⟩
  rw [hget]
  cases o with
  | none =>
      have hstep : step hca target s (.targetRequest delta) = some { s₁ with ch := ch₁ } := by
        simp only [step, hget]
        rfl
      exact Run.start.more trivial hstep
  | some iu =>
      have hstep : step hca target s (.targetRequest delta) =
          some (s₁.call (.rsp .post iu) ch₁) := by
        simp only [step, hget]
        rfl
      have hstarted : AnyRun (step hca target) s _ := Run.start.more trivial hstep
      obtain ⟨ok, ch₂, hpost⟩ : ∃ ok ch₂, srpPostSend hca iu 1 ch₁ = (ok, ch₂) := ⟨_, _, rfl⟩
      simp only [hpost]
      cases ok with
      | true =>
          have hadvance : (Call.rsp .post iu).advance hca target ch₁ = (.done, ch₂) := by
            simp [Call.advance, hpost]
          exact hstarted.more trivial (resume_done rfl hadvance)
      | false =>
          have hadvance : (Call.rsp .post iu).advance hca target ch₁ =
              (.call (.rsp .putIu iu), ch₂) := by simp [Call.advance, hpost]
          have hfailed := hstarted.more trivial (resume_call rfl hadvance)
          exact hfailed.more trivial (resume_done rfl rfl)

end

/-- The call that has claimed a request and will free it. -/
def callOf (c : Claim) : Call :=
  match c.completer with
  | .rsp _ => .answered c.slot c.scmnd c.delta
  | _ => .ended c.slot c.scmnd

/-- The same channel, and the claimed requests as calls in progress. Only a response adds
credit when it frees its request. -/
structure Simulates (s : Sys) (t : State) : Prop where
  ch : t.ch = s.ch
  calls : t.calls = s.claims.map callOf
  delta : ∀ c ∈ s.claims, callOf c = .ended c.slot c.scmnd → c.delta = 0

/-- A reconnect that ends with a login. -/
def isLogin : ChannelSystem.Event → Bool
  | .reconnectCreate true (some _) => true
  | _ => false

section
variable {hca : Hca} {target : SrpTargetPort} {s : Sys} {t : State}

theorem Simulates.claim (h : Simulates s t) {i : ℕ} {delta : BitVec 32} {completer : Completer}
    {c : ScsiCmnd} {owed : List (ℕ × ℕ)} {reconnect : Option ℕ} {received : List (BitVec 32)}
    {call : Call} (hcall : callOf ⟨i, c, delta, completer⟩ = call)
    (hdelta : call = .ended i c → delta = 0) :
    Simulates
      { s.claim i delta completer c (emptied s.ch i) with owed := owed, reconnect := reconnect }
      { t.call call (emptied s.ch i) with received := received } := by
  constructor
  · rfl
  · simp [State.call, Sys.claim, h.calls, hcall]
  · intro d hd he
    rcases List.mem_append.mp hd with hold | hnew
    · exact h.delta d hold he
    · rw [List.mem_singleton.mp hnew] at he ⊢
      exact hdelta (hcall ▸ he)

theorem Simulates.channel (h : Simulates s t) (ch : SrpRdmaCh) (owed : List (ℕ × ℕ))
    (reconnect : Option ℕ) (nextId : ℕ) (accepted : List ℕ) (done : List (ℕ × Completer))
    (sent : ℕ) (received handled : List (BitVec 32)) :
    Simulates
      { s with ch := ch, owed := owed, reconnect := reconnect, nextId := nextId,
               accepted := accepted, done := done }
      { t with ch := ch, sent := sent, received := received, handled := handled } :=
  ⟨rfl, h.calls, h.delta⟩

theorem Simulates.freed (h : Simulates s t) {k : ℕ} {c : Claim} (hk : s.claims[k]? = some c) :
    ∃ t', step hca target t (.resume k) = some t' ∧
      Simulates (s.freeClaim hca target k c) t' := by
  have hget : t.calls[k]? = some (callOf c) := by simp [h.calls, hk]
  have hdelta := h.delta c (List.mem_of_getElem? hk)
  have hadvance : (callOf c).advance hca target s.ch =
      (.done, (s.freeClaim hca target k c).ch) := by
    unfold callOf at hdelta ⊢
    unfold Sys.freeClaim
    cases hcomp : c.completer <;> simp_all [Call.advance]
  refine ⟨t.resume hca target k (callOf c), by simp [step, hget], ?_⟩
  constructor
  · simp [State.resume, h.ch, hadvance]
  · simp [State.resume, h.ch, hadvance, h.calls, Sys.freeClaim, List.eraseIdx_map]
  · intro d hd
    exact h.delta d (List.mem_of_mem_eraseIdx hd)

theorem Simulates.unmatched (h : Simulates s t) {tag : ℕ} {delta : BitVec 32}
    {owed : List (ℕ × ℕ)}
    (hc : isTskMgmtTag tag = false → srpTagIdx tag < target.reqRingSize →
      (s.ch.reqRing (srpTagIdx tag)).scmnd = none) :
    ∃ t', AnyRun (step hca target) t t' ∧
      Simulates { s with ch := { s.ch with reqLim := s.ch.reqLim+delta }, owed := owed } t' := by
  have hrsp : step hca target t (.rsp tag delta) = some (t.processRsp target tag delta) := rfl
  set t₁ : State := { t with received := t.received++[delta] }
  have hlater : t.processRsp target tag delta = t₁.call (.unmatched delta) t.ch →
      ∃ t', AnyRun (step hca target) t t' ∧
        Simulates { s with ch := { s.ch with reqLim := s.ch.reqLim+delta }, owed := owed } t' := by
    intro he
    have hresume : step hca target (t₁.call (.unmatched delta) t.ch) (.resume t₁.calls.length) =
        some ((t₁.call (.unmatched delta) t.ch).resume hca target t₁.calls.length
          (.unmatched delta)) := step_resume hca target t₁ _ _
    rw [he] at hrsp
    refine ⟨_, (Run.start.more trivial hrsp).more trivial hresume, ?_⟩
    rw [← h.ch]
    constructor
    · rfl
    · simp [State.resume, State.call, Call.advance, t₁, h.calls,
        List.eraseIdx_append_of_length_le]
    · exact h.delta
  cases htsk : isTskMgmtTag tag with
  | true =>
      refine ⟨_, Run.start.more trivial hrsp, ?_⟩
      simp only [State.processRsp, htsk, if_true, ← h.ch]
      exact ⟨rfl, h.calls, h.delta⟩
  | false =>
      apply hlater
      unfold State.processRsp
      by_cases hlt : srpTagIdx tag < target.reqRingSize
      · have hnone := hc htsk hlt
        rw [← h.ch] at hnone
        simp [htsk, hlt, srpClaimReq_none hnone, t₁]
      · simp [htsk, hlt, t₁]

theorem Simulates.matched (h : Simulates s t) {tag answer : ℕ} {delta : BitVec 32} {c : ScsiCmnd}
    {owed : List (ℕ × ℕ)} (htsk : isTskMgmtTag tag = false)
    (hlt : srpTagIdx tag < target.reqRingSize)
    (hc : (s.ch.reqRing (srpTagIdx tag)).scmnd = some c) :
    ∃ t', AnyRun (step hca target) t t' ∧
      Simulates { s.claim (srpTagIdx tag) delta (.rsp answer) c (emptied s.ch (srpTagIdx tag)) with
        owed := owed } t' := by
  have hstep : step hca target t (.rsp tag delta) =
      some { t.call (.answered (srpTagIdx tag) c delta) (emptied s.ch (srpTagIdx tag)) with
        received := t.received++[delta] } := by
    rw [← h.ch] at hc ⊢
    simp [step, State.processRsp, htsk, hlt, srpClaimReq_some hc, State.call]
  exact ⟨_, Run.start.more trivial hstep, h.claim rfl fun he => by cases he⟩

theorem Simulates.ended (h : Simulates s t) {e : Event} {i : ℕ} {completer : Completer}
    {c : ScsiCmnd} {owed : List (ℕ × ℕ)} {reconnect : Option ℕ}
    (hcall : callOf ⟨i, c, 0, completer⟩ = .ended i c)
    (hstep : step hca target t e = some (t.call (.ended i c) (emptied s.ch i))) :
    ∃ t', AnyRun (step hca target) t t' ∧
      Simulates { s.claim i 0 completer c (emptied s.ch i) with
        owed := owed, reconnect := reconnect } t' :=
  ⟨_, Run.start.more trivial hstep, h.claim hcall fun _ => rfl⟩

theorem step_finish (h : Simulates s t) {i : ℕ} {c : ScsiCmnd} (hi : i < target.reqRingSize)
    (hc : (s.ch.reqRing i).scmnd = some c) :
    step hca target t (.finish i none) = some (t.call (.ended i c) (emptied s.ch i)) := by
  rw [← h.ch] at hc ⊢
  simp [step, hi, srpClaimReq_some hc, State.claimed]

theorem step_abort (h : Simulates s t) {i : ℕ} {c : ScsiCmnd} (hi : s.ch.hostScribble c.id = some i)
    (hc : (s.ch.reqRing i).scmnd = some c) :
    step hca target t (.abort c.id) = some (t.call (.ended i c) (emptied s.ch i)) := by
  rw [← h.ch] at hc hi ⊢
  simp [step, hi, srpClaimReq, hc, State.claimed, emptied]

/-- Every step of the channel system up to the next login is a run of sections. -/
theorem Simulates.stepped {chIdx : ℕ} {s' : Sys} {e : ChannelSystem.Event} (h : Simulates s t)
    (hstep : Stepped hca target chIdx s e s') (hlogin : isLogin e = false) :
    ∃ t', AnyRun (step hca target) t t' ∧ Simulates s' t' := by
  cases hstep with
  | @queued readiness scmnd p _ _ hq =>
      rw [← h.ch] at hq
      have hrun := queuecommand_uninterrupted (srpQueuecommand_cases _ _ hq)
      obtain ⟨res, ch⟩ := p
      cases res <;> exact ⟨_, hrun, h.channel ..⟩
  | ignored => exact ⟨t, .start, h⟩
  | unmatched hc => exact h.unmatched hc
  | matched htsk hlt hc => exact h.matched htsk hlt hc
  | finished hi hc => exact h.ended rfl (step_finish h hi hc)
  | aborted hid hc => exact h.ended rfl (step_abort h hid hc)
  | freed hk =>
      obtain ⟨t', hfree, hsim⟩ := h.freed hk
      exact ⟨t', Run.start.more trivial hfree, hsim⟩
  | tskMgmt =>
      obtain ⟨sent, hrun⟩ := tskMgmt_uninterrupted hca target t
      rw [h.ch] at hrun
      exact ⟨_, hrun, h.channel ..⟩
  | @targetRequest delta =>
      have hrun := targetRequest_uninterrupted hca target t delta
      rw [h.ch] at hrun
      exact ⟨_, hrun, h.channel ..⟩
  | @complete ok =>
      have hone : step hca target t (.complete ok) =
          some { t with ch := { s.ch with sq := completeFirst ok s.ch.sq } } := by
        simp [step, h.ch]
      exact ⟨_, Run.start.more trivial hone, h.channel ..⟩
  | forget => exact ⟨t, .start, h.ch, h.calls, h.delta⟩
  | reconnectStart =>
      have hone : step hca target t (.connected false) =
          some { t with ch := { s.ch with connected := false } } := by
        simp [step, h.ch]
      exact ⟨_, Run.start.more trivial hone, h.channel ..⟩
  | reconnectClaimed _ hj hc => exact h.ended rfl (step_finish h hj hc)
  | reconnectSkipped => exact ⟨t, .start, h.ch, h.calls, h.delta⟩
  | @reconnected created grant _ =>
      have hone : step hca target t (.createChIb created) =
          some { t with ch := srpCreateChIb target created s.ch } := by
        simp [step, h.ch]
      cases created with
      | false => exact ⟨_, Run.start.more trivial hone, h.channel ..⟩
      | true =>
          cases grant with
          | none => exact ⟨_, Run.start.more trivial hone, h.channel ..⟩
          | some reqLim => cases hlogin

/-- Every run of the channel system up to the next login is a run of sections. -/
theorem sections_of_run {chIdx : ℕ} {reqLim : BitVec 32}
    (hrun : Run (ChannelSystem.step hca target chIdx) (fun _ e => isLogin e = false)
      (Sys.login target reqLim) s) :
    ∃ t, AnyRun (step hca target) (State.login target reqLim) t ∧ Simulates s t := by
  apply hrun.invariant
    (I := fun s => ∃ t, AnyRun (step hca target) (State.login target reqLim) t ∧ Simulates s t)
  · exact ⟨_, .start, rfl, rfl, fun c hc => by cases hc⟩
  · intro s e s' hs hlogin hstep
    obtain ⟨t, hrun, hsim⟩ := hs
    obtain ⟨t', hmore, hsim'⟩ := hsim.stepped (step_cases hstep) hlogin
    exact ⟨t', hrun.append hmore, hsim'⟩

end

end IbSrp.CallInterleaving

import IbSrp.LabelledRuns
import IbSrp.Channel

/-!
# A channel among the mid-layer, the transport class, the HCA and the target

The state holds the channel, the requests that were claimed and not yet freed,
the position of a reconnect in its loop over the request ring, and the target's
side: the commands it still owes an answer. Every call of `srp_queuecommand`
gets a new command number.

A call of `srp_queuecommand` is one step, because the transport class keeps it
from overlapping a reconnect. All paths that finish a request claim it in one
step and free it in a later one, so that anything may happen in between. The
loop of `srp_rport_reconnect` goes on only when the request it claimed has been
freed, and `rport->mutex` keeps task management requests out while it runs.
`srp_send_tsk_mgmt` checks the connection before it takes the mutex, so the step
in which it sends can find the channel in any condition.

A response carries any tag and any credit. `answer` is the command it is the
target's answer to; nothing in the initiator depends on it.
-/
namespace IbSrp.ChannelSystem
open Channel

inductive Completer where
  | rsp (answer : ℕ)
  | finish
  | abort
  | reconnect
  | queuecommand
deriving DecidableEq, Repr

structure Claim where
  slot : ℕ
  scmnd : ScsiCmnd
  delta : BitVec 32
  completer : Completer

structure Sys where
  ch : SrpRdmaCh
  claims : List Claim := []
  reconnect : Option ℕ := none
  nextId : ℕ := 0
  accepted : List ℕ := []
  done : List (ℕ × Completer) := []
  owed : List (ℕ × ℕ) := []

inductive Event where
  | queuecommand (readiness : Readiness) (scmnd : ScsiCmnd)
  | rsp (tag : ℕ) (delta : BitVec 32) (answer : ℕ)
  | finish (i : ℕ) (sdev : Option ℕ)
  | abort (id : ℕ)
  | free (k : ℕ)
  | tskMgmt
  | targetRequest (delta : BitVec 32)
  | complete (ok : Bool)
  | forget (tag id : ℕ)
  | reconnectStart
  | reconnectNext
  | reconnectCreate (created : Bool) (grant : Option (BitVec 32))

/-- The channel after a login, with nothing in progress. -/
def Sys.login (target : SrpTargetPort) (reqLim : BitVec 32) : Sys :=
  { ch := SrpRdmaCh.login target reqLim }

/-- The request in slot `i` is claimed and kept for the one who claimed it. -/
def Sys.claim (s : Sys) (i : ℕ) (delta : BitVec 32) (completer : Completer) (scmnd : ScsiCmnd)
    (ch : SrpRdmaCh) : Sys :=
  { s with ch := ch, claims := s.claims++[⟨i, scmnd, delta, completer⟩] }

def Sys.claimed (s : Sys) (i : ℕ) (delta : BitVec 32) (completer : Completer) :
    Option ScsiCmnd × SrpRdmaCh → Sys
  | (none, ch) => { s with ch := ch }
  | (some scmnd, ch) => s.claim i delta completer scmnd ch

/-- `srp_process_rsp` up to the claim. Without a claim the credit is added at once. -/
def Sys.processRsp (target : SrpTargetPort) (tag : ℕ) (delta : BitVec 32) (answer : ℕ) (s : Sys) :
    Sys :=
  let unmatched := { s with ch := { s.ch with reqLim := s.ch.reqLim+delta } }
  if isTskMgmtTag tag then unmatched
  else
    let i := srpTagIdx tag
    if i < target.reqRingSize then
      match srpClaimReq i none none s.ch with
      | (none, _) => unmatched
      | r => s.claimed i delta (.rsp answer) r
    else unmatched

/-- `srp_free_req` for a claimed request, followed by `scsi_done`. -/
def Sys.freeClaim (hca : Hca) (target : SrpTargetPort) (k : ℕ) (c : Claim) (s : Sys) : Sys :=
  let ch := srpFreeReq hca target c.slot c.scmnd c.delta s.ch
  let ch :=
    match c.completer with
    | .rsp _ => { ch with hostScribble := Function.update ch.hostScribble c.scmnd.id none }
    | _ => ch
  { s with ch := ch, claims := s.claims.eraseIdx k, done := s.done++[(c.scmnd.id, c.completer)] }

/-- No request claimed by the reconnect loop is waiting to be freed. -/
def Sys.loopIdle (s : Sys) : Bool := s.claims.all fun c => c.completer ≠ .reconnect

/-- The state after `srp_queuecommand` returned for command `id`. -/
def Sys.queued (s : Sys) (chIdx id : ℕ) : QueueResult × SrpRdmaCh → Sys
  | (.sent i, ch) =>
      { s with ch := ch, nextId := s.nextId+1, accepted := s.accepted++[id],
               owed := s.owed++[(buildSrpTag chIdx i, id)] }
  | (.completed, ch) =>
      { s with ch := ch, nextId := s.nextId+1, done := s.done++[(id, .queuecommand)] }
  | (.hostBusy, ch) => { s with ch := ch, nextId := s.nextId+1 }

/-- The state after the verbs objects were created, and the login if there was one. New
objects mean a new queue pair, on which no answer to an earlier command arrives. -/
def Sys.reconnected (s : Sys) (target : SrpTargetPort) (created : Bool)
    (grant : Option (BitVec 32)) : Sys :=
  let ch := srpCreateChIb target created s.ch
  match created, grant with
  | true, some reqLim =>
      { s with ch := { ch with reqLim := reqLim, connected := true },
               reconnect := none, owed := [] }
  | true, none => { s with ch := ch, reconnect := none, owed := [] }
  | false, _ => { s with ch := ch, reconnect := none }

section
variable (hca : Hca) (target : SrpTargetPort) (chIdx : ℕ)

def step (s : Sys) : Event → Option Sys
  | .queuecommand readiness scmnd =>
      if s.reconnect = none ∧ scmnd.id = s.nextId then
        (srpQueuecommand hca target readiness scmnd s.ch).map (s.queued chIdx scmnd.id)
      else none
  | .rsp tag delta answer =>
      let s' := s.processRsp target tag delta answer
      some { s' with owed := s'.owed.erase (tag, answer) }
  | .finish i sdev =>
      if i < target.reqRingSize then some (s.claimed i 0 .finish (srpClaimReq i sdev none s.ch))
      else none
  | .abort id =>
      match s.ch.hostScribble id with
      | none => some s
      | some i => some (s.claimed i 0 .abort (srpClaimReq i none (some id) s.ch))
  | .free k =>
      match s.claims[k]? with
      | none => none
      | some c => some (s.freeClaim hca target k c)
  | .tskMgmt =>
      if s.reconnect ≠ none then none else some { s with ch := (srpSendTskMgmt hca s.ch).2 }
  | .targetRequest delta => some { s with ch := (srpResponseCommon hca delta s.ch).2 }
  | .complete ok => some { s with ch := { s.ch with sq := completeFirst ok s.ch.sq } }
  | .forget tag id => some { s with owed := s.owed.erase (tag, id) }
  | .reconnectStart =>
      if s.reconnect ≠ none then none
      else some { s with reconnect := some 0, ch := { s.ch with connected := false } }
  | .reconnectNext =>
      match s.reconnect with
      | none => none
      | some j =>
          if j < target.reqRingSize ∧ s.loopIdle = true then
            some { s.claimed j 0 .reconnect (srpClaimReq j none none s.ch) with
              reconnect := some (j+1) }
          else none
  | .reconnectCreate created grant =>
      match s.reconnect with
      | none => none
      | some j =>
          if j = target.reqRingSize ∧ s.loopIdle = true then
            some (s.reconnected target created grant)
          else none

/-- The channel after slot `i` was claimed. -/
def emptied (ch : SrpRdmaCh) (i : ℕ) : SrpRdmaCh :=
  ch.setReq i { ch.reqRing i with scmnd := none }

inductive Stepped (s : Sys) : Event → Sys → Prop
  | queued {readiness : Readiness} {scmnd : ScsiCmnd} {p : QueueResult × SrpRdmaCh} :
      s.reconnect = none → scmnd.id = s.nextId →
      srpQueuecommand hca target readiness scmnd s.ch = some p →
      Stepped s (.queuecommand readiness scmnd) (s.queued chIdx scmnd.id p)
  | ignored {e : Event} : Stepped s e s
  | unmatched {tag answer : ℕ} {delta : BitVec 32} :
      (isTskMgmtTag tag = false → srpTagIdx tag < target.reqRingSize →
        (s.ch.reqRing (srpTagIdx tag)).scmnd = none) →
      Stepped s (.rsp tag delta answer)
        { s with ch := { s.ch with reqLim := s.ch.reqLim+delta },
                 owed := s.owed.erase (tag, answer) }
  | matched {tag answer : ℕ} {delta : BitVec 32} {c : ScsiCmnd} : isTskMgmtTag tag = false →
      srpTagIdx tag < target.reqRingSize → (s.ch.reqRing (srpTagIdx tag)).scmnd = some c →
      Stepped s (.rsp tag delta answer)
        { s.claim (srpTagIdx tag) delta (.rsp answer) c (emptied s.ch (srpTagIdx tag)) with
          owed := s.owed.erase (tag, answer) }
  | finished {i : ℕ} {sdev : Option ℕ} {c : ScsiCmnd} : i < target.reqRingSize →
      (s.ch.reqRing i).scmnd = some c →
      Stepped s (.finish i sdev) (s.claim i 0 .finish c (emptied s.ch i))
  | aborted {i : ℕ} {c : ScsiCmnd} : s.ch.hostScribble c.id = some i →
      (s.ch.reqRing i).scmnd = some c →
      Stepped s (.abort c.id) (s.claim i 0 .abort c (emptied s.ch i))
  | freed {k : ℕ} {c : Claim} : s.claims[k]? = some c →
      Stepped s (.free k) (s.freeClaim hca target k c)
  | tskMgmt : Stepped s .tskMgmt { s with ch := (srpSendTskMgmt hca s.ch).2 }
  | targetRequest {delta : BitVec 32} :
      Stepped s (.targetRequest delta) { s with ch := (srpResponseCommon hca delta s.ch).2 }
  | complete {ok : Bool} :
      Stepped s (.complete ok) { s with ch := { s.ch with sq := completeFirst ok s.ch.sq } }
  | forget {tag id : ℕ} : Stepped s (.forget tag id) { s with owed := s.owed.erase (tag, id) }
  | reconnectStart : Stepped s .reconnectStart
      { s with reconnect := some 0, ch := { s.ch with connected := false } }
  | reconnectClaimed {j : ℕ} {c : ScsiCmnd} : s.reconnect = some j → j < target.reqRingSize →
      (s.ch.reqRing j).scmnd = some c →
      Stepped s .reconnectNext
        { s.claim j 0 .reconnect c (emptied s.ch j) with reconnect := some (j+1) }
  | reconnectSkipped {j : ℕ} : s.reconnect = some j → (s.ch.reqRing j).scmnd = none →
      Stepped s .reconnectNext { s with reconnect := some (j+1) }
  | reconnected {created : Bool} {grant : Option (BitVec 32)} :
      s.reconnect = some target.reqRingSize →
      Stepped s (.reconnectCreate created grant) (s.reconnected target created grant)

end

/-- A claim attempt takes the command of its slot or does nothing. -/
theorem srpClaimReq_cases (i : ℕ) (sdev scmnd : Option ℕ) (ch : SrpRdmaCh) :
    srpClaimReq i sdev scmnd ch = (none, ch) ∨ ∃ c, (ch.reqRing i).scmnd = some c ∧
      (scmnd = none ∨ scmnd = some c.id) ∧
      srpClaimReq i sdev scmnd ch = (some c, emptied ch i) := by
  unfold srpClaimReq
  cases hc : (ch.reqRing i).scmnd with
  | none => exact Or.inl rfl
  | some c =>
      simp only
      split_ifs with hmatch
      · exact Or.inr ⟨c, rfl, hmatch.2, rfl⟩
      · exact Or.inl rfl

theorem srpClaimReq_none {i : ℕ} {ch : SrpRdmaCh} (h : (ch.reqRing i).scmnd = none) :
    srpClaimReq i none none ch = (none, ch) := by
  simp [srpClaimReq, h]

theorem srpClaimReq_some {i : ℕ} {ch : SrpRdmaCh} {c : ScsiCmnd}
    (h : (ch.reqRing i).scmnd = some c) : srpClaimReq i none none ch = (some c, emptied ch i) := by
  simp [srpClaimReq, h, emptied]

section
variable {hca : Hca} {target : SrpTargetPort} {chIdx : ℕ} {s s' : Sys}

theorem stepped_rsp (tag : ℕ) (delta : BitVec 32) (answer : ℕ) :
    Stepped hca target chIdx s (.rsp tag delta answer)
      { s.processRsp target tag delta answer with
        owed := (s.processRsp target tag delta answer).owed.erase (tag, answer) } := by
  unfold Sys.processRsp
  simp only
  split_ifs with htsk hlt
  · exact .unmatched fun hf => by simp [hf] at htsk
  · cases hc : (s.ch.reqRing (srpTagIdx tag)).scmnd with
    | none =>
        rw [srpClaimReq_none hc]
        exact .unmatched fun _ _ => hc
    | some c =>
        rw [srpClaimReq_some hc]
        exact .matched (Bool.not_eq_true _ ▸ htsk) hlt hc
  · exact .unmatched fun _ hlt' => (hlt hlt').elim

theorem step_cases {e : Event} (h : step hca target chIdx s e = some s') :
    Stepped hca target chIdx s e s' := by
  cases e with
  | queuecommand readiness scmnd =>
      simp only [step] at h
      split_ifs at h with hguard
      obtain ⟨p, hp, rfl⟩ := Option.map_eq_some_iff.mp h
      exact .queued hguard.1 hguard.2 hp
  | rsp tag delta answer =>
      cases h
      exact stepped_rsp tag delta answer
  | finish i sdev =>
      simp only [step] at h
      split_ifs at h with hi
      cases h
      rcases srpClaimReq_cases i sdev none s.ch with he | ⟨c, hc, _, he⟩
      · rw [he]
        exact .ignored
      · rw [he]
        exact .finished hi hc
  | abort id =>
      simp only [step] at h
      cases hid : s.ch.hostScribble id with
      | none =>
          rw [hid] at h
          cases h
          exact .ignored
      | some i =>
          rw [hid] at h
          cases h
          rcases srpClaimReq_cases i none (some id) s.ch with he | ⟨c, hc, hmatch, he⟩
          · rw [he]
            exact .ignored
          · rw [he]
            cases Option.some.inj (hmatch.resolve_left (by simp))
            exact .aborted hid hc
  | free k =>
      simp only [step] at h
      cases hk : s.claims[k]? with
      | none => simp [hk] at h
      | some c =>
          simp only [hk] at h
          cases h
          exact .freed hk
  | tskMgmt =>
      simp only [step] at h
      split_ifs at h
      cases h
      exact .tskMgmt
  | targetRequest delta =>
      cases h
      exact .targetRequest
  | complete ok =>
      cases h
      exact .complete
  | forget tag id =>
      cases h
      exact .forget
  | reconnectStart =>
      simp only [step] at h
      split_ifs at h
      cases h
      exact .reconnectStart
  | reconnectNext =>
      simp only [step] at h
      cases hj : s.reconnect with
      | none => simp [hj] at h
      | some j =>
          simp only [hj] at h
          split_ifs at h with hguard
          cases h
          cases hc : (s.ch.reqRing j).scmnd with
          | none =>
              rw [srpClaimReq_none hc]
              exact .reconnectSkipped hj hc
          | some c =>
              rw [srpClaimReq_some hc]
              exact .reconnectClaimed hj hguard.1 hc
  | reconnectCreate created grant =>
      simp only [step] at h
      cases hj : s.reconnect with
      | none => simp [hj] at h
      | some j =>
          simp only [hj] at h
          split_ifs at h with hguard
          cases h
          exact .reconnected (hguard.1 ▸ hj)

end

/-- The commands the mid-layer has handed over and not got back. -/
def Sys.outstanding (s : Sys) : List ℕ :=
  s.accepted.filter fun id => id ∉ s.done.map Prod.fst

theorem no_data_lt : ∀ scat ∈ (none : Option (List MemoryRegistration.Sg)),
    MappingCoverage.sgLen scat < 2^32 := by
  intro scat h
  cases h

def noData (id : ℕ) : ScsiCmnd := { id := id, len_lt := no_data_lt }

/-- A fast-registration target with room for one command. -/
def smallTarget : SrpTargetPort :=
  { dev := MappingResults.twoPageDevice, hasPool := true, cmdSgCnt := 12, canQueue := 1,
    queueSize := 3 }

def willingHca : Hca where
  postSend _ := true
  fmrPoolMapPhys _ := none

end IbSrp.ChannelSystem

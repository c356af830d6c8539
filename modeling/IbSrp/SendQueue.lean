import IbSrp.DescriptorPool

/-!
# The send queue

A work request keeps its slot in the send queue until the completion of that or
a later signalled request is polled, and polling happens only while a transmit
buffer is taken. Registrations and sends are posted by calls that have just
polled. Invalidations are posted when a request is freed, often from the receive
path, where nothing polls. Each descriptor held by a request in progress is an
invalidation to come.

So the quantity to watch is the length of the queue plus the number of held
descriptors. The queue never overflows in a run in which every call that polls
finds enough room: for two work requests for each registration the command
needs, and for the send itself. The size of the queue does not guarantee this:
a burst of commands with one registration each, answered before anything is
polled, needs three slots for each command and has two.
-/
namespace IbSrp.SendQueue
open LabelledRuns Channel ChannelSystem ChannelFrames SlotOwnership RequestSlots
open RegistrationCount DescriptorFlow DescriptorPool

/-- After polling there is room for the work requests of the call and for the
invalidations that follow from them and from the requests in progress. -/
def HasRoom (target : SrpTargetPort) (s : Sys) : Event → Prop
  | .queuecommand _ scmnd =>
      (unreleased s.ch.sq).length+(held target s).length+2*registrations target scmnd+1 ≤
        target.maxSendWr
  | .tskMgmt => (unreleased s.ch.sq).length+(held target s).length+1 ≤ target.maxSendWr
  | .targetRequest _ => (unreleased s.ch.sq).length+(held target s).length+1 ≤ target.maxSendWr
  | _ => True

/-- The work requests posted and the invalidations to come fit into the send queue. -/
def Fits (target : SrpTargetPort) (s : Sys) : Prop :=
  s.ch.sq.length+(held target s).length ≤ target.maxSendWr

theorem completeFirst_length (ok : Bool) (sq : List Posted) :
    (completeFirst ok sq).length = sq.length := by
  induction sq with
  | nil => rfl
  | cons p sq ih =>
      unfold completeFirst
      split_ifs
      · rfl
      · rw [List.length_cons, List.length_cons, ih]

section
variable {hca : Hca} {target : SrpTargetPort} {chIdx : ℕ} {s s' : Sys} {e : Event}

theorem Fits.claim (h : Fits target s) {i : ℕ} {c : ScsiCmnd} (hlt : i < target.reqRingSize)
    (hc : (s.ch.reqRing i).scmnd = some c) {delta : BitVec 32} {completer : Completer}
    {owed : List (ℕ × ℕ)} {reconnect : Option ℕ} :
    Fits target { s.claim i delta completer c (emptied s.ch i) with
      owed := owed, reconnect := reconnect } := by
  unfold Fits
  rw [(held_claim hlt hc).length_eq]
  exact h

theorem Fits.reconnected (h : Fits target s) (created : Bool) (grant : Option (BitVec 32)) :
    Fits target (s.reconnected target created grant) := by
  have hheld : held target (s.reconnected target created grant) = held target s := by
    cases created <;> cases grant <;> rfl
  have hsq : (s.reconnected target created grant).ch.sq.length ≤ s.ch.sq.length := by
    cases created <;> cases grant <;> simp [Sys.reconnected, srpCreateChIb]
  unfold Fits at h ⊢
  rw [hheld]
  omega

theorem Fits.stepped (hfast : target.dev.useFastReg = true) (h : Fits target s)
    (howned : Owned target.reqRingSize (slotsOf s)) (hroom : HasRoom target s e)
    (hstep : Stepped hca target chIdx s e s') : Fits target s' := by
  cases hstep with
  | queued _ _ hq =>
      exact (flow_queued hfast howned (srpQueuecommand_cases _ _ hq)).2 _ h hroom
  | ignored => exact h
  | unmatched _ => exact h
  | matched _ hi hc => exact h.claim hi hc
  | finished hi hc => exact h.claim hi hc
  | @aborted i c _ hc =>
      exact h.claim (howned.busy_lt i c.id (by simp [slotsOf, hc])) hc
  | freed hk => exact (flow_freed hfast hk).2.trans h
  | tskMgmt => exact (flow_sendIu (sendIu_srpSendTskMgmt hca s.ch)).2.trans hroom
  | @targetRequest delta =>
      have hsend : SendIu hca .rsp
          ({ s with ch := { s.ch with reqLim := s.ch.reqLim+delta } } : Sys).ch _ :=
        sendIu_srpResponseCommon hca delta s.ch
      exact (flow_sendIu hsend).2.trans hroom
  | @complete ok =>
      unfold Fits at h ⊢
      change (completeFirst ok s.ch.sq).length+(held target s).length ≤ _
      rw [completeFirst_length]
      exact h
  | forget => exact h
  | reconnectStart => exact h
  | reconnectClaimed _ hi hc => exact h.claim hi hc
  | reconnectSkipped _ _ => exact h
  | reconnected _ => exact h.reconnected _ _

/-- In every run in which each call that polls finds room, the posted and not yet released
work requests fit into the send queue. -/
theorem send_queue_fits (hfast : target.dev.useFastReg = true) {reqLim : BitVec 32}
    (hrun : Run (step hca target chIdx) (HasRoom target) (Sys.login target reqLim) s) :
    s.ch.sq.length ≤ target.maxSendWr := by
  have h : Owned target.reqRingSize (slotsOf s) ∧ Fits target s := by
    apply hrun.invariant (I := fun s => Owned target.reqRingSize (slotsOf s) ∧ Fits target s)
    · have hheld : held target (Sys.login target reqLim) = [] := by
        simp [held, requests, busyList, Sys.login, SrpRdmaCh.login]
      constructor
      · exact owned_login reqLim
      · unfold Fits
        rw [hheld]
        exact Nat.zero_le _
    · intro s e s' hs hroom hstep
      have hstepped := step_cases hstep
      exact ⟨hs.1.move (move_stepped hstepped), hs.2.stepped hfast hs.1 hroom hstepped⟩
  exact (Nat.le_add_right _ _).trans h.2

end

instance (target : SrpTargetPort) (s : Sys) (e : Event) : Decidable (HasRoom target s e) :=
  match e with
  | .queuecommand _ _ => Nat.decLe _ _
  | .tskMgmt => Nat.decLe _ _
  | .targetRequest _ => Nat.decLe _ _
  | .rsp _ _ _ | .finish _ _ | .abort _ | .free _ | .complete _ | .forget _ _ => isTrue trivial
  | .reconnectStart | .reconnectNext | .reconnectCreate _ _ => isTrue trivial

/-- One registered command, answered and freed before anything is polled. -/
def oneAnswered : List Event :=
  [.queuecommand .ready (twoByteWrite 0), .rsp 0 1 0, .free 0]

theorem send_queue_fits_one : ∃ s,
    Run (step willingHca registeringTarget 0) (HasRoom registeringTarget)
      (Sys.login registeringTarget 4) s ∧ s.ch.sq.length = 3 ∧
      s.ch.sq.length ≤ registeringTarget.maxSendWr := by
  have h : Reaches (guarded (step willingHca registeringTarget 0) (HasRoom registeringTarget))
      oneAnswered (Sys.login registeringTarget 4) (fun s => s.ch.sq.length = 3) = true := by
    decide +kernel
  obtain ⟨s, hrun, hs⟩ := run_of_reaches h
  exact ⟨s, hrun, of_decide_eq_true hs, send_queue_fits rfl hrun⟩

/-- The mid-layer has at most `can_queue` commands outstanding. -/
def WithinCanQueue (target : SrpTargetPort) (s : Sys) : Event → Prop
  | .queuecommand _ _ => s.outstanding.length < target.canQueue
  | _ => True

instance (target : SrpTargetPort) (s : Sys) (e : Event) : Decidable (WithinCanQueue target s e) :=
  match e with
  | .queuecommand _ _ => Nat.decLt _ _
  | .rsp _ _ _ | .finish _ _ | .abort _ | .free _ | .complete _ | .forget _ _ => isTrue trivial
  | .tskMgmt | .targetRequest _ => isTrue trivial
  | .reconnectStart | .reconnectNext | .reconnectCreate _ _ => isTrue trivial

/-- A target with room for five commands and 14 work requests. -/
def fiveTarget : SrpTargetPort :=
  { dev := MappingResults.twoPageDevice, hasPool := true, registerAlways := true, cmdSgCnt := 12,
    canQueue := 5, queueSize := 7 }

/-- Five commands are sent, the HCA completes their ten work requests, and the five
responses are processed before the next command polls. -/
def burst : List Event :=
  (List.range 5).map (fun id => .queuecommand .ready (twoByteWrite id)) ++
    List.replicate 10 (.complete true) ++
    (List.range 5).flatMap fun tag => [.rsp tag 1 tag, .free 0]

theorem send_queue_overflows : fiveTarget.maxSendWr = 14 ∧ ∃ s,
    Run (step willingHca fiveTarget 0) (WithinCanQueue fiveTarget) (Sys.login fiveTarget 6) s ∧
      s.ch.sq.length = 15 := by
  have h : Reaches (guarded (step willingHca fiveTarget 0) (WithinCanQueue fiveTarget)) burst
      (Sys.login fiveTarget 6) (fun s => s.ch.sq.length = 15) = true := by decide +kernel
  obtain ⟨s, hrun, hs⟩ := run_of_reaches h
  exact ⟨by decide, s, hrun, of_decide_eq_true hs⟩

end IbSrp.SendQueue

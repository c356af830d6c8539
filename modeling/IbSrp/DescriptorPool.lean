import IbSrp.DescriptorFlow

/-!
# Who owns the descriptors of the fast-registration pool

While the pool stays the same, a descriptor is on its free list or held by one
request in progress, never both. `srp_rport_reconnect` replaces the pool after
it has finished every request it finds in the ring. A request that `srp_abort`
has claimed is not among them: when the abort is over it invalidates and puts
back descriptors of a pool that no longer exists, into the free list of the new
one.

The results hold in every run in which the pool is replaced only while no
claimed request holds a descriptor.
-/
namespace IbSrp.DescriptorPool
open LabelledRuns MappingResults Channel ChannelSystem ChannelFrames SlotOwnership RequestSlots
open DescriptorFlow

structure PoolOwned (target : SrpTargetPort) (s : Sys) : Prop where
  nodup : (s.ch.pool.freeList++held target s).Nodup
  current : ∀ d ∈ s.ch.pool.freeList++held target s, d.pool = s.ch.pool.id
  touched : ∀ q ∈ s.ch.touched, q.1.pool = q.2

/-- A reconnect has emptied the slots its loop has passed. -/
def Passed (s : Sys) : Prop :=
  ∀ j, s.reconnect = some j → ∀ i < j, (s.ch.reqRing i).scmnd = none

/-- The pool is replaced only while no claimed request holds a descriptor. -/
def ReplacesUnheld (s : Sys) : Event → Prop
  | .reconnectCreate true _ => ∀ cl ∈ s.claims, heldBy s.ch cl.slot cl.scmnd = []
  | _ => True

section
variable {hca : Hca} {target : SrpTargetPort} {chIdx : ℕ} {s s' : Sys} {e : Event}

theorem PoolOwned.flow (h : PoolOwned target s) (hflow : Flow target s s') :
    PoolOwned target s' := by
  obtain ⟨lost, hperm⟩ := hflow.free
  have hmem : ∀ d ∈ s'.ch.pool.freeList++held target s', d ∈ s.ch.pool.freeList++held target s :=
    fun d hd => hperm.mem_iff.mp (List.mem_append_left _ hd)
  constructor
  · exact (List.nodup_append.mp (hperm.nodup_iff.mpr h.nodup)).1
  · intro d hd
    rw [hflow.id]
    exact h.current d (hmem d hd)
  · intro q hq
    cases hflow.touched q hq with
    | inl hold => exact h.touched q hold
    | inr hnew =>
        rw [hnew.2]
        exact h.current q.1 hnew.1

/-- New descriptors belong to the new pool and are all different. -/
theorem srpCreateFrPool_owned (id poolSize : ℕ) :
    (srpCreateFrPool id poolSize).freeList.Nodup ∧
      ∀ d ∈ (srpCreateFrPool id poolSize).freeList, d.pool = id := by
  constructor
  · apply List.Nodup.map _ List.nodup_range
    intro a b h
    exact congrArg MrDesc.idx h
  · intro d hd
    obtain ⟨idx, _, rfl⟩ := List.mem_map.mp hd
    rfl

/-- When the loop of the reconnect is over, only claimed requests are in progress. -/
theorem held_of_passed (hpassed : Passed s) (hj : s.reconnect = some target.reqRingSize)
    (hclaims : ∀ cl ∈ s.claims, heldBy s.ch cl.slot cl.scmnd = []) : held target s = [] := by
  have hempty : busyList target.reqRingSize (fun i => (s.ch.reqRing i).scmnd) = [] := by
    apply List.filterMap_eq_nil_iff.mpr
    intro i hi
    simp [hpassed _ hj i (List.mem_range.mp hi)]
  apply List.flatMap_eq_nil_iff.mpr
  intro p hp
  unfold requests at hp
  rw [hempty, List.nil_append] at hp
  obtain ⟨cl, hcl, rfl⟩ := List.mem_map.mp hp
  exact hclaims cl hcl

theorem PoolOwned.reconnected (h : PoolOwned target s) (hpassed : Passed s)
    (hj : s.reconnect = some target.reqRingSize) {created : Bool} {grant : Option (BitVec 32)}
    (hok : ReplacesUnheld s (.reconnectCreate created grant)) :
    PoolOwned target (s.reconnected target created grant) := by
  cases created with
  | false => exact h.flow (.same rfl rfl rfl)
  | true =>
      have hheld := held_of_passed hpassed hj hok
      have hnew := srpCreateFrPool_owned (s.ch.pool.id+1) target.canQueue
      have hsame : held target (s.reconnected target true grant) = [] := by
        cases grant <;> exact hheld
      have hpool : (s.reconnected target true grant).ch.pool =
          srpCreateFrPool (s.ch.pool.id+1) target.canQueue := by
        cases grant <;> rfl
      have htouched : (s.reconnected target true grant).ch.touched = s.ch.touched := by
        cases grant <;> rfl
      constructor
      · rw [hsame, hpool, List.append_nil]
        exact hnew.1
      · rw [hsame, hpool, List.append_nil]
        exact hnew.2
      · rw [htouched]
        exact h.touched

theorem PoolOwned.stepped (hfast : target.dev.useFastReg = true) (h : PoolOwned target s)
    (howned : Owned target.reqRingSize (slotsOf s)) (hpassed : Passed s)
    (hok : ReplacesUnheld s e) (hstep : Stepped hca target chIdx s e s') : PoolOwned target s' := by
  have hlt : ∀ i c, (s.ch.reqRing i).scmnd = some c → i < target.reqRingSize := fun i c hc =>
    howned.busy_lt i c.id (by simp [slotsOf, hc])
  cases hstep with
  | queued _ _ hq =>
      exact h.flow (flow_queued hfast howned (srpQueuecommand_cases _ _ hq)).1
  | ignored => exact h
  | unmatched _ => exact h.flow (.same rfl rfl rfl)
  | matched _ hi hc => exact h.flow (flow_claim hi hc)
  | finished hi hc => exact h.flow (flow_claim hi hc)
  | aborted _ hc => exact h.flow (flow_claim (hlt _ _ hc) hc)
  | freed hk => exact h.flow (flow_freed hfast hk).1
  | tskMgmt => exact h.flow (flow_sendIu (sendIu_srpSendTskMgmt hca s.ch)).1
  | @targetRequest delta =>
      have hflow : Flow target { s with ch := { s.ch with reqLim := s.ch.reqLim+delta } }
          { s with ch := (srpResponseCommon hca delta s.ch).2 } :=
        (flow_sendIu (sendIu_srpResponseCommon hca delta s.ch)).1
      exact h.flow ⟨hflow.free, hflow.id, hflow.touched⟩
  | complete => exact h.flow (.same rfl rfl rfl)
  | forget => exact h.flow (.same rfl rfl rfl)
  | reconnectStart => exact h.flow (.same rfl rfl rfl)
  | reconnectClaimed _ hi hc => exact h.flow (flow_claim hi hc)
  | reconnectSkipped _ _ => exact h.flow (.same rfl rfl rfl)
  | reconnected hj => exact h.reconnected hpassed hj hok

/-- Only `srp_queuecommand` gives a slot a command. -/
theorem busy_stepped (hstep : Stepped hca target chIdx s e s') (hne : s'.reconnect ≠ none) {i : ℕ}
    (hi : (s.ch.reqRing i).scmnd = none) : (s'.ch.reqRing i).scmnd = none := by
  have hempty : ∀ j, ((emptied s.ch j).reqRing i).scmnd = none := by
    intro j
    by_cases hj : i = j
    · simp [emptied, SrpRdmaCh.setReq, hj]
    · simp [emptied, SrpRdmaCh.setReq, hj, hi]
  cases hstep with
  | @queued _ _ p hnone _ _ =>
      obtain ⟨res, ch⟩ := p
      cases res <;> exact (hne hnone).elim
  | ignored => exact hi
  | unmatched _ => exact hi
  | matched _ _ _ => exact hempty _
  | finished _ _ => exact hempty _
  | aborted _ _ => exact hempty _
  | @freed k c hk =>
      have hsame := (srpUnmapData_same hca target c.scmnd c.slot s.ch).scmnd i
      unfold Sys.freeClaim srpFreeReq
      cases c.completer <;> exact hsame.trans hi
  | tskMgmt => exact ((srpSendTskMgmt_same hca s.ch).scmnd i).trans hi
  | targetRequest => exact ((srpResponseCommon_same hca _ s.ch).scmnd i).trans hi
  | complete => exact hi
  | forget => exact hi
  | reconnectStart => exact hi
  | reconnectClaimed _ _ _ => exact hempty _
  | reconnectSkipped _ _ => exact hi
  | @reconnected created grant _ => cases created <;> cases grant <;> exact hi

theorem Passed.stepped (h : Passed s) (hstep : Stepped hca target chIdx s e s') : Passed s' := by
  intro j hj i hi
  have hkeep := busy_stepped hstep (by rw [hj]; simp) (i := i)
  cases hstep with
  | @queued _ _ p hnone _ _ =>
      obtain ⟨res, ch⟩ := p
      cases res <;> simp [Sys.queued, hnone] at hj
  | ignored => exact h j hj i hi
  | unmatched _ => exact h j hj i hi
  | matched _ _ _ => exact hkeep (h j hj i hi)
  | finished _ _ => exact hkeep (h j hj i hi)
  | aborted _ _ => exact hkeep (h j hj i hi)
  | freed _ => exact hkeep (h j hj i hi)
  | tskMgmt => exact hkeep (h j hj i hi)
  | targetRequest => exact hkeep (h j hj i hi)
  | complete => exact h j hj i hi
  | forget => exact h j hj i hi
  | reconnectStart =>
      cases hj
      exact absurd hi (Nat.not_lt_zero i)
  | @reconnectClaimed k c hk _ _ =>
      cases hj
      by_cases hik : i = k
      · simp [Sys.claim, emptied, SrpRdmaCh.setReq, hik]
      · exact hkeep (h k hk i (by omega))
  | @reconnectSkipped k hk hc =>
      cases hj
      by_cases hik : i = k
      · rw [hik]
        exact hc
      · exact h k hk i (by omega)
  | @reconnected created grant _ => cases created <;> cases grant <;> cases hj

theorem poolOwned_login (target : SrpTargetPort) (reqLim : BitVec 32) :
    PoolOwned target (Sys.login target reqLim) := by
  have hnew := srpCreateFrPool_owned 0 target.canQueue
  have hheld : held target (Sys.login target reqLim) = [] := by
    simp [held, requests, busyList, Sys.login, SrpRdmaCh.login]
  constructor
  · rw [hheld, List.append_nil]
    exact hnew.1
  · rw [hheld, List.append_nil]
    exact hnew.2
  · intro q hq
    cases hq

/-- In every run in which the pool is replaced only while no claimed request holds a
descriptor: every descriptor on the free list belongs to the current pool, is there once and
is not held by a request in progress, and every descriptor that was read or put back belonged
to the pool of that time. -/
theorem pool_owned (hfast : target.dev.useFastReg = true) {reqLim : BitVec 32}
    (hrun : Run (step hca target chIdx) ReplacesUnheld (Sys.login target reqLim) s) :
    (∀ d ∈ s.ch.pool.freeList, d.pool = s.ch.pool.id) ∧ s.ch.pool.freeList.Nodup ∧
      (∀ p ∈ requests target s, ∀ d ∈ heldBy s.ch p.1 p.2, d ∉ s.ch.pool.freeList) ∧
      ∀ q ∈ s.ch.touched, q.1.pool = q.2 := by
  have h : Owned target.reqRingSize (slotsOf s) ∧ Passed s ∧ PoolOwned target s := by
    apply hrun.invariant
      (I := fun s => Owned target.reqRingSize (slotsOf s) ∧ Passed s ∧ PoolOwned target s)
    · have hstart : Passed (Sys.login target reqLim) := by
        intro j hj
        cases hj
      exact ⟨owned_login reqLim, hstart, poolOwned_login target reqLim⟩
    · intro s e s' hs hok hstep
      have hstepped := step_cases hstep
      exact ⟨hs.1.move (move_stepped hstepped), hs.2.1.stepped hstepped,
        hs.2.2.stepped hfast hs.1 hs.2.1 hok hstepped⟩
  have hpool := h.2.2
  have hnodup := List.nodup_append.mp hpool.nodup
  constructor
  · intro d hd
    exact hpool.current d (List.mem_append_left _ hd)
  constructor
  · exact hnodup.1
  constructor
  · intro p hp d hd hfree
    exact hnodup.2.2 d hfree d (List.mem_flatMap.mpr ⟨p, hp, hd⟩) rfl
  · exact hpool.touched

end

/-- A target that registers every command with data. -/
def registeringTarget : SrpTargetPort := { smallTarget with registerAlways := true }

theorem straddling_lt : ∀ scat ∈ some [straddling], MappingCoverage.sgLen scat < 2^32 := by
  decide

/-- A command that needs one registration. -/
def twoByteWrite (id : ℕ) : ScsiCmnd :=
  { id := id, dataDirection := .toDevice, sglist := some [straddling], bufflen := 2,
    len_lt := straddling_lt }

instance (s : Sys) (e : Event) : Decidable (ReplacesUnheld s e) := by
  unfold ReplacesUnheld
  split <;> infer_instance

/-- A registered command is aborted and freed before the connection is replaced. -/
def abortBeforeReconnect : List Event :=
  [.queuecommand .ready (twoByteWrite 0), .abort 0, .tskMgmt, .free 0, .reconnectStart,
    .reconnectNext, .reconnectNext, .reconnectCreate true (some 4)]

theorem pool_owned_abort_before_reconnect : ∃ s,
    Run (step willingHca registeringTarget 0) ReplacesUnheld (Sys.login registeringTarget 4) s ∧
      s.ch.pool = srpCreateFrPool 1 1 ∧ s.ch.touched = [(⟨0, 0⟩, 0)] ∧
      ∀ q ∈ s.ch.touched, q.1.pool = q.2 := by
  have h : Reaches (guarded (step willingHca registeringTarget 0) ReplacesUnheld)
      abortBeforeReconnect (Sys.login registeringTarget 4)
      (fun s => s.ch.pool = srpCreateFrPool 1 1 ∧ s.ch.touched = [(⟨0, 0⟩, 0)]) = true := by
    decide +kernel
  obtain ⟨s, hrun, hs⟩ := run_of_reaches h
  have hstate := of_decide_eq_true hs
  exact ⟨s, hrun, hstate.1, hstate.2, (pool_owned rfl hrun).2.2.2⟩

/-- The abort is still waiting for its response when the pool is replaced. -/
def abortDuringReconnect : List Event :=
  [.queuecommand .ready (twoByteWrite 0), .abort 0, .tskMgmt, .reconnectStart,
    .reconnectNext, .reconnectNext, .reconnectCreate true (some 4), .free 0]

/-- The abort reads and puts back a descriptor of the destroyed pool 0, which ends up on
the free list of pool 1. -/
theorem destroyed_descriptor_put_back : ∃ s,
    AnyRun (step willingHca registeringTarget 0) (Sys.login registeringTarget 4) s ∧
      s.ch.pool = ⟨1, [⟨0, 0⟩, ⟨1, 0⟩]⟩ ∧ s.ch.touched = [(⟨0, 0⟩, 1)] := by
  have h : Reaches (step willingHca registeringTarget 0) abortDuringReconnect
      (Sys.login registeringTarget 4)
      (fun s => s.ch.pool = ⟨1, [⟨0, 0⟩, ⟨1, 0⟩]⟩ ∧ s.ch.touched = [(⟨0, 0⟩, 1)]) = true := by
    decide +kernel
  obtain ⟨s, hrun, hs⟩ := anyRun_of_reaches h
  exact ⟨s, hrun, of_decide_eq_true hs⟩

end IbSrp.DescriptorPool

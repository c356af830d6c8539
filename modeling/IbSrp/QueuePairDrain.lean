import IbSrp.ReceiveFlush

/-!
# Draining a queue pair before it is destroyed

`srp_destroy_qp` waits for the completion of `SRP_LAST_WR_ID`, but it waits on
`ch->done`, which CM events and path records signal as well. It waits long enough
if nothing else can be delivered during the wait. This is so in a run in which
`srp_new_cm_id` fails only when the CM ID that stays in use has nothing to deliver,
and in which the waits for an address and for a path end after the result has come.
-/
namespace IbSrp.QueuePairDrain
open LabelledRuns ChannelConnection ReceiveFlush

def cmQuiet (ch : SrpRdmaCh) : Bool := ch.cmId.all CmId.quiet

def addrDelivered (ch : SrpRdmaCh) : Bool := ch.newCmId.all fun id => !id.addr

/-- The step leaves no callback behind that could end a later wait. -/
def undisturbed (s : State) : Event → Bool
  | .go ok =>
      match s.pc with
      | .newCmId _ => ok || cmQuiet s.ch
      | .resolveAddr _ => ok || cmQuiet s.ch
      | _ => true
  | .wake signal =>
      match s.pc with
      | .waitAddr _ =>
          if signal ∨ s.ch.status ≠ 0 then cmQuiet s.ch else addrDelivered s.ch
      | .waitPath _ => s.ch.pathQueries = 0
      | _ => true
  | _ => true

/-- From the end of `srp_new_cm_id` to `ib_destroy_qp`. -/
def quietPart : Pc → Bool
  | .createChIb _ _ => true
  | .modifyQp _ => true
  | .postRecv _ => true
  | .drain _ _ => true
  | .ibDestroyQp _ _ => true
  | _ => false

/-- Inside `srp_new_rdma_cm_id`. -/
def resolving : Pc → Bool
  | .resolveAddr _ => true
  | .waitAddr _ => true
  | _ => false

/-- `srp_lookup_path` waits. -/
def lookingUp : Pc → Bool
  | .waitPath _ => true
  | _ => false

/-- The part of `srp_destroy_qp` that the program is in. -/
def drainPart : Pc → DrainPart
  | .postRecv _ => .posting
  | .drain _ last => .waiting last
  | .ibDestroyQp _ (some last) => .ended last
  | _ => .outside

structure Calm (s : State) : Prop where
  queries : lookingUp s.pc = false → s.ch.pathQueries = 0
  fresh : ∀ id ∈ s.ch.newCmId, id.route = false ∧ id.conn = false
  settled : resolving s.pc = false → s.ch.newCmId = none
  quiet : quietPart s.pc = true → cmQuiet s.ch = true
  drained : Drained s.ch.done s.ch.qp (drainPart s.pc)

section
variable {target : SrpTargetPort} {s s' : State} {ch ch' : SrpRdmaCh} {pc : Pc}

theorem outside_of_loud (h : quietPart pc = false) : drainPart pc = .outside := by
  cases pc with
  | createChIb caller ok => rfl
  | modifyQp rest => rfl
  | postRecv rest => cases h
  | drain rest last => cases h
  | ibDestroyQp rest last => cases h
  | _ => rfl

theorem loud_of_resolving (h : resolving pc = true) : quietPart pc = false := by
  cases pc with
  | resolveAddr caller => rfl
  | waitAddr caller => rfl
  | _ => cases h

theorem loud_of_lookingUp (h : lookingUp pc = true) : quietPart pc = false := by
  cases pc with
  | waitPath caller => rfl
  | _ => cases h

theorem Calm.noLast (h : Calm s) (hpart : drainPart s.pc = .outside) : ∀ q ∈ s.ch.qp, NoLast q := by
  have hdrained := h.drained
  rw [hpart] at hdrained
  exact hdrained

/-- The state of a channel between two calls of `srp_destroy_qp`. -/
structure Between (ch : SrpRdmaCh) : Prop where
  queries : ch.pathQueries = 0
  settled : ch.newCmId = none
  noLast : ∀ q ∈ ch.qp, NoLast q

theorem Calm.between (h : Calm s) (hpath : lookingUp s.pc = false)
    (hnew : resolving s.pc = false) (hpart : drainPart s.pc = .outside) : Between s.ch :=
  ⟨h.queries hpath, h.settled hnew, h.noLast hpart⟩

theorem Between.calm (h : Between ch) (hpart : drainPart pc = .outside)
    (hquiet : quietPart pc = true → cmQuiet ch = true) : Calm ⟨pc, ch⟩ := by
  constructor
  · intro _
    exact h.queries
  · intro id hid
    rw [h.settled] at hid
    cases hid
  · intro _
    exact h.settled
  · exact hquiet
  · rw [hpart]
    exact h.noLast

/-- Outside `srp_destroy_qp` nothing is asked of the CM ID in use. -/
theorem Between.calm_loud (h : Between ch) (hloud : quietPart pc = false) : Calm ⟨pc, ch⟩ := by
  apply h.calm (outside_of_loud hloud)
  intro hquiet
  rw [hloud] at hquiet
  cases hquiet

theorem Between.calm_failed (h : Between ch) (caller : Caller) : Calm ⟨caller.failed, ch⟩ := by
  cases caller with
  | login => exact h.calm_loud rfl
  | reconnect => exact h.calm_loud rfl

theorem Between.calm_noCmId (h : Between ch) (hquiet : cmQuiet ch = true) (caller : Caller) :
    Calm ⟨caller.noCmId, ch⟩ := by
  cases caller with
  | login => exact h.calm_loud rfl
  | reconnect => exact h.calm rfl fun _ => hquiet

theorem between_created (hqueries : ch.pathQueries = 0) (hsettled : ch.newCmId = none) :
    Between { ch with qp := some .created } := by
  refine ⟨hqueries, hsettled, ?_⟩
  intro q hq
  cases hq
  exact noLast_created

theorem calm_allocated : Calm .allocated := by
  have h : Between {} := ⟨rfl, rfl, fun q hq => by cases hq⟩
  exact h.calm_loud rfl

theorem Calm.pathRec (h : Calm s) {status : ℤ}
    (hs : step target s (.pathRec status) = some s') : Calm s' := by
  simp only [step] at hs
  split_ifs at hs with hpos
  cases hs
  cases hpath : lookingUp s.pc with
  | false =>
      have hzero := h.queries hpath
      omega
  | true =>
      have hpart := outside_of_loud (loud_of_lookingUp hpath)
      constructor
      · intro hnot
        cases hpath.symm.trans hnot
      · exact h.fresh
      · exact h.settled
      · exact h.quiet
      · rw [hpart]
        exact h.noLast hpart

theorem Calm.completeRecv (h : Calm s) {ok : Bool}
    (hs : step target s (.completeRecv ok) = some s') : Calm s' := by
  obtain ⟨qp', hbind, rfl⟩ := Option.map_eq_some_iff.mp hs
  obtain ⟨qp, hqp, hc⟩ := Option.bind_eq_some_iff.mp hbind
  have hdrained := h.drained
  rw [hqp] at hdrained
  exact ⟨h.queries, h.fresh, h.settled, h.quiet, hdrained.complete hc⟩

theorem Calm.recvCompletion (h : Calm s) {reposted : Bool}
    (hs : step target s (.recvCompletion reposted) = some s') : Calm s' := by
  obtain ⟨ch, hch, rfl⟩ := Option.map_eq_some_iff.mp hs
  obtain ⟨done, qp, rfl, hkeep⟩ := recvCompletion_frame hch
  exact ⟨h.queries, h.fresh, h.settled, h.quiet, hkeep _ h.drained⟩

/-- An event of the new CM ID comes while its address is resolved. -/
theorem Calm.cm_new (h : Calm s) {e : CmEvent}
    (hs : step target s (.cm true e) = some s') : Calm s' := by
  obtain ⟨ch, hch, rfl⟩ := Option.map_eq_some_iff.mp hs
  obtain ⟨id', hbind, rfl⟩ := Option.map_eq_some_iff.mp hch
  obtain ⟨id, hid, hdeliver⟩ := Option.bind_eq_some_iff.mp hbind
  have hpart : quietPart s.pc = false := by
    cases hpc : resolving s.pc with
    | true => exact loud_of_resolving hpc
    | false => cases hid.symm.trans (h.settled hpc)
  obtain ⟨done, status, connected, qp, he, hkeep⟩ :=
    cmHandler_frame target { s.ch with newCmId := some id' } e
  rw [he]
  constructor
  · exact h.queries
  · intro id₁ hid₁
    cases hid₁
    exact deliver_fresh hdeliver (h.fresh id hid)
  · intro hnot
    cases hid.symm.trans (h.settled hnot)
  · exact h.quiet
  · rw [outside_of_loud hpart]
    exact hkeep (h.noLast (outside_of_loud hpart))

theorem Calm.cm_used (h : Calm s) {e : CmEvent}
    (hs : step target s (.cm false e) = some s') : Calm s' := by
  obtain ⟨ch, hch, rfl⟩ := Option.map_eq_some_iff.mp hs
  obtain ⟨id', hbind, rfl⟩ := Option.map_eq_some_iff.mp hch
  obtain ⟨id, hid, hdeliver⟩ := Option.bind_eq_some_iff.mp hbind
  cases hpart : quietPart s.pc with
  | true =>
      have hquiet := h.quiet hpart
      unfold cmQuiet at hquiet
      rw [hid] at hquiet
      obtain ⟨hsame, hignored⟩ := deliver_quiet { s.ch with cmId := some id' } hquiet hdeliver
      rw [hignored, hsame, ← hid]
      exact h
  | false =>
      obtain ⟨done, status, connected, qp, he, hkeep⟩ :=
        cmHandler_frame target { s.ch with cmId := some id' } e
      rw [he]
      constructor
      · exact h.queries
      · exact h.fresh
      · exact h.settled
      · intro hquiet
        cases hpart.symm.trans hquiet
      · rw [outside_of_loud hpart]
        exact hkeep (h.noLast (outside_of_loud hpart))

section
variable {caller : Caller} {ok signal : Bool} {rest : Rest}

theorem Between.srpNewCmId (h : Between ch) (hok : (ok || cmQuiet ch) = true) :
    Calm (srpNewCmId target ok caller ch) := by
  unfold ChannelConnection.srpNewCmId
  cases ok with
  | false => exact h.calm_noCmId hok caller
  | true =>
      simp only [Bool.true_eq_false, if_false]
      split_ifs with hrdma
      · constructor
        · intro _
          exact h.queries
        · intro id hid
          cases hid
          exact ⟨rfl, rfl⟩
        · intro hnot
          cases hnot
        · intro hquiet
          cases hquiet
        · exact h.noLast
      · have hch : Between { ch with cmId := some {} } := ⟨h.queries, h.settled, h.noLast⟩
        exact hch.calm rfl fun _ => rfl

theorem Calm.rdmaResolveAddr (h : Calm ⟨.resolveAddr caller, ch⟩)
    (hok : (ok || cmQuiet ch) = true) : Calm (rdmaResolveAddr ok caller ch) := by
  have hqueries := h.queries rfl
  have hno := h.noLast rfl
  unfold ChannelConnection.rdmaResolveAddr
  cases ok with
  | false =>
      have hch : Between { initDone ch with newCmId := none } := ⟨hqueries, rfl, hno⟩
      exact hch.calm_noCmId hok caller
  | true =>
      constructor
      · intro _
        exact hqueries
      · intro id hid
        cases hid
        exact ⟨rfl, rfl⟩
      · intro hnot
        cases hnot
      · intro hquiet
        cases hquiet
      · exact hno

theorem Calm.addrResolved (h : Calm ⟨.waitAddr caller, ch⟩)
    (hok : (if signal ∨ ch.status ≠ 0 then cmQuiet ch else addrDelivered ch) = true) :
    Calm (addrResolved signal caller ch) := by
  have hqueries := h.queries rfl
  have hno := h.noLast rfl
  unfold ChannelConnection.addrResolved
  split_ifs at hok ⊢
  · have hch : Between { ch with newCmId := none } := ⟨hqueries, rfl, hno⟩
    exact hch.calm_noCmId hok caller
  · have hch : Between { ch with cmId := ch.newCmId, newCmId := none } := ⟨hqueries, rfl, hno⟩
    apply hch.calm rfl
    intro _
    unfold cmQuiet addrDelivered at *
    cases hid : ch.newCmId with
    | none => rfl
    | some id =>
        obtain ⟨hroute, hconn⟩ := h.fresh id hid
        rw [hid] at hok
        simp_all [CmId.quiet]

theorem Calm.srpCreateChIb {connectable : Bool} (h : Calm ⟨.createChIb caller connectable, ch⟩) :
    Calm (srpCreateChIb ok caller connectable ch) := by
  have hbetween : Between ch := h.between rfl rfl rfl
  unfold ChannelConnection.srpCreateChIb
  split_ifs
  · split
    · exact hbetween.calm rfl fun _ => h.quiet rfl
    · exact (between_created hbetween.queries hbetween.settled).calm_loud rfl
  · cases caller with
    | login => exact hbetween.calm_loud rfl
    | reconnect => exact hbetween.calm_loud rfl

theorem Between.srpLookupPath (h : Between ch) : Calm (srpLookupPath target ok caller ch) := by
  unfold ChannelConnection.srpLookupPath
  simp only
  split_ifs with hok hrdma
  · have hch : Between (initDone ch) := ⟨h.queries, h.settled, h.noLast⟩
    exact hch.calm_failed caller
  · have hch : Between { initDone ch with
        cmId := ch.cmId.map fun id => { id with route := true } } :=
      ⟨h.queries, h.settled, h.noLast⟩
    exact hch.calm_loud rfl
  · have hch : Calm ⟨.waitPath caller, initDone ch⟩ :=
      Between.calm_loud ⟨h.queries, h.settled, h.noLast⟩ rfl
    refine ⟨?_, hch.fresh, hch.settled, hch.quiet, hch.drained⟩
    intro hnot
    cases hnot

theorem Between.pathResolved (h : Between ch) : Calm (pathResolved target signal caller ch) := by
  unfold ChannelConnection.pathResolved
  split_ifs
  · exact h.calm_failed caller
  · exact h.calm_failed caller
  · exact h.calm_loud rfl

theorem Between.srpSendReq (h : Between ch) : Calm (srpSendReq ok caller ch) := by
  unfold ChannelConnection.srpSendReq
  simp only
  split_ifs
  · have hch : Between { initDone ch with
        cmId := ch.cmId.map fun id => { id with conn := true } } :=
      ⟨h.queries, h.settled, h.noLast⟩
    exact hch.calm_loud rfl
  · have hch : Between (initDone ch) := ⟨h.queries, h.settled, h.noLast⟩
    exact hch.calm_failed caller

theorem Between.srpConnectCh (h : Between ch) : Calm (srpConnectCh signal caller ch) := by
  unfold ChannelConnection.srpConnectCh
  split_ifs
  · exact h.calm_failed caller
  · have hch : Between { ch with connected := true } := ⟨h.queries, h.settled, h.noLast⟩
    exact hch.calm_loud rfl
  · exact h.calm_loud rfl
  · exact h.calm_loud rfl
  · have hch : Between { ch with status := -econnreset } := ⟨h.queries, h.settled, h.noLast⟩
    exact hch.calm_failed caller
  · exact h.calm_failed caller

theorem Between.srpFreeChIb (h : Between ch) : Calm (srpFreeChIb ch) := by
  have hch : Between { ch with cmId := none } := ⟨h.queries, h.settled, h.noLast⟩
  unfold ChannelConnection.srpFreeChIb
  simp only
  split
  · exact hch.calm rfl fun _ => rfl
  · exact hch.calm_loud rfl

theorem Calm.drainStart {qp : Qp} (h : Calm ⟨.modifyQp rest, ch⟩) (hqp : ch.qp = some qp) :
    Calm (drainStart ok rest qp ch) := by
  have hbetween : Between ch := h.between rfl rfl rfl
  unfold ChannelConnection.drainStart
  split_ifs
  · refine ⟨fun _ => hbetween.queries, h.fresh, fun _ => hbetween.settled, h.quiet, rfl, ?_⟩
    intro q hq
    cases hq
    exact ⟨hbetween.noLast qp hqp, rfl⟩
  · exact hbetween.calm rfl fun _ => h.quiet rfl

theorem Calm.drainPost {qp : Qp} (h : Calm ⟨.postRecv rest, ch⟩) (hqp : ch.qp = some qp) :
    Calm (drainPost ok rest qp ch) := by
  have hqueries := h.queries rfl
  obtain ⟨hdone, hqps⟩ := h.drained
  obtain ⟨hno, herr⟩ := hqps qp hqp
  unfold ChannelConnection.drainPost
  split_ifs
  · refine ⟨fun _ => hqueries, h.fresh, h.settled, h.quiet, _, rfl, hno.lastAt herr, ?_⟩
    intro hpos
    exact (Nat.ne_of_gt hpos hdone).elim
  · have hbetween : Between ch := ⟨hqueries, h.settled rfl, fun q hq => (hqps q hq).1⟩
    exact hbetween.calm rfl fun _ => h.quiet rfl

theorem Calm.qpDestroyed {last : Option ℕ} (h : Calm ⟨.ibDestroyQp rest last, ch⟩) :
    Calm (qpDestroyed ch rest) := by
  have hqueries := h.queries rfl
  have hsettled := h.settled rfl
  cases rest with
  | create caller ok => exact (between_created hqueries hsettled).calm_loud rfl
  | free =>
      have hch : Between { ch with qp := none } := ⟨hqueries, hsettled, fun q hq => by cases hq⟩
      exact hch.calm_loud rfl

theorem Calm.go (h : Calm s) (hok : undisturbed s (.go ok) = true)
    (hs : step target s (.go ok) = some s') : Calm s' := by
  obtain ⟨pc, ch⟩ := s
  cases pc with
  | newCmId caller =>
      cases hs
      exact (h.between rfl rfl rfl).srpNewCmId hok
  | resolveAddr caller =>
      cases hs
      exact h.rdmaResolveAddr hok
  | createChIb caller connectable =>
      cases hs
      exact h.srpCreateChIb
  | created caller connectable =>
      have hch : Between ch := h.between rfl rfl rfl
      cases hs
      split_ifs
      · exact hch.calm_loud rfl
      · exact hch.calm_failed caller
  | lookupPath caller =>
      cases hs
      exact (h.between rfl rfl rfl).srpLookupPath
  | sendReq caller =>
      cases hs
      exact (h.between rfl rfl rfl).srpSendReq
  | freeChIb =>
      cases hs
      exact (h.between rfl rfl rfl).srpFreeChIb
  | modifyQp rest =>
      obtain ⟨qp, hqp, rfl⟩ := Option.map_eq_some_iff.mp hs
      exact h.drainStart hqp
  | postRecv rest =>
      obtain ⟨qp, hqp, rfl⟩ := Option.map_eq_some_iff.mp hs
      exact h.drainPost hqp
  | ibDestroyQp rest last =>
      cases hs
      exact h.qpDestroyed
  | _ => cases hs

theorem Calm.take (h : Calm ⟨pc, ch⟩) (hpart : drainPart pc = .outside) (done : ℕ) :
    Calm ⟨pc, { ch with done := done }⟩ := by
  refine ⟨h.queries, h.fresh, h.settled, h.quiet, ?_⟩
  rw [hpart]
  exact h.noLast hpart

theorem outside_of_woken (hs : ChannelConnection.woken target signal ch pc = some s')
    (hdrain : ∀ rest last, pc ≠ .drain rest last) : drainPart pc = .outside := by
  cases pc with
  | drain rest last => exact (hdrain rest last rfl).elim
  | postRecv rest => cases hs
  | ibDestroyQp rest last => cases hs
  | _ => rfl

theorem Calm.woken (h : Calm ⟨pc, ch⟩) (hpart : drainPart pc = .outside)
    (hok : undisturbed ⟨pc, ch⟩ (.wake signal) = true)
    (hs : woken target signal ch pc = some s') : Calm s' := by
  cases pc with
  | waitAddr caller =>
      cases hs
      exact h.addrResolved hok
  | waitPath caller =>
      cases hs
      have hch : Between ch := ⟨of_decide_eq_true hok, h.settled rfl, h.noLast hpart⟩
      exact hch.pathResolved
  | waitRep caller =>
      cases hs
      exact (h.between rfl rfl hpart).srpConnectCh
  | drain rest last => cases hpart
  | _ => cases hs

/-- `srp_destroy_qp` goes on when `ch->done` has been signalled, whatever signalled it. -/
theorem Calm.drain_wake {last : ℕ} (h : Calm ⟨.drain rest last, ch⟩)
    (hs : step target ⟨.drain rest last, ch⟩ (.wake signal) = some s') : Calm s' := by
  obtain ⟨q, hq, hlast, hdone⟩ := h.drained
  cases signal with
  | true => cases hs
  | false =>
      simp only [step, ChannelConnection.wake, Bool.false_eq_true, if_false] at hs
      split_ifs at hs with hpos
      cases hs
      refine ⟨fun _ => ?_, h.fresh, h.settled, h.quiet, q, hq, hlast, hdone hpos⟩
      exact h.queries rfl

theorem Calm.wake (h : Calm s) (hok : undisturbed s (.wake signal) = true)
    (hs : step target s (.wake signal) = some s') : Calm s' := by
  obtain ⟨pc, ch⟩ := s
  by_cases hdrain : ∃ rest last, pc = .drain rest last
  · obtain ⟨rest, last, rfl⟩ := hdrain
    exact h.drain_wake hs
  · simp only [step, ChannelConnection.wake] at hs
    split_ifs at hs with hsignal hpos
    · rw [hsignal] at hok
      exact h.woken (outside_of_woken hs fun rest last hpc => hdrain ⟨rest, last, hpc⟩) hok hs
    · have hpart := outside_of_woken hs fun rest last hpc => hdrain ⟨rest, last, hpc⟩
      rw [Bool.not_eq_true] at hsignal
      rw [hsignal] at hok
      apply (h.take hpart (ch.done-1)).woken hpart _ hs
      cases pc <;> exact hok

end

theorem Calm.disconnected (h : Calm s) (hidle : s.pc = .idle) :
    Between { s.ch with connected := false } := by
  constructor
  · exact h.queries (by rw [hidle]; rfl)
  · exact h.settled (by rw [hidle]; rfl)
  · exact h.noLast (by rw [hidle]; rfl)

theorem Calm.step {e : Event} (h : Calm s) (hok : undisturbed s e = true)
    (hs : step target s e = some s') : Calm s' := by
  cases e with
  | cm new e =>
      cases new with
      | true => exact h.cm_new hs
      | false => exact h.cm_used hs
  | pathRec status => exact h.pathRec hs
  | completeRecv ok => exact h.completeRecv hs
  | recvCompletion reposted => exact h.recvCompletion hs
  | reconnect scanning =>
      simp only [ChannelConnection.step] at hs
      split_ifs at hs with hidle hscanning
      · cases hs
        exact (h.disconnected hidle).calm_loud rfl
      · cases hs
        exact (h.disconnected hidle).calm_loud rfl
  | remove =>
      simp only [ChannelConnection.step] at hs
      split_ifs at hs with hidle
      cases hs
      exact (h.disconnected hidle).calm_loud rfl
  | go ok => exact h.go hok hs
  | wake signal => exact h.wake hok hs

/-- In every undisturbed run `srp_destroy_qp` calls `ib_destroy_qp`, if it could post
`SRP_LAST_WR_ID`, after the flush completion of that request and of all requests before it
have been processed; and while it waits nothing else signals the channel. -/
theorem qp_drained
    (hrun : Run (ChannelConnection.step target) (fun s e => undisturbed s e = true) .allocated s) :
    (∀ rest last, s.pc = .ibDestroyQp rest (some last) → ∃ qp, s.ch.qp = some qp ∧
      qp.recvs[last]? = some .last ∧ qp.wcs[last]? = some false ∧
      ∀ j ≤ last, j < qp.processed) ∧
    ∀ rest last, s.pc = .drain rest last → 0 < s.ch.done → ∃ qp, s.ch.qp = some qp ∧
      qp.recvs[last]? = some .last ∧ ∀ j ≤ last, j < qp.processed := by
  have h : Calm s := by
    apply hrun.invariant (I := Calm) calm_allocated
    intro s e s' h hok hs
    exact h.step hok hs
  have hdrained := h.drained
  constructor
  · intro rest last hpc
    rw [hpc] at hdrained
    obtain ⟨qp, hqp, hlast, hprocessed⟩ := hdrained
    refine ⟨qp, hqp, hlast.last, ?_, fun j hj => by omega⟩
    have hlt : last < qp.wcs.length := Nat.lt_of_lt_of_le hprocessed qp.processed_le
    have hflushed := hlast.flushed last (Nat.le_refl last)
    rw [List.getElem?_eq_getElem hlt] at hflushed ⊢
    cases hwc : qp.wcs[last] with
    | false => rfl
    | true => exact (hflushed (by rw [hwc])).elim
  · intro rest last hpc hpos
    rw [hpc] at hdrained
    obtain ⟨qp, hqp, hlast, hprocessed⟩ := hdrained
    have hlt := hprocessed hpos
    exact ⟨qp, hqp, hlast.last, fun j hj => by omega⟩

end

def ibTarget : SrpTargetPort := { usingRdmaCm := false, queueSize := 2 }

/-- `srp_create_target` connects the channel over the IB CM. -/
def ibLogin : List Event :=
  [.go true, .go true, .go true, .go true, .pathRec 0, .wake false, .go true,
    .cm false (.ib (.repReceived { posts := 2 })), .wake false]

/-- `srp_rport_reconnect` up to the wait of `srp_destroy_qp`. -/
def ibReconnect (newCmId : Bool) : List Event :=
  [.reconnect false, .go newCmId, .go true, .go true, .go true]

/-- The receive requests of the first connection are flushed. -/
def flush : List Event :=
  [.completeRecv false, .completeRecv false, .completeRecv false,
    .recvCompletion true, .recvCompletion true, .recvCompletion true, .wake false]

/-- A reconnect gets a new CM ID, and the wait ends after three flush completions. -/
theorem qp_drained_after_flush : ∃ s,
    Run (step ibTarget) (fun s e => undisturbed s e = true) .allocated s ∧
      s.pc = .ibDestroyQp (.create .reconnect true) (some 2) ∧
      ∃ qp, s.ch.qp = some qp ∧ qp.recvs[2]? = some .last ∧ ∀ j ≤ 2, j < qp.processed := by
  have h : Reaches (guarded (step ibTarget) (fun s e => undisturbed s e = true))
      (ibLogin++ibReconnect true++flush) .allocated
      (fun s => s.pc = .ibDestroyQp (.create .reconnect true) (some 2)) = true := by decide +kernel
  obtain ⟨s, hrun, hs⟩ := run_of_reaches h
  have hpc := of_decide_eq_true hs
  obtain ⟨qp, hqp, hlast, _, hprocessed⟩ := (qp_drained hrun).1 _ _ hpc
  exact ⟨s, hrun, hpc, qp, hqp, hlast, hprocessed⟩

/-- The program is at `ib_destroy_qp` and no completion has been processed. -/
def undrained (rest : Rest) (last : ℕ) (s : State) : Bool :=
  s.pc = .ibDestroyQp rest (some last) &&
    s.ch.qp.any fun qp => qp.recvs[last]? = some .last && qp.processed = 0

theorem of_undrained {rest : Rest} {last : ℕ} {s : State} (h : undrained rest last s = true) :
    s.pc = .ibDestroyQp rest (some last) ∧
      ∃ qp, s.ch.qp = some qp ∧ qp.recvs[last]? = some .last ∧ qp.processed = 0 := by
  unfold undrained at h
  cases hqp : s.ch.qp with
  | none => simp [hqp] at h
  | some qp =>
      simp only [hqp, Option.any_some, Bool.and_eq_true, decide_eq_true_eq] at h
      exact ⟨h.1, qp, rfl, h.2⟩

/-- There are two ways to end the wait early. A reconnect gets no new CM ID, and the old one
leaves the timewait state while the queue pair is drained. Or a signal ends a reconnect that
waits for a path record, and the record comes while the target is removed. -/
theorem wait_ended_early :
    (∃ s, AnyRun (step ibTarget) .allocated s ∧
      s.pc = .ibDestroyQp (.create .reconnect false) (some 2) ∧
      ∃ qp, s.ch.qp = some qp ∧ qp.recvs[2]? = some .last ∧ qp.processed = 0) ∧
    ∃ s, AnyRun (step ibTarget) .allocated s ∧ s.pc = .ibDestroyQp .free (some 0) ∧
      ∃ qp, s.ch.qp = some qp ∧ qp.recvs[0]? = some .last ∧ qp.processed = 0 := by
  constructor
  · have h : Reaches (step ibTarget)
        (ibLogin++ibReconnect false++[.cm false (.ib .timewaitExit), .wake false])
        .allocated (undrained (.create .reconnect false) 2) = true := by decide +kernel
    obtain ⟨s, hrun, hs⟩ := anyRun_of_reaches h
    exact ⟨s, hrun, of_undrained hs⟩
  · have h : Reaches (step ibTarget)
        (ibLogin++ibReconnect true++flush++[.go true, .go true, .go true, .wake true,
          .remove, .go true, .go true, .go true, .pathRec 0, .wake false])
        .allocated (undrained .free 0) = true := by decide +kernel
    obtain ⟨s, hrun, hs⟩ := anyRun_of_reaches h
    exact ⟨s, hrun, of_undrained hs⟩

end IbSrp.QueuePairDrain

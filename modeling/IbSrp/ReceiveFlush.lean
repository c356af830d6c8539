import IbSrp.ChannelConnection

/-!
# The receive queue while it is flushed

`srp_destroy_qp` posts `SRP_LAST_WR_ID` to a queue pair in the error state. From
then on it is the only such request, it is flushed and not filled, and since
completions are processed in order, all requests before it are done when it is.
The receive handler may post buffers behind it; they do not matter.

`Drained` says what is known in each part of `srp_destroy_qp` about the queue pair
and the count of `ch->done`. It is kept by the HCA and by the receive handler. CM
events keep it outside `srp_destroy_qp` only, where they may post the receive ring.
-/
namespace IbSrp.ReceiveFlush
open ChannelConnection

/-- Request `n` is the only `SRP_LAST_WR_ID`, and it can only be flushed. -/
structure LastAt (n : ℕ) (qp : Qp) : Prop where
  last : qp.recvs[n]? = some .last
  unique : ∀ j, qp.recvs[j]? = some .last → j = n
  inError : qp.inError = true
  flushed : ∀ j, n ≤ j → qp.wcs[j]? ≠ some true

def NoLast (qp : Qp) : Prop := RecvWr.last ∉ qp.recvs

/-- The part of `srp_destroy_qp` that concerns request `last`. -/
inductive DrainPart where
  | outside
  | posting
  | waiting (last : ℕ)
  | ended (last : ℕ)

/-- The state of the queue pair and of the completion while the queue pair is drained. -/
def Drained (done : ℕ) (qp : Option Qp) : DrainPart → Prop
  | .outside => ∀ q ∈ qp, NoLast q
  | .posting => done = 0 ∧ ∀ q ∈ qp, NoLast q ∧ q.inError = true
  | .waiting n => ∃ q, qp = some q ∧ LastAt n q ∧ (0 < done → n < q.processed)
  | .ended n => ∃ q, qp = some q ∧ LastAt n q ∧ n < q.processed

section
variable {target : SrpTargetPort} {qp qp' : Qp} {n : ℕ}

theorem noLast_created : NoLast .created := by
  intro h
  cases h

theorem NoLast.post (h : NoLast qp) {wr : RecvWr} (hwr : wr ≠ .last) : NoLast (qp.post wr) := by
  intro hmem
  rcases List.mem_append.mp hmem with hold | hnew
  · exact h hold
  · exact hwr (List.mem_singleton.mp hnew).symm

theorem NoLast.postRing (h : NoLast qp) (posts : ℕ) : NoLast (postRing posts qp) := by
  unfold ChannelConnection.postRing
  generalize List.range posts = is
  induction is generalizing qp with
  | nil => exact h
  | cons i is ih => exact ih (h.post fun hlast => by cases hlast)

theorem getElem?_concat_cases {α : Type} {l : List α} {a b : α} {j : ℕ}
    (h : (l++[a])[j]? = some b) : l[j]? = some b ∨ j = l.length ∧ a = b := by
  rw [List.getElem?_append] at h
  split at h
  · exact Or.inl h
  · rw [List.getElem?_singleton] at h
    split_ifs at h
    exact Or.inr ⟨by omega, Option.some.inj h⟩

/-- The request that is posted in the error state is the one to wait for. -/
theorem NoLast.lastAt (h : NoLast qp) (herr : qp.inError = true) :
    LastAt qp.recvs.length (qp.post .last) := by
  constructor
  · exact List.getElem?_concat_length
  · intro j hj
    rcases getElem?_concat_cases hj with hold | hnew
    · exact (h (List.mem_of_getElem? hold)).elim
    · exact hnew.1
  · exact herr
  · intro j hj
    have hnone : qp.wcs[j]? = none := List.getElem?_eq_none (Nat.le_trans qp.wcs_le hj)
    intro hsome
    cases hnone.symm.trans hsome

theorem complete_eq {ok : Bool} (h : qp.complete ok = some qp') :
    qp'.recvs = qp.recvs ∧ qp'.wcs = qp.wcs++[ok] ∧ qp'.processed = qp.processed ∧
      (qp.inError = true → qp'.inError = true ∧ ok = false) := by
  unfold Qp.complete at h
  split_ifs at h with hlt herr
  cases h
  refine ⟨rfl, rfl, rfl, ?_⟩
  intro hin
  cases ok with
  | true => simp [hin] at herr
  | false => exact ⟨by simp [hin], rfl⟩

theorem poll_eq {wr : RecvWr} {ok : Bool} (h : qp.poll = some (wr, ok, qp')) :
    qp.recvs[qp.processed]? = some wr ∧ qp.wcs[qp.processed]? = some ok ∧
      qp'.recvs = qp.recvs ∧ qp'.wcs = qp.wcs ∧ qp'.inError = qp.inError ∧
      qp'.processed = qp.processed+1 := by
  unfold Qp.poll at h
  split_ifs at h with hlt
  cases h
  exact ⟨by simp, by simp, rfl, rfl, rfl, rfl⟩

theorem NoLast.complete (h : NoLast qp) {ok : Bool} (hc : qp.complete ok = some qp') :
    NoLast qp' := by
  unfold NoLast
  rw [(complete_eq hc).1]
  exact h

theorem LastAt.complete (h : LastAt n qp) {ok : Bool} (hc : qp.complete ok = some qp') :
    LastAt n qp' := by
  obtain ⟨hrecvs, hwcs, _, herr⟩ := complete_eq hc
  obtain ⟨herr', hok⟩ := herr h.inError
  constructor
  · rw [hrecvs]
    exact h.last
  · rw [hrecvs]
    exact h.unique
  · exact herr'
  · intro j hj hsome
    rw [hwcs, hok] at hsome
    rcases getElem?_concat_cases hsome with hold | hnew
    · exact h.flushed j hj hold
    · cases hnew.2

theorem NoLast.poll (h : NoLast qp) {wr : RecvWr} {ok : Bool}
    (hp : qp.poll = some (wr, ok, qp')) : NoLast qp' ∧ wr ≠ .last := by
  obtain ⟨hwr, _, hrecvs, _⟩ := poll_eq hp
  constructor
  · unfold NoLast
    rw [hrecvs]
    exact h
  · intro hlast
    rw [hlast] at hwr
    exact h (List.mem_of_getElem? hwr)

theorem LastAt.poll (h : LastAt n qp) {wr : RecvWr} {ok : Bool}
    (hp : qp.poll = some (wr, ok, qp')) :
    LastAt n qp' ∧ qp.processed ≤ qp'.processed ∧
      (wr = .last → ok = false ∧ n < qp'.processed) := by
  obtain ⟨hwr, hok, hrecvs, hwcs, herr, hprocessed⟩ := poll_eq hp
  refine ⟨?_, by omega, ?_⟩
  · constructor
    · rw [hrecvs]
      exact h.last
    · rw [hrecvs]
      exact h.unique
    · rw [herr]
      exact h.inError
    · rw [hwcs]
      exact h.flushed
  · intro hlast
    rw [hlast] at hwr
    have hn := h.unique _ hwr
    constructor
    · cases ok with
      | false => rfl
      | true => exact (h.flushed _ (Nat.le_of_eq hn.symm) hok).elim
    · omega

theorem LastAt.post (h : LastAt n qp) {wr : RecvWr} (hwr : wr ≠ .last) : LastAt n (qp.post wr) := by
  constructor
  · have hlt := (List.getElem?_eq_some_iff.mp h.last).1
    exact (List.getElem?_append_left hlt).trans h.last
  · intro j hj
    rcases getElem?_concat_cases hj with hold | hnew
    · exact h.unique j hold
    · exact (hwr hnew.2).elim
  · exact h.inError
  · exact h.flushed

variable {done : ℕ} {part : DrainPart}

theorem Drained.complete (h : Drained done (some qp) part) {ok : Bool}
    (hc : qp.complete ok = some qp') : Drained done (some qp') part := by
  have hprocessed := (complete_eq hc).2.2.1
  cases part with
  | outside =>
      intro q hq
      cases hq
      exact (h qp rfl).complete hc
  | posting =>
      refine ⟨h.1, ?_⟩
      intro q hq
      cases hq
      obtain ⟨hno, herr⟩ := h.2 qp rfl
      exact ⟨hno.complete hc, ((complete_eq hc).2.2.2 herr).1⟩
  | waiting n =>
      obtain ⟨q, hq, hlast, hdone⟩ := h
      cases hq
      exact ⟨qp', rfl, hlast.complete hc, by rwa [hprocessed]⟩
  | ended n =>
      obtain ⟨q, hq, hlast, hdone⟩ := h
      cases hq
      exact ⟨qp', rfl, hlast.complete hc, by rwa [hprocessed]⟩

theorem Drained.post (h : Drained done (some qp) part) {wr : RecvWr} (hwr : wr ≠ .last) :
    Drained done (some (qp.post wr)) part := by
  cases part with
  | outside =>
      intro q hq
      cases hq
      exact (h qp rfl).post hwr
  | posting =>
      refine ⟨h.1, ?_⟩
      intro q hq
      cases hq
      obtain ⟨hno, herr⟩ := h.2 qp rfl
      exact ⟨hno.post hwr, herr⟩
  | waiting n =>
      obtain ⟨q, hq, hlast, hdone⟩ := h
      cases hq
      exact ⟨_, rfl, hlast.post hwr, hdone⟩
  | ended n =>
      obtain ⟨q, hq, hlast, hdone⟩ := h
      cases hq
      exact ⟨_, rfl, hlast.post hwr, hdone⟩

/-- The completion of `SRP_LAST_WR_ID` is an error and may signal the channel. -/
theorem Drained.poll (h : Drained done (some qp) part) {wr : RecvWr} {ok : Bool}
    (hp : qp.poll = some (wr, ok, qp')) : Drained done (some qp') part ∧
      (wr = .last → ok = false ∧ Drained (done+1) (some qp') part) := by
  cases part with
  | outside =>
      obtain ⟨hno, hwr⟩ := (h qp rfl).poll hp
      refine ⟨?_, fun hlast => (hwr hlast).elim⟩
      intro q hq
      cases hq
      exact hno
  | posting =>
      obtain ⟨hold, herr⟩ := h.2 qp rfl
      obtain ⟨hno, hwr⟩ := hold.poll hp
      refine ⟨⟨h.1, ?_⟩, fun hlast => (hwr hlast).elim⟩
      intro q hq
      cases hq
      exact ⟨hno, (poll_eq hp).2.2.2.2.1.trans herr⟩
  | waiting n =>
      obtain ⟨q, hq, hlast, hdone⟩ := h
      cases hq
      obtain ⟨hlast', hle, hwr⟩ := hlast.poll hp
      constructor
      · exact ⟨qp', rfl, hlast', fun hpos => Nat.lt_of_lt_of_le (hdone hpos) hle⟩
      · intro hw
        exact ⟨(hwr hw).1, qp', rfl, hlast', fun _ => (hwr hw).2⟩
  | ended n =>
      obtain ⟨q, hq, hlast, hdone⟩ := h
      cases hq
      obtain ⟨hlast', hle, hwr⟩ := hlast.poll hp
      have hended : Drained done (some qp') (.ended n) :=
        ⟨qp', rfl, hlast', Nat.lt_of_lt_of_le hdone hle⟩
      exact ⟨hended, fun hw => ⟨(hwr hw).1, hended⟩⟩

variable {ch ch' : SrpRdmaCh}

theorem recvCompletion_frame {reposted : Bool} (h : srpRecvCompletion reposted ch = some ch') :
    ∃ done qp, ch' = { ch with done := done, qp := qp } ∧
      ∀ part, Drained ch.done ch.qp part → Drained done qp part := by
  unfold srpRecvCompletion at h
  obtain ⟨⟨wr, ok, qp'⟩, hbind, he⟩ := Option.map_eq_some_iff.mp h
  obtain ⟨qp, hqp, hp⟩ := Option.bind_eq_some_iff.mp hbind
  rw [hqp]
  cases ok with
  | true =>
      refine ⟨ch.done, some (if reposted then qp'.post wr else qp'), he.symm, ?_⟩
      intro part hdrained
      obtain ⟨hpolled, hlast⟩ := hdrained.poll hp
      cases reposted with
      | false => exact hpolled
      | true =>
          apply hpolled.post
          intro hwr
          cases (hlast hwr).1
  | false =>
      cases wr with
      | iu i => exact ⟨ch.done, some qp', he.symm, fun part hdrained => (hdrained.poll hp).1⟩
      | last =>
          refine ⟨ch.done+1, some qp', he.symm, ?_⟩
          intro part hdrained
          exact ((hdrained.poll hp).2 rfl).2

theorem cmHandler_frame (target : SrpTargetPort) (ch : SrpRdmaCh) (e : CmEvent) :
    ∃ done status connected qp, cmHandler target ch e =
        { ch with done := done, status := status, connected := connected, qp := qp } ∧
      ((∀ q ∈ ch.qp, NoLast q) → ∀ q ∈ qp, NoLast q) := by
  have hrep : ∀ rep, ∃ done status connected qp, completeDone (srpCmRepHandler target rep ch) =
        { ch with done := done, status := status, connected := connected, qp := qp } ∧
      ((∀ q ∈ ch.qp, NoLast q) → ∀ q ∈ qp, NoLast q) := by
    intro rep
    have hring : (∀ q ∈ ch.qp, NoLast q) →
        ∀ q ∈ ch.qp.map (postRing (min rep.posts target.queueSize)), NoLast q := by
      intro hno q hq
      obtain ⟨q', hq', rfl⟩ := Option.map_eq_some_iff.mp hq
      exact (hno q' hq').postRing _
    unfold srpCmRepHandler
    simp only
    split_ifs
    · exact ⟨_, _, _, _, rfl, id⟩
    · exact ⟨_, _, _, _, rfl, id⟩
    · exact ⟨_, _, _, _, rfl, hring⟩
    · exact ⟨_, _, _, _, rfl, hring⟩
    · exact ⟨_, _, _, _, rfl, hring⟩
  cases e with
  | ib e =>
      cases e with
      | repReceived rep => exact hrep rep
      | _ => exact ⟨_, _, _, _, rfl, id⟩
  | rdma e =>
      cases e with
      | established rep => exact hrep rep
      | disconnected =>
          simp only [cmHandler, srpRdmaCmHandler]
          split_ifs
          · exact ⟨_, _, _, _, rfl, id⟩
          · exact ⟨_, _, _, _, rfl, id⟩
      | _ => exact ⟨_, _, _, _, rfl, id⟩

/-- A CM ID with nothing to deliver delivers only what the handler ignores. -/
theorem deliver_quiet (ch : SrpRdmaCh) {id id' : CmId} {e : CmEvent} (hquiet : id.quiet = true)
    (h : id.deliver target e = some id') : id' = id ∧ cmHandler target ch e = ch := by
  obtain ⟨addr, route, conn⟩ := id
  simp only [CmId.quiet, Bool.and_eq_true, Bool.not_eq_true'] at hquiet
  obtain ⟨⟨rfl, rfl⟩, rfl⟩ := hquiet
  cases e with
  | ib e => simp [CmId.deliver] at h
  | rdma e => cases e <;> simp_all [CmId.deliver, cmHandler, srpRdmaCmHandler]

theorem deliver_fresh {id id' : CmId} {e : CmEvent} (h : id.deliver target e = some id')
    (hfresh : id.route = false ∧ id.conn = false) : id'.route = false ∧ id'.conn = false := by
  obtain ⟨addr, route, conn⟩ := id
  obtain ⟨rfl, rfl⟩ := hfresh
  cases e with
  | ib e => simp [CmId.deliver] at h
  | rdma e =>
      simp only [CmId.deliver] at h
      cases e <;> simp at h <;> simp [← h.2]

end

end IbSrp.ReceiveFlush

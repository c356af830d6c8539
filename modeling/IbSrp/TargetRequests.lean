import IbSrp.TargetContexts
import IbSrp.ChannelRelease

/-!
# What becomes of the requests that the target receives

A request that arrives before the channel is live waits in `cmd_wait_list`, and so does one
that finds no free context. `srpt_cm_rtu_recv` takes the waiting requests out again when the
connection is established, and the thread for completions does so after a response has been
sent. A request that is taken up once the channel is not live any more is dropped.

The thread for completions first fetches a context and then takes the request out. If the
channel is closed between these two steps, then the request is dropped and the context does
not come back to the free list.

The list has no lock. What one thread does to it is a step here, and so is all of
`srpt_handle_new_iu`. `ListApart` says that the loop in `srpt_cm_rtu_recv` and the thread for
completions do not use the list at the same time, without which the latter may take a request
from an empty list. It may do so at any time here, not only after a response.

A request is in one place at any time. It waits, or it has been dropped, or it is being
processed with a context of its own, or it has been answered, or the driver has given up
answering it, because the core had aborted it or because the response could not be posted. One
whose data could not be transferred is never answered, and keeps its context.
-/
namespace IbSrp.TargetRequests
open LabelledRuns TargetContexts
open ChannelRelease (ChState)
open TargetChannel (SrptCommandState)

/-- `struct srpt_rdma_ch`. Requests have the numbers in which they are received. `fetched` is
the context that the thread for completions has fetched, `lost` are those that it did not
use. `looping` says that the loop in `srpt_cm_rtu_recv` runs, `broken` that a request has been
taken from an empty list. -/
structure Chan where
  state : ChState := .connecting
  ioctxRing : List Ioctx
  freeList : List ℕ
  cmdWaitList : List ℕ := []
  looping : Bool := false
  fetched : Option ℕ := none
  broken : Bool := false
  lost : List ℕ := []
  received : ℕ := 0
  dropped : List ℕ := []
  answered : List ℕ := []
  givenUp : List ℕ := []
deriving DecidableEq, Repr

def create (rqSize : ℕ) : Chan :=
  { ioctxRing := List.replicate rqSize {}, freeList := List.range rqSize }

namespace Chan

def start (ch : Chan) (i : ℕ) (kind : Kind) (request : ℕ) : Chan :=
  { ch with ioctxRing := ch.ioctxRing.modify i (Ioctx.get · kind request) }

def srptHandleNewIu (ch : Chan) (request : ℕ) (kind : Kind) (sendIoctx : Option ℕ) : Chan :=
  match ch.state with
  | .connecting => { ch with
      cmdWaitList := ch.cmdWaitList++[request], lost := sendIoctx.toList++ch.lost }
  | .live =>
      match sendIoctx, ch.freeList with
      | some i, _ => ch.start i kind request
      | none, i::rest => { ch with freeList := rest }.start i kind request
      | none, [] => { ch with cmdWaitList := ch.cmdWaitList++[request] }
  | _ => { ch with dropped := request::ch.dropped, lost := sendIoctx.toList++ch.lost }

end Chan

/-- The request that a context is working on. -/
def pendingRequest (c : Ioctx) : Option ℕ :=
  if c.state ≠ .done ∧ c.posted = 0 then some c.request else none

/-- The request for which a response has been posted by a step of its context. -/
def answers (c c' : Ioctx) : List ℕ := if c.posted < c'.posted then [c.request] else []

/-- The request for which there will be no response after a step of its context. -/
def givesUp (c c' : Ioctx) : List ℕ :=
  if c.state ≠ .done ∧ c'.state = .done ∧ c.sending = false then [c.request] else []

inductive Event where
  | receive (kind : Kind)
  | establish
  | redeliver (kind : Kind)
  | loopDone
  | fetch
  | serve (kind : Kind)
  | close (state : ChState)
  | io (i : ℕ) (e : IoEvent)
deriving DecidableEq, Repr

namespace Chan

/-- A context has gone from `c` to `c'`. -/
def update (ch : Chan) (i : ℕ) (c c' : Ioctx) : Chan := { ch with
  ioctxRing := ch.ioctxRing.set i c'
  freeList := if c'.free then i::ch.freeList else ch.freeList
  answered := answers c c'++ch.answered
  givenUp := givesUp c c'++ch.givenUp }

def step (ch : Chan) : Event → Option Chan
  | .receive kind =>
      some ({ ch with received := ch.received+1 }.srptHandleNewIu ch.received kind none)
  | .establish =>
      if ch.state = .connecting then some { ch with state := .live, looping := true } else none
  | .redeliver kind =>
      match ch.looping, ch.cmdWaitList with
      | true, request::rest =>
          some ({ ch with cmdWaitList := rest }.srptHandleNewIu request kind none)
      | _, _ => none
  | .loopDone => if ch.looping then some { ch with looping := false } else none
  | .fetch =>
      match ch.state, ch.fetched, ch.cmdWaitList, ch.freeList with
      | .live, none, _::_, i::rest => some { ch with freeList := rest, fetched := some i }
      | _, _, _, _ => none
  | .serve kind =>
      match ch.fetched, ch.cmdWaitList with
      | some i, request::rest => some
          ({ ch with fetched := none, cmdWaitList := rest }.srptHandleNewIu request kind (some i))
      | some i, [] => some { ch with fetched := none, lost := i::ch.lost, broken := true }
      | none, _ => none
  | .close state =>
      if state ≠ .connecting ∧ state ≠ .live then some { ch with state := state } else none
  | .io i e =>
      match ch.ioctxRing[i]? with
      | none => none
      | some c =>
          match c.step ch.state e with
          | none => none
          | some c' => some (ch.update i c c')

/-- The contexts that are not in use. -/
def spare (ch : Chan) : List ℕ := ch.freeList++ch.fetched.toList++ch.lost

def pending (ch : Chan) : List ℕ := ch.ioctxRing.filterMap pendingRequest

end Chan

/-- The two users of `cmd_wait_list` are not at work at the same time. -/
def ListApart (ch : Chan) : Event → Prop
  | .receive _ => ch.looping = true → ch.state = .live → ch.freeList ≠ []
  | .redeliver _ => ch.fetched = none
  | .fetch | .serve _ => ch.looping = false
  | _ => True

/-- `CoreCalls` and `Refusals` for the contexts of a channel. -/
def CoreAssumed (ch : Chan) : Event → Prop
  | .io i e => ∀ c, ch.ioctxRing[i]? = some c → CoreCalls c e ∧ Refusals e
  | _ => True

def Assumed (ch : Chan) (e : Event) : Prop := ListApart ch e ∧ CoreAssumed ch e

/-- The ways in which the step of a channel goes. -/
inductive Stepped (ch : Chan) : Event → Chan → Prop
  | receive {kind : Kind} : Stepped ch (.receive kind)
      ({ ch with received := ch.received+1 }.srptHandleNewIu ch.received kind none)
  | establish : ch.state = .connecting →
      Stepped ch .establish { ch with state := .live, looping := true }
  | redeliver {kind : Kind} {request : ℕ} {rest : List ℕ} : ch.cmdWaitList = request::rest →
      Stepped ch (.redeliver kind)
        ({ ch with cmdWaitList := rest }.srptHandleNewIu request kind none)
  | loopDone : Stepped ch .loopDone { ch with looping := false }
  | fetch {i : ℕ} {rest : List ℕ} : ch.state = .live → ch.fetched = none → ch.cmdWaitList ≠ [] →
      ch.freeList = i::rest → Stepped ch .fetch { ch with freeList := rest, fetched := some i }
  | serve {kind : Kind} {i request : ℕ} {rest : List ℕ} : ch.fetched = some i →
      ch.cmdWaitList = request::rest →
      Stepped ch (.serve kind)
        ({ ch with fetched := none, cmdWaitList := rest }.srptHandleNewIu request kind (some i))
  | serveEmpty {kind : Kind} {i : ℕ} : ch.fetched = some i → ch.cmdWaitList = [] →
      Stepped ch (.serve kind) { ch with fetched := none, lost := i::ch.lost, broken := true }
  | close {state : ChState} : state ≠ .connecting ∧ state ≠ .live →
      Stepped ch (.close state) { ch with state := state }
  | io {i : ℕ} {e : IoEvent} {c c' : Ioctx} : ch.ioctxRing[i]? = some c →
      c.step ch.state e = some c' → Stepped ch (.io i e) (ch.update i c c')

theorem stepped_of_step {ch ch' : Chan} {e : Event} (hstep : ch.step e = some ch') :
    Stepped ch e ch' := by
  cases e with
  | receive kind =>
      cases hstep
      exact .receive
  | establish =>
      simp only [Chan.step] at hstep
      split_ifs at hstep with hconnecting
      cases hstep
      exact .establish hconnecting
  | redeliver kind =>
      simp only [Chan.step] at hstep
      split at hstep
      · rename_i hwait
        cases hstep
        exact .redeliver hwait
      · cases hstep
  | loopDone =>
      simp only [Chan.step] at hstep
      split_ifs at hstep
      cases hstep
      exact .loopDone
  | fetch =>
      simp only [Chan.step] at hstep
      split at hstep
      · rename_i hlive hfetched hwait hfree
        cases hstep
        exact .fetch hlive hfetched (hwait ▸ List.cons_ne_nil _ _) hfree
      · cases hstep
  | serve kind =>
      simp only [Chan.step] at hstep
      split at hstep
      · rename_i hfetched hwait
        cases hstep
        exact .serve hfetched hwait
      · rename_i hfetched hwait
        cases hstep
        exact .serveEmpty hfetched hwait
      · cases hstep
  | close state =>
      simp only [Chan.step] at hstep
      split_ifs at hstep with hclosed
      cases hstep
      exact .close hclosed
  | io i e =>
      simp only [Chan.step] at hstep
      split at hstep
      · cases hstep
      · rename_i hc
        split at hstep
        · cases hstep
        · rename_i hio
          cases hstep
          exact .io hc hio

/-- What is fetched is for a request that waits. -/
structure Apart (ch : Chan) : Prop where
  broken : ch.broken = false
  waits : ch.fetched ≠ none → ch.cmdWaitList ≠ []

/-- What holds of a channel at any time. `taken` are requests and `out` are contexts that are
just being moved from one place to another. -/
structure Sound (ch : Chan) (taken out : List ℕ) : Prop where
  good : ∀ c ∈ ch.ioctxRing, Good c
  nodup : (out++ch.spare).Nodup
  spare : ∀ i, i ∈ out++ch.spare ↔ ∃ c, ch.ioctxRing[i]? = some c ∧ c.free = true
  requests : ∀ r, taken.count r+ch.cmdWaitList.count r+ch.dropped.count r+ch.pending.count r+
    ch.answered.count r+ch.givenUp.count r = if r < ch.received then 1 else 0
  dropped : ch.state = .connecting ∨ ch.state = .live → ch.dropped = [] ∧ ch.lost = []
  unused : ch.state = .connecting → (∀ c ∈ ch.ioctxRing, c.free = true) ∧ ch.fetched = none

section
variable {ch ch' : Chan} {request i : ℕ} {c c' : Ioctx}

/-- A request stays pending, or stays no longer pending. -/
theorem pendingRequest_same (hstate : c'.state = .done ↔ c.state = .done)
    (hposted : c'.posted = c.posted) (hrequest : c'.request = c.request) :
    (pendingRequest c).toList = (pendingRequest c').toList++answers c c'++givesUp c c' := by
  have hgivesUp : givesUp c c' = [] := by
    rw [givesUp, if_neg]
    rintro ⟨hne, hdone, -⟩
    exact hne (hstate.mp hdone)
  simp [hgivesUp, pendingRequest, answers, hstate, hposted, hrequest]

theorem pendingRequest_givenUp (hstate : c.state ≠ .done) (hsending : c.sending = false)
    (hdone : c'.state = .done) (hposted : c.posted = 0) (hsame : c'.posted = c.posted) :
    (pendingRequest c).toList = (pendingRequest c').toList++answers c c'++givesUp c c' := by
  simp [pendingRequest, answers, givesUp, hstate, hsending, hdone, hposted, hsame]

/-- A request is pending until it is answered or given up. -/
theorem pendingRequest_of_moves (h : Good c) (hmoves : Moves c c') :
    (pendingRequest c).toList = (pendingRequest c').toList++answers c c'++givesUp c c' := by
  have hput := put_fields c
  cases hmoves with
  | transfer hcall hcore =>
      have hstate := (h.phase.working_of_pending hcall hcore).stage.ne_done
      exact pendingRequest_same (by simp [hstate]) rfl rfl
  | retry hcall hcore =>
      have hstate := (h.phase.working_of_pending hcall hcore).stage.ne_done
      exact pendingRequest_same (by simp [hstate]) rfl rfl
  | notLive hcall hcore =>
      have hstate := (h.phase.working_of_pending hcall hcore).stage.ne_done
      exact pendingRequest_same (by simp [hstate]) rfl rfl
  | data hreading =>
      have hstate := (h.phase.working_of_reading hreading).stage.ne_done
      exact pendingRequest_same (by simp [hstate]) rfl rfl
  | enter hcall hcore hstatus =>
      have hworking := h.phase.working_of_due hcall hcore
      have hstate := hworking.stage.ne_done
      have hafter := sent_ne_done (c := { c with state := c.state.responding })
        ((hworking.stage.responding_of hcore).1.imp_right And.left)
      exact pendingRequest_same (by simp [hstate, hafter]) rfl rfl
  | prepare hcall hreads honly => exact pendingRequest_same Iff.rfl rfl rfl
  | ready hcall => exact pendingRequest_same Iff.rfl rfl rfl
  | again hcall => exact pendingRequest_same Iff.rfl rfl rfl
  | abandon hcall => exact pendingRequest_same Iff.rfl rfl rfl
  | drop hcall hret => exact pendingRequest_same (by simp [hput.1]) hput.2.1 hput.2.2.1
  | put hputting => exact pendingRequest_same (by simp [hput.1]) hput.2.1 hput.2.2.1
  | stop hcall hcore => exact pendingRequest_same (by simp [hput.1]) hput.2.1 hput.2.2.1
  | abort hcall =>
      have ha := h.phase.answering_of (hcall ▸ rfl)
      exact pendingRequest_givenUp (sent_ne_done ha.state) ha.quiet.sending rfl ha.quiet.posted rfl
  | giveUp hcall hret =>
      have ha := h.phase.answering_of (hcall ▸ rfl)
      exact pendingRequest_givenUp (sent_ne_done ha.state) ha.quiet.sending rfl ha.quiet.posted rfl
  | post hcall =>
      have ha := h.phase.answering_of (hcall ▸ rfl)
      simp [pendingRequest, answers, givesUp, sent_ne_done ha.state, ha.quiet.posted]
  | sent hsending =>
      have hposted := ((h.phase.answered_of (Or.inl hsending)).rest.sent_of hsending).2.2
      simp [pendingRequest, answers, givesUp, hsending, hposted]

theorem free_set (hc : ch.ioctxRing[i]? = some c) (j : ℕ) :
    (∃ d, (ch.ioctxRing.set i c')[j]? = some d ∧ d.free = true) ↔
      if j = i then c'.free = true else ∃ d, ch.ioctxRing[j]? = some d ∧ d.free = true := by
  have hlt := (List.getElem?_eq_some_iff.mp hc).1
  rw [List.getElem?_set]
  by_cases hj : j = i
  · subst hj
    simp [hlt]
  · simp [hj, Ne.symm hj]

theorem Sound.start {kind : Kind} (h : Sound ch [request] [i]) (hlive : ch.state = .live) :
    Sound (ch.start i kind request) [] [] := by
  have ⟨c, hc, hfree⟩ := (h.spare i).mp (by simp)
  have hring : (ch.start i kind request).ioctxRing =
      ch.ioctxRing.set i (c.get kind request) := by
    rw [Chan.start, List.modify_eq_set_getElem?, hc]
    rfl
  have hgood := h.good c (List.mem_of_getElem? hc)
  have hnodup := List.nodup_cons.mp h.nodup
  constructor
  case good =>
    rw [hring]
    intro d hd
    cases List.mem_or_eq_of_mem_set hd with
    | inl hmem => exact h.good d hmem
    | inr heq => exact heq ▸ hgood.get hfree kind request
  case nodup => exact hnodup.2
  case spare =>
    intro j
    rw [hring, free_set hc]
    split_ifs with hj
    · subst hj
      have hbusy : (c.get kind request).free = false := by cases kind <;> rfl
      simp only [hbusy, Bool.false_eq_true, iff_false]
      exact hnodup.1
    · rw [← h.spare j]
      simp [hj]
      rfl
  case requests =>
    intro r
    have hbefore : pendingRequest c = none := by
      simp [pendingRequest, (hgood.unused hfree).state]
    have hafter : pendingRequest (c.get kind request) = some request := by cases kind <;> rfl
    have hcount : (ch.start i kind request).pending.count r =
        ch.pending.count r+[request].count r := by
      have := count_filterMap_set (f := pendingRequest) hc (c.get kind request) r
      rw [hbefore, hafter, ← hring] at this
      exact this
    have hrequests := h.requests r
    change [].count r+ch.cmdWaitList.count r+ch.dropped.count r+_+ch.answered.count r+
      ch.givenUp.count r = if r < ch.received then 1 else 0
    rw [hcount, ← hrequests, List.count_nil]
    omega
  case dropped => exact h.dropped
  case unused =>
    intro hconnecting
    rw [show (ch.start i kind request).state = ch.state from rfl, hlive] at hconnecting
    cases hconnecting

/-- Requests and contexts move from one place to another. -/
theorem Sound.move {taken taken' out out' : List ℕ} (h : Sound ch taken out)
    (hring : ch'.ioctxRing = ch.ioctxRing) (hspare : (out'++ch'.spare).Perm (out++ch.spare))
    (hrequests : ∀ r, taken'.count r+ch'.cmdWaitList.count r+ch'.dropped.count r =
      taken.count r+ch.cmdWaitList.count r+ch.dropped.count r)
    (hends : ch'.answered = ch.answered ∧ ch'.givenUp = ch.givenUp ∧ ch'.received = ch.received)
    (hdropped : ch'.state = .connecting ∨ ch'.state = .live → ch'.dropped = [] ∧ ch'.lost = [])
    (hunused : ch'.state = .connecting → ch.state = .connecting ∧ ch'.fetched = ch.fetched) :
    Sound ch' taken' out' := by
  constructor
  case good => exact hring ▸ h.good
  case nodup => exact hspare.nodup_iff.mpr h.nodup
  case spare =>
    intro j
    rw [hspare.mem_iff, hring]
    exact h.spare j
  case requests =>
    intro r
    rw [hrequests, Chan.pending, hring, hends.1, hends.2.1, hends.2.2]
    exact h.requests r
  case dropped => exact hdropped
  case unused =>
    intro hconnecting
    have hsame := hunused hconnecting
    rw [hring, hsame.2]
    exact h.unused hsame.1

theorem Sound.get {rest taken : List ℕ} (h : Sound ch taken []) (hfree : ch.freeList = i::rest) :
    Sound { ch with freeList := rest } taken [i] :=
  h.move rfl (by simp [Chan.spare, hfree]) (fun _ => rfl) ⟨rfl, rfl, rfl⟩ h.dropped
    fun hs => ⟨hs, rfl⟩

theorem Sound.wait {out : List ℕ} (h : Sound ch [request] out) :
    Sound { ch with cmdWaitList := ch.cmdWaitList++[request] } [] out := by
  refine h.move rfl (List.Perm.refl _) (fun r => ?_) ⟨rfl, rfl, rfl⟩ h.dropped fun hs => ⟨hs, rfl⟩
  simp only [List.count_append, List.count_nil]
  omega

theorem Sound.take {rest : List ℕ} (h : Sound ch [] []) (hwait : ch.cmdWaitList = request::rest) :
    Sound { ch with cmdWaitList := rest } [request] [] := by
  refine h.move rfl (List.Perm.refl _) (fun r => ?_) ⟨rfl, rfl, rfl⟩ h.dropped fun hs => ⟨hs, rfl⟩
  simp only [hwait, List.count_cons, List.count_nil]
  omega

theorem Sound.srptHandleNewIu {kind : Kind} {sendIoctx : Option ℕ}
    (h : Sound ch [request] sendIoctx.toList)
    (hfetched : ch.state = .connecting → sendIoctx = none) :
    Sound (ch.srptHandleNewIu request kind sendIoctx) [] [] := by
  unfold Chan.srptHandleNewIu
  split
  · rename_i hconnecting
    have hnone := hfetched hconnecting
    subst hnone
    exact h.wait
  · rename_i hlive
    split
    · exact h.start hlive
    · rename_i i rest hfree
      exact (h.get hfree).start hlive
    · exact h.wait
  · rename_i hconnecting hlive
    refine h.move rfl ?_ (fun r => ?_) ⟨rfl, rfl, rfl⟩ ?_ fun hs => absurd hs hconnecting
    · simp only [Chan.spare, List.nil_append]
      rw [← List.append_assoc, ← List.append_assoc sendIoctx.toList]
      exact List.perm_append_comm.append_right ch.lost
    · rw [← List.singleton_append, List.count_append, List.count_nil]
      simp only
      omega
    · exact fun hs => absurd hs (not_or.mpr ⟨hconnecting, hlive⟩)

theorem Sound.update (h : Sound ch [] []) (hc : ch.ioctxRing[i]? = some c)
    (hbusy : c.free = false) (hmoves : Moves c c') : Sound (ch.update i c c') [] [] := by
  have hgood := h.good c (List.mem_of_getElem? hc)
  have hout : i ∉ ch.spare := by
    intro hmem
    have ⟨d, hd, hfree⟩ := (h.spare i).mp hmem
    rw [hc] at hd
    cases hd
    rw [hbusy] at hfree
    cases hfree
  have hspare : (ch.update i c c').spare = if c'.free then i::ch.spare else ch.spare := by
    unfold Chan.update Chan.spare
    split_ifs <;> rfl
  constructor
  case good =>
    intro d hd
    cases List.mem_or_eq_of_mem_set hd with
    | inl hmem => exact h.good d hmem
    | inr heq => exact heq ▸ hgood.moved hmoves
  case nodup =>
    rw [List.nil_append, hspare]
    split_ifs
    · exact List.nodup_cons.mpr ⟨hout, h.nodup⟩
    · exact h.nodup
  case spare =>
    intro j
    have hbefore := h.spare j
    rw [List.nil_append] at hbefore ⊢
    rw [hspare, Chan.update, free_set hc, ← hbefore]
    split_ifs with hfree hj hj
    · simp [hj, hfree]
    · simp [hj]
    · simp [hj, hout, hfree]
    · rfl
  case requests =>
    intro r
    have hcount := count_filterMap_set (f := pendingRequest) hc c' r
    rw [pendingRequest_of_moves hgood hmoves, List.count_append, List.count_append] at hcount
    have hrequests := h.requests r
    change _+ch.cmdWaitList.count r+ch.dropped.count r+
      ((ch.ioctxRing.set i c').filterMap pendingRequest).count r+
      (answers c c'++ch.answered).count r+(givesUp c c'++ch.givenUp).count r =
        if r < ch.received then 1 else 0
    rw [← hrequests, List.count_append, List.count_append, Chan.pending]
    omega
  case dropped => exact h.dropped
  case unused =>
    intro hconnecting
    have hfree := (h.unused hconnecting).1 c (List.mem_of_getElem? hc)
    rw [hbusy] at hfree
    cases hfree

theorem Sound.receive (h : Sound ch [] []) :
    Sound { ch with received := ch.received+1 } [ch.received] [] := by
  refine ⟨h.good, h.nodup, h.spare, fun r => ?_, h.dropped, h.unused⟩
  have hrequests := h.requests r
  rw [List.count_nil] at hrequests
  change _+ch.cmdWaitList.count r+ch.dropped.count r+ch.pending.count r+ch.answered.count r+
    ch.givenUp.count r = if r < ch.received+1 then 1 else 0
  by_cases hr : r = ch.received
  · subst hr
    simp only [lt_self_iff_false, if_false] at hrequests
    simp only [List.count_singleton_self, Nat.lt_succ_self, if_true]
    omega
  · have hlt : r < ch.received+1 ↔ r < ch.received := by omega
    rw [List.count_singleton, if_neg (by simpa using Ne.symm hr)]
    simp only [hlt]
    omega

theorem Sound.moves {e : IoEvent} (h : Sound ch [] []) (hc : ch.ioctxRing[i]? = some c)
    (hok : CoreAssumed ch (.io i e)) (hstep : c.step ch.state e = some c') :
    c.free = false ∧ Moves c c' := by
  have hmem := List.mem_of_getElem? hc
  have hgood := h.good c hmem
  have hassumed := hok c hc
  have hbusy : c.free = false := by
    by_contra hne
    exact (hgood.unused (by simpa using hne)).not_step hassumed.1 hstep
  have hstate : ch.state ≠ .connecting := by
    intro hconnecting
    exact Bool.false_ne_true (hbusy.symm.trans ((h.unused hconnecting).1 c hmem))
  exact ⟨hbusy, hgood.moves hstate hassumed.1 hassumed.2 hstep⟩

theorem Sound.serve {request : ℕ} {rest : List ℕ} {kind : Kind} (h : Sound ch [] [])
    (hfetched : ch.fetched = some i) (hwait : ch.cmdWaitList = request::rest) :
    Sound ({ ch with fetched := none, cmdWaitList := rest }.srptHandleNewIu request kind (some i))
      [] [] := by
  have hnot : ch.state ≠ .connecting := by
    intro hconnecting
    rw [(h.unused hconnecting).2] at hfetched
    cases hfetched
  have hout : Sound { ch with fetched := none, cmdWaitList := rest } [request] [i] := by
    refine (h.take hwait).move rfl ?_ (fun _ => rfl) ⟨rfl, rfl, rfl⟩ h.dropped
      fun hs => absurd hs hnot
    simpa [Chan.spare, hfetched] using List.perm_middle.symm
  exact hout.srptHandleNewIu fun hs => absurd hs hnot

theorem Sound.step {e : Event} (h : Sound ch [] []) (hapart : Apart ch) (hok : CoreAssumed ch e)
    (hstep : ch.step e = some ch') : Sound ch' [] [] := by
  cases stepped_of_step hstep with
  | receive => exact h.receive.srptHandleNewIu fun _ => rfl
  | establish hconnecting =>
      exact h.move rfl (List.Perm.refl _) (fun _ => rfl) ⟨rfl, rfl, rfl⟩
        (fun _ => h.dropped (Or.inl hconnecting)) fun hs => ⟨hconnecting, rfl⟩
  | redeliver hwait => exact (h.take hwait).srptHandleNewIu fun _ => rfl
  | loopDone =>
      exact h.move rfl (List.Perm.refl _) (fun _ => rfl) ⟨rfl, rfl, rfl⟩ h.dropped
        fun hs => ⟨hs, rfl⟩
  | fetch hlive hfetched hwait hfree =>
      refine h.move rfl ?_ (fun _ => rfl) ⟨rfl, rfl, rfl⟩ h.dropped fun hs => ?_
      · simp [Chan.spare, hfree, hfetched]
      · cases hlive.symm.trans hs
  | serve hfetched hwait => exact h.serve hfetched hwait
  | serveEmpty hfetched hwait =>
      exact absurd hwait (hapart.waits (hfetched ▸ Option.some_ne_none _))
  | close hclosed =>
      exact h.move rfl (List.Perm.refl _) (fun _ => rfl) ⟨rfl, rfl, rfl⟩
        (fun hs => absurd hs (not_or.mpr hclosed)) fun hs => absurd hs hclosed.1
  | io hc hio =>
      have hmoves := h.moves hc hok hio
      exact h.update hc hmoves.1 hmoves.2

theorem srptHandleNewIu_fields (ch : Chan) (request : ℕ) (kind : Kind) (sendIoctx : Option ℕ) :
    (ch.srptHandleNewIu request kind sendIoctx).broken = ch.broken ∧
      (ch.srptHandleNewIu request kind sendIoctx).fetched = ch.fetched ∧
      (ch.cmdWaitList ≠ [] → (ch.srptHandleNewIu request kind sendIoctx).cmdWaitList ≠ []) := by
  unfold Chan.srptHandleNewIu
  split
  · exact ⟨rfl, rfl, fun _ => by simp⟩
  · split
    · exact ⟨rfl, rfl, id⟩
    · exact ⟨rfl, rfl, id⟩
    · exact ⟨rfl, rfl, fun _ => by simp⟩
  · exact ⟨rfl, rfl, id⟩

theorem Apart.srptHandleNewIu {kind : Kind} {sendIoctx : Option ℕ} (h : Apart ch) :
    Apart (ch.srptHandleNewIu request kind sendIoctx) := by
  have hfields := srptHandleNewIu_fields ch request kind sendIoctx
  exact ⟨hfields.1.trans h.broken, fun hs => hfields.2.2 (h.waits (hfields.2.1 ▸ hs))⟩

theorem Apart.step {e : Event} (h : Apart ch) (hok : ListApart ch e)
    (hstep : ch.step e = some ch') : Apart ch' := by
  cases stepped_of_step hstep with
  | receive => exact Apart.srptHandleNewIu ⟨h.broken, h.waits⟩
  | redeliver _ => exact Apart.srptHandleNewIu ⟨h.broken, fun hs => absurd hok hs⟩
  | fetch _ _ hwait _ => exact ⟨h.broken, fun _ => hwait⟩
  | serve _ _ => exact Apart.srptHandleNewIu ⟨h.broken, fun hs => absurd rfl hs⟩
  | serveEmpty hfetched hwait =>
      exact absurd hwait (h.waits (hfetched ▸ Option.some_ne_none _))
  | establish _ | loopDone | close _ | io _ _ => exact ⟨h.broken, h.waits⟩

theorem sound_create (rqSize : ℕ) : Sound (create rqSize) [] [] := by
  have hgood : Good {} := by
    refine ⟨rfl, ⟨rfl, fun _ => rfl, fun _ => rfl⟩, .answered ⟨rfl, Or.inl ⟨rfl, rfl⟩, rfl, ?_⟩⟩
    exact .done rfl rfl (Nat.zero_le 1)
  have hpending : (create rqSize).pending = [] := by
    rw [Chan.pending, create, List.filterMap_replicate_of_none rfl]
  constructor
  case good => exact fun c hc => List.eq_of_mem_replicate hc ▸ hgood
  case nodup => simpa [create, Chan.spare] using List.nodup_range
  case spare =>
    intro i
    simp [create, Chan.spare, List.getElem?_replicate]
  case requests =>
    intro r
    rw [hpending]
    simp [create]
  case dropped => exact fun _ => ⟨rfl, rfl⟩
  case unused => exact fun _ => ⟨fun c hc => List.eq_of_mem_replicate hc ▸ rfl, rfl⟩

theorem sound_of_run {rqSize : ℕ} (hrun : Run Chan.step Assumed (create rqSize) ch) :
    Sound ch [] [] ∧ Apart ch :=
  Run.invariant (I := fun ch => Sound ch [] [] ∧ Apart ch) hrun
    ⟨sound_create rqSize, rfl, fun hs => absurd rfl hs⟩
    fun _ _ _ h hok hstep => ⟨h.1.step h.2 hok.2 hstep, h.2.step hok.1 hstep⟩

end

instance (c : Ioctx) (e : IoEvent) : Decidable (CoreCalls c e) :=
  match e with
  | .writePending _ =>
      inferInstanceAs (Decidable (c.call = .none ∧ (c.core = .submitted ∨ c.core = .full)))
  | .queueResponse statusOnly =>
      inferInstanceAs (Decidable (c.call = .none ∧
        (c.core = .submitted ∨ c.core = .running ∨ c.core = .again) ∧
        (c.coreRef = true ∨ statusOnly = true)))
  | .checkStopFree => inferInstanceAs (Decidable (c.call = .none ∧ c.core = .responded))
  | .rdmaComp | .checkAborted _ | .xferData _ | .postSend _ | .dropRef | .sendComp _
  | .putRef => isTrue trivial

instance (e : IoEvent) : Decidable (Refusals e) :=
  match e with
  | .writePending ret => inferInstanceAs (Decidable (ret ≠ .fatal))
  | .postSend ret => inferInstanceAs (Decidable (ret ≠ .again))
  | .rdmaComp | .queueResponse _ | .checkAborted _ | .xferData _ | .dropRef | .sendComp _
  | .putRef | .checkStopFree => isTrue trivial

instance (ch : Chan) (e : Event) : Decidable (ListApart ch e) :=
  match e with
  | .receive _ =>
      inferInstanceAs (Decidable (ch.looping = true → ch.state = .live → ch.freeList ≠ []))
  | .redeliver _ => inferInstanceAs (Decidable (ch.fetched = none))
  | .fetch | .serve _ => inferInstanceAs (Decidable (ch.looping = false))
  | .establish | .loopDone | .close _ | .io _ _ => isTrue trivial

instance (ch : Chan) (e : Event) : Decidable (CoreAssumed ch e) :=
  match e with
  | .io i e => inferInstanceAs
      (Decidable (∀ c, ch.ioctxRing[i]? = some c → CoreCalls c e ∧ Refusals e))
  | .receive _ | .establish | .redeliver _ | .loopDone | .fetch | .serve _ | .close _ =>
      isTrue trivial

instance (ch : Chan) (e : Event) : Decidable (Assumed ch e) :=
  inferInstanceAs (Decidable (ListApart ch e ∧ CoreAssumed ch e))

/-- The response of a command could not be posted for lack of resources, and the core asks for
it once more: its context is on the free list while the response is being sent. -/
example : Reaches Chan.step
    [.establish, .receive (.cmd false), .io 0 (.queueResponse false), .io 0 (.checkAborted false),
      .io 0 (.postSend .again), .io 0 .dropRef, .io 0 (.queueResponse false),
      .io 0 (.checkAborted false), .io 0 (.postSend .ok), .io 0 .checkStopFree] (create 1)
    (fun ch => ch.freeList = [0] ∧ ch.ioctxRing.any Ioctx.sending) = true := by decide

/-- The loop in `srpt_cm_rtu_recv` takes the request for which the thread for completions has
fetched a context. -/
example : Reaches Chan.step
    [.receive (.cmd false), .establish, .fetch, .redeliver (.cmd false), .serve (.cmd false)]
    (create 2) (fun ch => ch.broken) = true := by decide

end IbSrp.TargetRequests

import Mathlib.Data.List.Basic

/-!
# The CM ID of an accepted connection

`cm.c` on the side that received the REQ. A message of the other side, the end of a timer
or a call of the driver changes the state of the CM ID under its lock. What the driver has
to hear of goes into `work_list` at the same time and is handed to its handler later, one
event after another and in that order. Only REP_ERROR and DREQ_ERROR do not go through the
list: `cm_process_send_error` calls the handler itself.

An event is final when the driver takes a channel down for it: REJ, DREP and the end of the
timewait state. The CM queues one only when the connection is over, so nothing that
belongs to an open connection can follow it. A CM ID can also end up in a state that it
leaves no more by itself: `dreqRcvd`, until somebody sends a DREP.

MRA changes nothing but the time the CM waits, and `IB_CM_MRA_REP_RCVD` is `repSent` here.
The driver uses no alternate paths, so LAP and APR are left out.
-/
namespace IbSrp.CmIdentifier

/-- The states of `enum ib_cm_state` that the CM ID of a received REQ goes through. -/
inductive IbCmState where
  | reqRcvd | repSent | established | dreqSent | dreqRcvd | timewait | idle
deriving DecidableEq, Repr

/-- The number of a state; a CM ID never goes back to a smaller one. -/
def IbCmState.age : IbCmState → ℕ
  | .reqRcvd => 0
  | .repSent => 1
  | .established => 2
  | .dreqSent => 3
  | .dreqRcvd => 4
  | .timewait => 5
  | .idle => 6

inductive CmEvent where
  | rtuReceived | userEstablished | dreqReceived | rejReceived | drepReceived | timewaitExit
deriving DecidableEq, Repr

def CmEvent.final : CmEvent → Bool
  | .rtuReceived | .userEstablished | .dreqReceived => false
  | .rejReceived | .drepReceived | .timewaitExit => true

/-- The part of `struct cm_id_private` that tells what happens next. `establishing` says that
`cm_establish` has queued its work. -/
structure CmId where
  state : IbCmState := .reqRcvd
  workList : List CmEvent := []
  establishing : Bool := false
deriving DecidableEq, Repr

/-- What the work handlers of the CM work on: a message, the work of `cm_establish`, a DREQ
that got no answer, or the end of the timewait state. `stale` is IB_CM_REJ_STALE_CONN. -/
inductive CmInput where
  | rtu | dreq | drep
  | rej (stale : Bool)
  | establish | dreqError | timewaitExit
deriving DecidableEq, Repr

namespace CmId

/-- Nothing but a final event can come any more. -/
def finished (id : CmId) : Bool := id.state = .timewait || id.state = .idle

def queue (id : CmId) (state : IbCmState) (e : CmEvent) : CmId :=
  { id with state := state, workList := id.workList++[e] }

/-- `ib_send_cm_rep`; `sent` says whether the message could be allocated and posted. -/
def ibSendCmRep (sent : Bool) (id : CmId) : Option CmId :=
  if id.state = .reqRcvd ∧ sent then some { id with state := .repSent } else none

/-- `ib_send_cm_rej`, which changes the state whether or not the message can be sent. -/
def ibSendCmRej (id : CmId) : CmId :=
  match id.state with
  | .reqRcvd => { id with state := .idle }
  | .repSent => { id with state := .timewait }
  | _ => id

def ibSendCmDreq (sent : Bool) (id : CmId) : CmId :=
  if id.state = .established then { id with state := if sent then .dreqSent else .timewait }
  else id

/-- `ib_send_cm_drep`, which enters the timewait state before it sends. -/
def ibSendCmDrep (id : CmId) : CmId :=
  if id.state = .dreqRcvd then { id with state := .timewait } else id

/-- `cm_establish`, called by `ib_cm_notify` -/
def cmEstablish (id : CmId) : CmId :=
  if id.state = .repSent then { id with state := .established, establishing := true } else id

/-- `cm_process_send_error` for a REP. -/
def cmRepError (id : CmId) : Option CmId :=
  if id.state = .repSent then some { id with state := .idle } else none

def cmRejHandler (stale : Bool) (id : CmId) : Option CmId :=
  match id.state with
  | .reqRcvd | .repSent => some (id.queue (if stale then .timewait else .idle) .rejReceived)
  | .dreqSent | .established => some (id.queue .timewait .rejReceived)
  | .dreqRcvd | .timewait | .idle => none

def cmDreqHandler (id : CmId) : Option CmId :=
  match id.state with
  | .repSent | .dreqSent | .established => some (id.queue .dreqRcvd .dreqReceived)
  | .reqRcvd | .dreqRcvd | .timewait | .idle => none

def cmDrepHandler (id : CmId) : Option CmId :=
  if id.state = .dreqSent ∨ id.state = .dreqRcvd then some (id.queue .timewait .drepReceived)
  else none

/-- `cm_establish_handler` drops its work when the connection is no longer established. -/
def cmEstablishHandler (id : CmId) : Option CmId :=
  if id.establishing then
    if id.state = .established then
      some { id.queue .established .userEstablished with establishing := false }
    else some { id with establishing := false }
  else none

/-- The work handlers, and `cm_process_send_error` for a DREQ. -/
def cmWorkHandler (id : CmId) : CmInput → Option CmId
  | .rtu => if id.state = .repSent then some (id.queue .established .rtuReceived) else none
  | .dreq => id.cmDreqHandler
  | .drep => id.cmDrepHandler
  | .rej stale => id.cmRejHandler stale
  | .establish => id.cmEstablishHandler
  | .dreqError => if id.state = .dreqSent then some { id with state := .timewait } else none
  | .timewaitExit => if id.state = .timewait then some (id.queue .idle .timewaitExit) else none

end CmId

/-- The order of the work list. -/
structure Orderly (id : CmId) : Prop where
  fresh : id.state.age ≤ 1 → id.workList = []
  connected : id.finished = false → ∀ e ∈ id.workList, e.final = false
  ordered : id.workList.Pairwise fun a b => a.final = true → b.final = true
  ended : .dreqReceived ∈ id.workList → 4 ≤ id.state.age

/-- The connection is over and the driver has been told so. -/
structure Settled (id : CmId) : Prop where
  finished : id.finished = true
  final : ∀ e ∈ id.workList, e.final = true

theorem orderly_new : Orderly {} := by
  constructor
  · exact fun _ => rfl
  · exact fun _ _ h => absurd h List.not_mem_nil
  · exact .nil
  · exact fun h => absurd h List.not_mem_nil

section
variable {id id' : CmId}

theorem finished_iff (id : CmId) : id.finished = true ↔ 5 ≤ id.state.age := by
  unfold CmId.finished
  cases id.state <;> decide

theorem finished_of_le (h : id.finished = true) (hle : id.state.age ≤ id'.state.age) :
    id'.finished = true :=
  (finished_iff id').mpr (Nat.le_trans ((finished_iff id).mp h) hle)

theorem reqRcvd_of_le (hle : id.state.age ≤ id'.state.age) (h : id'.state = .reqRcvd) :
    id.state = .reqRcvd := by
  rw [h] at hle
  cases hstate : id.state with
  | reqRcvd => rfl
  | repSent | established | dreqSent | dreqRcvd | timewait | idle =>
      rw [hstate] at hle
      exact absurd hle (by decide)

theorem Orderly.changed (h : Orderly id) {state : IbCmState} (establishing : Bool)
    (hle : id.state.age ≤ state.age) (hstate : 2 ≤ state.age) :
    Orderly { id with state := state, establishing := establishing } := by
  constructor
  · exact fun hfresh => absurd (Nat.le_trans hstate hfresh) (by decide)
  · intro hopen
    apply h.connected
    by_contra hfinished
    rw [Bool.not_eq_false] at hfinished
    have hafter : ({ id with state := state } : CmId).finished = true :=
      finished_of_le hfinished hle
    exact absurd (hafter.symm.trans hopen) (by decide)
  · exact h.ordered
  · exact fun hdreq => Nat.le_trans (h.ended hdreq) hle

theorem Orderly.queued (h : Orderly id) {state : IbCmState} {e : CmEvent}
    (hle : id.state.age ≤ state.age) (hstate : 2 ≤ state.age)
    (hdreq : e = .dreqReceived → 4 ≤ state.age)
    (hevent : id.finished = false ∧ e.final = false ∨ 5 ≤ state.age ∧ e.final = true) :
    Orderly (id.queue state e) := by
  constructor
  · exact fun hfresh => absurd (Nat.le_trans hstate hfresh) (by decide)
  · intro hopen
    cases hevent with
    | inl hearly =>
        intro a ha
        cases List.mem_append.mp ha with
        | inl hold => exact h.connected hearly.1 a hold
        | inr hnew => exact (List.mem_singleton.mp hnew) ▸ hearly.2
    | inr hlate => exact absurd (((finished_iff _).mpr hlate.1).symm.trans hopen) (by decide)
  · apply List.pairwise_append.mpr
    refine ⟨h.ordered, List.pairwise_singleton _ _, ?_⟩
    intro a ha b hb hfinal
    cases List.mem_singleton.mp hb
    cases hevent with
    | inl hearly => exact absurd ((h.connected hearly.1 a ha).symm.trans hfinal) (by decide)
    | inr hlate => exact hlate.2
  · intro hmem
    cases List.mem_append.mp hmem with
    | inl hold => exact Nat.le_trans (h.ended hold) hle
    | inr hnew => exact hdreq (List.mem_singleton.mp hnew).symm

theorem Orderly.tail (h : Orderly id) {e : CmEvent} {rest : List CmEvent}
    (hlist : id.workList = e::rest) : Orderly { id with workList := rest } := by
  constructor
  · intro hfresh
    have hnil := h.fresh hfresh
    rw [hlist] at hnil
    cases hnil
  · exact fun hopen a ha => h.connected hopen a (hlist ▸ List.mem_cons_of_mem e ha)
  · have hordered := h.ordered
    rw [hlist] at hordered
    exact hordered.of_cons
  · exact fun hdreq => h.ended (hlist ▸ List.mem_cons_of_mem e hdreq)

/-- What is left after a final event is final too. -/
theorem Orderly.settled (h : Orderly id) {e : CmEvent} {rest : List CmEvent}
    (hlist : id.workList = e::rest) (hfinal : e.final = true) :
    Settled { id with workList := rest } := by
  have hmem : e ∈ id.workList := hlist ▸ List.mem_cons_self
  constructor
  · cases hfinished : id.finished with
    | true => exact hfinished
    | false => exact absurd ((h.connected hfinished e hmem).symm.trans hfinal) (by decide)
  · intro a ha
    have hordered := h.ordered
    rw [hlist] at hordered
    exact List.rel_of_pairwise_cons hordered ha hfinal

theorem Orderly.age_of_cons (h : Orderly id) {e : CmEvent} {rest : List CmEvent}
    (hlist : id.workList = e::rest) : 2 ≤ id.state.age := by
  by_contra hlt
  have hnil := h.fresh (by omega)
  rw [hlist] at hnil
  cases hnil

theorem finished_of_state {state : IbCmState} (hstate : id.state = state) (hopen : state.age < 5) :
    id.finished = false := by
  rw [← Bool.not_eq_true, finished_iff, hstate]
  omega

theorem Orderly.ibSendCmRep (h : Orderly id) {sent : Bool}
    (hsent : id.ibSendCmRep sent = some id') :
    Orderly id' ∧ id.state = .reqRcvd ∧ id'.state = .repSent := by
  unfold CmId.ibSendCmRep at hsent
  split_ifs at hsent with hguard
  cases hsent
  have hempty := h.fresh (hguard.1 ▸ (by decide))
  refine ⟨⟨fun _ => hempty, fun _ => ?_, h.ordered, fun hdreq => ?_⟩, hguard.1, rfl⟩
  · exact h.connected (finished_of_state hguard.1 (by decide))
  · rw [hempty] at hdreq
    cases hdreq

theorem Orderly.ibSendCmRej (h : Orderly id) : Orderly id.ibSendCmRej := by
  unfold CmId.ibSendCmRej
  split
  · rename_i hstate
    exact h.changed id.establishing (hstate ▸ (by decide)) (by decide)
  · rename_i hstate
    exact h.changed id.establishing (hstate ▸ (by decide)) (by decide)
  · exact h

theorem Orderly.ibSendCmDreq (h : Orderly id) (sent : Bool) : Orderly (id.ibSendCmDreq sent) := by
  unfold CmId.ibSendCmDreq
  by_cases hstate : id.state = .established
  · rw [if_pos hstate]
    cases sent with
    | true => exact h.changed id.establishing (hstate ▸ (by decide)) (by decide)
    | false => exact h.changed id.establishing (hstate ▸ (by decide)) (by decide)
  · rw [if_neg hstate]
    exact h

theorem Orderly.ibSendCmDrep (h : Orderly id) : Orderly id.ibSendCmDrep := by
  unfold CmId.ibSendCmDrep
  split_ifs with hstate
  · exact h.changed id.establishing (hstate ▸ (by decide)) (by decide)
  · exact h

theorem Orderly.cmEstablish (h : Orderly id) : Orderly id.cmEstablish := by
  unfold CmId.cmEstablish
  split_ifs with hstate
  · exact h.changed true (hstate ▸ (by decide)) (by decide)
  · exact h

theorem Orderly.cmRepError (h : Orderly id) (herror : id.cmRepError = some id') :
    Settled id' ∧ Orderly id' ∧ id.state = .repSent ∧ id'.state = .idle := by
  unfold CmId.cmRepError at herror
  split_ifs at herror with hstate
  cases herror
  have hempty := h.fresh (hstate ▸ (by decide))
  refine ⟨⟨rfl, ?_⟩, ?_, hstate, rfl⟩
  · intro e he
    rw [hempty] at he
    cases he
  · exact h.changed id.establishing (hstate ▸ (by decide)) (by decide)

inductive Handled (id : CmId) : CmInput → CmId → Prop
  | rtu : id.state = .repSent → Handled id .rtu (id.queue .established .rtuReceived)
  | dreq : id.state.age ≤ 3 → Handled id .dreq (id.queue .dreqRcvd .dreqReceived)
  | drep : id.state.age ≤ 4 → Handled id .drep (id.queue .timewait .drepReceived)
  | rej {stale : Bool} {state : IbCmState} : id.state.age ≤ 3 → 5 ≤ state.age →
      Handled id (.rej stale) (id.queue state .rejReceived)
  | established : id.state = .established →
      Handled id .establish { id.queue .established .userEstablished with establishing := false }
  | dropped : Handled id .establish { id with establishing := false }
  | dreqError : id.state = .dreqSent → Handled id .dreqError { id with state := .timewait }
  | timewaitExit : id.state = .timewait → Handled id .timewaitExit (id.queue .idle .timewaitExit)

theorem handled_of_rej {stale : Bool} (h : id.cmRejHandler stale = some id') :
    Handled id (.rej stale) id' := by
  unfold CmId.cmRejHandler at h
  cases hstate : id.state with
  | reqRcvd | repSent =>
      rw [hstate] at h
      cases h
      apply Handled.rej (hstate ▸ (by decide))
      cases stale <;> decide
  | established | dreqSent =>
      rw [hstate] at h
      cases h
      exact .rej (hstate ▸ (by decide)) (by decide)
  | dreqRcvd | timewait | idle =>
      rw [hstate] at h
      cases h

theorem handled_of_dreq (h : id.cmDreqHandler = some id') : Handled id .dreq id' := by
  unfold CmId.cmDreqHandler at h
  cases hstate : id.state with
  | repSent | dreqSent | established =>
      rw [hstate] at h
      cases h
      exact .dreq (hstate ▸ (by decide))
  | reqRcvd | dreqRcvd | timewait | idle =>
      rw [hstate] at h
      cases h

theorem handled_of_drep (h : id.cmDrepHandler = some id') : Handled id .drep id' := by
  unfold CmId.cmDrepHandler at h
  split_ifs at h with hstate
  cases h
  apply Handled.drep
  cases hstate with
  | inl hsent => exact hsent ▸ (by decide)
  | inr hrcvd => exact hrcvd ▸ (by decide)

theorem handled_of_work {input : CmInput} (h : id.cmWorkHandler input = some id') :
    Handled id input id' := by
  cases input with
  | rtu =>
      simp only [CmId.cmWorkHandler] at h
      split_ifs at h with hstate
      cases h
      exact .rtu hstate
  | dreq => exact handled_of_dreq h
  | drep => exact handled_of_drep h
  | rej stale => exact handled_of_rej h
  | establish =>
      simp only [CmId.cmWorkHandler, CmId.cmEstablishHandler] at h
      split_ifs at h with _ hstate
      · cases h
        exact .established hstate
      · cases h
        exact .dropped
  | dreqError =>
      simp only [CmId.cmWorkHandler] at h
      split_ifs at h with hstate
      cases h
      exact .dreqError hstate
  | timewaitExit =>
      simp only [CmId.cmWorkHandler] at h
      split_ifs at h with hstate
      cases h
      exact .timewaitExit hstate

theorem Handled.age_le {input : CmInput} (h : Handled id input id') :
    id.state.age ≤ id'.state.age := by
  cases h with
  | rtu hstate => simp [CmId.queue, hstate, IbCmState.age]
  | dreq hle => exact Nat.le_succ_of_le hle
  | drep hle => exact Nat.le_succ_of_le hle
  | rej hle hstate => exact Nat.le_trans (Nat.le_trans hle (by decide)) hstate
  | established hstate => simp [CmId.queue, hstate, IbCmState.age]
  | dropped => exact Nat.le_refl _
  | dreqError hstate => simp [hstate, IbCmState.age]
  | timewaitExit hstate => simp [CmId.queue, hstate, IbCmState.age]

theorem Orderly.handled (h : Orderly id) {input : CmInput} (hhandled : Handled id input id') :
    Orderly id' := by
  have hle := hhandled.age_le
  cases hhandled with
  | rtu hstate =>
      have hopen := finished_of_state hstate (by decide)
      exact h.queued hle (by decide) nofun (Or.inl ⟨hopen, rfl⟩)
  | dreq hage =>
      have hopen := finished_of_state rfl (Nat.lt_of_le_of_lt hage (by decide))
      exact h.queued hle (by decide) (fun _ => by decide) (Or.inl ⟨hopen, rfl⟩)
  | drep _ => exact h.queued hle (by decide) nofun (Or.inr ⟨by decide, rfl⟩)
  | rej _ hstate =>
      exact h.queued hle (Nat.le_trans (by decide) hstate) nofun (Or.inr ⟨hstate, rfl⟩)
  | established hstate =>
      have hopen := finished_of_state hstate (by decide)
      have hqueued : Orderly (id.queue .established .userEstablished) :=
        h.queued hle (by decide) nofun (Or.inl ⟨hopen, rfl⟩)
      exact ⟨hqueued.fresh, hqueued.connected, hqueued.ordered, hqueued.ended⟩
  | dropped => exact ⟨h.fresh, h.connected, h.ordered, h.ended⟩
  | dreqError _ => exact h.changed id.establishing hle (by decide)
  | timewaitExit _ => exact h.queued hle (by decide) nofun (Or.inr ⟨by decide, rfl⟩)

theorem Settled.handled (h : Settled id) {input : CmInput} (hhandled : Handled id input id') :
    Settled id' := by
  refine ⟨finished_of_le h.finished hhandled.age_le, ?_⟩
  have hage : 5 ≤ id.state.age := (finished_iff id).mp h.finished
  cases hhandled with
  | rtu hstate => exact absurd hage (hstate ▸ (by decide))
  | dreq hle => omega
  | drep hle => omega
  | rej hle _ => omega
  | established hstate => exact absurd hage (hstate ▸ (by decide))
  | dropped => exact h.final
  | dreqError _ => exact h.final
  | timewaitExit _ =>
      intro e he
      cases List.mem_append.mp he with
      | inl hold => exact h.final e hold
      | inr hnew => exact (List.mem_singleton.mp hnew) ▸ rfl

/-- Only a DREQ makes a CM ID wait for a DREP, and it is queued. -/
theorem Handled.dreqRcvd {input : CmInput} (h : Handled id input id')
    (hstate : id'.state = .dreqRcvd) :
    .dreqReceived ∈ id'.workList ∨ id.state = .dreqRcvd ∧ id'.workList = id.workList := by
  cases h with
  | dreq _ => exact Or.inl (List.mem_append_right _ (List.mem_singleton_self _))
  | dropped => exact Or.inr ⟨hstate, rfl⟩
  | rtu _ | drep _ | established _ | dreqError _ | timewaitExit _ => cases hstate
  | rej _ hage =>
      cases hstate
      exact absurd hage (by decide)

theorem age_ibSendCmDrep (id : CmId) : id.state.age ≤ id.ibSendCmDrep.state.age := by
  unfold CmId.ibSendCmDrep
  split_ifs with hstate
  · simp [hstate, IbCmState.age]
  · exact Nat.le_refl _

theorem age_cmEstablish (id : CmId) : id.state.age ≤ id.cmEstablish.state.age := by
  unfold CmId.cmEstablish
  split_ifs with hstate
  · simp [hstate, IbCmState.age]
  · exact Nat.le_refl _

/-- After a REJ and a DREQ nothing is left of a connection. -/
theorem age_ibSendCmRej_ibSendCmDreq (id : CmId) (sent : Bool) :
    3 ≤ (id.ibSendCmRej.ibSendCmDreq sent).state.age := by
  cases hstate : id.state <;> cases sent <;>
    simp [CmId.ibSendCmRej, CmId.ibSendCmDreq, hstate, IbCmState.age]

theorem age_ibSendCmDreq_of_two_le (h : 2 ≤ id.state.age) (sent : Bool) :
    3 ≤ (id.ibSendCmDreq sent).state.age := by
  unfold CmId.ibSendCmDreq
  by_cases hstate : id.state = .established
  · rw [if_pos hstate]
    cases sent <;> simp [IbCmState.age]
  · rw [if_neg hstate]
    cases hs : id.state with
    | established => exact absurd hs hstate
    | reqRcvd | repSent =>
        rw [hs] at h
        exact absurd h (by decide)
    | dreqSent | dreqRcvd | timewait | idle => decide

theorem cmEstablish_of_finished (h : id.finished = true) : id.cmEstablish = id := by
  apply if_neg
  intro hstate
  rw [finished_of_state hstate (by decide)] at h
  cases h

end

end IbSrp.CmIdentifier

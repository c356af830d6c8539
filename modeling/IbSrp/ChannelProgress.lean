import IbSrp.ChannelRelease

/-!
# Which channels of the target get stuck

A draining channel waits for the HCA: nothing but the report of the last work request
makes it releasing. So whoever sets the state to draining must go on to put the queue pair
into the error state, and nobody may have used up the report before. And a channel becomes
draining only for a final event of the connection manager. The CM owes one to almost every
channel, since a REP or a DREQ that gets no answer ends in the timewait state or in an error.

There are two exceptions. If the target closes a channel when the CM has received a DREQ but
the handler has not yet seen it, `ib_send_cm_dreq` fails, `srpt_cm_dreq_recv` finds the channel
disconnecting and sends no DREP either, and the CM ID stays where it is. And if the REP gets
no answer before the login has put the channel on the list, `srpt_drain_channel` does not find
it. `Abandoned` says so; from every other state the steps of the target, the CM and the HCA
lead to the end of the release, and `rank` counts the steps that are missing.

The second half is about a login with SRP_MULTICHAN_SINGLE, which has to end every other
channel of its initiator. It closes the channels it finds on the list, and a closed channel
never becomes live again.
-/
namespace IbSrp.ChannelProgress
open LabelledRuns CmIdentifier ChannelRelease

/-- A queue pair enters the error state whenever the driver tells it to. -/
def ResetWorks (_ : State) : Event → Prop
  | .ch _ (.qpErr ok) => ok = true
  | _ => True

def Reliable (s : State) (e : Event) : Prop := Assumed s e ∧ ResetWorks s e

structure ReliableEvent (c : Ch) (e : ChEvent) : Prop where
  err : e ≠ .qpError
  reset : e ≠ .qpErr false
  post : e = .post → c.hasSess = true

theorem reliableEvent_of {s : State} {k : ℕ} {e : ChEvent} (h : Reliable s (.ch k e)) {c : Ch}
    (hk : s[k]? = some c) : ReliableEvent c e := by
  constructor
  · rintro rfl
    exact h.1.1
  · rintro rfl
    cases h.2
  · rintro rfl
    exact h.1.2 c hk

/-- What the state of the CM ID says about the channel. -/
structure Kept (c : Ch) : Prop where
  pending : c.state = .draining → c.handler = .resetting ∨ c.lastWqe = true
  login : c.cm.state = .reqRcvd → c.work = .none → c.handler = .replying
  live : c.state = .live → 2 ≤ c.cm.state.age
  connected : c.cm.state.age ≤ 2 → c.work = .none → c.active = true
  answered : c.cm.state = .dreqRcvd → c.active = true → .dreqReceived ∈ c.cm.workList
  released : c.releaseDone = true → c.active = false

theorem kept_new (nexus : ℕ) : Kept { nexus := nexus } := by
  constructor
  · nofun
  · exact fun _ _ => rfl
  · nofun
  · exact fun _ _ => rfl
  · nofun
  · nofun

section
variable {c c' : Ch} {e : ChEvent}

theorem close_active (c : Ch) (sent : Bool) : (c.close sent).active = false := by
  unfold Ch.close
  split_ifs with hactive
  · rfl
  · exact Bool.eq_false_iff.mpr hactive

theorem close_work (c : Ch) (sent : Bool) : (c.close sent).work = c.work := by
  unfold Ch.close Ch.use
  split_ifs <;> rfl

theorem close_lastWqe (c : Ch) (sent : Bool) : (c.close sent).lastWqe = c.lastWqe := by
  unfold Ch.close Ch.use
  split_ifs <;> rfl

theorem close_draining {sent : Bool} (h : (c.close sent).state = .draining) :
    c.state = .draining := by
  unfold Ch.close at h
  split_ifs at h
  exact h

theorem close_not_live (c : Ch) (sent : Bool) : (c.close sent).state ≠ .live := by
  intro hlive
  have hactive := (active_iff _).mpr (Or.inr hlive)
  rw [close_active] at hactive
  cases hactive

theorem close_age (h : Kept c) (hwork : c.work = .none) (sent : Bool) :
    3 ≤ (c.close sent).cm.state.age := by
  unfold Ch.close
  split_ifs with hactive
  · change 3 ≤ (c.closeCm sent).state.age
    unfold Ch.closeCm
    split_ifs with hstate
    · exact age_ibSendCmRej_ibSendCmDreq c.cm sent
    · have hlive := ((active_iff c).mp hactive).resolve_left hstate
      exact age_ibSendCmDreq_of_two_le (h.live hlive) sent
  · by_contra hlt
    exact hactive (h.connected (Nat.le_of_lt_succ (Nat.lt_of_not_le hlt)) hwork)

theorem Kept.close (h : Kept c) (sent : Bool) : Kept (c.close sent) := by
  have hinactive := close_active c sent
  constructor
  · intro hstate
    rw [close_handler, close_lastWqe]
    exact h.pending (close_draining hstate)
  · intro hstate hwork
    have hage := close_age h ((close_work c sent).symm.trans hwork) sent
    rw [hstate] at hage
    exact absurd hage (by decide)
  · exact fun hlive => absurd hlive (close_not_live c sent)
  · intro hage hwork
    have hclosed := close_age h ((close_work c sent).symm.trans hwork) sent
    exact absurd (Nat.le_trans hclosed hage) (by decide)
  · exact fun _ hactive => absurd (hactive.symm.trans hinactive) (by decide)
  · exact fun _ => hinactive

theorem Kept.lastWqe_of (h : Kept c) (hstate : c.state = .draining)
    (hhandler : c.handler ≠ .resetting) : c.lastWqe = true :=
  (h.pending hstate).resolve_left hhandler

/-- Somebody is still going to move a channel out of the draining state. -/
theorem Kept.moved_pending (h : Kept c) (hgood : Good c) (he : ReliableEvent c e)
    (hmoved : Moved c e c') (hstate : c'.state = .draining) :
    c'.handler = .resetting ∨ c'.lastWqe = true := by
  cases hmoved with
  | repSent hhandler _ => exact Or.inr (h.lastWqe_of hstate (hhandler ▸ (by decide)))
  | repFailed _ | rtu _ _ _ _ _ _ | dreq _ _ _ _ | lastWqe _ _ _ => cases hstate
  | unwoundAll hhandler => exact Or.inr (h.lastWqe_of hstate (hhandler ▸ (by decide)))
  | listAdd hhandler => exact Or.inr (h.lastWqe_of hstate (hhandler ▸ (by decide)))
  | repError _ _ _ | drained _ _ _ _ _ => exact Or.inl rfl
  | qpRts hhandler => exact Or.inr (h.lastWqe_of hstate (hhandler ▸ (by decide)))
  | @closeCh sent hhandler =>
      have hlast := h.lastWqe_of (close_draining hstate) (hhandler ▸ (by decide))
      exact Or.inr ((close_lastWqe c sent).trans hlast)
  | drep hhandler => exact Or.inr (h.lastWqe_of hstate (hhandler ▸ (by decide)))
  | @qpErr ok hhandler =>
      cases ok with
      | false => exact absurd rfl he.reset
      | true =>
          have hdraining := hgood.phase.draining_of hhandler
          have hlast := (hdraining.reset hhandler true).lastWqe
          exact Or.inr (hlast.trans (Bool.or_true _))
  | lastWqeIgnored _ _ hother => exact absurd hstate hother
  | @closeSession sent _ _ => exact (h.close sent).pending hstate
  | qpError => exact Or.inr rfl
  | _ => exact h.pending hstate

/-- The CM ID of a channel leaves the state of the REQ with the REP. -/
theorem Kept.moved_login (h : Kept c) (hgood : Good c) (hmoved : Moved c e c')
    (hstate : c'.cm.state = .reqRcvd) (hwork : c'.work = .none) : c'.handler = .replying := by
  cases hmoved with
  | repSent _ hsent =>
      have hafter := (hgood.orderly.ibSendCmRep hsent).2.2
      exact absurd (hafter.symm.trans hstate) (by decide)
  | repFailed _ | unwoundAll _ | lastWqe _ _ _ => cases hwork
  | listDel _ _ | destroyCm _ _ | free _ _ => cases hwork
  | unwound _ hw => exact absurd hwork (common_ne hw).1
  | worked _ _ hw => exact absurd hwork (common_ne hw).1
  | listAdd hhandler => exact absurd ((h.login hstate hwork).symm.trans hhandler) (by decide)
  | cm hhandled => exact h.login (reqRcvd_of_le hhandled.age_le hstate) hwork
  | repError _ _ herror | repErrorLost _ herror =>
      have hafter := (hgood.orderly.cmRepError herror).2.2.2
      exact absurd (hafter.symm.trans hstate) (by decide)
  | commEst _ => exact h.login (reqRcvd_of_le (age_cmEstablish c.cm) hstate) hwork
  | rtu hidle _ _ _ _ _ | dreq hidle _ _ _ | drained hidle _ _ _ _ =>
      exact absurd ((h.login hstate hwork).symm.trans hidle) (by decide)
  | qpRts hhandler => exact absurd ((h.login hstate hwork).symm.trans hhandler) (by decide)
  | @closeCh sent hhandler =>
      have hreplying := (h.close sent).login hstate hwork
      rw [close_handler, hhandler] at hreplying
      cases hreplying
  | @closeSession sent _ _ => exact (h.close sent).login hstate hwork
  | drep hhandler =>
      have hbefore := h.login (reqRcvd_of_le (age_ibSendCmDrep c.cm) hstate) hwork
      exact absurd (hbefore.symm.trans hhandler) (by decide)
  | qpErr hhandler => exact absurd ((h.login hstate hwork).symm.trans hhandler) (by decide)
  | _ => exact h.login hstate hwork

theorem Kept.moved_live (h : Kept c) (hgood : Good c) (hmoved : Moved c e c')
    (hstate : c'.state = .live) : 2 ≤ c'.cm.state.age := by
  cases hmoved with
  | repSent hhandler _ =>
      have hlogin := (hgood.phase.opening_of (Or.inl hhandler)).state
      rw [show c.state = .live from hstate] at hlogin
      exact absurd hlogin (by decide)
  | repFailed _ | repError _ _ _ | dreq _ _ _ _ | drained _ _ _ _ _ | lastWqe _ _ _ => cases hstate
  | cm hhandled => exact Nat.le_trans (h.live hstate) hhandled.age_le
  | repErrorLost _ herror =>
      rw [(hgood.orderly.cmRepError herror).2.2.2]
      decide
  | commEst _ => exact Nat.le_trans (h.live hstate) (age_cmEstablish c.cm)
  | rtu _ _ hlist _ _ _ =>
      have hage := hgood.orderly.age_of_cons hlist
      exact hage
  | @closeCh sent _ => exact (h.close sent).live hstate
  | @closeSession sent _ _ => exact (h.close sent).live hstate
  | drep _ => exact Nat.le_trans (h.live hstate) (age_ibSendCmDrep c.cm)
  | _ => exact h.live hstate

/-- As long as nobody has ended the connection the channel is active. -/
theorem Kept.moved_connected (h : Kept c) (hgood : Good c) (hmoved : Moved c e c')
    (hage : c'.cm.state.age ≤ 2) (hwork : c'.work = .none) : c'.active = true := by
  cases hmoved with
  | repSent _ hsent =>
      have hbefore := (hgood.orderly.ibSendCmRep hsent).2.1
      exact h.connected (by rw [hbefore]; decide) hwork
  | repFailed _ | unwoundAll _ | lastWqe _ _ _ => cases hwork
  | listDel _ _ | destroyCm _ _ | free _ _ => cases hwork
  | unwound _ hw => exact absurd hwork (common_ne hw).1
  | worked _ _ hw => exact absurd hwork (common_ne hw).1
  | cm hhandled => exact h.connected (Nat.le_trans hhandled.age_le hage) hwork
  | repError _ _ herror | repErrorLost _ herror =>
      rw [(hgood.orderly.cmRepError herror).2.2.2] at hage
      exact absurd hage (by decide)
  | commEst _ => exact h.connected (Nat.le_trans (age_cmEstablish c.cm) hage) hwork
  | rtu _ _ _ _ _ _ => rfl
  | dreq _ _ hlist _ =>
      have hended := hgood.orderly.ended (hlist ▸ List.mem_cons_self)
      exact absurd (Nat.le_trans hended hage) (by decide)
  | drained _ hlist hfinal _ _ =>
      have hfinished := (finished_iff _).mp (hgood.orderly.settled hlist hfinal).finished
      exact absurd (Nat.le_trans hfinished hage) (by decide)
  | @closeCh sent _ => exact (h.close sent).connected hage hwork
  | @closeSession sent _ _ => exact (h.close sent).connected hage hwork
  | drep _ => exact h.connected (Nat.le_trans (age_ibSendCmDrep c.cm) hage) hwork
  | _ => exact h.connected hage hwork

theorem dreqReceived_mem_rest {id : CmId} {e : CmEvent} {rest : List CmEvent}
    (hmem : .dreqReceived ∈ id.workList) (hlist : id.workList = e::rest)
    (hne : e ≠ .dreqReceived) : .dreqReceived ∈ rest := by
  rw [hlist] at hmem
  cases List.mem_cons.mp hmem with
  | inl heq => exact absurd heq.symm hne
  | inr hrest => exact hrest

/-- The handler will see a DREQ that the CM has received before the channel was closed. -/
theorem Kept.moved_answered (h : Kept c) (hgood : Good c) (hmoved : Moved c e c')
    (hstate : c'.cm.state = .dreqRcvd) (hactive : c'.active = true) :
    .dreqReceived ∈ c'.cm.workList := by
  cases hmoved with
  | repSent _ hsent =>
      have hafter := (hgood.orderly.ibSendCmRep hsent).2.2
      exact absurd (hafter.symm.trans hstate) (by decide)
  | repFailed _ | repError _ _ _ | dreq _ _ _ _ | drained _ _ _ _ _ | lastWqe _ _ _ => cases hactive
  | cm hhandled =>
      cases hhandled.dreqRcvd hstate with
      | inl hmem => exact hmem
      | inr hsame =>
          rw [hsame.2]
          exact h.answered hsame.1 hactive
  | repErrorLost _ herror =>
      have hafter := (hgood.orderly.cmRepError herror).2.2.2
      exact absurd (hafter.symm.trans hstate) (by decide)
  | commEst _ =>
      simp only [CmId.cmEstablish] at hstate ⊢
      split_ifs at hstate ⊢
      exact h.answered hstate hactive
  | rtu _ _ hlist _ hne hconnecting =>
      have hbefore := h.answered hstate ((active_iff c).mpr (Or.inl hconnecting))
      exact dreqReceived_mem_rest hbefore hlist hne
  | ignored _ _ hlist _ hne =>
      have hactive : c.active = true := hactive
      have hne := hne.resolve_left (by rw [hactive]; decide)
      exact dreqReceived_mem_rest (h.answered hstate hactive) hlist hne
  | drainedBefore _ _ hlist hfinal _ =>
      apply dreqReceived_mem_rest (h.answered hstate hactive) hlist
      rintro rfl
      cases hfinal
  | @closeCh sent _ => exact (h.close sent).answered hstate hactive
  | @closeSession sent _ _ => exact (h.close sent).answered hstate hactive
  | drep _ =>
      simp only [CmId.ibSendCmDrep] at hstate
      split_ifs at hstate with hbefore
      exact absurd hstate hbefore
  | _ => exact h.answered hstate hactive

theorem Kept.moved_released (h : Kept c) (hmoved : Moved c e c')
    (hdone : c'.releaseDone = true) : c'.active = false := by
  cases hmoved with
  | repFailed _ | repError _ _ _ | dreq _ _ _ _ | drained _ _ _ _ _ | lastWqe _ _ _ => rfl
  | rtu _ _ _ _ _ hconnecting =>
      have hactive := (active_iff c).mpr (Or.inl hconnecting)
      exact absurd (hactive.symm.trans (h.released hdone)) (by decide)
  | @closeCh sent _ => exact close_active c sent
  | @closeSession sent _ _ => exact close_active c sent
  | _ => exact h.released hdone

theorem Kept.moved (h : Kept c) (hgood : Good c) (he : ReliableEvent c e)
    (hmoved : Moved c e c') : Kept c' :=
  ⟨h.moved_pending hgood he hmoved, h.moved_login hgood hmoved, h.moved_live hgood hmoved,
    h.moved_connected hgood hmoved, h.moved_answered hgood hmoved, h.moved_released hmoved⟩

end

structure Sound (c : Ch) : Prop where
  good : Good c
  kept : Kept c

theorem Sound.moved {c c' : Ch} {e : ChEvent} (h : Sound c) (he : ReliableEvent c e)
    (hmoved : Moved c e c') : Sound c' :=
  ⟨h.good.moved he.err he.post hmoved, h.kept.moved h.good he hmoved⟩

theorem sound_of_run {s : State} (hrun : Run step Reliable [] s) : ∀ c ∈ s, Sound c := by
  apply hrun.invariant
  · exact fun c hc => (List.not_mem_nil hc).elim
  · intro s e s' h hok hstep
    apply forall_step ReliableEvent (fun nexus => ⟨good_new nexus, kept_new nexus⟩)
      (fun c sent hc hlisted => ⟨hc.good.closeListed hlisted sent, hc.kept.close sent⟩)
      (fun c e c' hc he hmoved => hc.moved he hmoved) _ hstep h
    intro k e' c he hk
    rw [he] at hok
    exact reliableEvent_of hok hk

/-- The channel waits for an event that nobody but the initiator can bring about, or nobody at
all. -/
structure Abandoned (c : Ch) : Prop where
  work : c.work = .none
  state : c.state ≠ .draining
  handler : c.handler ≠ .replying
  silent : c.cm.state = .dreqRcvd ∧ c.handler ≠ .drep ∧ (c.active = false ∨ c.handler = .closing) ∨
    c.cm.state = .idle ∧ ∀ e ∈ c.cm.workList, e.final = false

/-- The events that need no message of the initiator. -/
def Own : ChEvent → Prop
  | .cm input => input = .establish ∨ input = .dreqError ∨ input = .timewaitExit
  | .qpErr ok => ok = true
  | .commEst | .qpError | .post => False
  | .rep _ | .unwind | .listAdd | .repError | .deliver | .qpRts _ | .closeCh _ | .drep | .lastWqe
  | .work | .closeSession _ | .complete => True

section
variable {c c' : Ch} {e : ChEvent}

theorem close_cm_of_ended (h : 3 ≤ c.cm.state.age) (sent : Bool) : (c.close sent).cm = c.cm := by
  have hdreq : c.cm.ibSendCmDreq sent = c.cm := by
    apply if_neg
    intro hstate
    rw [hstate] at h
    exact absurd h (by decide)
  have hrej : c.cm.ibSendCmRej = c.cm := by
    unfold CmId.ibSendCmRej
    cases hstate : c.cm.state with
    | reqRcvd | repSent =>
        rw [hstate] at h
        exact absurd h (by decide)
    | established | dreqSent | dreqRcvd | timewait | idle => rfl
  unfold Ch.close
  split_ifs
  · change c.closeCm sent = c.cm
    unfold Ch.closeCm
    rw [hrej, hdreq, ite_self]
  · rfl

theorem Abandoned.age (h : Abandoned c) : 4 ≤ c.cm.state.age := by
  cases h.silent with
  | inl hdreq => exact hdreq.1 ▸ (by decide)
  | inr hidle => exact hidle.1 ▸ (by decide)

theorem Abandoned.not_final (h : Abandoned c) (hgood : Good c) :
    ∀ e ∈ c.cm.workList, e.final = false := by
  cases h.silent with
  | inl hdreq => exact hgood.orderly.connected (finished_of_state hdreq.1 (by decide))
  | inr hidle => exact hidle.2

/-- The handler of an abandoned channel goes on, and it may be closed. -/
theorem Abandoned.went (h : Abandoned c) (hwork : c'.work = .none) (hstate : c'.state ≠ .draining)
    (hhandler : c'.handler ≠ .replying ∧ c'.handler ≠ .drep) (hcm : c'.cm.state = c.cm.state)
    (hlist : ∀ e ∈ c'.cm.workList, e ∈ c.cm.workList)
    (hactive : c.cm.state = .dreqRcvd → c'.active = false ∨ c'.handler = .closing) :
    Abandoned c' := by
  refine ⟨hwork, hstate, hhandler.1, ?_⟩
  cases h.silent with
  | inl hdreq => exact Or.inl ⟨hcm.trans hdreq.1, hhandler.2, hactive hdreq.1⟩
  | inr hidle => exact Or.inr ⟨hcm.trans hidle.1, fun e he => hidle.2 e (hlist e he)⟩

theorem Abandoned.inactive (h : Abandoned c) (hhandler : c.handler ≠ .closing)
    (hstate : c.cm.state = .dreqRcvd) : c.active = false := by
  cases h.silent with
  | inl hdreq => exact hdreq.2.2.resolve_right hhandler
  | inr hidle => exact absurd (hstate.symm.trans hidle.1) (by decide)

/-- The work handlers of the CM do nothing for an abandoned channel. -/
theorem Abandoned.handled (h : Abandoned c) {input : CmInput} {cm : CmId} (hown : Own (.cm input))
    (hhandled : Handled c.cm input cm) : Abandoned { c with cm := cm } := by
  have hage := h.age
  cases hhandled with
  | dropped => exact ⟨h.work, h.state, h.handler, h.silent⟩
  | established hstate | dreqError hstate =>
      rw [hstate] at hage
      exact absurd hage (by decide)
  | timewaitExit hstate =>
      cases h.silent with
      | inl hdreq => exact absurd (hstate.symm.trans hdreq.1) (by decide)
      | inr hidle => exact absurd (hstate.symm.trans hidle.1) (by decide)
  | rtu _ | dreq _ | drep _ | rej _ _ => simp [Own] at hown

/-- Without the initiator an abandoned channel stays abandoned. -/
theorem Abandoned.moved (h : Abandoned c) (hgood : Good c) (hown : Own e) (hmoved : Moved c e c') :
    Abandoned c' := by
  have hwork := h.work
  cases hmoved with
  | repSent hhandler _ => exact absurd hhandler h.handler
  | repFailed hhandler => exact absurd hhandler h.handler
  | unwound hhandler _ | unwoundAll hhandler =>
      have hunwinding := (hgood.phase.unwinding_of hhandler).work
      rw [hwork] at hunwinding
      exact absurd hunwinding (by decide)
  | listAdd hhandler =>
      exact h.went hwork h.state ⟨nofun, nofun⟩ rfl (fun _ he => he)
        fun hstate => Or.inl (h.inactive (hhandler ▸ (by decide)) hstate)
  | cm hhandled => exact h.handled hown hhandled
  | repError _ _ herror | repErrorLost _ herror =>
      have hage := h.age
      rw [(hgood.orderly.cmRepError herror).2.2.1] at hage
      exact absurd hage (by decide)
  | commEst _ | qpError | post => exact hown.elim
  | rtu hidle _ hlist _ _ hconnecting =>
      refine h.went hwork nofun ⟨nofun, nofun⟩ rfl
        (fun e he => hlist ▸ List.mem_cons_of_mem _ he) ?_
      intro hstate
      have hactive := (active_iff c).mpr (Or.inl hconnecting)
      exact absurd (hactive.symm.trans (h.inactive (hidle ▸ (by decide)) hstate)) (by decide)
  | dreq hidle _ hlist hactive =>
      cases h.silent with
      | inl hdreq =>
          have hinactive := h.inactive (hidle ▸ (by decide)) hdreq.1
          exact absurd (hactive.symm.trans hinactive) (by decide)
      | inr hsilent =>
          exact ⟨hwork, nofun, nofun, Or.inr ⟨hsilent.1, fun e he =>
            hsilent.2 e (hlist ▸ List.mem_cons_of_mem _ he)⟩⟩
  | ignored hidle _ hlist _ _ =>
      exact h.went hwork h.state ⟨h.handler, fun hdrep => by cases hidle.symm.trans hdrep⟩ rfl
        (fun e he => hlist ▸ List.mem_cons_of_mem _ he)
        fun hstate => Or.inl (h.inactive (hidle ▸ (by decide)) hstate)
  | drained _ hlist hfinal _ _ | drainedBefore _ _ hlist hfinal _ =>
      have hearly := h.not_final hgood _ (hlist ▸ List.mem_cons_self)
      exact absurd (hfinal.symm.trans hearly) (by decide)
  | @qpRts ok hhandler =>
      refine h.went hwork h.state ?_ rfl (fun _ he => he)
        fun hstate => Or.inl (h.inactive (hhandler ▸ (by decide)) hstate)
      cases ok <;> exact ⟨nofun, nofun⟩
  | @closeCh sent _ =>
      have hcm := close_cm_of_ended (Nat.le_of_succ_le h.age) sent
      exact h.went ((close_work c sent).trans hwork) (fun hd => h.state (close_draining hd))
        ⟨nofun, nofun⟩ (by rw [hcm]) (fun e he => hcm ▸ he) fun _ => Or.inl (close_active c sent)
  | drep hhandler =>
      cases h.silent with
      | inl hdreq => exact absurd hhandler hdreq.2.1
      | inr hidle =>
          have hcm : c.cm.ibSendCmDrep = c.cm := if_neg (hidle.1 ▸ (by decide))
          exact ⟨hwork, h.state, nofun, Or.inr (by rw [hcm]; exact hidle)⟩
  | qpErr hhandler => exact absurd (hgood.phase.draining_of hhandler).state h.state
  | lastWqe _ _ hdraining => exact absurd hdraining h.state
  | lastWqeIgnored hqp hlast _ =>
      exact absurd (hgood.phase.draining_of_lastWqe hqp hlast).state h.state
  | worked _ hbegun _ =>
      rw [hwork] at hbegun
      exact absurd hbegun (by decide)
  | listDel _ hother | destroyCm _ hother | free _ hother => cases hwork.symm.trans hother
  | @closeSession sent _ _ =>
      have hcm := close_cm_of_ended (Nat.le_of_succ_le h.age) sent
      refine ⟨(close_work c sent).trans hwork, fun hd => h.state (close_draining hd),
        (close_handler c sent).symm ▸ h.handler, ?_⟩
      change (c.close sent).cm.state = _ ∧ (c.close sent).handler ≠ _ ∧ _ ∨
        (c.close sent).cm.state = _ ∧ _
      rw [hcm, close_handler]
      exact h.silent.imp_left fun hdreq => ⟨hdreq.1, hdreq.2.1, Or.inl (close_active c sent)⟩
  | complete _ => exact ⟨hwork, h.state, h.handler, h.silent⟩

end

def left : Work → ℕ
  | .none => 8
  | .begun => 7
  | .sess => 6
  | .thread => 5
  | .ib => 4
  | .ring => 3
  | .unlisted => 2
  | .cm => 1
  | .done => 0

section
variable {c : Ch}

end

instance (s : State) (e : Event) : Decidable (ResetWorks s e) :=
  match e with
  | .ch _ (.qpErr ok) => inferInstanceAs (Decidable (ok = true))
  | .req _ _ _ _ | .releaseSdev _ | .ch _ (.rep _) | .ch _ .unwind | .ch _ .listAdd
  | .ch _ (.cm _) | .ch _ .repError | .ch _ .commEst | .ch _ .deliver | .ch _ (.qpRts _)
  | .ch _ (.closeCh _) | .ch _ .drep | .ch _ .qpError | .ch _ .lastWqe | .ch _ .work
  | .ch _ (.closeSession _) | .ch _ .complete | .ch _ .post => isTrue trivial

instance (s : State) (e : Event) : Decidable (Reliable s e) :=
  inferInstanceAs (Decidable (Assumed s e ∧ ResetWorks s e))

section
variable {c c' : Ch}

/-- A channel that has been closed stays closed. -/
theorem moved_active {e : ChEvent} (hmoved : Moved c e c') (h : c.active = false) :
    c'.active = false := by
  cases hmoved with
  | rtu _ _ _ _ _ hconnecting =>
      have hactive := (active_iff c).mpr (Or.inl hconnecting)
      exact absurd (hactive.symm.trans h) (by decide)
  | @closeCh sent _ => exact close_active c sent
  | @closeSession sent _ _ => exact close_active c sent
  | dreq _ _ _ _ | repFailed _ | repError _ _ _ | drained _ _ _ _ _ | lastWqe _ _ _ => rfl
  | _ => exact h

theorem close_nexus (c : Ch) (sent : Bool) : (c.close sent).nexus = c.nexus := by
  unfold Ch.close Ch.use
  split_ifs <;> rfl

theorem moved_nexus {e : ChEvent} (hmoved : Moved c e c') : c'.nexus = c.nexus := by
  cases hmoved with
  | @closeCh sent _ => exact close_nexus c sent
  | @closeSession sent _ _ => exact close_nexus c sent
  | _ => rfl

end

/-- The first `n` channels of a nexus are closed. -/
def Replaced (nexus n : ℕ) (s : State) : Prop :=
  n ≤ s.length ∧ ∀ i < n, ∀ c, s[i]? = some c → c.nexus = nexus → c.active = false

section
variable {nexus n : ℕ} {s s' : State}

theorem replaced_closeListed (p : Ch → Bool) (failed : List ℕ) (h : Replaced nexus n s) :
    Replaced nexus n (closeListed p failed s) := by
  constructor
  · exact Nat.le_trans h.1 (Nat.le_of_eq List.length_mapIdx.symm)
  · intro i hi c hc hnexus
    unfold closeListed at hc
    rw [List.getElem?_mapIdx] at hc
    obtain ⟨c₀, hc₀, rfl⟩ := Option.map_eq_some_iff.mp hc
    split_ifs at hnexus ⊢
    · exact close_active c₀ _
    · exact h.2 i hi c₀ hc₀ hnexus

theorem replaced_append (cs : List Ch) (h : Replaced nexus n s) : Replaced nexus n (s++cs) := by
  constructor
  · rw [List.length_append]
    exact Nat.le_trans h.1 (Nat.le_add_right _ _)
  · intro i hi c hc hnexus
    rw [List.getElem?_append_left (Nat.lt_of_lt_of_le hi h.1)] at hc
    exact h.2 i hi c hc hnexus

theorem replaced_step {e : Event} (h : Replaced nexus n s) (hstep : step s e = some s') :
    Replaced nexus n s' := by
  cases e with
  | req nexus' single created failed =>
      cases hstep
      apply replaced_append
      split_ifs
      · exact replaced_closeListed _ _ h
      · exact h
  | releaseSdev failed =>
      cases hstep
      exact replaced_closeListed _ _ h
  | ch k e =>
      obtain ⟨c, c', hk, hmoved, rfl⟩ := moved_of_step_ch hstep
      constructor
      · rw [List.length_set]
        exact h.1
      · intro i hi c₁ hc₁ hnexus
        by_cases hik : k = i
        · subst hik
          rw [List.getElem?_set_self (Nat.lt_of_lt_of_le hi h.1)] at hc₁
          cases hc₁
          rw [moved_nexus hmoved] at hnexus
          exact moved_active hmoved (h.2 k hi c hk hnexus)
        · rw [List.getElem?_set_ne hik] at hc₁
          exact h.2 i hi c₁ hc₁ hnexus

end

/-- A login with SRP_MULTICHAN_SINGLE replaces the channels of its initiator: whatever
happens afterwards, none of the channels it had before accepts requests again. The login
looks at the list of channels only, so another login of the same initiator must not be under
way. -/
theorem login_replaces_channels {s s₁ s₂ : State} {nexus : ℕ} {created : Bool} {failed : List ℕ}
    (hsettled : ∀ c ∈ s, c.nexus = nexus → c.listed = false → c.active = false)
    (hlogin : step s (.req nexus true created failed) = some s₁) (hrun : AnyRun step s₁ s₂) {i : ℕ}
    (hi : i < s.length) {c : Ch} (hc : s₂[i]? = some c) (hnexus : c.nexus = nexus) :
    c.active = false := by
  have hstart : Replaced nexus s.length s₁ := by
    cases hlogin
    apply replaced_append
    rw [if_pos rfl]
    constructor
    · exact Nat.le_of_eq List.length_mapIdx.symm
    · intro j hj c₁ hc₁ hnexus₁
      unfold closeListed at hc₁
      rw [List.getElem?_mapIdx] at hc₁
      obtain ⟨c₀, hc₀, rfl⟩ := Option.map_eq_some_iff.mp hc₁
      have hmem := List.mem_of_getElem? hc₀
      split_ifs at hnexus₁ ⊢ with hold
      · exact close_active c₀ _
      · by_contra hactive
        have hactive : c₀.active = true := by simpa using hactive
        have hlisted : c₀.listed = true := by
          by_contra hunlisted
          have := hsettled c₀ hmem hnexus₁ (by simpa using hunlisted)
          rw [hactive] at this
          cases this
        exact hold (by simp [hlisted, hnexus₁, hactive])
  have hend := hrun.invariant (I := Replaced nexus s.length) hstart
    fun _ _ _ h _ hstep => replaced_step h hstep
  exact hend.2 i hi c hc hnexus

/-- A live channel, as a login leaves it. -/
def liveChannel : Ch :=
  { nexus := 7, state := .live, handler := .idle, listed := true,
    cm := { state := .established, workList := [], establishing := false } }

/-- A second login closes a live channel, whose release work has even begun some events
later. -/
theorem login_replaces_live : ∃ s₁ s₂ c, AnyRun step [] [liveChannel] ∧
    liveChannel.active = true ∧ step [liveChannel] (.req 7 true true []) = some s₁ ∧
    AnyRun step s₁ s₂ ∧ s₂[0]? = some c ∧ c.work = .begun ∧ c.active = false := by
  have hlive : replay step (secondLogin.take 8) [] = some [liveChannel] := by decide
  have hreach : Reaches step
      [.ch 1 (.rep true), .ch 0 (.cm .drep), .ch 0 .deliver, .ch 1 .listAdd, .ch 0 (.qpErr true),
        .ch 0 .lastWqe] (login 7 true true [] [liveChannel])
      (fun s => (s[0]?).any fun c => c.nexus = 7 && c.work = .begun) = true := by decide
  obtain ⟨s₂, hrun, hs⟩ := anyRun_of_reaches hreach
  cases hc : s₂[0]? with
  | none => simp [hc] at hs
  | some c =>
      have hfirst : c.nexus = 7 ∧ c.work = .begun := by simpa [hc] using hs
      have hsettled : ∀ c ∈ [liveChannel], c.nexus = 7 → c.listed = false → c.active = false := by
        decide
      refine ⟨_, s₂, c, run_of_replay (fun _ _ _ he => ⟨trivial, he⟩) hlive, rfl, rfl, hrun, hc,
        hfirst.2, ?_⟩
      exact login_replaces_channels hsettled rfl hrun (Nat.lt_succ_self 0) hc hfirst.1

end IbSrp.ChannelProgress

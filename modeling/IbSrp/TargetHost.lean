import IbSrp.ChannelFrames

/-!
# The channels of a target and the loops over their request rings

A target has several channels, and some functions go over all of them and over the
request ring of each and finish the commands they find there: `srp_terminate_io`
and `srp_rport_reconnect` those of every device, `srp_reset_device` those of one.
To finish a request is to claim it, to unmap its data, to put it on the free list
and to hand the command back with a result.

For each loop there is a lemma about the slots and one about the commands handed
back, in the order in which the loop meets them.
-/
namespace IbSrp.TargetHost
open Channel ChannelFrames

inductive HostByte where
  | didReset | didTransportFailfast
deriving DecidableEq, Repr

/-- The channels of a target, and the commands handed to `scsi_done` with their results. -/
structure Host where
  ch : ℕ → SrpRdmaCh
  done : List (ScsiCmnd × HostByte) := []

/-- The same operation on each of the first `n` channels. -/
def Host.forChannels (n : ℕ) (f : ℕ → SrpRdmaCh → SrpRdmaCh) (h : Host) : Host :=
  { h with ch := fun c => if c < n then f c (h.ch c) else h.ch c }

section
variable (hca : Hca) (target : SrpTargetPort) (sdev : Option ℕ) (result : HostByte)

/-- `srp_finish_req` for slot `i` of channel `c` -/
def Host.finishReq (c i : ℕ) (h : Host) : Host :=
  let r := srpFinishReq hca target i sdev (h.ch c)
  { ch := Function.update h.ch c r.2,
    done := h.done++r.1.toList.map fun scmnd => (scmnd, result) }

def finishSlots (c : ℕ) : ℕ → Host → Host
  | 0, h => h
  | n+1, h => (finishSlots c n h).finishReq hca target sdev result c n

def finishChannels : ℕ → Host → Host
  | 0, h => h
  | n+1, h => finishSlots hca target sdev result n target.reqRingSize (finishChannels n h)

end

def srpTerminateIo (hca : Hca) (target : SrpTargetPort) (chCount : ℕ) (h : Host) : Host :=
  finishChannels hca target none .didTransportFailfast chCount h

/-- The command of the slot if it belongs to the device, or in any case if none is given. -/
def commandOf (sdev : Option ℕ) (req : SrpRequest) : Option ScsiCmnd :=
  req.scmnd.filter fun scmnd => sdev = none ∨ sdev = some scmnd.device

/-- The slot without such a command. -/
def cleared (sdev : Option ℕ) (req : SrpRequest) : SrpRequest :=
  if (commandOf sdev req).isSome then { req with scmnd := none } else req

def commandsOn (sdev : Option ℕ) (n : ℕ) (ch : SrpRdmaCh) : List ScsiCmnd :=
  (List.range n).filterMap fun j => commandOf sdev (ch.reqRing j)

theorem cleared_eq_self {sdev : Option ℕ} {req : SrpRequest} :
    cleared sdev req = req ↔ commandOf sdev req = none := by
  unfold cleared
  cases hc : commandOf sdev req with
  | none => simp
  | some scmnd =>
      simp only [Option.isSome_some, if_true, reduceCtorEq, iff_false]
      intro he
      rw [← he] at hc
      simp [commandOf] at hc

theorem cleared_none_scmnd (req : SrpRequest) : (cleared none req).scmnd = none := by
  unfold cleared commandOf
  cases hc : req.scmnd with
  | none => simp [hc]
  | some scmnd => simp

section
variable (hca : Hca) (target : SrpTargetPort) (sdev : Option ℕ) (result : HostByte)

theorem srpFreeReq_reqRing (i : ℕ) (scmnd : ScsiCmnd) (delta : BitVec 32) (ch : SrpRdmaCh) :
    (srpFreeReq hca target i scmnd delta ch).reqRing = ch.reqRing := by
  obtain ⟨touched, _, _, _, _, he⟩ := srpUnmapData_frame hca target scmnd i ch
  simp only [srpFreeReq, he]

theorem srpFinishReq_spec (i : ℕ) (ch : SrpRdmaCh) :
    (srpFinishReq hca target i sdev ch).1 = commandOf sdev (ch.reqRing i) ∧
      (srpFinishReq hca target i sdev ch).2.reqRing =
        Function.update ch.reqRing i (cleared sdev (ch.reqRing i)) := by
  cases hc : (ch.reqRing i).scmnd with
  | none => simp [srpFinishReq, srpClaimReq, commandOf, cleared, hc]
  | some scmnd =>
      by_cases hdev : sdev = none ∨ sdev = some scmnd.device
      · simp [srpFinishReq, srpClaimReq, commandOf, cleared, hc, hdev, srpFreeReq_reqRing,
          SrpRdmaCh.setReq, Option.filter]
      · simp [srpFinishReq, srpClaimReq, commandOf, cleared, hc, hdev, Option.filter]

variable {sdev result}

theorem finishSlots_other {c c' : ℕ} (hne : c' ≠ c) (n : ℕ) (h : Host) :
    (finishSlots hca target sdev result c n h).ch c' = h.ch c' := by
  induction n with
  | zero => rfl
  | succ n ih =>
      rw [← ih]
      exact Function.update_of_ne hne _ _

theorem finishSlots_reqRing (c n : ℕ) (h : Host) (j : ℕ) :
    ((finishSlots hca target sdev result c n h).ch c).reqRing j =
      if j < n then cleared sdev ((h.ch c).reqRing j) else (h.ch c).reqRing j := by
  induction n generalizing j with
  | zero => rfl
  | succ n ih =>
      have hring : ((finishSlots hca target sdev result c (n+1) h).ch c).reqRing =
          Function.update ((finishSlots hca target sdev result c n h).ch c).reqRing n
            (cleared sdev (((finishSlots hca target sdev result c n h).ch c).reqRing n)) := by
        rw [← (srpFinishReq_spec hca target sdev n _).2]
        simp [finishSlots, Host.finishReq]
      rw [hring, ih n, if_neg (Nat.lt_irrefl n)]
      by_cases hj : j = n
      · rw [hj, Function.update_self, if_pos (Nat.lt_succ_self n)]
      · rw [Function.update_of_ne hj, ih j]
        have hiff : j < n ↔ j < n+1 := by omega
        simp only [hiff]

theorem finishSlots_done (c n : ℕ) (h : Host) :
    (finishSlots hca target sdev result c n h).done =
      h.done++(commandsOn sdev n (h.ch c)).map fun scmnd => (scmnd, result) := by
  induction n with
  | zero => simp [finishSlots, commandsOn]
  | succ n ih =>
      have hcmd := (srpFinishReq_spec hca target sdev n
        ((finishSlots hca target sdev result c n h).ch c)).1
      rw [finishSlots_reqRing, if_neg (Nat.lt_irrefl n)] at hcmd
      simp only [finishSlots, Host.finishReq, hcmd, ih, commandsOn, List.range_succ,
        List.filterMap_append, List.map_append, List.append_assoc]
      cases hc : commandOf sdev ((h.ch c).reqRing n) <;> simp [hc]

theorem finishChannels_other {n c : ℕ} (hc : n ≤ c) (h : Host) :
    (finishChannels hca target sdev result n h).ch c = h.ch c := by
  induction n with
  | zero => rfl
  | succ n ih =>
      have hne : c ≠ n := by omega
      rw [← ih (by omega)]
      exact finishSlots_other hca target hne _ _

theorem finishChannels_reqRing {n c : ℕ} (hc : c < n) (h : Host) (j : ℕ) :
    ((finishChannels hca target sdev result n h).ch c).reqRing j =
      if j < target.reqRingSize then cleared sdev ((h.ch c).reqRing j)
      else (h.ch c).reqRing j := by
  induction n with
  | zero => exact absurd hc (Nat.not_lt_zero c)
  | succ n ih =>
      by_cases hlast : c = n
      · rw [hlast, finishChannels, finishSlots_reqRing, finishChannels_other hca target le_rfl]
      · rw [finishChannels, finishSlots_other hca target hlast]
        exact ih (by omega)

/-- What finishing a request does to a channel, the loops do to every channel. -/
theorem finishChannels_relates {R : SrpRdmaCh → SrpRdmaCh → Prop} (hrefl : ∀ ch, R ch ch)
    (htrans : ∀ {a b c}, R a b → R b c → R a c)
    (hreq : ∀ i ch, R ch (srpFinishReq hca target i sdev ch).2) (n c : ℕ) (h : Host) :
    R (h.ch c) ((finishChannels hca target sdev result n h).ch c) := by
  have hslots : ∀ (m k : ℕ) (h : Host),
      R (h.ch c) ((finishSlots hca target sdev result k m h).ch c) := by
    intro m k h
    by_cases hk : c = k
    · subst hk
      induction m with
      | zero => exact hrefl _
      | succ m ih =>
          apply htrans ih
          simp only [finishSlots, Host.finishReq, Function.update_self]
          exact hreq m _
    · rw [finishSlots_other hca target hk]
      exact hrefl _
  induction n with
  | zero => exact hrefl _
  | succ n ih => exact htrans ih (hslots _ n _)

theorem srpTerminateIo_empties (chCount : ℕ) (h : Host) {c j : ℕ} (hc : c < chCount)
    (hj : j < target.reqRingSize) :
    (((srpTerminateIo hca target chCount h).ch c).reqRing j).scmnd = none := by
  rw [srpTerminateIo, finishChannels_reqRing hca target hc, if_pos hj]
  exact cleared_none_scmnd _

end

end IbSrp.TargetHost

import IbSrp.TargetHost
import IbSrp.TransmitRing

/-!
# Reconnecting all channels of a target

`srp_rport_reconnect` goes over the channels of a target four times: it gives each
a new CM ID, finishes its requests, replaces its verbs objects and rebuilds its list
of free transmit buffers, and logs in. It goes on after errors and adds their codes
up; only the last loop stops at the first error. The caller sees to it that nobody
else uses the channels in the meantime.

The calls into the InfiniBand stack have results that the model is given: an error
number for each new CM ID and each call of `srp_create_ch_ib`, zero if it succeeds,
and the return value of each `srp_connect_ch`. When `srp_create_ch_ib` fails the old
queue pair stays as it was, with what has been posted on it.
-/
namespace IbSrp.TargetReconnect
open Channel TargetHost TransmitRing
open ChannelSystem (noData smallTarget willingHca)

/-- `enum srp_target_state` -/
inductive TargetState where
  | scanning | live | removed
deriving DecidableEq, Repr

def enodev : ℤ := 19

/-- The results of the calls for each channel, and the request limit its login grants. -/
structure Results where
  newCmId : ℕ → ℕ
  createChIb : ℕ → ℕ
  connectCh : ℕ → ℤ
  reqLim : ℕ → BitVec 32

def errorSum (errno : ℕ → ℕ) : ℕ → ℤ
  | 0 => 0
  | n+1 => errorSum errno n-errno n

def srpDisconnectTarget (chCount : ℕ) (h : Host) : Host :=
  h.forChannels chCount fun _ ch => { ch with connected := false }

def loggedIn (reqLim : BitVec 32) (ch : SrpRdmaCh) : SrpRdmaCh :=
  { ch with connected := true, reqLim := reqLim }

/-- The loop over the logins, from channel `c` on for `n` channels. -/
def connectChannels (results : Results) : ℕ → ℕ → ℤ → Host → ℤ × Host
  | 0, _, ret, h => (ret, h)
  | n+1, c, ret, h =>
      if ret ≠ 0 then (ret, h)
      else if results.connectCh c = 0 then
        connectChannels results n (c+1) 0
          { h with ch := Function.update h.ch c (loggedIn (results.reqLim c) (h.ch c)) }
      else connectChannels results n (c+1) (results.connectCh c) h

/-- `srp_rport_reconnect`; its return value and the channels afterwards -/
def srpRportReconnect (hca : Hca) (target : SrpTargetPort) (chCount : ℕ) (state : TargetState)
    (results : Results) (h : Host) : ℤ × Host :=
  let h := srpDisconnectTarget chCount h
  if state = .scanning then (-enodev, h)
  else
    let ret := errorSum results.newCmId chCount
    let h := finishChannels hca target none .didReset chCount h
    let ret := ret+errorSum results.createChIb chCount
    let h := h.forChannels chCount fun c ch => srpCreateChIb target (results.createChIb c = 0) ch
    connectChannels results chCount 0 ret h

/-- What a reconnect is for: the slots are empty, each buffer of the transmit ring is once
on the free list and not posted, and success means that all channels are connected. -/
structure Reowned (target : SrpTargetPort) (chCount : ℕ) (r : ℤ × Host) : Prop where
  slots : ∀ c < chCount, ∀ j < target.reqRingSize, ((r.2.ch c).reqRing j).scmnd = none
  freeTx : ∀ c < chCount, (r.2.ch c).freeTx.Perm (List.range target.queueSize)
  unposted : ∀ c < chCount, ∀ iu ∈ (r.2.ch c).freeTx, iu ∉ posted (r.2.ch c).sq
  connected : r.1 = 0 → ∀ c < chCount, (r.2.ch c).connected = true

/-- The channels differ at most in what a login changes. -/
def LoginOnly (ch ch' : SrpRdmaCh) : Prop :=
  ∃ connected reqLim, ch' = { ch with connected := connected, reqLim := reqLim }

theorem LoginOnly.refl (ch : SrpRdmaCh) : LoginOnly ch ch := ⟨_, _, rfl⟩

theorem LoginOnly.trans {a b c : SrpRdmaCh} (h : LoginOnly a b) (h' : LoginOnly b c) :
    LoginOnly a c := by
  obtain ⟨connected, reqLim, rfl⟩ := h
  obtain ⟨connected', reqLim', rfl⟩ := h'
  exact ⟨connected', reqLim', rfl⟩

section
variable {target : SrpTargetPort} {results : Results}

theorem connectChannels_frame (results : Results) (n c : ℕ) : ∀ (ret : ℤ) (h : Host) (k : ℕ),
    LoginOnly (h.ch k) ((connectChannels results n c ret h).2.ch k) := by
  induction n generalizing c with
  | zero => exact fun _ h k => .refl _
  | succ n ih =>
      intro ret h k
      unfold connectChannels
      split_ifs with hret hok
      · exact .refl _
      · have hfirst : LoginOnly (h.ch k)
            (Function.update h.ch c (loggedIn (results.reqLim c) (h.ch c)) k) := by
          by_cases hk : k = c
          · rw [hk, Function.update_self]
            exact ⟨_, _, rfl⟩
          · rw [Function.update_of_ne hk]
            exact .refl _
        exact hfirst.trans (ih (c+1) 0 _ k)
      · exact ih (c+1) (results.connectCh c) h k

/-- The loop ends with zero only if every login succeeded, and a login that succeeds leaves
its channel connected. -/
theorem connectChannels_connected (n c : ℕ) : ∀ (ret : ℤ) (h : Host),
    (connectChannels results n c ret h).1 = 0 →
      ∀ k, (c ≤ k ∧ k < c+n) ∨ (h.ch k).connected = true →
        ((connectChannels results n c ret h).2.ch k).connected = true := by
  induction n generalizing c with
  | zero =>
      intro ret h _ k hk
      rcases hk with hk | hk
      · omega
      · exact hk
  | succ n ih =>
      intro ret h hzero k hk
      unfold connectChannels at hzero ⊢
      split_ifs at hzero ⊢ with hret hok
      · exact absurd hzero hret
      · apply ih (c+1) 0 _ hzero
        by_cases hkc : k = c
        · right
          change (Function.update h.ch c _ k).connected = true
          rw [hkc, Function.update_self]
          rfl
        · rcases hk with hk | hk
          · left
            omega
          · right
            change (Function.update h.ch c _ k).connected = true
            rw [Function.update_of_ne hkc]
            exact hk
      · have hstop : (connectChannels results n (c+1) (results.connectCh c) h).1 =
            results.connectCh c := by
          cases n with
          | zero => rfl
          | succ n =>
              unfold connectChannels
              rw [if_pos hok]
        exact absurd (hstop ▸ hzero) hok

theorem unsent_srpFinishReq (hca : Hca) (target : SrpTargetPort) (sdev : Option ℕ) (i : ℕ)
    (ch : SrpRdmaCh) : Unsent ch (srpFinishReq hca target i sdev ch).2 := by
  unfold srpFinishReq
  rcases ChannelSystem.srpClaimReq_cases i sdev none ch with he | ⟨scmnd, _, _, he⟩
  · rw [he]
    exact .refl ch
  · rw [he]
    have hclaim : Unsent ch (ChannelSystem.emptied ch i) := (Unsent.refl ch).of_eq rfl rfl
    exact hclaim.trans (unsent_srpFreeReq hca target i scmnd 0 _)

/-- The channels when the last loop of the reconnect begins. -/
def recreated (hca : Hca) (target : SrpTargetPort) (chCount : ℕ) (results : Results) (h : Host) :
    Host :=
  (finishChannels hca target none .didReset chCount
    (srpDisconnectTarget chCount h)).forChannels chCount fun c ch =>
      srpCreateChIb target (results.createChIb c = 0) ch

/-- A channel at that point: empty slots, the transmit ring on the free list, and what was
posted before unless there is a new queue pair. -/
theorem recreated_channel (hca : Hca) (results : Results) (h : Host) {chCount c : ℕ}
    (hc : c < chCount) :
    let ch := (recreated hca target chCount results h).ch c
    (∀ j < target.reqRingSize, (ch.reqRing j).scmnd = none) ∧ ch.freeTx = txRing target ∧
      posted ch.sq = if results.createChIb c = 0 then [] else posted (h.ch c).sq := by
  intro ch
  set h₁ := finishChannels hca target none .didReset chCount (srpDisconnectTarget chCount h)
  have hch : ch = srpCreateChIb target (results.createChIb c = 0) (h₁.ch c) := by
    simp only [ch, recreated, Host.forChannels, if_pos hc]
    rfl
  have hposted : posted (h₁.ch c).sq = posted (h.ch c).sq := by
    have hunsent : Unsent ((srpDisconnectTarget chCount h).ch c) (h₁.ch c) :=
      finishChannels_relates hca target Unsent.refl Unsent.trans
        (unsent_srpFinishReq hca target none) chCount c _
    rw [hunsent.posted_eq]
    simp only [srpDisconnectTarget, Host.forChannels, if_pos hc]
  refine ⟨?_, ?_, ?_⟩
  · intro j hj
    have hring : ch.reqRing = (h₁.ch c).reqRing := by
      rw [hch]
      unfold srpCreateChIb
      split_ifs <;> rfl
    rw [hring, finishChannels_reqRing hca target hc, if_pos hj]
    exact cleared_none_scmnd _
  · rw [hch]
    rfl
  · rw [hch]
    by_cases hok : results.createChIb c = 0
    · simp [srpCreateChIb, hok, posted]
    · simp only [srpCreateChIb, hok, decide_false, Bool.false_eq_true, if_false]
      exact hposted

theorem srpRportReconnect_eq (hca : Hca) (target : SrpTargetPort) (chCount : ℕ)
    {state : TargetState} (hstate : state ≠ .scanning) (results : Results) (h : Host) :
    srpRportReconnect hca target chCount state results h =
      connectChannels results chCount 0
        (errorSum results.newCmId chCount+errorSum results.createChIb chCount)
        (recreated hca target chCount results h) := by
  simp only [srpRportReconnect, if_neg hstate]
  rfl

/-- A channel after the reconnect: logging in changes nothing of this. -/
theorem reconnected_channel (hca : Hca) {state : TargetState} (hstate : state ≠ .scanning)
    (results : Results) (h : Host) {chCount c : ℕ} (hc : c < chCount) :
    let ch := (srpRportReconnect hca target chCount state results h).2.ch c
    (∀ j < target.reqRingSize, (ch.reqRing j).scmnd = none) ∧ ch.freeTx = txRing target ∧
      posted ch.sq = if results.createChIb c = 0 then [] else posted (h.ch c).sq := by
  rw [srpRportReconnect_eq hca target chCount hstate]
  obtain ⟨connected, reqLim, he⟩ := connectChannels_frame results chCount 0
    (errorSum results.newCmId chCount+errorSum results.createChIb chCount)
    (recreated hca target chCount results h) c
  rw [he]
  exact recreated_channel hca results h hc

theorem mem_txRing (target : SrpTargetPort) (iu : ℕ) :
    iu ∈ txRing target ↔ iu < target.queueSize := by
  rw [txRing, List.mem_reverse, List.mem_range]

/-- After a reconnect, whatever failed in it, every buffer belongs to the free list alone
if and only if no buffer was posted on a channel whose queue pair could not be replaced. -/
theorem reconnect_reowns (hca : Hca) (target : SrpTargetPort) (chCount : ℕ) (state : TargetState)
    (results : Results) (h : Host) (hstate : state ≠ .scanning) :
    Reowned target chCount (srpRportReconnect hca target chCount state results h) ↔
      ∀ c < chCount, results.createChIb c ≠ 0 →
        ∀ iu < target.queueSize, iu ∉ posted (h.ch c).sq := by
  constructor
  · intro hown c hc hfail iu hiu hmem
    obtain ⟨_, hfree, hposted⟩ := reconnected_channel hca hstate results h hc
    apply hown.unposted c hc iu
    · rw [hfree, mem_txRing]
      exact hiu
    · rw [hposted, if_neg hfail]
      exact hmem
  · intro hcond
    constructor
    · intro c hc
      exact (reconnected_channel hca hstate results h hc).1
    · intro c hc
      obtain ⟨_, hfree, _⟩ := reconnected_channel hca hstate results h hc
      rw [hfree]
      exact List.reverse_perm _
    · intro c hc iu hiu
      obtain ⟨_, hfree, hposted⟩ := reconnected_channel hca hstate results h hc
      rw [hfree, mem_txRing] at hiu
      rw [hposted]
      by_cases hok : results.createChIb c = 0
      · rw [if_pos hok]
        exact List.not_mem_nil
      · rw [if_neg hok]
        exact hcond c hc hok iu hiu
    · intro hzero c hc
      rw [srpRportReconnect_eq hca target chCount hstate] at hzero ⊢
      exact connectChannels_connected chCount 0 _ _ hzero c (Or.inl ⟨Nat.zero_le c, by omega⟩)

end

/-- The results of a reconnect in which only the new queue pairs cannot be created. -/
def noQueuePairs : Results where
  newCmId _ := 0
  createChIb _ := 12
  connectCh _ := 0
  reqLim _ := 4

/-- Channels with a command each and no buffer posted. -/
def oneWaiting : Host where
  ch _ := (SrpRdmaCh.login smallTarget 4).setReq 0 { scmnd := some (noData 7) }

/-- Two such channels are left in order even if no queue pair can be created. -/
theorem reconnect_reowns_idle :
    Reowned smallTarget 2
      (srpRportReconnect willingHca smallTarget 2 .live noQueuePairs oneWaiting) :=
  (reconnect_reowns willingHca smallTarget 2 .live noQueuePairs oneWaiting
    (by decide)).mpr (by decide)

/-- Channels that have sent buffer `0` and not yet seen the completion. -/
def oneSent : Host where
  ch _ := { SrpRdmaCh.login smallTarget 4 with freeTx := [2, 1], sq := [⟨.send 0, none⟩] }

/-- If its queue pair cannot be replaced, the buffer is on the free list and still posted. -/
theorem reconnect_frees_posted_buffer :
    let r := srpRportReconnect willingHca smallTarget 1 .live noQueuePairs oneSent
    0 ∈ (r.2.ch 0).freeTx ∧ 0 ∈ posted (r.2.ch 0).sq := by
  decide

end IbSrp.TargetReconnect

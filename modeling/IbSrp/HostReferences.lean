import IbSrp.LabelledRuns
import IbSrp.TargetOptions
import IbSrp.TargetReconnect
import IbSrp.TargetResources

/-!
# The references to the SCSI host of a target

`scsi_host_alloc` returns a host with one reference, which becomes that of the target.
`srp_create_target` takes a second one for itself and drops it at the label `out`, however
it gets there. The SCSI core holds a third one between `scsi_add_host` and
`scsi_remove_host`, and the remote port holds a fourth one until its own last reference is
dropped. The reference of the target is dropped by `srp_remove_target`, after it has taken
the target off the list. This is the only place: a creation that fails leaves the reference
of the allocation behind.

A write to `add_target` waits for the mutex of the host, then goes from `mutex_lock` to
`list_add_tail` in one step, scans, and leaves. As soon as the target is on the list it can
be removed, also while its creation is still scanning. The removal is queued once, by the
state of the target; it unregisters the remote port and the SCSI host, and at its end takes
the target off the list and drops the reference.
-/
namespace IbSrp.HostReferences
open LabelledRuns ChannelSetup ChannelVisits TargetOptions
open ChannelCoverage (initial)
open ChannelObjects (einval enomem)
open TargetReconnect (TargetState enodev)
open TargetResources (eexist)

section
variable (cfg : Config) (results : Results)

/-- The return value of the loops over nodes and CPUs, 0 if they reach `connected`. -/
def channelsRet : ℤ :=
  match nodeLoop cfg results cfg.topo.onlineNodes 0 { chCount := cfg.chCount } with
  | .ok _ => 0
  | .error (.connected _) => 0
  | .error (.errDisconnect ret _) => ret

/-- Each channel up to the first refused login gets its CM ID, its verbs objects and its
requests, and the login of the first channel is not refused. -/
structure Connects : Prop where
  first : Served cfg 0 → results.connectCh 0 = 0
  prepared : ∀ c, Served cfg c → (∀ c' < c, Served cfg c' → results.connectCh c' = 0) →
    results.newCmId c = 0 ∧ results.createChIb c = 0 ∧ results.allocReqData c = 0

theorem channelsRet_eq :
    channelsRet cfg results =
      match runVisits cfg results (visits cfg) (initial cfg) with
      | .ok _ => 0
      | .error (.connected _) => 0
      | .error (.errDisconnect ret _) => ret := by
  rw [channelsRet, nodeLoop_eq_runVisits]
  rfl

variable {cfg results}

/-- Channel 0 is that of the first CPU of the first node. -/
theorem chStart_add_eq_zero (cfg : Config) (i k : ℕ) :
    cfg.chStart i+k = 0 ↔ i = 0 ∧ k = 0 := by
  cases i with
  | zero => simp [Config.chStart]
  | succ i =>
      have hlt : cfg.chStart i < cfg.chStart (i+1) := chStart_lt_chEnd cfg i
      omega

theorem visit_error {v : Visit} {s : Setup} {e : Exit} (h : visit cfg results v s = .error e) :
    ∃ c, channel cfg v = some c ∧
      ((∃ ret s', e = .errDisconnect ret s' ∧ ret ≠ 0 ∧
          (results.newCmId c = 0 → results.createChIb c = 0 → results.allocReqData c = 0 →
            results.connectCh c ≠ 0 ∧ c = 0)) ∨
        ∃ s', e = .connected s' ∧ results.newCmId c = 0 ∧ results.createChIb c = 0 ∧
          results.allocReqData c = 0 ∧ c ≠ 0 ∧ results.connectCh c ≠ 0) := by
  have hfirst := chStart_add_eq_zero cfg v.nodeIdx v.cpuIdx
  by_cases hshare : cfg.chStart v.nodeIdx+v.cpuIdx < cfg.chEnd v.nodeIdx
  · refine ⟨_, if_pos hshare, ?_⟩
    simp only [visit, hshare, if_true, connectCh, ← hfirst] at h
    generalize cfg.chStart v.nodeIdx+v.cpuIdx = c at h
    split_ifs at h with hid hib halloc hlogin hzero
    · cases h
      exact .inl ⟨_, _, rfl, hid, fun h => absurd h hid⟩
    · cases h
      exact .inl ⟨_, _, rfl, hib, fun _ h => absurd h hib⟩
    · cases h
      exact .inl ⟨_, _, rfl, halloc, fun _ _ h => absurd h halloc⟩
    · cases h
      exact .inl ⟨_, _, rfl, hlogin, fun _ _ _ => ⟨hlogin, hzero⟩⟩
    · cases h
      exact .inr ⟨_, rfl, not_not.mp hid, not_not.mp hib, not_not.mp halloc, hzero, hlogin⟩
  · simp [visit, hshare] at h

/-- The smaller channels come before channel `c`. -/
theorem served_split {pre post : List Visit} {v : Visit} {c : ℕ}
    (hvs : visits cfg = pre++v::post) (hc : channel cfg v = some c) :
    Served cfg c ∧ ∀ k, Served cfg k → k ∈ channels cfg pre ∨ c ≤ k := by
  have hall : channels cfg (visits cfg) = channels cfg pre++c::channels cfg post := by
    rw [hvs, channels_append]
    simp [channels, hc]
  have hascending := channels_visits_ascending cfg
  rw [hall, List.pairwise_append] at hascending
  constructor
  · rw [← mem_channels_visits, hall]
    simp
  · intro k hk
    rw [← mem_channels_visits, hall, List.mem_append, List.mem_cons] at hk
    rcases hk with hpre | heq | hpost
    · exact .inl hpre
    · exact .inr (Nat.le_of_eq heq.symm)
    · exact .inr (Nat.le_of_lt (List.rel_of_pairwise_cons hascending.2.1 hpost))

variable (cfg results)

/-- The loops reach `connected` if and only if the calls that they make allow it. -/
theorem channelsRet_eq_zero_iff : channelsRet cfg results = 0 ↔ Connects cfg results := by
  rw [channelsRet_eq]
  rcases @runVisits_cases cfg results (visits cfg) (initial cfg) with
    ⟨hok, hrun⟩ | ⟨pre, v, post, e, hvs, hok, hv, hrun⟩
  · have hserved : ∀ c, Served cfg c → Results.Succeed results c := by
      intro c hc
      exact hok c ((mem_channels_visits cfg c).mpr hc)
    have hconnects : Connects cfg results := by
      constructor
      · intro h
        exact (hserved 0 h).2.2.2
      · intro c hc _
        have hsucceed := hserved c hc
        exact ⟨hsucceed.1, hsucceed.2.1, hsucceed.2.2.1⟩
    simp [hrun, hconnects]
  · obtain ⟨c, hc, hexit⟩ := visit_error hv
    obtain ⟨hserved, hsplit⟩ := served_split hvs hc
    rw [hrun]
    rcases hexit with ⟨ret, s', he, hret, hcause⟩ | ⟨s', he, hid, hib, halloc, hne, hlogin⟩
    · rw [he]
      constructor
      · intro hzero
        exact absurd hzero hret
      · intro hconnects
        have hearlier : ∀ k < c, Served cfg k → results.connectCh k = 0 := by
          intro k hk hks
          rcases hsplit k hks with hpre | hge
          · exact (hok k hpre).2.2.2
          · omega
        have hprepared := hconnects.prepared c hserved hearlier
        obtain ⟨hlogin, hzero⟩ := hcause hprepared.1 hprepared.2.1 hprepared.2.2
        rw [hzero] at hlogin hserved
        exact absurd (hconnects.first hserved) hlogin
    · rw [he]
      refine iff_of_true rfl ⟨?_, ?_⟩
      · intro hzero
        rcases hsplit 0 hzero with hpre | hge
        · exact (hok 0 hpre).2.2.2
        · omega
      · intro k hk hearlier
        rcases hsplit k hk with hpre | hge
        · have hsucceed := hok k hpre
          exact ⟨hsucceed.1, hsucceed.2.1, hsucceed.2.2.1⟩
        · rcases Nat.eq_or_lt_of_le hge with heq | hlt
          · rw [← heq]
            exact ⟨hid, hib, halloc⟩
          · exact absurd (hearlier c hlt hserved) hlogin

end

/-- A reference count, with a note of a use after the last reference has been dropped. -/
structure Refs where
  count : ℕ
  misused : Bool := false
deriving DecidableEq, Repr

def Refs.get (r : Refs) : Refs :=
  if r.count = 0 then { r with misused := true } else { r with count := r.count+1 }

def Refs.put (r : Refs) : Refs :=
  if r.count = 0 then { r with misused := true } else { r with count := r.count-1 }

inductive Phase where
  | waiting
  | scanning
  | out (ret : ℤ)
  | returned (ret : ℤ)
deriving DecidableEq, Repr

inductive Removal where
  | idle
  | queued
  | unregistered
  | done
deriving DecidableEq, Repr

/-- A SCSI host with its target and the text that has been written to `add_target`. -/
structure Host where
  buf : List Char
  target : Target
  shost : Refs
  rport : Refs := ⟨0, false⟩
  state : TargetState := .scanning
  listed : Bool := false
  phase : Phase := .waiting
  removal : Removal := .idle

/-- What the number of channels depends on, apart from the options. -/
structure Machine where
  topo : Topology
  chCountParam : ℕ
  numCompVectors : ℕ
  vectors_pos : 0 < numCompVectors

def Machine.config (m : Machine) (t : Target) : Config where
  topo := m.topo
  chCountParam := m.chCountParam
  numCompVectors := m.numCompVectors
  compVector := t.compVector.toNat
  vectors_pos := m.vectors_pos

/-- How `srp_rport_add` goes: the allocation fails, or `device_add` returns `ret`. -/
inductive RportCall where
  | noMemory
  | deviceAdd (ret : ℤ)
deriving DecidableEq, Repr

/-- The results of the calls that `srp_create_target` makes. -/
structure Calls where
  machine : Machine
  queryGid : ℤ
  allocCh : Bool
  allocMqMap : Bool
  channels : Results
  addHost : Bool
  rport : RportCall

/-- `scsi_add_host`: the SCSI core takes a reference -/
def scsiAddHost (h : Host) : Host := { h with shost := h.shost.get }

/-- `scsi_remove_host`: the SCSI core drops its reference -/
def scsiRemoveHost (h : Host) : Host := { h with shost := h.shost.put }

/-- `srp_rport_put`; with the last reference `srp_rport_release` drops that to the parent -/
def srpRportPut (h : Host) : Host :=
  let rport := h.rport.put
  { h with rport := rport, shost := if rport.count = 0 then h.shost.put else h.shost }

def srpRportGet (h : Host) : Host := { h with rport := h.rport.get }

def srpRportAdd (call : RportCall) (h : Host) : ℤ × Host :=
  match call with
  | .noMemory => (-enomem, h)
  | .deviceAdd ret =>
      let h := { h with shost := h.shost.get, rport := ⟨1, false⟩ }
      if ret ≠ 0 then (ret, srpRportPut h) else (0, h)

/-- `srp_add_target` until the target is on the list -/
def srpAddTarget (calls : Calls) (h : Host) : ℤ × Host :=
  let h := { h with state := .scanning }
  if !calls.addHost then (-enodev, h)
  else
    let p := srpRportAdd calls.rport (scsiAddHost h)
    if p.1 ≠ 0 then (p.1, scsiRemoveHost p.2) else (0, { p.2 with listed := true })

def srpConnUnique (hosts : List Host) (state : TargetState) (t : Target) : Bool :=
  if state = .removed then false
  else
    hosts.all fun h => !(h.listed && t.idExt == h.target.idExt && t.iocGuid == h.target.iocGuid
      && t.initiatorExt == h.target.initiatorExt)

def srpQueueRemoveWork (h : Host) : Host :=
  if h.state ≠ .removed then { h with state := .removed, removal := .queued } else h

/-- The end of `srp_add_target`, after the scan -/
def scanned (live : Bool) (h : Host) : Host :=
  if live then { h with state := if h.state = .scanning then .live else h.state }
  else srpQueueRemoveWork h

/-- The statements from the label `connected` on, until the target is on the list. -/
def connected (calls : Calls) (h : Host) : Host :=
  let p := srpAddTarget calls h
  { p.2 with phase := if p.1 ≠ 0 then .out p.1 else .scanning }

/-- `srp_create_target` from `mutex_lock` until the target is on the list -/
def createTarget (kernel : Kernel) (hosts : List Host) (calls : Calls) (h : Host) : Host :=
  match srpParseOptions kernel h.buf h.target with
  | .error _ => { h with phase := .out (-einval) }
  | .ok t =>
      let h := { h with target := t }
      if !srpConnUnique hosts h.state t then { h with phase := .out (-eexist) }
      else if calls.queryGid ≠ 0 then { h with phase := .out calls.queryGid }
      else if !calls.allocCh then { h with phase := .out (-enomem) }
      else if !calls.allocMqMap then { h with phase := .out (-enomem) }
      else if channelsRet (calls.machine.config t) calls.channels ≠ 0 then
        { h with phase := .out (channelsRet (calls.machine.config t) calls.channels) }
      else connected calls h

/-- What can happen to a host: its creation goes on, its removal is queued or goes on. -/
inductive Action where
  | create (calls : Calls)
  | scan (live : Bool)
  | leave
  | queueRemoveWork
  | unregister
  | unlink

def Host.holdsMutex (h : Host) : Bool :=
  match h.phase with
  | .scanning => true
  | .out _ => true
  | _ => false

def Host.step (kernel : Kernel) (hosts : List Host) (h : Host) : Action → Option Host
  | .create calls =>
      if h.phase = .waiting ∧ hosts.all (!·.holdsMutex) then
        some (createTarget kernel hosts calls h)
      else none
  | .scan live =>
      if h.phase = .scanning then
        some { scanned live h with phase := .out h.buf.length }
      else none
  | .leave =>
      match h.phase with
      | .out ret => some { h with shost := h.shost.put, phase := .returned ret }
      | _ => none
  | .queueRemoveWork => if h.listed then some (srpQueueRemoveWork h) else none
  | .unregister =>
      if h.removal = .queued then
        let h := srpRportPut (scsiRemoveHost (srpRportPut (srpRportGet h)))
        some { h with removal := .unregistered }
      else none
  | .unlink =>
      if h.removal = .unregistered then
        some { h with listed := false, shost := h.shost.put, removal := .done }
      else none

/-- A write to `add_target` begins, with the result of `scsi_host_alloc`, or something happens
to a host. -/
inductive Event where
  | write (alloc : Bool) (buf : List Char)
  | act (i : ℕ) (action : Action)

/-- The host when `srp_create_target` waits for the mutex. -/
def allocated (target : Target) (buf : List Char) : Host where
  buf := buf
  target := target
  shost := Refs.get ⟨1, false⟩

section
variable (kernel : Kernel) (target : Target)

/-- The SCSI hosts that have been allocated, the oldest first, after an event. -/
def step (hosts : List Host) : Event → Option (List Host)
  | .write alloc buf => some (if alloc then hosts++[allocated target buf] else hosts)
  | .act i action =>
      match hosts[i]? with
      | none => none
      | some h => (h.step kernel hosts action).map (hosts.set i)

end

def Host.inProgress (h : Host) : Prop := ∀ ret, h.phase ≠ .returned ret

/-- The host belongs to a target on the list or to a creation, or else no reference is left;
and no reference has been dropped or taken after the last one. -/
structure Host.Balanced (h : Host) : Prop where
  owned : h.listed = true ∨ h.inProgress ∨ h.shost.count = 0
  once : h.shost.misused = false

/-- The stages of a host: those of a target that is created and removed, and that of a
creation that has failed. -/
inductive Stage where
  | pending
  | failed
  | listed
  | queued
  | unregistered
  | gone
deriving DecidableEq, Repr

/-- The references to the host, apart from that of the creation. -/
def Stage.refs : Stage → ℕ
  | .listed => 3
  | .queued => 3
  | .gone => 0
  | _ => 1

def Stage.rport : Stage → ℕ
  | .listed => 1
  | .queued => 1
  | _ => 0

def Stage.removal : Stage → Removal
  | .queued => .queued
  | .unregistered => .unregistered
  | .gone => .done
  | _ => .idle

def Stage.isListed : Stage → Bool
  | .listed => true
  | .queued => true
  | .unregistered => true
  | _ => false

/-- The steps from stage to stage; whether a creation fails is decided by `ok`. -/
inductive Stage.Next (ok : Prop) : Stage → Stage → Prop
  | stay (s : Stage) : Next ok s s
  | fail : ¬ ok → Next ok .pending .failed
  | add : ok → Next ok .pending .listed
  | queue : Next ok .listed .queued
  | unregister : Next ok .queued .unregistered
  | unlink : Next ok .unregistered .gone

def Phase.refs : Phase → ℕ
  | .returned _ => 0
  | _ => 1

structure Host.At (h : Host) (s : Stage) : Prop where
  shost : h.shost = ⟨h.phase.refs+s.refs, false⟩
  rport : h.rport = ⟨s.rport, false⟩
  removal : h.removal = s.removal
  listed : h.listed = s.isListed
  removed : h.state = .removed ↔ s.removal ≠ .idle
  pending : h.phase = .waiting ↔ s = .pending
  scanning : h.phase = .scanning → s ≠ .failed

/-- What the creation of a host meets with: the options are accepted, there is no other
target with the same identifiers on the list, the calls around the channels succeed, and the
calls for the channels let the loops reach `connected`. -/
structure Meets (kernel : Kernel) (hosts : List Host) (calls : Calls) (h : Host) : Prop where
  options : ∃ t, srpParseOptions kernel h.buf h.target = .ok t ∧
    srpConnUnique hosts h.state t = true ∧
    Connects (calls.machine.config t) calls.channels
  queryGid : calls.queryGid = 0
  allocCh : calls.allocCh = true
  allocMqMap : calls.allocMqMap = true
  addHost : calls.addHost = true
  rport : calls.rport = .deviceAdd 0

/-- What an action needs in order not to fail. -/
def Action.Meets (kernel : Kernel) (hosts : List Host) (h : Host) : Action → Prop
  | .create calls => HostReferences.Meets kernel hosts calls h
  | _ => True

section
variable {kernel : Kernel} {hosts : List Host} {calls : Calls} {h h' : Host} {s : Stage}

theorem srpAddTarget_of_ok (hadd : calls.addHost = true) (hrport : calls.rport = .deviceAdd 0)
    (h : Host) :
    srpAddTarget calls h = (0, { h with
      state := .scanning, shost := h.shost.get.get, rport := ⟨1, false⟩, listed := true }) := by
  simp [srpAddTarget, srpRportAdd, scsiAddHost, hadd, hrport]

theorem srpAddTarget_of_error (hcalls : ¬ (calls.addHost = true ∧ calls.rport = .deviceAdd 0))
    (hshost : h.shost = ⟨2, false⟩) (hrport : h.rport = ⟨0, false⟩) :
    ∃ ret, ret ≠ 0 ∧ srpAddTarget calls h = (ret, { h with state := .scanning }) := by
  obtain ⟨buf, target, shost, rport, state, listed, phase, removal⟩ := h
  cases hshost
  cases hrport
  cases hadd : calls.addHost with
  | false => exact ⟨-enodev, by decide, by simp [srpAddTarget, hadd]⟩
  | true =>
      cases hcall : calls.rport with
      | noMemory => exact ⟨-enomem, by decide, by simp [srpAddTarget, hadd, hcall]; rfl⟩
      | deviceAdd ret =>
          have hret : ret ≠ 0 := by
            intro hzero
            rw [hzero] at hcall
            exact hcalls ⟨hadd, hcall⟩
          exact ⟨ret, hret, by simp [srpAddTarget, srpRportAdd, hadd, hcall, hret]; rfl⟩

theorem Host.At.out (hat : h.At .pending) (t : Target) (ret : ℤ) :
    ({ h with target := t, phase := .out ret } : Host).At .failed := by
  have hphase : h.phase = .waiting := hat.pending.mpr rfl
  constructor
  · rw [hat.shost, hphase]
    rfl
  · exact hat.rport
  · exact hat.removal
  · exact hat.listed
  · exact hat.removed
  · simp
  · simp

/-- A creation that does not meet with what it needs keeps the reference of the allocation. -/
theorem createTarget_of_not_meets (hat : h.At .pending) (hmeets : ¬ Meets kernel hosts calls h) :
    (createTarget kernel hosts calls h).At .failed := by
  have hshost : h.shost = ⟨2, false⟩ := by
    rw [hat.shost, hat.pending.mpr rfl]
    rfl
  unfold createTarget
  cases hparse : srpParseOptions kernel h.buf h.target with
  | error e => exact hat.out h.target _
  | ok t =>
      simp only
      split_ifs with hunique hgid hch hmap hchannels
      · exact hat.out t _
      · exact hat.out t _
      · exact hat.out t _
      · exact hat.out t _
      · exact hat.out t _
      · have hcalls : ¬ (calls.addHost = true ∧ calls.rport = .deviceAdd 0) := by
          rintro ⟨hadd, hrport⟩
          apply hmeets
          constructor
          · have hconnects := (channelsRet_eq_zero_iff _ _).mp (not_not.mp hchannels)
            exact ⟨t, hparse, by simpa using hunique, hconnects⟩
          · exact not_not.mp hgid
          · simpa using hch
          · simpa using hmap
          · exact hadd
          · exact hrport
        obtain ⟨ret, hret, hadd⟩ := srpAddTarget_of_error (h := { h with target := t }) hcalls
          hshost hat.rport
        simp only [connected, hadd, ne_eq, hret, not_false_eq_true, if_true]
        have hout := hat.out t ret
        exact ⟨hout.shost, hout.rport, hout.removal, hout.listed, by simp [Stage.removal],
          hout.pending, hout.scanning⟩

theorem createTarget_of_meets (hat : h.At .pending) (hmeets : Meets kernel hosts calls h) :
    (createTarget kernel hosts calls h).At .listed := by
  have hshost : h.shost = ⟨2, false⟩ := by
    rw [hat.shost, hat.pending.mpr rfl]
    rfl
  obtain ⟨t, hparse, hunique, hconnects⟩ := hmeets.options
  have hchannels := (channelsRet_eq_zero_iff _ _).mpr hconnects
  simp only [createTarget, hparse, hunique, hmeets.queryGid, hmeets.allocCh, hmeets.allocMqMap,
    hchannels, connected, srpAddTarget_of_ok hmeets.addHost hmeets.rport, Bool.not_true,
    Bool.false_eq_true, ne_eq, not_true_eq_false, if_false, hshost]
  constructor
  · rfl
  · rfl
  · exact hat.removal
  · rfl
  · simp [Stage.removal]
  · simp
  · simp

theorem srpQueueRemoveWork_stage (hat : h.At s) (hs : s ≠ .pending ∧ s ≠ .failed) {ok : Prop} :
    ∃ s', s.Next ok s' ∧ (srpQueueRemoveWork h).At s' := by
  unfold srpQueueRemoveWork
  split_ifs with hstate
  · have hlisted : s = .listed := by
      have hidle := mt hat.removed.mpr hstate
      cases s <;> simp_all [Stage.removal]
    cases hlisted
    refine ⟨.queued, .queue, ?_⟩
    constructor
    · exact hat.shost
    · exact hat.rport
    · rfl
    · exact hat.listed
    · simp [Stage.removal]
    · simp [hat.pending]
    · simp
  · exact ⟨s, .stay s, hat⟩

theorem scanned_phase (live : Bool) (h : Host) : (scanned live h).phase = h.phase := by
  unfold scanned srpQueueRemoveWork
  split_ifs <;> rfl

theorem scanned_stage (hat : h.At s) (hs : s ≠ .pending ∧ s ≠ .failed) (live : Bool)
    {ok : Prop} : ∃ s', s.Next ok s' ∧ (scanned live h).At s' := by
  cases live with
  | true =>
      have hremoved : (if h.state = .scanning then TargetState.live else h.state) = .removed ↔
          h.state = .removed := by
        cases h.state <;> simp
      exact ⟨s, .stay s, hat.shost, hat.rport, hat.removal, hat.listed,
        hremoved.trans hat.removed, hat.pending, hat.scanning⟩
  | false => exact srpQueueRemoveWork_stage hat hs

theorem Host.At.not_pending (hat : h.At s) (hphase : h.phase ≠ .waiting) : s ≠ .pending :=
  mt hat.pending.mpr hphase

theorem Host.At.endScan (hat : h.At s) (hphase : h.phase = .scanning) (ret : ℤ) :
    ({ h with phase := .out ret } : Host).At s := by
  have hpending := hat.not_pending (by simp [hphase])
  constructor
  · rw [hat.shost, hphase]
    rfl
  · exact hat.rport
  · exact hat.removal
  · exact hat.listed
  · exact hat.removed
  · simp [hpending]
  · simp

theorem srpRportPut_srpRportGet (hrport : h.rport = ⟨1, false⟩) :
    srpRportPut (srpRportGet h) = h := by
  cases h
  cases hrport
  rfl

theorem srpRportPut_of_last (hrport : h.rport = ⟨1, false⟩) :
    srpRportPut h = { h with rport := ⟨0, false⟩, shost := h.shost.put } := by
  cases h
  cases hrport
  rfl

/-- The SCSI core and the remote port drop their references, and nobody else does. -/
theorem Host.At.unregister (hat : h.At .queued) :
    ({ srpRportPut (scsiRemoveHost (srpRportPut (srpRportGet h))) with
      removal := .unregistered } : Host).At .unregistered := by
  rw [srpRportPut_srpRportGet hat.rport, srpRportPut_of_last (h := scsiRemoveHost h) hat.rport]
  constructor
  · simp only [scsiRemoveHost, hat.shost]
    rfl
  · rfl
  · rfl
  · exact hat.listed
  · exact hat.removed.trans (by simp [Stage.removal])
  · exact hat.pending.trans (by simp)
  · simp

theorem Host.At.unlink (hat : h.At .unregistered) :
    ({ h with listed := false, shost := h.shost.put, removal := .done } : Host).At .gone := by
  constructor
  · simp only [hat.shost]
    rfl
  · exact hat.rport
  · rfl
  · rfl
  · simpa [Stage.removal] using hat.removed
  · simpa using hat.pending
  · simp

theorem Host.At.leave (hat : h.At s) {ret : ℤ} (hphase : h.phase = .out ret) :
    ({ h with shost := h.shost.put, phase := .returned ret } : Host).At s := by
  have hpending := hat.not_pending (by simp [hphase])
  constructor
  · simp [Refs.put, hat.shost, hphase, Phase.refs]
  · exact hat.rport
  · exact hat.removal
  · exact hat.listed
  · exact hat.removed
  · simp [hpending]
  · simp

theorem Stage.eq_queued (h : s.removal = .queued) : s = .queued := by
  cases s <;> first | rfl | cases h

theorem Stage.eq_unregistered (h : s.removal = .unregistered) : s = .unregistered := by
  cases s <;> first | rfl | cases h

/-- An action takes a host from its stage to the next one, or leaves it there. -/
theorem Host.At.step (hat : h.At s) {action : Action}
    (hstep : h.step kernel hosts action = some h') :
    ∃ s', s.Next (action.Meets kernel hosts h) s' ∧ h'.At s' := by
  cases action with
  | create calls =>
      simp only [Host.step] at hstep
      split_ifs at hstep with henabled
      cases hstep
      have hs := hat.pending.mp henabled.1
      cases hs
      by_cases hmeets : Meets kernel hosts calls h
      · exact ⟨.listed, .add hmeets, createTarget_of_meets hat hmeets⟩
      · exact ⟨.failed, .fail hmeets, createTarget_of_not_meets hat hmeets⟩
  | scan live =>
      simp only [Host.step] at hstep
      split_ifs at hstep with hphase
      cases hstep
      have hs : s ≠ .pending ∧ s ≠ .failed :=
        ⟨hat.not_pending (by simp [hphase]), hat.scanning hphase⟩
      obtain ⟨s', hnext, hat'⟩ := scanned_stage hat hs live
      have hphase' : (scanned live h).phase = .scanning := by rw [scanned_phase, hphase]
      exact ⟨s', hnext, hat'.endScan hphase' _⟩
  | leave =>
      simp only [Host.step] at hstep
      split at hstep
      · rename_i ret hphase
        cases hstep
        exact ⟨s, .stay s, hat.leave hphase⟩
      · cases hstep
  | queueRemoveWork =>
      simp only [Host.step] at hstep
      split_ifs at hstep with hlisted
      cases hstep
      rw [hat.listed] at hlisted
      apply srpQueueRemoveWork_stage hat
      constructor
      · rintro rfl
        cases hlisted
      · rintro rfl
        cases hlisted
  | unregister =>
      simp only [Host.step] at hstep
      split_ifs at hstep with hremoval
      cases hstep
      have hs := Stage.eq_queued (hat.removal.symm.trans hremoval)
      cases hs
      exact ⟨.unregistered, .unregister, hat.unregister⟩
  | unlink =>
      simp only [Host.step] at hstep
      split_ifs at hstep with hremoval
      cases hstep
      have hs := Stage.eq_unregistered (hat.removal.symm.trans hremoval)
      cases hs
      exact ⟨.gone, .unlink, hat.unlink⟩

theorem allocated_at (target : Target) (buf : List Char) : (allocated target buf).At .pending := by
  constructor
  · rfl
  · rfl
  · rfl
  · rfl
  · simp [allocated, Stage.removal]
  · simp [allocated]
  · simp

theorem Host.At.balanced_iff (hat : h.At s) : h.Balanced ↔ (s = .failed → h.inProgress) := by
  constructor
  · rintro ⟨howned, -⟩ rfl
    rcases howned with hlisted | hprogress | hzero
    · rw [hat.listed] at hlisted
      cases hlisted
    · exact hprogress
    · rw [hat.shost] at hzero
      simp [Stage.refs] at hzero
  · intro hfailed
    constructor
    · cases s with
      | pending =>
          right
          left
          intro ret
          rw [hat.pending.mpr rfl]
          simp
      | failed => exact .inr (.inl (hfailed rfl))
      | listed => exact .inl hat.listed
      | queued => exact .inl hat.listed
      | unregistered => exact .inl hat.listed
      | gone =>
          right
          by_cases hprogress : h.inProgress
          · exact .inl hprogress
          · unfold Host.inProgress at hprogress
            push Not at hprogress
            obtain ⟨ret, hphase⟩ := hprogress
            right
            rw [hat.shost, hphase]
            rfl
    · rw [hat.shost]

end

section
variable {kernel : Kernel} {target : Target} {hosts hosts' : List Host}

/-- A property of each host is kept by a step if it holds of a new host and is kept by the
actions. -/
theorem forall_of_step {P : Host → Prop} {e : Event}
    (hnew : ∀ buf, P (allocated target buf))
    (hact : ∀ i action, e = .act i action → ∀ h h', hosts[i]? = some h → P h →
      h.step kernel hosts action = some h' → P h')
    (hall : ∀ h ∈ hosts, P h) (hstep : step kernel target hosts e = some hosts') :
    ∀ h ∈ hosts', P h := by
  cases e with
  | write alloc buf =>
      cases hstep
      cases alloc with
      | false => exact hall
      | true =>
          intro h hmem
          rcases List.mem_append.mp hmem with hold | hlast
          · exact hall h hold
          · rw [List.mem_singleton.mp hlast]
            exact hnew buf
  | act i action =>
      simp only [step] at hstep
      split at hstep
      · cases hstep
      · rename_i h hi
        obtain ⟨h', hh', heq⟩ := Option.map_eq_some_iff.mp hstep
        rw [← heq]
        intro k hk
        rcases List.mem_or_eq_of_mem_set hk with hold | hchanged
        · exact hall k hold
        · rw [hchanged]
          exact hact i action rfl h h' hi (hall h (List.mem_of_getElem? hi)) hh'

/-- In every run each host is at a stage. -/
theorem run_at (hrun : AnyRun (step kernel target) [] hosts) : ∀ h ∈ hosts, ∃ s, h.At s := by
  apply hrun.invariant (by simp)
  intro hosts e hosts' hall _ hstep
  apply forall_of_step _ _ hall hstep
  · intro buf
    exact ⟨.pending, allocated_at target buf⟩
  · rintro i action - h h' - ⟨s, hat⟩ hact
    obtain ⟨s', -, hat'⟩ := hat.step hact
    exact ⟨s', hat'⟩

/-- The events of a run in which no creation fails. -/
def Allowed (kernel : Kernel) (hosts : List Host) : Event → Prop
  | .write _ _ => True
  | .act i action => ∀ h, hosts[i]? = some h → action.Meets kernel hosts h

theorem run_not_failed (hrun : Run (step kernel target) (Allowed kernel) [] hosts) :
    ∀ h ∈ hosts, ∃ s, h.At s ∧ s ≠ .failed := by
  apply hrun.invariant (by simp)
  intro hosts e hosts' hall hallowed hstep
  apply forall_of_step _ _ hall hstep
  · intro buf
    exact ⟨.pending, allocated_at target buf, by simp⟩
  · rintro i action rfl h h' hi ⟨s, hat, hs⟩ hact
    obtain ⟨s', hnext, hat'⟩ := hat.step hact
    cases hnext with
    | stay => exact ⟨s, hat', hs⟩
    | fail hmeets => exact absurd (hallowed h hi) hmeets
    | add => exact ⟨.listed, hat', by simp⟩
    | queue => exact ⟨.queued, hat', by simp⟩
    | unregister => exact ⟨.unregistered, hat', by simp⟩
    | unlink => exact ⟨.gone, hat', by simp⟩

theorem failed_stays {i : ℕ} {h : Host} (hi : hosts[i]? = some h) (hat : h.At .failed)
    (hrun : AnyRun (step kernel target) hosts hosts') :
    ∃ h', hosts'[i]? = some h' ∧ h'.At .failed := by
  apply hrun.invariant ⟨h, hi, hat⟩
  rintro hosts e hosts' ⟨h, hi, hat⟩ - hstep
  have hlt := (List.getElem?_eq_some_iff.mp hi).1
  cases e with
  | write alloc buf =>
      cases hstep
      refine ⟨h, ?_, hat⟩
      split_ifs
      · rw [List.getElem?_append_left hlt, hi]
      · exact hi
  | act k action =>
      simp only [step] at hstep
      split at hstep
      · cases hstep
      · rename_i h₁ hk
        obtain ⟨h₂, hact, heq⟩ := Option.map_eq_some_iff.mp hstep
        rw [← heq]
        by_cases hki : k = i
        · cases hki
          rw [hi] at hk
          cases hk
          obtain ⟨s', hnext, hat'⟩ := hat.step hact
          cases hnext
          exact ⟨h₂, List.getElem?_set_self hlt, hat'⟩
        · exact ⟨h, by rw [List.getElem?_set_ne hki, hi], hat⟩

variable (kernel target)

/-- The references to the SCSI hosts are balanced in every state of a run in which the
creations meet with what they need. If one of them does not, its host is left with a
reference when the call has returned, whatever else happens. -/
theorem host_references_balanced :
    (∀ hosts, Run (step kernel target) (Allowed kernel) [] hosts → ∀ h ∈ hosts, h.Balanced) ∧
    ∀ before after hosts i calls h h', AnyRun (step kernel target) [] before →
      before[i]? = some h → ¬ Meets kernel before calls h →
      step kernel target before (.act i (.create calls)) = some after →
      AnyRun (step kernel target) after hosts → hosts[i]? = some h' → ¬ h'.inProgress →
        ¬ h'.Balanced ∧ h'.shost.count = 1 := by
  constructor
  · intro hosts hrun h hh
    obtain ⟨s, hat, hs⟩ := run_not_failed hrun h hh
    exact hat.balanced_iff.mpr fun hfailed => absurd hfailed hs
  · intro before after hosts i calls h h' hbefore hi hmeets hstep hafter hi' hreturned
    have hlt := (List.getElem?_eq_some_iff.mp hi).1
    obtain ⟨s, hat⟩ := run_at hbefore h (List.mem_of_getElem? hi)
    simp only [step, hi] at hstep
    obtain ⟨h₁, hact, heq⟩ := Option.map_eq_some_iff.mp hstep
    have hfailed : h₁.At .failed := by
      simp only [Host.step] at hact
      split_ifs at hact with henabled
      cases hact
      have hs := hat.pending.mp henabled.1
      rw [hs] at hat
      exact createTarget_of_not_meets hat hmeets
    have hi₁ : after[i]? = some h₁ := by rw [← heq, List.getElem?_set_self hlt]
    obtain ⟨h₂, hi₂, hat₂⟩ := failed_stays hi₁ hfailed hafter
    rw [hi'] at hi₂
    cases hi₂
    constructor
    · intro hbalanced
      exact hreturned (hat₂.balanced_iff.mp hbalanced rfl)
    · unfold Host.inProgress at hreturned
      push Not at hreturned
      obtain ⟨ret, hphase⟩ := hreturned
      rw [hat₂.shost, hphase]
      rfl

end

def twoNodes : Machine where
  topo := ChannelCoverage.fourCpus (· / 2) ChannelCoverage.halves_online
  chCountParam := 4
  numCompVectors := 2
  vectors_pos := Nat.two_pos

def noErrors : Calls where
  machine := twoNodes
  queryGid := 0
  allocCh := true
  allocMqMap := true
  channels := ChannelCoverage.noErrors
  addHost := true
  rport := .deviceAdd 0

def loginText : List Char := "id_ext=1,ioc_guid=2,dest=10.0.0.1:5".toList

theorem loginText_meets :
    Meets plainKernel [allocated (newTarget {} 1024) loginText] noErrors
      (allocated (newTarget {} 1024) loginText) := by
  have hok : ∃ t, srpParseOptions plainKernel loginText (newTarget {} 1024) = .ok t := ⟨_, rfl⟩
  obtain ⟨t, hok⟩ := hok
  refine ⟨⟨t, hok, ?_, ?_⟩, rfl, rfl, rfl, rfl, rfl⟩
  · rfl
  · exact ⟨fun _ => rfl, fun _ _ _ => ⟨rfl, rfl, rfl⟩⟩

/-- All references are dropped to the host of a target that is removed while its creation is
scanning. -/
theorem removed_early_balanced :
    ∃ h, Run (step plainKernel (newTarget {} 1024)) (Allowed plainKernel) [] [h] ∧
      h.Balanced ∧ h.listed = false ∧ h.phase = .returned 35 ∧ h.shost = ⟨0, false⟩ := by
  have hcreated : Run (step plainKernel (newTarget {} 1024)) (Allowed plainKernel) []
      [createTarget plainKernel [allocated (newTarget {} 1024) loginText] noErrors
        (allocated (newTarget {} 1024) loginText)] := by
    refine .more (e := .act 0 (.create noErrors))
      (.more (e := .write true loginText) .start trivial rfl) ?_ rfl
    intro h hh
    cases hh
    exact loginText_meets
  have hremoved : ∃ h, Run (step plainKernel (newTarget {} 1024)) (Allowed plainKernel) [] [h] ∧
      h.listed = false ∧ h.phase = .returned 35 ∧ h.shost = ⟨0, false⟩ :=
    ⟨_, .more (e := .act 0 .leave) (.more (e := .act 0 (.scan true))
      (.more (e := .act 0 .unlink) (.more (e := .act 0 .unregister)
        (.more (e := .act 0 .queueRemoveWork) hcreated (fun _ _ => trivial) rfl)
        (fun _ _ => trivial) rfl) (fun _ _ => trivial) rfl) (fun _ _ => trivial) rfl)
      (fun _ _ => trivial) rfl, rfl, rfl, rfl⟩
  obtain ⟨h, hrun, hfacts⟩ := hremoved
  exact ⟨h, hrun, (host_references_balanced _ _).1 [h] hrun h (List.mem_singleton_self h), hfacts⟩

/-- The call with a text that is refused returns `-EINVAL` and leaves its host behind, with a
reference that nobody holds. -/
theorem refused_text_keeps_host :
    ∃ h, AnyRun (step plainKernel (newTarget {} 1024)) [] [h] ∧ h.listed = false ∧
      h.phase = .returned (-22) ∧ h.shost = ⟨1, false⟩ ∧ ¬ h.Balanced := by
  have hreturned : ∃ h, AnyRun (step plainKernel (newTarget {} 1024)) [] [h] ∧
      h.listed = false ∧ h.phase = .returned (-22) ∧ h.shost = ⟨1, false⟩ :=
    ⟨_, .more (e := .act 0 .leave) (.more (e := .act 0 (.create noErrors))
      (.more (e := .write true "id_ext=1".toList) .start trivial rfl) trivial rfl) trivial rfl,
      rfl, rfl, rfl⟩
  obtain ⟨h, hrun, hlisted, hphase, hshost⟩ := hreturned
  refine ⟨h, hrun, hlisted, hphase, hshost, ?_⟩
  rintro ⟨howned, -⟩
  simp [hlisted, hshost, Host.inProgress, hphase] at howned

end IbSrp.HostReferences

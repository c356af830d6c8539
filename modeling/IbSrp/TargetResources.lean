import IbSrp.ChannelResources
import IbSrp.ChannelCoverage

/-!
# What the creation of a target acquires and gives back

`srp_create_target` allocates the array of channels and the map from CPUs to channels,
sets up the channels one after the other and registers the target. There are three ways
on from the loops: all channels are there; a login other than the first has failed,
its channel is released and the number of channels cut down; or something else has
failed, and at `err_disconnect` every channel is released that is within the count,
whether it has been set up, set up in part or not reached at all.
`srp_remove_target` goes over the channels twice.

The loops over nodes and CPUs are the list of their visits. The channels come in
ascending order, so that a channel whose turn has not come is still zero, and with it
all that follow.
-/
namespace IbSrp.TargetResources
open ObjectLedger ChannelObjects ChannelResources ChannelVisits
open ChannelSetup (Config)
open ChannelCoverage (fourChannels fourCpus halves_online)

/-- The target: the number of channels, the channels and the two arrays. -/
structure Target (r : Registration) where
  chCount : ℕ
  ch : ℕ → Channel r := fun _ => {}
  chArray : Option Object := none
  mqMap : Option Object := none

/-- The settings of a target that its resources depend on. -/
structure Settings where
  usingRdmaCm : Bool
  queueSize : ℕ
  reqRingSize : ℕ

/-- The results of the calls within `srp_create_target`. -/
structure TargetCalls where
  connUnique : Bool
  queryGid : ℤ
  allocCh : Bool
  allocMqMap : Bool
  ch : ℕ → ChCalls
  addTarget : ℤ

inductive Exit (r : Registration) where
  | connected (t : Target r) (l : Objects)
  | errDisconnect (ret : ℤ) (t : Target r) (l : Objects)

inductive Created (r : Registration) where
  | failed (ret : ℤ) (l : Objects)
  | done (t : Target r) (l : Objects)

section
variable {r : Registration} (settings : Settings)

def createChIb (calls : ChCalls) (ch : Channel r) (l : Objects) : Step r :=
  let out := srpCreateChIb settings.usingRdmaCm calls.canQueue calls.verbs ch.verbs l
  ⟨out.ret, { ch with verbs := out.ch }, out.objects⟩

/-- The calls for a channel before its login. -/
def prepareCh (calls : ChCalls) (ch : Channel r) (l : Objects) : Step r :=
  let p := srpNewCmId settings.usingRdmaCm calls { ch with target := true } l
  if p.ret ≠ 0 then p
  else
    let p := createChIb settings calls p.ch p.objects
    if p.ret ≠ 0 then p
    else srpAllocReqData settings.reqRingSize calls p.ch p.objects

def Target.setCh (t : Target r) (c : ℕ) (ch : Channel r) : Target r :=
  { t with ch := Function.update t.ch c ch }

theorem Target.setCh_self (t : Target r) (c : ℕ) (ch : Channel r) : (t.setCh c ch).ch c = ch :=
  Function.update_self _ _ _

theorem Target.setCh_of_ne (t : Target r) {c k : ℕ} (hne : k ≠ c) (ch : Channel r) :
    (t.setCh c ch).ch k = t.ch k :=
  Function.update_of_ne hne _ _

def freeChannel (ch : Channel r) (l : Objects) : Channel r × Objects :=
  let p := srpFreeChIb ch l
  srpFreeReqData p.1 p.2

/-- The loop body for a CPU that sets up channel `c`. -/
def openChannel (calls : ChCalls) (first : Bool) (c : ℕ) (t : Target r) (l : Objects) :
    Except (Exit r) (Target r × Objects) :=
  let p := prepareCh settings calls (t.ch c) l
  if p.ret ≠ 0 then .error (.errDisconnect p.ret (t.setCh c p.ch) p.objects)
  else
    let p := srpConnectCh settings.queueSize calls p.ch p.objects
    if p.ret ≠ 0 then
      if first then .error (.errDisconnect p.ret (t.setCh c p.ch) p.objects)
      else
        let q := freeChannel p.ch p.objects
        .error (.connected { t.setCh c q.1 with chCount := c } q.2)
    else .ok (t.setCh c p.ch, p.objects)

def openChannels (cfg : Config) (calls : ℕ → ChCalls) :
    List Visit → Target r → Objects → Except (Exit r) (Target r × Objects)
  | [], t, l => .ok (t, l)
  | v::vs, t, l =>
      match channel cfg v with
      | none => openChannels cfg calls vs t l
      | some c =>
          match openChannel settings (calls c) (v.nodeIdx = 0 ∧ v.cpuIdx = 0) c t l with
          | .error e => .error e
          | .ok (t, l) => openChannels cfg calls vs t l

def forChannels (f : Channel r → Objects → Channel r × Objects) :
    ℕ → Target r → Objects → Target r × Objects
  | 0, t, l => (t, l)
  | n+1, t, l =>
      let p := forChannels f n t l
      let q := f (p.1.ch n) p.2
      (p.1.setCh n q.1, q.2)

/-- The statements from the label `err_disconnect` on; nothing is released by
`srp_disconnect_target`. -/
def errDisconnect (t : Target r) (l : Objects) : Objects :=
  let p := forChannels freeChannel t.chCount t l
  (p.2.destroy t.mqMap.toList).destroy t.chArray.toList

def started (cfg : Config) (chArray mqMap : Object) : Target r :=
  { chCount := cfg.chCount, chArray := some chArray, mqMap := some mqMap }

def eexist : ℤ := 17

/-- The part of `srp_create_target` after the options have been parsed -/
def srpCreateTarget (cfg : Config) (calls : TargetCalls) (l : Objects) : Created r :=
  if !calls.connUnique then .failed (-eexist) l
  else if calls.queryGid ≠ 0 then .failed calls.queryGid l
  else if !calls.allocCh then .failed (-enomem) l
  else
    let chArray := l.fresh .chArray
    let l := l.create .chArray
    if !calls.allocMqMap then .failed (-enomem) (l.destroy [chArray])
    else
      let t := started cfg chArray (l.fresh .mqMap)
      match openChannels settings cfg calls.ch (visits cfg) t (l.create .mqMap) with
      | .error (.errDisconnect ret t l) => .failed ret (errDisconnect t l)
      | .error (.connected t l) =>
          if calls.addTarget ≠ 0 then .failed calls.addTarget (errDisconnect t l) else .done t l
      | .ok (t, l) =>
          if calls.addTarget ≠ 0 then .failed calls.addTarget (errDisconnect t l) else .done t l

def srpRemoveTarget (t : Target r) (l : Objects) : Objects :=
  let p := forChannels srpFreeChIb t.chCount t l
  let q := forChannels srpFreeReqData t.chCount p.1 p.2
  (q.2.destroy t.mqMap.toList).destroy t.chArray.toList

end

def Target.channelsOwned {r : Registration} (t : Target r) : List Object :=
  (List.range t.chCount).flatMap fun c => (t.ch c).owned

def Target.owned {r : Registration} (t : Target r) : List Object :=
  t.channelsOwned++(t.mqMap.toList++t.chArray.toList)

section
variable {r : Registration} (settings : Settings) (calls : ChCalls)

theorem srpNewCmId_frame (usingRdmaCm : Bool) (ch : Channel r) (l : Objects) :
    ∃ cmId cmQp, (srpNewCmId usingRdmaCm calls ch l).ch =
      { ch with cmId := cmId, verbs := { ch.verbs with cmQp := cmQp } } := by
  cases usingRdmaCm with
  | true =>
      simp only [srpNewCmId, if_true, srpNewRdmaCmId]
      split_ifs
      · exact ⟨ch.cmId, ch.verbs.cmQp, rfl⟩
      · exact ⟨ch.cmId, ch.verbs.cmQp, rfl⟩
      · exact ⟨_, none, rfl⟩
  | false =>
      simp only [srpNewCmId, Bool.false_eq_true, if_false, srpNewIbCmId]
      split_ifs
      · exact ⟨ch.cmId, ch.verbs.cmQp, rfl⟩
      · exact ⟨_, ch.verbs.cmQp, rfl⟩

theorem createChIb_exchange {ch : Channel r} (hblank : ch.verbs.toVerbs = {}) (l : Objects) :
    Exchange l [] (createChIb settings calls ch l).objects
        (verbsOwned (createChIb settings calls ch l).ch.verbs.toVerbs) ∧
      ((createChIb settings calls ch l).ret = 0 →
        (createChIb settings calls ch l).ch.verbs.qp.isSome) := by
  have hreplaced := srpCreateChIb_replaced settings.usingRdmaCm calls.canQueue calls.verbs
    ch.verbs l
  have hexchange := hreplaced.exchange
  have hnone : ch.verbs.owned = [] := by
    rw [hblank]
    rfl
  rw [hnone] at hexchange
  simp only [createChIb]
  generalize srpCreateChIb settings.usingRdmaCm calls.canQueue calls.verbs ch.verbs l = out
    at hreplaced hexchange
  cases hreplaced with
  | failed hret hverbs hempty =>
      constructor
      · rw [hverbs, hblank]
        exact hempty
      · intro hzero
        exact absurd hzero hret
  | done hmade hcomplete =>
      constructor
      · rw [verbsOwned, if_pos hcomplete.qp]
        exact hexchange
      · intro _
        exact hcomplete.qp

theorem srpAllocReqData_frame (reqRingSize : ℕ) (ch : Channel r) (l : Objects) :
    ∃ reqRing, (srpAllocReqData reqRingSize calls ch l).ch = { ch with reqRing := reqRing } := by
  unfold srpAllocReqData
  split_ifs
  · exact ⟨none, rfl⟩
  · exact ⟨_, rfl⟩

/-- The inventory of a channel before its login. -/
theorem owned_of_prepared {ch : Channel r} (hrx : ch.rxRing = none) (htx : ch.txRing = none) :
    ch.owned = ch.cmId.toList++verbsOwned ch.verbs.toVerbs++reqObjects ch.reqRing := by
  simp [Channel.owned, Channel.ibOwned, hrx, htx, ringObjects]

/-- The channel owns what has been created since `l`, and its login is still to come. -/
structure Stage (l : Objects) (ch : Channel r) (l' : Objects) : Prop where
  exchange : Exchange l [] l' ch.owned
  target : ch.target = true
  rxRing : ch.rxRing = none
  txRing : ch.txRing = none

theorem newCmId_stage (l : Objects) :
    Stage l (srpNewCmId settings.usingRdmaCm calls ({ target := true } : Channel r) l).ch
      (srpNewCmId settings.usingRdmaCm calls ({ target := true } : Channel r) l).objects := by
  have hcm := srpNewCmId_exchange settings.usingRdmaCm calls ({ target := true } : Channel r) l
  obtain ⟨cmId, cmQp, hframe⟩ :=
    srpNewCmId_frame calls settings.usingRdmaCm ({ target := true } : Channel r) l
  rw [hframe] at hcm ⊢
  constructor
  · apply hcm.reorder (.refl _)
    simp [owned_of_prepared, verbsOwned, reqObjects]
  · rfl
  · rfl
  · rfl

variable {l l' : Objects} {ch : Channel r}

theorem Stage.createChIb (h : Stage l ch l') (hblank : ch.verbs.toVerbs = {}) :
    Stage l (createChIb settings calls ch l').ch (createChIb settings calls ch l').objects := by
  have hib := (createChIb_exchange settings calls hblank l').1
  have howned : ch.owned = ch.cmId.toList++reqObjects ch.reqRing := by
    simp [owned_of_prepared h.rxRing h.txRing, hblank, verbsOwned]
  constructor
  · have hall := h.exchange.trans (hib.frame ch.owned)
    have hnew : (TargetResources.createChIb settings calls ch l').ch.owned =
        ch.cmId.toList++
          verbsOwned (TargetResources.createChIb settings calls ch l').ch.verbs.toVerbs
          ++reqObjects ch.reqRing :=
      owned_of_prepared h.rxRing h.txRing
    apply hall.reorder (.refl _)
    rw [howned, hnew, List.append_assoc]
    exact List.perm_append_comm_assoc _ _ _
  · exact h.target
  · exact h.rxRing
  · exact h.txRing

theorem Stage.allocReqData (h : Stage l ch l') (hreq : ch.reqRing = none) :
    Stage l (srpAllocReqData settings.reqRingSize calls ch l').ch
      (srpAllocReqData settings.reqRingSize calls ch l').objects := by
  have halloc := srpAllocReqData_exchange settings.reqRingSize calls ch l'
  obtain ⟨reqRing, hframe⟩ := srpAllocReqData_frame calls settings.reqRingSize ch l'
  have howned : ch.owned = ch.cmId.toList++verbsOwned ch.verbs.toVerbs := by
    simp [owned_of_prepared h.rxRing h.txRing, hreq, reqObjects]
  have hall := h.exchange.trans (halloc.frame ch.owned)
  rw [hframe] at hall ⊢
  constructor
  · have hnew : ({ ch with reqRing := reqRing } : Channel r).owned =
        ch.cmId.toList++verbsOwned ch.verbs.toVerbs++reqObjects reqRing :=
      owned_of_prepared h.rxRing h.txRing
    apply hall.reorder (.refl _)
    rw [howned, hnew]
    exact List.perm_append_comm
  · exact h.target
  · exact h.rxRing
  · exact h.txRing

/-- Whatever happens before the login, the channel owns what there is. -/
theorem prepareCh_stage (l : Objects) :
    Stage l (prepareCh settings calls ({} : Channel r) l).ch
      (prepareCh settings calls ({} : Channel r) l).objects ∧
    ((prepareCh settings calls ({} : Channel r) l).ret = 0 →
      (prepareCh settings calls ({} : Channel r) l).ch.verbs.qp.isSome) := by
  have hcm := newCmId_stage (r := r) settings calls l
  obtain ⟨cmId, cmQp, hframe⟩ :=
    srpNewCmId_frame calls settings.usingRdmaCm ({ target := true } : Channel r) l
  simp only [prepareCh]
  generalize srpNewCmId settings.usingRdmaCm calls ({ target := true } : Channel r) l = p
    at hcm hframe
  have hblank : p.ch.verbs.toVerbs = {} := by
    rw [hframe]
  by_cases hret : p.ret ≠ 0
  · rw [if_pos hret]
    exact ⟨hcm, fun hzero => absurd hzero hret⟩
  rw [if_neg hret]
  have hib := hcm.createChIb settings calls hblank
  have hqp := (createChIb_exchange settings calls hblank p.objects).2
  have hreq : (createChIb settings calls p.ch p.objects).ch.reqRing = none := by
    rw [createChIb, hframe]
  by_cases hret' : (createChIb settings calls p.ch p.objects).ret ≠ 0
  · rw [if_pos hret']
    exact ⟨hib, fun hzero => absurd hzero hret'⟩
  rw [if_neg hret']
  constructor
  · exact hib.allocReqData settings calls hreq
  · intro _
    obtain ⟨reqRing, halloc⟩ := srpAllocReqData_frame calls settings.reqRingSize
      (createChIb settings calls p.ch p.objects).ch
      (createChIb settings calls p.ch p.objects).objects
    rw [halloc]
    exact hqp (not_not.mp hret')

/-- Only a channel with a queue pair gets rings. -/
theorem Stage.sound (h : Stage l ch l') : ch.Sound := by
  constructor
  · intro htarget
    rw [h.target] at htarget
    cases htarget
  · intro _
    exact ⟨h.rxRing, h.txRing⟩

theorem srpConnectCh_frame (queueSize : ℕ) (ch : Channel r) (l : Objects) :
    ∃ rxRing txRing, (srpConnectCh queueSize calls ch l).ch =
      { ch with rxRing := rxRing, txRing := txRing } := by
  unfold srpConnectCh
  split
  · unfold srpAllocIuBufs
    split_ifs
    · exact ⟨none, none, rfl⟩
    · exact ⟨none, none, rfl⟩
    · simp only
      split_ifs
      · exact ⟨_, _, rfl⟩
      · exact ⟨none, none, rfl⟩
  · exact ⟨ch.rxRing, ch.txRing, rfl⟩

/-- After its login, successful or not, the channel owns its rings too. -/
theorem Stage.connectCh (h : Stage l ch l') (hqp : ch.verbs.qp.isSome) :
    Exchange l [] (srpConnectCh settings.queueSize calls ch l').objects
        (srpConnectCh settings.queueSize calls ch l').ch.owned ∧
      (srpConnectCh settings.queueSize calls ch l').ch.Sound := by
  have hrings := srpConnectCh_exchange settings.queueSize calls h.rxRing h.txRing l'
  obtain ⟨rxRing, txRing, hframe⟩ := srpConnectCh_frame calls settings.queueSize ch l'
  have hall := h.exchange.trans (hrings.frame ch.owned)
  rw [hframe] at hall ⊢
  constructor
  · apply hall.reorder (.refl _)
    rw [owned_of_prepared h.rxRing h.txRing]
    apply List.perm_iff_count.mpr
    intro o
    simp only [Channel.owned, Channel.ibOwned, List.count_append]
    omega
  · constructor
    · intro htarget
      rw [h.target] at htarget
      cases htarget
    · intro hnone
      rw [hnone] at hqp
      cases hqp

theorem sound_of_ibOwned (h : ch.ibOwned = []) : ch.Sound := by
  constructor
  · intro _
    exact h
  · intro _
    unfold Channel.ibOwned at h
    have hrings := (List.append_eq_nil_iff.mp (List.append_eq_nil_iff.mp h).2).2
    constructor
    · cases hrx : ch.rxRing with
      | none => rfl
      | some ring => simp [hrx, ringObjects, IuRing.objects] at hrings
    · cases htx : ch.txRing with
      | none => rfl
      | some ring => simp [htx, ringObjects, IuRing.objects] at hrings

theorem freeChannel_owned (h : ch.Sound) (l : Objects) : (freeChannel ch l).1.owned = [] := by
  have hib := (srpFreeChIb_ch h l).1
  simp only [freeChannel, srpFreeReqData]
  cases hreq : (srpFreeChIb ch l).1.reqRing with
  | none => simp [Channel.owned, hib, hreq, reqObjects]
  | some ring =>
      have hib' : ({ (srpFreeChIb ch l).1 with reqRing := none } : Channel r).ibOwned = [] := hib
      simp [Channel.owned, hib', reqObjects]

theorem ibOwned_of_owned (h : ch.owned = []) : ch.ibOwned = [] := (List.append_eq_nil_iff.mp h).1

/-- The three ways in which the loop body for a channel ends. -/
inductive Opened (t : Target r) (c : ℕ) (l : Objects) :
    Except (Exit r) (Target r × Objects) → Prop
  | ok {ch : Channel r} {l' : Objects} : Exchange l [] l' ch.owned → ch.Sound →
      Opened t c l (.ok (t.setCh c ch, l'))
  | connected {ch : Channel r} {l' : Objects} : Exchange l [] l' [] → ch.owned = [] →
      Opened t c l (.error (.connected { t.setCh c ch with chCount := c } l'))
  | errDisconnect {ret : ℤ} {ch : Channel r} {l' : Objects} : ret ≠ 0 →
      Exchange l [] l' ch.owned → ch.Sound →
        Opened t c l (.error (.errDisconnect ret (t.setCh c ch) l'))

theorem openChannel_opened (first : Bool) {c : ℕ} {t : Target r} (hblank : t.ch c = {})
    (l : Objects) : Opened t c l (openChannel settings calls first c t l) := by
  have hprepared := prepareCh_stage (r := r) settings calls l
  simp only [openChannel, hblank]
  generalize prepareCh settings calls ({} : Channel r) l = p at hprepared
  by_cases hret : p.ret ≠ 0
  · rw [if_pos hret]
    exact .errDisconnect hret hprepared.1.exchange hprepared.1.sound
  rw [if_neg hret]
  have hconnect := hprepared.1.connectCh settings calls (hprepared.2 (not_not.mp hret))
  generalize srpConnectCh settings.queueSize calls p.ch p.objects = q at hconnect
  by_cases hret' : q.ret ≠ 0
  · rw [if_pos hret']
    cases first with
    | true => exact .errDisconnect hret' hconnect.1 hconnect.2
    | false =>
        exact .connected (hconnect.1.trans (free_exchange hconnect.2 _))
          (freeChannel_owned hconnect.2 _)
  · rw [if_neg hret']
    exact .ok hconnect.1 hconnect.2

end

theorem flatMap_range_update {α : Type} {f : ℕ → List α} {c n : ℕ} (hlt : c < n)
    (hnil : f c = []) (x : List α) :
    ((List.range n).flatMap (Function.update f c x)).Perm (x++(List.range n).flatMap f) := by
  induction n with
  | zero => omega
  | succ n ih =>
      rw [List.range_succ, List.flatMap_append, List.flatMap_append, List.flatMap_singleton,
        List.flatMap_singleton]
      by_cases hc : c = n
      · have hsame : (List.range n).flatMap (Function.update f c x) = (List.range n).flatMap f := by
          apply List.flatMap_congr
          intro k hk
          exact Function.update_of_ne (by have := List.mem_range.mp hk; omega) _ _
        rw [hsame, hc, Function.update_self, ← hc, hnil, List.append_nil]
        exact List.perm_append_comm
      · rw [Function.update_of_ne (Ne.symm hc), ← List.append_assoc]
        exact (ih (by omega)).append_right _

theorem flatMap_range_of_nil {α : Type} {f : ℕ → List α} {c n : ℕ} (hle : c ≤ n)
    (hnil : ∀ k, c ≤ k → f k = []) : (List.range n).flatMap f = (List.range c).flatMap f := by
  induction n, hle using Nat.le_induction with
  | base => rfl
  | succ n hle ih =>
      rw [List.range_succ, List.flatMap_append, List.flatMap_singleton, hnil n hle, ih,
        List.append_nil]

section
variable {r : Registration} (settings : Settings) (cfg : Config) (calls : ℕ → ChCalls)

/-- The channels own what has been created since `l₀`, and `srp_free_ch_ib` can tell what it
is; the arrays are those of `t₀`. -/
structure Holding (l₀ : Objects) (t₀ t : Target r) (l : Objects) : Prop where
  exchange : Exchange l₀ [] l t.channelsOwned
  sound : ∀ c, (t.ch c).Sound
  chArray : t.chArray = t₀.chArray
  mqMap : t.mqMap = t₀.mqMap

/-- The three ways in which the loops end. -/
inductive Exited (l₀ : Objects) (t₀ : Target r) : Except (Exit r) (Target r × Objects) → Prop
  | ok {t : Target r} {l : Objects} : Holding l₀ t₀ t l → Exited l₀ t₀ (.ok (t, l))
  | connected {t : Target r} {l : Objects} : Holding l₀ t₀ t l →
      Exited l₀ t₀ (.error (.connected t l))
  | errDisconnect {ret : ℤ} {t : Target r} {l : Objects} : ret ≠ 0 → Holding l₀ t₀ t l →
      Exited l₀ t₀ (.error (.errDisconnect ret t l))

variable {l₀ l l' : Objects} {t₀ t : Target r} {c : ℕ} {ch : Channel r}

theorem channelsOwned_setCh (hlt : c < t.chCount) (hblank : t.ch c = {}) :
    (t.setCh c ch).channelsOwned.Perm (ch.owned++t.channelsOwned) := by
  have hupdate : (fun k => ((t.setCh c ch).ch k).owned) =
      Function.update (fun k => (t.ch k).owned) c ch.owned := by
    funext k
    by_cases hk : k = c
    · rw [hk, Function.update_self, Target.setCh_self]
    · rw [Function.update_of_ne hk, Target.setCh_of_ne t hk]
  have hnil : (t.ch c).owned = [] := by
    rw [hblank]
    rfl
  unfold Target.channelsOwned
  rw [hupdate]
  exact flatMap_range_update hlt hnil _

theorem Target.setCh_sound (h : ∀ k, (t.ch k).Sound) (hch : ch.Sound) (k : ℕ) :
    ((t.setCh c ch).ch k).Sound := by
  by_cases hk : k = c
  · rw [hk, Target.setCh_self]
    exact hch
  · rw [Target.setCh_of_ne t hk]
    exact h k

theorem Holding.start (hblank : ∀ c, t.ch c = {}) (l : Objects) : Holding l t t l := by
  have hempty : t.channelsOwned = [] := by
    apply List.flatMap_eq_nil_iff.mpr
    intro c _
    rw [hblank c]
    rfl
  constructor
  · rw [hempty]
    exact .refl l _
  · intro c
    rw [hblank c]
    exact sound_of_ibOwned rfl
  · rfl
  · rfl

theorem Holding.setCh (h : Holding l₀ t₀ t l) (hlt : c < t.chCount) (hblank : t.ch c = {})
    (hex : Exchange l [] l' ch.owned) (hsound : ch.Sound) :
    Holding l₀ t₀ (t.setCh c ch) l' :=
  { exchange := (h.exchange.trans (hex.frame _)).reorder (.refl _)
      (channelsOwned_setCh hlt hblank).symm
    sound := Target.setCh_sound h.sound hsound
    chArray := h.chArray
    mqMap := h.mqMap }

/-- The count is cut down to a channel after which all are zero. -/
theorem Holding.cut (h : Holding l₀ t₀ t l) (hlt : c < t.chCount)
    (hblank : ∀ k, c ≤ k → t.ch k = {}) (hex : Exchange l [] l' []) (hch : ch.owned = []) :
    Holding l₀ t₀ { t.setCh c ch with chCount := c } l' := by
  have hkept : ({ t.setCh c ch with chCount := c } : Target r).channelsOwned =
      t.channelsOwned := by
    have hall : t.channelsOwned = (List.range c).flatMap fun k => (t.ch k).owned := by
      apply flatMap_range_of_nil (Nat.le_of_lt hlt)
      intro k hk
      rw [hblank k hk]
      rfl
    rw [hall]
    apply List.flatMap_congr
    intro k hk
    have hne : k ≠ c := Nat.ne_of_lt (List.mem_range.mp hk)
    rw [Target.setCh_of_ne t hne]
  constructor
  · rw [hkept]
    exact h.exchange.trans (hex.frame _)
  · exact Target.setCh_sound h.sound (sound_of_ibOwned (ibOwned_of_owned hch))
  · exact h.chArray
  · exact h.mqMap

/-- The loops, by induction on the visits to come: their channels are within the count, in
ascending order, and from each of them on all channels are still zero. -/
theorem openChannels_exited (vs : List Visit) (hasc : (channels cfg vs).Pairwise (· < ·))
    (hlt : ∀ c ∈ channels cfg vs, c < t.chCount)
    (hblank : ∀ c ∈ channels cfg vs, ∀ k, c ≤ k → t.ch k = {}) (h : Holding l₀ t₀ t l) :
    Exited l₀ t₀ (openChannels settings cfg calls vs t l) := by
  induction vs generalizing t l with
  | nil => exact .ok h
  | cons v vs ih =>
      cases hv : channel cfg v with
      | none =>
          have hchannels : channels cfg (v::vs) = channels cfg vs := by
            simp [channels, hv]
          rw [hchannels] at hasc hlt hblank
          simp only [openChannels, hv]
          exact ih hasc hlt hblank h
      | some c =>
          have hchannels : channels cfg (v::vs) = c::channels cfg vs := by
            simp [channels, hv]
          rw [hchannels] at hasc hlt hblank
          have hc : c < t.chCount := hlt c List.mem_cons_self
          have hzero := hblank c List.mem_cons_self
          have hopened := openChannel_opened settings (calls c)
            (decide (v.nodeIdx = 0 ∧ v.cpuIdx = 0)) (hzero c (Nat.le_refl c)) l
          simp only [openChannels, hv]
          generalize openChannel settings (calls c) (decide (v.nodeIdx = 0 ∧ v.cpuIdx = 0)) c t l =
            result at hopened
          cases hopened with
          | errDisconnect hret hex hsound =>
              exact .errDisconnect hret (h.setCh hc (hzero c (Nat.le_refl c)) hex hsound)
          | connected hex hch => exact .connected (h.cut hc hzero hex hch)
          | ok hex hsound =>
              have hasc' := List.pairwise_cons.mp hasc
              apply ih hasc'.2
              · intro c' hc'
                exact hlt c' (List.mem_cons_of_mem c hc')
              · intro c' hc' k hk
                have hne : k ≠ c := by
                  have := hasc'.1 c' hc'
                  omega
                rw [Target.setCh_of_ne t hne]
                exact hblank c' (List.mem_cons_of_mem c hc') k hk
              · exact h.setCh hc (hzero c (Nat.le_refl c)) hex hsound

end

section
variable {r : Registration} {f : Channel r → Objects → Channel r × Objects} {t : Target r}
  {l : Objects}

theorem forChannels_ch_of_le {n k : ℕ} (hle : n ≤ k) :
    (forChannels f n t l).1.ch k = t.ch k := by
  induction n with
  | zero => rfl
  | succ n ih =>
      have hne : k ≠ n := by omega
      simp only [forChannels]
      rw [Target.setCh_of_ne _ hne, ih (by omega)]

theorem forChannels_ch_of_lt {n k : ℕ} (hlt : k < n) :
    ∃ l', (forChannels f n t l).1.ch k = (f (t.ch k) l').1 := by
  induction n with
  | zero => omega
  | succ n ih =>
      simp only [forChannels]
      by_cases hk : k = n
      · rw [hk, Target.setCh_self, forChannels_ch_of_le (Nat.le_refl n)]
        exact ⟨_, rfl⟩
      · rw [Target.setCh_of_ne _ hk]
        exact ih (by omega)

/-- A loop releases all that its body releases. -/
theorem forChannels_exchange {n : ℕ} (owns : Channel r → List Object)
    (h : ∀ k, k < n → ∀ l, Exchange l (owns (t.ch k)) (f (t.ch k) l).2 []) :
    Exchange l ((List.range n).flatMap fun k => owns (t.ch k)) (forChannels f n t l).2 [] := by
  induction n with
  | zero => exact .refl l _
  | succ n ih =>
      have hbefore := (ih fun k hk => h k (by omega)).frame (owns (t.ch n))
      simp only [forChannels]
      rw [List.range_succ, List.flatMap_append, List.flatMap_singleton,
        forChannels_ch_of_le (Nat.le_refl n)]
      exact hbefore.trans (h n (Nat.lt_succ_self n) _)

theorem arrays_exchange {l' : Objects} (h : Exchange l t.channelsOwned l' []) :
    Exchange l t.owned ((l'.destroy t.mqMap.toList).destroy t.chArray.toList) [] := by
  rw [Ledger.destroy_destroy]
  exact (h.frame _).trans (.destroy l' _)

theorem errDisconnect_exchange (hsound : ∀ c, (t.ch c).Sound) (l : Objects) :
    Exchange l t.owned (errDisconnect t l) [] :=
  arrays_exchange (forChannels_exchange Channel.owned fun k _ => free_exchange (hsound k))

theorem srpRemoveTarget_exchange (hsound : ∀ c, (t.ch c).Sound) (l : Objects) :
    Exchange l t.owned (srpRemoveTarget t l) [] := by
  have hib : Exchange l ((List.range t.chCount).flatMap fun k => (t.ch k).ibOwned)
      (forChannels srpFreeChIb t.chCount t l).2 [] :=
    forChannels_exchange Channel.ibOwned fun k _ => srpFreeChIb_exchange (hsound k)
  have hreq : Exchange _ _ (forChannels srpFreeReqData t.chCount
      (forChannels srpFreeChIb t.chCount t l).1 (forChannels srpFreeChIb t.chCount t l).2).2 [] :=
    forChannels_exchange (fun ch => reqObjects ch.reqRing) fun k _ => srpFreeReqData_exchange _
  have hsame : ((List.range t.chCount).flatMap fun k =>
      reqObjects ((forChannels srpFreeChIb t.chCount t l).1.ch k).reqRing) =
        (List.range t.chCount).flatMap fun k => reqObjects (t.ch k).reqRing := by
    apply List.flatMap_congr
    intro k hk
    obtain ⟨l', hk'⟩ := forChannels_ch_of_lt (f := srpFreeChIb) (t := t) (l := l)
      (List.mem_range.mp hk)
    rw [hk', (srpFreeChIb_ch (hsound k) l').2]
  rw [hsame] at hreq
  apply arrays_exchange
  exact ((hib.frame _).trans hreq).reorder (List.flatMap_append_perm _ _ _) (.refl _)

end

section
variable {r : Registration} (settings : Settings) (cfg : Config) (calls : TargetCalls)
  (l : Objects)

/-- A creation that fails leaves nothing; one that succeeds leaves a target that owns what is
left. -/
inductive Accounted : Created r → Prop
  | failed {ret : ℤ} {l' : Objects} : ret ≠ 0 → Exchange l [] l' [] → Accounted (.failed ret l')
  | done {t : Target r} {l' : Objects} : (∀ c, (t.ch c).Sound) → Exchange l [] l' t.owned →
      Accounted (.done t l')

variable {l}

theorem Holding.owned {l₀ l' : Objects} {t₀ t : Target r} (h : Holding l₀ t₀ t l')
    (harrays : Exchange l [] l₀ (t₀.mqMap.toList++t₀.chArray.toList)) :
    Exchange l [] l' t.owned := by
  rw [Target.owned, h.chArray, h.mqMap]
  exact harrays.trans (h.exchange.frame _)

/-- The end of the function after the loops: the result of `srp_add_target` decides. -/
theorem addTarget_accounted {l₀ l' : Objects} {t₀ t : Target r} (ret : ℤ)
    (harrays : Exchange l [] l₀ (t₀.mqMap.toList++t₀.chArray.toList))
    (h : Holding l₀ t₀ t l') :
    Accounted l (if ret ≠ 0 then .failed ret (errDisconnect t l') else .done t l') := by
  have howned := h.owned harrays
  split_ifs with hret
  · exact .failed hret (howned.trans (errDisconnect_exchange h.sound l'))
  · exact .done h.sound howned

theorem srpCreateTarget_accounted (l : Objects) :
    Accounted l (srpCreateTarget settings cfg calls l : Created r) := by
  have hch := Exchange.create l .chArray
  have harrays := hch.thenCreate .mqMap
  unfold srpCreateTarget
  by_cases hunique : (!calls.connUnique) = true
  · rw [if_pos hunique]
    exact .failed (by decide) (.refl l _)
  rw [if_neg hunique]
  by_cases hgid : calls.queryGid ≠ 0
  · rw [if_pos hgid]
    exact .failed hgid (.refl l _)
  rw [if_neg hgid]
  cases calls.allocCh with
  | false => exact .failed (by decide) (.refl l _)
  | true =>
      cases calls.allocMqMap with
      | false => exact .failed (by decide) (hch.trans (.destroy _ _))
      | true =>
          simp only [Bool.not_true, Bool.false_eq_true, if_false]
          generalize hl : (l.create .chArray).create .mqMap = l₀ at harrays
          generalize ht : started (r := r) cfg (l.fresh .chArray)
            ((l.create .chArray).fresh .mqMap) = t
          have hzero : ∀ c, t.ch c = {} := by
            intro c
            rw [← ht]
            rfl
          have hwithin : ∀ c ∈ channels cfg (visits cfg), c < t.chCount := by
            intro c hc
            rw [← ht]
            exact served_lt_chCount ((mem_channels_visits cfg c).mp hc)
          have hexited := openChannels_exited settings cfg calls.ch (visits cfg)
            (channels_visits_ascending cfg) hwithin (fun _ _ k _ => hzero k)
            (Holding.start hzero l₀)
          have harrays' : Exchange l [] l₀ (t.mqMap.toList++t.chArray.toList) := by
            rw [← ht]
            exact harrays
          generalize openChannels settings cfg calls.ch (visits cfg) t l₀ = result at hexited
          cases hexited with
          | ok h => exact addTarget_accounted calls.addTarget harrays' h
          | connected h => exact addTarget_accounted calls.addTarget harrays' h
          | errDisconnect hret h =>
              exact .failed hret ((h.owned harrays').trans (errDisconnect_exchange h.sound _))

end

theorem mem_owned {r : Registration} {t : Target r} {o : Object} :
    o ∈ t.owned ↔
      (∃ c < t.chCount, o ∈ (t.ch c).owned) ∨ t.mqMap = some o ∨ t.chArray = some o := by
  simp only [Target.owned, Target.channelsOwned, List.mem_append, List.mem_flatMap,
    List.mem_range, Option.mem_toList]

/-- The resources of a target are balanced. If its creation fails, every object that it has
acquired has been released exactly once. If it succeeds, every object is either released
exactly once or owned, by a channel within the count or as one of the two arrays, and in the
end `srp_remove_target` releases each of these exactly once. -/
theorem channel_resources_balanced (dev : SrpDevice) (settings : Settings) (cfg : Config)
    (calls : TargetCalls) (l : Objects) (rest : List Object) (h : Settled l rest) :
    match (srpCreateTarget settings cfg calls l : Created dev.registration) with
    | .failed ret l' =>
        ret ≠ 0 ∧ ∀ o ∈ created (l.since l'), (destroyed (l.since l')).count o = 1
    | .done t l' =>
        (∀ o ∈ created (l.since l'), (destroyed (l.since l')).count o = 1 ∨
          o ∉ destroyed (l.since l') ∧ ((∃ c < t.chCount, o ∈ (t.ch c).owned) ∨
            t.mqMap = some o ∨ t.chArray = some o)) ∧
        Settled l' (t.owned++rest) ∧
        ∀ later rest', Settled later (t.owned++rest') →
          (∀ o ∈ t.owned, (destroyed (later.since (srpRemoveTarget t later))).count o = 1) ∧
          ∀ o ∈ rest', o ∉ destroyed (later.since (srpRemoveTarget t later)) := by
  have haccounted : Accounted l (srpCreateTarget settings cfg calls l : Created dev.registration) :=
    srpCreateTarget_accounted settings cfg calls l
  generalize (srpCreateTarget settings cfg calls l : Created dev.registration) = result
    at haccounted
  cases haccounted with
  | failed hret hex => exact ⟨hret, fun o ho => hex.all_destroyed_once h ho⟩
  | done hsound hex =>
      rename_i t l'
      have hafter := hex.settled rest h
      constructor
      · intro o ho
        by_cases howned : o ∈ t.owned
        · right
          exact ⟨hafter.kept_not_destroyed hex.before (List.mem_append_left _ howned),
            mem_owned.mp howned⟩
        · left
          have hnew := hafter.not_mem_created_of_since hex.before ho
          apply Settled.new_destroyed_once h hafter hex.before ho
          rw [List.mem_append, not_or]
          exact ⟨howned, fun hmem => hnew (h.mem_created hmem)⟩
      constructor
      · exact hafter
      · intro later rest' hlater
        have hremove := srpRemoveTarget_exchange hsound later
        have hremoved := hremove.settled rest' hlater
        constructor
        · intro o ho
          exact hremove.given_destroyed_once hlater ho List.not_mem_nil
        · intro o ho
          exact hremoved.kept_not_destroyed hremove.before ho

def channelOk : ChCalls :=
  { createCmId := 0, resolveAddr := 0, canQueue := 1, verbs := noErrors, allocReqRing := true,
    request := fun _ => .ok, connect := 0,
    rep := some { allocRxRing := true, allocTxRing := true, rxIu := fun _ => .ok,
                  txIu := fun _ => .ok } }

def secondRefused : TargetCalls :=
  { connUnique := true, queryGid := 0, allocCh := true, allocMqMap := true, addTarget := 0,
    ch := fun c => if c = 1 then { channelOk with rep := none, connect := -111 } else channelOk }

def smallRings : Settings := { usingRdmaCm := false, queueSize := 2, reqRingSize := 1 }

/-- A target that was created with one channel out of four is removed. -/
theorem degraded_target_released :
    ∃ t l', (srpCreateTarget smallRings (fourChannels (fourCpus (· / 2) halves_online))
        secondRefused {} : Created frDevice.registration) = .done t l' ∧
      t.chCount = 1 ∧ t.owned.length = 28 ∧
      ∀ o ∈ t.owned, (destroyed (l'.since (srpRemoveTarget t l'))).count o = 1 := by
  have hdone : ∃ t l', (srpCreateTarget smallRings
      (fourChannels (fourCpus (· / 2) halves_online)) secondRefused {} :
        Created frDevice.registration) = .done t l' ∧ t.chCount = 1 ∧ t.owned.length = 28 :=
    ⟨_, _, rfl, rfl, rfl⟩
  obtain ⟨t, l', he, hcount, hlength⟩ := hdone
  have hall := channel_resources_balanced frDevice smallRings
    (fourChannels (fourCpus (· / 2) halves_online)) secondRefused {} [] .empty
  rw [he] at hall
  exact ⟨t, l', he, hcount, hlength, (hall.2.2 l' [] hall.2.1).1⟩

end IbSrp.TargetResources

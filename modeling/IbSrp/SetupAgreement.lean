import IbSrp.TargetResources

/-!
# The resources follow the channel setup

The setup of the channels has been described twice: once by the return values of the calls
for each channel, with the map from CPUs to channels as its result, and once by the objects
that these calls create and destroy. Here the two descriptions meet. Which way a call goes
depends neither on the objects that exist nor on what the channel has already, so that its
return value can be computed for a channel without objects. With these return values the
loops end in the same way, and the target is created in the one description if and only
if it is in the other, with the same number of channels.
-/
namespace IbSrp.TargetResources
open ObjectLedger ChannelObjects ChannelResources ChannelVisits
open ChannelSetup (Config)

section
variable {r : Registration}

theorem fillFrPool_ret (calls : Calls) (n : ℕ) : ∀ (pool pool' : FrPool) (l l' : Objects),
    pool.desc.length = pool'.desc.length →
      (fillFrPool calls n pool l).1 = (fillFrPool calls n pool' l').1 := by
  induction n with
  | zero => exact fun _ _ _ _ _ => rfl
  | succ n ih =>
      intro pool pool' l l' hlen
      simp only [fillFrPool, hlen]
      split_ifs
      · rfl
      · rfl
      · exact ih _ _ _ _ (by simp [hlen])

theorem fillReqRing_ret (request : ℕ → RequestCall) (n : ℕ) : ∀ (ring ring' : ReqRing)
    (l l' : Objects), ring.reqs.length = ring'.reqs.length →
      (fillReqRing request n ring l).1 = (fillReqRing request n ring' l').1 := by
  induction n with
  | zero => exact fun _ _ _ _ _ => rfl
  | succ n ih =>
      intro ring ring' l l' hlen
      have hok : (allocRequest (request ring.reqs.length) l).1 =
          (allocRequest (request ring'.reqs.length) l').1 := by
        rw [hlen]
        cases request ring'.reqs.length <;> rfl
      simp only [fillReqRing, hok]
      split_ifs
      · exact ih _ _ _ _ (by simp [hlen])
      · rfl

theorem allocPool_ret (calls : Calls) (canQueue : ℤ) (l l' : Objects) :
    (∃ pool pool' m m', allocPool calls canQueue r l = (.ok pool, m) ∧
      allocPool calls canQueue r l' = (.ok pool', m')) ∨
    ∃ ret m m', allocPool calls canQueue r l = (.error ret, m) ∧
      allocPool calls canQueue r l' = (.error ret, m') := by
  cases r with
  | none => exact .inl ⟨none, none, l, l', rfl, rfl⟩
  | fmr =>
      by_cases h : calls.createFmrPool = 0
      · left
        simp [allocPool, h]
      · right
        simp [allocPool, h]
  | fastReg =>
      have hfill := fillFrPool_ret calls canQueue.toNat ⟨l.fresh .frPool, []⟩
        ⟨l'.fresh .frPool, []⟩ (l.create .frPool) (l'.create .frPool) rfl
      simp only [allocPool, srpCreateFrPool, hfill]
      split_ifs
      · exact .inr ⟨_, _, _, rfl, rfl⟩
      · exact .inr ⟨_, _, _, rfl, rfl⟩
      · exact .inr ⟨_, _, _, rfl, rfl⟩
      · exact .inl ⟨_, _, _, _, rfl, rfl⟩

theorem createQp_ret (usingRdmaCm : Bool) (calls : Calls) (ch ch' : Ch r) (l l' : Objects) :
    (∃ qp qp' c c' m m', createQp usingRdmaCm calls ch l = (.ok qp, c, m) ∧
      createQp usingRdmaCm calls ch' l' = (.ok qp', c', m')) ∨
    ∃ ret c c' m m', createQp usingRdmaCm calls ch l = (.error ret, c, m) ∧
      createQp usingRdmaCm calls ch' l' = (.error ret, c', m') := by
  have hinit : (srpInitIbQp calls (l.create .qp)).1 = (srpInitIbQp calls (l'.create .qp)).1 := by
    unfold srpInitIbQp
    split_ifs <;> rfl
  simp only [createQp, hinit]
  split_ifs
  · exact .inr ⟨_, _, _, _, _, rfl, rfl⟩
  · exact .inl ⟨_, _, _, _, _, _, rfl, rfl⟩
  · exact .inr ⟨_, _, _, _, _, rfl, rfl⟩
  · exact .inr ⟨_, _, _, _, _, rfl, rfl⟩
  · exact .inl ⟨_, _, _, _, _, _, rfl, rfl⟩

theorem errQp_ret (usingRdmaCm : Bool) (ret : ℤ) (qp sendCq recvCq initAttr : Object) (ch : Ch r)
    (l : Objects) : (errQp usingRdmaCm ret qp sendCq recvCq initAttr ch l).ret = ret := by
  cases usingRdmaCm <;> rfl

/-- The return value is decided by the calls alone. -/
theorem srpCreateChIb_ret (usingRdmaCm : Bool) (canQueue : ℤ) (calls : Calls) (ch ch' : Ch r)
    (l l' : Objects) :
    (srpCreateChIb usingRdmaCm canQueue calls ch l).ret =
      (srpCreateChIb usingRdmaCm canQueue calls ch' l').ret := by
  simp only [srpCreateChIb]
  split_ifs
  · rfl
  · rfl
  · rfl
  · rcases createQp_ret usingRdmaCm calls ch ch' (((l.create .initAttr).create .cq).create .cq)
      (((l'.create .initAttr).create .cq).create .cq) with
      ⟨qp, qp', c, c', m, m', h, h'⟩ | ⟨ret, c, c', m, m', h, h'⟩
    · simp only [h, h']
      rcases allocPool_ret (r := r) calls canQueue m m' with
        ⟨pool, pool', n, n', hp, hp'⟩ | ⟨ret, n, n', hp, hp'⟩
      · simp only [hp, hp']
        rfl
      · simp only [hp, hp', errQp_ret]
    · simp only [h, h']

def results (r : Registration) (settings : Settings) (calls : ℕ → ChCalls) :
    ChannelSetup.Results where
  newCmId c := (srpNewCmId settings.usingRdmaCm (calls c) ({} : Channel r) {}).ret
  createChIb c := (createChIb settings (calls c) ({} : Channel r) {}).ret
  allocReqData c := (srpAllocReqData settings.reqRingSize (calls c) ({} : Channel r) {}).ret
  connectCh c := (calls c).connect

theorem prepareCh_ret (settings : Settings) (calls : ℕ → ChCalls) (c : ℕ) (ch : Channel r)
    (l : Objects) :
    (prepareCh settings (calls c) ch l).ret =
      if (results r settings calls).newCmId c ≠ 0 then (results r settings calls).newCmId c
      else if (results r settings calls).createChIb c ≠ 0 then
        (results r settings calls).createChIb c
      else (results r settings calls).allocReqData c := by
  have hcm : (srpNewCmId settings.usingRdmaCm (calls c) { ch with target := true } l).ret =
      (results r settings calls).newCmId c := by
    simp only [results, srpNewCmId, srpNewRdmaCmId, srpNewIbCmId]
    split_ifs <;> rfl
  have hib : ∀ (ch : Channel r) l, (createChIb settings (calls c) ch l).ret =
      (results r settings calls).createChIb c := fun ch l => srpCreateChIb_ret _ _ _ _ _ _ _
  have hreq : ∀ (ch : Channel r) l, (srpAllocReqData settings.reqRingSize (calls c) ch l).ret =
      (results r settings calls).allocReqData c := by
    intro ch l
    have hfill := fillReqRing_ret (calls c).request settings.reqRingSize ⟨l.fresh .reqRing, []⟩
      ⟨({} : Objects).fresh .reqRing, []⟩ (l.create .reqRing) (({} : Objects).create .reqRing) rfl
    simp only [results, srpAllocReqData, hfill]
    split_ifs <;> rfl
  simp only [prepareCh, hcm, hib]
  split_ifs
  · exact hcm
  · exact hib _ _
  · exact hreq _ _

theorem srpConnectCh_ret (queueSize : ℕ) (calls : ChCalls) (ch : Channel r) (l : Objects) :
    (srpConnectCh queueSize calls ch l).ret = calls.connect := by
  unfold srpConnectCh
  split <;> rfl

/-- The loops end alike, with the same return value or the same number of channels. -/
def SameEnd : Except (Exit r) (Target r × Objects) →
    Except ChannelSetup.Exit ChannelSetup.Setup → Prop
  | .ok (t, _), .ok s => t.chCount = s.chCount
  | .error (.connected t _), .error (.connected s) => t.chCount = s.chCount
  | .error (.errDisconnect ret _ _), .error (.errDisconnect ret' _) => ret = ret'
  | _, _ => False

variable (settings : Settings) (calls : ℕ → ChCalls)

theorem openChannel_sameEnd {cfg : Config} {v : Visit} {c : ℕ} (hc : channel cfg v = some c)
    {t : Target r} {s : ChannelSetup.Setup} (hcount : t.chCount = s.chCount) (l : Objects) :
    SameEnd (openChannel settings (calls c) (v.nodeIdx = 0 ∧ v.cpuIdx = 0) c t l)
      (visit cfg (results r settings calls) v s) := by
  have hshare : cfg.chStart v.nodeIdx+v.cpuIdx < cfg.chEnd v.nodeIdx := by
    by_contra hnot
    rw [channel, if_neg hnot] at hc
    cases hc
  have hindex : cfg.chStart v.nodeIdx+v.cpuIdx = c := by
    rw [channel, if_pos hshare] at hc
    exact Option.some.inj hc
  rw [hindex] at hshare
  have hprepare := prepareCh_ret settings calls c (t.ch c) l
  have hconnect := srpConnectCh_ret settings.queueSize (calls c)
    (prepareCh settings (calls c) (t.ch c) l).ch (prepareCh settings (calls c) (t.ch c) l).objects
  simp only [openChannel, visit, hshare, if_true, ChannelSetup.connectCh, hindex]
  by_cases hid : (results r settings calls).newCmId c ≠ 0
  · rw [if_pos hid] at hprepare
    rw [if_pos (by rwa [hprepare]), if_pos hid]
    exact hprepare
  rw [if_neg hid] at hprepare ⊢
  by_cases hib : (results r settings calls).createChIb c ≠ 0
  · rw [if_pos hib] at hprepare
    rw [if_pos (by rwa [hprepare]), if_pos hib]
    exact hprepare
  rw [if_neg hib] at hprepare ⊢
  by_cases hreq : (results r settings calls).allocReqData c ≠ 0
  · rw [if_pos (by rwa [hprepare]), if_pos hreq]
    exact hprepare
  rw [if_neg (by rwa [hprepare]), if_neg hreq]
  by_cases hlogin : (results r settings calls).connectCh c ≠ 0
  · rw [if_pos (by rwa [hconnect]), if_pos hlogin]
    by_cases hfirst : v.nodeIdx = 0 ∧ v.cpuIdx = 0
    · simp only [hfirst, and_self, decide_true, if_true]
      exact hconnect
    · simp only [hfirst, decide_false, Bool.false_eq_true, if_false]
      rfl
  · rw [if_neg (by rwa [hconnect]), if_neg hlogin]
    exact hcount

/-- The resources are acquired along the loops of the channel setup. -/
theorem openChannels_sameEnd (cfg : Config) (vs : List Visit) : ∀ (t : Target r) (l : Objects)
    (s : ChannelSetup.Setup), t.chCount = s.chCount →
      SameEnd (openChannels settings cfg calls vs t l)
        (runVisits cfg (results r settings calls) vs s) := by
  induction vs with
  | nil => exact fun t l s hcount => hcount
  | cons v vs ih =>
      intro t l s hcount
      cases hc : channel cfg v with
      | none =>
          have hskip : visit cfg (results r settings calls) v s =
              .ok (ChannelSetup.mapCpu cfg v.nodeIdx v.cpuIdx v.cpu s) := by
            have hnot : ¬ cfg.chStart v.nodeIdx+v.cpuIdx < cfg.chEnd v.nodeIdx := by
              intro hshare
              rw [channel, if_pos hshare] at hc
              cases hc
            simp only [visit, hnot, if_false]
          simp only [openChannels, hc, runVisits, hskip]
          exact ih t l _ hcount
      | some c =>
          have hsame := openChannel_sameEnd settings calls hc hcount l
          simp only [openChannels, hc, runVisits]
          generalize openChannel settings (calls c) (v.nodeIdx = 0 ∧ v.cpuIdx = 0) c t l = a
            at hsame
          generalize visit cfg (results r settings calls) v s = b at hsame
          cases a with
          | ok x =>
              cases b with
              | ok s' => exact ih x.1 x.2 s' hsame
              | error e' => cases hsame
          | error e =>
              cases b with
              | ok s' => cases e <;> cases hsame
              | error e' => exact hsame

/-- The calls around the channel setup succeed. -/
structure Ready (calls : TargetCalls) : Prop where
  connUnique : calls.connUnique = true
  queryGid : calls.queryGid = 0
  allocCh : calls.allocCh = true
  allocMqMap : calls.allocMqMap = true
  addTarget : calls.addTarget = 0

theorem ready_of_done {settings : Settings} {cfg : Config} {calls : TargetCalls}
    {l l' : Objects} {t : Target r} (h : srpCreateTarget settings cfg calls l = .done t l') :
    Ready calls := by
  simp only [srpCreateTarget] at h
  split_ifs at h with hunique hgid hch hmap hadd
  · split at h <;> cases h
  · constructor
    · simpa using hunique
    · exact not_not.mp hgid
    · simpa using hch
    · simpa using hmap
    · exact not_not.mp hadd

/-- A target is created if and only if its channels are set up and the other calls succeed;
both descriptions count the same channels. -/
theorem srpCreateTarget_done_iff (settings : Settings) (cfg : Config) (calls : TargetCalls)
    (l : Objects) (n : ℕ) :
    (∃ (t : Target r) (l' : Objects), srpCreateTarget settings cfg calls l = .done t l' ∧
      t.chCount = n) ↔
    Ready calls ∧ ∃ s, ChannelSetup.srpCreateTarget cfg (results r settings calls.ch) = some s ∧
      s.chCount = n := by
  have hsame := openChannels_sameEnd (r := r) settings calls.ch cfg (visits cfg)
    (started cfg (l.fresh .chArray) ((l.create .chArray).fresh .mqMap))
    ((l.create .chArray).create .mqMap) (ChannelCoverage.initial cfg) (Eq.refl cfg.chCount)
  rw [ChannelCoverage.srpCreateTarget_eq]
  by_cases hready : Ready calls
  · simp only [srpCreateTarget, hready.connUnique, hready.queryGid, hready.allocCh,
      hready.allocMqMap, hready.addTarget, Bool.not_true, Bool.false_eq_true, ne_eq,
      not_true_eq_false, if_false]
    generalize openChannels settings cfg calls.ch (visits cfg)
      (started cfg (l.fresh .chArray) ((l.create .chArray).fresh .mqMap))
      ((l.create .chArray).create .mqMap) = a at hsame
    generalize runVisits cfg (results r settings calls.ch) (visits cfg)
      (ChannelCoverage.initial cfg) = b at hsame
    match a, b, hsame with
    | .ok (t, l'), .ok s, hsame =>
        have hcount : t.chCount = s.chCount := hsame
        simp [hready, hcount]
    | .error (.connected t l'), .error (.connected s), hsame =>
        have hcount : t.chCount = s.chCount := hsame
        simp [hready, hcount]
    | .error (.errDisconnect ret t l'), .error (.errDisconnect ret' s), hsame =>
        simp
  · constructor
    · rintro ⟨t, l', hdone, -⟩
      exact absurd (ready_of_done hdone) hready
    · rintro ⟨h, -⟩
      exact absurd h hready

end
end IbSrp.TargetResources

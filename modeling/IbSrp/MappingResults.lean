import IbSrp.MappingCoverage

/-!
# Mapping with and without failed registrations

`srp_map_sg` backtracks when a registration attempt fails: it describes
everything from the first byte that no descriptor refers to with the global
rkey. This is right when the failed attempt emitted nothing. A fast-registration
work request that cannot be posted has already emitted its descriptor, so the
bytes of its region are described once more by the backtracking.

`scripted` gives the registration services a fixed sequence of outcomes. The
results below quantify over that sequence: any attempt may fail, in any way.
-/
namespace IbSrp.MappingResults
open PagedBytes MemoryRegistration MappingCoverage

section
variable {σ D : Type}

theorem forEachSg_direct (dev : SrpDevice) (registerAlways : Bool) (ops : MrOps σ D)
    (scat : List Sg) : ∀ (i : ℕ) (st : MapState D) (ch : σ),
      let r := forEachSg dev registerAlways ops false scat i st ch
      r.ok = true ∧ r.ch = ch ∧ r.state.mrList = st.mrList ∧
        r.state.pageWrites = st.pageWrites ∧
        descBytes dev r.state = descBytes dev st ++ sgBytes scat ∧
        (st.totalLen < 2^32 → r.state.totalLen = (st.totalLen+sgLen scat) % 2^32) := by
  induction scat with
  | nil =>
      intro i st ch
      refine ⟨rfl, rfl, rfl, rfl, by simp [forEachSg], fun h => ?_⟩
      exact (Nat.mod_eq_of_lt h).symm
  | cons sg scat ih =>
      intro i st ch
      by_cases hz : sg.dmaLen = 0
      · have he : srpMapSgEntry dev registerAlways ops false sg i st ch = ⟨true, st, ch⟩ := by
          simp [srpMapSgEntry, hz]
        obtain ⟨h₁, h₂, h₃, h₄, h₅, h₆⟩ := ih (i+1) st ch
        simp only [forEachSg, he, if_true]
        exact ⟨h₁, h₂, h₃, h₄, by rw [h₅]; simp [hz], fun h => by rw [h₆ h]; simp [hz]⟩
      · have he : srpMapSgEntry dev registerAlways ops false sg i st ch =
            ⟨true, srpMapDesc st sg.dmaAddress sg.dmaLen .target, ch⟩ := by
          simp [srpMapSgEntry, hz]
        obtain ⟨h₁, h₂, h₃, h₄, h₅, h₆⟩ :=
          ih (i+1) (srpMapDesc st sg.dmaAddress sg.dmaLen .target) ch
        simp only [forEachSg, he, if_true]
        refine ⟨h₁, h₂, h₃, h₄, ?_, fun _ => ?_⟩
        · rw [h₅]
          simp [descBytes, srpMapDesc, SrpDirectBuf.bytes]
        · rw [h₆ (Nat.mod_lt _ (by norm_num))]
          simp only [srpMapDesc, sgLen_cons, Nat.mod_add_mod, Nat.add_assoc]

/-- Backtracking describes everything from byte `o` of the first unmapped entry on. -/
theorem srpMapBacktrack_spec (dev : SrpDevice) (registerAlways : Bool) (ops : MrOps σ D)
    (scat : List Sg) (st : MapState D) (ch : σ) {sg : Sg} {o : ℕ} (hsg : st.unmappedSg = some sg)
    (ho : o ≤ sg.dmaLen)
    (haddr : st.unmappedAddr = (sg.dmaAddress+o) % 2^64) :
    ∃ st' : MapState D, srpMapBacktrack dev registerAlways ops scat st ch = some (st', ch) ∧
      st'.mrList = st.mrList ∧ st'.pageWrites = st.pageWrites ∧
      descBytes dev st' = descBytes dev st ++
        (contiguous (2^64) (sg.dmaAddress+o) (sg.dmaLen-o) ++
          sgBytes (scat.drop (st.unmappedIndex+1))) ∧
      st'.totalLen =
        (st.totalLen+(sg.dmaLen-o+sgLen (scat.drop (st.unmappedIndex+1)))) % 2^32 := by
  have hlen := sg.len_lt
  have ha := sg.address_lt
  have hskip : (st.unmappedAddr+2^64-sg.dmaAddress) % 2^64 = o := by
    rw [haddr]
    omega
  have hrest : (sg.dmaLen+2^32-o % 2^32) % 2^32 = sg.dmaLen-o := by omega
  obtain ⟨h₁, h₂, h₃, h₄, h₅, h₆⟩ := forEachSg_direct dev registerAlways ops
    (scat.drop (st.unmappedIndex+1)) (st.unmappedIndex+1)
    (srpMapDesc st st.unmappedAddr (sg.dmaLen-o) .target) ch
  refine ⟨_, by simp only [srpMapBacktrack, hsg, hskip, hrest, h₂], h₃, h₄, ?_, ?_⟩
  · rw [h₅, haddr, ← List.append_assoc]
    congr 1
    simp [descBytes, srpMapDesc, SrpDirectBuf.bytes, contiguous]
  · rw [h₆ (Nat.mod_lt _ (by norm_num))]
    simp only [srpMapDesc, Nat.mod_add_mod, Nat.add_assoc]

theorem startAt_rest_bytes {dev : SrpDevice} {scat : List Sg} {st : MapState D} {sg : Sg} {o : ℕ}
    (h : StartAt dev scat st sg o) :
    descBytes dev st ++ (contiguous (2^64) (sg.dmaAddress+o) (sg.dmaLen-o) ++
      sgBytes (scat.drop (st.unmappedIndex+1))) = sgBytes scat := by
  obtain ⟨hlt, hget⟩ := List.getElem?_eq_some_iff.mp h.index
  have ho := h.off_le
  have hsplit : sgBytes scat = sgBytes (scat.take st.unmappedIndex) ++
      (contiguous (2^64) sg.dmaAddress (o+(sg.dmaLen-o)) ++
        sgBytes (scat.drop (st.unmappedIndex+1))) := by
    conv_lhs => rw [← List.take_append_drop st.unmappedIndex scat, List.drop_eq_getElem_cons hlt]
    rw [sgBytes_append, sgBytes_cons, hget, Nat.add_sub_cancel' ho]
  rw [hsplit, h.described, contiguous_add]
  simp only [List.append_assoc]

/-- Every byte of the list is described exactly once and in order. -/
structure Covers (dev : SrpDevice) (scat : List Sg) (st : MapState D) : Prop where
  bytes : descBytes dev st = sgBytes scat
  total : st.totalLen = sgLen scat

/-- The three ways `srp_map_sg` can go: no attempt failed; an attempt found no
memory descriptor; or a work request could not be posted, and then the region it
was for is described twice. -/
inductive MapResult (dev : SrpDevice) (ops : MrOps σ D) (scat : List Sg) (ch₀ : σ) :
    MapState D × σ → Prop
  | complete {st : MapState D} {ch : σ} : Covers dev scat st →
      Attempts ops dev.useFastReg [] ch₀ st.mrList ch → MapResult dev ops scat ch₀ (st, ch)
  | unavailable {st : MapState D} {ch ch' : σ} {pages : List ℕ} : Covers dev scat st →
      Attempts ops dev.useFastReg [] ch₀ st.mrList ch →
      attempt ops dev.useFastReg ch pages = (.unavailable, none, ch') →
      MapResult dev ops scat ch₀ (st, ch')
  | postFailed {st : MapState D} {mrs : List D} {ch ch' : σ} {d : D} {pages : List ℕ} {l : ℕ} :
      dev.useFastReg = true → 0 < l → l < 2^32 → st.totalLen = (sgLen scat+l) % 2^32 →
      Attempts ops dev.useFastReg [] ch₀ mrs ch →
      attempt ops dev.useFastReg ch pages = (.postFailed, some d, ch') →
      st.mrList = mrs++[d] → MapResult dev ops scat ch₀ (st, ch')

theorem backtrack_spec {dev : SrpDevice} {ops : MrOps σ D} {scat : List Sg} {ch₀ : σ}
    {r : Mapped σ D} (registerAlways : Bool) (hlt : sgLen scat < 2^32)
    (h : Failed dev ops scat [] ch₀ r) :
    ∃ p, srpMapBacktrack dev registerAlways ops scat r.state r.ch = some p ∧
      MapResult dev ops scat ch₀ p ∧ ∀ i ∈ p.1.pageWrites, i < dev.maxPagesPerMr := by
  cases h with
  | @unavailable st ch ch' sg o hs ht hatt ha =>
      obtain ⟨st', he, hmr, hw, hb, htot⟩ :=
        srpMapBacktrack_spec dev registerAlways ops scat st ch' hs.sg_eq hs.off_le hs.addr
      have hbytes : descBytes dev st' = sgBytes scat := by rw [hb, startAt_rest_bytes hs]
      have hsum := congrArg List.length (startAt_rest_bytes hs)
      simp only [List.length_append, contiguous_length, sgBytes_length] at hsum
      refine ⟨_, he, .unavailable ⟨hbytes, ?_⟩ (hmr ▸ hatt) ha, by rw [hw]; exact ht.writes⟩
      rw [htot, ht.total, Nat.mod_eq_of_lt] <;> omega
  | @postFailed st ch ch' d sg o hs ht hregion hp hfast hatt ha hl =>
      have hsum := congrArg List.length (startAt_rest_bytes hs)
      simp only [List.length_append, contiguous_length, sgBytes_length] at hsum
      have hd : (regionBuf dev st d).len = st.dmaLen := by simp [regionBuf, hfast]
      obtain ⟨st', he, hmr, hw, hb, htot⟩ :=
        srpMapBacktrack_spec dev registerAlways ops scat (emit st (regionBuf dev st d) (some d))
          ch' hs.sg_eq hs.off_le hs.addr
      refine ⟨_, he, .postFailed hfast (hregion.dmaLen_pos hp) (by omega) ?_ hatt ha
        (by rw [hmr]; rfl), by rw [hw]; exact ht.writes⟩
      rw [htot]
      change ((st.totalLen+(regionBuf dev st d).len) % 2^32+_) % 2^32 = _
      rw [Nat.mod_add_mod, hd, ht.total, ← hsum]
      congr 1
      change _+(sg.dmaLen-o+sgLen (List.drop (st.unmappedIndex+1) scat)) = _
      omega

theorem between_init (dev : SrpDevice) (ops : MrOps σ D) (scat : List Sg) (ch : σ) :
    Between dev ops [] ch scat 0 ⟨true, {}, ch⟩ where
  ok := rfl
  region := Region.of_empty rfl rfl
  tally := ⟨rfl, by simp⟩
  full := fun h => (h rfl).elim
  cover := rfl
  start := fun h => (h rfl).elim
  idle := fun _ => rfl
  attempts := .done [] ch

/-- `srp_map_sg` always has a result: it never follows a null `unmapped_sg`, and it
stores no page beyond the end of `map_page`. -/
theorem srpMapSg_spec (dev : SrpDevice) (registerAlways useMr : Bool) (ops : MrOps σ D)
    {scat : List Sg} (ch : σ) (hlt : sgLen scat < 2^32) :
    ∃ p, srpMapSg dev registerAlways useMr ops scat ch = some p ∧
      MapResult dev ops scat ch p ∧ ∀ i ∈ p.1.pageWrites, i < dev.maxPagesPerMr := by
  cases useMr with
  | false =>
      obtain ⟨h₁, h₂, h₃, h₄, h₅, h₆⟩ := forEachSg_direct dev registerAlways ops scat 0 {} ch
      have h₇ := h₆ (by norm_num)
      rw [Nat.zero_add, Nat.mod_eq_of_lt hlt] at h₇
      refine ⟨_, by simp only [srpMapSg, h₁, if_true]; rfl, .complete ⟨h₅, h₇⟩ ?_, by simp [h₄]⟩
      rw [h₂, h₃]
      exact .done [] ch
  | true =>
      rcases forEachSg_spec registerAlways hlt scat 0 ⟨true, {}, ch⟩ rfl (Nat.zero_le _)
        (between_init dev ops scat ch) with hb | hfail
      · rcases hb.finish hlt registerAlways with hc | hfail
        · have hd := hc.described
          rw [hb.cover, List.take_length] at hd
          refine ⟨_, by simp only [srpMapSg, hb.ok, hc.ok, if_true],
            .complete ⟨hd, ?_⟩ hc.attempts, hc.tally.writes⟩
          rw [hc.tally.total, hd, sgBytes_length]
        · obtain ⟨p, he, hr⟩ := backtrack_spec registerAlways hlt hfail
          refine ⟨p, ?_, hr⟩
          simp only [srpMapSg, hb.ok, if_true, if_neg hfail.not_ok]
          exact he
      · obtain ⟨p, he, hr⟩ := backtrack_spec registerAlways hlt hfail
        refine ⟨p, ?_, hr⟩
        simp only [srpMapSg, if_neg hfail.not_ok]
        exact he

end

section
variable {σ D : Type}

theorem mapResult_collects {T : List D → σ → σ → Prop} (hrefl : ∀ a, T [] a a)
    (htrans : ∀ {ds ds' a b c}, T ds a b → T ds' b c → T (ds++ds') a c) {dev : SrpDevice}
    {ops : MrOps σ D} (hattempt : ∀ {ch pages o d ch'},
      attempt ops dev.useFastReg ch pages = (o, d, ch') → T d.toList ch ch')
    {scat : List Sg} {ch ch' : σ} {st : MapState D} (h : MapResult dev ops scat ch (st, ch')) :
    T st.mrList ch ch' := by
  have hattempts : ∀ {mrs mrs' : List D} {ch ch' : σ},
      Attempts ops dev.useFastReg mrs ch mrs' ch' → ∃ ds, mrs' = mrs++ds ∧ T ds ch ch' := by
    intro mrs mrs' ch ch' hatt
    induction hatt with
    | done => exact ⟨[], (List.append_nil _).symm, hrefl _⟩
    | more _ ha ih =>
        obtain ⟨ds, rfl, hd⟩ := ih
        exact ⟨_, List.append_assoc _ _ _, htrans hd (hattempt ha)⟩
  cases h with
  | complete _ hatt =>
      obtain ⟨ds, he, hd⟩ := hattempts hatt
      rwa [he]
  | unavailable _ hatt ha =>
      obtain ⟨ds, he, hd⟩ := hattempts hatt
      have hall := htrans hd (hattempt ha)
      rwa [Option.toList_none, List.append_nil, ← List.nil_append ds, ← he] at hall
  | postFailed _ _ _ _ hatt ha he' =>
      obtain ⟨ds, he, hd⟩ := hattempts hatt
      rw [he', he]
      exact htrans hd (hattempt ha)

/-- A mapping changes the channel only through registration attempts. -/
theorem mapResult_relates {R : σ → σ → Prop} (hrefl : ∀ a, R a a)
    (htrans : ∀ a b c, R a b → R b c → R a c) {dev : SrpDevice} {ops : MrOps σ D}
    (hattempt : ∀ {ch pages o}, attempt ops dev.useFastReg ch pages = o → R ch o.2.2)
    {scat : List Sg} {ch : σ} {p : MapState D × σ} (h : MapResult dev ops scat ch p) :
    R ch p.2 :=
  mapResult_collects (T := fun _ => R) hrefl (htrans _ _ _) (fun ha => hattempt ha) h

end

section
variable {σ τ D : Type}

/-- The services `ops'` do on images under `f` what `ops` do. -/
structure Transported (f : σ → τ) (ops : MrOps σ D) (ops' : MrOps τ D) : Prop where
  get : ∀ ch, ops'.srpFrPoolGet (f ch) = ((ops.srpFrPoolGet ch).1, f (ops.srpFrPoolGet ch).2)
  post : ∀ ch d, ops'.ibPostSend (f ch) d = ((ops.ibPostSend ch d).1, f (ops.ibPostSend ch d).2)
  mapPhys : ∀ ch pages, ops'.ibFmrPoolMapPhys (f ch) pages =
    ((ops.ibFmrPoolMapPhys ch pages).1, f (ops.ibFmrPoolMapPhys ch pages).2)

def mappedImage (f : σ → τ) (r : Mapped σ D) : Mapped τ D := ⟨r.ok, r.state, f r.ch⟩

@[simp] theorem mappedImage_ok (f : σ → τ) (r : Mapped σ D) : (mappedImage f r).ok = r.ok := rfl

@[simp] theorem mappedImage_state (f : σ → τ) (r : Mapped σ D) :
    (mappedImage f r).state = r.state := rfl

@[simp] theorem mappedImage_ch (f : σ → τ) (r : Mapped σ D) : (mappedImage f r).ch = f r.ch := rfl

variable {f : σ → τ} {ops : MrOps σ D} {ops' : MrOps τ D} (h : Transported f ops ops')
include h

theorem Transported.srpFinishMapping (dev : SrpDevice) (registerAlways : Bool) (st : MapState D)
    (ch : σ) : srpFinishMapping dev registerAlways ops' st (f ch) =
      mappedImage f (srpFinishMapping dev registerAlways ops st ch) := by
  have hfr : srpMapFinishFr ops' st (f ch) = mappedImage f (srpMapFinishFr ops st ch) := by
    simp only [srpMapFinishFr, h.get]
    cases ops.srpFrPoolGet ch with
    | mk o ch₁ => cases o <;> simp [mappedImage, h.post]
  have hfmr : srpMapFinishFmr ops' st (f ch) = mappedImage f (srpMapFinishFmr ops st ch) := by
    simp only [srpMapFinishFmr, h.mapPhys]
    cases ops.ibFmrPoolMapPhys ch st.pages with
    | mk o ch₁ => cases o <;> rfl
  have hr : (if st.npages = 1 ∧ registerAlways = false then
        ⟨true, srpMapDesc st st.baseDmaAddr st.dmaLen .target, f ch⟩
      else if dev.useFastReg then srpMapFinishFr ops' st (f ch)
      else srpMapFinishFmr ops' st (f ch)) =
      mappedImage f (if st.npages = 1 ∧ registerAlways = false then
        ⟨true, srpMapDesc st st.baseDmaAddr st.dmaLen .target, ch⟩
      else if dev.useFastReg then srpMapFinishFr ops st ch else srpMapFinishFmr ops st ch) := by
    rw [hfr, hfmr]
    split_ifs <;> rfl
  unfold MemoryRegistration.srpFinishMapping
  rw [hr]
  simp only [mappedImage_ok]
  split_ifs <;> rfl

theorem Transported.srpMapPageStart (dev : SrpDevice) (registerAlways : Bool) (sg : Sg)
    (i dmaAddr : ℕ) (st : MapState D) (ch : σ) :
    srpMapPageStart dev registerAlways ops' sg i dmaAddr st (f ch) =
      mappedImage f (srpMapPageStart dev registerAlways ops sg i dmaAddr st ch) := by
  simp only [MemoryRegistration.srpMapPageStart, h.srpFinishMapping, mappedImage_ok]
  split_ifs <;> rfl

theorem Transported.srpMapPages (dev : SrpDevice) (registerAlways : Bool) (sg : Sg) (i : ℕ)
    (fuel : ℕ) : ∀ (dmaAddr dmaLen len : ℕ) (st : MapState D) (ch : σ),
    srpMapPages dev registerAlways ops' sg i fuel dmaAddr dmaLen len st (f ch) =
      (mappedImage f (srpMapPages dev registerAlways ops sg i fuel dmaAddr dmaLen len st ch).1,
        (srpMapPages dev registerAlways ops sg i fuel dmaAddr dmaLen len st ch).2) := by
  induction fuel with
  | zero => exact fun _ _ _ _ _ => rfl
  | succ fuel ih =>
      intro dmaAddr dmaLen len st ch
      simp only [MemoryRegistration.srpMapPages, h.srpMapPageStart]
      by_cases hz : dmaLen = 0
      · simp only [hz, if_true]
        rfl
      · cases hok : (MemoryRegistration.srpMapPageStart dev registerAlways ops sg i dmaAddr st
          ch).ok with
        | false => simp [hz, mappedImage, hok]
        | true => simp [hz, mappedImage, hok, ih]

theorem Transported.srpMapSgEntry (dev : SrpDevice) (registerAlways useMr : Bool) (sg : Sg)
    (i : ℕ) (st : MapState D) (ch : σ) :
    srpMapSgEntry dev registerAlways ops' useMr sg i st (f ch) =
      mappedImage f (srpMapSgEntry dev registerAlways ops useMr sg i st ch) := by
  unfold MemoryRegistration.srpMapSgEntry
  by_cases hlen : sg.dmaLen = 0
  · rw [if_pos hlen, if_pos hlen]
    rfl
  by_cases hmr : useMr = false
  · rw [if_neg hlen, if_neg hlen, if_pos hmr, if_pos hmr]
    rfl
  rw [if_neg hlen, if_neg hlen, if_neg hmr, if_neg hmr]
  by_cases hdirect : (dev.useFastReg = false ∧ dev.pageOffset sg.dmaAddress ≠ 0) ∨
      dev.mrMaxSize < sg.dmaLen
  · rw [if_pos hdirect, if_pos hdirect, h.srpFinishMapping]
    generalize MemoryRegistration.srpFinishMapping dev registerAlways ops st ch = r
    cases hok : r.ok with
    | false => simp [hok]
    | true => simp [hok, mappedImage]
  · rw [if_neg hdirect, if_neg hdirect]
    simp only [h.srpMapPages]
    generalize MemoryRegistration.srpMapPages dev registerAlways ops sg i sg.dmaLen sg.dmaAddress
      sg.dmaLen 0 _ ch = p
    cases hok : p.1.ok with
    | false => simp [hok]
    | true =>
        by_cases hpage : p.2 = dev.mrPageSize
        · simp [hok, hpage]
        · simp only [mappedImage_ok, mappedImage_state, mappedImage_ch, hok, if_true, ne_eq, hpage,
            not_false_eq_true, h.srpFinishMapping]
          generalize MemoryRegistration.srpFinishMapping dev registerAlways ops p.1.state p.1.ch = r
          cases r.ok with
          | false => simp
          | true => simp [mappedImage]

theorem Transported.forEachSg (dev : SrpDevice) (registerAlways useMr : Bool) (scat : List Sg) :
    ∀ (i : ℕ) (st : MapState D) (ch : σ),
      forEachSg dev registerAlways ops' useMr scat i st (f ch) =
        mappedImage f (forEachSg dev registerAlways ops useMr scat i st ch) := by
  induction scat with
  | nil => exact fun _ _ _ => rfl
  | cons sg scat ih =>
      intro i st ch
      simp only [MemoryRegistration.forEachSg, h.srpMapSgEntry]
      cases hok : (MemoryRegistration.srpMapSgEntry dev registerAlways ops useMr sg i st ch).ok with
      | false => simp [mappedImage, hok]
      | true => simp [mappedImage, hok, ih]

/-- A mapping sees nothing of the channel but its registration services. -/
theorem Transported.srpMapSg (dev : SrpDevice) (registerAlways useMr : Bool) (scat : List Sg)
    (ch : σ) : srpMapSg dev registerAlways useMr ops' scat (f ch) =
      (srpMapSg dev registerAlways useMr ops scat ch).map fun p => (p.1, f p.2) := by
  have hback : ∀ (st : MapState D) (ch : σ),
      srpMapBacktrack dev registerAlways ops' scat st (f ch) =
        (srpMapBacktrack dev registerAlways ops scat st ch).map fun p => (p.1, f p.2) := by
    intro st ch
    cases hsg : st.unmappedSg with
    | none => simp [srpMapBacktrack, hsg]
    | some sg => simp [srpMapBacktrack, hsg, h.forEachSg, mappedImage]
  simp only [MemoryRegistration.srpMapSg, h.forEachSg, hback, mappedImage_ok, mappedImage_state,
    mappedImage_ch, h.srpFinishMapping]
  split_ifs <;> rfl

end

/-- Registration services that do what `out` says: attempt number `n` has outcome
`out n`. The channel state is the number of attempts made. -/
def scripted (out : ℕ → Outcome) : MrOps ℕ ℕ where
  srpFrPoolGet n := if out n = .unavailable then (none, n+1) else (some n, n)
  ibPostSend n _ := (decide (out n = .registered), n+1)
  ibFmrPoolMapPhys n _ := if out n = .registered then (some n, n+1) else (none, n+1)

theorem attempt_scripted_registered {out : ℕ → Outcome} {fast : Bool} {n n' : ℕ}
    {pages : List ℕ} {d : ℕ} (h : attempt (scripted out) fast n pages = (.registered, some d, n')) :
    out n = .registered ∧ n' = n+1 := by
  cases fast <;> cases ho : out n <;> simp [attempt, scripted, ho] at h <;>
    exact ⟨rfl, h.2.symm⟩

theorem attempt_scripted_unavailable {out : ℕ → Outcome} {fast : Bool} {n n' : ℕ}
    {pages : List ℕ} (h : attempt (scripted out) fast n pages = (.unavailable, none, n')) :
    out n ≠ .registered ∧ (fast = true → out n = .unavailable) ∧ n' = n+1 := by
  cases fast <;> cases ho : out n <;> simp [attempt, scripted, ho] at h <;> simp [h]

theorem attempt_scripted_postFailed {out : ℕ → Outcome} {fast : Bool} {n n' d : ℕ}
    {pages : List ℕ} (h : attempt (scripted out) fast n pages = (.postFailed, some d, n')) :
    out n = .postFailed ∧ n' = n+1 := by
  cases fast <;> cases ho : out n <;> simp [attempt, scripted, ho] at h
  exact ⟨rfl, h.2.symm⟩

/-- A sequence of successful attempts read them off the script one by one. -/
theorem attempts_scripted {out : ℕ → Outcome} {fast : Bool} {mrs mrs' : List ℕ}
    {n : ℕ} (h : Attempts (scripted out) fast mrs 0 mrs' n) : ∀ k < n, out k = .registered := by
  generalize hz : 0 = m at h
  induction h with
  | done =>
      intro k hk
      omega
  | more _ ha ih =>
      intro k hk
      obtain ⟨ho, rfl⟩ := attempt_scripted_registered ha
      rcases Nat.lt_succ_iff_lt_or_eq.mp hk with hlt | rfl
      · exact ih hz k hlt
      · exact ho

/-- If every registration attempt succeeds, the descriptors refer to exactly the
bytes of the list in order. -/
theorem srpMapSg_covers (dev : SrpDevice) (registerAlways useMr : Bool) (out : ℕ → Outcome)
    (scat : List Sg) (hlt : sgLen scat < 2^32) :
    ∃ st n, srpMapSg dev registerAlways useMr (scripted out) scat 0 = some (st, n) ∧
      ((∀ k < n, out k = .registered) →
        descBytes dev st = sgBytes scat ∧ st.totalLen = sgLen scat) ∧
      ∀ i ∈ st.pageWrites, i < dev.maxPagesPerMr := by
  obtain ⟨⟨st, n⟩, he, hr, hw⟩ :=
    srpMapSg_spec dev registerAlways useMr (scripted out) 0 hlt
  refine ⟨st, n, he, fun hall => ?_, hw⟩
  cases hr with
  | complete hc => exact ⟨hc.bytes, hc.total⟩
  | unavailable hc => exact ⟨hc.bytes, hc.total⟩
  | postFailed _ _ _ _ _ ha _ =>
      obtain ⟨ho, rfl⟩ := attempt_scripted_postFailed ha
      rw [hall _ (Nat.lt_succ_self _)] at ho
      cases ho

def twoPageDevice : SrpDevice :=
  { mrPageShift := 12, maxPagesPerMr := 2, useFastReg := true }

def straddling : Sg := { dmaAddress := 4095, dmaLen := 2 }

theorem srpMapSg_covers_straddling :
    ∃ st n, srpMapSg twoPageDevice false true (scripted fun _ => .registered) [straddling] 0 =
        some (st, n) ∧
      descBytes twoPageDevice st = sgBytes [straddling] ∧ st.totalLen = 2 := by
  obtain ⟨st, n, he, hc, _⟩ :=
    srpMapSg_covers twoPageDevice false true (fun _ => .registered) [straddling] (by decide)
  obtain ⟨hb, ht⟩ := hc fun _ _ => rfl
  exact ⟨st, n, he, hb, ht⟩

/-- The first attempt that fails is one whose work request could not be posted. -/
def PostFailsFirst (out : ℕ → Outcome) : Prop :=
  ∃ k, (∀ j < k, out j = .registered) ∧ out k = .postFailed

theorem not_postFailsFirst {out : ℕ → Outcome} {n : ℕ} (hbefore : ∀ j < n, out j = .registered)
    (hn : out n = .unavailable) : ¬ PostFailsFirst out := by
  rintro ⟨k, hk, hpost⟩
  rcases Nat.lt_trichotomy k n with hlt | rfl | hgt
  · rw [hbefore k hlt] at hpost
    cases hpost
  · rw [hn] at hpost
    cases hpost
  · rw [hk n hgt] at hn
    cases hn

/-- If an attempt fails, every byte is still described exactly once and in order,
unless the failure is that of posting a fast-registration work request. -/
theorem srpMapSg_covers_after_failure (dev : SrpDevice) (registerAlways useMr : Bool)
    (out : ℕ → Outcome) (scat : List Sg) (hlt : sgLen scat < 2^32) :
    ∃ st n, srpMapSg dev registerAlways useMr (scripted out) scat 0 = some (st, n) ∧
      ((∃ k < n, out k ≠ .registered) →
        ((descBytes dev st = sgBytes scat ∧ st.totalLen = sgLen scat) ↔
          ¬ (dev.useFastReg = true ∧ PostFailsFirst out))) := by
  obtain ⟨⟨st, n⟩, he, hr, _⟩ :=
    srpMapSg_spec dev registerAlways useMr (scripted out) 0 hlt
  refine ⟨st, n, he, fun hfail => ?_⟩
  cases hr with
  | complete _ hatt =>
      obtain ⟨k, hk, hne⟩ := hfail
      exact (hne (attempts_scripted hatt k hk)).elim
  | unavailable hc hatt ha =>
      obtain ⟨_, ho, _⟩ := attempt_scripted_unavailable ha
      refine ⟨fun _ hp => ?_, fun _ => ⟨hc.bytes, hc.total⟩⟩
      exact not_postFailsFirst (attempts_scripted hatt) (ho hp.1) hp.2
  | postFailed hfast hl hl' htot hatt ha _ =>
      obtain ⟨ho, _⟩ := attempt_scripted_postFailed ha
      have hp : PostFailsFirst out := ⟨_, attempts_scripted hatt, ho⟩
      refine ⟨fun hc => ?_, fun hnot => (hnot ⟨hfast, hp⟩).elim⟩
      have hsum := hc.2
      rw [htot] at hsum
      omega

theorem srpMapSg_covers_empty_pool :
    ∃ st, srpMapSg twoPageDevice true true (scripted fun _ => .unavailable) [straddling] 0 =
        some (st, 1) ∧
      descBytes twoPageDevice st = sgBytes [straddling] ∧ st.totalLen = 2 := by
  obtain ⟨st, n, he, hc⟩ := srpMapSg_covers_after_failure twoPageDevice true true
    (fun _ => .unavailable) [straddling] (by decide)
  have hn : 1 = n := by
    have h : (srpMapSg twoPageDevice true true (scripted fun _ => .unavailable)
      [straddling] 0).map Prod.snd = some 1 := by decide
    rw [he] at h
    exact (Option.some.inj h).symm
  subst hn
  refine ⟨st, he, (hc ⟨0, Nat.one_pos, by decide⟩).mpr fun hp => ?_⟩
  exact not_postFailsFirst (n := 0) (by simp) rfl hp.2

/-- A region whose work request cannot be posted is described twice. -/
theorem srpMapSg_describes_twice :
    ∃ st, srpMapSg twoPageDevice true true (scripted fun _ => .postFailed) [straddling] 0 =
        some (st, 1) ∧
      sgBytes [straddling] = [4095, 4096] ∧
      descBytes twoPageDevice st = [4095, 4096, 4095, 4096] ∧ st.totalLen = 4 :=
  ⟨_, rfl, by decide, by decide, by decide⟩

end IbSrp.MappingResults

import IbSrp.Channel

/-!
# How many registrations a command needs

The number of memory regions that `srp_map_sg` registers for a list depends only
on the list and the device as long as every registration succeeds. `idealOps`
are services under which this is so, and `registrations` counts the regions.

The control flow of the mapping loops depends on nothing but the number of open
pages. A mapping with other services therefore runs abreast of the ideal one
until a registration fails, and after that it registers nothing more. So it
never takes more memory descriptors than the ideal one.
-/
namespace IbSrp.RegistrationCount
open MemoryRegistration MappingCoverage MappingResults Channel

def idealOps : MrOps Unit Unit where
  srpFrPoolGet _ := (some (), ())
  ibPostSend _ _ := (true, ())
  ibFmrPoolMapPhys _ _ := (some (), ())

/-- The number of regions that are registered for a command if no registration fails. -/
def registrations (target : SrpTargetPort) (scmnd : ScsiCmnd) : ℕ :=
  match scmnd.sglist with
  | none => 0
  | some scat =>
      if target.immediate scmnd scat = true ∨
          (scat.length = 1 ∧ target.registerAlways = false) then 0
      else
        match srpMapSg target.dev target.registerAlways target.hasPool idealOps scat () with
        | none => 0
        | some (st, _) => st.nmdesc

section
variable {σ D : Type} {dev : SrpDevice} {ops : MrOps σ D} {registerAlways : Bool}

/-- The two mappings have the same number of open pages and of memory descriptors. -/
structure Abreast (st : MapState D) (st' : MapState Unit) : Prop where
  npages : st.npages = st'.npages
  nmdesc : st.nmdesc = st'.nmdesc

/-- The ideal mapping went on; the other one is abreast of it or has failed. -/
structure Behind (r : Mapped σ D) (r' : Mapped Unit Unit) : Prop where
  ok : r'.ok = true
  count : r.state.nmdesc ≤ r'.state.nmdesc
  abreast : r.ok = true → Abreast r.state r'.state

theorem Abreast.behind {st : MapState D} {st' : MapState Unit} (h : Abreast st st') (ch : σ) :
    Behind ⟨true, st, ch⟩ ⟨true, st', ()⟩ := by
  constructor
  · rfl
  · exact h.nmdesc.le
  · intro _
    exact h

/-- The ideal mapping gives a result with at least as many memory descriptors. -/
def Grows (st : MapState Unit) (r : Mapped Unit Unit) : Prop :=
  r.ok = true ∧ st.nmdesc ≤ r.state.nmdesc

theorem Behind.failed {r : Mapped σ D} {r' r'' : Mapped Unit Unit} (h : Behind r r')
    (hgrows : Grows r'.state r'') (hok : r.ok = false) : Behind r r'' := by
  constructor
  · exact hgrows.1
  · exact h.count.trans hgrows.2
  · intro ht
    rw [hok] at ht
    cases ht

theorem srpFinishMapping_grows (dev : SrpDevice) (registerAlways : Bool) (st : MapState Unit)
    (ch : Unit) : Grows st (srpFinishMapping dev registerAlways idealOps st ch) := by
  unfold srpFinishMapping
  split_ifs <;> simp_all [Grows, srpMapFinishFr, srpMapFinishFmr, idealOps, srpMapDesc,
    MapState.nmdesc]

theorem srpFinishMapping_behind {st : MapState D} {st' : MapState Unit} (h : Abreast st st')
    (ch : σ) : Behind (srpFinishMapping dev registerAlways ops st ch)
      (srpFinishMapping dev registerAlways idealOps st' ()) := by
  have hmore : st.nmdesc ≤ st'.nmdesc+1 := h.nmdesc.le.trans (Nat.le_succ _)
  unfold srpFinishMapping
  rw [← h.npages]
  by_cases h0 : st.npages = 0
  · simp only [if_pos h0]
    exact h.behind ch
  by_cases h1 : st.npages = 1 ∧ registerAlways = false
  · simp only [if_neg h0, if_pos h1, if_true]
    exact ⟨rfl, h.nmdesc.le, fun _ => ⟨rfl, h.nmdesc⟩⟩
  simp only [if_neg h0, if_neg h1]
  have hcount : ∀ d : D, (st.mrList++[d]).length = (st'.mrList++[()]).length := by
    intro d
    have := h.nmdesc
    simp_all [MapState.nmdesc]
  cases hfast : dev.useFastReg with
  | true =>
      simp only [if_true, srpMapFinishFr, idealOps]
      obtain ⟨o, ch₁, hget⟩ : ∃ o ch₁, ops.srpFrPoolGet ch = (o, ch₁) := ⟨_, _, rfl⟩
      rw [hget]
      cases o with
      | none =>
          exact ⟨rfl, by simpa [srpMapDesc, MapState.nmdesc] using hmore, fun hok => by cases hok⟩
      | some d =>
          cases hpost : (ops.ibPostSend ch₁ d).1 with
          | true =>
              simp only [hpost, if_true]
              exact ⟨rfl, (hcount d).le, fun _ => ⟨rfl, hcount d⟩⟩
          | false =>
              simp only [hpost, Bool.false_eq_true, if_false]
              exact ⟨rfl, (hcount d).le, fun hok => by cases hok⟩
  | false =>
      simp only [Bool.false_eq_true, if_false, srpMapFinishFmr, idealOps]
      obtain ⟨o, ch₁, hmap⟩ : ∃ o ch₁, ops.ibFmrPoolMapPhys ch st.pages = (o, ch₁) := ⟨_, _, rfl⟩
      rw [hmap]
      cases o with
      | none =>
          exact ⟨rfl, by simpa [srpMapDesc, MapState.nmdesc] using hmore, fun hok => by cases hok⟩
      | some d => exact ⟨rfl, (hcount d).le, fun _ => ⟨rfl, hcount d⟩⟩

theorem srpMapPageStart_grows (dev : SrpDevice) (registerAlways : Bool) (sg : Sg) (i dmaAddr : ℕ)
    (st : MapState Unit) (ch : Unit) :
    Grows st (srpMapPageStart dev registerAlways idealOps sg i dmaAddr st ch) := by
  have hfin := srpFinishMapping_grows dev registerAlways st ch
  unfold srpMapPageStart
  simp only [hfin.1, if_true]
  split_ifs with hclose
  · exact ⟨rfl, hfin.2⟩
  · exact ⟨rfl, Nat.le_refl _⟩

theorem srpMapPageStart_behind {st : MapState D} {st' : MapState Unit} (h : Abreast st st')
    (sg : Sg) (i dmaAddr : ℕ) (ch : σ) :
    Behind (srpMapPageStart dev registerAlways ops sg i dmaAddr st ch)
      (srpMapPageStart dev registerAlways idealOps sg i dmaAddr st' ()) := by
  have hfin : Behind (srpFinishMapping dev registerAlways ops st ch) _ :=
    srpFinishMapping_behind h ch
  unfold srpMapPageStart
  rw [← h.npages]
  simp only [hfin.ok, if_true]
  by_cases hclose : st.npages = dev.maxPagesPerMr ∨ dev.pageOffset dmaAddr ≠ 0
  · simp only [if_pos hclose]
    cases hok : (srpFinishMapping dev registerAlways ops st ch).ok with
    | true =>
        have hsame := hfin.abreast hok
        simp only [if_true]
        exact ⟨rfl, hfin.count, fun _ => ⟨hsame.npages, hsame.nmdesc⟩⟩
    | false =>
        simp only [Bool.false_eq_true, if_false]
        exact hfin.failed ⟨rfl, Nat.le_refl _⟩ hok
  · simp only [if_neg hclose]
    exact h.behind ch

theorem Abreast.srpMapPage {st : MapState D} {st' : MapState Unit} (h : Abreast st st')
    (dmaAddr len : ℕ) :
    Abreast (srpMapPage dev st dmaAddr len) (srpMapPage dev st' dmaAddr len) := by
  have hn := h.npages
  constructor
  · simp_all [MemoryRegistration.srpMapPage, MapState.npages]
  · exact h.nmdesc

theorem srpMapPages_grows (dev : SrpDevice) (registerAlways : Bool) (sg : Sg) (i fuel : ℕ) :
    ∀ (dmaAddr dmaLen len : ℕ) (st : MapState Unit) (ch : Unit),
    Grows st (srpMapPages dev registerAlways idealOps sg i fuel dmaAddr dmaLen len st ch).1 := by
  induction fuel with
  | zero =>
      intro dmaAddr dmaLen len st ch
      exact ⟨rfl, Nat.le_refl _⟩
  | succ fuel ih =>
      intro dmaAddr dmaLen len st ch
      have hstart := srpMapPageStart_grows dev registerAlways sg i dmaAddr st ch
      simp only [srpMapPages, hstart.1, if_true]
      split_ifs with hzero
      · exact ⟨rfl, Nat.le_refl _⟩
      · have hrest := ih ((dmaAddr+min dmaLen (dev.mrPageSize-dev.pageOffset dmaAddr)) % 2^64)
          (dmaLen-min dmaLen (dev.mrPageSize-dev.pageOffset dmaAddr))
          (min dmaLen (dev.mrPageSize-dev.pageOffset dmaAddr))
          (srpMapPage dev (srpMapPageStart dev registerAlways idealOps sg i dmaAddr st ch).state
            dmaAddr (min dmaLen (dev.mrPageSize-dev.pageOffset dmaAddr)))
          (srpMapPageStart dev registerAlways idealOps sg i dmaAddr st ch).ch
        exact ⟨hrest.1, hstart.2.trans hrest.2⟩

/-- The page loops run abreast, and end with the same last chunk if neither fails. -/
theorem srpMapPages_behind (dev : SrpDevice) (registerAlways : Bool) (ops : MrOps σ D) (sg : Sg)
    (i fuel : ℕ) : ∀ (dmaAddr dmaLen len : ℕ)
    {st : MapState D} {st' : MapState Unit} (ch : σ), Abreast st st' →
    Behind (srpMapPages dev registerAlways ops sg i fuel dmaAddr dmaLen len st ch).1
        (srpMapPages dev registerAlways idealOps sg i fuel dmaAddr dmaLen len st' ()).1 ∧
      ((srpMapPages dev registerAlways ops sg i fuel dmaAddr dmaLen len st ch).1.ok = true →
        (srpMapPages dev registerAlways ops sg i fuel dmaAddr dmaLen len st ch).2 =
          (srpMapPages dev registerAlways idealOps sg i fuel dmaAddr dmaLen len st' ()).2) := by
  induction fuel with
  | zero =>
      intro dmaAddr dmaLen len st st' ch h
      exact ⟨h.behind ch, fun _ => rfl⟩
  | succ fuel ih =>
      intro dmaAddr dmaLen len st st' ch h
      have hstart : Behind (srpMapPageStart dev registerAlways ops sg i dmaAddr st ch) _ :=
        srpMapPageStart_behind h sg i dmaAddr ch
      simp only [srpMapPages, hstart.ok, if_true]
      by_cases hzero : dmaLen = 0
      · simp only [if_pos hzero]
        exact ⟨h.behind ch, fun _ => trivial⟩
      simp only [if_neg hzero]
      cases hok : (srpMapPageStart dev registerAlways ops sg i dmaAddr st ch).ok with
      | true =>
          simp only [if_true]
          exact ih _ _ _ _ ((hstart.abreast hok).srpMapPage _ _)
      | false =>
          simp only [Bool.false_eq_true, if_false]
          constructor
          · exact hstart.failed (srpMapPages_grows dev registerAlways sg i fuel _ _ _ _ _) hok
          · intro ht
            rw [hok] at ht
            cases ht

/-- The end of `srp_map_sg_entry` after a page loop whose last chunk has length `len`. -/
def endEntry (dev : SrpDevice) (registerAlways : Bool) (ops : MrOps σ D) (r : Mapped σ D)
    (len : ℕ) : Mapped σ D :=
  if len ≠ dev.mrPageSize then
    let r := srpFinishMapping dev registerAlways ops r.state r.ch
    if r.ok then ⟨true, srpMapUpdateStart r.state none 0 0, r.ch⟩ else r
  else r

theorem endEntry_grows (dev : SrpDevice) (registerAlways : Bool) {r : Mapped Unit Unit} (len : ℕ)
    (hok : r.ok = true) : Grows r.state (endEntry dev registerAlways idealOps r len) := by
  have hfin := srpFinishMapping_grows dev registerAlways r.state r.ch
  unfold endEntry
  simp only [hfin.1, if_true]
  split_ifs
  · exact ⟨rfl, hfin.2⟩
  · exact ⟨hok, Nat.le_refl _⟩

theorem endEntry_behind {r : Mapped σ D} {r' : Mapped Unit Unit} (h : Behind r r') (len : ℕ)
    (hok : r.ok = true) :
    Behind (endEntry dev registerAlways ops r len)
      (endEntry dev registerAlways idealOps r' len) := by
  have hfin : Behind (srpFinishMapping dev registerAlways ops r.state r.ch) _ :=
    srpFinishMapping_behind (h.abreast hok) r.ch
  unfold endEntry
  simp only [hfin.ok, if_true]
  split_ifs with hlen hfok
  · have hsame := hfin.abreast hfok
    exact ⟨rfl, hfin.count, fun _ => ⟨hsame.npages, hsame.nmdesc⟩⟩
  · exact hfin.failed ⟨rfl, Nat.le_refl _⟩ (Bool.not_eq_true _ ▸ hfok)
  · exact h

theorem srpMapSgEntry_eq (dev : SrpDevice) (registerAlways : Bool) (ops : MrOps σ D) (useMr : Bool)
    (sg : Sg) (i : ℕ) (st : MapState D) (ch : σ) (hlen : sg.dmaLen ≠ 0) (hmr : useMr = true)
    (hsmall : ¬ ((dev.useFastReg = false ∧ dev.pageOffset sg.dmaAddress ≠ 0) ∨
      dev.mrMaxSize < sg.dmaLen)) :
    ∃ st₀ : MapState D, st₀.npages = st.npages ∧ st₀.nmdesc = st.nmdesc ∧
      srpMapSgEntry dev registerAlways ops useMr sg i st ch =
        if (srpMapPages dev registerAlways ops sg i sg.dmaLen sg.dmaAddress sg.dmaLen 0 st₀ ch).1.ok
        then endEntry dev registerAlways ops
          (srpMapPages dev registerAlways ops sg i sg.dmaLen sg.dmaAddress sg.dmaLen 0 st₀ ch).1
          (srpMapPages dev registerAlways ops sg i sg.dmaLen sg.dmaAddress sg.dmaLen 0 st₀ ch).2
        else
          (srpMapPages dev registerAlways ops sg i sg.dmaLen sg.dmaAddress sg.dmaLen 0
            st₀ ch).1 := by
  refine ⟨if st.unmappedSg = none then srpMapUpdateStart st (some sg) i sg.dmaAddress else st,
    ?_, ?_, ?_⟩
  · split_ifs <;> rfl
  · split_ifs <;> rfl
  · rw [srpMapSgEntry, if_neg hlen, if_neg (by simp [hmr]), if_neg hsmall]
    rfl

theorem srpMapSgEntry_grows (dev : SrpDevice) (registerAlways useMr : Bool) (sg : Sg) (i : ℕ)
    (st : MapState Unit) (ch : Unit) :
    Grows st (srpMapSgEntry dev registerAlways idealOps useMr sg i st ch) := by
  have hfin := srpFinishMapping_grows dev registerAlways st ch
  by_cases hlen : sg.dmaLen = 0
  · rw [srpMapSgEntry, if_pos hlen]
    exact ⟨rfl, Nat.le_refl _⟩
  cases hmr : useMr with
  | false =>
      rw [srpMapSgEntry, if_neg hlen, if_pos rfl]
      exact ⟨rfl, Nat.le_refl _⟩
  | true =>
      by_cases hlarge : (dev.useFastReg = false ∧ dev.pageOffset sg.dmaAddress ≠ 0) ∨
          dev.mrMaxSize < sg.dmaLen
      · rw [srpMapSgEntry, if_neg hlen, if_neg (by simp), if_pos hlarge]
        simp only [hfin.1, if_true]
        exact ⟨rfl, hfin.2⟩
      · obtain ⟨st₀, _, hn, he⟩ := srpMapSgEntry_eq dev registerAlways idealOps true sg i st ch hlen
          rfl hlarge
        have hpages := srpMapPages_grows dev registerAlways sg i sg.dmaLen sg.dmaAddress sg.dmaLen 0
          st₀ ch
        rw [he, if_pos hpages.1]
        have hend := endEntry_grows dev registerAlways (srpMapPages dev registerAlways idealOps sg i
          sg.dmaLen sg.dmaAddress sg.dmaLen 0 st₀ ch).2 hpages.1
        exact ⟨hend.1, hn ▸ hpages.2.trans hend.2⟩

theorem srpMapSgEntry_behind {useMr : Bool} {st : MapState D} {st' : MapState Unit}
    (h : Abreast st st') (sg : Sg) (i : ℕ) (ch : σ) :
    Behind (srpMapSgEntry dev registerAlways ops useMr sg i st ch)
      (srpMapSgEntry dev registerAlways idealOps useMr sg i st' ()) := by
  have hfin : Behind (srpFinishMapping dev registerAlways ops st ch) _ :=
    srpFinishMapping_behind h ch
  by_cases hlen : sg.dmaLen = 0
  · rw [srpMapSgEntry, srpMapSgEntry, if_pos hlen, if_pos hlen]
    exact h.behind ch
  cases hmr : useMr with
  | false =>
      rw [srpMapSgEntry, srpMapSgEntry, if_neg hlen, if_neg hlen, if_pos rfl, if_pos rfl]
      exact ⟨rfl, h.nmdesc.le, fun _ => ⟨h.npages, h.nmdesc⟩⟩
  | true =>
      by_cases hlarge : (dev.useFastReg = false ∧ dev.pageOffset sg.dmaAddress ≠ 0) ∨
          dev.mrMaxSize < sg.dmaLen
      · simp only [srpMapSgEntry, if_neg hlen, if_pos hlarge, Bool.true_eq_false, if_false, hfin.ok,
          if_true]
        split_ifs with hok
        · have hsame := hfin.abreast hok
          exact ⟨rfl, hfin.count, fun _ => ⟨hsame.npages, hsame.nmdesc⟩⟩
        · exact hfin.failed ⟨rfl, Nat.le_refl _⟩ (Bool.not_eq_true _ ▸ hok)
      · obtain ⟨st₀, hp, hn, he⟩ := srpMapSgEntry_eq dev registerAlways ops true sg i st ch hlen
          rfl hlarge
        obtain ⟨st₀', hp', hn', he'⟩ := srpMapSgEntry_eq dev registerAlways idealOps true sg i
          st' () hlen rfl hlarge
        have hstart : Abreast st₀ st₀' :=
          ⟨by rw [hp, hp', h.npages], by rw [hn, hn', h.nmdesc]⟩
        have hpages := srpMapPages_behind dev registerAlways ops sg i sg.dmaLen sg.dmaAddress
          sg.dmaLen 0 ch hstart
        rw [he, he', if_pos hpages.1.ok]
        split_ifs with hok
        · rw [hpages.2 hok]
          exact endEntry_behind hpages.1 _ hok
        · exact hpages.1.failed (endEntry_grows dev registerAlways _ hpages.1.ok)
            (Bool.not_eq_true _ ▸ hok)

theorem forEachSg_grows (dev : SrpDevice) (registerAlways useMr : Bool) (scat : List Sg) :
    ∀ (i : ℕ) (st : MapState Unit) (ch : Unit),
    Grows st (forEachSg dev registerAlways idealOps useMr scat i st ch) := by
  induction scat with
  | nil =>
      intro i st ch
      exact ⟨rfl, Nat.le_refl _⟩
  | cons sg scat ih =>
      intro i st ch
      have hentry := srpMapSgEntry_grows dev registerAlways useMr sg i st ch
      simp only [forEachSg, hentry.1, if_true]
      have hrest := ih (i+1) (srpMapSgEntry dev registerAlways idealOps useMr sg i st ch).state
        (srpMapSgEntry dev registerAlways idealOps useMr sg i st ch).ch
      exact ⟨hrest.1, hentry.2.trans hrest.2⟩

theorem forEachSg_behind {useMr : Bool} (scat : List Sg) : ∀ (i : ℕ) {st : MapState D}
    {st' : MapState Unit} (ch : σ), Abreast st st' →
    Behind (forEachSg dev registerAlways ops useMr scat i st ch)
      (forEachSg dev registerAlways idealOps useMr scat i st' ()) := by
  induction scat with
  | nil =>
      intro i st st' ch h
      exact h.behind ch
  | cons sg scat ih =>
      intro i st st' ch h
      have hentry : Behind (srpMapSgEntry dev registerAlways ops useMr sg i st ch) _ :=
        srpMapSgEntry_behind h sg i ch
      simp only [forEachSg, hentry.ok, if_true]
      split_ifs with hok
      · exact ih _ _ (hentry.abreast hok)
      · exact hentry.failed (forEachSg_grows dev registerAlways useMr scat _ _ _)
          (Bool.not_eq_true _ ▸ hok)

theorem srpMapBacktrack_nmdesc {scat : List Sg} {st st₁ : MapState D} {ch ch' : σ}
    (h : srpMapBacktrack dev registerAlways ops scat st ch = some (st₁, ch')) :
    st₁.nmdesc = st.nmdesc := by
  unfold srpMapBacktrack at h
  cases hsg : st.unmappedSg with
  | none => simp [hsg] at h
  | some sg =>
      simp only [hsg, Option.some.injEq, Prod.mk.injEq] at h
      rw [← h.1]
      exact congrArg List.length
        (forEachSg_direct dev registerAlways ops (scat.drop (st.unmappedIndex+1)) _ _ _).2.2.1

/-- No mapping takes more memory descriptors than the ideal one. -/
theorem srpMapSg_nmdesc_le {useMr : Bool} {scat : List Sg} {st : MapState D} {ch ch' : σ}
    (h : srpMapSg dev registerAlways useMr ops scat ch = some (st, ch')) :
    ∃ st', srpMapSg dev registerAlways useMr idealOps scat () = some (st', ()) ∧
      st.nmdesc ≤ st'.nmdesc := by
  have hempty : Abreast ({} : MapState D) {} := ⟨rfl, rfl⟩
  have hall : Behind (forEachSg dev registerAlways ops useMr scat 0 {} ch) _ :=
    forEachSg_behind scat 0 ch hempty
  set r := forEachSg dev registerAlways ops useMr scat 0 {} ch with hr
  set r' := forEachSg dev registerAlways idealOps useMr scat 0 {} () with hr'
  have hgrows := srpFinishMapping_grows dev registerAlways r'.state r'.ch
  simp only [srpMapSg, ← hr, ← hr', hall.ok, hgrows.1, if_true] at h ⊢
  cases hmr : useMr with
  | false =>
      simp only [hmr, Bool.false_eq_true, if_false] at h ⊢
      refine ⟨_, rfl, ?_⟩
      split_ifs at h
      · cases h
        exact hall.count
      · rw [srpMapBacktrack_nmdesc h]
        exact hall.count
  | true =>
      simp only [hmr, if_true] at h ⊢
      refine ⟨_, rfl, ?_⟩
      cases hok : r.ok with
      | false =>
          simp only [hok, Bool.false_eq_true, if_false] at h
          rw [srpMapBacktrack_nmdesc h]
          exact hall.count.trans hgrows.2
      | true =>
          have hfin : Behind (srpFinishMapping dev registerAlways ops r.state r.ch) _ :=
            srpFinishMapping_behind (hall.abreast hok) r.ch
          simp only [hok, if_true] at h
          split_ifs at h
          · cases h
            exact hfin.count
          · rw [srpMapBacktrack_nmdesc h]
            exact hfin.count

end

/-- A command that needs registration takes no more memory descriptors than `registrations`. -/
theorem nmdesc_le_registrations {hca : Hca} {target : SrpTargetPort} {scmnd : ScsiCmnd}
    {scat : List Sg} {st : MapState MrDesc} {ch ch' : SrpRdmaCh} (hsg : scmnd.sglist = some scat)
    (himm : target.immediate scmnd scat = false)
    (hone : ¬ (scat.length = 1 ∧ target.registerAlways = false))
    (h : srpMapSg target.dev target.registerAlways target.hasPool (mrOps hca) scat ch =
      some (st, ch')) : st.mrList.length ≤ registrations target scmnd := by
  obtain ⟨st', he, hle⟩ := srpMapSg_nmdesc_le h
  have hcond : ¬ (target.immediate scmnd scat = true ∨
      (scat.length = 1 ∧ target.registerAlways = false)) := by
    simp only [himm, Bool.false_eq_true, false_or]
    exact hone
  simp only [registrations, hsg, if_neg hcond, he]
  exact hle

end IbSrp.RegistrationCount

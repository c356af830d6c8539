import IbSrp.MappingResults

/-!
# How many descriptors a mapping stores without fast registration

Without fast registration an entry never takes more than one descriptor: an
entry that does not start on a page boundary or is longer than a region is
described by itself, and an entry that fits in one region does not fill a page
list alone. An open region that is carried over from earlier entries counts for
one of them. The same holds when no page fits in a region at all, because then
every entry is described by itself.

The invariant counts: `ndesc` is at most the number of entries before the open
region. Nothing here depends on how long the list is in bytes.
-/
namespace IbSrp.MappingBounds
open MemoryRegistration MappingCoverage MappingResults

section
variable {σ D : Type}

/-- No region can ever be registered: no page fits in a region, or only one does
and single pages are described directly. -/
def NeverRegisters (dev : SrpDevice) (registerAlways : Bool) : Prop :=
  dev.maxPagesPerMr = 0 ∨ dev.maxPagesPerMr = 1 ∧ registerAlways = false

/-- Every memory descriptor belongs to a buffer descriptor, and the page list fits. -/
structure Tame (dev : SrpDevice) (registerAlways : Bool) (st : MapState D) : Prop where
  nmdesc_le : st.nmdesc ≤ st.ndesc
  npages_le : st.npages ≤ dev.maxPagesPerMr
  unregistered : NeverRegisters dev registerAlways → st.nmdesc = 0

/-- A region that starts in an entry up to `k`, with at most one descriptor for
each entry before it. -/
structure Pending (dev : SrpDevice) (registerAlways : Bool) (k : ℕ) (st : MapState D) :
    Prop where
  tame : Tame dev registerAlways st
  started : st.unmappedSg ≠ none
  ndesc_le : st.ndesc ≤ st.unmappedIndex
  index_le : st.unmappedIndex ≤ k

/-- Between two entries, after the first `k` of them. -/
structure Few (dev : SrpDevice) (registerAlways : Bool) (k : ℕ) (st : MapState D) : Prop where
  tame : Tame dev registerAlways st
  idle : st.pages = [] → st.unmappedSg = none ∧ st.ndesc ≤ k
  pending : st.pages ≠ [] → ∃ j < k, Pending dev registerAlways j st

/-- What `srp_finish_mapping` leaves of a region: one descriptor more, or nothing
has changed. -/
structure Finished (dev : SrpDevice) (registerAlways : Bool) (st : MapState D)
    (r : Mapped σ D) : Prop where
  pages : r.state.pages = []
  tame : Tame dev registerAlways r.state
  ndesc : r.state.ndesc = st.ndesc+(if st.pages = [] then 0 else 1)

theorem ndesc_srpMapDesc (st : MapState D) (a l : ℕ) (key : Rkey D) :
    (srpMapDesc st a l key).ndesc = st.ndesc+1 := by
  simp [srpMapDesc, MapState.ndesc]

theorem ndesc_closeRegion (st : MapState D) (buf : SrpDirectBuf D) (mr : Option D) :
    (closeRegion st buf mr).ndesc = st.ndesc+1 := by
  simp [closeRegion, emit, srpMapDesc, MapState.ndesc]

theorem nmdesc_closeRegion (st : MapState D) (buf : SrpDirectBuf D) (mr : Option D) :
    (closeRegion st buf mr).nmdesc = st.nmdesc+mr.toList.length := by
  simp [closeRegion, emit, srpMapDesc, MapState.nmdesc]

theorem Tame.not_registrable {dev : SrpDevice} {registerAlways : Bool} {st : MapState D}
    (h : Tame dev registerAlways st) (hn : NeverRegisters dev registerAlways) :
    ¬ Registrable registerAlways st := by
  rintro ⟨hp, hone⟩
  have hpos : 0 < st.npages := List.length_pos_iff.mpr hp
  have hle := h.npages_le
  rcases hn with hz | ⟨hmax, hra⟩
  · omega
  · rw [hone (by omega)] at hra
    cases hra

theorem Tame.closeRegion {dev : SrpDevice} {registerAlways : Bool} {st : MapState D}
    (h : Tame dev registerAlways st) (buf : SrpDirectBuf D) (mr : Option D)
    (hmr : mr.isSome → Registrable registerAlways st) :
    Tame dev registerAlways (closeRegion st buf mr) := by
  have hle := h.nmdesc_le
  refine ⟨?_, Nat.zero_le _, fun hn => ?_⟩
  · rw [ndesc_closeRegion, nmdesc_closeRegion]
    cases mr <;> simp only [Option.toList, List.length_nil, List.length_singleton] <;> omega
  · have hz := h.unregistered hn
    cases mr with
    | none => simpa [nmdesc_closeRegion] using hz
    | some d => exact (h.not_registrable hn (hmr rfl)).elim

theorem srpFinishMapping_few {dev : SrpDevice} {registerAlways : Bool} (ops : MrOps σ D)
    {st : MapState D} (ch : σ) (h : Tame dev registerAlways st)
    (hfmr : st.pages ≠ [] → dev.useFastReg = false) :
    let r := srpFinishMapping dev registerAlways ops st ch
    r.ok = true ∧ Finished dev registerAlways st r ∨
      r.ok = false ∧ r.state = st ∧ st.pages ≠ [] := by
  intro r
  have hf := srpFinishMapping_finish dev registerAlways ops st ch
  change Finish dev registerAlways ops st ch r at hf
  generalize r = r at hf ⊢
  cases hf with
  | empty hp => exact Or.inl ⟨rfl, hp, h, by simp [hp]⟩
  | direct hone _ =>
      have hp : st.pages ≠ [] := fun he => by simp [MapState.npages, he] at hone
      refine Or.inl ⟨rfl, rfl, h.closeRegion _ none (by simp), ?_⟩
      rw [if_neg hp]
      exact ndesc_closeRegion st _ none
  | registered hr ha =>
      refine Or.inl ⟨rfl, rfl, h.closeRegion _ _ (fun _ => hr), ?_⟩
      rw [if_neg hr.1]
      exact ndesc_closeRegion st _ _
  | unavailable hr ha => exact Or.inr ⟨rfl, rfl, hr.1⟩
  | postFailed hr hfast ha =>
      rw [hfmr hr.1] at hfast
      cases hfast

theorem Tame.srpMapDesc {dev : SrpDevice} {registerAlways : Bool} {st : MapState D}
    (h : Tame dev registerAlways st) (a l : ℕ) :
    Tame dev registerAlways (srpMapDesc st a l .target) := by
  refine ⟨?_, h.npages_le, h.unregistered⟩
  rw [ndesc_srpMapDesc]
  exact Nat.le_succ_of_le h.nmdesc_le

theorem Tame.updateStart {dev : SrpDevice} {registerAlways : Bool} {st : MapState D}
    (h : Tame dev registerAlways st) (sg : Option Sg) (i a : ℕ) :
    Tame dev registerAlways (srpMapUpdateStart st sg i a) :=
  ⟨h.nmdesc_le, h.npages_le, h.unregistered⟩

theorem Finished.restart {dev : SrpDevice} {registerAlways : Bool} {st : MapState D}
    {r : Mapped σ D} {k : ℕ} (h : Finished dev registerAlways st r) (sg : Sg) (a : ℕ)
    (hle : st.ndesc+(if st.pages = [] then 0 else 1) ≤ k) :
    Pending dev registerAlways k (srpMapUpdateStart r.state (some sg) k a) :=
  ⟨h.tame.updateStart _ _ _, by simp [srpMapUpdateStart], by
    change r.state.ndesc ≤ k
    rw [h.ndesc]
    exact hle, le_rfl⟩

theorem Finished.stop {dev : SrpDevice} {registerAlways : Bool} {st : MapState D}
    {r : Mapped σ D} {k : ℕ} (h : Finished dev registerAlways st r)
    (hle : st.ndesc+(if st.pages = [] then 0 else 1) ≤ k) :
    Few dev registerAlways k (srpMapUpdateStart r.state none 0 0) :=
  ⟨h.tame.updateStart _ _ _, fun _ => ⟨rfl, by
    change r.state.ndesc ≤ k
    rw [h.ndesc]
    exact hle⟩, fun hp => (hp h.pages).elim⟩

/-- Inside entry `k`, after `o` bytes: a region that starts in this entry holds no
more than these bytes, so it is not full before the entry ends. -/
structure Collected (dev : SrpDevice) (registerAlways : Bool) (k o : ℕ) (st : MapState D) :
    Prop where
  pending : Pending dev registerAlways k st
  own : st.unmappedIndex = k → st.npages*dev.mrPageSize ≤ o

theorem maxPagesPerMr_pos {dev : SrpDevice} {sg : Sg} (hz : 0 < sg.dmaLen)
    (hmax : sg.dmaLen ≤ dev.mrMaxSize) : 0 < dev.maxPagesPerMr := by
  rcases Nat.eq_zero_or_pos dev.maxPagesPerMr with he | he
  · simp [SrpDevice.mrMaxSize, he] at hmax
    omega
  · exact he

theorem srpMapPageStart_few {dev : SrpDevice} {registerAlways : Bool} (ops : MrOps σ D)
    {k o : ℕ} {sg : Sg} {st : MapState D} (ch : σ) (hfmr : dev.useFastReg = false)
    (hmax : sg.dmaLen ≤ dev.mrMaxSize) (ho : o < sg.dmaLen)
    (haligned : (sg.dmaAddress+o) % dev.mrPageSize = 0)
    (h : Collected dev registerAlways k o st) :
    let r := srpMapPageStart dev registerAlways ops sg k ((sg.dmaAddress+o) % 2^64) st ch
    Pending dev registerAlways k r.state ∧
      (r.ok = true → Collected dev registerAlways k o r.state ∧
        r.state.npages < dev.maxPagesPerMr) := by
  simp only [srpMapPageStart, pageOffset_add, haligned, ne_eq, not_true, or_false]
  by_cases hfull : st.npages = dev.maxPagesPerMr
  · rw [if_pos hfull]
    rcases srpFinishMapping_few ops ch h.pending.tame (fun _ => hfmr) with
      ⟨hok, hfin⟩ | ⟨hok, hst, _⟩
    · have hlt : st.unmappedIndex < k := by
        apply lt_of_le_of_ne h.pending.index_le
        intro hindex
        have hown := h.own hindex
        rw [hfull, Nat.mul_comm] at hown
        unfold SrpDevice.mrMaxSize at hmax
        omega
      have hle : st.ndesc+(if st.pages = [] then 0 else 1) ≤ k := by
        have := h.pending.ndesc_le
        split_ifs <;> omega
      have hstart := hfin.restart sg ((sg.dmaAddress+o) % 2^64) hle
      have hz : (srpMapUpdateStart (srpFinishMapping dev registerAlways ops st ch).state
          (some sg) k ((sg.dmaAddress+o) % 2^64)).npages = 0 := by
        simp [MapState.npages, srpMapUpdateStart, hfin.pages]
      rw [if_pos hok]
      refine ⟨hstart, fun _ => ⟨⟨hstart, fun _ => ?_⟩, ?_⟩⟩
      · rw [hz, Nat.zero_mul]
        exact Nat.zero_le o
      · rw [hz]
        exact maxPagesPerMr_pos (by omega) hmax
    · rw [if_neg (by simp [hok]), hok, hst]
      exact ⟨h.pending, fun hf => by cases hf⟩
  · rw [if_neg hfull]
    exact ⟨h.pending, fun _ => ⟨h, lt_of_le_of_ne h.pending.tame.npages_le hfull⟩⟩

theorem srpMapPage_few {dev : SrpDevice} {registerAlways : Bool} {k o l a : ℕ}
    {st : MapState D} (h : Collected dev registerAlways k o st)
    (hroom : st.npages < dev.maxPagesPerMr) :
    Pending dev registerAlways k (srpMapPage dev st a l) ∧
      (l = dev.mrPageSize → Collected dev registerAlways k (o+l) (srpMapPage dev st a l)) := by
  have hn : (srpMapPage dev st a l).npages = st.npages+1 := by
    simp [srpMapPage, MapState.npages]
  have hp : Pending dev registerAlways k (srpMapPage dev st a l) := by
    refine ⟨⟨h.pending.tame.nmdesc_le, ?_, h.pending.tame.unregistered⟩, h.pending.started,
      h.pending.ndesc_le, h.pending.index_le⟩
    rw [hn]
    exact hroom
  refine ⟨hp, fun hl => ⟨hp, fun hindex => ?_⟩⟩
  have hown := h.own hindex
  rw [hn, Nat.add_mul, Nat.one_mul, hl]
  omega

theorem srpMapPages_few {dev : SrpDevice} {registerAlways : Bool} (ops : MrOps σ D) {k : ℕ}
    {sg : Sg} (hfmr : dev.useFastReg = false) (hmax : sg.dmaLen ≤ dev.mrMaxSize) (fuel : ℕ) :
    ∀ (o len : ℕ) (st : MapState D) (ch : σ), sg.dmaLen-o ≤ fuel → o ≤ sg.dmaLen →
      Pending dev registerAlways k st →
      (o < sg.dmaLen → (sg.dmaAddress+o) % dev.mrPageSize = 0 ∧
        Collected dev registerAlways k o st) →
      (o = sg.dmaLen → st.pages ≠ []) →
      let r := srpMapPages dev registerAlways ops sg k fuel ((sg.dmaAddress+o) % 2^64)
        (sg.dmaLen-o) len st ch
      Pending dev registerAlways k r.1.state ∧ (r.1.ok = true → r.1.state.pages ≠ []) := by
  induction fuel with
  | zero =>
      intro o len st ch hfuel ho h _ hlast
      exact ⟨h, fun _ => hlast (by omega)⟩
  | succ fuel ih =>
      intro o len st ch hfuel ho h hnext hlast
      by_cases he : o = sg.dmaLen
      · simp only [srpMapPages, if_pos (by omega : sg.dmaLen-o = 0)]
        exact ⟨h, fun _ => hlast he⟩
      · have hol : o < sg.dmaLen := by omega
        obtain ⟨haligned, hcol⟩ := hnext hol
        have hps := dev.mrPageSize_pos
        obtain ⟨hstart, hready⟩ := srpMapPageStart_few ops ch hfmr hmax hol haligned hcol
        simp only [srpMapPages, if_neg (by omega : ¬ sg.dmaLen-o = 0)]
        by_cases hok : (srpMapPageStart dev registerAlways ops sg k
            ((sg.dmaAddress+o) % 2^64) st ch).ok = true
        · obtain ⟨hcol', hroom⟩ := hready hok
          rw [if_pos hok, pageOffset_add, haligned, Nat.sub_zero]
          set l := min (sg.dmaLen-o) dev.mrPageSize with hl
          have haddr : ((sg.dmaAddress+o) % 2^64+l) % 2^64 = (sg.dmaAddress+(o+l)) % 2^64 := by
            rw [Nat.mod_add_mod, Nat.add_assoc]
          obtain ⟨hp, hc⟩ := srpMapPage_few (a := (sg.dmaAddress+o) % 2^64) (l := l) hcol' hroom
          rw [haddr, Nat.sub_sub]
          apply ih (o+l) l _ _ (by omega) (by omega) hp
          · intro hmore
            have hlps : l = dev.mrPageSize := by omega
            refine ⟨?_, hc hlps⟩
            rw [← Nat.add_assoc, hlps, Nat.add_mod_right, haligned]
          · intro _
            simp [srpMapPage]
        · rw [if_neg hok]
          exact ⟨hstart, fun hf => (hok hf).elim⟩

theorem Few.enter {dev : SrpDevice} {registerAlways : Bool} {k : ℕ} {st : MapState D} (sg : Sg)
    (h : Few dev registerAlways k st) :
    Collected dev registerAlways k 0
      (if st.unmappedSg = none then srpMapUpdateStart st (some sg) k sg.dmaAddress else st) := by
  by_cases hp : st.pages = []
  · obtain ⟨hnone, hle⟩ := h.idle hp
    rw [if_pos hnone]
    refine ⟨⟨h.tame.updateStart _ _ _, by simp [srpMapUpdateStart], hle, le_rfl⟩, fun _ => ?_⟩
    simp [MapState.npages, srpMapUpdateStart, hp]
  · obtain ⟨j, hj, hpend⟩ := h.pending hp
    have hle := hpend.index_le
    rw [if_neg hpend.started]
    refine ⟨⟨h.tame, hpend.started, hpend.ndesc_le, by omega⟩, fun hindex => ?_⟩
    omega

theorem Few.ndesc_closed {dev : SrpDevice} {registerAlways : Bool} {k : ℕ} {st : MapState D}
    (h : Few dev registerAlways k st) : st.ndesc+(if st.pages = [] then 0 else 1) ≤ k := by
  by_cases hp : st.pages = []
  · rw [if_pos hp]
    exact (h.idle hp).2
  · obtain ⟨j, hj, hpend⟩ := h.pending hp
    have hle := hpend.ndesc_le
    have hij := hpend.index_le
    rw [if_neg hp]
    omega

theorem Few.skip {dev : SrpDevice} {registerAlways : Bool} {k : ℕ} {st : MapState D}
    (h : Few dev registerAlways k st) : Few dev registerAlways (k+1) st := by
  constructor
  · exact h.tame
  · intro hp
    have hidle := h.idle hp
    exact ⟨hidle.1, Nat.le_succ_of_le hidle.2⟩
  · intro hp
    obtain ⟨j, hj, hpend⟩ := h.pending hp
    exact ⟨j, Nat.lt_succ_of_lt hj, hpend⟩

theorem Few.still_pending {dev : SrpDevice} {registerAlways : Bool} {k : ℕ} {st : MapState D}
    (h : Few dev registerAlways k st) (hp : st.pages ≠ []) : Pending dev registerAlways k st := by
  obtain ⟨j, hj, hpend⟩ := h.pending hp
  have hij := hpend.index_le
  exact ⟨hpend.tame, hpend.started, hpend.ndesc_le, by omega⟩

theorem Few.direct {dev : SrpDevice} {registerAlways : Bool} {k : ℕ} {st : MapState D}
    {r : Mapped σ D} (h : Few dev registerAlways k st) (hfin : Finished dev registerAlways st r)
    (a l : ℕ) :
    Few dev registerAlways (k+1)
      (srpMapUpdateStart (srpMapDesc r.state a l .target) none 0 0) := by
  have hn := hfin.ndesc
  have hle := h.ndesc_closed
  constructor
  · exact (hfin.tame.srpMapDesc _ _).updateStart _ _ _
  · intro _
    refine ⟨rfl, ?_⟩
    change (srpMapDesc r.state a l .target).ndesc ≤ k+1
    rw [ndesc_srpMapDesc]
    omega
  · intro hp
    exact (hp hfin.pages).elim

/-- One entry: at most one descriptor more, or a region that cannot be registered. -/
theorem srpMapSgEntry_few {dev : SrpDevice} {registerAlways : Bool} (ops : MrOps σ D) {k : ℕ}
    {sg : Sg} {st : MapState D} (ch : σ)
    (hfmr : dev.useFastReg = false ∨ dev.maxPagesPerMr = 0)
    (h : Few dev registerAlways k st) :
    let r := srpMapSgEntry dev registerAlways ops true sg k st ch
    r.ok = true ∧ Few dev registerAlways (k+1) r.state ∨
      r.ok = false ∧ Pending dev registerAlways k r.state := by
  have hslow : st.pages ≠ [] → dev.useFastReg = false := by
    intro hp
    have hpos : 0 < st.npages := List.length_pos_iff.mpr hp
    have hle := h.tame.npages_le
    exact hfmr.resolve_right (by omega)
  unfold srpMapSgEntry
  by_cases hz : sg.dmaLen = 0
  · rw [if_pos hz]
    exact Or.inl ⟨rfl, h.skip⟩
  rw [if_neg hz, if_neg (by decide : ¬ true = false)]
  by_cases hd : (dev.useFastReg = false ∧ dev.pageOffset sg.dmaAddress ≠ 0) ∨
      dev.mrMaxSize < sg.dmaLen
  · simp only [if_pos hd]
    rcases srpFinishMapping_few ops ch h.tame hslow with ⟨hok, hfin⟩ | ⟨hok, hst, hp⟩
    · rw [if_pos hok]
      exact Or.inl ⟨rfl, h.direct hfin _ _⟩
    · rw [if_neg (by simp [hok]), hst]
      exact Or.inr ⟨hok, h.still_pending hp⟩
  · simp only [if_neg hd]
    obtain ⟨hal, hmx⟩ := not_or.mp hd
    have hpos := maxPagesPerMr_pos (Nat.pos_of_ne_zero hz) (not_lt.mp hmx)
    have hfmr : dev.useFastReg = false := hfmr.resolve_right (by omega)
    have hin := h.enter sg
    generalize (if st.unmappedSg = none then
        srpMapUpdateStart st (some sg) k sg.dmaAddress else st) = st₁ at hin ⊢
    have haligned : (sg.dmaAddress+0) % dev.mrPageSize = 0 := by
      by_contra hne
      exact hal ⟨hfmr, by rwa [dev.pageOffset_eq]⟩
    have haddr : (sg.dmaAddress+0) % 2^64 = sg.dmaAddress := Nat.mod_eq_of_lt sg.address_lt
    have hloop := srpMapPages_few ops hfmr (not_lt.mp hmx) sg.dmaLen 0 0 st₁ ch (by omega)
      (Nat.zero_le _) hin.pending (fun _ => ⟨haligned, hin⟩) (fun he => (hz he.symm).elim)
    simp only [haddr, Nat.sub_zero] at hloop
    generalize srpMapPages dev registerAlways ops sg k sg.dmaLen sg.dmaAddress sg.dmaLen 0 st₁
      ch = p at hloop ⊢
    obtain ⟨r₁, len⟩ := p
    obtain ⟨hpend, hpages⟩ := hloop
    simp only at hpend hpages ⊢
    by_cases hok : r₁.ok = true
    · have hp := hpages hok
      have hle := hpend.ndesc_le
      have hij := hpend.index_le
      rw [if_pos hok]
      by_cases hlen : len = dev.mrPageSize
      · rw [if_neg (not_not.mpr hlen)]
        exact Or.inl ⟨hok, hpend.tame, fun he => (hp he).elim,
          fun _ => ⟨k, Nat.lt_succ_self k, hpend⟩⟩
      · rw [if_pos hlen]
        rcases srpFinishMapping_few ops r₁.ch hpend.tame (fun _ => hfmr) with
          ⟨hok', hfin⟩ | ⟨hok', hst, _⟩
        · rw [if_pos hok']
          refine Or.inl ⟨rfl, hfin.stop ?_⟩
          rw [if_neg hp]
          omega
        · rw [if_neg (by simp [hok']), hst]
          exact Or.inr ⟨hok', hpend⟩
    · rw [if_neg hok]
      exact Or.inr ⟨Bool.eq_false_iff.mpr hok, hpend⟩

theorem forEachSg_few {dev : SrpDevice} {registerAlways : Bool} (ops : MrOps σ D)
    (hfmr : dev.useFastReg = false ∨ dev.maxPagesPerMr = 0) (scat : List Sg) :
    ∀ (k : ℕ) (st : MapState D) (ch : σ), Few dev registerAlways k st →
      let r := forEachSg dev registerAlways ops true scat k st ch
      r.ok = true ∧ Few dev registerAlways (k+scat.length) r.state ∨
        r.ok = false ∧ ∃ j < k+scat.length, Pending dev registerAlways j r.state := by
  induction scat with
  | nil =>
      intro k st ch h
      exact Or.inl ⟨rfl, h⟩
  | cons sg scat ih =>
      intro k st ch h
      simp only [forEachSg, List.length_cons]
      rcases srpMapSgEntry_few ops ch hfmr h with ⟨hok, hfew⟩ | ⟨hok, hpend⟩
      · rw [if_pos hok]
        have := ih (k+1) _ (srpMapSgEntry dev registerAlways ops true sg k st ch).ch hfew
        rwa [Nat.add_assoc, Nat.add_comm 1] at this
      · rw [if_neg (by simp [hok])]
        exact Or.inr ⟨hok, k, by omega, hpend⟩

/-- Without registration there is one descriptor for each entry that is not empty. -/
theorem forEachSg_direct_count (dev : SrpDevice) (registerAlways : Bool) (ops : MrOps σ D)
    (scat : List Sg) : ∀ (i : ℕ) (st : MapState D) (ch : σ),
      (forEachSg dev registerAlways ops false scat i st ch).state.ndesc =
        st.ndesc+scat.countP (fun sg => sg.dmaLen ≠ 0) := by
  induction scat with
  | nil =>
      intro i st ch
      rfl
  | cons sg scat ih =>
      intro i st ch
      simp only [forEachSg]
      by_cases hz : sg.dmaLen = 0
      · have he : srpMapSgEntry dev registerAlways ops false sg i st ch = ⟨true, st, ch⟩ := by
          simp [srpMapSgEntry, hz]
        rw [he, List.countP_cons_of_neg (by simp [hz])]
        exact ih (i+1) st ch
      · have he : srpMapSgEntry dev registerAlways ops false sg i st ch =
            ⟨true, srpMapDesc st sg.dmaAddress sg.dmaLen .target, ch⟩ := by
          simp [srpMapSgEntry, hz]
        have hrest := ih (i+1) (srpMapDesc st sg.dmaAddress sg.dmaLen .target) ch
        rw [ndesc_srpMapDesc] at hrest
        rw [he, List.countP_cons_of_pos (by simp [hz])]
        simp only [if_true]
        omega

theorem forEachSg_direct_ndesc (dev : SrpDevice) (registerAlways : Bool) (ops : MrOps σ D)
    (scat : List Sg) (i : ℕ) (st : MapState D) (ch : σ) :
    let r := forEachSg dev registerAlways ops false scat i st ch
    st.ndesc ≤ r.state.ndesc ∧ r.state.ndesc ≤ st.ndesc+scat.length ∧
      ((∀ sg ∈ scat, sg.dmaLen ≠ 0) → r.state.ndesc = st.ndesc+scat.length) := by
  have hcount := forEachSg_direct_count dev registerAlways ops scat i st ch
  simp only [hcount]
  refine ⟨Nat.le_add_right _ _, Nat.add_le_add_left List.countP_le_length _, fun hne => ?_⟩
  rw [List.countP_eq_length.mpr (by simpa using hne)]

structure Bounded (dev : SrpDevice) (registerAlways : Bool) (n : ℕ) (st : MapState D) : Prop where
  nmdesc_le : st.nmdesc ≤ st.ndesc
  ndesc_le : st.ndesc ≤ n
  unregistered : NeverRegisters dev registerAlways → st.nmdesc = 0

theorem srpMapBacktrack_bounded {dev : SrpDevice} {registerAlways : Bool} (ops : MrOps σ D)
    {scat : List Sg} {st : MapState D} (ch : σ) {j : ℕ} (hj : j < scat.length)
    (h : Pending dev registerAlways j st) :
    ∃ p, srpMapBacktrack dev registerAlways ops scat st ch = some p ∧
      Bounded dev registerAlways scat.length p.1 := by
  obtain ⟨sg, hsg⟩ := Option.ne_none_iff_exists'.mp h.started
  have hle := h.ndesc_le
  have hij := h.index_le
  have hmd := h.tame.nmdesc_le
  simp only [srpMapBacktrack, hsg]
  refine ⟨_, rfl, ?_⟩
  generalize (sg.dmaLen+2^32-(st.unmappedAddr+2^64-sg.dmaAddress) % 2^64 % 2^32) % 2^32 = l
  obtain ⟨h₁, h₂, _⟩ := forEachSg_direct_ndesc dev registerAlways ops
    (scat.drop (st.unmappedIndex+1)) (st.unmappedIndex+1)
    (srpMapDesc st st.unmappedAddr l .target) ch
  obtain ⟨_, _, hmr, _⟩ := forEachSg_direct dev registerAlways ops
    (scat.drop (st.unmappedIndex+1)) (st.unmappedIndex+1)
    (srpMapDesc st st.unmappedAddr l .target) ch
  have hn := ndesc_srpMapDesc st st.unmappedAddr l .target
  have hm : (forEachSg dev registerAlways ops false (scat.drop (st.unmappedIndex+1))
      (st.unmappedIndex+1) (srpMapDesc st st.unmappedAddr l .target) ch).state.nmdesc =
      st.nmdesc := by
    rw [MapState.nmdesc, hmr]
    rfl
  rw [List.length_drop] at h₂
  constructor
  · rw [hm]
    simp only
    omega
  · simp only
    omega
  · intro hnever
    rw [hm]
    exact h.tame.unregistered hnever

/-- Without fast registration a mapping stores at most one descriptor for each
entry, whatever the outcomes of the registration attempts. -/
theorem srpMapSg_bounded {dev : SrpDevice} (registerAlways : Bool) (ops : MrOps σ D)
    (hfmr : dev.useFastReg = false ∨ dev.maxPagesPerMr = 0) (scat : List Sg) (ch : σ) :
    ∃ p, srpMapSg dev registerAlways true ops scat ch = some p ∧
      Bounded dev registerAlways scat.length p.1 := by
  have hinit : Few dev registerAlways 0 ({} : MapState D) :=
    ⟨⟨le_rfl, Nat.zero_le _, fun _ => rfl⟩, fun _ => ⟨rfl, le_rfl⟩, fun hp => (hp rfl).elim⟩
  have hloop := forEachSg_few ops hfmr scat 0 {} ch hinit
  simp only [Nat.zero_add] at hloop
  simp only [srpMapSg]
  rcases hloop with ⟨hok, hfew⟩ | ⟨hok, j, hj, hpend⟩
  · have hslow : (forEachSg dev registerAlways ops true scat 0 {} ch).state.pages ≠ [] →
        dev.useFastReg = false := by
      intro hp
      have hpos : 0 < (forEachSg dev registerAlways ops true scat 0 {} ch).state.npages :=
        List.length_pos_iff.mpr hp
      have hle := hfew.tame.npages_le
      exact hfmr.resolve_right (by omega)
    rw [if_pos hok, if_pos trivial]
    rcases srpFinishMapping_few ops (forEachSg dev registerAlways ops true scat 0 {} ch).ch
      hfew.tame hslow with ⟨hok', hfin⟩ | ⟨hok', hst, hp⟩
    · rw [if_pos hok']
      refine ⟨_, rfl, hfin.tame.nmdesc_le, ?_, hfin.tame.unregistered⟩
      rw [hfin.ndesc]
      exact hfew.ndesc_closed
    · obtain ⟨j, hj, hpend⟩ := hfew.pending hp
      rw [if_neg (by simp [hok']), hst]
      exact srpMapBacktrack_bounded ops _ hj hpend
  · rw [if_neg (by simp [hok])]
    exact srpMapBacktrack_bounded ops _ hj hpend

theorem srpMapSg_direct_ndesc {dev : SrpDevice} {registerAlways : Bool} {ops : MrOps σ D}
    {scat : List Sg} {ch : σ} {p : MapState D × σ}
    (h : srpMapSg dev registerAlways false ops scat ch = some p) :
    p.1.ndesc = scat.countP (fun sg => sg.dmaLen ≠ 0) := by
  have hok := (forEachSg_direct dev registerAlways ops scat 0 {} ch).1
  simp only [srpMapSg, hok, if_true, Bool.false_eq_true, if_false] at h
  cases h
  have hcount := forEachSg_direct_count dev registerAlways ops scat 0 {} ch
  rwa [show ({} : MapState D).ndesc = 0 from rfl, Nat.zero_add] at hcount

theorem srpMapSg_bounded_without_pool (dev : SrpDevice) (registerAlways : Bool)
    (ops : MrOps σ D) (scat : List Sg) (ch : σ) :
    ∃ p, srpMapSg dev registerAlways false ops scat ch = some p ∧
      p.1.nmdesc = 0 ∧ p.1.ndesc ≤ scat.length := by
  obtain ⟨hok, _, hmr, _⟩ := forEachSg_direct dev registerAlways ops scat 0 {} ch
  obtain ⟨_, hle, _⟩ := forEachSg_direct_ndesc dev registerAlways ops scat 0 {} ch
  refine ⟨_, by simp only [srpMapSg, hok, if_true]; rfl, ?_, ?_⟩
  · simp only [MapState.nmdesc, hmr, List.length_nil]
  · simpa [MapState.ndesc] using hle

end

end IbSrp.MappingBounds

import IbSrp.MappingBounds
import IbSrp.TargetLimits

/-!
# Which targets have room for every mapping

A request has room for `cmd_sg_cnt` memory descriptors and for `indirect_size`
bytes of buffer descriptors, and a scatter/gather list has at most
`sg_tablesize` entries. This is enough for every list and every outcome of the
registration attempts exactly when `indirect_size` does not wrap around and one
of the following holds: there is no pool, no page fits in a region, or the pool
is an FMR pool and no more memory descriptors can be needed than `cmd_sg_cnt`.

A fast-registration target never has enough room. An entry that starts inside a
page can take two regions, and an entry whose registration cannot be posted is
described twice; both exceed a list in which every other entry takes one
descriptor.
-/
namespace IbSrp.MappingOverrun
open MemoryRegistration MappingCoverage MappingResults MappingBounds TargetLimits

def allRegistered : ℕ → Outcome := fun _ => .registered

section
variable {D : Type}

structure Idle (st : MapState D) : Prop where
  pages : st.pages = []
  unmapped : st.unmappedSg = none

/-- A region is always closed with one descriptor if every attempt succeeds. -/
theorem srpFinishMapping_allRegistered (dev : SrpDevice) (registerAlways : Bool)
    (st : MapState ℕ) (n : ℕ) (hp : st.pages ≠ []) :
    let r := srpFinishMapping dev registerAlways (scripted allRegistered) st n
    r.ok = true ∧ r.state.pages = [] ∧ r.state.ndesc = st.ndesc+1 ∧
      r.state.nmdesc = st.nmdesc+(if st.npages = 1 ∧ registerAlways = false then 0 else 1) := by
  intro r
  have hf := srpFinishMapping_finish dev registerAlways (scripted allRegistered) st n
  change Finish dev registerAlways (scripted allRegistered) st n r at hf
  generalize r = r at hf ⊢
  cases hf with
  | empty he => exact (hp he).elim
  | direct hone hra =>
      rw [if_pos ⟨hone, hra⟩]
      exact ⟨rfl, rfl, ndesc_closeRegion st _ none, nmdesc_closeRegion st _ none⟩
  | registered hr _ =>
      rw [if_neg fun h => by simp [hr.2 h.1] at h]
      exact ⟨rfl, rfl, ndesc_closeRegion st _ _, nmdesc_closeRegion st _ _⟩
  | unavailable _ ha => exact ((attempt_scripted_unavailable ha).1 rfl).elim
  | postFailed _ _ ha =>
      have := (attempt_scripted_postFailed ha).1
      cases this

theorem srpMapPages_done {σ : Type} (dev : SrpDevice) (registerAlways : Bool) (ops : MrOps σ D)
    (sg : Sg) (i fuel a len : ℕ) (st : MapState D) (ch : σ) :
    srpMapPages dev registerAlways ops sg i fuel a 0 len st ch = (⟨true, st, ch⟩, len) := by
  cases fuel <;> simp [srpMapPages]

theorem srpFinishMapping_empty {σ : Type} (dev : SrpDevice) (registerAlways : Bool)
    (ops : MrOps σ D) {st : MapState D} (ch : σ) (hp : st.pages = []) :
    srpFinishMapping dev registerAlways ops st ch = ⟨true, st, ch⟩ := by
  simp [srpFinishMapping, MapState.npages, hp]

/-- The head of the page loop does nothing when a region has just been started here. -/
theorem srpMapPageStart_fresh {σ : Type} (dev : SrpDevice) (registerAlways : Bool)
    (ops : MrOps σ D) (sg : Sg) (i a : ℕ) {st : MapState D} (ch : σ) (hp : st.pages = []) :
    srpMapPageStart dev registerAlways ops sg i a (srpMapUpdateStart st (some sg) i a) ch =
      ⟨true, srpMapUpdateStart st (some sg) i a, ch⟩ := by
  have hp' : (srpMapUpdateStart st (some sg) i a).pages = [] := hp
  unfold srpMapPageStart
  rw [srpFinishMapping_empty dev registerAlways ops ch hp']
  split_ifs <;> rfl

/-- The head of the page loop does nothing on a page boundary while there is room. -/
theorem srpMapPageStart_room {σ : Type} (dev : SrpDevice) (registerAlways : Bool)
    (ops : MrOps σ D) (sg : Sg) (i : ℕ) {a : ℕ} {st : MapState D} (ch : σ)
    (hroom : st.npages ≠ dev.maxPagesPerMr) (ha : dev.pageOffset a = 0) :
    srpMapPageStart dev registerAlways ops sg i a st ch = ⟨true, st, ch⟩ := by
  simp [srpMapPageStart, hroom, ha]

theorem srpMapPages_round {σ : Type} {dev : SrpDevice} {registerAlways : Bool} {ops : MrOps σ D}
    {sg : Sg} {i a : ℕ} {st st' : MapState D} {ch ch' : σ} (fuel len : ℕ) {l c : ℕ} (hl : 0 < l)
    (hc : min l (dev.mrPageSize-dev.pageOffset a) = c)
    (hstart : srpMapPageStart dev registerAlways ops sg i a st ch = ⟨true, st', ch'⟩) :
    srpMapPages dev registerAlways ops sg i (fuel+1) a l len st ch =
      srpMapPages dev registerAlways ops sg i fuel ((a+c) % 2^64) (l-c) c
        (srpMapPage dev st' a c) ch' := by
  simp [srpMapPages, hl.ne', hstart, hc]

/-- An entry that goes through the page loop, with nothing pending before it. -/
theorem srpMapSgEntry_pages {σ : Type} {dev : SrpDevice} {registerAlways : Bool}
    {ops : MrOps σ D} {sg : Sg} {i len : ℕ} {st : MapState D} {ch : σ} {r : Mapped σ D}
    (hz : sg.dmaLen ≠ 0) (hfast : dev.useFastReg = true ∨ dev.pageOffset sg.dmaAddress = 0)
    (hmax : sg.dmaLen ≤ dev.mrMaxSize) (hidle : Idle st)
    (hpages : srpMapPages dev registerAlways ops sg i sg.dmaLen sg.dmaAddress sg.dmaLen 0
      (srpMapUpdateStart st (some sg) i sg.dmaAddress) ch = (r, len))
    (hok : r.ok = true) (hlen : len ≠ dev.mrPageSize) :
    srpMapSgEntry dev registerAlways ops true sg i st ch =
      (let r := srpFinishMapping dev registerAlways ops r.state r.ch
       if r.ok then ⟨true, srpMapUpdateStart r.state none 0 0, r.ch⟩ else r) := by
  have hd : ¬ ((dev.useFastReg = false ∧ dev.pageOffset sg.dmaAddress ≠ 0) ∨
      dev.mrMaxSize < sg.dmaLen) := by
    rintro (⟨hs, hne⟩ | hlt)
    · rcases hfast with hf | ha
      · rw [hf] at hs
        cases hs
      · exact hne ha
    · omega
  unfold srpMapSgEntry
  rw [if_neg hz, if_neg (by decide : ¬ true = false), if_neg hd]
  simp only [if_pos hidle.unmapped, hpages, hok, if_true, if_pos hlen]

theorem srpMapPages_one {σ : Type} {dev : SrpDevice} (registerAlways : Bool) (ops : MrOps σ D)
    {sg : Sg} (i : ℕ) {st : MapState D} (ch : σ) (hp : st.pages = []) (hz : sg.dmaLen ≠ 0)
    (hfit : dev.pageOffset sg.dmaAddress+sg.dmaLen ≤ dev.mrPageSize) :
    srpMapPages dev registerAlways ops sg i sg.dmaLen sg.dmaAddress sg.dmaLen 0
        (srpMapUpdateStart st (some sg) i sg.dmaAddress) ch =
      (⟨true, srpMapPage dev (srpMapUpdateStart st (some sg) i sg.dmaAddress) sg.dmaAddress
        sg.dmaLen, ch⟩, sg.dmaLen) := by
  obtain ⟨fuel, hfuel⟩ := Nat.exists_eq_succ_of_ne_zero hz
  have hc : min sg.dmaLen (dev.mrPageSize-dev.pageOffset sg.dmaAddress) = sg.dmaLen := by omega
  have hround := srpMapPages_round fuel 0 (Nat.pos_of_ne_zero hz) hc
    (srpMapPageStart_fresh dev registerAlways ops sg i sg.dmaAddress ch hp)
  rw [Nat.sub_self, srpMapPages_done] at hround
  rw [← hround, ← Nat.succ_eq_add_one, ← hfuel]

theorem srpMapPages_two {σ : Type} {dev : SrpDevice} (registerAlways : Bool) (ops : MrOps σ D)
    {sg : Sg} (i : ℕ) {st : MapState D} (ch : σ) {c : ℕ} (hmax : 2 ≤ dev.maxPagesPerMr)
    (hp : st.pages = []) (hc : dev.pageOffset sg.dmaAddress+c = dev.mrPageSize)
    (hlt : c < sg.dmaLen) (hle : sg.dmaLen ≤ c+dev.mrPageSize)
    (haddr : sg.dmaAddress+c < 2^64) :
    srpMapPages dev registerAlways ops sg i sg.dmaLen sg.dmaAddress sg.dmaLen 0
        (srpMapUpdateStart st (some sg) i sg.dmaAddress) ch =
      (⟨true, srpMapPage dev (srpMapPage dev (srpMapUpdateStart st (some sg) i sg.dmaAddress)
        sg.dmaAddress c) (sg.dmaAddress+c) (sg.dmaLen-c), ch⟩, sg.dmaLen-c) := by
  have hoff := dev.pageOffset_lt sg.dmaAddress
  have hnext : dev.pageOffset (sg.dmaAddress+c) = 0 := by
    rw [dev.pageOffset_eq] at hc ⊢
    rw [Nat.add_mod, Nat.add_mod_mod, hc, Nat.mod_self]
  obtain ⟨fuel, hfuel⟩ : ∃ fuel, sg.dmaLen = fuel+2 := ⟨sg.dmaLen-2, by omega⟩
  have hone : (srpMapPage dev (srpMapUpdateStart st (some sg) i sg.dmaAddress)
      sg.dmaAddress c).npages = 1 := by
    simp [srpMapPage, srpMapUpdateStart, MapState.npages, hp]
  have hroom : (srpMapPage dev (srpMapUpdateStart st (some sg) i sg.dmaAddress)
      sg.dmaAddress c).npages ≠ dev.maxPagesPerMr := by omega
  have hc₁ : min sg.dmaLen (dev.mrPageSize-dev.pageOffset sg.dmaAddress) = c := by omega
  have hc₂ : min (sg.dmaLen-c) (dev.mrPageSize-dev.pageOffset (sg.dmaAddress+c)) =
      sg.dmaLen-c := by omega
  have h₁ := srpMapPages_round (fuel+1) 0 (by omega : 0 < sg.dmaLen) hc₁
    (srpMapPageStart_fresh dev registerAlways ops sg i sg.dmaAddress ch hp)
  have h₂ := srpMapPages_round fuel c (by omega : 0 < sg.dmaLen-c) hc₂
    (srpMapPageStart_room dev registerAlways ops sg i ch hroom hnext)
  rw [Nat.sub_self, srpMapPages_done] at h₂
  rw [Nat.mod_eq_of_lt haddr, h₂, Nat.add_assoc, ← hfuel] at h₁
  exact h₁

end

/-- With nothing pending, the entry adds `a` descriptors and `b` memory descriptors
if every attempt succeeds. -/
def Adds (dev : SrpDevice) (registerAlways useMr : Bool) (sg : Sg) (a b : ℕ) : Prop :=
  ∀ (i n : ℕ) (st : MapState ℕ), Idle st →
    let r := srpMapSgEntry dev registerAlways (scripted allRegistered) useMr sg i st n
    r.ok = true ∧ Idle r.state ∧ r.state.ndesc = st.ndesc+a ∧ st.nmdesc+b ≤ r.state.nmdesc

/-- An entry that ends up as one open region adds one descriptor. -/
theorem adds_of_pages {dev : SrpDevice} {registerAlways : Bool} {sg : Sg} {b : ℕ}
    (hz : sg.dmaLen ≠ 0) (hfast : dev.useFastReg = true ∨ dev.pageOffset sg.dmaAddress = 0)
    (hmax : sg.dmaLen ≤ dev.mrMaxSize)
    (hpages : ∀ (i n : ℕ) (st : MapState ℕ), Idle st → ∃ st' len,
      srpMapPages dev registerAlways (scripted allRegistered) sg i sg.dmaLen sg.dmaAddress
        sg.dmaLen 0 (srpMapUpdateStart st (some sg) i sg.dmaAddress) n = (⟨true, st', n⟩, len) ∧
      len ≠ dev.mrPageSize ∧ st'.pages ≠ [] ∧ st'.ndesc = st.ndesc ∧ st'.nmdesc = st.nmdesc ∧
      b ≤ (if st'.npages = 1 ∧ registerAlways = false then 0 else 1)) :
    Adds dev registerAlways true sg 1 b := by
  intro i n st hidle
  obtain ⟨st', len, he, hlen, hp, hnd, hnm, hb⟩ := hpages i n st hidle
  obtain ⟨hok, hpages', hndesc, hnmdesc⟩ :=
    srpFinishMapping_allRegistered dev registerAlways st' n hp
  rw [srpMapSgEntry_pages hz hfast hmax hidle he rfl hlen]
  simp only [hok, if_true]
  refine ⟨trivial, ⟨hpages', rfl⟩, ?_, ?_⟩
  · change (srpFinishMapping dev registerAlways (scripted allRegistered) st' n).state.ndesc = _
    rw [hndesc, hnd]
  · change _ ≤ (srpFinishMapping dev registerAlways (scripted allRegistered) st' n).state.nmdesc
    rw [hnmdesc, hnm]
    exact Nat.add_le_add_left hb _

theorem adds_one_page {dev : SrpDevice} {registerAlways : Bool} {sg : Sg} {b : ℕ}
    (hz : sg.dmaLen ≠ 0) (hfast : dev.useFastReg = true ∨ dev.pageOffset sg.dmaAddress = 0)
    (hmax : sg.dmaLen ≤ dev.mrMaxSize)
    (hfit : dev.pageOffset sg.dmaAddress+sg.dmaLen ≤ dev.mrPageSize)
    (hlt : sg.dmaLen < dev.mrPageSize) (hb : b ≤ if registerAlways = false then 0 else 1) :
    Adds dev registerAlways true sg 1 b := by
  apply adds_of_pages hz hfast hmax
  intro i n st hidle
  refine ⟨_, _, srpMapPages_one registerAlways _ i n hidle.pages hz hfit, hlt.ne, ?_, rfl, rfl, ?_⟩
  · simp [srpMapPage]
  · simpa [srpMapPage, srpMapUpdateStart, MapState.npages, hidle.pages] using hb

theorem adds_two_pages {dev : SrpDevice} (registerAlways : Bool) {sg : Sg}
    (hmax : 2 ≤ dev.maxPagesPerMr) (ha : sg.dmaAddress = 0) (hl : sg.dmaLen = dev.mrPageSize+1) :
    Adds dev registerAlways true sg 1 1 := by
  have hps := dev.mrPageSize_ge
  have hps' := dev.mrPageSize_le
  have hoff : dev.pageOffset sg.dmaAddress = 0 := by rw [dev.pageOffset_eq, ha, Nat.zero_mod]
  have hle : sg.dmaLen ≤ dev.mrMaxSize := by
    have := Nat.mul_le_mul_left dev.mrPageSize hmax
    unfold SrpDevice.mrMaxSize
    omega
  apply adds_of_pages (by omega) (Or.inr hoff) hle
  intro i n st hidle
  refine ⟨_, _, srpMapPages_two registerAlways _ i n hmax hidle.pages (by omega)
    (by omega : dev.mrPageSize < _) (by omega) (by omega), by omega, ?_, rfl, rfl, ?_⟩
  · simp [srpMapPage]
  · simp [srpMapPage, srpMapUpdateStart, MapState.npages, hidle.pages]

/-- An entry of one byte that does not start a page. -/
def tiny : Sg := { dmaAddress := 1, dmaLen := 1 }

theorem adds_tiny (dev : SrpDevice) (registerAlways : Bool) :
    Adds dev registerAlways true tiny 1 0 := by
  have hps := dev.mrPageSize_ge
  have hoff : dev.pageOffset tiny.dmaAddress = 1 := by
    rw [dev.pageOffset_eq]
    exact Nat.mod_eq_of_lt (by simp only [tiny]; omega)
  by_cases hd : (dev.useFastReg = false ∧ dev.pageOffset tiny.dmaAddress ≠ 0) ∨
      dev.mrMaxSize < tiny.dmaLen
  · intro i n st hidle
    have he : srpMapSgEntry dev registerAlways (scripted allRegistered) true tiny i st n =
        ⟨true, srpMapUpdateStart (srpMapDesc st tiny.dmaAddress tiny.dmaLen .target) none 0 0,
          n⟩ := by
      unfold srpMapSgEntry
      rw [if_neg (by decide), if_neg (by decide), if_pos hd,
        srpFinishMapping_empty _ _ _ n hidle.pages]
      rfl
    rw [he]
    exact ⟨rfl, ⟨hidle.pages, rfl⟩, ndesc_srpMapDesc st _ _ _, le_rfl⟩
  · obtain ⟨hslow, hmax⟩ := not_or.mp hd
    have hfast : dev.useFastReg = true := by
      by_contra hne
      exact hslow ⟨Bool.eq_false_iff.mpr hne, by rw [hoff]; exact Nat.one_ne_zero⟩
    apply adds_one_page (by decide) (Or.inl hfast) (not_lt.mp hmax)
    · rw [hoff]
      simp only [tiny]
      omega
    · simp only [tiny]
      omega
    · exact Nat.zero_le _

theorem forEachSg_replicate {dev : SrpDevice} {registerAlways : Bool} {sg : Sg} {a b : ℕ}
    (h : Adds dev registerAlways true sg a b) (m : ℕ) :
    ∀ (i n : ℕ) (st : MapState ℕ), Idle st →
      let r := forEachSg dev registerAlways (scripted allRegistered) true (List.replicate m sg)
        i st n
      r.ok = true ∧ Idle r.state ∧ r.state.ndesc = st.ndesc+m*a ∧
        st.nmdesc+m*b ≤ r.state.nmdesc := by
  induction m with
  | zero =>
      intro i n st hidle
      simp only [List.replicate_zero, forEachSg, Nat.zero_mul, Nat.add_zero]
      exact ⟨trivial, hidle, trivial, le_rfl⟩
  | succ m ih =>
      intro i n st hidle
      obtain ⟨hok, hidle', hnd, hnm⟩ := h i n st hidle
      obtain ⟨hok', hidle'', hnd', hnm'⟩ := ih (i+1)
        (srpMapSgEntry dev registerAlways (scripted allRegistered) true sg i st n).ch _ hidle'
      simp only [List.replicate_succ, forEachSg, hok, if_true, Nat.add_mul, Nat.one_mul]
      exact ⟨hok', hidle'', by omega, by omega⟩

/-- If a list leaves nothing pending, the last `srp_finish_mapping` does nothing. -/
theorem srpMapSg_of_idle {dev : SrpDevice} {registerAlways : Bool} {ops : MrOps ℕ ℕ}
    {scat : List Sg} {n : ℕ}
    (hok : (forEachSg dev registerAlways ops true scat 0 {} n).ok = true)
    (hidle : Idle (forEachSg dev registerAlways ops true scat 0 {} n).state) :
    srpMapSg dev registerAlways true ops scat n =
      some ((forEachSg dev registerAlways ops true scat 0 {} n).state,
        (forEachSg dev registerAlways ops true scat 0 {} n).ch) := by
  simp only [srpMapSg, hok, if_true, srpFinishMapping_empty _ _ _ _ hidle.pages]

theorem idle_init : Idle ({} : MapState ℕ) := ⟨rfl, rfl⟩

theorem tiny_ne_zero (m : ℕ) : ∀ sg ∈ List.replicate m tiny, sg.dmaLen ≠ 0 := by
  intro sg hsg
  rw [List.eq_of_mem_replicate hsg]
  decide

theorem srpMapSg_replicate {dev : SrpDevice} {registerAlways : Bool} {sg : Sg} {a b : ℕ}
    (h : Adds dev registerAlways true sg a b) (m : ℕ) :
    ∃ st n, srpMapSg dev registerAlways true (scripted allRegistered) (List.replicate m sg) 0 =
        some (st, n) ∧ st.ndesc = m*a ∧ m*b ≤ st.nmdesc := by
  obtain ⟨hok, hidle, hnd, hnm⟩ := forEachSg_replicate h m 0 0 {} idle_init
  refine ⟨_, _, srpMapSg_of_idle hok hidle, ?_, ?_⟩
  · simpa [MapState.ndesc] using hnd
  · simpa [MapState.nmdesc] using hnm

theorem srpMapSg_replicate_tiny (dev : SrpDevice) (registerAlways useMr : Bool) (m : ℕ) :
    ∃ st n, srpMapSg dev registerAlways useMr (scripted allRegistered)
      (List.replicate m tiny) 0 = some (st, n) ∧ st.ndesc = m := by
  cases useMr with
  | false =>
      obtain ⟨hok, _⟩ := forEachSg_direct dev registerAlways (scripted allRegistered)
        (List.replicate m tiny) 0 {} 0
      obtain ⟨_, _, hnd⟩ := forEachSg_direct_ndesc dev registerAlways (scripted allRegistered)
        (List.replicate m tiny) 0 {} 0
      refine ⟨_, _, by simp only [srpMapSg, hok, if_true]; rfl, ?_⟩
      simpa [MapState.ndesc] using hnd (tiny_ne_zero m)
  | true =>
      obtain ⟨st, n, he, hnd, _⟩ := srpMapSg_replicate (adds_tiny dev registerAlways) m
      exact ⟨st, n, he, by omega⟩

theorem last_byte_lt (dev : SrpDevice) : dev.mrPageSize-1 < 2^64 := by
  have := dev.mrPageSize_le
  omega

theorem two_bytes_lt : 2 < 2^32 := by decide

/-- Two bytes, one on each side of a page boundary of the device. -/
def crossing (dev : SrpDevice) : Sg :=
  { dmaAddress := dev.mrPageSize-1, dmaLen := 2, address_lt := last_byte_lt dev,
    len_lt := two_bytes_lt }

theorem crossing_offset (dev : SrpDevice) :
    dev.pageOffset (crossing dev).dmaAddress = dev.mrPageSize-1 := by
  have hps := dev.mrPageSize_pos
  rw [dev.pageOffset_eq]
  exact Nat.mod_eq_of_lt (by simp only [crossing]; omega)

/-- If a region holds one page, an entry across a page boundary takes two regions. -/
theorem adds_crossing {dev : SrpDevice} (registerAlways : Bool) (hfast : dev.useFastReg = true)
    (hmax : dev.maxPagesPerMr = 1) : Adds dev registerAlways true (crossing dev) 2 0 := by
  have hps := dev.mrPageSize_ge
  have hps' := dev.mrPageSize_le
  have hoff := crossing_offset dev
  intro i n st hidle
  set st₁ := srpMapPage dev (srpMapUpdateStart st (some (crossing dev)) i
    (crossing dev).dmaAddress) (crossing dev).dmaAddress 1 with hst₁
  have hn₁ : st₁.npages = dev.maxPagesPerMr := by
    simp [hst₁, srpMapPage, srpMapUpdateStart, MapState.npages, hidle.pages, hmax]
  obtain ⟨hok, hp, hnd, hnm⟩ := srpFinishMapping_allRegistered dev registerAlways st₁ n
    (by simp [hst₁, srpMapPage])
  set r₁ := srpFinishMapping dev registerAlways (scripted allRegistered) st₁ n with hr₁
  set st₂ := srpMapPage dev (srpMapUpdateStart r₁.state (some (crossing dev)) i dev.mrPageSize)
    dev.mrPageSize 1 with hst₂
  have hstart : srpMapPageStart dev registerAlways (scripted allRegistered) (crossing dev) i
      dev.mrPageSize st₁ n =
      ⟨true, srpMapUpdateStart r₁.state (some (crossing dev)) i dev.mrPageSize, r₁.ch⟩ := by
    simp only [srpMapPageStart, hn₁, true_or, if_true, ← hr₁, hok]
  have hpages : srpMapPages dev registerAlways (scripted allRegistered) (crossing dev) i
      (crossing dev).dmaLen (crossing dev).dmaAddress (crossing dev).dmaLen 0
      (srpMapUpdateStart st (some (crossing dev)) i (crossing dev).dmaAddress) n =
      (⟨true, st₂, r₁.ch⟩, 1) := by
    have haddr : ((crossing dev).dmaAddress+1) % 2^64 = dev.mrPageSize := by
      simp only [crossing]
      omega
    have hc₁ : min 2 (dev.mrPageSize-dev.pageOffset (crossing dev).dmaAddress) = 1 := by omega
    have hc₂ : min 1 (dev.mrPageSize-dev.pageOffset dev.mrPageSize) = 1 := by
      rw [dev.pageOffset_eq, Nat.mod_self]
      omega
    have h₁ := srpMapPages_round 1 0 (by norm_num : 0 < 2) hc₁
      (srpMapPageStart_fresh dev registerAlways (scripted allRegistered) (crossing dev) i
        (crossing dev).dmaAddress n hidle.pages)
    have h₂ := srpMapPages_round 0 1 (by norm_num : 0 < 1) hc₂ hstart
    rw [haddr] at h₁
    rw [Nat.sub_self, srpMapPages_done] at h₂
    exact h₁.trans h₂
  obtain ⟨hok', hp', hnd', hnm'⟩ := srpFinishMapping_allRegistered dev registerAlways st₂ r₁.ch
    (by simp [hst₂, srpMapPage])
  rw [srpMapSgEntry_pages (by decide : (2 : ℕ) ≠ 0) (Or.inl hfast)
    (by simp only [SrpDevice.mrMaxSize, hmax, crossing]; omega) hidle hpages rfl (by omega)]
  simp only [hok', if_true]
  have hd₁ : st₁.ndesc = st.ndesc := rfl
  have hd₂ : st₂.ndesc = r₁.state.ndesc := rfl
  have hm₁ : st₁.nmdesc = st.nmdesc := rfl
  have hm₂ : st₂.nmdesc = r₁.state.nmdesc := rfl
  refine ⟨trivial, ⟨hp', rfl⟩, ?_, ?_⟩
  · change (srpFinishMapping dev registerAlways (scripted allRegistered) st₂ r₁.ch).state.ndesc = _
    omega
  · change _ ≤ (srpFinishMapping dev registerAlways (scripted allRegistered) st₂ r₁.ch).state.nmdesc
    omega

def allPostFailed : ℕ → Outcome := fun _ => .postFailed

/-- A region of two pages whose work request cannot be posted is described. -/
theorem srpFinishMapping_allPostFailed {dev : SrpDevice} (registerAlways : Bool)
    (st : MapState ℕ) (n : ℕ) (hfast : dev.useFastReg = true) (htwo : st.npages = 2) :
    let r := srpFinishMapping dev registerAlways (scripted allPostFailed) st n
    r.ok = false ∧ r.state.ndesc = st.ndesc+1 ∧ r.state.unmappedSg = st.unmappedSg ∧
      r.state.unmappedIndex = st.unmappedIndex := by
  intro r
  have hf := srpFinishMapping_finish dev registerAlways (scripted allPostFailed) st n
  change Finish dev registerAlways (scripted allPostFailed) st n r at hf
  generalize r = r at hf ⊢
  cases hf with
  | empty he => simp [MapState.npages, he] at htwo
  | direct hone _ => omega
  | registered _ ha =>
      have := (attempt_scripted_registered ha).1
      cases this
  | unavailable _ ha =>
      have := (attempt_scripted_unavailable ha).2.1 hfast
      cases this
  | postFailed _ _ _ => exact ⟨rfl, ndesc_srpMapDesc _ _ _ _, rfl, rfl⟩

/-- If a region holds two pages, an entry across a page boundary whose registration
cannot be posted is described twice. -/
theorem srpMapSg_crossing_postFailed {dev : SrpDevice} (registerAlways : Bool) (m : ℕ)
    (hfast : dev.useFastReg = true) (hmax : 2 ≤ dev.maxPagesPerMr) :
    ∃ st n, srpMapSg dev registerAlways true (scripted allPostFailed)
      (crossing dev::List.replicate m tiny) 0 = some (st, n) ∧ st.ndesc = m+2 := by
  have hps := dev.mrPageSize_ge
  have hps' := dev.mrPageSize_le
  have hoff := crossing_offset dev
  have hsize : (crossing dev).dmaLen ≤ dev.mrMaxSize := by
    have := Nat.mul_le_mul_left dev.mrPageSize hmax
    simp only [SrpDevice.mrMaxSize, crossing]
    omega
  have hc : dev.pageOffset (crossing dev).dmaAddress+1 = dev.mrPageSize := by omega
  have hpages := srpMapPages_two registerAlways (scripted allPostFailed) 0 0 hmax
    idle_init.pages hc (Nat.lt_succ_self 1) (by simp only [crossing]; omega)
    (by simp only [crossing]; omega)
  set st₂ := srpMapPage dev (srpMapPage dev (srpMapUpdateStart ({} : MapState ℕ)
    (some (crossing dev)) 0 (crossing dev).dmaAddress) (crossing dev).dmaAddress 1)
    ((crossing dev).dmaAddress+1) ((crossing dev).dmaLen-1) with hst₂
  have hentry := srpMapSgEntry_pages (by decide : (2 : ℕ) ≠ 0) (Or.inl hfast) hsize idle_init
    hpages rfl (by simp only [crossing]; omega)
  obtain ⟨hok, hnd, hsg, hindex⟩ := srpFinishMapping_allPostFailed registerAlways st₂ 0 hfast
    (by simp [hst₂, srpMapPage, srpMapUpdateStart, MapState.npages])
  simp only [hok, Bool.false_eq_true, if_false] at hentry
  set r := srpFinishMapping dev registerAlways (scripted allPostFailed) st₂ 0
  have hsg' : r.state.unmappedSg = some (crossing dev) := hsg
  have hindex' : r.state.unmappedIndex = 0 := hindex
  have hnd' : r.state.ndesc = 1 := hnd
  simp only [srpMapSg, forEachSg, hentry, hok, Bool.false_eq_true, if_false, srpMapBacktrack,
    hsg', hindex', Nat.zero_add, List.drop_succ_cons, List.drop_zero]
  refine ⟨_, _, rfl, ?_⟩
  generalize ((crossing dev).dmaLen+2^32-
    (r.state.unmappedAddr+2^64-(crossing dev).dmaAddress) % 2^64 % 2^32) % 2^32 = l
  obtain ⟨_, _, hdirect⟩ := forEachSg_direct_ndesc dev registerAlways (scripted allPostFailed)
    (List.replicate m tiny) 1 (srpMapDesc r.state r.state.unmappedAddr l .target) r.ch
  rw [hdirect (tiny_ne_zero m), ndesc_srpMapDesc, hnd', List.length_replicate]
  omega

/-- On a fast-registration device some list of `m+1` entries takes more than `m+1`
descriptors. -/
theorem srpMapSg_exceeds {dev : SrpDevice} (registerAlways : Bool) (m : ℕ)
    (hfast : dev.useFastReg = true) (hmax : 0 < dev.maxPagesPerMr) :
    ∃ out st n, srpMapSg dev registerAlways true (scripted out)
      (crossing dev::List.replicate m tiny) 0 = some (st, n) ∧ st.ndesc = m+2 := by
  by_cases hone : dev.maxPagesPerMr = 1
  · obtain ⟨hok, hidle, hnd, _⟩ := adds_crossing registerAlways hfast hone 0 0 {} idle_init
    obtain ⟨hok', hidle', hnd', _⟩ := forEachSg_replicate (adds_tiny dev registerAlways) m 1
      (srpMapSgEntry dev registerAlways (scripted allRegistered) true (crossing dev) 0 {} 0).ch
      _ hidle
    have he : forEachSg dev registerAlways (scripted allRegistered) true
        (crossing dev::List.replicate m tiny) 0 {} 0 =
        forEachSg dev registerAlways (scripted allRegistered) true (List.replicate m tiny) 1
          (srpMapSgEntry dev registerAlways (scripted allRegistered) true (crossing dev) 0 {}
            0).state
          (srpMapSgEntry dev registerAlways (scripted allRegistered) true (crossing dev) 0 {}
            0).ch := by
      simp only [forEachSg, hok, if_true]
    rw [← he] at hok' hidle' hnd'
    refine ⟨allRegistered, _, _, srpMapSg_of_idle hok' hidle', ?_⟩
    have hz : ({} : MapState ℕ).ndesc = 0 := rfl
    omega
  · obtain ⟨st, n, he, hnd⟩ :=
      srpMapSg_crossing_postFailed registerAlways m hfast (by omega : 2 ≤ dev.maxPagesPerMr)
    exact ⟨allPostFailed, st, n, he, hnd⟩

/-- On an FMR device that registers regions at all, some list takes a memory
descriptor for each entry. -/
theorem srpMapSg_registers {dev : SrpDevice} {registerAlways : Bool}
    (hreg : ¬ NeverRegisters dev registerAlways) :
    ∃ sg, Adds dev registerAlways true sg 1 1 := by
  have hps := dev.mrPageSize_ge
  have hps' := dev.mrPageSize_le
  obtain ⟨hz, hone⟩ := not_or.mp hreg
  by_cases htwo : 2 ≤ dev.maxPagesPerMr
  · have hlt : dev.mrPageSize+1 < 2^32 := by omega
    exact ⟨⟨0, dev.mrPageSize+1, by norm_num, hlt⟩, adds_two_pages registerAlways htwo rfl rfl⟩
  · have hmax : dev.maxPagesPerMr = 1 := by omega
    have hra : registerAlways = true := by
      by_contra hne
      exact hone ⟨hmax, Bool.eq_false_iff.mpr hne⟩
    refine ⟨⟨0, 1, by norm_num, by norm_num⟩, ?_⟩
    have hoff : dev.pageOffset 0 = 0 := by rw [dev.pageOffset_eq, Nat.zero_mod]
    apply adds_one_page Nat.one_ne_zero (Or.inr hoff)
    · simp only [SrpDevice.mrMaxSize, hmax]
      omega
    · simp only [hoff]
      omega
    · simp only
      omega
    · simp [hra]

/-- Every mapping of a list the SCSI mid-layer may send fits in the arrays of a request. -/
def Fits (t : Target) : Prop :=
  ∀ (scat : List Sg) (out : ℕ → Outcome), scat.length ≤ t.limits.sgTablesize →
    ∃ st n, srpMapSg t.dev t.params.registerAlways t.useMr (scripted out) scat 0 = some (st, n) ∧
      st.nmdesc ≤ t.limits.cmdSgCnt ∧ st.ndesc ≤ t.limits.indirectDescs

theorem Fits.sgTablesize_lt {t : Target} (h : Fits t) : t.limits.sgTablesize < 2^28 := by
  obtain ⟨st, n, he, _, hle⟩ := h (List.replicate t.limits.sgTablesize tiny) allRegistered
    (by rw [List.length_replicate])
  obtain ⟨st', n', he', hnd⟩ := srpMapSg_replicate_tiny t.dev t.params.registerAlways t.useMr
    t.limits.sgTablesize
  rw [he] at he'
  cases he'
  rw [hnd, t.limits.indirectDescs_eq] at hle
  omega

theorem Fits.not_fast {t : Target} (h : Fits t) (hmax : 0 < t.dev.maxPagesPerMr) :
    t.dev.useFastReg = false := by
  by_contra hne
  have hfast : t.dev.useFastReg = true := Bool.eq_true_of_not_eq_false hne
  obtain ⟨_, hpos⟩ := t.positive
  obtain ⟨m, hm⟩ := Nat.exists_eq_succ_of_ne_zero hpos.ne'
  obtain ⟨out, st, n, he, hnd⟩ := srpMapSg_exceeds t.params.registerAlways m hfast hmax
  obtain ⟨st', n', he', _, hle⟩ := h (crossing t.dev::List.replicate m tiny) out
    (by rw [hm, List.length_cons, List.length_replicate])
  rw [Target.useMr_of_useFastReg hfast, he] at he'
  cases he'
  have hlt := h.sgTablesize_lt
  rw [t.limits.indirectDescs_eq] at hle
  omega

theorem Fits.registers_le {t : Target} (h : Fits t) (hpool : t.useMr = true)
    (hreg : ¬ NeverRegisters t.dev t.params.registerAlways) :
    t.limits.sgTablesize ≤ t.limits.cmdSgCnt := by
  by_contra hgt
  obtain ⟨sg, hadds⟩ := srpMapSg_registers hreg
  obtain ⟨st, n, he, _, hnm⟩ := srpMapSg_replicate hadds (t.limits.cmdSgCnt+1)
  obtain ⟨st', n', he', hle, _⟩ := h (List.replicate (t.limits.cmdSgCnt+1) sg) allRegistered
    (by rw [List.length_replicate]; omega)
  rw [hpool, he] at he'
  cases he'
  omega

/-- The targets whose request arrays hold every mapping. -/
theorem fits_iff (t : Target) :
    Fits t ↔ t.limits.sgTablesize < 2^28 ∧
      (t.useMr = false ∨ t.dev.maxPagesPerMr = 0 ∨
        t.dev.useFastReg = false ∧
          (t.limits.sgTablesize ≤ t.limits.cmdSgCnt ∨
            t.dev.maxPagesPerMr = 1 ∧ t.params.registerAlways = false)) := by
  constructor
  · intro h
    refine ⟨h.sgTablesize_lt, ?_⟩
    by_cases hpool : t.useMr = false
    · exact Or.inl hpool
    · by_cases hz : t.dev.maxPagesPerMr = 0
      · exact Or.inr (Or.inl hz)
      · refine Or.inr (Or.inr ⟨h.not_fast (Nat.pos_of_ne_zero hz), ?_⟩)
        by_cases hreg : NeverRegisters t.dev t.params.registerAlways
        · exact Or.inr (hreg.resolve_left hz)
        · exact Or.inl (h.registers_le (Bool.eq_true_of_not_eq_false hpool) hreg)
  · rintro ⟨hlt, hcond⟩ scat out hscat
    have hroom : t.limits.indirectDescs = t.limits.sgTablesize := by
      rw [t.limits.indirectDescs_eq]
      exact Nat.mod_eq_of_lt hlt
    cases hpool : t.useMr with
    | false =>
        obtain ⟨p, he, hnm, hnd⟩ :=
          srpMapSg_bounded_without_pool t.dev t.params.registerAlways (scripted out) scat 0
        exact ⟨p.1, p.2, he, by omega, by omega⟩
    | true =>
        rw [hpool] at hcond
        have hcond' := hcond.resolve_left (by decide)
        have hfmr : t.dev.useFastReg = false ∨ t.dev.maxPagesPerMr = 0 := by
          rcases hcond' with hz | ⟨hslow, _⟩
          · exact Or.inr hz
          · exact Or.inl hslow
        obtain ⟨p, he, hb⟩ :=
          srpMapSg_bounded t.params.registerAlways (scripted out) hfmr scat 0
        have hnm := hb.nmdesc_le
        have hnd := hb.ndesc_le
        refine ⟨p.1, p.2, he, ?_, by omega⟩
        rcases hcond' with hz | ⟨_, hle | hone⟩
        · rw [hb.unregistered (Or.inl hz)]
          exact Nat.zero_le _
        · omega
        · rw [hb.unregistered (Or.inr hone)]
          exact Nat.zero_le _

/-- A fast-registration target with default parameters. -/
def defaultTarget : Target where
  params := {}
  hasFmr := false
  hasFr := true
  dev := twoPageDevice
  options := []
  limits := { cmdSgCnt := 12, sgTablesize := 12, allowExtSg := false }
  useFastReg_eq := rfl
  accepted := by decide

/-- Twelve entries of two pages each, none of which starts a page, take two regions
each although every registration succeeds. -/
theorem defaultTarget_overruns :
    ∃ st n, srpMapSg defaultTarget.dev false defaultTarget.useMr (scripted allRegistered)
        (List.replicate 12 { dmaAddress := 4095, dmaLen := 8192 }) 0 = some (st, n) ∧
      defaultTarget.limits.sgTablesize = 12 ∧ defaultTarget.limits.indirectDescs = 12 ∧
      st.ndesc = 24 :=
  ⟨_, _, rfl, rfl, by decide, by decide⟩

end IbSrp.MappingOverrun

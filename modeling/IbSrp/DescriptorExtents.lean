import IbSrp.MappingCoverage

/-!
# Where a descriptor begins and how long it is

A descriptor that `srp_map_sg` stores is never empty: an entry of length zero is skipped, a
region is closed only if it has a page, and what backtracking describes begins at a byte
that has not been mapped. A descriptor of a registered region begins where the registration
does, at the address of its first byte with fast registration and at address 0 with an FMR.

The invariant goes with the number `n` of bytes of the list that the loop has passed. As
long as this is less than `2^32` the length of the open region does not wrap around.
-/
namespace IbSrp.DescriptorExtents
open PagedBytes MemoryRegistration MappingCoverage

section
variable {σ D : Type}

/-- The descriptor begins where its memory was registered. -/
def AtStart (d : SrpDirectBuf D) : Prop :=
  match d.key with
  | .target => True
  | .fr _ iovaStart _ => d.va = iovaStart
  | .fmr _ _ => d.va = 0

def Extent (d : SrpDirectBuf D) : Prop := 0 < d.len ∧ AtStart d

structure Extents (n : ℕ) (st : MapState D) : Prop where
  desc : ∀ d ∈ st.desc, Extent d
  pages : st.pages ≠ [] → 0 < st.dmaLen
  dmaLen_le : st.dmaLen ≤ n
  start : ∀ sg ∈ st.unmappedSg, ∃ o < sg.dmaLen, st.unmappedAddr = (sg.dmaAddress+o) % 2^64

theorem extents_init : Extents 0 ({} : MapState D) := by
  constructor
  · exact fun d hd => (List.not_mem_nil hd).elim
  · exact fun hne => absurd rfl hne
  · exact Nat.le_refl 0
  · intro sg hsg
    cases hsg

section
variable {n : ℕ} {st : MapState D}

theorem Extents.mono (h : Extents n st) {n' : ℕ} (hle : n ≤ n') : Extents n' st :=
  ⟨h.desc, h.pages, Nat.le_trans h.dmaLen_le hle, h.start⟩

theorem Extents.emit (h : Extents n st) {buf : SrpDirectBuf D} (hbuf : Extent buf)
    (mr : Option D) : Extents n (emit st buf mr) := by
  refine ⟨?_, h.pages, h.dmaLen_le, h.start⟩
  intro d hd
  cases List.mem_append.mp hd with
  | inl hold => exact h.desc d hold
  | inr hnew =>
      cases List.mem_singleton.mp hnew
      exact hbuf

theorem Extents.closeRegion (h : Extents n st) {buf : SrpDirectBuf D} (hbuf : Extent buf)
    (mr : Option D) : Extents n (closeRegion st buf mr) := by
  have hemit := h.emit hbuf mr
  exact ⟨hemit.desc, fun hne => absurd rfl hne, Nat.zero_le n, hemit.start⟩

theorem Extents.srpMapDesc (h : Extents n st) (a : ℕ) {l : ℕ} (hl : 0 < l) :
    Extents n (srpMapDesc st a l .target) := by
  have hbuf : Extent (⟨a, .target, l⟩ : SrpDirectBuf D) := ⟨hl, trivial⟩
  have hemit := h.emit hbuf none
  exact ⟨hemit.desc, h.pages, h.dmaLen_le, h.start⟩

theorem Extents.srpMapPage (h : Extents n st) (dev : SrpDevice) (a : ℕ) {l : ℕ} (hl : 0 < l)
    (hlt : n+l < 2^32) : Extents (n+l) (srpMapPage dev st a l) := by
  have hle := h.dmaLen_le
  have hmod : (st.dmaLen+l) % 2^32 = st.dmaLen+l := Nat.mod_eq_of_lt (by omega)
  refine ⟨h.desc, ?_, ?_, h.start⟩
  · intro _
    change 0 < (st.dmaLen+l) % 2^32
    omega
  · change (st.dmaLen+l) % 2^32 ≤ n+l
    omega

theorem Extents.begin (h : Extents n st) {sg : Sg} (i : ℕ) {o : ℕ} (ho : o < sg.dmaLen) :
    Extents n (srpMapUpdateStart st (some sg) i ((sg.dmaAddress+o) % 2^64)) := by
  refine ⟨h.desc, h.pages, h.dmaLen_le, ?_⟩
  intro sg' hsg
  cases hsg
  exact ⟨o, ho, rfl⟩

theorem Extents.idle (h : Extents n st) : Extents n (srpMapUpdateStart st none 0 0) := by
  refine ⟨h.desc, h.pages, h.dmaLen_le, ?_⟩
  intro sg hsg
  cases hsg

theorem extent_regionBuf (h : Extents n st) (dev : SrpDevice) (hne : st.pages ≠ []) (d : D) :
    Extent (regionBuf dev st d) := by
  have hpos := h.pages hne
  unfold regionBuf
  split_ifs
  · exact ⟨hpos, rfl⟩
  · exact ⟨hpos, rfl⟩

variable (dev : SrpDevice) (registerAlways : Bool) (ops : MrOps σ D)

theorem Extents.srpFinishMapping (h : Extents n st) (ch : σ) :
    Extents n (srpFinishMapping dev registerAlways ops st ch).state := by
  have hfinish := srpFinishMapping_finish dev registerAlways ops st ch
  generalize MemoryRegistration.srpFinishMapping dev registerAlways ops st ch = r at hfinish ⊢
  cases hfinish with
  | empty _ => exact h
  | direct hone _ =>
      have hne : st.pages ≠ [] := by
        intro hnil
        simp [MapState.npages, hnil] at hone
      refine h.closeRegion ?_ none
      exact ⟨h.pages hne, trivial⟩
  | registered hp _ => exact h.closeRegion (extent_regionBuf h dev hp.1 _) _
  | unavailable _ _ => exact h
  | postFailed hp _ _ => exact h.emit (extent_regionBuf h dev hp.1 _) _

theorem Extents.srpMapPageStart (h : Extents n st) {sg : Sg} (i : ℕ) {o : ℕ} (ho : o < sg.dmaLen)
    (ch : σ) : Extents n (srpMapPageStart dev registerAlways ops sg i ((sg.dmaAddress+o) % 2^64)
      st ch).state := by
  have hfinish := h.srpFinishMapping dev registerAlways ops ch
  unfold MemoryRegistration.srpMapPageStart
  simp only
  split_ifs
  · exact hfinish.begin i ho
  · exact hfinish
  · exact h

end

variable (dev : SrpDevice) (registerAlways : Bool) (ops : MrOps σ D)

/-- The page loop, with `l` bytes of the entry left from byte `o` on. -/
theorem extents_srpMapPages (sg : Sg) (i fuel : ℕ) : ∀ {n : ℕ} (o l len : ℕ) {st : MapState D}
    (ch : σ), Extents n st → o+l = sg.dmaLen → n+l < 2^32 →
      Extents (n+l) (srpMapPages dev registerAlways ops sg i fuel ((sg.dmaAddress+o) % 2^64)
        l len st ch).1.state := by
  induction fuel with
  | zero => exact fun _ l _ _ _ h _ _ => h.mono (Nat.le_add_right _ l)
  | succ fuel ih =>
      intro n o l len st ch h hsum hlt
      rw [MemoryRegistration.srpMapPages]
      by_cases hl : l = 0
      · rw [if_pos hl]
        exact h.mono (Nat.le_add_right n l)
      · rw [if_neg hl]
        have ho : o < sg.dmaLen := by omega
        have hready := h.srpMapPageStart dev registerAlways ops i ho ch
        simp only
        split_ifs
        · have hoff := dev.pageOffset_lt ((sg.dmaAddress+o) % 2^64)
          generalize hk : min l (dev.mrPageSize-dev.pageOffset ((sg.dmaAddress+o) % 2^64)) = k
          have hpage := hready.srpMapPage dev ((sg.dmaAddress+o) % 2^64) (l := k) (by omega)
            (by omega)
          have haddr : ((sg.dmaAddress+o) % 2^64+k) % 2^64 = (sg.dmaAddress+(o+k)) % 2^64 := by
            rw [Nat.mod_add_mod, Nat.add_assoc]
          have hsplit : n+k+(l-k) = n+l := by omega
          rw [haddr, ← hsplit]
          exact ih (o+k) (l-k) k _ hpage (by omega) (by omega)
        · exact hready.mono (Nat.le_add_right n l)

theorem extents_srpMapSgEntry (useMr : Bool) (sg : Sg) (i : ℕ) {n : ℕ} {st : MapState D} (ch : σ)
    (h : Extents n st) (hlt : useMr = true → n+sg.dmaLen < 2^32) :
    Extents (n+sg.dmaLen) (srpMapSgEntry dev registerAlways ops useMr sg i st ch).state := by
  have hmono : ∀ {st : MapState D}, Extents n st → Extents (n+sg.dmaLen) st :=
    fun h => h.mono (Nat.le_add_right n _)
  by_cases hzero : sg.dmaLen = 0
  · unfold MemoryRegistration.srpMapSgEntry
    rw [if_pos hzero]
    exact hmono h
  have hpos : 0 < sg.dmaLen := Nat.pos_of_ne_zero hzero
  have hzeroth : (sg.dmaAddress+0) % 2^64 = sg.dmaAddress := Nat.mod_eq_of_lt sg.address_lt
  have hstart : Extents n (if st.unmappedSg = none then
      srpMapUpdateStart st (some sg) i sg.dmaAddress else st) := by
    split_ifs
    · have := h.begin i hpos
      rwa [hzeroth] at this
    · exact h
  unfold MemoryRegistration.srpMapSgEntry
  rw [if_neg hzero]
  simp only
  generalize (if st.unmappedSg = none then srpMapUpdateStart st (some sg) i sg.dmaAddress
    else st) = st₁ at hstart ⊢
  have hpages := fun huse => extents_srpMapPages dev registerAlways ops sg i sg.dmaLen 0
    sg.dmaLen 0 ch hstart (Nat.zero_add _) (hlt huse)
  rw [hzeroth] at hpages
  cases useMr with
  | false => exact hmono (h.srpMapDesc _ hpos)
  | true =>
      have hpages := hpages rfl
      rw [if_neg (by simp)]
      split_ifs
      · exact hmono ((h.srpFinishMapping dev registerAlways ops ch).srpMapDesc _ hpos).idle
      · exact hmono (h.srpFinishMapping dev registerAlways ops ch)
      · exact (hpages.srpFinishMapping dev registerAlways ops _).idle
      · exact hpages.srpFinishMapping dev registerAlways ops _
      · exact hpages
      · exact hpages

theorem extents_forEachSg (useMr : Bool) (scat : List Sg) : ∀ (i : ℕ) {n : ℕ} {st : MapState D}
    (ch : σ), Extents n st → (useMr = true → n+sgLen scat < 2^32) →
      Extents (n+sgLen scat) (forEachSg dev registerAlways ops useMr scat i st ch).state := by
  induction scat with
  | nil => exact fun _ _ _ _ h _ => h
  | cons sg scat ih =>
      intro i n st ch h hlt
      rw [sgLen_cons] at hlt ⊢
      have hentry := extents_srpMapSgEntry dev registerAlways ops useMr sg i ch h
        fun huse => by have := hlt huse; omega
      simp only [MemoryRegistration.forEachSg]
      split_ifs
      · rw [← Nat.add_assoc]
        exact ih (i+1) _ hentry fun huse => by have := hlt huse; omega
      · exact hentry.mono (by omega)

theorem Extents.srpMapBacktrack {n : ℕ} {scat : List Sg} {st st' : MapState D} {ch ch' : σ}
    (h : Extents n st)
    (hmap : srpMapBacktrack dev registerAlways ops scat st ch = some (st', ch')) :
    ∀ d ∈ st'.desc, Extent d := by
  unfold MemoryRegistration.srpMapBacktrack at hmap
  cases hsg : st.unmappedSg with
  | none => simp [hsg] at hmap
  | some sg =>
      simp only [hsg, Option.some.injEq, Prod.mk.injEq] at hmap
      obtain ⟨o, ho, haddr⟩ := h.start sg hsg
      have hsglt := sg.len_lt
      have hskip : (st.unmappedAddr+2^64-sg.dmaAddress) % 2^64 = o := by
        have := sg.address_lt
        omega
      have hlen : (sg.dmaLen+2^32-o % 2^32) % 2^32 = sg.dmaLen-o := by omega
      have hdesc := h.srpMapDesc st.unmappedAddr (l := sg.dmaLen-o) (by omega)
      rw [← hmap.1, hskip, hlen]
      exact (extents_forEachSg dev registerAlways ops false _ _ ch hdesc
        fun huse => by cases huse).desc

/-- No descriptor is empty, and each begins where its memory was registered. -/
theorem srpMapSg_extent (useMr : Bool) {scat : List Sg} (hlt : sgLen scat < 2^32) {ch : σ}
    {st' : MapState D} {ch' : σ}
    (hmap : srpMapSg dev registerAlways useMr ops scat ch = some (st', ch')) :
    ∀ d ∈ st'.desc, Extent d := by
  have heach := extents_forEachSg dev registerAlways ops useMr scat 0 ch extents_init
    fun _ => by omega
  unfold MemoryRegistration.srpMapSg at hmap
  simp only at hmap
  split_ifs at hmap
  · simp only [Option.some.injEq, Prod.mk.injEq] at hmap
    rw [← hmap.1]
    exact (heach.srpFinishMapping dev registerAlways ops _).desc
  · exact (heach.srpFinishMapping dev registerAlways ops _).srpMapBacktrack dev registerAlways ops
      hmap
  · simp only [Option.some.injEq, Prod.mk.injEq] at hmap
    rw [← hmap.1]
    exact heach.desc
  · exact heach.srpMapBacktrack dev registerAlways ops hmap

end

end IbSrp.DescriptorExtents

import IbSrp.FmrOwnership

/-!
# What an FMR is mapped to, and how often

As long as a caller holds a reference, the FMR is mapped to the region the caller asked
for, whether the region was mapped for this caller or found in the cache. It is for this
that an FMR leaves the cache before it is remapped or unmapped, and that neither happens
to an FMR with references.

An FMR on the free list has been remapped less often than the device allows. Hence, if
`ib_unmap_fmr` never fails, the device never has to map an FMR more often than that
without unmapping it in between.
-/
namespace IbSrp.FmrMappings
open LabelledRuns FmrPool FmrOwnership

section
variable {pool : Pool} {s s' : State} {e : Event}

/-- The region that the fields of an FMR record. -/
def recorded (f : IbPoolFmr) : Region := ⟨f.pageList.take f.pageListLen, f.ioVirtualAddress⟩

theorem recorded_of_agrees {f : IbPoolFmr} {r : Region} (h : f.agrees r = true) :
    recorded f = r := by
  simp only [IbPoolFmr.agrees, Bool.and_eq_true, beq_iff_eq] at h
  have hpages : f.pageList.take f.pageListLen = r.pageList := by
    rw [← h.1.2]
    exact h.2.symm
  rw [recorded, hpages, ← h.1.1]

theorem recorded_remapped (f : IbPoolFmr) (r : Region) : recorded (f.remapped true r) = r := by
  simp [recorded, IbPoolFmr.remapped]

/-- Every cached FMR is mapped to the region it records, and every reference is to an
FMR that is mapped to the region that was asked for. -/
structure Sound (s : State) : Prop where
  cached : ∀ b, ∀ i ∈ s.cacheBucket b, s.mr i = some (recorded (s.fmr i))
  held : ∀ ref ∈ s.held, s.mr ref.fmr = some ref.region
  mapped : ∀ c ∈ s.calls, c.stage = .mapped →
    s.mr c.fmr = some c.region ∧ recorded (s.fmr c.fmr) = c.region

theorem Sound.of_same (h : Sound s)
    (hcached : ∀ b, ∀ i ∈ s'.cacheBucket b, i ∈ s.cacheBucket b ∧ s'.mr i = s.mr i)
    (hheld : ∀ ref ∈ s'.held, ref ∈ s.held ∧ s'.mr ref.fmr = s.mr ref.fmr)
    (hcalls : ∀ c ∈ s'.calls, c.stage = .mapped → c ∈ s.calls ∧ s'.mr c.fmr = s.mr c.fmr)
    (hfmr : ∀ i, recorded (s'.fmr i) = recorded (s.fmr i)) : Sound s' where
  cached := by
    intro b i hi
    rw [(hcached b i hi).2, hfmr]
    exact h.cached b i (hcached b i hi).1
  held := by
    intro ref hr
    rw [(hheld ref hr).2]
    exact h.held ref (hheld ref hr).1
  mapped := by
    intro c hc hstage
    rw [(hcalls c hc hstage).2, hfmr]
    exact h.mapped c (hcalls c hc hstage).1 hstage

theorem recorded_update (fmr : ℕ → IbPoolFmr) (i n : ℕ) (j : ℕ) :
    recorded (Function.update fmr i { fmr i with refCount := n } j) = recorded (fmr j) := by
  by_cases hij : j = i
  · subst hij
    simp [recorded]
  · rw [Function.update_of_ne hij]

theorem Sound.found (h : Sound s) {holder i : ℕ} {r : Region}
    (hi : ibFmrCacheLookup pool s r = some i) : Sound (s.found holder i r) where
  cached := by
    intro b j hj
    have hfmr : recorded ((s.found holder i r).fmr j) = recorded (s.fmr j) :=
      recorded_update s.fmr i _ j
    rw [hfmr]
    exact h.cached b j hj
  held := by
    intro ref hr
    cases List.mem_append.mp hr with
    | inl hold => exact h.held ref hold
    | inr hnew =>
        obtain ⟨b, hb, hagrees⟩ := mem_of_lookup hi
        cases List.mem_singleton.mp hnew
        have hmr := h.cached b i hb
        rw [recorded_of_agrees hagrees] at hmr
        exact hmr
  mapped := by
    intro c hc hstage
    have hfmr : recorded ((s.found holder i r).fmr c.fmr) = recorded (s.fmr c.fmr) :=
      recorded_update s.fmr i _ c.fmr
    rw [hfmr]
    exact h.mapped c hc hstage

theorem Sound.mapped_stepped (h : Sound s) (howned : Owned pool s) {k : ℕ} {c : MapCall}
    (hc : s.calls[k]? = some c) : Sound (s.mapped pool k c) where
  cached := by
    intro b i hi
    have hne := howned.cached_ne hc hi
    simp only [State.mapped, Function.update_of_ne hne]
    exact h.cached b i hi
  held := by
    intro ref hr
    cases List.mem_append.mp hr with
    | inl hold =>
        have hne := howned.held_ne hc hold
        simp only [State.mapped, Function.update_of_ne hne]
        exact h.held ref hold
    | inr hnew =>
        split_ifs at hnew
        · cases hnew
        · cases List.mem_singleton.mp hnew
          exact Function.update_self _ _ _
  mapped := by
    intro d hd hstage
    cases List.mem_append.mp hd with
    | inl hold =>
        have hne := howned.call_ne hc hold
        simp only [State.mapped, Function.update_of_ne hne]
        exact h.mapped d (List.mem_of_mem_eraseIdx hold) hstage
    | inr hnew =>
        split_ifs at hnew with hcache
        · cases List.mem_singleton.mp hnew
          simp only [State.mapped, Function.update_self, hcache]
          exact ⟨trivial, recorded_remapped _ _⟩
        · cases hnew

theorem Sound.refused (h : Sound s) (howned : Owned pool s) {k : ℕ} {c : MapCall} {keeps : Bool}
    (hc : s.calls[k]? = some c) : Sound (s.refused k c keeps) := by
  have hmr : ∀ i, i ≠ c.fmr → (s.refused k c keeps).mr i = s.mr i := by
    intro i hi
    simp only [State.refused]
    split_ifs
    · rfl
    · exact Function.update_of_ne hi _ _
  apply h.of_same
  · exact fun b i hi => ⟨hi, hmr i (howned.cached_ne hc hi)⟩
  · exact fun ref hr => ⟨hr, hmr _ (howned.held_ne hc hr)⟩
  · intro d hd hstage
    cases List.mem_append.mp hd with
    | inl hold =>
        exact ⟨List.mem_of_mem_eraseIdx hold, hmr _ (howned.call_ne hc hold)⟩
    | inr hnew =>
        cases List.mem_singleton.mp hnew
        cases hstage
  · exact fun _ => rfl

theorem Sound.inserted (h : Sound s) {k : ℕ} {c : MapCall} (hc : s.calls[k]? = some c)
    (hstage : c.stage = .mapped) : Sound (s.inserted pool k c) := by
  have hmem : c ∈ s.calls := List.mem_of_getElem? hc
  have hmr := h.mapped c hmem hstage
  constructor
  · intro b i hi
    simp only [State.inserted, Function.update_apply] at hi
    split_ifs at hi with hb
    · cases List.mem_cons.mp hi with
      | inl heq =>
          rw [heq]
          exact hmr.1.trans (congrArg some hmr.2.symm)
      | inr hold => exact h.cached _ i hold
    · exact h.cached b i hi
  · intro ref hr
    cases List.mem_append.mp hr with
    | inl hold => exact h.held ref hold
    | inr hnew =>
        cases List.mem_singleton.mp hnew
        exact hmr.1
  · exact fun d hd hd' => h.mapped d (List.mem_of_mem_eraseIdx hd) hd'

theorem Sound.dropped (h : Sound s) (k : ℕ) (ref : Ref) : Sound (s.dropped k ref) :=
  h.of_same (fun _ _ hi => ⟨hi, rfl⟩) (fun _ hr => ⟨List.mem_of_mem_eraseIdx hr, rfl⟩)
    (fun _ hc _ => ⟨hc, rfl⟩) (recorded_update s.fmr ref.fmr _)

theorem Sound.ibUnmapFmr (h : Sound s) (howned : Owned pool s) (done : List ℕ) :
    Sound (s.ibUnmapFmr done) := by
  have hmr : ∀ i, i ∉ s.unmapList → (s.ibUnmapFmr done).mr i = s.mr i := by
    intro i hi
    exact if_neg fun hmem => hi hmem.1
  apply h.of_same
  · intro b i hi
    have hcount := (howned.cached b i hi).2.1
    exact ⟨hi, hmr i (List.count_eq_zero.mp hcount)⟩
  · exact fun ref hr => ⟨hr, hmr _ (howned.not_unmapping (.inl (refs_pos hr)))⟩
  · exact fun c hc _ => ⟨hc, hmr _ (howned.not_unmapping (.inr (mapping_pos hc)))⟩
  · exact fun _ => rfl

theorem Sound.stepped (h : Sound s) (howned : Owned pool s) (hstep : Stepped pool s e s') :
    Sound s' := by
  cases hstep with
  | mapError => exact h
  | found hi => exact h.found hi
  | taken _ _ =>
      apply h.of_same
      · exact fun b i hi => ⟨(List.mem_filter.mp hi).1, rfl⟩
      · exact fun ref hr => ⟨hr, rfl⟩
      · intro c hc hstage
        cases List.mem_append.mp hc with
        | inl hold => exact ⟨hold, rfl⟩
        | inr hnew =>
            cases List.mem_singleton.mp hnew
            cases hstage
      · exact fun _ => rfl
  | mapped hc _ => exact h.mapped_stepped howned hc
  | refused hc _ => exact h.refused howned hc
  | putBack _ _ =>
      exact h.of_same (fun _ _ hi => ⟨hi, rfl⟩) (fun _ hr => ⟨hr, rfl⟩)
        (fun _ hc _ => ⟨List.mem_of_mem_eraseIdx hc, rfl⟩) fun _ => rfl
  | inserted hc hstage => exact h.inserted hc hstage
  | dropped _ _ => exact h.dropped _ _
  | @freed k ref _ _ _ =>
      have hd := h.dropped k ref
      exact ⟨hd.cached, hd.held, hd.mapped⟩
  | @dirtied k ref _ _ _ =>
      have hd := h.dropped k ref
      exact ⟨hd.cached, hd.held, hd.mapped⟩
  | flush => exact ⟨h.cached, h.held, h.mapped⟩
  | request _ _ => exact ⟨h.cached, h.held, h.mapped⟩
  | flushed _ _ _ => exact ⟨h.cached, h.held, h.mapped⟩
  | interrupted _ _ => exact ⟨h.cached, h.held, h.mapped⟩
  | batchRelease _ _ =>
      apply h.of_same
      · exact fun b i hi => ⟨(List.mem_filter.mp hi).1, rfl⟩
      · exact fun ref hr => ⟨hr, rfl⟩
      · exact fun c hc _ => ⟨hc, rfl⟩
      · intro i
        simp only [State.batchRelease]
        split_ifs <;> rfl
  | ibUnmapFmr _ => exact h.ibUnmapFmr howned _
  | splice _ => exact ⟨h.cached, h.held, h.mapped⟩
  | incFlushSer _ => exact ⟨h.cached, h.held, h.mapped⟩

theorem sound_created (pool : Pool) : Sound (State.created pool) := by
  constructor
  · intro b i hi
    simp [State.created] at hi
  · intro ref hr
    simp [State.created] at hr
  · intro c hc
    simp [State.created] at hc

/-- How often an FMR has been remapped since it was last unmapped. -/
structure Remaps (pool : Pool) (s : State) : Prop where
  le : ∀ i, (s.fmr i).remapCount ≤ pool.maxRemaps
  free : ∀ i ∈ s.freeList, (s.fmr i).remapCount < pool.maxRemaps
  calls : ∀ c ∈ s.calls, c.stage ≠ .mapped → (s.fmr c.fmr).remapCount < pool.maxRemaps
  unmapping : ∀ i ∈ s.unmapList, (s.fmr i).remapCount = 0

/-- No remap count changes, and no FMR comes to the free list with a count at the limit. -/
theorem Remaps.of_same (h : Remaps pool s)
    (hfmr : ∀ i, (s'.fmr i).remapCount = (s.fmr i).remapCount)
    (hfree : ∀ i ∈ s'.freeList, i ∈ s.freeList ∨ (s.fmr i).remapCount < pool.maxRemaps)
    (hcalls : ∀ c ∈ s'.calls, c.stage ≠ .mapped →
      c ∈ s.calls ∨ (s.fmr c.fmr).remapCount < pool.maxRemaps)
    (hunmap : ∀ i ∈ s'.unmapList, i ∈ s.unmapList) : Remaps pool s' where
  le := fun i => by
    rw [hfmr]
    exact h.le i
  free := fun i hi => by
    rw [hfmr]
    exact (hfree i hi).elim (h.free i) id
  calls := fun c hc hstage => by
    rw [hfmr]
    exact (hcalls c hc hstage).elim (fun hold => h.calls c hold hstage) id
  unmapping := fun i hi => by
    rw [hfmr]
    exact h.unmapping i (hunmap i hi)

theorem remapCount_update (fmr : ℕ → IbPoolFmr) (i n j : ℕ) :
    (Function.update fmr i { fmr i with refCount := n } j).remapCount = (fmr j).remapCount := by
  by_cases hij : j = i
  · subst hij
    simp
  · rw [Function.update_of_ne hij]

theorem Remaps.mapped (h : Remaps pool s) (howned : Owned pool s) {k : ℕ} {c : MapCall}
    (hc : s.calls[k]? = some c) (hstage : c.stage = .taken) :
    Remaps pool (s.mapped pool k c) := by
  have hmem : c ∈ s.calls := List.mem_of_getElem? hc
  have hlt := h.calls c hmem (by simp [hstage])
  have hself : ((s.mapped pool k c).fmr c.fmr).remapCount = (s.fmr c.fmr).remapCount+1 := by
    simp only [State.mapped, Function.update_self, IbPoolFmr.remapped]
    split_ifs <;> rfl
  have hother : ∀ i, i ≠ c.fmr → (s.mapped pool k c).fmr i = s.fmr i := fun i hi =>
    Function.update_of_ne hi _ _
  have hone := howned.alone hc
  have hplaces := hone.2.2.1
  unfold places at hplaces
  have hfree : c.fmr ∉ s.freeList := List.count_eq_zero.mp (by omega)
  constructor
  · intro i
    by_cases hi : i = c.fmr
    · subst hi
      omega
    · rw [hother i hi]
      exact h.le i
  · intro i hi
    rw [hother i fun heq => hfree (heq ▸ hi)]
    exact h.free i hi
  · intro d hd hd'
    cases List.mem_append.mp hd with
    | inl hold =>
        rw [hother _ (howned.call_ne hc hold)]
        exact h.calls d (List.mem_of_mem_eraseIdx hold) hd'
    | inr hnew =>
        split_ifs at hnew
        · cases List.mem_singleton.mp hnew
          exact absurd rfl hd'
        · cases hnew
  · intro i hi
    have hne : i ≠ c.fmr := by
      intro heq
      exact howned.not_unmapping (.inr (mapping_pos hmem)) (heq ▸ hi)
    rw [hother i hne]
    exact h.unmapping i hi

theorem Remaps.batchRelease (h : Remaps pool s) : Remaps pool s.batchRelease := by
  have hle : ∀ i, (s.batchRelease.fmr i).remapCount ≤ (s.fmr i).remapCount := by
    intro i
    simp only [State.batchRelease]
    split_ifs
    · exact Nat.zero_le _
    · exact Nat.le_refl _
  constructor
  · exact fun i => Nat.le_trans (hle i) (h.le i)
  · exact fun i hi => Nat.lt_of_le_of_lt (hle i) (h.free i hi)
  · exact fun c hc hstage => Nat.lt_of_le_of_lt (hle c.fmr) (h.calls c hc hstage)
  · intro i hi
    have hdirty : i ∈ s.dirtyList := hi
    simp [State.batchRelease, hdirty]

theorem Remaps.stepped (h : Remaps pool s) (howned : Owned pool s)
    (hstep : Stepped pool s e s') : Remaps pool s' := by
  cases hstep with
  | mapError => exact h
  | @found holder i r _ =>
      refine h.of_same (remapCount_update s.fmr i _) ?_ ?_ ?_
      · intro j hj
        simp only [State.found] at hj
        split_ifs at hj
        · exact .inl (List.mem_of_mem_erase hj)
        · exact .inl hj
      · exact fun c hc _ => .inl hc
      · exact fun _ hi => hi
  | @taken holder i rest r _ hfree =>
      refine h.of_same (fun _ => rfl) ?_ ?_ ?_
      · intro j hj
        rw [hfree]
        exact .inl (List.mem_cons_of_mem _ hj)
      · intro c hc _
        cases List.mem_append.mp hc with
        | inl hold => exact .inl hold
        | inr hnew =>
            cases List.mem_singleton.mp hnew
            exact .inr (h.free i (by simp [hfree]))
      · exact fun _ hi => hi
  | mapped hc hstage => exact h.mapped howned hc hstage
  | @refused k keeps c hc hstage =>
      refine h.of_same (fun _ => rfl) (fun _ hj => .inl hj) ?_ fun _ hi => hi
      intro d hd _
      cases List.mem_append.mp hd with
      | inl hold => exact .inl (List.mem_of_mem_eraseIdx hold)
      | inr hnew =>
          cases List.mem_singleton.mp hnew
          exact .inr (h.calls c (List.mem_of_getElem? hc) (by simp [hstage]))
  | @putBack k c hc hstage =>
      refine h.of_same (fun _ => rfl) ?_ (fun _ hd _ => .inl (List.mem_of_mem_eraseIdx hd))
        fun _ hi => hi
      intro j hj
      cases List.mem_cons.mp hj with
      | inl heq =>
          rw [heq]
          exact .inr (h.calls c (List.mem_of_getElem? hc) (by simp [hstage]))
      | inr hold => exact .inl hold
  | inserted _ _ =>
      exact h.of_same (fun _ => rfl) (fun _ hj => .inl hj)
        (fun _ hd _ => .inl (List.mem_of_mem_eraseIdx hd)) fun _ hi => hi
  | dropped _ _ =>
      exact h.of_same (remapCount_update s.fmr _ _) (fun _ hj => .inl hj)
        (fun _ hd _ => .inl hd) fun _ hi => hi
  | @freed k ref _ _ hremap =>
      refine h.of_same (remapCount_update s.fmr ref.fmr _) ?_ (fun _ hd _ => .inl hd) fun _ hi => hi
      intro j hj
      cases List.mem_append.mp hj with
      | inl hold => exact .inl hold
      | inr hnew =>
          cases List.mem_singleton.mp hnew
          exact .inr hremap
  | dirtied _ _ _ =>
      exact h.of_same (remapCount_update s.fmr _ _) (fun _ hj => .inl hj)
        (fun _ hd _ => .inl hd) fun _ hi => hi
  | flush =>
      exact h.of_same (fun _ => rfl) (fun _ hj => .inl (List.mem_filter.mp hj).1)
        (fun _ hd _ => .inl hd) fun _ hi => hi
  | request _ _ => exact ⟨h.le, h.free, h.calls, h.unmapping⟩
  | flushed _ _ _ => exact ⟨h.le, h.free, h.calls, h.unmapping⟩
  | interrupted _ _ => exact ⟨h.le, h.free, h.calls, h.unmapping⟩
  | batchRelease _ _ => exact h.batchRelease
  | ibUnmapFmr _ => exact ⟨h.le, h.free, h.calls, h.unmapping⟩
  | splice _ =>
      refine h.of_same (fun _ => rfl) ?_ (fun _ hd _ => .inl hd) fun _ hi => by cases hi
      intro i hi
      cases List.mem_append.mp hi with
      | inl hun =>
          have hzero := h.unmapping i hun
          have hpos := pool.maxRemaps_pos
          exact .inr (by omega)
      | inr hold => exact .inl hold
  | incFlushSer _ => exact ⟨h.le, h.free, h.calls, h.unmapping⟩

theorem remaps_created (pool : Pool) : Remaps pool (State.created pool) := by
  constructor
  · intro i
    simp [State.created]
  · exact fun _ _ => pool.maxRemaps_pos
  · intro c hc
    simp [State.created] at hc
  · intro i hi
    simp [State.created] at hi

structure Kept (pool : Pool) (s : State) : Prop where
  owned : Owned pool s
  sound : Sound s
  remaps : Remaps pool s

theorem kept_created (pool : Pool) : Kept pool (State.created pool) :=
  ⟨owned_created pool, sound_created pool, remaps_created pool⟩

theorem Kept.stepped (h : Kept pool s) (hstep : Stepped pool s e s') : Kept pool s' :=
  ⟨h.owned.stepped hstep, h.sound.stepped h.owned hstep, h.remaps.stepped h.owned hstep⟩

theorem kept_of_run {ok : State → Event → Prop}
    (hrun : Run (step pool) ok (State.created pool) s) : Kept pool s :=
  pool_invariant hrun (kept_created pool) fun _ _ _ h _ hstep => h.stepped hstep

def Unmaps (s : State) : Event → Prop
  | .ibUnmapFmr done => ∀ i ∈ s.unmapList, i ∈ done
  | _ => True

structure Device (pool : Pool) (s : State) : Prop where
  maps_eq : ∀ i, i ∉ s.unmapList → s.maps i = (s.fmr i).remapCount
  maps_le : ∀ i, s.maps i ≤ pool.maxRemaps
  unmapped : s.cleaner = .unmapped → ∀ i ∈ s.unmapList, s.maps i = 0 ∧ s.mr i = none
  alive : ∀ i, s.mr i ≠ none → 0 < s.maps i

theorem Device.of_same (h : Device pool s)
    (hfmr : ∀ i, (s'.fmr i).remapCount = (s.fmr i).remapCount) (hmr : s'.mr = s.mr)
    (hmaps : s'.maps = s.maps) (hunmap : s'.unmapList = s.unmapList)
    (hcleaner : s'.cleaner = s.cleaner) : Device pool s' := by
  constructor
  · intro i hi
    rw [hmaps, hfmr]
    exact h.maps_eq i (hunmap ▸ hi)
  · rw [hmaps]
    exact h.maps_le
  · rw [hmaps, hmr, hunmap, hcleaner]
    exact h.unmapped
  · rw [hmr, hmaps]
    exact h.alive

theorem Device.mapped (h : Device pool s) (hkept : Kept pool s) {k : ℕ} {c : MapCall}
    (hc : s.calls[k]? = some c) (hstage : c.stage = .taken) : Device pool (s.mapped pool k c) := by
  have hmem : c ∈ s.calls := List.mem_of_getElem? hc
  have hnot : c.fmr ∉ s.unmapList := hkept.owned.not_unmapping (.inr (mapping_pos hmem))
  have hlt := hkept.remaps.calls c hmem (by simp [hstage])
  have heq := h.maps_eq c.fmr hnot
  have hmaps : ∀ i, (s.mapped pool k c).maps i = if i = c.fmr then s.maps i+1 else s.maps i := by
    intro i
    simp only [State.mapped, Function.update_apply]
    split_ifs with hi
    · rw [hi]
    · rfl
  have hremap : ∀ i, ((s.mapped pool k c).fmr i).remapCount =
      if i = c.fmr then (s.fmr i).remapCount+1 else (s.fmr i).remapCount := by
    intro i
    simp only [State.mapped, Function.update_apply]
    split_ifs with hi
    · rw [hi]
      unfold IbPoolFmr.remapped
      split_ifs <;> rfl
    · rfl
  constructor
  · intro i hi
    have := h.maps_eq i hi
    rw [hmaps, hremap]
    split_ifs <;> omega
  · intro i
    have := h.maps_le i
    rw [hmaps]
    split_ifs with hi
    · subst hi
      omega
    · exact this
  · intro hcl i hi
    have hne : i ≠ c.fmr := fun hic => hnot (hic ▸ hi)
    rw [hmaps, if_neg hne]
    simp only [State.mapped, Function.update_of_ne hne]
    exact h.unmapped hcl i hi
  · intro i hi
    rw [hmaps]
    split_ifs with hic
    · omega
    · simp only [State.mapped, Function.update_of_ne hic] at hi
      exact h.alive i hi

theorem Device.refused (h : Device pool s) (k : ℕ) (c : MapCall) (keeps : Bool) :
    Device pool (s.refused k c keeps) := by
  have hmr : ∀ i, (s.refused k c keeps).mr i = none ∨ (s.refused k c keeps).mr i = s.mr i := by
    intro i
    simp only [State.refused]
    split_ifs
    · exact .inr rfl
    · by_cases hi : i = c.fmr
      · exact .inl (by rw [hi, Function.update_self])
      · exact .inr (Function.update_of_ne hi _ _)
  constructor
  · exact h.maps_eq
  · exact h.maps_le
  · intro hcl i hi
    have hold := h.unmapped hcl i hi
    exact ⟨hold.1, (hmr i).elim id fun hsame => hsame.trans hold.2⟩
  · intro i hi
    cases hmr i with
    | inl hnone => exact absurd hnone hi
    | inr hsame =>
        rw [hsame] at hi
        exact h.alive i hi

theorem Device.stepped (h : Device pool s) (hkept : Kept pool s) (hok : Unmaps s e)
    (hstep : Stepped pool s e s') : Device pool s' := by
  cases hstep with
  | mapError => exact h
  | found _ => exact h.of_same (remapCount_update s.fmr _ _) rfl rfl rfl rfl
  | taken _ _ => exact h.of_same (fun _ => rfl) rfl rfl rfl rfl
  | mapped hc hstage => exact h.mapped hkept hc hstage
  | refused _ _ => exact h.refused _ _ _
  | putBack _ _ => exact h.of_same (fun _ => rfl) rfl rfl rfl rfl
  | inserted _ _ => exact h.of_same (fun _ => rfl) rfl rfl rfl rfl
  | dropped _ _ => exact h.of_same (remapCount_update s.fmr _ _) rfl rfl rfl rfl
  | freed _ _ _ => exact h.of_same (remapCount_update s.fmr _ _) rfl rfl rfl rfl
  | dirtied _ _ _ => exact h.of_same (remapCount_update s.fmr _ _) rfl rfl rfl rfl
  | flush => exact h.of_same (fun _ => rfl) rfl rfl rfl rfl
  | request _ _ => exact h.of_same (fun _ => rfl) rfl rfl rfl rfl
  | flushed _ _ _ => exact h.of_same (fun _ => rfl) rfl rfl rfl rfl
  | interrupted _ _ => exact h.of_same (fun _ => rfl) rfl rfl rfl rfl
  | batchRelease hwait _ =>
      have hempty := hkept.owned.unmapList_of_waiting hwait
      constructor
      · intro i hi
        have hclean : i ∉ s.dirtyList := hi
        have heq := h.maps_eq i (by simp [hempty])
        simp only [State.batchRelease, if_neg hclean]
        exact heq
      · exact h.maps_le
      · intro hcl
        simp only [State.batchRelease] at hcl
        split_ifs at hcl
      · exact h.alive
  | @ibUnmapFmr done _ =>
      have hdone : ∀ i ∈ s.unmapList, i ∈ s.unmapList ∧ i ∈ done := fun i hi => ⟨hi, hok i hi⟩
      constructor
      · intro i hi
        have hnot : i ∉ s.unmapList := hi
        simp only [State.ibUnmapFmr, hnot, false_and, if_false]
        exact h.maps_eq i hnot
      · intro i
        have := h.maps_le i
        simp only [State.ibUnmapFmr]
        split_ifs <;> omega
      · intro _ i hi
        simp only [State.ibUnmapFmr, if_pos (hdone i hi)]
        exact ⟨trivial, trivial⟩
      · intro i hi
        simp only [State.ibUnmapFmr] at hi ⊢
        split_ifs at hi ⊢ with hmem
        · exact absurd rfl hi
        · exact h.alive i hi
  | splice hc =>
      constructor
      · intro i _
        by_cases hi : i ∈ s.unmapList
        · have hzero := (h.unmapped hc i hi).1
          have hremap := hkept.remaps.unmapping i hi
          exact hzero.trans hremap.symm
        · exact h.maps_eq i hi
      · exact h.maps_le
      · intro hcl
        cases hcl
      · exact h.alive
  | incFlushSer _ =>
      constructor
      · exact h.maps_eq
      · exact h.maps_le
      · intro hcl
        cases hcl
      · exact h.alive

theorem device_created (pool : Pool) : Device pool (State.created pool) := by
  constructor
  · exact fun _ _ => rfl
  · exact fun _ => Nat.zero_le _
  · intro hcl
    cases hcl
  · exact fun _ hi => absurd rfl hi

theorem device_of_run (hrun : Run (step pool) Unmaps (State.created pool) s) : Device pool s := by
  have hboth := pool_invariant (I := fun s => Kept pool s ∧ Device pool s) hrun
    ⟨kept_created pool, device_created pool⟩ fun _ _ _ h hok hstep =>
      ⟨h.1.stepped hstep, h.2.stepped h.1 hok hstep⟩
  exact hboth.2

end

section Results
variable {pool : Pool} {s : State}

/-- At every moment an FMR without references is in exactly one place, on a list or in
the hands of a call or of the clean-up thread, and an FMR with references is on no list.
The reference count is the number of references that callers have, and the one that a
call is about to return. -/
theorem fmr_in_one_place (hrun : AnyRun (step pool) (State.created pool) s) {i : ℕ}
    (hi : i < pool.poolSize) :
    (s.fmr i).refCount = refs s i+returning s i ∧
      ((s.fmr i).refCount = 0 → places s i = 1) ∧
      (0 < (s.fmr i).refCount → i ∉ s.freeList ∧ i ∉ s.dirtyList ∧ i ∉ s.unmapList) ∧
      (i ∈ s.freeList → (s.fmr i).remapCount < pool.maxRemaps) := by
  have hkept := kept_of_run hrun
  have hplace := hkept.owned.place i
  rw [if_pos hi] at hplace
  have hcount := hkept.owned.refCount i
  have hret := returning_le_mapping s i
  refine ⟨hcount, ?_, ?_, hkept.remaps.free i⟩
  · intro hzero
    omega
  · intro hpos
    unfold places at hplace
    refine ⟨?_, ?_, ?_⟩ <;> exact List.count_eq_zero.mp (by omega)

/-- Two FMRs, a cache, two mappings before an FMR has to be unmapped. -/
def twoFmrs : Pool := ⟨2, 4, 2, 1, true, fun page => page % 256, Nat.two_pos⟩

/-- A region is mapped and then found in the cache by a second caller. -/
def sharedEvents : List Event :=
  [.mapPhys 0 ⟨[4096, 8192], 0⟩, .ibMapPhysFmr 0 true true, .finish 0,
    .mapPhys 1 ⟨[4096, 8192], 0⟩]

theorem shared_reached : ∃ s, AnyRun (step twoFmrs) (State.created twoFmrs) s ∧
    (s.fmr 0).refCount = 2 ∧ s.freeList = [1] ∧
      s.held = [⟨0, 0, ⟨[4096, 8192], 0⟩⟩, ⟨1, 0, ⟨[4096, 8192], 0⟩⟩] := by
  have hreach : Reaches (step twoFmrs) sharedEvents (State.created twoFmrs) (fun s =>
      decide ((s.fmr 0).refCount = 2 ∧ s.freeList = [1] ∧
        s.held = [⟨0, 0, ⟨[4096, 8192], 0⟩⟩, ⟨1, 0, ⟨[4096, 8192], 0⟩⟩])) = true := by
    decide
  obtain ⟨s, hrun, hs⟩ := anyRun_of_reaches hreach
  exact ⟨s, hrun, of_decide_eq_true hs⟩

theorem fmr_in_one_place_shared : ∃ s, AnyRun (step twoFmrs) (State.created twoFmrs) s ∧
    (s.fmr 0).refCount = 2 ∧ s.freeList = [1] ∧
      0 ∉ s.freeList ∧ 0 ∉ s.dirtyList ∧ 0 ∉ s.unmapList := by
  obtain ⟨s, hrun, href, hfree, _⟩ := shared_reached
  have hplace := fmr_in_one_place hrun (i := 0) (by decide)
  exact ⟨s, hrun, href, hfree, hplace.2.2.1 (by omega)⟩

/-- While a caller holds a reference, the FMR is mapped to what this caller asked for, and
so is every other caller's reference to the same FMR. -/
theorem held_stays_mapped (hrun : AnyRun (step pool) (State.created pool) s) {ref : Ref}
    (hr : ref ∈ s.held) :
    s.mr ref.fmr = some ref.region ∧
      ∀ ref' ∈ s.held, ref'.fmr = ref.fmr → ref'.region = ref.region := by
  have hsound := (kept_of_run hrun).sound
  have hmr := hsound.held ref hr
  refine ⟨hmr, ?_⟩
  intro ref' hr' heq
  have hmr' := hsound.held ref' hr'
  rw [heq, hmr] at hmr'
  exact (Option.some.inj hmr').symm

theorem held_stays_mapped_shared : ∃ s, AnyRun (step twoFmrs) (State.created twoFmrs) s ∧
    (s.fmr 0).refCount = 2 ∧ s.mr 0 = some ⟨[4096, 8192], 0⟩ := by
  obtain ⟨s, hrun, href, _, hheld⟩ := shared_reached
  have hr : (⟨0, 0, ⟨[4096, 8192], 0⟩⟩ : Ref) ∈ s.held := by
    rw [hheld]
    exact List.mem_cons_self
  exact ⟨s, hrun, href, (held_stays_mapped hrun hr).1⟩

/-- If `ib_unmap_fmr` never fails, the device never maps an FMR more often than the pool allows
without unmapping it in between. -/
theorem maps_le_maxRemaps (hrun : Run (step pool) Unmaps (State.created pool) s) (i : ℕ) :
    s.maps i ≤ pool.maxRemaps :=
  (device_of_run hrun).maps_le i

instance (s : State) (e : Event) : Decidable (Unmaps s e) :=
  match e with
  | .ibUnmapFmr done => inferInstanceAs (Decidable (∀ i ∈ s.unmapList, i ∈ done))
  | .mapPhys _ _ | .ibMapPhysFmr _ _ _ | .finish _ | .unmap _ | .flush | .request _
  | .flushed _ | .interrupted _ | .batchRelease | .splice | .incFlushSer => isTrue trivial

/-- An FMR is mapped twice and then has to be unmapped. -/
def wornEvents : List Event :=
  [.mapPhys 0 ⟨[4096], 0⟩, .ibMapPhysFmr 0 true true, .finish 0, .unmap 0,
    .mapPhys 0 ⟨[8192], 0⟩, .ibMapPhysFmr 0 true true, .finish 0, .unmap 0,
    .mapPhys 0 ⟨[12288], 0⟩, .ibMapPhysFmr 0 true true, .finish 0, .unmap 0]

theorem maps_le_worn : ∃ s, Run (step twoFmrs) Unmaps (State.created twoFmrs) s ∧
    s.maps 0 = 2 ∧ s.dirtyList = [0] ∧ s.maps 0 ≤ twoFmrs.maxRemaps := by
  have hreach : Reaches (guarded (step twoFmrs) Unmaps) wornEvents (State.created twoFmrs)
      (fun s => decide (s.maps 0 = 2 ∧ s.dirtyList = [0])) = true := by
    decide
  obtain ⟨s, hrun, hs⟩ := run_of_reaches hreach
  have hs := of_decide_eq_true hs
  exact ⟨s, hrun, hs.1, hs.2, maps_le_maxRemaps hrun 0⟩

end Results

end IbSrp.FmrMappings

import IbSrp.FmrMappings
import Mathlib.Data.List.Pairwise

/-!
# The cache of the FMR pool

An FMR stays in the cache after its last reference is given back, until it is needed for
another region or the clean-up thread unmaps it. Two things are expected of a cache. It
finds what it has: a region to which a cached FMR is mapped is never mapped a second
time. And it gives up what was used longest ago: released FMRs go to the end of the free
list and the first one is remapped.

FMRs also come to the front of the free list, when they have been unmapped or when the
device refused to map them. These are not in the cache. So it is the cached ones among
the free FMRs that stand in the order of their release.
-/
namespace IbSrp.FmrEviction
open LabelledRuns FmrPool FmrOwnership FmrMappings

section
variable {pool : Pool} {s s' : State} {e : Event}

def Cached (s : State) (i : ℕ) : Prop := ∃ b, i ∈ s.cacheBucket b

/-- The cached FMRs of the free list are in the order in which they were released. -/
structure Aged (s : State) : Prop where
  order : s.freeList.Pairwise fun i j => Cached s i → Cached s j → s.releasedAt i < s.releasedAt j
  past : ∀ i, s.releasedAt i < s.clock

theorem Aged.of_sublist (h : Aged s) (hfree : s'.freeList.Sublist s.freeList)
    (hcached : ∀ i ∈ s'.freeList, Cached s' i → Cached s i)
    (hreleased : s'.releasedAt = s.releasedAt) (hclock : s'.clock = s.clock) : Aged s' := by
  constructor
  · have hsub := h.order.sublist hfree
    apply hsub.imp_of_mem
    intro i j hi hj hlt hci hcj
    rw [hreleased]
    exact hlt (hcached i hi hci) (hcached j hj hcj)
  · rw [hreleased, hclock]
    exact h.past

theorem Aged.front (h : Aged s) {l : List ℕ} (hfree : s'.freeList = l++s.freeList)
    (hcached : ∀ i, Cached s' i → Cached s i ∧ i ∉ l) (hreleased : s'.releasedAt = s.releasedAt)
    (hclock : s'.clock = s.clock) : Aged s' := by
  constructor
  · rw [hfree, List.pairwise_append]
    refine ⟨?_, ?_, ?_⟩
    · apply List.pairwise_of_forall_mem_list
      intro i hi j _ hci
      exact absurd hi (hcached i hci).2
    · apply h.order.imp
      intro i j hlt hci hcj
      rw [hreleased]
      exact hlt (hcached i hci).1 (hcached j hcj).1
    · intro i hi j _ hci
      exact absurd hi (hcached i hci).2
  · rw [hreleased, hclock]
    exact h.past

theorem Aged.release (h : Aged s) {i : ℕ} (hi : i ∉ s.freeList)
    (hfree : s'.freeList = s.freeList ∨ s'.freeList = s.freeList++[i])
    (hbucket : s'.cacheBucket = s.cacheBucket)
    (hreleased : s'.releasedAt = Function.update s.releasedAt i s.clock)
    (hclock : s'.clock = s.clock+1) : Aged s' := by
  have hcached : ∀ j, Cached s' j → Cached s j := by
    unfold Cached
    rw [hbucket]
    exact fun _ hj => hj
  have hother : ∀ j ∈ s.freeList, s'.releasedAt j = s.releasedAt j := by
    intro j hj
    have hne : j ≠ i := fun hji => hi (hji ▸ hj)
    rw [hreleased, Function.update_of_ne hne]
  have hold : s.freeList.Pairwise fun i j =>
      Cached s' i → Cached s' j → s'.releasedAt i < s'.releasedAt j := by
    apply h.order.imp_of_mem
    intro j k hj hk hlt hcj hck
    rw [hother j hj, hother k hk]
    exact hlt (hcached j hcj) (hcached k hck)
  constructor
  · cases hfree with
    | inl hsame =>
        rw [hsame]
        exact hold
    | inr hend =>
        rw [hend, List.pairwise_append]
        refine ⟨hold, List.pairwise_singleton _ _, ?_⟩
        intro j hj k hk _ _
        have hki := List.mem_singleton.mp hk
        rw [hother j hj, hki, hreleased, Function.update_self]
        exact h.past j
  · intro j
    have hpast := h.past j
    rw [hreleased, hclock, Function.update_apply]
    split_ifs <;> omega

theorem Owned.not_free_of_held (h : Owned pool s) {k : ℕ} {ref : Ref}
    (hr : s.held[k]? = some ref) : ref.fmr ∉ s.freeList := by
  have hplaces := (h.refCount_of_held hr).2.2
  unfold places at hplaces
  exact List.count_eq_zero.mp (by omega)

theorem cached_inserted_of_free (howned : Owned pool s) {k : ℕ} {c : MapCall}
    (hc : s.calls[k]? = some c) {i : ℕ} (hi : i ∈ s.freeList)
    (hcached : Cached (s.inserted pool k c) i) : Cached s i := by
  obtain ⟨b, hb⟩ := hcached
  have hplaces := (howned.alone hc).2.2.1
  have hmap := (howned.alone hc).2.1
  unfold places at hplaces
  have hnot : c.fmr ∉ s.freeList := List.count_eq_zero.mp (by omega)
  have hne : i ≠ c.fmr := fun hic => hnot (hic ▸ hi)
  simp only [State.inserted, Function.update_apply] at hb
  split_ifs at hb with hbucket
  · exact ⟨_, (List.mem_cons.mp hb).resolve_left hne⟩
  · exact ⟨b, hb⟩

theorem Aged.stepped (h : Aged s) (howned : Owned pool s) (hstep : Stepped pool s e s') :
    Aged s' := by
  cases hstep with
  | mapError => exact h
  | @found holder i r _ =>
      refine h.of_sublist ?_ (fun _ _ hc => hc) rfl rfl
      simp only [State.found]
      split_ifs
      · exact List.erase_sublist
      · exact List.Sublist.refl _
  | @taken holder i rest r _ hfree =>
      refine h.of_sublist ?_ ?_ rfl rfl
      · rw [hfree]
        exact List.sublist_cons_self i rest
      · rintro j _ ⟨b, hb⟩
        exact ⟨b, (List.mem_filter.mp hb).1⟩
  | mapped _ _ => exact h.of_sublist (List.Sublist.refl _) (fun _ _ hc => hc) rfl rfl
  | refused _ _ => exact h.of_sublist (List.Sublist.refl _) (fun _ _ hc => hc) rfl rfl
  | @putBack k c hc _ =>
      refine h.front (l := [c.fmr]) rfl ?_ rfl rfl
      rintro i ⟨b, hb⟩
      have hne := howned.cached_ne hc hb
      exact ⟨⟨b, hb⟩, fun hi => hne (List.mem_singleton.mp hi)⟩
  | inserted hc _ =>
      exact h.of_sublist (List.Sublist.refl _)
        (fun _ hi hcached => cached_inserted_of_free howned hc hi hcached) rfl rfl
  | dropped _ _ => exact h.of_sublist (List.Sublist.refl _) (fun _ _ hc => hc) rfl rfl
  | freed hr _ _ =>
      exact h.release (Owned.not_free_of_held howned hr) (.inr rfl) rfl rfl rfl
  | dirtied hr _ _ =>
      exact h.release (Owned.not_free_of_held howned hr) (.inl rfl) rfl rfl rfl
  | flush => exact h.of_sublist List.filter_sublist (fun _ _ hc => hc) rfl rfl
  | request _ _ => exact ⟨h.order, h.past⟩
  | flushed _ _ _ => exact ⟨h.order, h.past⟩
  | interrupted _ _ => exact ⟨h.order, h.past⟩
  | batchRelease _ _ =>
      refine h.of_sublist (List.Sublist.refl _) ?_ rfl rfl
      rintro i _ ⟨b, hb⟩
      exact ⟨b, (List.mem_filter.mp hb).1⟩
  | ibUnmapFmr _ => exact ⟨h.order, h.past⟩
  | splice _ =>
      refine h.front (l := s.unmapList) rfl ?_ rfl rfl
      rintro i ⟨b, hb⟩
      exact ⟨⟨b, hb⟩, List.count_eq_zero.mp (howned.cached b i hb).2.1⟩
  | incFlushSer _ => exact ⟨h.order, h.past⟩

theorem aged_created (pool : Pool) : Aged (State.created pool) := by
  constructor
  · apply List.pairwise_of_forall_mem_list
    rintro i _ j _ ⟨b, hb⟩
    cases hb
  · exact fun _ => Nat.zero_lt_one

/-- If `ib_fmr_pool_map_phys` has to take a cached FMR for another region, every other
cached FMR on the free list has been released later. -/
theorem evicts_least_recently_released (hrun : AnyRun (step pool) (State.created pool) s)
    {holder i : ℕ} {r : Region} (htaken : (ibFmrPoolMapPhys pool s holder r).1 = .taken i)
    (hi : Cached s i) : ∀ j ∈ s.freeList, j ≠ i → Cached s j → s.releasedAt i < s.releasedAt j := by
  have hboth := pool_invariant (I := fun s => Kept pool s ∧ Aged s) hrun
    ⟨kept_created pool, aged_created pool⟩ fun _ _ _ h _ hstep =>
      ⟨h.1.stepped hstep, h.2.stepped h.1.owned hstep⟩
  have hfree : ∃ rest, s.freeList = i::rest := by
    have hmaps := mapsPhys pool s holder r
    generalize ibFmrPoolMapPhys pool s holder r = result at hmaps htaken
    cases hmaps with
    | @taken j rest _ hfree =>
        cases htaken
        exact ⟨rest, hfree⟩
    | einval => cases htaken
    | found _ => cases htaken
    | eagain _ => cases htaken
  obtain ⟨rest, hfree⟩ := hfree
  have horder := hboth.2.order
  rw [hfree, List.pairwise_cons] at horder
  intro j hj hne hcached
  rw [hfree] at hj
  exact horder.1 j ((List.mem_cons.mp hj).resolve_left hne) hi hcached

/-- Two regions are mapped one after the other and stay in the cache. -/
theorem two_cached : ∃ s, AnyRun (step twoFmrs) (State.created twoFmrs) s ∧
    s.freeList = [0, 1] ∧ 0 ∈ s.cacheBucket 0 ∧ 1 ∈ s.cacheBucket 0 ∧
      s.mr 1 = some ⟨[8192], 0⟩ ∧ (ibFmrPoolMapPhys twoFmrs s 0 ⟨[12288], 0⟩).1 = .taken 0 := by
  have hreach : Reaches (step twoFmrs)
      [.mapPhys 0 ⟨[4096], 0⟩, .ibMapPhysFmr 0 true true, .finish 0, .unmap 0,
        .mapPhys 0 ⟨[8192], 0⟩, .ibMapPhysFmr 0 true true, .finish 0, .unmap 0]
      (State.created twoFmrs) (fun s => decide (s.freeList = [0, 1] ∧ 0 ∈ s.cacheBucket 0 ∧
        1 ∈ s.cacheBucket 0 ∧ s.mr 1 = some ⟨[8192], 0⟩ ∧
          (ibFmrPoolMapPhys twoFmrs s 0 ⟨[12288], 0⟩).1 = .taken 0)) = true := by
    decide
  obtain ⟨s, hrun, hs⟩ := anyRun_of_reaches hreach
  exact ⟨s, hrun, of_decide_eq_true hs⟩

theorem evicts_first_of_two : ∃ s, AnyRun (step twoFmrs) (State.created twoFmrs) s ∧
    (ibFmrPoolMapPhys twoFmrs s 0 ⟨[12288], 0⟩).1 = .taken 0 ∧ Cached s 0 ∧ Cached s 1 ∧
      s.releasedAt 0 < s.releasedAt 1 := by
  obtain ⟨s, hrun, hfree, h0, h1, _, htaken⟩ := two_cached
  exact ⟨s, hrun, htaken, ⟨0, h0⟩, ⟨0, h1⟩, evicts_least_recently_released hrun htaken ⟨0, h0⟩ 1
    (by simp [hfree]) (by decide) ⟨0, h1⟩⟩

/-- The pages an FMR records: some, not more than allowed, and all of them there. -/
def Filled (pool : Pool) (f : IbPoolFmr) : Prop :=
  0 < f.pageListLen ∧ f.pageListLen ≤ pool.maxPages ∧ f.pageListLen ≤ f.pageList.length

/-- Every cached FMR is in the bucket of its first page. -/
structure Filed (pool : Pool) (s : State) : Prop where
  bucket : ∀ b, ∀ i ∈ s.cacheBucket b,
    b = pool.ibFmrHash ((s.fmr i).pageList.headD 0) ∧ Filled pool (s.fmr i)
  calls : ∀ c ∈ s.calls, 0 < c.region.pageList.length ∧ c.region.pageList.length ≤ pool.maxPages
  mapped : ∀ c ∈ s.calls, c.stage = .mapped → Filled pool (s.fmr c.fmr)

def SamePages (f g : IbPoolFmr) : Prop := f.pageListLen = g.pageListLen ∧ f.pageList = g.pageList

theorem SamePages.filled {f g : IbPoolFmr} (h : SamePages f g) (hf : Filled pool g) :
    Filled pool f := by
  unfold Filled
  rw [h.1, h.2]
  exact hf

theorem samePages_update (fmr : ℕ → IbPoolFmr) (i n j : ℕ) :
    SamePages (Function.update fmr i { fmr i with refCount := n } j) (fmr j) := by
  by_cases hij : j = i
  · subst hij
    simp [SamePages]
  · rw [Function.update_of_ne hij]
    exact ⟨rfl, rfl⟩

/-- Nothing is added to the cache and no page list changes. -/
theorem Filed.of_same (h : Filed pool s) (hfmr : ∀ i, SamePages (s'.fmr i) (s.fmr i))
    (hbucket : ∀ b, ∀ i ∈ s'.cacheBucket b, i ∈ s.cacheBucket b)
    (hcalls : ∀ c ∈ s'.calls,
      (0 < c.region.pageList.length ∧ c.region.pageList.length ≤ pool.maxPages) ∧
        (c.stage = .mapped → c ∈ s.calls)) : Filed pool s' := by
  constructor
  · intro b i hi
    have hold := h.bucket b i (hbucket b i hi)
    rw [(hfmr i).2]
    exact ⟨hold.1, (hfmr i).filled hold.2⟩
  · exact fun c hc => (hcalls c hc).1
  · exact fun c hc hstage => (hfmr c.fmr).filled (h.mapped c ((hcalls c hc).2 hstage) hstage)

theorem Filed.mapped_stepped (h : Filed pool s) (howned : Owned pool s) {k : ℕ} {c : MapCall}
    (hc : s.calls[k]? = some c) : Filed pool (s.mapped pool k c) := by
  have hother : ∀ i, i ≠ c.fmr → (s.mapped pool k c).fmr i = s.fmr i := fun i hi =>
    Function.update_of_ne hi _ _
  have hlen := h.calls c (List.mem_of_getElem? hc)
  constructor
  · intro b i hi
    rw [hother i (howned.cached_ne hc hi)]
    exact h.bucket b i hi
  · intro d hd
    cases List.mem_append.mp hd with
    | inl hold => exact h.calls d (List.mem_of_mem_eraseIdx hold)
    | inr hnew =>
        split_ifs at hnew
        · cases List.mem_singleton.mp hnew
          exact hlen
        · cases hnew
  · intro d hd hstage
    cases List.mem_append.mp hd with
    | inl hold =>
        rw [hother _ (howned.call_ne hc hold)]
        exact h.mapped d (List.mem_of_mem_eraseIdx hold) hstage
    | inr hnew =>
        split_ifs at hnew with hcache
        · cases List.mem_singleton.mp hnew
          simp only [State.mapped, Function.update_self, hcache, IbPoolFmr.remapped, Filled]
          exact ⟨hlen.1, hlen.2, by simp⟩
        · cases hnew

theorem Filed.inserted (h : Filed pool s) {k : ℕ} {c : MapCall} (hc : s.calls[k]? = some c)
    (hstage : c.stage = .mapped) : Filed pool (s.inserted pool k c) := by
  constructor
  · intro b i hi
    simp only [State.inserted, Function.update_apply] at hi
    split_ifs at hi with hb
    · cases List.mem_cons.mp hi with
      | inl heq =>
          rw [heq]
          exact ⟨hb, h.mapped c (List.mem_of_getElem? hc) hstage⟩
      | inr hold =>
          rw [← hb] at hold
          exact h.bucket b i hold
    · exact h.bucket b i hi
  · exact fun d hd => h.calls d (List.mem_of_mem_eraseIdx hd)
  · exact fun d hd hd' => h.mapped d (List.mem_of_mem_eraseIdx hd) hd'

theorem Filed.stepped (h : Filed pool s) (howned : Owned pool s) (hstep : Stepped pool s e s') :
    Filed pool s' := by
  have hsame : ∀ i, SamePages (s.fmr i) (s.fmr i) := fun _ => ⟨rfl, rfl⟩
  have hcalls : ∀ c ∈ s.calls,
      (0 < c.region.pageList.length ∧ c.region.pageList.length ≤ pool.maxPages) ∧
        (c.stage = .mapped → c ∈ s.calls) := fun c hc => ⟨h.calls c hc, fun _ => hc⟩
  cases hstep with
  | mapError => exact h
  | found _ => exact h.of_same (samePages_update s.fmr _ _) (fun _ _ hi => hi) hcalls
  | taken hlen _ =>
      refine h.of_same hsame (fun _ _ hi => (List.mem_filter.mp hi).1) ?_
      intro c hc
      cases List.mem_append.mp hc with
      | inl hold => exact hcalls c hold
      | inr hnew =>
          cases List.mem_singleton.mp hnew
          exact ⟨hlen, fun hstage => by cases hstage⟩
  | mapped hc _ => exact h.mapped_stepped howned hc
  | @refused k keeps c hc _ =>
      refine h.of_same hsame (fun _ _ hi => hi) ?_
      intro d hd
      cases List.mem_append.mp hd with
      | inl hold => exact hcalls d (List.mem_of_mem_eraseIdx hold)
      | inr hnew =>
          cases List.mem_singleton.mp hnew
          exact ⟨h.calls c (List.mem_of_getElem? hc), fun hstage => by cases hstage⟩
  | putBack _ _ =>
      exact h.of_same hsame (fun _ _ hi => hi) fun d hd => hcalls d (List.mem_of_mem_eraseIdx hd)
  | inserted hc hstage => exact h.inserted hc hstage
  | dropped _ _ => exact h.of_same (samePages_update s.fmr _ _) (fun _ _ hi => hi) hcalls
  | freed _ _ _ => exact h.of_same (samePages_update s.fmr _ _) (fun _ _ hi => hi) hcalls
  | dirtied _ _ _ => exact h.of_same (samePages_update s.fmr _ _) (fun _ _ hi => hi) hcalls
  | flush => exact ⟨h.bucket, h.calls, h.mapped⟩
  | request _ _ => exact ⟨h.bucket, h.calls, h.mapped⟩
  | flushed _ _ _ => exact ⟨h.bucket, h.calls, h.mapped⟩
  | interrupted _ _ => exact ⟨h.bucket, h.calls, h.mapped⟩
  | batchRelease _ _ =>
      refine h.of_same ?_ (fun _ _ hi => (List.mem_filter.mp hi).1) hcalls
      intro i
      simp only [State.batchRelease, SamePages]
      split_ifs <;> exact ⟨rfl, rfl⟩
  | ibUnmapFmr _ => exact ⟨h.bucket, h.calls, h.mapped⟩
  | splice _ => exact ⟨h.bucket, h.calls, h.mapped⟩
  | incFlushSer _ => exact ⟨h.bucket, h.calls, h.mapped⟩

theorem filed_created (pool : Pool) : Filed pool (State.created pool) := by
  constructor
  · intro b i hi
    cases hi
  · intro c hc
    cases hc
  · intro c hc
    cases hc

/-- A filled FMR agrees with the region it records, and its bucket is that of the region. -/
theorem agrees_recorded {f : IbPoolFmr} (h : Filled pool f) :
    f.agrees (recorded f) = true ∧ (recorded f).pageList.headD 0 = f.pageList.headD 0 ∧
      (recorded f).pageList.length = f.pageListLen := by
  have hlen : (f.pageList.take f.pageListLen).length = f.pageListLen := by
    rw [List.length_take]
    exact Nat.min_eq_left h.2.2
  refine ⟨?_, ?_, hlen⟩
  · simp [IbPoolFmr.agrees, recorded, Nat.min_eq_left h.2.2]
  · cases hp : f.pageList with
    | nil => simp [recorded, hp]
    | cons page pages =>
        cases hl : f.pageListLen with
        | zero => exact absurd h.1 (by simp [hl])
        | succ n => simp [recorded, hp, hl]

theorem Filed.lookup (h : Filed pool s) (hsound : Sound s) (hcache : pool.cache = true) {i : ℕ}
    {r : Region} (hi : Cached s i) (hmr : s.mr i = some r) :
    ∃ j, ibFmrCacheLookup pool s r = some j ∧ s.mr j = some r := by
  obtain ⟨b, hb⟩ := hi
  have hfiled := h.bucket b i hb
  have hagrees := agrees_recorded hfiled.2
  have hr : recorded (s.fmr i) = r := Option.some.inj ((hsound.cached b i hb).symm.trans hmr)
  rw [hr] at hagrees
  have hsome : (ibFmrCacheLookup pool s r).isSome = true := by
    unfold ibFmrCacheLookup
    rw [if_pos hcache, List.find?_isSome]
    refine ⟨i, ?_, hagrees.1⟩
    rw [hagrees.2.1, ← hfiled.1]
    exact hb
  obtain ⟨j, hj⟩ := Option.isSome_iff_exists.mp hsome
  obtain ⟨b', hb', hj'⟩ := mem_of_lookup hj
  refine ⟨j, hj, ?_⟩
  rw [← recorded_of_agrees hj']
  exact hsound.cached b' j hb'

/-- While an FMR that is mapped to a region is in the cache, `ib_fmr_pool_map_phys` answers
a request for this region without the device. -/
theorem cached_region_is_found (hrun : AnyRun (step pool) (State.created pool) s)
    (hcache : pool.cache = true) (holder : ℕ) {i : ℕ} {r : Region} (hi : Cached s i)
    (hmr : s.mr i = some r) :
    ∃ j, (ibFmrPoolMapPhys pool s holder r).1 = .found j ∧ s.mr j = some r := by
  have hboth := pool_invariant (I := fun s => Kept pool s ∧ Filed pool s) hrun
    ⟨kept_created pool, filed_created pool⟩ fun _ _ _ h _ hstep =>
      ⟨h.1.stepped hstep, h.2.stepped h.1.owned hstep⟩
  obtain ⟨j, hj, hmr'⟩ := hboth.2.lookup hboth.1.sound hcache hi hmr
  refine ⟨j, ?_, hmr'⟩
  obtain ⟨b, hb⟩ := hi
  have hfilled := (hboth.2.bucket b i hb).2
  have hr : recorded (s.fmr i) = r :=
    Option.some.inj ((hboth.1.sound.cached b i hb).symm.trans hmr)
  have hlen : r.pageList.length = (s.fmr i).pageListLen := hr ▸ (agrees_recorded hfilled).2.2
  unfold Filled at hfilled
  unfold ibFmrPoolMapPhys
  rw [if_neg (by omega), hj]

theorem cached_region_is_found_again : ∃ s j, AnyRun (step twoFmrs) (State.created twoFmrs) s ∧
    Cached s 1 ∧
      (ibFmrPoolMapPhys twoFmrs s 0 ⟨[8192], 0⟩).1 = .found j ∧ s.mr j = some ⟨[8192], 0⟩ := by
  obtain ⟨s, hrun, _, _, h1, hmr, _⟩ := two_cached
  obtain ⟨j, hfound, hmr'⟩ := cached_region_is_found hrun rfl 0 ⟨0, h1⟩ hmr
  exact ⟨s, j, hrun, ⟨0, h1⟩, hfound, hmr'⟩

end

end IbSrp.FmrEviction

import IbSrp.FmrPool
import Mathlib.Data.List.Count
import Mathlib.Data.List.Perm.Basic

/-!
# Where an FMR is, and what it is mapped to

The comment at the head of `fmr_pool.c` says that an FMR with references is on neither
list and that one without references is on one of them. Between the sections of a call
there are two more places: an FMR can be in the hands of a call that is mapping it, or
of the clean-up thread that is unmapping it. An FMR is in exactly one place, once, and
its reference count is the number of references that callers have.
-/
namespace IbSrp.FmrOwnership
open LabelledRuns FmrPool

section
variable {pool : Pool} {s s' : State} {e : Event}

/-- The number of calls that are mapping FMR `i`. -/
def mapping (s : State) (i : ℕ) : ℕ := s.calls.countP fun c => c.fmr == i

/-- Those of them for which the device has mapped it. -/
def returning (s : State) (i : ℕ) : ℕ :=
  s.calls.countP fun c => c.fmr == i && c.stage == .mapped

/-- How often FMR `i` is on a list or in the hands of a call. -/
def places (s : State) (i : ℕ) : ℕ :=
  s.freeList.count i+s.dirtyList.count i+s.unmapList.count i+mapping s i

def refs (s : State) (i : ℕ) : ℕ := s.held.countP fun ref => ref.fmr == i

structure Owned (pool : Pool) (s : State) : Prop where
  place : ∀ i, places s i+min 1 (refs s i) = if i < pool.poolSize then 1 else 0
  refCount : ∀ i, (s.fmr i).refCount = refs s i+returning s i
  cached : ∀ b, ∀ i ∈ s.cacheBucket b,
    i < pool.poolSize ∧ s.unmapList.count i = 0 ∧ mapping s i = 0
  unmapping : s.unmapList ≠ [] → s.cleaner = .releasing ∨ s.cleaner = .unmapped

theorem Owned.le_one (h : Owned pool s) (i : ℕ) : places s i+min 1 (refs s i) ≤ 1 := by
  rw [h.place i]
  split_ifs <;> omega

theorem Owned.unmapList_of_waiting (h : Owned pool s) (hwait : s.cleaner = .waiting) :
    s.unmapList = [] := by
  by_contra hne
  cases h.unmapping hne with
  | inl hc => simp [hc] at hwait
  | inr hc => simp [hc] at hwait

theorem returning_le_mapping (s : State) (i : ℕ) : returning s i ≤ mapping s i := by
  apply List.countP_mono_left
  intro c _ hc
  simp only [Bool.and_eq_true] at hc
  exact hc.1

theorem mem_of_lookup {r : Region} {i : ℕ} (h : ibFmrCacheLookup pool s r = some i) :
    ∃ b, i ∈ s.cacheBucket b ∧ (s.fmr i).agrees r = true := by
  unfold ibFmrCacheLookup at h
  split_ifs at h
  have hagrees := List.find?_some h
  exact ⟨_, List.mem_of_find?_eq_some h, hagrees⟩

/-- The reference count of a cached FMR is the number of its users. -/
theorem Owned.cached_refCount (h : Owned pool s) {b i : ℕ} (hb : i ∈ s.cacheBucket b) :
    (s.fmr i).refCount = refs s i := by
  have hc := h.cached b i hb
  have hr := returning_le_mapping s i
  have hcount := h.refCount i
  omega

theorem refs_found (s : State) (holder i : ℕ) (r : Region) (j : ℕ) :
    refs (s.found holder i r) j = refs s j+(if i = j then 1 else 0) := by
  simp [refs, State.found, List.countP_append, List.countP_cons]

theorem places_found (s : State) (holder i : ℕ) (r : Region) (j : ℕ) :
    places (s.found holder i r) j =
      if i = j ∧ (s.fmr i).refCount = 0 then
        s.freeList.count j-1+(s.dirtyList.count j-1)+s.unmapList.count j+mapping s j
      else places s j := by
  by_cases hij : i = j
  · subst hij
    by_cases href : (s.fmr i).refCount = 0
    · simp [places, mapping, State.found, href]
    · simp [places, mapping, State.found, href]
  · by_cases href : (s.fmr i).refCount = 0
    · simp [places, mapping, State.found, href, hij, List.count_erase]
    · simp [places, mapping, State.found, href, hij]

theorem place_found (h : Owned pool s) {holder i : ℕ} {r : Region}
    (hi : ibFmrCacheLookup pool s r = some i) (j : ℕ) :
    places (s.found holder i r) j+min 1 (refs (s.found holder i r) j) =
      places s j+min 1 (refs s j) := by
  obtain ⟨b, hb, _⟩ := mem_of_lookup hi
  have hcached := h.cached b i hb
  have hcount := h.cached_refCount hb
  have hplace := h.place i
  rw [if_pos hcached.1] at hplace
  rw [refs_found, places_found]
  by_cases hij : i = j
  · subst hij
    unfold places at hplace ⊢
    split_ifs with h0
    · omega
    · simp only [true_and] at h0
      omega
    · omega
    · omega
  · simp [hij]

theorem mapping_eraseIdx {k : ℕ} {c : MapCall} (hc : s.calls[k]? = some c) (j : ℕ) :
    mapping s j = (s.calls.eraseIdx k).countP (fun c => c.fmr == j)+
      (if c.fmr = j then 1 else 0) := by
  have h := countP_eraseIdx hc fun c => c.fmr == j
  simpa [mapping] using h

theorem refs_eraseIdx {k : ℕ} {ref : Ref} (hr : s.held[k]? = some ref) (j : ℕ) :
    refs s j = (s.held.eraseIdx k).countP (fun ref => ref.fmr == j)+
      (if ref.fmr = j then 1 else 0) := by
  have h := countP_eraseIdx hr fun ref => ref.fmr == j
  simpa [refs] using h

theorem places_take {holder i : ℕ} {rest : List ℕ} {r : Region} (hfree : s.freeList = i::rest)
    (j : ℕ) : places (s.take holder i rest r) j = places s j := by
  simp only [places, mapping, State.take, State.hlistDelInit, hfree, List.countP_append,
    List.countP_cons, List.countP_nil, List.count_cons]
  omega

theorem place_returned (s' : State) (h : Owned pool s) {k : ℕ} {c : MapCall}
    (hc : s.calls[k]? = some c) (hcalls : s'.calls = s.calls.eraseIdx k)
    (hheld : s'.held = s.held++[⟨c.holder, c.fmr, c.region⟩])
    (hfree : s'.freeList = s.freeList) (hdirty : s'.dirtyList = s.dirtyList)
    (hunmap : s'.unmapList = s.unmapList) (j : ℕ) :
    places s' j+min 1 (refs s' j) = places s j+min 1 (refs s j) := by
  have hle := h.le_one j
  have hmap := mapping_eraseIdx hc j
  have hmap' : mapping s' j = (s.calls.eraseIdx k).countP (fun c => c.fmr == j) := by
    simp [mapping, hcalls]
  have hrefs' : refs s' j = refs s j+(if c.fmr = j then 1 else 0) := by
    simp [refs, hheld, List.countP_append, List.countP_cons]
  unfold places at hle ⊢
  rw [hfree, hdirty, hunmap, hmap', hrefs']
  split_ifs at hmap ⊢ <;> omega

theorem places_restaged (s' : State) {k : ℕ} {c : MapCall} {stage : Stage}
    (hc : s.calls[k]? = some c)
    (hcalls : s'.calls = s.calls.eraseIdx k++[{ c with stage := stage }])
    (hfree : s'.freeList = s.freeList) (hdirty : s'.dirtyList = s.dirtyList)
    (hunmap : s'.unmapList = s.unmapList) (j : ℕ) : places s' j = places s j := by
  have hmap : mapping s' j = mapping s j := by
    rw [mapping_eraseIdx hc]
    simp [mapping, hcalls, List.countP_append, List.countP_cons]
  unfold places
  rw [hfree, hdirty, hunmap, hmap]

theorem places_putBack {k : ℕ} {c : MapCall} (hc : s.calls[k]? = some c) (j : ℕ) :
    places (s.putBack k c) j = places s j := by
  have hmap := mapping_eraseIdx hc j
  simp only [places, State.putBack, List.count_cons, hmap]
  simp only [mapping, beq_iff_eq]
  omega

/-- The user of a reference: its FMR is in no other place. -/
theorem Owned.refCount_of_held (h : Owned pool s) {k : ℕ} {ref : Ref}
    (hr : s.held[k]? = some ref) :
    (s.fmr ref.fmr).refCount = refs s ref.fmr ∧ 0 < refs s ref.fmr ∧ places s ref.fmr = 0 := by
  have hpos := refs_eraseIdx hr ref.fmr
  rw [if_pos rfl] at hpos
  have hle := h.le_one ref.fmr
  have hret := returning_le_mapping s ref.fmr
  have hcount := h.refCount ref.fmr
  have hmap : mapping s ref.fmr ≤ places s ref.fmr := Nat.le_add_left _ _
  omega

theorem places_dropped (s : State) (k : ℕ) (ref : Ref) (j : ℕ) :
    places (s.dropped k ref) j = places s j := rfl

theorem place_dropped (h : Owned pool s) {k : ℕ} {ref : Ref} (hr : s.held[k]? = some ref)
    (href : (s.fmr ref.fmr).refCount-1 ≠ 0) (j : ℕ) :
    places (s.dropped k ref) j+min 1 (refs (s.dropped k ref) j) =
      places s j+min 1 (refs s j) := by
  have huser := h.refCount_of_held hr
  have hrefs := refs_eraseIdx hr j
  have hrefs' : refs (s.dropped k ref) j =
      (s.held.eraseIdx k).countP fun ref => ref.fmr == j := rfl
  rw [places_dropped, hrefs']
  by_cases hj : ref.fmr = j
  · subst hj
    rw [if_pos rfl] at hrefs
    omega
  · rw [if_neg hj] at hrefs
    omega

/-- The last user gives its reference back, and the FMR goes to the end of a list. -/
theorem place_released (s' : State) (h : Owned pool s) {k : ℕ} {ref : Ref}
    (hr : s.held[k]? = some ref) (href : (s.fmr ref.fmr).refCount-1 = 0)
    (hheld : s'.held = s.held.eraseIdx k)
    (hplaces : ∀ j, places s' j = places s j+(if ref.fmr = j then 1 else 0)) (j : ℕ) :
    places s' j+min 1 (refs s' j) = places s j+min 1 (refs s j) := by
  have huser := h.refCount_of_held hr
  have hrefs := refs_eraseIdx hr j
  have hrefs' : refs s' j = (s.held.eraseIdx k).countP fun ref => ref.fmr == j := by
    simp [refs, hheld]
  rw [hplaces, hrefs']
  by_cases hj : ref.fmr = j
  · subst hj
    rw [if_pos rfl] at hrefs ⊢
    omega
  · rw [if_neg hj] at hrefs ⊢
    omega

theorem places_listAddFree (s : State) (i j : ℕ) :
    places (s.listAddFree i) j = places s j+(if i = j then 1 else 0) := by
  simp only [places, mapping, State.listAddFree, List.count_append, List.count_singleton,
    beq_iff_eq]
  omega

theorem places_listAddDirty (s : State) (pool : Pool) (i j : ℕ) :
    places (s.listAddDirty pool i) j = places s j+(if i = j then 1 else 0) := by
  simp only [places, mapping, State.listAddDirty, List.count_append, List.count_singleton,
    beq_iff_eq]
  omega

theorem places_flush (s : State) (j : ℕ) : places s.flush j = places s j := by
  have hperm := List.filter_append_perm (fun i => decide ((s.fmr i).remapCount = 0)) s.freeList
  have hcount := hperm.count_eq j
  have hpos : (fun i => !decide ((s.fmr i).remapCount = 0)) =
      fun i => decide (0 < (s.fmr i).remapCount) := by
    funext i
    simp [Nat.pos_iff_ne_zero]
  rw [List.count_append, hpos] at hcount
  simp only [places, mapping, State.flush, List.count_append, List.count_reverse]
  omega

theorem place_stepped (h : Owned pool s) (hstep : Stepped pool s e s') (j : ℕ) :
    places s' j+min 1 (refs s' j) = places s j+min 1 (refs s j) := by
  cases hstep with
  | mapError => rfl
  | found hi => exact place_found h hi j
  | taken _ hfree => rw [places_take hfree]; rfl
  | @mapped k _ c hc _ =>
      cases hcache : pool.cache with
      | true =>
          have hcalls : (s.mapped pool k c).calls =
              s.calls.eraseIdx k++[{ c with stage := .mapped }] := by
            simp [State.mapped, hcache]
          have hrefs : refs (s.mapped pool k c) j = refs s j := by
            simp [refs, State.mapped, hcache]
          rw [places_restaged _ hc hcalls rfl rfl rfl, hrefs]
      | false =>
          exact place_returned (s.mapped pool k c) h hc (by simp [State.mapped, hcache])
            (by simp [State.mapped, hcache]) rfl rfl rfl j
  | refused hc _ => rw [places_restaged (s.refused _ _ _) hc rfl rfl rfl rfl]; rfl
  | putBack hc _ => rw [places_putBack hc]; rfl
  | inserted hc _ => exact place_returned (s.inserted pool _ _) h hc rfl rfl rfl rfl rfl j
  | @dropped k ref hr href => exact place_dropped h hr href j
  | @freed k ref hr href _ =>
      exact place_released ((s.dropped k ref).listAddFree ref.fmr) h hr href rfl
        (places_listAddFree (s.dropped k ref) ref.fmr) j
  | @dirtied k ref hr href _ =>
      exact place_released ((s.dropped k ref).listAddDirty pool ref.fmr) h hr href rfl
        (places_listAddDirty (s.dropped k ref) pool ref.fmr) j
  | flush => rw [places_flush]; rfl
  | request _ _ => rfl
  | flushed _ _ _ => rfl
  | interrupted _ _ => rfl
  | batchRelease hwait _ =>
      have hempty := h.unmapList_of_waiting hwait
      have hplaces : places s.batchRelease j = places s j := by
        simp only [places, mapping, State.batchRelease, hempty, List.count_nil]
        omega
      rw [hplaces]
      rfl
  | ibUnmapFmr _ => rfl
  | splice _ =>
      have hplaces : places s.splice j = places s j := by
        simp only [places, mapping, State.splice, List.count_append, List.count_nil]
        omega
      rw [hplaces]
      rfl
  | incFlushSer _ => rfl

theorem returning_eraseIdx {k : ℕ} {c : MapCall} (hc : s.calls[k]? = some c) (j : ℕ) :
    returning s j = (s.calls.eraseIdx k).countP (fun c => c.fmr == j && c.stage == .mapped)+
      (if c.fmr = j ∧ c.stage = .mapped then 1 else 0) := by
  have h := countP_eraseIdx hc fun c => c.fmr == j && c.stage == .mapped
  simpa [returning] using h

theorem Owned.alone (h : Owned pool s) {k : ℕ} {c : MapCall} (hc : s.calls[k]? = some c) :
    refs s c.fmr = 0 ∧ mapping s c.fmr = 1 ∧ places s c.fmr = 1 ∧ c.fmr < pool.poolSize ∧
      (s.calls.eraseIdx k).countP (fun d => d.fmr == c.fmr) = 0 := by
  have hmap := mapping_eraseIdx hc c.fmr
  rw [if_pos rfl] at hmap
  have hplace := h.place c.fmr
  have hle : mapping s c.fmr ≤ places s c.fmr := Nat.le_add_left _ _
  split_ifs at hplace with hsize
  · exact ⟨by omega, by omega, by omega, hsize, by omega⟩
  · omega

/-- No other call has mapped the FMR of a call. -/
theorem Owned.alone_returning (h : Owned pool s) {k : ℕ} {c : MapCall}
    (hc : s.calls[k]? = some c) :
    (s.calls.eraseIdx k).countP (fun d => d.fmr == c.fmr && d.stage == .mapped) = 0 := by
  have hle : (s.calls.eraseIdx k).countP (fun d => d.fmr == c.fmr && d.stage == .mapped) ≤
      (s.calls.eraseIdx k).countP (fun d => d.fmr == c.fmr) := by
    apply List.countP_mono_left
    intro d _ hd
    simp only [Bool.and_eq_true] at hd
    exact hd.1
  have := (h.alone hc).2.2.2.2
  omega

theorem refCount_mapped (h : Owned pool s) {k : ℕ} {c : MapCall} (hc : s.calls[k]? = some c)
    (hstage : c.stage = .taken) (j : ℕ) :
    ((s.mapped pool k c).fmr j).refCount =
      refs (s.mapped pool k c) j+returning (s.mapped pool k c) j := by
  have hret := returning_eraseIdx hc j
  rw [if_neg (by simp [hstage])] at hret
  by_cases hj : c.fmr = j
  · subst hj
    have hone := h.alone hc
    have hnone := h.alone_returning hc
    have hrefs : s.held.countP (fun ref => ref.fmr == c.fmr) = 0 := hone.1
    cases hcache : pool.cache <;>
      simp [State.mapped, hcache, refs, returning, IbPoolFmr.remapped, List.countP_append,
        hrefs, hnone]
  · have hfmr : (s.mapped pool k c).fmr j = s.fmr j :=
      Function.update_of_ne (fun hjc => hj hjc.symm) _ _
    have hcount := h.refCount j
    rw [hfmr, hcount, hret]
    cases hcache : pool.cache <;>
      simp [State.mapped, hcache, refs, returning, List.countP_append, hj]

theorem refCount_dropped (h : Owned pool s) {k : ℕ} {ref : Ref} (hr : s.held[k]? = some ref)
    (j : ℕ) : ((s.dropped k ref).fmr j).refCount =
      refs (s.dropped k ref) j+returning (s.dropped k ref) j := by
  have huser := h.refCount_of_held hr
  have hrefs := refs_eraseIdx hr j
  have hcount := h.refCount j
  have hrefs' : refs (s.dropped k ref) j =
      (s.held.eraseIdx k).countP fun ref => ref.fmr == j := rfl
  have hret' : returning (s.dropped k ref) j = returning s j := rfl
  rw [hrefs', hret']
  by_cases hj : ref.fmr = j
  · subst hj
    rw [if_pos rfl] at hrefs
    simp only [State.dropped, Function.update_self]
    omega
  · rw [if_neg hj] at hrefs
    simp only [State.dropped, Function.update_of_ne (fun hjc => hj (Eq.symm hjc))]
    omega

theorem refCount_stepped (h : Owned pool s) (hstep : Stepped pool s e s') (j : ℕ) :
    (s'.fmr j).refCount = refs s' j+returning s' j := by
  have hcount := h.refCount j
  cases hstep with
  | mapError => exact hcount
  | @found holder i r _ =>
      have hret : returning (s.found holder i r) j = returning s j := rfl
      rw [refs_found, hret]
      by_cases hij : i = j
      · subst hij
        simp only [State.found, Function.update_self, if_true]
        omega
      · simp only [State.found, Function.update_of_ne (fun hji => hij (Eq.symm hji)), hij, if_false]
        omega
  | @taken holder i rest r _ _ =>
      have hret : returning (s.take holder i rest r) j = returning s j := by
        simp [returning, State.take, List.countP_append]
      rw [hret]
      exact hcount
  | mapped hc hstage => exact refCount_mapped h hc hstage j
  | @refused k keeps c hc hstage =>
      have hret : returning (s.refused k c keeps) j = returning s j := by
        rw [returning_eraseIdx hc]
        simp [returning, State.refused, List.countP_append, hstage]
      rw [hret]
      exact hcount
  | @putBack k c hc hstage =>
      have hret : returning (s.putBack k c) j = returning s j := by
        rw [returning_eraseIdx hc]
        simp [returning, State.putBack, hstage]
      rw [hret]
      exact hcount
  | @inserted k c hc hstage =>
      have hret := returning_eraseIdx hc j
      have hret' : returning (s.inserted pool k c) j =
          (s.calls.eraseIdx k).countP fun c => c.fmr == j && c.stage == .mapped := rfl
      have hrefs' : refs (s.inserted pool k c) j = refs s j+(if c.fmr = j then 1 else 0) := by
        simp [refs, State.inserted, List.countP_append, List.countP_cons]
      have hfmr : (s.inserted pool k c).fmr = s.fmr := rfl
      simp only [hstage, and_true] at hret
      rw [hret', hrefs', hfmr]
      omega
  | dropped hr _ => exact refCount_dropped h hr j
  | freed hr _ _ => exact refCount_dropped h hr j
  | dirtied hr _ _ => exact refCount_dropped h hr j
  | flush => exact hcount
  | request _ _ => exact hcount
  | flushed _ _ _ => exact hcount
  | interrupted _ _ => exact hcount
  | batchRelease _ _ =>
      have hfmr : (s.batchRelease.fmr j).refCount = (s.fmr j).refCount := by
        simp only [State.batchRelease]
        split_ifs <;> rfl
      rw [hfmr]
      exact hcount
  | ibUnmapFmr _ => exact hcount
  | splice _ => exact hcount
  | incFlushSer _ => exact hcount

theorem cached_of_le (h : Owned pool s) (hbucket : ∀ b, ∀ i ∈ s'.cacheBucket b,
      i ∈ s.cacheBucket b ∧ s'.unmapList.count i ≤ s.unmapList.count i ∧
        mapping s' i ≤ mapping s i) :
    ∀ b, ∀ i ∈ s'.cacheBucket b,
      i < pool.poolSize ∧ s'.unmapList.count i = 0 ∧ mapping s' i = 0 := by
  intro b i hi
  have hold := hbucket b i hi
  have hcached := h.cached b i hold.1
  exact ⟨hcached.1, by omega, by omega⟩

theorem mapping_eraseIdx_le {k : ℕ} {c : MapCall} (hc : s.calls[k]? = some c) (j : ℕ) :
    (s.calls.eraseIdx k).countP (fun c => c.fmr == j) ≤ mapping s j := by
  have := mapping_eraseIdx hc j
  omega

theorem cached_inserted (h : Owned pool s) {k : ℕ} {c : MapCall} (hc : s.calls[k]? = some c)
    (b i : ℕ) (hi : i ∈ (s.inserted pool k c).cacheBucket b) :
    i < pool.poolSize ∧ (s.inserted pool k c).unmapList.count i = 0 ∧
      mapping (s.inserted pool k c) i = 0 := by
  have hmap : mapping (s.inserted pool k c) i =
      (s.calls.eraseIdx k).countP fun c => c.fmr == i := rfl
  have hunmap : (s.inserted pool k c).unmapList = s.unmapList := rfl
  have hone := h.alone hc
  have hle := mapping_eraseIdx_le hc i
  by_cases hci : i = c.fmr
  · subst hci
    have hplaces := hone.2.2.1
    unfold places at hplaces
    rw [hmap, hunmap]
    exact ⟨hone.2.2.2.1, by omega, hone.2.2.2.2⟩
  · have hold : i ∈ s.cacheBucket b := by
      simp only [State.inserted, Function.update_apply] at hi
      split_ifs at hi with hb
      · rw [hb]
        exact (List.mem_cons.mp hi).resolve_left hci
      · exact hi
    have hcached := h.cached b i hold
    rw [hmap, hunmap]
    exact ⟨hcached.1, hcached.2.1, by omega⟩

theorem cached_stepped (h : Owned pool s) (hstep : Stepped pool s e s') :
    ∀ b, ∀ i ∈ s'.cacheBucket b,
      i < pool.poolSize ∧ s'.unmapList.count i = 0 ∧ mapping s' i = 0 := by
  cases hstep with
  | mapError => exact h.cached
  | found _ => exact h.cached
  | @taken holder j rest r _ _ =>
      apply cached_of_le h
      intro b i hi
      have hmem := List.mem_filter.mp hi
      have hne : j ≠ i := by
        have := of_decide_eq_true hmem.2
        exact fun hji => this hji.symm
      exact ⟨hmem.1, Nat.le_refl _, by simp [mapping, State.take, List.countP_append, hne]⟩
  | @mapped k _ c hc _ =>
      apply cached_of_le h
      intro b i hi
      refine ⟨hi, Nat.le_refl _, ?_⟩
      have hmap := mapping_eraseIdx hc i
      cases hcache : pool.cache <;>
        simp [mapping, State.mapped, hcache, List.countP_append, List.countP_cons] at hmap ⊢ <;>
        omega
  | @refused k keeps c hc _ =>
      apply cached_of_le h
      intro b i hi
      have hmap := mapping_eraseIdx hc i
      refine ⟨hi, Nat.le_refl _, ?_⟩
      simp [mapping, State.refused, List.countP_append, List.countP_cons] at hmap ⊢
      omega
  | putBack hc _ =>
      exact cached_of_le h fun b i hi => ⟨hi, Nat.le_refl _, mapping_eraseIdx_le hc i⟩
  | inserted hc _ => exact cached_inserted h hc
  | dropped _ _ => exact h.cached
  | freed _ _ _ => exact h.cached
  | dirtied _ _ _ => exact h.cached
  | flush => exact h.cached
  | request _ _ => exact h.cached
  | flushed _ _ _ => exact h.cached
  | interrupted _ _ => exact h.cached
  | batchRelease _ _ =>
      intro b i hi
      have hmem := List.mem_filter.mp hi
      have hcached := h.cached b i hmem.1
      exact ⟨hcached.1, List.count_eq_zero.mpr (of_decide_eq_true hmem.2), hcached.2.2⟩
  | ibUnmapFmr _ => exact h.cached
  | splice _ => exact fun b i hi => ⟨(h.cached b i hi).1, rfl, (h.cached b i hi).2.2⟩
  | incFlushSer _ => exact h.cached

theorem unmapping_stepped (h : Owned pool s) (hstep : Stepped pool s e s')
    (hne : s'.unmapList ≠ []) : s'.cleaner = .releasing ∨ s'.cleaner = .unmapped := by
  cases hstep with
  | mapError => exact h.unmapping hne
  | found _ => exact h.unmapping hne
  | taken _ _ => exact h.unmapping hne
  | mapped _ _ => exact h.unmapping hne
  | refused _ _ => exact h.unmapping hne
  | putBack _ _ => exact h.unmapping hne
  | inserted _ _ => exact h.unmapping hne
  | dropped _ _ => exact h.unmapping hne
  | freed _ _ _ => exact h.unmapping hne
  | dirtied _ _ _ => exact h.unmapping hne
  | flush => exact h.unmapping hne
  | request _ _ => exact h.unmapping hne
  | flushed _ _ _ => exact h.unmapping hne
  | interrupted _ _ => exact h.unmapping hne
  | batchRelease _ _ =>
      have hdirty : s.dirtyList ≠ [] := hne
      exact .inl (if_neg hdirty)
  | ibUnmapFmr _ => exact .inr rfl
  | splice _ => exact absurd rfl hne
  | incFlushSer hc =>
      cases h.unmapping hne with
      | inl hr => simp [hr] at hc
      | inr hu => simp [hu] at hc

theorem Owned.stepped (h : Owned pool s) (hstep : Stepped pool s e s') : Owned pool s' where
  place := fun i => (place_stepped h hstep i).trans (h.place i)
  refCount := refCount_stepped h hstep
  cached := cached_stepped h hstep
  unmapping := unmapping_stepped h hstep

theorem owned_created (pool : Pool) : Owned pool (State.created pool) where
  place := by
    intro i
    have hcount : (List.range pool.poolSize).count i = if i < pool.poolSize then 1 else 0 := by
      rw [List.nodup_range.count]
      simp
    simp [places, refs, mapping, State.created, hcount]
  refCount := by
    intro i
    simp [refs, returning, State.created]
  cached := by
    intro b i hi
    simp [State.created] at hi
  unmapping := by
    intro hne
    simp [State.created] at hne

theorem refs_pos {ref : Ref} (hr : ref ∈ s.held) : 0 < refs s ref.fmr :=
  List.countP_pos_iff.mpr ⟨ref, hr, by simp⟩

theorem mapping_pos {c : MapCall} (hc : c ∈ s.calls) : 0 < mapping s c.fmr :=
  List.countP_pos_iff.mpr ⟨c, hc, by simp⟩

theorem Owned.held_ne (h : Owned pool s) {k : ℕ} {c : MapCall} (hc : s.calls[k]? = some c)
    {ref : Ref} (hr : ref ∈ s.held) : ref.fmr ≠ c.fmr := by
  intro heq
  have hpos := refs_pos hr
  have hone := h.alone hc
  rw [heq] at hpos
  omega

theorem Owned.cached_ne (h : Owned pool s) {k : ℕ} {c : MapCall} (hc : s.calls[k]? = some c)
    {b i : ℕ} (hi : i ∈ s.cacheBucket b) : i ≠ c.fmr := by
  intro heq
  have hone := h.alone hc
  have hcached := h.cached b i hi
  rw [heq] at hcached
  omega

theorem Owned.call_ne (h : Owned pool s) {k : ℕ} {c d : MapCall} (hc : s.calls[k]? = some c)
    (hd : d ∈ s.calls.eraseIdx k) : d.fmr ≠ c.fmr := by
  intro heq
  have hone := (h.alone hc).2.2.2.2
  have hpos : 0 < (s.calls.eraseIdx k).countP fun d => d.fmr == c.fmr :=
    List.countP_pos_iff.mpr ⟨d, hd, by simp [heq]⟩
  omega

/-- The clean-up thread has no FMR in its hands that is in use or being mapped. -/
theorem Owned.not_unmapping (h : Owned pool s) {i : ℕ} (hi : 0 < refs s i ∨ 0 < mapping s i) :
    i ∉ s.unmapList := by
  intro hmem
  have hpos := List.count_pos_iff.mpr hmem
  have hle := h.le_one i
  unfold places at hle
  omega

end

end IbSrp.FmrOwnership

import IbSrp.FmrMappings
import IbSrp.MappingResults

/-!
# Commands that are mapped through the FMR pool

`srp_map_sg` describes a scatter/gather list by descriptors whose keys stand for FMRs,
and idealizes a key as the page list it was registered with. What a key means is decided
by the device at the time the target uses it: by then the pool may have served many other
commands. The two views agree as long as the command keeps its references, and
`srp_unmap_data` gives them back only when the command is over.

The pool may do anything else while the list is being mapped and afterwards. `Serves` is
all that is asked of the calls of `ib_fmr_pool_map_phys`.
-/
namespace IbSrp.FmrCommands
open LabelledRuns PagedBytes MemoryRegistration MappingCoverage MappingResults
open FmrPool FmrOwnership FmrMappings

def heldBy (holder : ℕ) (s : State) : List Ref := s.held.filter fun ref => ref.holder = holder

/-- No event gives a reference of this command back. -/
def Keeps (holder : ℕ) (s : State) : Event → Prop
  | .unmap k => ∀ ref ∈ s.held[k]?, ref.holder ≠ holder
  | _ => True

section
variable {pool : Pool} {holder : ℕ} {s s' : State} {e : Event}

theorem mem_held_stepped {ref : Ref} (hr : ref ∈ s.held) (hholder : ref.holder = holder)
    (hok : Keeps holder s e) (hstep : Stepped pool s e s') : ref ∈ s'.held := by
  have hkept : ∀ {k : ℕ} {ref' : Ref}, s.held[k]? = some ref' → Keeps holder s (.unmap k) →
      ref ∈ s.held.eraseIdx k := by
    intro k ref' hk hok
    cases List.mem_cons.mp ((perm_eraseIdx hk).mem_iff.mp hr) with
    | inl heq => exact absurd (heq ▸ hholder) (hok ref' hk)
    | inr hrest => exact hrest
  cases hstep with
  | mapError => exact hr
  | found _ => exact List.mem_append_left _ hr
  | taken _ _ => exact hr
  | mapped _ _ => exact List.mem_append_left _ hr
  | refused _ _ => exact hr
  | putBack _ _ => exact hr
  | inserted _ _ => exact List.mem_append_left _ hr
  | dropped hk _ => exact hkept hk hok
  | freed hk _ _ => exact hkept hk hok
  | dirtied hk _ _ => exact hkept hk hok
  | flush => exact hr
  | request _ _ => exact hr
  | flushed _ _ _ => exact hr
  | interrupted _ _ => exact hr
  | batchRelease _ _ => exact hr
  | ibUnmapFmr _ => exact hr
  | splice _ => exact hr
  | incFlushSer _ => exact hr

theorem mem_held_of_run {ref : Ref} (hrun : Run (step pool) (Keeps holder) s s')
    (hr : ref ∈ s.held) (hholder : ref.holder = holder) : ref ∈ s'.held :=
  pool_invariant hrun hr fun _ _ _ hr hok hstep => mem_held_stepped hr hholder hok hstep

end

/-- A call of `ib_fmr_pool_map_phys` for a command is a run of the pool, with whatever
else happens meanwhile. If it returns an FMR, the command has one more reference, to the
pages it asked for at address 0. -/
structure Serves (pool : Pool) (holder : ℕ) (ops : MrOps State ℕ) : Prop where
  run : ∀ s pages, Run (step pool) (Keeps holder) s (ops.ibFmrPoolMapPhys s pages).2
  some : ∀ s pages i, (ops.ibFmrPoolMapPhys s pages).1 = some i →
    heldBy holder (ops.ibFmrPoolMapPhys s pages).2 =
      heldBy holder s++[⟨holder, i, ⟨pages, 0⟩⟩]
  none : ∀ s pages, (ops.ibFmrPoolMapPhys s pages).1 = none →
    heldBy holder (ops.ibFmrPoolMapPhys s pages).2 = heldBy holder s

section
variable {σ D : Type} {dev : SrpDevice} {registerAlways : Bool} {ops : MrOps σ D}
  {I : MapState D → σ → Prop}

/-- A property that every elementary operation of the mapping loop keeps. -/
structure Stable (dev : SrpDevice) (registerAlways : Bool) (ops : MrOps σ D)
    (I : MapState D → σ → Prop) : Prop where
  start : ∀ {st ch} sg i a, I st ch → I (srpMapUpdateStart st sg i a) ch
  page : ∀ {st ch} a l, I st ch → I (srpMapPage dev st a l) ch
  direct : ∀ {st ch} a l, I st ch → I (srpMapDesc st a l .target) ch
  finish : ∀ {st ch}, I st ch → I (srpFinishMapping dev registerAlways ops st ch).state
    (srpFinishMapping dev registerAlways ops st ch).ch

theorem Stable.srpMapPageStart (h : Stable dev registerAlways ops I) (sg : Sg) (i a : ℕ)
    {st : MapState D} {ch : σ} (hI : I st ch) :
    I (srpMapPageStart dev registerAlways ops sg i a st ch).state
      (srpMapPageStart dev registerAlways ops sg i a st ch).ch := by
  unfold MemoryRegistration.srpMapPageStart
  simp only
  split_ifs
  · exact h.start _ _ _ (h.finish hI)
  · exact h.finish hI
  · exact hI

theorem Stable.srpMapPages (h : Stable dev registerAlways ops I) (sg : Sg) (i fuel : ℕ) :
    ∀ (a l len : ℕ) {st : MapState D} {ch : σ}, I st ch →
      I (srpMapPages dev registerAlways ops sg i fuel a l len st ch).1.state
        (srpMapPages dev registerAlways ops sg i fuel a l len st ch).1.ch := by
  induction fuel with
  | zero => exact fun _ _ _ _ _ hI => hI
  | succ fuel ih =>
      intro a l len st ch hI
      simp only [MemoryRegistration.srpMapPages]
      split_ifs
      · exact hI
      · exact ih _ _ _ (h.page _ _ (h.srpMapPageStart sg i a hI))
      · exact h.srpMapPageStart sg i a hI

theorem Stable.srpMapSgEntry (h : Stable dev registerAlways ops I) (useMr : Bool) (sg : Sg)
    (i : ℕ) {st : MapState D} {ch : σ} (hI : I st ch) :
    I (srpMapSgEntry dev registerAlways ops useMr sg i st ch).state
      (srpMapSgEntry dev registerAlways ops useMr sg i st ch).ch := by
  have hstart : I (if st.unmappedSg = none then srpMapUpdateStart st (some sg) i sg.dmaAddress
      else st) ch := by
    split_ifs
    · exact h.start _ _ _ hI
    · exact hI
  unfold MemoryRegistration.srpMapSgEntry
  simp only
  generalize (if st.unmappedSg = none then srpMapUpdateStart st (some sg) i sg.dmaAddress
    else st) = st₁ at hstart ⊢
  have hpages := h.srpMapPages sg i sg.dmaLen sg.dmaAddress sg.dmaLen 0 hstart
  split_ifs
  · exact hI
  · exact h.direct _ _ hI
  · exact h.start _ _ _ (h.direct _ _ (h.finish hI))
  · exact h.finish hI
  · exact h.start _ _ _ (h.finish hpages)
  · exact h.finish hpages
  · exact hpages
  · exact hpages

theorem Stable.forEachSg (h : Stable dev registerAlways ops I) (useMr : Bool) (scat : List Sg) :
    ∀ (i : ℕ) {st : MapState D} {ch : σ}, I st ch →
      I (forEachSg dev registerAlways ops useMr scat i st ch).state
        (forEachSg dev registerAlways ops useMr scat i st ch).ch := by
  induction scat with
  | nil => exact fun _ _ _ hI => hI
  | cons sg scat ih =>
      intro i st ch hI
      have hentry := h.srpMapSgEntry useMr sg i hI
      simp only [MemoryRegistration.forEachSg]
      split_ifs
      · exact ih (i+1) hentry
      · exact hentry

theorem Stable.srpMapBacktrack (h : Stable dev registerAlways ops I) {scat : List Sg}
    {st st' : MapState D} {ch ch' : σ} (hI : I st ch)
    (hmap : srpMapBacktrack dev registerAlways ops scat st ch = some (st', ch')) : I st' ch' := by
  unfold MemoryRegistration.srpMapBacktrack at hmap
  cases hsg : st.unmappedSg with
  | none => simp [hsg] at hmap
  | some sg =>
      simp only [hsg, Option.some.injEq, Prod.mk.injEq] at hmap
      rw [← hmap.1, ← hmap.2]
      exact h.forEachSg false _ _ (h.direct _ _ hI)

theorem Stable.srpMapSg (h : Stable dev registerAlways ops I) {useMr : Bool} {scat : List Sg}
    {st' : MapState D} {ch ch' : σ} (hI : I {} ch)
    (hmap : srpMapSg dev registerAlways useMr ops scat ch = some (st', ch')) : I st' ch' := by
  have heach := h.forEachSg useMr scat 0 hI
  unfold MemoryRegistration.srpMapSg at hmap
  simp only at hmap
  split_ifs at hmap
  · simp only [Option.some.injEq, Prod.mk.injEq] at hmap
    rw [← hmap.1, ← hmap.2]
    exact h.finish heach
  · exact h.srpMapBacktrack (h.finish heach) hmap
  · simp only [Option.some.injEq, Prod.mk.injEq] at hmap
    rw [← hmap.1, ← hmap.2]
    exact heach
  · exact h.srpMapBacktrack heach hmap

end

section
variable {pool : Pool} {holder : ℕ} {ops : MrOps State ℕ} {dev : SrpDevice}
  {registerAlways : Bool} {s s' : State}

/-- The bytes the device reaches through a descriptor, by what its FMR is mapped to now. -/
def reached (dev : SrpDevice) (s : State) (d : SrpDirectBuf ℕ) : List ℕ :=
  match d.key with
  | .target => contiguous (2^64) d.va d.len
  | .fr _ _ _ => []
  | .fmr i _ =>
      match s.mr i with
      | some r => paged dev.mrPageSize r.pageList (d.va-r.ioVirtualAddress) d.len
      | none => []

/-- A descriptor is by address, or by an FMR to which the command has a reference. -/
def Backed (holder : ℕ) (s : State) : Rkey ℕ → Prop
  | .target => True
  | .fr _ _ _ => False
  | .fmr i pages => ⟨holder, i, ⟨pages, 0⟩⟩ ∈ s.held

/-- What has been mapped so far. -/
structure Holding (holder : ℕ) (st : MapState ℕ) (s : State) : Prop where
  refs : (heldBy holder s).map Ref.fmr = st.mrList
  backed : ∀ d ∈ st.desc, Backed holder s d.key

theorem Backed.of_run {key : Rkey ℕ} (h : Backed holder s key)
    (hrun : Run (step pool) (Keeps holder) s s') : Backed holder s' key := by
  cases key with
  | target => trivial
  | fr _ _ _ => exact h
  | fmr i pages => exact mem_held_of_run hrun h rfl

theorem attempt_fmr (ops : MrOps State ℕ) (hfmr : dev.useFastReg = false) (s : State)
    (pages : List ℕ) :
    (attempt ops dev.useFastReg s pages).2 = ops.ibFmrPoolMapPhys s pages := by
  unfold attempt
  rw [hfmr]
  cases hmap : ops.ibFmrPoolMapPhys s pages with
  | mk d s' => cases d <;> simp

theorem mem_of_heldBy {ref : Ref} (h : ref ∈ heldBy holder s) : ref ∈ s.held :=
  (List.mem_filter.mp h).1

theorem Holding.registered (hserves : Serves pool holder ops) {st : MapState ℕ} {i : ℕ}
    {buf : SrpDirectBuf ℕ} (hkey : buf.key = .fmr i st.pages) (h : Holding holder st s)
    (hmap : ops.ibFmrPoolMapPhys s st.pages = (some i, s')) :
    Holding holder (closeRegion st buf (some i)) s' := by
  have hrun := hserves.run s st.pages
  have hsome := hserves.some s st.pages i (congrArg Prod.fst hmap)
  rw [hmap] at hrun hsome
  constructor
  · rw [hsome, List.map_append, h.refs]
    rfl
  · intro d hd
    cases List.mem_append.mp hd with
    | inl hold => exact (h.backed d hold).of_run hrun
    | inr hnew =>
        cases List.mem_singleton.mp hnew
        have hmem : (⟨holder, i, ⟨st.pages, 0⟩⟩ : Ref) ∈ heldBy holder s' := by
          rw [hsome]
          exact List.mem_append_right _ (List.mem_singleton.mpr rfl)
        change Backed holder s' buf.key
        rw [hkey]
        exact mem_of_heldBy hmem

theorem Holding.finish (hserves : Serves pool holder ops) (hfmr : dev.useFastReg = false)
    {st : MapState ℕ} (h : Holding holder st s) :
    Holding holder (srpFinishMapping dev registerAlways ops st s).state
      (srpFinishMapping dev registerAlways ops st s).ch := by
  have hfinish := srpFinishMapping_finish dev registerAlways ops st s
  have hattempt := attempt_fmr ops hfmr s st.pages
  generalize srpFinishMapping dev registerAlways ops st s = r at hfinish
  cases hfinish with
  | empty _ => exact h
  | direct _ _ =>
      constructor
      · simpa [closeRegion, emit, srpMapDesc] using h.refs
      · intro d hd
        cases List.mem_append.mp hd with
        | inl hold => exact h.backed d hold
        | inr hnew =>
            cases List.mem_singleton.mp hnew
            trivial
  | @registered i ch' _ ha =>
      rw [ha] at hattempt
      exact h.registered hserves (by simp [regionBuf, hfmr]) hattempt.symm
  | @unavailable ch' _ ha =>
      rw [ha] at hattempt
      have hrun := hserves.run s st.pages
      have hnone := hserves.none s st.pages (congrArg Prod.fst hattempt.symm)
      rw [← hattempt] at hrun hnone
      constructor
      · rw [hnone]
        exact h.refs
      · exact fun d hd => (h.backed d hd).of_run hrun
  | postFailed _ hfast _ => simp [hfmr] at hfast

theorem stable_holding (registerAlways : Bool) (hserves : Serves pool holder ops)
    (hfmr : dev.useFastReg = false) :
    Stable dev registerAlways ops (Holding holder) where
  start := fun _ _ _ h => ⟨h.refs, h.backed⟩
  page := fun _ _ h => ⟨h.refs, h.backed⟩
  direct := by
    intro st ch a l h
    refine ⟨h.refs, fun d hd => ?_⟩
    cases List.mem_append.mp hd with
    | inl hold => exact h.backed d hold
    | inr hnew =>
        cases List.mem_singleton.mp hnew
        trivial
  finish := fun h => h.finish hserves hfmr

/-- Through a descriptor that is backed the device reaches what the descriptor stands for. -/
theorem reached_of_backed (hsound : Sound s) {d : SrpDirectBuf ℕ} (h : Backed holder s d.key) :
    reached dev s d = d.bytes dev := by
  unfold reached SrpDirectBuf.bytes
  cases hkey : d.key with
  | target => rfl
  | fr _ _ _ =>
      rw [hkey] at h
      exact h.elim
  | fmr i pages =>
      rw [hkey] at h
      have hmr := hsound.held _ h
      simp [hmr]

/-- From the time `srp_map_sg` has mapped a command until the command gives its references
back, the device reaches exactly the bytes of the scatter/gather list through the
descriptors, in order, whatever the pool does for others and whichever requests for an FMR
failed. The FMRs of the command are the ones it has to give back. -/
theorem command_reaches_its_memory (hserves : Serves pool holder ops)
    (hfmr : dev.useFastReg = false) (useMr : Bool)
    (hrun : AnyRun (step pool) (State.created pool) s) (hnew : heldBy holder s = [])
    {scat : List Sg} (hlt : sgLen scat < 2^32) :
    ∃ st s₁, srpMapSg dev registerAlways useMr ops scat s = some (st, s₁) ∧
      (heldBy holder s₁).map Ref.fmr = st.mrList ∧
      ∀ s₂, Run (step pool) (Keeps holder) s₁ s₂ →
        st.desc.flatMap (reached dev s₂) = sgBytes scat := by
  obtain ⟨⟨st, s₁⟩, hmap, hresult, _⟩ :=
    srpMapSg_spec dev registerAlways useMr ops s hlt
  have hcovers : descBytes dev st = sgBytes scat := by
    cases hresult with
    | complete hc _ => exact hc.bytes
    | unavailable hc _ _ => exact hc.bytes
    | postFailed hfast _ _ _ _ _ _ => simp [hfmr] at hfast
  have hholding : Holding holder st s₁ := by
    apply (stable_holding registerAlways hserves hfmr).srpMapSg _ hmap
    exact ⟨by simp [hnew], by simp⟩
  have hmapping : Run (step pool) (Keeps holder) s s₁ := by
    refine mapResult_relates (R := Run (step pool) (Keeps holder)) (fun _ => .start)
      (fun _ _ _ h h' => h.append h') ?_ hresult
    rintro ch pages o rfl
    rw [attempt_fmr ops hfmr]
    exact hserves.run ch pages
  refine ⟨st, s₁, hmap, hholding.refs, ?_⟩
  intro s₂ hafter
  have hall : AnyRun (step pool) (State.created pool) s₂ :=
    hrun.append ((hmapping.append hafter).mono fun _ _ _ => trivial)
  have hsound := (kept_of_run hall).sound
  rw [← hcovers, descBytes]
  apply List.flatMap_congr
  intro d hd
  exact reached_of_backed hsound ((hholding.backed d hd).of_run hafter)

/-- A call of `ib_fmr_pool_map_phys` during which nothing else happens and the device
does not fail. -/
def mapAlone (pool : Pool) (holder : ℕ) (s : State) (pages : List ℕ) : Option ℕ × State :=
  match ibFmrPoolMapPhys pool s holder ⟨pages, 0⟩ with
  | (.found i, s₁) => (some i, s₁)
  | (.taken i, s₁) =>
      let s₂ := s₁.mapped pool s.calls.length ⟨holder, i, ⟨pages, 0⟩, .taken⟩
      (some i,
        if pool.cache then s₂.inserted pool s.calls.length ⟨holder, i, ⟨pages, 0⟩, .mapped⟩
        else s₂)
  | (.einval, s₁) => (none, s₁)
  | (.eagain, s₁) => (none, s₁)

def aloneOps (pool : Pool) (holder : ℕ) : MrOps State ℕ where
  srpFrPoolGet := fun s => (none, s)
  ibPostSend := fun s _ => (false, s)
  ibFmrPoolMapPhys := mapAlone pool holder

theorem eraseIdx_length_append {α : Type} (l : List α) (a : α) :
    (l++[a]).eraseIdx l.length = l := by
  rw [List.eraseIdx_append_of_length_le (Nat.le_refl _)]
  simp

theorem heldBy_append_self (s : State) (i : ℕ) (r : FmrPool.Region) :
    (s.held++[(⟨holder, i, r⟩ : Ref)]).filter (fun ref => ref.holder = holder) =
      heldBy holder s++[⟨holder, i, r⟩] := by
  simp [heldBy, List.filter_append]

/-- What a call does that finds the pool to itself. -/
inductive MapsAlone (pool : Pool) (holder : ℕ) (s : State) (pages : List ℕ) :
    Option ℕ × State → Prop
  | refused {s' : State} : Run (step pool) (Keeps holder) s s' → s'.held = s.held →
      MapsAlone pool holder s pages (none, s')
  | served {s' : State} {i : ℕ} : Run (step pool) (Keeps holder) s s' →
      s'.held = s.held++[⟨holder, i, ⟨pages, 0⟩⟩] → MapsAlone pool holder s pages (some i, s')

theorem mapsAlone_taken {i : ℕ} {rest : List ℕ} {pages : List ℕ}
    (hfirst : Run (step pool) (Keeps holder) s (s.take holder i rest ⟨pages, 0⟩)) :
    MapsAlone pool holder s pages (some i,
      let s₂ := (s.take holder i rest ⟨pages, 0⟩).mapped pool s.calls.length
        ⟨holder, i, ⟨pages, 0⟩, .taken⟩
      if pool.cache then s₂.inserted pool s.calls.length ⟨holder, i, ⟨pages, 0⟩, .mapped⟩
      else s₂) := by
  have hcall : (s.take holder i rest ⟨pages, 0⟩).calls[s.calls.length]? =
      some ⟨holder, i, ⟨pages, 0⟩, .taken⟩ := by
    simp [State.take]
  have hmapped : step pool (s.take holder i rest ⟨pages, 0⟩)
      (.ibMapPhysFmr s.calls.length true true) =
      some ((s.take holder i rest ⟨pages, 0⟩).mapped pool s.calls.length
        ⟨holder, i, ⟨pages, 0⟩, .taken⟩) := by
    simp [step, hcall]
  have hrun := Run.more (e := Event.ibMapPhysFmr s.calls.length true true) hfirst trivial hmapped
  cases hcache : pool.cache with
  | false => exact .served hrun (by simp [State.mapped, State.take, State.hlistDelInit, hcache])
  | true =>
      have hcalls : ((s.take holder i rest ⟨pages, 0⟩).mapped pool s.calls.length
          ⟨holder, i, ⟨pages, 0⟩, .taken⟩).calls =
            s.calls++[⟨holder, i, ⟨pages, 0⟩, .mapped⟩] := by
        simp only [State.mapped, State.take, hcache, if_true, eraseIdx_length_append]
      have hinserted : step pool ((s.take holder i rest ⟨pages, 0⟩).mapped pool s.calls.length
          ⟨holder, i, ⟨pages, 0⟩, .taken⟩) (.finish s.calls.length) =
          some (((s.take holder i rest ⟨pages, 0⟩).mapped pool s.calls.length
            ⟨holder, i, ⟨pages, 0⟩, .taken⟩).inserted pool s.calls.length
              ⟨holder, i, ⟨pages, 0⟩, .mapped⟩) := by
        simp [step, hcalls]
      refine .served (Run.more (e := Event.finish s.calls.length) hrun trivial hinserted) ?_
      simp [State.inserted, State.mapped, State.take, State.hlistDelInit, hcache]

theorem mapsAlone (pool : Pool) (holder : ℕ) (s : State) (pages : List ℕ) :
    MapsAlone pool holder s pages (mapAlone pool holder s pages) := by
  have hstep : step pool s (.mapPhys holder ⟨pages, 0⟩) =
      some (ibFmrPoolMapPhys pool s holder ⟨pages, 0⟩).2 := rfl
  have hrun : Run (step pool) (Keeps holder) s (ibFmrPoolMapPhys pool s holder ⟨pages, 0⟩).2 :=
    Run.start.more (e := .mapPhys holder ⟨pages, 0⟩) trivial hstep
  have hmaps := mapsPhys pool s holder ⟨pages, 0⟩
  unfold mapAlone
  generalize ibFmrPoolMapPhys pool s holder ⟨pages, 0⟩ = result at hrun hmaps ⊢
  cases hmaps with
  | einval => exact .refused hrun rfl
  | found _ => exact .served hrun rfl
  | eagain _ => exact .refused hrun rfl
  | taken _ _ => exact mapsAlone_taken hrun

theorem serves_alone (pool : Pool) (holder : ℕ) : Serves pool holder (aloneOps pool holder) := by
  constructor
  · intro s pages
    change Run (step pool) (Keeps holder) s (mapAlone pool holder s pages).2
    have h := mapsAlone pool holder s pages
    generalize mapAlone pool holder s pages = r at h
    cases h with
    | refused hrun _ => exact hrun
    | served hrun _ => exact hrun
  · intro s pages i hi
    change (mapAlone pool holder s pages).1 = some i at hi
    change heldBy holder (mapAlone pool holder s pages).2 = _
    have h := mapsAlone pool holder s pages
    generalize mapAlone pool holder s pages = r at h hi ⊢
    cases h with
    | refused _ _ => cases hi
    | served _ hheld =>
        cases hi
        unfold heldBy
        rw [hheld, heldBy_append_self]
        rfl
  · intro s pages hnone
    change (mapAlone pool holder s pages).1 = none at hnone
    change heldBy holder (mapAlone pool holder s pages).2 = _
    have h := mapsAlone pool holder s pages
    generalize mapAlone pool holder s pages = r at h hnone ⊢
    cases h with
    | refused _ hheld =>
        unfold heldBy
        rw [hheld]
    | served _ _ => cases hnone

def fmrDevice : SrpDevice := { twoPageDevice with useFastReg := false }

def twoPages : Sg := .of 4096 8192

theorem command_reaches_two_pages : ∃ st s₁,
    srpMapSg fmrDevice true true (aloneOps twoFmrs 7) [twoPages] (State.created twoFmrs) =
        some (st, s₁) ∧
      (heldBy 7 s₁).map Ref.fmr = st.mrList ∧
      ∀ s₂, Run (step twoFmrs) (Keeps 7) s₁ s₂ →
        st.desc.flatMap (reached fmrDevice s₂) = sgBytes [twoPages] :=
  command_reaches_its_memory (serves_alone twoFmrs 7) rfl true .start rfl (by decide)

end

end IbSrp.FmrCommands

import IbSrp.FmrMappings
import Mathlib.Data.List.Basic
import Mathlib.Data.List.Perm.Subperm

/-!
# Flushing the pool, and why it does not run dry

`ib_flush_fmr_pool` moves the used FMRs of the free list to the dirty list, takes a
serial number and waits until the clean-up thread has counted up to it. A round of the
thread may be under way when it does, with FMRs it has collected before. This round
counts for an earlier serial number: the number of rounds finished and under way never
exceeds the number of rounds requested. So the round the call waits for begins after
the call has moved the FMRs. The serial numbers can be told apart only as long as fewer than
`2^31` rounds are outstanding, which `FewRounds` says.

The same serial numbers keep the pool from running dry. An FMR on the dirty list has
been counted in `dirty_len` or was put there by a flush. From the watermark on a round
is requested, and a round that begins empties the list.
-/
namespace IbSrp.FmrFlush
open LabelledRuns FmrPool FmrOwnership FmrMappings

section
variable {pool : Pool} {s s' : State} {e : Event}

/-- One while a round of the clean-up thread is under way. -/
def busy (s : State) : ℕ := if s.cleaner = .waiting then 0 else 1

/-- The 32-bit serial numbers are in order: fewer than `2^31` rounds are outstanding. -/
def FewRounds (s : State) : Prop := s.reqSer < s.flushSer+2^31

/-- A round that has not begun is requested. -/
def Requested (s : State) : Prop := s.flushSer+busy s < s.reqSer

theorem busy_of_waiting (h : s.cleaner = .waiting) : busy s = 0 := if_pos h

theorem busy_of_ne (h : s.cleaner ≠ .waiting) : busy s = 1 := if_neg h

/-- FMR `i` is still to be unmapped, in a round that is counted before `serial` is
reached. -/
inductive Due (s : State) (serial : Option ℕ) (i : ℕ) : Prop
  | dirty : i ∈ s.dirtyList → (∀ n ∈ serial, s.flushSer+busy s < n) → Due s serial i
  | unmapping : i ∈ s.unmapList → s.cleaner = .releasing → (∀ n ∈ serial, s.flushSer < n) →
      Due s serial i

structure Barrier (s : State) : Prop where
  rounds : s.flushSer+busy s ≤ s.reqSer
  serials : ∀ f ∈ s.flushes, ∀ n ∈ f.serial, n ≤ s.reqSer
  past : ∀ f ∈ s.flushes, ∀ p ∈ f.stale, p.2 ≤ s.turns p.1
  due : ∀ f ∈ s.flushes, ∀ p ∈ f.stale, p.2 < s.turns p.1 ∨ Due s f.serial p.1

/-- A step of a caller: it may request a round, and an FMR leaves the dirty list only if
it is handed out. -/
theorem Barrier.caller (h : Barrier s) (hserial : s.reqSer ≤ s'.reqSer)
    (hflushSer : s'.flushSer = s.flushSer) (hcleaner : s'.cleaner = s.cleaner)
    (hunmap : s'.unmapList = s.unmapList) (hturns : ∀ i, s.turns i ≤ s'.turns i)
    (hdirty : ∀ i ∈ s.dirtyList, i ∈ s'.dirtyList ∨ s.turns i < s'.turns i)
    (hflushes : ∀ f ∈ s'.flushes, f ∈ s.flushes) : Barrier s' := by
  have hbusy : busy s' = busy s := by
    unfold busy
    rw [hcleaner]
  have hrounds := h.rounds
  constructor
  · rw [hflushSer, hbusy]
    omega
  · exact fun f hf n hn => Nat.le_trans (h.serials f (hflushes f hf) n hn) hserial
  · exact fun f hf p hp => Nat.le_trans (h.past f (hflushes f hf) p hp) (hturns p.1)
  · intro f hf p hp
    have hpast := h.past f (hflushes f hf) p hp
    have hmono := hturns p.1
    cases h.due f (hflushes f hf) p hp with
    | inl hlt => exact .inl (by omega)
    | inr hdue =>
        cases hdue with
        | dirty hi hn =>
            cases hdirty p.1 hi with
            | inl hi' => exact .inr (.dirty hi' (by rw [hflushSer, hbusy]; exact hn))
            | inr hlt => exact .inl (by omega)
        | unmapping hi hc hn =>
            exact .inr (.unmapping (hunmap ▸ hi) (hcleaner.trans hc) (by rw [hflushSer]; exact hn))

theorem turns_le_update (turns : ℕ → ℕ) (i j : ℕ) :
    turns j ≤ Function.update turns i (turns i+1) j := by
  by_cases hji : j = i
  · subst hji
    simp
  · exact Nat.le_of_eq (Function.update_of_ne hji _ _).symm

theorem Barrier.found (h : Barrier s) (holder i : ℕ) (r : Region) :
    Barrier (s.found holder i r) := by
  refine h.caller (Nat.le_refl _) rfl rfl rfl (turns_le_update s.turns i) ?_ fun _ hf => hf
  intro j hj
  by_cases hji : j = i
  · subst hji
    right
    simp [State.found]
  · left
    simp only [State.found]
    split_ifs
    · exact (List.mem_erase_of_ne hji).mpr hj
    · exact hj

/-- What is stale when a flush begins is dirty afterwards, or in a round that is about
to unmap it. -/
theorem Barrier.flush (h : Barrier s) (hkept : Kept pool s) (hdevice : Device pool s) :
    Barrier s.flush := by
  have hold : Barrier { s.flush with flushes := s.flushes } := by
    refine h.caller (Nat.le_refl _) rfl rfl rfl (fun _ => Nat.le_refl _) ?_ fun _ hf => hf
    exact fun i hi => .inl (List.mem_append_right _ hi)
  constructor
  · exact hold.rounds
  · intro f hf n hn
    cases List.mem_append.mp hf with
    | inl hf => exact hold.serials f hf n hn
    | inr hnew =>
        cases List.mem_singleton.mp hnew
        cases hn
  · intro f hf p hp
    cases List.mem_append.mp hf with
    | inl hf => exact hold.past f hf p hp
    | inr hnew =>
        cases List.mem_singleton.mp hnew
        obtain ⟨i, _, rfl⟩ := List.mem_map.mp hp
        exact Nat.le_refl _
  · intro f hf p hp
    cases List.mem_append.mp hf with
    | inl hf =>
        cases hold.due f hf p hp with
        | inl hlt => exact .inl hlt
        | inr hdue =>
            cases hdue with
            | dirty hi hn => exact .inr (.dirty hi hn)
            | unmapping hi hc hn => exact .inr (.unmapping hi hc hn)
    | inr hnew =>
        cases List.mem_singleton.mp hnew
        obtain ⟨i, hi, rfl⟩ := List.mem_map.mp hp
        have hmem := List.mem_filter.mp hi
        have halive : s.mr i ≠ none := Option.isSome_iff_ne_none.mp hmem.2
        right
        cases List.mem_append.mp hmem.1 with
        | inr hun =>
            refine .unmapping hun ?_ (fun n hn => by cases hn)
            cases hkept.owned.unmapping (List.ne_nil_of_mem hun) with
            | inl hrel => exact hrel
            | inr hu => exact absurd (hdevice.unmapped hu i hun).2 halive
        | inl hlist =>
            refine .dirty ?_ (fun n hn => by cases hn)
            cases List.mem_append.mp hlist with
            | inr hdirty => exact List.mem_append_right _ hdirty
            | inl hfree =>
                have hcount := List.count_pos_iff.mpr hfree
                have hle := hkept.owned.le_one i
                unfold places at hle
                have hnot : i ∉ s.unmapList := List.count_eq_zero.mp (by omega)
                have hpos := hdevice.alive i halive
                rw [hdevice.maps_eq i hnot] at hpos
                apply List.mem_append_left
                rw [List.mem_reverse, List.mem_filter]
                exact ⟨hfree, decide_eq_true hpos⟩

theorem Barrier.request (h : Barrier s) {k : ℕ} {f : FlushCall} (hf : s.flushes[k]? = some f) :
    Barrier (s.request k f) := by
  have hmem : f ∈ s.flushes := List.mem_of_getElem? hf
  have hrounds := h.rounds
  have hold : Barrier { s with reqSer := s.reqSer+1, flushes := s.flushes.eraseIdx k } := by
    refine h.caller (Nat.le_succ _) rfl rfl rfl (fun _ => Nat.le_refl _) (fun _ hi => .inl hi) ?_
    exact fun g hg => List.mem_of_mem_eraseIdx hg
  constructor
  · exact hold.rounds
  · intro g hg n hn
    cases List.mem_append.mp hg with
    | inl hg => exact hold.serials g hg n hn
    | inr hnew =>
        cases List.mem_singleton.mp hnew
        cases hn
        exact Nat.le_refl _
  · intro g hg p hp
    cases List.mem_append.mp hg with
    | inl hg => exact hold.past g hg p hp
    | inr hnew =>
        cases List.mem_singleton.mp hnew
        exact h.past f hmem p hp
  · intro g hg p hp
    cases List.mem_append.mp hg with
    | inl hg =>
        cases hold.due g hg p hp with
        | inl hlt => exact .inl hlt
        | inr hdue =>
            cases hdue with
            | dirty hi hn => exact .inr (.dirty hi hn)
            | unmapping hi hc hn => exact .inr (.unmapping hi hc hn)
    | inr hnew =>
        cases List.mem_singleton.mp hnew
        cases h.due f hmem p hp with
        | inl hlt => exact .inl hlt
        | inr hdue =>
            have hbusy : busy (s.request k f) = busy s := rfl
            have hser : (s.request k f).flushSer = s.flushSer := rfl
            right
            cases hdue with
            | dirty hi _ =>
                refine .dirty hi fun n hn => ?_
                cases hn
                omega
            | unmapping hi hc _ =>
                refine .unmapping hi hc fun n hn => ?_
                cases hn
                omega

theorem Barrier.batchRelease (h : Barrier s) (hwait : s.cleaner = .waiting)
    (hlt : s.flushSer < s.reqSer) : Barrier s.batchRelease := by
  have hidle := busy_of_waiting hwait
  have hcl : s.batchRelease.cleaner ≠ .waiting := by
    simp only [State.batchRelease]
    split_ifs <;> simp
  constructor
  · rw [busy_of_ne hcl]
    exact hlt
  · exact h.serials
  · exact h.past
  · intro f hf p hp
    cases h.due f hf p hp with
    | inl hlt => exact .inl hlt
    | inr hdue =>
        cases hdue with
        | dirty hi hn =>
            have hne := List.ne_nil_of_mem hi
            refine .inr (.unmapping hi (if_neg hne) fun n hmem => ?_)
            have := hn n hmem
            have hser : s.batchRelease.flushSer = s.flushSer := rfl
            omega
        | unmapping _ hc _ => simp [hc] at hwait

theorem Barrier.ibUnmapFmr (h : Barrier s) {done : List ℕ} (hc : s.cleaner = .releasing)
    (hok : ∀ i ∈ s.unmapList, i ∈ done) : Barrier (s.ibUnmapFmr done) := by
  have hbusy : busy (s.ibUnmapFmr done) = busy s := by
    have hne : (s.ibUnmapFmr done).cleaner ≠ .waiting := by simp [State.ibUnmapFmr]
    rw [busy_of_ne hne, busy_of_ne (by simp [hc])]
  have hser : (s.ibUnmapFmr done).flushSer = s.flushSer := rfl
  have hturns : ∀ i, s.turns i ≤ (s.ibUnmapFmr done).turns i := by
    intro i
    simp only [State.ibUnmapFmr]
    split_ifs <;> omega
  constructor
  · rw [hbusy]
    exact h.rounds
  · exact h.serials
  · exact fun f hf p hp => Nat.le_trans (h.past f hf p hp) (hturns p.1)
  · intro f hf p hp
    have hmono := hturns p.1
    cases h.due f hf p hp with
    | inl hlt => exact .inl (by omega)
    | inr hdue =>
        cases hdue with
        | dirty hi hn => exact .inr (.dirty hi (by rw [hbusy, hser]; exact hn))
        | unmapping hi _ _ =>
            have hpast := h.past f hf p hp
            have hnew : (s.ibUnmapFmr done).turns p.1 = s.turns p.1+1 := if_pos ⟨hi, hok _ hi⟩
            exact .inl (by omega)

/-- The thread goes on after `ib_unmap_fmr` without a change to the number of rounds
finished and under way. -/
theorem Barrier.cleaner (h : Barrier s) (hc : s.cleaner ≠ .releasing)
    (hsum : s'.flushSer+busy s' = s.flushSer+busy s) (hreq : s'.reqSer = s.reqSer)
    (hdirty : s'.dirtyList = s.dirtyList) (hturns : s'.turns = s.turns)
    (hflushes : s'.flushes = s.flushes) : Barrier s' := by
  constructor
  · rw [hsum, hreq]
    exact h.rounds
  · rw [hreq, hflushes]
    exact h.serials
  · rw [hturns, hflushes]
    exact h.past
  · rw [hturns, hflushes]
    intro f hf p hp
    cases h.due f hf p hp with
    | inl hlt => exact .inl hlt
    | inr hdue =>
        cases hdue with
        | dirty hi hn => exact .inr (.dirty (hdirty ▸ hi) (by rw [hsum]; exact hn))
        | unmapping _ hrel _ => exact absurd hrel hc

theorem Barrier.stepped (h : Barrier s) (hkept : Kept pool s) (hdevice : Device pool s)
    (hok : Unmaps s e) (hstep : Stepped pool s e s') : Barrier s' := by
  have hturns : ∀ i, s.turns i ≤ s.turns i := fun _ => Nat.le_refl _
  have hdirty : ∀ i ∈ s.dirtyList, i ∈ s.dirtyList ∨ s.turns i < s.turns i := fun _ hi => .inl hi
  have hadd : ∀ j, ∀ i ∈ s.dirtyList, i ∈ s.dirtyList++[j] ∨ s.turns i < s.turns i :=
    fun _ _ hi => .inl (List.mem_append_left _ hi)
  cases hstep with
  | mapError => exact h
  | found _ => exact h.found _ _ _
  | taken _ _ =>
      exact h.caller (Nat.le_refl _) rfl rfl rfl (turns_le_update s.turns _)
        (fun _ hi => .inl hi) fun _ hf => hf
  | mapped _ _ => exact h.caller (Nat.le_refl _) rfl rfl rfl hturns hdirty fun _ hf => hf
  | refused _ _ => exact h.caller (Nat.le_refl _) rfl rfl rfl hturns hdirty fun _ hf => hf
  | putBack _ _ => exact h.caller (Nat.le_refl _) rfl rfl rfl hturns hdirty fun _ hf => hf
  | inserted _ _ => exact h.caller (Nat.le_refl _) rfl rfl rfl hturns hdirty fun _ hf => hf
  | dropped _ _ => exact h.caller (Nat.le_refl _) rfl rfl rfl hturns hdirty fun _ hf => hf
  | freed _ _ _ => exact h.caller (Nat.le_refl _) rfl rfl rfl hturns hdirty fun _ hf => hf
  | @dirtied k ref _ _ _ =>
      have hreq : s.reqSer ≤ ((s.dropped k ref).listAddDirty pool ref.fmr).reqSer := by
        change s.reqSer ≤ if pool.dirtyWatermark ≤ s.dirtyLen+1 then s.reqSer+1 else s.reqSer
        split_ifs
        · exact Nat.le_succ _
        · exact Nat.le_refl _
      exact h.caller hreq rfl rfl rfl hturns (hadd ref.fmr) fun _ hf => hf
  | flush => exact h.flush hkept hdevice
  | request hf _ => exact h.request hf
  | flushed _ _ _ =>
      exact h.caller (Nat.le_refl _) rfl rfl rfl hturns hdirty
        fun _ hf => List.mem_of_mem_eraseIdx hf
  | interrupted _ _ =>
      exact h.caller (Nat.le_refl _) rfl rfl rfl hturns hdirty
        fun _ hf => List.mem_of_mem_eraseIdx hf
  | batchRelease hwait hbehind =>
      exact h.batchRelease hwait (lt_of_serialSub (Nat.le_of_add_right_le h.rounds) hbehind)
  | ibUnmapFmr hc => exact h.ibUnmapFmr hc hok
  | splice hc =>
      have hbusy : busy s.splice = busy s := by
        have hne : s.splice.cleaner ≠ .waiting := by simp [State.splice]
        rw [busy_of_ne hne, busy_of_ne (by simp [hc])]
      exact h.cleaner (by simp [hc]) (by rw [hbusy]; rfl) rfl rfl rfl rfl
  | incFlushSer hc =>
      refine h.cleaner (by simp [hc]) ?_ rfl rfl rfl rfl
      rw [busy_of_ne (by simp [hc] : s.cleaner ≠ .waiting), busy_of_waiting rfl]

theorem barrier_created (pool : Pool) : Barrier (State.created pool) := by
  constructor
  · exact Nat.le_refl 0
  · exact fun f hf => (List.not_mem_nil hf).elim
  · exact fun f hf => (List.not_mem_nil hf).elim
  · exact fun f hf => (List.not_mem_nil hf).elim

theorem barrier_of_run (hrun : Run (step pool) Unmaps (State.created pool) s) : Barrier s := by
  have hall := pool_invariant (I := fun s => Kept pool s ∧ Device pool s ∧ Barrier s) hrun
    ⟨kept_created pool, device_created pool, barrier_created pool⟩ fun _ _ _ h hok hstep =>
      ⟨h.1.stepped hstep, h.2.1.stepped h.1 hok hstep, h.2.2.stepped h.1 h.2.1 hok hstep⟩
  exact hall.2.2

/-- When `ib_flush_fmr_pool` returns 0, every FMR that was out of use but still mapped
when the call began has been unmapped since, or has been handed out again. -/
theorem flush_unmaps_stale (hrun : Run (step pool) Unmaps (State.created pool) s)
    (hfew : FewRounds s) {k : ℕ} (hreturn : step pool s (.flushed k) = some s') {f : FlushCall}
    (hf : s.flushes[k]? = some f) : ∀ p ∈ f.stale, p.2 < s.turns p.1 := by
  intro p hp
  have hbarrier := barrier_of_run hrun
  have hmem : f ∈ s.flushes := List.mem_of_getElem? hf
  cases hbarrier.due f hmem p hp with
  | inl hlt => exact hlt
  | inr hdue =>
      cases stepped_of_step hreturn with
      | @flushed _ n g hg hserial hpassed =>
          rw [hf] at hg
          cases hg
          have hbound : n ≤ s.flushSer+2^31 :=
            Nat.le_trans (hbarrier.serials f hmem n hserial) (Nat.le_of_lt hfew)
          have hle := le_of_serialSub hbound hpassed
          cases hdue with
          | dirty _ hn =>
              have := hn n hserial
              omega
          | unmapping _ _ hn =>
              have := hn n hserial
              omega

/-- A used FMR is on the free list when a flush begins. -/
def flushEvents : List Event :=
  [.mapPhys 0 ⟨[4096], 0⟩, .ibMapPhysFmr 0 true true, .finish 0, .unmap 0, .flush, .request 0,
    .batchRelease, .ibUnmapFmr [0], .splice, .incFlushSer]

theorem flush_unmaps_used : ∃ s s' f, Run (step twoFmrs) Unmaps (State.created twoFmrs) s ∧
    step twoFmrs s (.flushed 0) = some s' ∧ s.flushes[0]? = some f ∧ f.stale = [(0, 1)] ∧
      1 < s.turns 0 := by
  have hreach : Reaches (guarded (step twoFmrs) Unmaps) flushEvents (State.created twoFmrs)
      (fun s => decide (s.flushes = [⟨some 1, [(0, 1)]⟩] ∧ s.flushSer = 1 ∧ s.reqSer = 1)) =
        true := by
    decide
  obtain ⟨s, hrun, hs⟩ := run_of_reaches hreach
  have hs := of_decide_eq_true hs
  have hf : s.flushes[0]? = some ⟨some 1, [(0, 1)]⟩ := by simp [hs.1]
  have hstep : step twoFmrs s (.flushed 0) = some { s with flushes := s.flushes.eraseIdx 0 } := by
    simp [step, hs.1, hs.2.1, serialSub, CheckedArithmetic.toSigned]
  have hfew : FewRounds s := by
    unfold FewRounds
    omega
  exact ⟨s, _, _, hrun, hstep, hf, rfl, flush_unmaps_stale hrun hfew hstep hf (0, 1) (by simp)⟩

/-- Why the clean-up thread will not overlook the dirty list: what is on it is counted, or
a flush is about to request a round, or one is requested; and once the count is at the
watermark a round is requested. -/
structure Fed (pool : Pool) (s : State) : Prop where
  rounds : s.flushSer+busy s ≤ s.reqSer
  counted : s.dirtyList.length ≤ s.dirtyLen ∨ (∃ f ∈ s.flushes, f.serial = none) ∨ Requested s
  watermark : s.dirtyLen = 0 ∨ s.dirtyLen < pool.dirtyWatermark ∨ Requested s
  unmapping : s.cleaner = .releasing ∨ s.cleaner = .unmapped → s.unmapList ≠ []

theorem Fed.caller (h : Fed pool s) (hreq : s'.reqSer = s.reqSer)
    (hflushSer : s'.flushSer = s.flushSer) (hcleaner : s'.cleaner = s.cleaner)
    (hunmap : s'.unmapList = s.unmapList) (hlen : s'.dirtyLen = s.dirtyLen)
    (hdirty : s'.dirtyList.length ≤ s.dirtyList.length)
    (hflushes : ∀ f ∈ s.flushes, f.serial = none → f ∈ s'.flushes) : Fed pool s' := by
  have hbusy : busy s' = busy s := by
    unfold busy
    rw [hcleaner]
  have hiff : Requested s' ↔ Requested s := by
    unfold Requested
    rw [hflushSer, hbusy, hreq]
  constructor
  · rw [hflushSer, hbusy, hreq]
    exact h.rounds
  · rw [hiff, hlen]
    cases h.counted with
    | inl hc => exact .inl (Nat.le_trans hdirty hc)
    | inr hrest =>
        cases hrest with
        | inl hf =>
            obtain ⟨f, hf, hnone⟩ := hf
            exact .inr (.inl ⟨f, hflushes f hf hnone, hnone⟩)
        | inr hr => exact .inr (.inr hr)
  · rw [hiff, hlen]
    exact h.watermark
  · rw [hcleaner, hunmap]
    exact h.unmapping

theorem Fed.requested (h : Fed pool s) (hreq : s.reqSer < s'.reqSer)
    (hflushSer : s'.flushSer = s.flushSer) (hcleaner : s'.cleaner = s.cleaner)
    (hunmap : s'.unmapList = s.unmapList) : Fed pool s' := by
  have hbusy : busy s' = busy s := by
    unfold busy
    rw [hcleaner]
  have hrounds := h.rounds
  have hnew : Requested s' := by
    unfold Requested
    rw [hflushSer, hbusy]
    omega
  constructor
  · exact Nat.le_of_lt hnew
  · exact .inr (.inr hnew)
  · exact .inr (.inr hnew)
  · rw [hcleaner, hunmap]
    exact h.unmapping

theorem Fed.cleaner (h : Fed pool s) (hsum : s'.flushSer+busy s' = s.flushSer+busy s)
    (hreq : s'.reqSer = s.reqSer) (hdirty : s'.dirtyList = s.dirtyList)
    (hlen : s'.dirtyLen = s.dirtyLen) (hflushes : s'.flushes = s.flushes)
    (hunmap : s'.cleaner = .releasing ∨ s'.cleaner = .unmapped → s'.unmapList ≠ []) :
    Fed pool s' := by
  have hiff : Requested s' ↔ Requested s := by
    unfold Requested
    rw [hsum, hreq]
  constructor
  · rw [hsum, hreq]
    exact h.rounds
  · rw [hiff, hdirty, hlen, hflushes]
    exact h.counted
  · rw [hiff, hlen]
    exact h.watermark
  · exact hunmap

theorem Fed.dirtied (h : Fed pool s) (k : ℕ) (ref : Ref) :
    Fed pool ((s.dropped k ref).listAddDirty pool ref.fmr) := by
  by_cases hw : pool.dirtyWatermark ≤ s.dirtyLen+1
  · refine h.requested ?_ rfl rfl rfl
    change s.reqSer < if pool.dirtyWatermark ≤ s.dirtyLen+1 then s.reqSer+1 else s.reqSer
    rw [if_pos hw]
    exact Nat.lt_succ_self _
  · have hsame : ((s.dropped k ref).listAddDirty pool ref.fmr).reqSer = s.reqSer := if_neg hw
    have hiff : Requested ((s.dropped k ref).listAddDirty pool ref.fmr) ↔ Requested s := by
      unfold Requested
      rw [hsame]
      rfl
    have hlen : ((s.dropped k ref).listAddDirty pool ref.fmr).dirtyList.length =
        s.dirtyList.length+1 := by
      simp [State.listAddDirty, State.dropped]
    have hcount : ((s.dropped k ref).listAddDirty pool ref.fmr).dirtyLen = s.dirtyLen+1 := rfl
    constructor
    · rw [hsame]
      exact h.rounds
    · rw [hiff, hlen, hcount]
      exact h.counted.imp Nat.succ_le_succ id
    · right
      left
      rw [hcount]
      omega
    · exact h.unmapping

theorem Fed.stepped (h : Fed pool s) (hstep : Stepped pool s e s') : Fed pool s' := by
  cases hstep with
  | mapError => exact h
  | @found holder i r _ =>
      refine h.caller rfl rfl rfl rfl rfl ?_ fun _ hf _ => hf
      simp only [State.found]
      split_ifs
      · exact List.length_erase_le
      · exact Nat.le_refl _
  | taken _ _ => exact h.caller rfl rfl rfl rfl rfl (Nat.le_refl _) fun _ hf _ => hf
  | mapped _ _ => exact h.caller rfl rfl rfl rfl rfl (Nat.le_refl _) fun _ hf _ => hf
  | refused _ _ => exact h.caller rfl rfl rfl rfl rfl (Nat.le_refl _) fun _ hf _ => hf
  | putBack _ _ => exact h.caller rfl rfl rfl rfl rfl (Nat.le_refl _) fun _ hf _ => hf
  | inserted _ _ => exact h.caller rfl rfl rfl rfl rfl (Nat.le_refl _) fun _ hf _ => hf
  | dropped _ _ => exact h.caller rfl rfl rfl rfl rfl (Nat.le_refl _) fun _ hf _ => hf
  | freed _ _ _ => exact h.caller rfl rfl rfl rfl rfl (Nat.le_refl _) fun _ hf _ => hf
  | dirtied _ _ _ => exact h.dirtied _ _
  | flush =>
      have hnone : ∃ f ∈ s.flush.flushes, f.serial = none :=
        ⟨_, List.mem_append_right _ (List.mem_singleton.mpr rfl), rfl⟩
      exact ⟨h.rounds, .inr (.inl hnone), h.watermark, h.unmapping⟩
  | request _ _ => exact h.requested (Nat.lt_succ_self _) rfl rfl rfl
  | @flushed k n f hf hserial _ =>
      refine h.caller rfl rfl rfl rfl rfl (Nat.le_refl _) fun g hg hnone => ?_
      cases List.mem_cons.mp ((perm_eraseIdx hf).mem_iff.mp hg) with
      | inl heq =>
          rw [heq, hserial] at hnone
          cases hnone
      | inr hrest => exact hrest
  | @interrupted k f hf hserial =>
      refine h.caller rfl rfl rfl rfl rfl (Nat.le_refl _) fun g hg hnone => ?_
      cases List.mem_cons.mp ((perm_eraseIdx hf).mem_iff.mp hg) with
      | inl heq => exact absurd (heq ▸ hnone) hserial
      | inr hrest => exact hrest
  | batchRelease hwait hbehind =>
      have hlt := lt_of_serialSub (Nat.le_of_add_right_le h.rounds) hbehind
      have hcl : s.batchRelease.cleaner ≠ .waiting := by
        simp only [State.batchRelease]
        split_ifs <;> simp
      constructor
      · rw [busy_of_ne hcl]
        exact hlt
      · exact .inl (Nat.le_refl _)
      · exact .inl rfl
      · intro hc hempty
        have hdirty : s.dirtyList = [] := hempty
        simp [State.batchRelease, hdirty] at hc
  | @ibUnmapFmr done hc =>
      have hne : (s.ibUnmapFmr done).cleaner ≠ .waiting := by simp [State.ibUnmapFmr]
      refine h.cleaner ?_ rfl rfl rfl rfl fun _ => h.unmapping (.inl hc)
      rw [busy_of_ne hne, busy_of_ne (by simp [hc] : s.cleaner ≠ .waiting)]
      rfl
  | splice hc =>
      have hne : s.splice.cleaner ≠ .waiting := by simp [State.splice]
      refine h.cleaner ?_ rfl rfl rfl rfl fun hcl => by simp [State.splice] at hcl
      rw [busy_of_ne hne, busy_of_ne (by simp [hc] : s.cleaner ≠ .waiting)]
      rfl
  | incFlushSer hc =>
      refine h.cleaner ?_ rfl rfl rfl rfl fun hcl => by simp at hcl
      rw [busy_of_ne (by simp [hc] : s.cleaner ≠ .waiting), busy_of_waiting rfl]

theorem fed_created (pool : Pool) : Fed pool (State.created pool) := by
  constructor
  · exact Nat.le_refl 0
  · exact .inl (Nat.le_refl 0)
  · exact .inl rfl
  · intro hc
    simp [State.created] at hc

/-- Everything is out of the hands of callers and nothing is free. -/
structure Drained (pool : Pool) (s : State) : Prop where
  free : s.freeList = []
  held : s.held = []
  calls : s.calls = []
  flushes : ∀ f ∈ s.flushes, f.serial ≠ none

/-- With nothing to unmap, all FMRs are dirty. -/
theorem Drained.poolSize_le (h : Drained pool s) (howned : Owned pool s)
    (hunmap : s.unmapList = []) : pool.poolSize ≤ s.dirtyList.length := by
  have hsub : List.range pool.poolSize ⊆ s.dirtyList := by
    intro i hi
    have hplace := howned.place i
    rw [if_pos (List.mem_range.mp hi)] at hplace
    simp only [places, refs, mapping, h.free, h.held, h.calls, hunmap, List.count_nil,
      List.countP_nil] at hplace
    exact List.count_pos_iff.mp (by omega)
  have hperm := List.subperm_of_subset List.nodup_range hsub
  simpa using hperm.length_le

theorem Drained.requested (h : Drained pool s) (howned : Owned pool s) (hfed : Fed pool s)
    (hunmap : s.unmapList = []) (hsize : 0 < pool.poolSize)
    (hwater : pool.dirtyWatermark ≤ pool.poolSize) : Requested s := by
  have hle := h.poolSize_le howned hunmap
  cases hfed.counted with
  | inl hcount =>
      cases hfed.watermark with
      | inl hzero => omega
      | inr hrest =>
          cases hrest with
          | inl hlt => omega
          | inr hr => exact hr
  | inr hrest =>
      cases hrest with
      | inl hf =>
          obtain ⟨f, hf, hnone⟩ := hf
          exact absurd hnone (h.flushes f hf)
      | inr hr => exact hr

def ByCleaner (_ : State) : Event → Prop
  | .batchRelease | .ibUnmapFmr _ | .splice | .incFlushSer => True
  | .mapPhys _ _ | .ibMapPhysFmr _ _ _ | .finish _ | .unmap _ | .flush | .request _
  | .flushed _ | .interrupted _ => False

theorem step_splice (pool : Pool) (hc : s.cleaner = .unmapped) :
    step pool s .splice = some s.splice := if_pos hc

/-- A round that has collected FMRs puts them on the free list. -/
theorem round_frees (pool : Pool) (hc : s.cleaner = .releasing ∨ s.cleaner = .unmapped)
    (hunmap : s.unmapList ≠ []) :
    ∃ s', Run (step pool) ByCleaner s s' ∧ s'.freeList ≠ [] := by
  cases hc with
  | inl hc =>
      have hfirst : step pool s (.ibUnmapFmr s.unmapList) = some (s.ibUnmapFmr s.unmapList) :=
        if_pos hc
      have hsecond := step_splice pool (s := s.ibUnmapFmr s.unmapList) rfl
      refine ⟨_, (Run.start.more (e := .ibUnmapFmr _) trivial hfirst).more (e := .splice) trivial
        hsecond, ?_⟩
      exact List.append_ne_nil_of_left_ne_nil hunmap _
  | inr hc =>
      refine ⟨_, Run.start.more (e := .splice) trivial (step_splice pool hc), ?_⟩
      exact List.append_ne_nil_of_left_ne_nil hunmap _

theorem waiting_frees (pool : Pool) (hwait : s.cleaner = .waiting) (hlt : s.flushSer < s.reqSer)
    (hfew : s.reqSer ≤ s.flushSer+2^31) (hdirty : s.dirtyList ≠ []) :
    ∃ s', Run (step pool) ByCleaner s s' ∧ s'.freeList ≠ [] := by
  have hstep : step pool s .batchRelease = some s.batchRelease :=
    if_pos ⟨hwait, serialSub_of_lt hlt hfew⟩
  have hcl : s.batchRelease.cleaner = .releasing := if_neg hdirty
  obtain ⟨s', hrun, hfree⟩ := round_frees pool (.inl hcl) hdirty
  exact ⟨s', (Run.start.more (e := .batchRelease) trivial hstep).append hrun, hfree⟩

theorem Drained.refills (h : Drained pool s) (howned : Owned pool s) (hfed : Fed pool s)
    (hfew : FewRounds s) (hsize : 0 < pool.poolSize)
    (hwater : pool.dirtyWatermark ≤ pool.poolSize) :
    ∃ s', Run (step pool) ByCleaner s s' ∧ s'.freeList ≠ [] := by
  have hdirty : s.unmapList = [] → s.dirtyList ≠ [] ∧ Requested s := by
    intro hunmap
    have hle := h.poolSize_le howned hunmap
    refine ⟨?_, h.requested howned hfed hunmap hsize hwater⟩
    intro hnil
    rw [hnil] at hle
    exact absurd hle (by simpa using Nat.ne_of_gt hsize)
  cases hc : s.cleaner with
  | waiting =>
      obtain ⟨hne, hreq⟩ := hdirty (howned.unmapList_of_waiting hc)
      have hlt : s.flushSer < s.reqSer := Nat.lt_of_le_of_lt (Nat.le_add_right _ _) hreq
      exact waiting_frees pool hc hlt (Nat.le_of_lt hfew) hne
  | releasing => exact round_frees pool (.inl hc) (hfed.unmapping (.inl hc))
  | unmapped => exact round_frees pool (.inr hc) (hfed.unmapping (.inr hc))
  | released =>
      have hunmap : s.unmapList = [] := by
        by_contra hne
        have := howned.unmapping hne
        simp [hc] at this
      obtain ⟨hne, hreq⟩ := hdirty hunmap
      have hstep : step pool s .incFlushSer =
          some { s with flushSer := s.flushSer+1, cleaner := .waiting } := if_pos hc
      unfold Requested at hreq
      rw [busy_of_ne (by simp [hc])] at hreq
      have hlater : s.reqSer ≤ s.flushSer+1+2^31 := by
        unfold FewRounds at hfew
        omega
      obtain ⟨s', hrun, hfree⟩ := waiting_frees pool
        (s := { s with flushSer := s.flushSer+1, cleaner := .waiting }) rfl hreq hlater hne
      exact ⟨s', (Run.start.more (e := .incFlushSer) trivial hstep).append hrun, hfree⟩

/-- `ib_fmr_pool_map_phys` returns `-EAGAIN` only for a time. If all references have been
given back and no call is in the middle of its work, the clean-up thread has an FMR to
unmap or has been told to look for one, and its own steps bring the free list back. -/
theorem eagain_is_temporary (hrun : AnyRun (step pool) (State.created pool) s)
    (hfew : FewRounds s) (hsize : 0 < pool.poolSize)
    (hwater : pool.dirtyWatermark ≤ pool.poolSize) {holder : ℕ} {r : Region}
    (heagain : (ibFmrPoolMapPhys pool s holder r).1 = .eagain)
    (hheld : s.held = []) (hcalls : s.calls = []) (hflushes : ∀ f ∈ s.flushes, f.serial ≠ none) :
    ∃ s', Run (step pool) ByCleaner s s' ∧ s'.freeList ≠ [] := by
  have hfree : s.freeList = [] := by
    have hmaps := mapsPhys pool s holder r
    generalize ibFmrPoolMapPhys pool s holder r = result at hmaps heagain
    cases hmaps with
    | eagain hfree => exact hfree
    | einval => cases heagain
    | found _ => cases heagain
    | taken _ _ => cases heagain
  have hdrained : Drained pool s := ⟨hfree, hheld, hcalls, hflushes⟩
  have hfed : Fed pool s := pool_invariant hrun (fed_created pool) fun _ _ _ h _ hstep =>
    h.stepped hstep
  exact hdrained.refills (kept_of_run hrun).owned hfed hfew hsize hwater

/-- One FMR that has to be unmapped each time. -/
def oneFmr : Pool := ⟨1, 4, 1, 1, true, fun page => page % 256, Nat.one_pos⟩

theorem eagain_is_temporary_once : ∃ s s', AnyRun (step oneFmr) (State.created oneFmr) s ∧
    s.dirtyList = [0] ∧ (ibFmrPoolMapPhys oneFmr s 1 ⟨[8192], 0⟩).1 = .eagain ∧
      Run (step oneFmr) ByCleaner s s' ∧ s'.freeList ≠ [] := by
  have hreach : Reaches (step oneFmr)
      [.mapPhys 0 ⟨[4096], 0⟩, .ibMapPhysFmr 0 true true, .finish 0, .unmap 0]
      (State.created oneFmr) (fun s => decide (s.dirtyList = [0] ∧ s.held = [] ∧ s.calls = [] ∧
        s.flushes = [] ∧ (ibFmrPoolMapPhys oneFmr s 1 ⟨[8192], 0⟩).1 = .eagain ∧
        s.reqSer = 1)) = true := by
    decide
  obtain ⟨s, hrun, hs⟩ := anyRun_of_reaches hreach
  have hs := of_decide_eq_true hs
  have hfew : FewRounds s := by
    unfold FewRounds
    omega
  obtain ⟨s', hrun', hfree⟩ := eagain_is_temporary hrun hfew (by decide) (by decide) hs.2.2.2.2.1
    hs.2.1 hs.2.2.1 (by simp [hs.2.2.2.1])
  exact ⟨s, s', hrun, hs.1, hs.2.2.2.2.1, hrun', hfree⟩

end

end IbSrp.FmrFlush

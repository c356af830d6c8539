import IbSrp.CheckedArithmetic
import IbSrp.LabelledRuns
import Mathlib.Logic.Function.Basic

/-!
# The pool of fast memory regions: `fmr_pool.c`

Any number of callers of `ib_fmr_pool_map_phys`, `ib_fmr_pool_unmap` and
`ib_flush_fmr_pool` run next to the clean-up thread. An event is one section under
`pool_lock`, one call of the device or one operation on a serial number; calls that
are between two of their sections are part of the state.

FMRs are numbered in the order in which `ib_create_fmr_pool` allocates them. The
intrusive lists are kept as the lists of their members. The hash function is a
parameter of the pool, as is the limit on remappings that the device reports. The
serial numbers are atomics of 32 bits that wrap around. Here they are natural numbers,
and a comparison looks at the sign of the 32-bit difference as it does in the source.

The device is the pair of `mr` and `maps`: what an FMR is mapped to, and how often
it has been mapped since it was last unmapped. The last three fields of the state are
a history: when an FMR was last released, and how often it was handed out or unmapped.
-/
namespace IbSrp.FmrPool
open LabelledRuns

/-- What `ib_map_phys_fmr` maps an FMR to. -/
structure Region where
  pageList : List ℕ
  ioVirtualAddress : ℕ
deriving DecidableEq, Repr

/-- The fields of `struct ib_fmr_pool` that stay as `ib_create_fmr_pool` sets them. -/
structure Pool where
  poolSize : ℕ
  maxPages : ℕ
  maxRemaps : ℕ
  dirtyWatermark : ℕ
  cache : Bool
  ibFmrHash : ℕ → ℕ
  maxRemaps_pos : 0 < maxRemaps

structure IbPoolFmr where
  refCount : ℕ := 0
  remapCount : ℕ := 0
  ioVirtualAddress : ℕ := 0
  pageListLen : ℕ := 0
  pageList : List ℕ := []
deriving DecidableEq, Repr

namespace IbPoolFmr

def agrees (f : IbPoolFmr) (r : Region) : Bool :=
  r.ioVirtualAddress == f.ioVirtualAddress && r.pageList.length == f.pageListLen &&
    r.pageList == f.pageList.take r.pageList.length

/-- The fields after `ib_map_phys_fmr` has succeeded; the region is recorded for the
cache only. -/
def remapped (f : IbPoolFmr) (cache : Bool) (r : Region) : IbPoolFmr :=
  if cache then
    { refCount := 1, remapCount := f.remapCount+1, ioVirtualAddress := r.ioVirtualAddress,
      pageListLen := r.pageList.length,
      pageList := r.pageList++f.pageList.drop r.pageList.length }
  else { f with refCount := 1, remapCount := f.remapCount+1 }

end IbPoolFmr

/-- How far a call that has taken an FMR from the free list is: before the call of the
device, after it has failed, after it has succeeded. -/
inductive Stage where
  | taken
  | refused
  | mapped
deriving DecidableEq, Repr

structure MapCall where
  holder : ℕ
  fmr : ℕ
  region : Region
  stage : Stage
deriving DecidableEq, Repr

/-- A reference handed out to a caller, with the region that was asked for. -/
structure Ref where
  holder : ℕ
  fmr : ℕ
  region : Region
deriving DecidableEq, Repr

/-- A call of `ib_flush_fmr_pool`: its serial number once it has one, and the FMRs that
were out of use but still mapped when it began. -/
structure FlushCall where
  serial : Option ℕ
  stale : List (ℕ × ℕ)
deriving DecidableEq, Repr

/-- The clean-up thread: between two rounds, in `ib_fmr_batch_release` before and after
`ib_unmap_fmr`, and before the increment of `flush_ser`. -/
inductive Cleaner where
  | waiting
  | releasing
  | unmapped
  | released
deriving DecidableEq, Repr

/-- The difference of two serial numbers, `atomic_read(a) - atomic_read(b)`. -/
def serialSub (a b : ℕ) : ℤ := CheckedArithmetic.toSigned 31 (a-b)

theorem serialSub_of_lt {a b : ℕ} (hlt : a < b) (hfew : b ≤ a+2^31) : serialSub a b < 0 := by
  unfold serialSub
  rw [CheckedArithmetic.toSigned_eq_iff.mpr ⟨by omega, by omega⟩]
  omega

theorem le_of_serialSub {a b : ℕ} (hfew : b ≤ a+2^31) (h : 0 ≤ serialSub a b) : b ≤ a := by
  by_contra hlt
  have := serialSub_of_lt (Nat.lt_of_not_le hlt) hfew
  omega

theorem lt_of_serialSub {a b : ℕ} (hle : a ≤ b) (h : serialSub a b < 0) : a < b := by
  cases Nat.eq_or_lt_of_le hle with
  | inl heq =>
      rw [heq, serialSub, Int.sub_self] at h
      exact absurd h (by decide)
  | inr hlt => exact hlt

structure State where
  fmr : ℕ → IbPoolFmr := fun _ => {}
  freeList : List ℕ
  dirtyList : List ℕ := []
  unmapList : List ℕ := []
  cacheBucket : ℕ → List ℕ := fun _ => []
  dirtyLen : ℕ := 0
  reqSer : ℕ := 0
  flushSer : ℕ := 0
  cleaner : Cleaner := .waiting
  calls : List MapCall := []
  held : List Ref := []
  flushes : List FlushCall := []
  mr : ℕ → Option Region := fun _ => none
  maps : ℕ → ℕ := fun _ => 0
  clock : ℕ := 1
  releasedAt : ℕ → ℕ := fun _ => 0
  turns : ℕ → ℕ := fun _ => 0

/-- The pool `ib_create_fmr_pool` returns. -/
def State.created (pool : Pool) : State := { freeList := List.range pool.poolSize }

def ibFmrCacheLookup (pool : Pool) (s : State) (r : Region) : Option ℕ :=
  if pool.cache then
    (s.cacheBucket (pool.ibFmrHash (r.pageList.headD 0))).find? fun i => (s.fmr i).agrees r
  else none

namespace State

def hlistDelInit (s : State) (i : ℕ) : State :=
  { s with cacheBucket := fun b => (s.cacheBucket b).filter (· ≠ i) }

/-- An FMR found in the cache gets one more reference; the first one takes it off the
list it is on. -/
def found (s : State) (holder i : ℕ) (r : Region) : State :=
  let ref := (s.fmr i).refCount+1
  { s with fmr := Function.update s.fmr i { s.fmr i with refCount := ref },
           freeList := if ref = 1 then s.freeList.erase i else s.freeList,
           dirtyList := if ref = 1 then s.dirtyList.erase i else s.dirtyList,
           held := s.held++[⟨holder, i, r⟩],
           turns := Function.update s.turns i (s.turns i+1) }

/-- The first FMR of the free list is taken off it and out of the cache. -/
def take (s : State) (holder i : ℕ) (rest : List ℕ) (r : Region) : State :=
  { s.hlistDelInit i with
      freeList := rest, calls := s.calls++[⟨holder, i, r, .taken⟩],
      turns := Function.update s.turns i (s.turns i+1) }

end State

inductive MapResult where
  | einval
  | eagain
  | found (i : ℕ)
  | taken (i : ℕ)
deriving DecidableEq, Repr

/-- `ib_fmr_pool_map_phys` up to the first release of the lock. -/
def ibFmrPoolMapPhys (pool : Pool) (s : State) (holder : ℕ) (r : Region) : MapResult × State :=
  if r.pageList.length < 1 ∨ pool.maxPages < r.pageList.length then (.einval, s)
  else
    match ibFmrCacheLookup pool s r with
    | some i => (.found i, s.found holder i r)
    | none =>
        match s.freeList with
        | [] => (.eagain, s)
        | i::rest => (.taken i, s.take holder i rest r)

namespace State

/-- `ib_map_phys_fmr` has succeeded. Without a cache the call returns at once. -/
def mapped (s : State) (pool : Pool) (k : ℕ) (c : MapCall) : State :=
  { s with mr := Function.update s.mr c.fmr (some c.region),
           maps := Function.update s.maps c.fmr (s.maps c.fmr+1),
           fmr := Function.update s.fmr c.fmr ((s.fmr c.fmr).remapped pool.cache c.region),
           calls := s.calls.eraseIdx k++(if pool.cache then [{ c with stage := .mapped }] else []),
           held := s.held++(if pool.cache then [] else [⟨c.holder, c.fmr, c.region⟩]) }

/-- `ib_map_phys_fmr` has failed; the mapping from before may be gone. -/
def refused (s : State) (k : ℕ) (c : MapCall) (keeps : Bool) : State :=
  { s with mr := if keeps then s.mr else Function.update s.mr c.fmr none,
           calls := s.calls.eraseIdx k++[{ c with stage := .refused }] }

/-- The FMR goes into the cache and to the caller. -/
def inserted (s : State) (pool : Pool) (k : ℕ) (c : MapCall) : State :=
  let b := pool.ibFmrHash ((s.fmr c.fmr).pageList.headD 0)
  { s with cacheBucket := Function.update s.cacheBucket b (c.fmr::s.cacheBucket b),
           calls := s.calls.eraseIdx k,
           held := s.held++[⟨c.holder, c.fmr, c.region⟩] }

/-- `list_add(&fmr->list, &pool->free_list)` after a failure -/
def putBack (s : State) (k : ℕ) (c : MapCall) : State :=
  { s with freeList := c.fmr::s.freeList, calls := s.calls.eraseIdx k }

def dropped (s : State) (k : ℕ) (ref : Ref) : State :=
  { s with fmr := Function.update s.fmr ref.fmr
             { s.fmr ref.fmr with refCount := (s.fmr ref.fmr).refCount-1 },
           held := s.held.eraseIdx k }

def listAddFree (s : State) (i : ℕ) : State :=
  { s with freeList := s.freeList++[i], clock := s.clock+1,
           releasedAt := Function.update s.releasedAt i s.clock }

/-- From the watermark on, a round of the clean-up thread is requested. -/
def listAddDirty (s : State) (pool : Pool) (i : ℕ) : State :=
  { s with dirtyList := s.dirtyList++[i], dirtyLen := s.dirtyLen+1,
           reqSer := if pool.dirtyWatermark ≤ s.dirtyLen+1 then s.reqSer+1 else s.reqSer,
           clock := s.clock+1, releasedAt := Function.update s.releasedAt i s.clock }

end State

/-- The caller is the holder of the reference with number `k`. -/
def ibFmrPoolUnmap (pool : Pool) (s : State) (k : ℕ) (ref : Ref) : State :=
  let s := s.dropped k ref
  if (s.fmr ref.fmr).refCount ≠ 0 then s
  else if (s.fmr ref.fmr).remapCount < pool.maxRemaps then s.listAddFree ref.fmr
  else s.listAddDirty pool ref.fmr

namespace State

def isStale (s : State) (i : ℕ) : Bool := (s.mr i).isSome

/-- `ib_flush_fmr_pool` under the lock: `list_move` puts each FMR at the front of the
dirty list. -/
def flush (s : State) : State :=
  { s with freeList := s.freeList.filter fun i => (s.fmr i).remapCount = 0,
           dirtyList :=
             (s.freeList.filter fun i => 0 < (s.fmr i).remapCount).reverse++s.dirtyList,
           flushes := s.flushes++[⟨none,
             ((s.freeList++s.dirtyList++s.unmapList).filter s.isStale).map
               fun i => (i, s.turns i)⟩] }

/-- `serial = atomic_inc_return(&pool->req_ser)` -/
def request (s : State) (k : ℕ) (f : FlushCall) : State :=
  { s with reqSer := s.reqSer+1,
           flushes := s.flushes.eraseIdx k++[{ f with serial := some (s.reqSer+1) }] }

/-- The first section of `ib_fmr_batch_release`, which returns if nothing is dirty. -/
def batchRelease (s : State) : State :=
  { s with fmr := fun i =>
             if i ∈ s.dirtyList then { s.fmr i with remapCount := 0 } else s.fmr i,
           cacheBucket := fun b => (s.cacheBucket b).filter (· ∉ s.dirtyList),
           unmapList := s.dirtyList, dirtyList := [], dirtyLen := 0,
           cleaner := if s.dirtyList = [] then .released else .releasing }

/-- `ib_unmap_fmr` takes effect on the FMRs in `done`, which are all of them unless it
returns an error. The error is only printed. -/
def ibUnmapFmr (s : State) (done : List ℕ) : State :=
  { s with mr := fun i => if i ∈ s.unmapList ∧ i ∈ done then none else s.mr i,
           maps := fun i => if i ∈ s.unmapList ∧ i ∈ done then 0 else s.maps i,
           turns := fun i => if i ∈ s.unmapList ∧ i ∈ done then s.turns i+1 else s.turns i,
           cleaner := .unmapped }

def splice (s : State) : State :=
  { s with freeList := s.unmapList++s.freeList, unmapList := [], cleaner := .released }

end State

inductive Event where
  | mapPhys (holder : ℕ) (r : Region)
  | ibMapPhysFmr (k : ℕ) (ok keeps : Bool)
  | finish (k : ℕ)
  | unmap (k : ℕ)
  | flush
  | request (k : ℕ)
  | flushed (k : ℕ)
  | interrupted (k : ℕ)
  | batchRelease
  | ibUnmapFmr (done : List ℕ)
  | splice
  | incFlushSer

def step (pool : Pool) (s : State) : Event → Option State
  | .mapPhys holder r => some (ibFmrPoolMapPhys pool s holder r).2
  | .ibMapPhysFmr k ok keeps =>
      match s.calls[k]? with
      | some c =>
          if c.stage = .taken then
            some (if ok then s.mapped pool k c else s.refused k c keeps)
          else none
      | none => none
  | .finish k =>
      match s.calls[k]? with
      | some c =>
          match c.stage with
          | .taken => none
          | .refused => some (s.putBack k c)
          | .mapped => some (s.inserted pool k c)
      | none => none
  | .unmap k => s.held[k]?.map (ibFmrPoolUnmap pool s k)
  | .flush => some s.flush
  | .request k =>
      match s.flushes[k]? with
      | some f => if f.serial = none then some (s.request k f) else none
      | none => none
  | .flushed k =>
      match s.flushes[k]? with
      | some f =>
          match f.serial with
          | some n =>
              if 0 ≤ serialSub s.flushSer n then some { s with flushes := s.flushes.eraseIdx k }
              else none
          | none => none
      | none => none
  | .interrupted k =>
      match s.flushes[k]? with
      | some f =>
          if f.serial = none then none else some { s with flushes := s.flushes.eraseIdx k }
      | none => none
  | .batchRelease =>
      if s.cleaner = .waiting ∧ serialSub s.flushSer s.reqSer < 0 then some s.batchRelease
      else none
  | .ibUnmapFmr done => if s.cleaner = .releasing then some (s.ibUnmapFmr done) else none
  | .splice => if s.cleaner = .unmapped then some s.splice else none
  | .incFlushSer =>
      if s.cleaner = .released then
        some { s with flushSer := s.flushSer+1, cleaner := .waiting }
      else none

inductive Stepped (pool : Pool) (s : State) : Event → State → Prop
  | mapError {holder : ℕ} {r : Region} : Stepped pool s (.mapPhys holder r) s
  | found {holder i : ℕ} {r : Region} (hi : ibFmrCacheLookup pool s r = some i) :
      Stepped pool s (.mapPhys holder r) (s.found holder i r)
  | taken {holder i : ℕ} {rest : List ℕ} {r : Region}
      (hlen : 0 < r.pageList.length ∧ r.pageList.length ≤ pool.maxPages)
      (hfree : s.freeList = i::rest) :
      Stepped pool s (.mapPhys holder r) (s.take holder i rest r)
  | mapped {k : ℕ} {keeps : Bool} {c : MapCall} (hc : s.calls[k]? = some c)
      (hstage : c.stage = .taken) :
      Stepped pool s (.ibMapPhysFmr k true keeps) (s.mapped pool k c)
  | refused {k : ℕ} {keeps : Bool} {c : MapCall} (hc : s.calls[k]? = some c)
      (hstage : c.stage = .taken) :
      Stepped pool s (.ibMapPhysFmr k false keeps) (s.refused k c keeps)
  | putBack {k : ℕ} {c : MapCall} (hc : s.calls[k]? = some c) (hstage : c.stage = .refused) :
      Stepped pool s (.finish k) (s.putBack k c)
  | inserted {k : ℕ} {c : MapCall} (hc : s.calls[k]? = some c) (hstage : c.stage = .mapped) :
      Stepped pool s (.finish k) (s.inserted pool k c)
  | dropped {k : ℕ} {ref : Ref} (hr : s.held[k]? = some ref)
      (href : (s.fmr ref.fmr).refCount-1 ≠ 0) : Stepped pool s (.unmap k) (s.dropped k ref)
  | freed {k : ℕ} {ref : Ref} (hr : s.held[k]? = some ref)
      (href : (s.fmr ref.fmr).refCount-1 = 0)
      (hremap : (s.fmr ref.fmr).remapCount < pool.maxRemaps) :
      Stepped pool s (.unmap k) ((s.dropped k ref).listAddFree ref.fmr)
  | dirtied {k : ℕ} {ref : Ref} (hr : s.held[k]? = some ref)
      (href : (s.fmr ref.fmr).refCount-1 = 0)
      (hremap : ¬(s.fmr ref.fmr).remapCount < pool.maxRemaps) :
      Stepped pool s (.unmap k) ((s.dropped k ref).listAddDirty pool ref.fmr)
  | flush : Stepped pool s .flush s.flush
  | request {k : ℕ} {f : FlushCall} (hf : s.flushes[k]? = some f) (hserial : f.serial = none) :
      Stepped pool s (.request k) (s.request k f)
  | flushed {k n : ℕ} {f : FlushCall} (hf : s.flushes[k]? = some f) (hserial : f.serial = some n)
      (hpassed : 0 ≤ serialSub s.flushSer n) :
      Stepped pool s (.flushed k) { s with flushes := s.flushes.eraseIdx k }
  | interrupted {k : ℕ} {f : FlushCall} (hf : s.flushes[k]? = some f) (hserial : f.serial ≠ none) :
      Stepped pool s (.interrupted k) { s with flushes := s.flushes.eraseIdx k }
  | batchRelease (hwait : s.cleaner = .waiting) (hbehind : serialSub s.flushSer s.reqSer < 0) :
      Stepped pool s .batchRelease s.batchRelease
  | ibUnmapFmr {done : List ℕ} (hc : s.cleaner = .releasing) :
      Stepped pool s (.ibUnmapFmr done) (s.ibUnmapFmr done)
  | splice (hc : s.cleaner = .unmapped) : Stepped pool s .splice s.splice
  | incFlushSer (hc : s.cleaner = .released) :
      Stepped pool s .incFlushSer { s with flushSer := s.flushSer+1, cleaner := .waiting }

section
variable {pool : Pool} {s s' : State} {e : Event}

/-- The ways `ib_fmr_pool_map_phys` can go under the lock. -/
inductive MapsPhys (pool : Pool) (s : State) (holder : ℕ) (r : Region) : MapResult × State → Prop
  | einval : MapsPhys pool s holder r (.einval, s)
  | found {i : ℕ} (hi : ibFmrCacheLookup pool s r = some i) :
      MapsPhys pool s holder r (.found i, s.found holder i r)
  | eagain (hfree : s.freeList = []) : MapsPhys pool s holder r (.eagain, s)
  | taken {i : ℕ} {rest : List ℕ}
      (hlen : 0 < r.pageList.length ∧ r.pageList.length ≤ pool.maxPages)
      (hfree : s.freeList = i::rest) :
      MapsPhys pool s holder r (.taken i, s.take holder i rest r)

theorem mapsPhys (pool : Pool) (s : State) (holder : ℕ) (r : Region) :
    MapsPhys pool s holder r (ibFmrPoolMapPhys pool s holder r) := by
  unfold ibFmrPoolMapPhys
  split_ifs with hlen
  · exact .einval
  · cases hl : ibFmrCacheLookup pool s r with
    | some i => exact .found hl
    | none =>
        cases hfree : s.freeList with
        | nil => exact .eagain hfree
        | cons i rest => exact .taken (by omega) hfree

theorem stepped_mapPhys (holder : ℕ) (r : Region) :
    Stepped pool s (.mapPhys holder r) (ibFmrPoolMapPhys pool s holder r).2 := by
  have hmaps := mapsPhys pool s holder r
  generalize ibFmrPoolMapPhys pool s holder r = result at hmaps
  cases hmaps with
  | einval => exact .mapError
  | found hi => exact .found hi
  | eagain _ => exact .mapError
  | taken hlen hfree => exact .taken hlen hfree

theorem stepped_unmap {k : ℕ} {ref : Ref} (hr : s.held[k]? = some ref) :
    Stepped pool s (.unmap k) (ibFmrPoolUnmap pool s k ref) := by
  have hcount : ((s.dropped k ref).fmr ref.fmr).refCount = (s.fmr ref.fmr).refCount-1 := by
    simp [State.dropped]
  have hremap : ((s.dropped k ref).fmr ref.fmr).remapCount = (s.fmr ref.fmr).remapCount := by
    simp [State.dropped]
  unfold ibFmrPoolUnmap
  simp only [hcount, hremap]
  split_ifs with h₁ h₂
  · exact .dropped hr h₁
  · exact .freed hr (not_not.mp h₁) h₂
  · exact .dirtied hr (not_not.mp h₁) h₂

theorem stepped_of_step (h : step pool s e = some s') : Stepped pool s e s' := by
  cases e with
  | mapPhys holder r =>
      cases h
      exact stepped_mapPhys holder r
  | ibMapPhysFmr k ok keeps =>
      simp only [step] at h
      cases hc : s.calls[k]? with
      | none => simp [hc] at h
      | some c =>
          simp only [hc] at h
          split_ifs at h with hstage hok
          · cases h
            exact hok ▸ .mapped hc hstage
          · cases h
            rw [Bool.not_eq_true] at hok
            exact hok ▸ .refused hc hstage
  | finish k =>
      simp only [step] at h
      cases hc : s.calls[k]? with
      | none => simp [hc] at h
      | some c =>
          simp only [hc] at h
          cases hstage : c.stage with
          | taken => simp [hstage] at h
          | refused =>
              simp only [hstage] at h
              cases h
              exact .putBack hc hstage
          | mapped =>
              simp only [hstage] at h
              cases h
              exact .inserted hc hstage
  | unmap k =>
      obtain ⟨ref, hr, rfl⟩ := Option.map_eq_some_iff.mp h
      exact stepped_unmap hr
  | flush =>
      cases h
      exact .flush
  | request k =>
      simp only [step] at h
      cases hf : s.flushes[k]? with
      | none => simp [hf] at h
      | some f =>
          simp only [hf] at h
          split_ifs at h with hserial
          cases h
          exact .request hf hserial
  | flushed k =>
      simp only [step] at h
      cases hf : s.flushes[k]? with
      | none => simp [hf] at h
      | some f =>
          simp only [hf] at h
          cases hserial : f.serial with
          | none => simp [hserial] at h
          | some n =>
              simp only [hserial] at h
              split_ifs at h with hpassed
              cases h
              exact .flushed hf hserial hpassed
  | interrupted k =>
      simp only [step] at h
      cases hf : s.flushes[k]? with
      | none => simp [hf] at h
      | some f =>
          simp only [hf] at h
          split_ifs at h with hserial
          cases h
          exact .interrupted hf hserial
  | batchRelease =>
      simp only [step] at h
      split_ifs at h with hc
      cases h
      exact .batchRelease hc.1 hc.2
  | ibUnmapFmr done =>
      simp only [step] at h
      split_ifs at h with hc
      cases h
      exact .ibUnmapFmr hc
  | splice =>
      simp only [step] at h
      split_ifs at h with hc
      cases h
      exact .splice hc
  | incFlushSer =>
      simp only [step] at h
      split_ifs at h with hc
      cases h
      exact .incFlushSer hc

/-- An invariant of every step is one of every run of the pool. -/
theorem pool_invariant {I : State → Prop} {ok : State → Event → Prop}
    (hrun : Run (step pool) ok s s') (hstart : I s)
    (hstep : ∀ s e s', I s → ok s e → Stepped pool s e s' → I s') : I s' :=
  hrun.invariant hstart fun s e s' hI hok he => hstep s e s' hI hok (stepped_of_step he)

end

end IbSrp.FmrPool

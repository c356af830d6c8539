import IbSrp.MemoryRegistration

/-!
# What a mapped scatter/gather list refers to

The loop of `srp_map_sg` keeps an open region: a list of pages that have been
collected and not yet been described. The invariant relates three things: the
bytes the emitted descriptors refer to, the bytes of the open region, and the
position in the scatter/gather list. The open region always starts at the byte
that `unmapped_sg`, `unmapped_index` and `unmapped_addr` name, and that byte is
the first one no descriptor refers to. All pages but the last one are used up to
their end, so that a linear offset into the page list finds every byte.

`srp_finish_mapping` is the only function that emits a descriptor for a region
or talks to the channel. `Finish` lists what it can do, once; every other lemma
goes by cases on it. A registration attempt is either successful, or no memory
descriptor was available, or the work request could not be posted. The last case
exists for fast registration only, and there the descriptor has been emitted.
-/
namespace IbSrp.MappingCoverage
open PagedBytes MemoryRegistration

inductive Outcome where
  | registered | unavailable | postFailed
deriving DecidableEq, Repr

section
variable {σ D : Type}

/-- One registration attempt: its outcome, the memory descriptor taken, and the
channel afterwards. -/
def attempt (ops : MrOps σ D) (useFastReg : Bool) (ch : σ) (pages : List ℕ) :
    Outcome × Option D × σ :=
  if useFastReg then
    match ops.srpFrPoolGet ch with
    | (none, ch) => (.unavailable, none, ch)
    | (some d, ch) =>
        let r := ops.ibPostSend ch d
        (if r.1 then .registered else .postFailed, some d, r.2)
  else
    match ops.ibFmrPoolMapPhys ch pages with
    | (none, ch) => (.unavailable, none, ch)
    | (some d, ch) => (.registered, some d, ch)

/-- A sequence of successful attempts, with the memory descriptors it collects. -/
inductive Attempts (ops : MrOps σ D) (useFastReg : Bool) : List D → σ → List D → σ → Prop
  | done (mrs : List D) (ch : σ) : Attempts ops useFastReg mrs ch mrs ch
  | more {mrs mrs' : List D} {ch ch' ch'' : σ} {d : D} {pages : List ℕ} :
      Attempts ops useFastReg mrs ch mrs' ch' →
      attempt ops useFastReg ch' pages = (.registered, some d, ch'') →
      Attempts ops useFastReg mrs ch (mrs'++[d]) ch''

/-- The descriptor for the open region under memory descriptor `d`. -/
def regionBuf (dev : SrpDevice) (st : MapState D) (d : D) : SrpDirectBuf D :=
  if dev.useFastReg then ⟨st.baseDmaAddr, .fr d st.baseDmaAddr st.pages, st.dmaLen⟩
  else ⟨0, .fmr d st.pages, st.dmaLen⟩

/-- The state with one more descriptor, and the memory descriptor it uses if any. -/
def emit (st : MapState D) (buf : SrpDirectBuf D) (mr : Option D) : MapState D :=
  srpMapDesc { st with mrList := st.mrList++mr.toList } buf.va buf.len buf.key

def closeRegion (st : MapState D) (buf : SrpDirectBuf D) (mr : Option D) : MapState D :=
  { emit st buf mr with pages := [], dmaLen := 0 }

/-- A region that `srp_finish_mapping` registers: not a single page, unless
`register_always` is set. -/
def Registrable (registerAlways : Bool) (st : MapState D) : Prop :=
  st.pages ≠ [] ∧ (st.npages = 1 → registerAlways = true)

inductive Finish (dev : SrpDevice) (registerAlways : Bool) (ops : MrOps σ D) (st : MapState D)
    (ch : σ) : Mapped σ D → Prop
  | empty : st.pages = [] → Finish dev registerAlways ops st ch ⟨true, st, ch⟩
  | direct : st.npages = 1 → registerAlways = false → Finish dev registerAlways ops st ch
      ⟨true, closeRegion st ⟨st.baseDmaAddr, .target, st.dmaLen⟩ none, ch⟩
  | registered {d : D} {ch' : σ} : Registrable registerAlways st →
      attempt ops dev.useFastReg ch st.pages = (.registered, some d, ch') →
      Finish dev registerAlways ops st ch
        ⟨true, closeRegion st (regionBuf dev st d) (some d), ch'⟩
  | unavailable {ch' : σ} : Registrable registerAlways st →
      attempt ops dev.useFastReg ch st.pages = (.unavailable, none, ch') →
      Finish dev registerAlways ops st ch ⟨false, st, ch'⟩
  | postFailed {d : D} {ch' : σ} : Registrable registerAlways st → dev.useFastReg = true →
      attempt ops dev.useFastReg ch st.pages = (.postFailed, some d, ch') →
      Finish dev registerAlways ops st ch ⟨false, emit st (regionBuf dev st d) (some d), ch'⟩

theorem srpMapFinishFr_finish {dev : SrpDevice} (hfast : dev.useFastReg = true)
    {registerAlways : Bool} (ops : MrOps σ D) (st : MapState D) (ch : σ)
    (hp : Registrable registerAlways st) :
    Finish dev registerAlways ops st ch
      (let r := srpMapFinishFr ops st ch
       if r.ok then ⟨true, { r.state with pages := [], dmaLen := 0 }, r.ch⟩ else r) := by
  obtain ⟨o, ch₁, hg⟩ : ∃ o ch₁, ops.srpFrPoolGet ch = (o, ch₁) := ⟨_, _, rfl⟩
  cases o with
  | none =>
      have ha : attempt ops dev.useFastReg ch st.pages = (.unavailable, none, ch₁) := by
        simp [attempt, hfast, hg]
      simpa [srpMapFinishFr, hg] using Finish.unavailable hp ha
  | some d =>
      obtain ⟨b, ch₂, hb⟩ : ∃ b ch₂, ops.ibPostSend ch₁ d = (b, ch₂) := ⟨_, _, rfl⟩
      cases b with
      | true =>
          have ha : attempt ops dev.useFastReg ch st.pages = (.registered, some d, ch₂) := by
            simp [attempt, hfast, hg, hb]
          simpa [srpMapFinishFr, hg, hb, closeRegion, emit, regionBuf, hfast] using
            Finish.registered hp ha
      | false =>
          have ha : attempt ops dev.useFastReg ch st.pages = (.postFailed, some d, ch₂) := by
            simp [attempt, hfast, hg, hb]
          simpa [srpMapFinishFr, hg, hb, emit, regionBuf, hfast] using
            Finish.postFailed hp hfast ha

theorem srpMapFinishFmr_finish {dev : SrpDevice} (hfmr : dev.useFastReg = false)
    {registerAlways : Bool} (ops : MrOps σ D) (st : MapState D) (ch : σ)
    (hp : Registrable registerAlways st) :
    Finish dev registerAlways ops st ch
      (let r := srpMapFinishFmr ops st ch
       if r.ok then ⟨true, { r.state with pages := [], dmaLen := 0 }, r.ch⟩ else r) := by
  obtain ⟨o, ch₁, hg⟩ : ∃ o ch₁, ops.ibFmrPoolMapPhys ch st.pages = (o, ch₁) := ⟨_, _, rfl⟩
  cases o with
  | none =>
      have ha : attempt ops dev.useFastReg ch st.pages = (.unavailable, none, ch₁) := by
        simp [attempt, hfmr, hg]
      simpa [srpMapFinishFmr, hg] using Finish.unavailable hp ha
  | some d =>
      have ha : attempt ops dev.useFastReg ch st.pages = (.registered, some d, ch₁) := by
        simp [attempt, hfmr, hg]
      simpa [srpMapFinishFmr, hg, closeRegion, emit, regionBuf, hfmr] using
        Finish.registered hp ha

theorem srpFinishMapping_finish (dev : SrpDevice) (registerAlways : Bool) (ops : MrOps σ D)
    (st : MapState D) (ch : σ) :
    Finish dev registerAlways ops st ch (srpFinishMapping dev registerAlways ops st ch) := by
  unfold srpFinishMapping
  by_cases hn : st.npages = 0
  · rw [if_pos hn]
    exact .empty (List.length_eq_zero_iff.mp hn)
  · rw [if_neg hn]
    by_cases hone : st.npages = 1 ∧ registerAlways = false
    · have hf : Finish dev registerAlways ops st ch _ := .direct hone.1 hone.2
      simpa [hone, closeRegion, emit] using hf
    · have hp : Registrable registerAlways st := by
        refine ⟨fun h => hn (by simp [MapState.npages, h]), fun h => ?_⟩
        simpa using fun hr => hone ⟨h, hr⟩
      simp only [if_neg hone]
      cases hfast : dev.useFastReg with
      | true => simpa using srpMapFinishFr_finish hfast ops st ch hp
      | false => simpa using srpMapFinishFmr_finish hfast ops st ch hp

def sgBytes (scat : List Sg) : List ℕ :=
  scat.flatMap fun sg => contiguous (2^64) sg.dmaAddress sg.dmaLen

def sgLen (scat : List Sg) : ℕ := (scat.map Sg.dmaLen).sum

/-- The bytes the emitted descriptors refer to, in order. -/
def descBytes (dev : SrpDevice) (st : MapState D) : List ℕ :=
  st.desc.flatMap (SrpDirectBuf.bytes dev)

def regionBytes (dev : SrpDevice) (st : MapState D) : List ℕ :=
  paged dev.mrPageSize st.pages (st.baseDmaAddr % dev.mrPageSize) st.dmaLen

@[simp] theorem sgBytes_length (scat : List Sg) : (sgBytes scat).length = sgLen scat := by
  simp [sgBytes, sgLen, List.length_flatMap]

@[simp] theorem sgBytes_nil : sgBytes [] = [] := rfl

@[simp] theorem sgBytes_cons (sg : Sg) (scat : List Sg) :
    sgBytes (sg::scat) = contiguous (2^64) sg.dmaAddress sg.dmaLen ++ sgBytes scat := rfl

@[simp] theorem sgBytes_append (a b : List Sg) : sgBytes (a++b) = sgBytes a ++ sgBytes b := by
  simp [sgBytes]

@[simp] theorem sgLen_cons (sg : Sg) (scat : List Sg) :
    sgLen (sg::scat) = sg.dmaLen+sgLen scat := by
  simp [sgLen]

@[simp] theorem sgLen_append (a b : List Sg) : sgLen (a++b) = sgLen a+sgLen b := by
  simp [sgLen]

@[simp] theorem regionBytes_length (dev : SrpDevice) (st : MapState D) :
    (regionBytes dev st).length = st.dmaLen := by
  simp [regionBytes]

@[simp] theorem descBytes_emit (dev : SrpDevice) (st : MapState D) (buf : SrpDirectBuf D)
    (mr : Option D) : descBytes dev (emit st buf mr) = descBytes dev st ++ buf.bytes dev := by
  simp [descBytes, emit, srpMapDesc]

@[simp] theorem descBytes_closeRegion (dev : SrpDevice) (st : MapState D) (buf : SrpDirectBuf D)
    (mr : Option D) :
    descBytes dev (closeRegion st buf mr) = descBytes dev st ++ buf.bytes dev :=
  descBytes_emit dev st buf mr

@[simp] theorem descBytes_updateStart (dev : SrpDevice) (st : MapState D) (sg : Option Sg)
    (i a : ℕ) : descBytes dev (srpMapUpdateStart st sg i a) = descBytes dev st := rfl

@[simp] theorem regionBytes_updateStart (dev : SrpDevice) (st : MapState D) (sg : Option Sg)
    (i a : ℕ) : regionBytes dev (srpMapUpdateStart st sg i a) = regionBytes dev st := rfl

/-- The shape of the open region: it starts in its first page, every page but the
last one is used up to its end, and FMR regions start on a page boundary. -/
structure Region (dev : SrpDevice) (st : MapState D) : Prop where
  base_page : ∀ p ∈ st.pages.head?,
    p+st.baseDmaAddr % dev.mrPageSize = st.baseDmaAddr ∧ p+dev.mrPageSize ≤ 2^64
  dmaLen_zero : st.pages = [] → st.dmaLen = 0
  dmaLen_pos : st.pages ≠ [] → 0 < st.dmaLen
  fits : st.pages ≠ [] →
    st.baseDmaAddr % dev.mrPageSize+st.dmaLen ≤ st.npages*dev.mrPageSize
  aligned : dev.useFastReg = false → st.pages ≠ [] → st.baseDmaAddr % dev.mrPageSize = 0
  npages_le : st.npages ≤ dev.maxPagesPerMr

/-- The last page of the region is used up to its end too. -/
def Full (dev : SrpDevice) (st : MapState D) : Prop :=
  st.pages ≠ [] → st.baseDmaAddr % dev.mrPageSize+st.dmaLen = st.npages*dev.mrPageSize

/-- A descriptor for the region refers to exactly the bytes of the region. -/
theorem Region.regionBuf_bytes {dev : SrpDevice} {st : MapState D} (h : Region dev st)
    (hp : st.pages ≠ []) (d : D) : (regionBuf dev st d).bytes dev = regionBytes dev st := by
  cases hfast : dev.useFastReg with
  | true =>
      have hz : (st.baseDmaAddr+2^64-st.baseDmaAddr) % 2^64 = 0 := by
        rw [Nat.add_sub_cancel_left, Nat.mod_self]
      simp only [regionBuf, hfast, if_true, SrpDirectBuf.bytes, hz, Nat.add_zero, regionBytes]
  | false =>
      simp [regionBuf, hfast, SrpDirectBuf.bytes, regionBytes, h.aligned hfast hp]

theorem Region.direct_bytes {dev : SrpDevice} {st : MapState D} (h : Region dev st)
    (hone : st.npages = 1) :
    (⟨st.baseDmaAddr, .target, st.dmaLen⟩ : SrpDirectBuf D).bytes dev = regionBytes dev st := by
  obtain ⟨p, hp⟩ := List.length_eq_one_iff.mp hone
  have hb := h.base_page p (by simp [hp])
  have hfit := h.fits (by simp [hp])
  rw [hone, Nat.one_mul] at hfit
  rw [regionBytes, hp, paged_singleton hfit hb.2, hb.1]
  rfl

theorem Region.of_empty {dev : SrpDevice} {st : MapState D} (hp : st.pages = [])
    (hl : st.dmaLen = 0) : Region dev st where
  base_page := by simp [hp]
  dmaLen_zero := fun _ => hl
  dmaLen_pos := fun h => (h hp).elim
  fits := fun h => (h hp).elim
  aligned := fun _ h => (h hp).elim
  npages_le := by simp [MapState.npages, hp]

/-- A total length that agrees with the descriptors, and page stores in bounds. -/
structure Tally (dev : SrpDevice) (st : MapState D) : Prop where
  total : st.totalLen = (descBytes dev st).length
  writes : ∀ i ∈ st.pageWrites, i < dev.maxPagesPerMr

/-- The first byte no descriptor refers to is byte `o` of `sg`, and the state names it. -/
structure StartAt (dev : SrpDevice) (scat : List Sg) (st : MapState D) (sg : Sg) (o : ℕ) :
    Prop where
  sg_eq : st.unmappedSg = some sg
  index : scat[st.unmappedIndex]? = some sg
  off_le : o ≤ sg.dmaLen
  addr : st.unmappedAddr = (sg.dmaAddress+o) % 2^64
  described : descBytes dev st =
    sgBytes (scat.take st.unmappedIndex) ++ contiguous (2^64) sg.dmaAddress o

/-- A failed attempt: everything before the open region is described, and the
region itself is described only if its work request could not be posted. -/
inductive Failed (dev : SrpDevice) (ops : MrOps σ D) (scat : List Sg) (mrs : List D) (ch₀ : σ) :
    Mapped σ D → Prop
  | unavailable {st : MapState D} {ch ch' : σ} {sg : Sg} {o : ℕ} : StartAt dev scat st sg o →
      Tally dev st → Attempts ops dev.useFastReg mrs ch₀ st.mrList ch →
      attempt ops dev.useFastReg ch st.pages = (.unavailable, none, ch') →
      Failed dev ops scat mrs ch₀ ⟨false, st, ch'⟩
  | postFailed {st : MapState D} {ch ch' : σ} {d : D} {sg : Sg} {o : ℕ} :
      StartAt dev scat st sg o → Tally dev st → Region dev st → st.pages ≠ [] →
      dev.useFastReg = true → Attempts ops dev.useFastReg mrs ch₀ st.mrList ch →
      attempt ops dev.useFastReg ch st.pages = (.postFailed, some d, ch') →
      (descBytes dev st).length+st.dmaLen < 2^32 →
      Failed dev ops scat mrs ch₀ ⟨false, emit st (regionBuf dev st d) (some d), ch'⟩

theorem Failed.ok {dev : SrpDevice} {ops : MrOps σ D} {scat : List Sg} {mrs : List D} {ch₀ : σ}
    {r : Mapped σ D} (h : Failed dev ops scat mrs ch₀ r) : r.ok = false := by
  cases h <;> rfl

theorem Failed.not_ok {dev : SrpDevice} {ops : MrOps σ D} {scat : List Sg} {mrs : List D}
    {ch₀ : σ} {r : Mapped σ D} (h : Failed dev ops scat mrs ch₀ r) : ¬ r.ok = true := by
  rw [h.ok]
  exact Bool.false_ne_true

/-- A closed region: its bytes are described and nothing is pending. -/
structure Closed (dev : SrpDevice) (ops : MrOps σ D) (mrs : List D) (ch₀ : σ) (st : MapState D)
    (r : Mapped σ D) : Prop where
  ok : r.ok = true
  pages : r.state.pages = []
  dmaLen : r.state.dmaLen = 0
  described : descBytes dev r.state = descBytes dev st ++ regionBytes dev st
  tally : Tally dev r.state
  attempts : Attempts ops dev.useFastReg mrs ch₀ r.state.mrList r.ch
  unmapped : r.state.unmappedSg = st.unmappedSg ∧ r.state.unmappedIndex = st.unmappedIndex ∧
    r.state.unmappedAddr = st.unmappedAddr

theorem Tally.emit {dev : SrpDevice} {st : MapState D} (h : Tally dev st) (buf : SrpDirectBuf D)
    (mr : Option D) (hbuf : (buf.bytes dev).length = buf.len)
    (hlt : (descBytes dev st).length+buf.len < 2^32) : Tally dev (emit st buf mr) where
  total := by
    rw [descBytes_emit, List.length_append, hbuf, ← Nat.mod_eq_of_lt hlt, ← h.total]
    rfl
  writes := h.writes

theorem closed_closeRegion {dev : SrpDevice} {ops : MrOps σ D} {mrs : List D} {ch₀ ch : σ}
    {st : MapState D} {buf : SrpDirectBuf D} (mr : Option D) (htally : Tally dev st)
    (hbytes : buf.bytes dev = regionBytes dev st) (hlen : buf.len = st.dmaLen)
    (hlt : (descBytes dev st).length+st.dmaLen < 2^32)
    (hatt : Attempts ops dev.useFastReg mrs ch₀ (st.mrList++mr.toList) ch) :
    Closed dev ops mrs ch₀ st ⟨true, closeRegion st buf mr, ch⟩ where
  ok := rfl
  pages := rfl
  dmaLen := rfl
  described := by rw [descBytes_closeRegion, hbytes]
  tally := by
    have ht := htally.emit buf mr (by rw [hbytes, regionBytes_length, hlen]) (by rwa [hlen])
    exact ⟨ht.total, ht.writes⟩
  attempts := hatt
  unmapped := ⟨rfl, rfl, rfl⟩

theorem srpFinishMapping_spec {dev : SrpDevice} {ops : MrOps σ D} {scat : List Sg}
    {mrs : List D} {ch₀ : σ} (registerAlways : Bool) {st : MapState D} {ch : σ}
    (hregion : Region dev st) (htally : Tally dev st)
    (hstart : st.pages ≠ [] → ∃ sg o, StartAt dev scat st sg o)
    (hatt : Attempts ops dev.useFastReg mrs ch₀ st.mrList ch)
    (hlt : (descBytes dev st).length+st.dmaLen < 2^32) :
    Closed dev ops mrs ch₀ st (srpFinishMapping dev registerAlways ops st ch) ∨
      Failed dev ops scat mrs ch₀ (srpFinishMapping dev registerAlways ops st ch) := by
  have hf := srpFinishMapping_finish dev registerAlways ops st ch
  generalize srpFinishMapping dev registerAlways ops st ch = r at hf ⊢
  cases hf with
  | empty hp =>
      have hl := hregion.dmaLen_zero hp
      refine Or.inl ⟨rfl, hp, hl, ?_, htally, hatt, rfl, rfl, rfl⟩
      simp [regionBytes, hl]
  | direct hone _ =>
      refine Or.inl (closed_closeRegion none htally (hregion.direct_bytes hone) rfl hlt ?_)
      simpa using hatt
  | registered hr ha =>
      rename_i d ch'
      have hlen : (regionBuf dev st d).len = st.dmaLen := by
        unfold regionBuf
        split <;> rfl
      refine Or.inl (closed_closeRegion (some d) htally (hregion.regionBuf_bytes hr.1 d) hlen
        hlt ?_)
      simpa using Attempts.more hatt ha
  | unavailable hr ha =>
      obtain ⟨sg, o, hs⟩ := hstart hr.1
      exact Or.inr (.unavailable hs htally hatt ha)
  | postFailed hr hfast ha =>
      obtain ⟨sg, o, hs⟩ := hstart hr.1
      exact Or.inr (.postFailed hs htally hregion hr.1 hfast hatt ha hlt)

/-- The state inside entry `k` after its first `o` bytes have been collected. -/
structure InEntry (dev : SrpDevice) (scat : List Sg) (k : ℕ) (sg : Sg) (o : ℕ)
    (st : MapState D) : Prop where
  region : Region dev st
  tally : Tally dev st
  cover : descBytes dev st ++ regionBytes dev st =
    sgBytes (scat.take k) ++ contiguous (2^64) sg.dmaAddress o
  start : ∃ sg' o', StartAt dev scat st sg' o'

theorem sgLen_take_add_le {scat : List Sg} {k : ℕ} {sg : Sg} (hk : scat[k]? = some sg) :
    sgLen (scat.take k)+sg.dmaLen ≤ sgLen scat := by
  obtain ⟨hlt, hget⟩ := List.getElem?_eq_some_iff.mp hk
  have h : sgLen scat = sgLen (scat.take k)+(scat[k].dmaLen+sgLen (scat.drop (k+1))) := by
    conv_lhs => rw [← List.take_append_drop k scat, List.drop_eq_getElem_cons hlt]
    rw [sgLen_append, sgLen_cons]
  rw [h, hget]
  omega

theorem InEntry.length_eq {dev : SrpDevice} {scat : List Sg} {k o : ℕ} {sg : Sg}
    {st : MapState D} (h : InEntry dev scat k sg o st) :
    (descBytes dev st).length+st.dmaLen = sgLen (scat.take k)+o := by
  have := congrArg List.length h.cover
  simpa using this

theorem InEntry.length_lt {dev : SrpDevice} {scat : List Sg} {k o : ℕ} {sg : Sg}
    {st : MapState D} (h : InEntry dev scat k sg o st) (hk : scat[k]? = some sg)
    (ho : o ≤ sg.dmaLen) (hlt : sgLen scat < 2^32) :
    (descBytes dev st).length+st.dmaLen < 2^32 := by
  have := sgLen_take_add_le hk
  rw [h.length_eq]
  omega

theorem StartAt.here {dev : SrpDevice} {scat : List Sg} {k o : ℕ} {sg : Sg} {st : MapState D}
    (hk : scat[k]? = some sg) (ho : o ≤ sg.dmaLen)
    (hd : descBytes dev st = sgBytes (scat.take k) ++ contiguous (2^64) sg.dmaAddress o) :
    StartAt dev scat (srpMapUpdateStart st (some sg) k ((sg.dmaAddress+o) % 2^64)) sg o :=
  ⟨rfl, hk, ho, rfl, hd⟩

theorem pageOffset_add (dev : SrpDevice) (a : ℕ) :
    dev.pageOffset (a % 2^64) = a % dev.mrPageSize := by
  rw [dev.pageOffset_eq, Nat.mod_mod_of_dvd _ dev.mrPageSize_dvd]

/-- The head of the page loop leaves room for one more page, and an open region
is continued only on a page boundary. -/
structure PageReady (dev : SrpDevice) (ops : MrOps σ D) (mrs : List D) (ch₀ : σ)
    (scat : List Sg) (k : ℕ) (sg : Sg) (o : ℕ) (r : Mapped σ D) : Prop where
  ok : r.ok = true
  inEntry : InEntry dev scat k sg o r.state
  full : Full dev r.state
  room : r.state.npages < dev.maxPagesPerMr
  boundary : r.state.pages ≠ [] → (sg.dmaAddress+o) % dev.mrPageSize = 0
  attempts : Attempts ops dev.useFastReg mrs ch₀ r.state.mrList r.ch

theorem srpMapPageStart_spec {dev : SrpDevice} {ops : MrOps σ D} {mrs : List D} {ch₀ : σ}
    {scat : List Sg} {k o : ℕ} {sg : Sg} (registerAlways : Bool) {st : MapState D} {ch : σ}
    (hk : scat[k]? = some sg) (hlt : sgLen scat < 2^32) (ho : o < sg.dmaLen)
    (hmax : sg.dmaLen ≤ dev.mrMaxSize) (h : InEntry dev scat k sg o st) (hfull : Full dev st)
    (hatt : Attempts ops dev.useFastReg mrs ch₀ st.mrList ch) :
    PageReady dev ops mrs ch₀ scat k sg o
        (srpMapPageStart dev registerAlways ops sg k ((sg.dmaAddress+o) % 2^64) st ch) ∨
      Failed dev ops scat mrs ch₀
        (srpMapPageStart dev registerAlways ops sg k ((sg.dmaAddress+o) % 2^64) st ch) := by
  have hpos : 0 < dev.maxPagesPerMr := by
    rcases Nat.eq_zero_or_pos dev.maxPagesPerMr with hz | hz
    · simp [SrpDevice.mrMaxSize, hz] at hmax
      omega
    · exact hz
  unfold srpMapPageStart
  rw [pageOffset_add]
  by_cases hclose : st.npages = dev.maxPagesPerMr ∨ (sg.dmaAddress+o) % dev.mrPageSize ≠ 0
  · simp only [if_pos hclose]
    rcases srpFinishMapping_spec registerAlways h.region h.tally (fun _ => h.start) hatt
      (h.length_lt hk ho.le hlt) with hc | hfail
    · left
      have hd : descBytes dev (srpFinishMapping dev registerAlways ops st ch).state =
          sgBytes (scat.take k) ++ contiguous (2^64) sg.dmaAddress o := by
        rw [hc.described, h.cover]
      rw [if_pos hc.ok]
      refine ⟨rfl, ⟨Region.of_empty hc.pages hc.dmaLen, ⟨hc.tally.1, hc.tally.2⟩, ?_,
        ⟨sg, o, StartAt.here hk ho.le hd⟩⟩, fun hp => (hp hc.pages).elim, ?_,
        fun hp => (hp hc.pages).elim, hc.attempts⟩
      · rw [descBytes_updateStart, regionBytes_updateStart, hd]
        simp [regionBytes, hc.dmaLen]
      · simpa [MapState.npages, srpMapUpdateStart, hc.pages] using hpos
    · right
      rw [if_neg hfail.not_ok]
      exact hfail
  · rw [if_neg hclose]
    have hn : st.npages < dev.maxPagesPerMr :=
      lt_of_le_of_ne h.region.npages_le (fun he => hclose (Or.inl he))
    have hb : (sg.dmaAddress+o) % dev.mrPageSize = 0 := by
      by_contra hne
      exact hclose (Or.inr hne)
    exact Or.inl ⟨rfl, h, hfull, hn, fun _ => hb, hatt⟩

/-- The bytes and the shape of the region after one more page has been stored. -/
theorem srpMapPage_region {dev : SrpDevice} (st : MapState D) {a l : ℕ} (ha : a < 2^64)
    (hregion : Region dev st) (hfull : Full dev st) (hroom : st.npages < dev.maxPagesPerMr)
    (hboundary : st.pages ≠ [] → a % dev.mrPageSize = 0)
    (haligned : dev.useFastReg = false → a % dev.mrPageSize = 0)
    (hl : 0 < l) (hle : a % dev.mrPageSize+l ≤ dev.mrPageSize) (hlt : st.dmaLen+l < 2^32) :
    Region dev (srpMapPage dev st a l) ∧
      regionBytes dev (srpMapPage dev st a l) = regionBytes dev st ++ contiguous (2^64) a l ∧
      (a % dev.mrPageSize+l = dev.mrPageSize → Full dev (srpMapPage dev st a l)) := by
  have hpage := dev.pageAddr_add_le ha
  have hbase : dev.pageAddr a+a % dev.mrPageSize = a := by
    rw [← dev.pageOffset_eq]
    exact dev.pageAddr_add_pageOffset ha
  by_cases hp : st.pages = []
  · have hz := hregion.dmaLen_zero hp
    have hn : st.npages = 0 := by simp [MapState.npages, hp]
    have hst : srpMapPage dev st a l = { st with
        baseDmaAddr := a, pages := [dev.pageAddr a], pageWrites := st.pageWrites++[0],
        dmaLen := l } := by
      simp [srpMapPage, hn, hp, hz]
      omega
    rw [hst]
    refine ⟨⟨?_, by simp, fun _ => hl, ?_, fun hfmr _ => haligned hfmr, ?_⟩, ?_, ?_⟩
    · simpa using ⟨hbase, hpage⟩
    · simpa [MapState.npages] using hle
    · change 1 ≤ dev.maxPagesPerMr
      omega
    · simp only [regionBytes, hz, paged_zero, List.nil_append]
      rw [paged_singleton hle hpage, hbase]
    · simp [Full, MapState.npages]
  · have hn : st.npages ≠ 0 := fun h => hp (List.length_eq_zero_iff.mp h)
    have hf := hfull hp
    have hoff := hboundary hp
    have hst : srpMapPage dev st a l = { st with
        pages := st.pages++[a], pageWrites := st.pageWrites++[st.npages],
        dmaLen := st.dmaLen+l } := by
      have hpa : dev.pageAddr a = a := by omega
      simp [srpMapPage, hn, hpa]
      omega
    have hlps : l ≤ dev.mrPageSize := by omega
    rw [hst]
    refine ⟨⟨?_, by simp, fun _ => by simp only; omega, ?_, fun hfmr _ => hregion.aligned hfmr hp,
      ?_⟩, ?_, ?_⟩
    · intro p hh
      apply hregion.base_page p
      simpa [List.head?_append_of_ne_nil _ hp] using hh
    · intro _
      simp only [MapState.npages, List.length_append, List.length_singleton, Nat.add_mul] at hf ⊢
      omega
    · simpa [MapState.npages, Nat.succ_le_iff] using hroom
    · simp only [regionBytes]
      apply paged_append_page dev.mrPageSize_pos hf hlps
      omega
    · intro he _
      simp only [MapState.npages, List.length_append, List.length_singleton, Nat.add_mul] at hf ⊢
      omega

/-- One round of the page loop: the next chunk of the entry has been collected. -/
theorem srpMapPage_inEntry {dev : SrpDevice} {scat : List Sg} {k o l : ℕ} {sg : Sg}
    {st : MapState D} (hk : scat[k]? = some sg) (hlt : sgLen scat < 2^32)
    (h : InEntry dev scat k sg o st) (hfull : Full dev st)
    (hroom : st.npages < dev.maxPagesPerMr)
    (hboundary : st.pages ≠ [] → (sg.dmaAddress+o) % dev.mrPageSize = 0)
    (haligned : dev.useFastReg = false → (sg.dmaAddress+o) % dev.mrPageSize = 0)
    (hl : 0 < l) (hol : o+l ≤ sg.dmaLen)
    (hle : (sg.dmaAddress+o) % dev.mrPageSize+l ≤ dev.mrPageSize) :
    InEntry dev scat k sg (o+l) (srpMapPage dev st ((sg.dmaAddress+o) % 2^64) l) ∧
      ((sg.dmaAddress+o) % dev.mrPageSize+l = dev.mrPageSize →
        Full dev (srpMapPage dev st ((sg.dmaAddress+o) % 2^64) l)) := by
  have hmod : (sg.dmaAddress+o) % 2^64 % dev.mrPageSize = (sg.dmaAddress+o) % dev.mrPageSize :=
    Nat.mod_mod_of_dvd _ dev.mrPageSize_dvd
  have hlen := h.length_eq
  have htot := sgLen_take_add_le hk
  obtain ⟨hr, hb, hf⟩ := srpMapPage_region st (l := l)
    (Nat.mod_lt (sg.dmaAddress+o) (by norm_num : 0 < 2^64)) h.region hfull hroom
    (by rwa [hmod]) (by rwa [hmod]) hl (by rwa [hmod]) (by omega)
  rw [hmod] at hf
  refine ⟨⟨hr, ⟨h.tally.total, ?_⟩, ?_, ?_⟩, hf⟩
  · intro i hi
    rcases List.mem_append.mp hi with hi | hi
    · exact h.tally.writes i hi
    · rw [List.mem_singleton.mp hi]
      exact hroom
  · rw [hb, ← List.append_assoc]
    change (descBytes dev st ++ regionBytes dev st) ++ _ = _
    rw [h.cover, contiguous_mod, contiguous_add, List.append_assoc]
  · obtain ⟨sg', o', hs⟩ := h.start
    exact ⟨sg', o', hs.1, hs.2, hs.3, hs.4, hs.5⟩

/-- The page loop has collected the whole entry; `len` is the last chunk. -/
structure EntryDone (dev : SrpDevice) (ops : MrOps σ D) (mrs : List D) (ch₀ : σ)
    (scat : List Sg) (k : ℕ) (sg : Sg) (len : ℕ) (r : Mapped σ D) : Prop where
  ok : r.ok = true
  inEntry : InEntry dev scat k sg sg.dmaLen r.state
  pages : r.state.pages ≠ []
  full : len = dev.mrPageSize → Full dev r.state
  attempts : Attempts ops dev.useFastReg mrs ch₀ r.state.mrList r.ch

theorem srpMapPages_spec {dev : SrpDevice} {ops : MrOps σ D} {mrs : List D} {ch₀ : σ}
    {scat : List Sg} {k : ℕ} {sg : Sg} (registerAlways : Bool) (hk : scat[k]? = some sg)
    (hlt : sgLen scat < 2^32) (hmax : sg.dmaLen ≤ dev.mrMaxSize) (fuel : ℕ) :
    ∀ (o len : ℕ) (st : MapState D) (ch : σ), sg.dmaLen-o ≤ fuel → o ≤ sg.dmaLen →
      InEntry dev scat k sg o st →
      (o < sg.dmaLen → Full dev st ∧
        (dev.useFastReg = false → (sg.dmaAddress+o) % dev.mrPageSize = 0)) →
      (o = sg.dmaLen → st.pages ≠ [] ∧ (len = dev.mrPageSize → Full dev st)) →
      Attempts ops dev.useFastReg mrs ch₀ st.mrList ch →
      let r := srpMapPages dev registerAlways ops sg k fuel ((sg.dmaAddress+o) % 2^64)
        (sg.dmaLen-o) len st ch
      EntryDone dev ops mrs ch₀ scat k sg r.2 r.1 ∨ Failed dev ops scat mrs ch₀ r.1 := by
  induction fuel with
  | zero =>
      intro o len st ch hfuel ho h _ hlast hatt
      have he : o = sg.dmaLen := by omega
      subst he
      exact Or.inl ⟨rfl, h, (hlast rfl).1, (hlast rfl).2, hatt⟩
  | succ fuel ih =>
      intro o len st ch hfuel ho h hnext hlast hatt
      by_cases he : o = sg.dmaLen
      · subst he
        simp only [srpMapPages, Nat.sub_self, if_true]
        exact Or.inl ⟨rfl, h, (hlast rfl).1, (hlast rfl).2, hatt⟩
      · have hol : o < sg.dmaLen := by omega
        obtain ⟨hfull, haligned⟩ := hnext hol
        simp only [srpMapPages, if_neg (by omega : ¬ sg.dmaLen-o = 0)]
        rcases srpMapPageStart_spec registerAlways hk hlt hol hmax h hfull hatt with
          hr | hfail
        · have hps := dev.mrPageSize_pos
          have hoff := Nat.mod_lt (sg.dmaAddress+o) hps
          rw [if_pos hr.ok, pageOffset_add]
          set l := min (sg.dmaLen-o) (dev.mrPageSize-(sg.dmaAddress+o) % dev.mrPageSize) with hl
          have hlpos : 0 < l := by omega
          have hlo : o+l ≤ sg.dmaLen := by omega
          obtain ⟨hin, hf⟩ := srpMapPage_inEntry hk hlt hr.inEntry hr.full hr.room hr.boundary
            haligned hlpos hlo (by omega)
          have haddr : ((sg.dmaAddress+o) % 2^64+l) % 2^64 = (sg.dmaAddress+(o+l)) % 2^64 := by
            rw [Nat.mod_add_mod, Nat.add_assoc]
          rw [haddr, Nat.sub_sub]
          apply ih (o+l) l _ _ (by omega) hlo hin
          · intro hmore
            have hfit : (sg.dmaAddress+o) % dev.mrPageSize+l = dev.mrPageSize := by omega
            refine ⟨hf hfit, fun hfmr => ?_⟩
            rw [haligned hfmr, Nat.zero_add] at hfit
            rw [← Nat.add_assoc, hfit, Nat.add_mod_right]
            exact haligned hfmr
          · intro _
            exact ⟨by simp [srpMapPage], fun hlen => hf (by omega)⟩
          · exact hr.attempts
        · rw [if_neg hfail.not_ok]
          exact Or.inr hfail

/-- The state between two entries, after the first `k` of them. -/
structure Between (dev : SrpDevice) (ops : MrOps σ D) (mrs : List D) (ch₀ : σ) (scat : List Sg)
    (k : ℕ) (r : Mapped σ D) : Prop where
  ok : r.ok = true
  region : Region dev r.state
  tally : Tally dev r.state
  full : Full dev r.state
  cover : descBytes dev r.state ++ regionBytes dev r.state = sgBytes (scat.take k)
  start : r.state.pages ≠ [] → ∃ sg o, StartAt dev scat r.state sg o
  idle : r.state.pages = [] → r.state.unmappedSg = none
  attempts : Attempts ops dev.useFastReg mrs ch₀ r.state.mrList r.ch

theorem sgBytes_take_succ {scat : List Sg} {k : ℕ} {sg : Sg} (hk : scat[k]? = some sg) :
    sgBytes (scat.take (k+1)) =
      sgBytes (scat.take k) ++ contiguous (2^64) sg.dmaAddress sg.dmaLen := by
  simp [List.take_add_one, hk]

theorem Between.length_eq {dev : SrpDevice} {ops : MrOps σ D} {mrs : List D} {ch₀ : σ}
    {scat : List Sg} {k : ℕ} {r : Mapped σ D} (h : Between dev ops mrs ch₀ scat k r) :
    (descBytes dev r.state).length+r.state.dmaLen = sgLen (scat.take k) := by
  have := congrArg List.length h.cover
  simpa using this

theorem sgLen_take_le (scat : List Sg) (k : ℕ) : sgLen (scat.take k) ≤ sgLen scat := by
  conv_rhs => rw [← List.take_append_drop k scat, sgLen_append]
  omega

theorem Between.finish {dev : SrpDevice} {ops : MrOps σ D} {mrs : List D} {ch₀ : σ}
    {scat : List Sg} {k : ℕ} {r : Mapped σ D} (h : Between dev ops mrs ch₀ scat k r)
    (hlt : sgLen scat < 2^32) (registerAlways : Bool) :
    Closed dev ops mrs ch₀ r.state (srpFinishMapping dev registerAlways ops r.state r.ch) ∨
      Failed dev ops scat mrs ch₀ (srpFinishMapping dev registerAlways ops r.state r.ch) := by
  apply srpFinishMapping_spec registerAlways h.region h.tally h.start h.attempts
  rw [h.length_eq]
  exact lt_of_le_of_lt (sgLen_take_le scat k) hlt

theorem Between.direct {dev : SrpDevice} {ops : MrOps σ D} {mrs : List D} {ch₀ : σ}
    {scat : List Sg} {k : ℕ} {r r' : Mapped σ D} {sg : Sg} (hk : scat[k]? = some sg)
    (hlt : sgLen scat < 2^32) (h : Between dev ops mrs ch₀ scat k r)
    (hc : Closed dev ops mrs ch₀ r.state r') :
    Between dev ops mrs ch₀ scat (k+1)
      ⟨true, srpMapUpdateStart (srpMapDesc r'.state sg.dmaAddress sg.dmaLen .target) none 0 0,
        r'.ch⟩ := by
  have hd : descBytes dev r'.state = sgBytes (scat.take k) := by rw [hc.described, h.cover]
  have hle := sgLen_take_add_le hk
  have ht := hc.tally.emit ⟨sg.dmaAddress, .target, sg.dmaLen⟩ none
    (by simp [SrpDirectBuf.bytes]) (by rw [hd, sgBytes_length]; simp only; omega)
  have he : emit r'.state ⟨sg.dmaAddress, .target, sg.dmaLen⟩ none =
      srpMapDesc r'.state sg.dmaAddress sg.dmaLen .target := by simp [emit]
  rw [he] at ht
  refine ⟨rfl, Region.of_empty hc.pages hc.dmaLen, ⟨ht.1, ht.2⟩, fun hp => (hp hc.pages).elim,
    ?_, fun hp => (hp hc.pages).elim, fun _ => rfl, hc.attempts⟩
  rw [sgBytes_take_succ hk]
  have hz : regionBytes dev (srpMapDesc r'.state sg.dmaAddress sg.dmaLen .target) = [] := by
    simp [regionBytes, srpMapDesc, hc.dmaLen]
  rw [descBytes_updateStart, regionBytes_updateStart, hz, List.append_nil, ← he,
    descBytes_emit, hd]
  rfl

/-- Entering an entry: the open region goes on, or a new one starts here. -/
theorem Between.enter {dev : SrpDevice} {ops : MrOps σ D} {mrs : List D} {ch₀ : σ}
    {scat : List Sg} {k : ℕ} {r : Mapped σ D} {sg : Sg} (hk : scat[k]? = some sg)
    (h : Between dev ops mrs ch₀ scat k r) :
    InEntry dev scat k sg 0
      (if r.state.unmappedSg = none then
        srpMapUpdateStart r.state (some sg) k sg.dmaAddress else r.state) := by
  by_cases hp : r.state.pages = []
  · have hz := h.region.dmaLen_zero hp
    have hd : descBytes dev r.state = sgBytes (scat.take k) := by
      simpa [regionBytes, hz] using h.cover
    rw [if_pos (h.idle hp)]
    have hs := StartAt.here hk (Nat.zero_le _) (by simpa using hd)
    rw [Nat.add_zero, Nat.mod_eq_of_lt sg.address_lt] at hs
    refine ⟨Region.of_empty hp hz, ⟨h.tally.1, h.tally.2⟩, ?_, ⟨sg, 0, hs⟩⟩
    simpa using h.cover
  · obtain ⟨sg', o', hs⟩ := h.start hp
    rw [if_neg (by simp [hs.sg_eq])]
    exact ⟨h.region, h.tally, by simpa using h.cover, ⟨sg', o', hs⟩⟩

theorem EntryDone.keep {dev : SrpDevice} {ops : MrOps σ D} {mrs : List D} {ch₀ : σ}
    {scat : List Sg} {k len : ℕ} {sg : Sg} {r : Mapped σ D} (hk : scat[k]? = some sg)
    (h : EntryDone dev ops mrs ch₀ scat k sg len r)
    (hlen : len = dev.mrPageSize) : Between dev ops mrs ch₀ scat (k+1) r where
  ok := h.ok
  region := h.inEntry.region
  tally := h.inEntry.tally
  full := h.full hlen
  cover := by rw [h.inEntry.cover, sgBytes_take_succ hk]
  start := fun _ => h.inEntry.start
  idle := fun he => (h.pages he).elim
  attempts := h.attempts

/-- Leaving an entry whose last chunk was not a full page: the region is closed. -/
theorem EntryDone.close {dev : SrpDevice} {ops : MrOps σ D} {mrs : List D} {ch₀ : σ}
    {scat : List Sg} {k len : ℕ} {sg : Sg} {r : Mapped σ D} (hk : scat[k]? = some sg)
    (hlt : sgLen scat < 2^32) (h : EntryDone dev ops mrs ch₀ scat k sg len r)
    (registerAlways : Bool) :
    let r' := srpFinishMapping dev registerAlways ops r.state r.ch
    Between dev ops mrs ch₀ scat (k+1) ⟨true, srpMapUpdateStart r'.state none 0 0, r'.ch⟩ ∧
        r'.ok = true ∨
      Failed dev ops scat mrs ch₀ r' := by
  intro r'
  rcases srpFinishMapping_spec registerAlways h.inEntry.region h.inEntry.tally
    (fun _ => h.inEntry.start) h.attempts (h.inEntry.length_lt hk le_rfl hlt) with hc | hfail
  · left
    refine ⟨⟨rfl, Region.of_empty hc.pages hc.dmaLen, ⟨hc.tally.1, hc.tally.2⟩,
      fun hp => (hp hc.pages).elim, ?_, fun hp => (hp hc.pages).elim, fun _ => rfl,
      hc.attempts⟩, hc.ok⟩
    have hz : regionBytes dev r'.state = [] := by
      rw [regionBytes, hc.dmaLen, paged_zero]
    rw [descBytes_updateStart, regionBytes_updateStart, hz, hc.described, h.inEntry.cover,
      sgBytes_take_succ hk, List.append_nil]
  · exact Or.inr hfail

theorem srpMapSgEntry_spec {dev : SrpDevice} {ops : MrOps σ D} {mrs : List D} {ch₀ : σ}
    {scat : List Sg} {k : ℕ} {sg : Sg} {r : Mapped σ D} (registerAlways : Bool)
    (hk : scat[k]? = some sg) (hlt : sgLen scat < 2^32) (h : Between dev ops mrs ch₀ scat k r) :
    Between dev ops mrs ch₀ scat (k+1)
        (srpMapSgEntry dev registerAlways ops true sg k r.state r.ch) ∨
      Failed dev ops scat mrs ch₀
        (srpMapSgEntry dev registerAlways ops true sg k r.state r.ch) := by
  unfold srpMapSgEntry
  by_cases hz : sg.dmaLen = 0
  · rw [if_pos hz]
    refine Or.inl ⟨rfl, h.region, h.tally, h.full, ?_, h.start, h.idle, h.attempts⟩
    rw [h.cover, sgBytes_take_succ hk, hz]
    simp
  rw [if_neg hz, if_neg (by decide : ¬ true = false)]
  by_cases hd : (dev.useFastReg = false ∧ dev.pageOffset sg.dmaAddress ≠ 0) ∨
      dev.mrMaxSize < sg.dmaLen
  · simp only [if_pos hd]
    rcases h.finish hlt registerAlways with hc | hfail
    · rw [if_pos hc.ok]
      exact Or.inl (h.direct hk hlt hc)
    · rw [if_neg hfail.not_ok]
      exact Or.inr hfail
  · simp only [if_neg hd]
    obtain ⟨hal, hmx⟩ := not_or.mp hd
    have hin := h.enter hk
    have hmrs : (if r.state.unmappedSg = none then
        srpMapUpdateStart r.state (some sg) k sg.dmaAddress else r.state).mrList =
        r.state.mrList := by split_ifs <;> rfl
    have hfull : Full dev (if r.state.unmappedSg = none then
        srpMapUpdateStart r.state (some sg) k sg.dmaAddress else r.state) := by
      split_ifs
      · exact h.full
      · exact h.full
    generalize (if r.state.unmappedSg = none then
        srpMapUpdateStart r.state (some sg) k sg.dmaAddress else r.state) = st at hin hmrs hfull ⊢
    have haddr : (sg.dmaAddress+0) % 2^64 = sg.dmaAddress := Nat.mod_eq_of_lt sg.address_lt
    have hnext : 0 < sg.dmaLen → Full dev st ∧
        (dev.useFastReg = false → (sg.dmaAddress+0) % dev.mrPageSize = 0) := by
      refine fun _ => ⟨hfull, fun hfmr => ?_⟩
      by_contra hne
      exact hal ⟨hfmr, by rwa [dev.pageOffset_eq]⟩
    have hatt : Attempts ops dev.useFastReg mrs ch₀ st.mrList r.ch := hmrs ▸ h.attempts
    have hloop := srpMapPages_spec registerAlways hk hlt (not_lt.mp hmx) sg.dmaLen 0 0 st r.ch
      (by omega) (Nat.zero_le _) hin hnext (fun he => (hz he.symm).elim) hatt
    simp only [haddr, Nat.sub_zero] at hloop
    generalize srpMapPages dev registerAlways ops sg k sg.dmaLen sg.dmaAddress sg.dmaLen 0 st
      r.ch = p at hloop ⊢
    obtain ⟨r₁, len⟩ := p
    rcases hloop with hdone | hfail
    · simp only [if_pos hdone.ok]
      by_cases hlen : len = dev.mrPageSize
      · rw [if_neg (not_not.mpr hlen)]
        exact Or.inl (hdone.keep hk hlen)
      · rw [if_pos hlen]
        rcases hdone.close hk hlt registerAlways with ⟨hb, hok⟩ | hfail
        · rw [if_pos hok]
          exact Or.inl hb
        · rw [if_neg hfail.not_ok]
          exact Or.inr hfail
    · simp only [if_neg hfail.not_ok]
      exact Or.inr hfail

theorem forEachSg_spec {dev : SrpDevice} {ops : MrOps σ D} {mrs : List D} {ch₀ : σ}
    {scat : List Sg} (registerAlways : Bool) (hlt : sgLen scat < 2^32) (rest : List Sg) :
    ∀ (k : ℕ) (r : Mapped σ D), scat.drop k = rest → k ≤ scat.length →
      Between dev ops mrs ch₀ scat k r →
      let r' := forEachSg dev registerAlways ops true rest k r.state r.ch
      Between dev ops mrs ch₀ scat scat.length r' ∨ Failed dev ops scat mrs ch₀ r' := by
  induction rest with
  | nil =>
      intro k r hdrop hk h
      have he : k = scat.length := le_antisymm hk (List.drop_eq_nil_iff.mp hdrop)
      obtain ⟨ok, st, ch⟩ := r
      have hok : ok = true := h.ok
      subst hok
      subst he
      exact Or.inl h
  | cons sg rest ih =>
      intro k r hdrop _ h
      have hget : scat[k]? = some sg := by
        have := congrArg List.head? hdrop
        simpa [List.head?_drop] using this
      have hdrop' : scat.drop (k+1) = rest := by
        have := congrArg List.tail hdrop
        simpa using this
      simp only [forEachSg]
      rcases srpMapSgEntry_spec registerAlways hget hlt h with hb | hfail
      · rw [if_pos hb.ok]
        exact ih (k+1) _ hdrop' (List.getElem?_eq_some_iff.mp hget).1 hb
      · rw [if_neg hfail.not_ok]
        exact Or.inr hfail

end

end IbSrp.MappingCoverage

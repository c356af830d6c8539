import IbSrp.PagedBytes

/-!
# Scatter/gather mapping: `srp_map_sg` and the functions it calls

The state follows `struct srp_map_state`. The page array is kept as the list of
the pages written since the last region was closed, so that `npages` is its
length; the descriptor array and the array of memory descriptors are kept as
lists in the same way. `pageWrites` is a history of the indices at which
`map_page` was stored to.

The channel enters only through `MrOps`: taking a fast-registration descriptor
from the pool, posting its work request and mapping an FMR. The functions are
generic in the channel state `σ` and in the memory descriptors `D`.

A key names what it refers to: the global DMA region of the target, or the page
list with which a memory descriptor was registered.
-/
namespace IbSrp.MemoryRegistration
open PagedBytes

/-- One element of a DMA-mapped scatter/gather list: a 64-bit address and a
32-bit length. -/
structure Sg where
  dmaAddress : ℕ
  dmaLen : ℕ
  address_lt : dmaAddress < 2^64 := by decide
  len_lt : dmaLen < 2^32 := by decide
deriving DecidableEq

def Sg.of (address len : ℕ) : Sg where
  dmaAddress := address % 2^64
  dmaLen := len % 2^32
  address_lt := Nat.mod_lt _ (Nat.two_pow_pos 64)
  len_lt := Nat.mod_lt _ (Nat.two_pow_pos 32)

/-- The registration geometry of an HCA as `srp_add_one` sets it up: a power of
two page size of at least 4096 bytes, its mask, and the largest region. The size of
the latter is an `int`, which is taken not to overflow. -/
structure SrpDevice where
  mrPageShift : ℕ
  maxPagesPerMr : ℕ
  useFastReg : Bool
  shift_ge : 12 ≤ mrPageShift := by decide
  shift_lt : mrPageShift < 31 := by decide
deriving DecidableEq

namespace SrpDevice

def mrPageSize (dev : SrpDevice) : ℕ := 2^dev.mrPageShift

def mrPageMask (dev : SrpDevice) : ℕ := 2^64-dev.mrPageSize

def mrMaxSize (dev : SrpDevice) : ℕ := dev.mrPageSize*dev.maxPagesPerMr

def pageOffset (dev : SrpDevice) (addr : ℕ) : ℕ := addr &&& (2^64-1-dev.mrPageMask)

def pageAddr (dev : SrpDevice) (addr : ℕ) : ℕ := addr &&& dev.mrPageMask

theorem mrPageSize_pos (dev : SrpDevice) : 0 < dev.mrPageSize := by
  unfold mrPageSize
  positivity

theorem mrPageSize_ge (dev : SrpDevice) : 4096 ≤ dev.mrPageSize := by
  have h := Nat.pow_le_pow_right (n := 2) (by norm_num) dev.shift_ge
  simpa [mrPageSize] using h

theorem mrPageSize_le (dev : SrpDevice) : dev.mrPageSize ≤ 2^30 :=
  Nat.pow_le_pow_right (by norm_num) (Nat.lt_succ_iff.mp dev.shift_lt)

theorem mrPageSize_dvd (dev : SrpDevice) : dev.mrPageSize ∣ 2^64 :=
  pow_dvd_pow 2 (by have := dev.shift_lt; omega)

theorem pageOffset_eq (dev : SrpDevice) (addr : ℕ) :
    dev.pageOffset addr = addr % dev.mrPageSize :=
  and_low_mask addr dev.mrPageShift (by have := dev.shift_lt; omega)

theorem pageAddr_eq (dev : SrpDevice) {addr : ℕ} (h : addr < 2^64) :
    dev.pageAddr addr = addr - addr % dev.mrPageSize :=
  and_high_mask h (by have := dev.shift_lt; omega)

theorem pageOffset_lt (dev : SrpDevice) (addr : ℕ) : dev.pageOffset addr < dev.mrPageSize := by
  rw [pageOffset_eq]
  exact Nat.mod_lt _ dev.mrPageSize_pos

theorem pageAddr_add_pageOffset (dev : SrpDevice) {addr : ℕ} (h : addr < 2^64) :
    dev.pageAddr addr + dev.pageOffset addr = addr := by
  rw [pageAddr_eq dev h, pageOffset_eq]
  exact Nat.sub_add_cancel (Nat.mod_le _ _)

/-- No page crosses the end of the address space. -/
theorem pageAddr_add_le (dev : SrpDevice) {addr : ℕ} (h : addr < 2^64) :
    dev.pageAddr addr + dev.mrPageSize ≤ 2^64 := by
  obtain ⟨c, hc⟩ := dev.mrPageSize_dvd
  have hd := Nat.div_add_mod addr dev.mrPageSize
  have hp : dev.pageAddr addr = dev.mrPageSize*(addr / dev.mrPageSize) := by
    rw [pageAddr_eq dev h]
    omega
  have hlt : addr / dev.mrPageSize < c := by
    rw [Nat.div_lt_iff_lt_mul dev.mrPageSize_pos, Nat.mul_comm, ← hc]
    exact h
  rw [hp, hc]
  calc dev.mrPageSize*(addr / dev.mrPageSize)+dev.mrPageSize
      = dev.mrPageSize*(addr / dev.mrPageSize+1) := by ring
    _ ≤ dev.mrPageSize*c := Nat.mul_le_mul_left _ hlt

end SrpDevice

/-- The registration services of a channel. A result `none` or `false` is the
error return of the call. -/
structure MrOps (σ D : Type) where
  srpFrPoolGet : σ → Option D × σ
  ibPostSend : σ → D → Bool × σ
  ibFmrPoolMapPhys : σ → List ℕ → Option D × σ

/-- The memory an rkey gives access to. -/
inductive Rkey (D : Type) where
  | target
  | fr (desc : D) (iovaStart : ℕ) (pageList : List ℕ)
  | fmr (desc : D) (pageList : List ℕ)
deriving DecidableEq

structure SrpDirectBuf (D : Type) where
  va : ℕ
  key : Rkey D
  len : ℕ
deriving DecidableEq

/-- The addresses a descriptor refers to: directly, through the page list from
the start of its registration on, or through the page list from address 0 on. -/
def SrpDirectBuf.bytes {D : Type} (dev : SrpDevice) (d : SrpDirectBuf D) : List ℕ :=
  match d.key with
  | .target => contiguous (2^64) d.va d.len
  | .fr _ iovaStart pageList =>
      paged dev.mrPageSize pageList
        (iovaStart % dev.mrPageSize + (d.va + 2^64 - iovaStart) % 2^64) d.len
  | .fmr _ pageList => paged dev.mrPageSize pageList d.va d.len

structure MapState (D : Type) where
  mrList : List D := []
  desc : List (SrpDirectBuf D) := []
  pages : List ℕ := []
  baseDmaAddr : ℕ := 0
  dmaLen : ℕ := 0
  totalLen : ℕ := 0
  unmappedSg : Option Sg := none
  unmappedIndex : ℕ := 0
  unmappedAddr : ℕ := 0
  pageWrites : List ℕ := []
deriving DecidableEq

namespace MapState
variable {D : Type}

def npages (st : MapState D) : ℕ := st.pages.length

def nmdesc (st : MapState D) : ℕ := st.mrList.length

def ndesc (st : MapState D) : ℕ := st.desc.length

end MapState

/-- What a mapping function leaves behind; `ok` is a return value of 0. -/
structure Mapped (σ D : Type) where
  ok : Bool
  state : MapState D
  ch : σ

section
variable {σ D : Type}

def srpMapDesc (st : MapState D) (dmaAddr dmaLen : ℕ) (rkey : Rkey D) : MapState D :=
  { st with desc := st.desc++[⟨dmaAddr, rkey, dmaLen⟩],
            totalLen := (st.totalLen+dmaLen) % 2^32 }

def srpMapFinishFmr (ops : MrOps σ D) (st : MapState D) (ch : σ) : Mapped σ D :=
  match ops.ibFmrPoolMapPhys ch st.pages with
  | (none, ch) => ⟨false, st, ch⟩
  | (some fmr, ch) =>
      ⟨true, srpMapDesc { st with mrList := st.mrList++[fmr] } 0 st.dmaLen
        (.fmr fmr st.pages), ch⟩

/-- The descriptor is stored before the work request is posted, whatever
`ib_post_send` returns. -/
def srpMapFinishFr (ops : MrOps σ D) (st : MapState D) (ch : σ) : Mapped σ D :=
  match ops.srpFrPoolGet ch with
  | (none, ch) => ⟨false, st, ch⟩
  | (some desc, ch) =>
      let r := ops.ibPostSend ch desc
      ⟨r.1, srpMapDesc { st with mrList := st.mrList++[desc] } st.baseDmaAddr st.dmaLen
        (.fr desc st.baseDmaAddr st.pages), r.2⟩

def srpFinishMapping (dev : SrpDevice) (registerAlways : Bool) (ops : MrOps σ D)
    (st : MapState D) (ch : σ) : Mapped σ D :=
  if st.npages = 0 then ⟨true, st, ch⟩
  else
    let r :=
      if st.npages = 1 ∧ registerAlways = false then
        ⟨true, srpMapDesc st st.baseDmaAddr st.dmaLen .target, ch⟩
      else if dev.useFastReg then srpMapFinishFr ops st ch
      else srpMapFinishFmr ops st ch
    if r.ok then ⟨true, { r.state with pages := [], dmaLen := 0 }, r.ch⟩ else r

def srpMapUpdateStart (st : MapState D) (sg : Option Sg) (sgIndex dmaAddr : ℕ) : MapState D :=
  { st with unmappedSg := sg, unmappedIndex := sgIndex, unmappedAddr := dmaAddr }

/-- `state->pages[state->npages++] = dma_addr & mr_page_mask`, with the base
address set by the first page of a region. -/
def srpMapPage (dev : SrpDevice) (st : MapState D) (dmaAddr len : ℕ) : MapState D :=
  { st with baseDmaAddr := if st.npages = 0 then dmaAddr else st.baseDmaAddr,
            pages := st.pages++[dev.pageAddr dmaAddr],
            pageWrites := st.pageWrites++[st.npages],
            dmaLen := (st.dmaLen+len) % 2^32 }

/-- The test at the head of the page loop: close the region when the page list
is full or the next chunk does not start a page. -/
def srpMapPageStart (dev : SrpDevice) (registerAlways : Bool) (ops : MrOps σ D) (sg : Sg)
    (sgIndex dmaAddr : ℕ) (st : MapState D) (ch : σ) : Mapped σ D :=
  if st.npages = dev.maxPagesPerMr ∨ dev.pageOffset dmaAddr ≠ 0 then
    let r := srpFinishMapping dev registerAlways ops st ch
    if r.ok then ⟨true, srpMapUpdateStart r.state (some sg) sgIndex dmaAddr, r.ch⟩ else r
  else ⟨true, st, ch⟩

/-- `while (dma_len)`: the result carries the length of the last chunk. Every
round consumes at least one byte, so the length itself is enough fuel. -/
def srpMapPages (dev : SrpDevice) (registerAlways : Bool) (ops : MrOps σ D) (sg : Sg)
    (sgIndex : ℕ) : ℕ → ℕ → ℕ → ℕ → MapState D → σ → Mapped σ D × ℕ
  | 0, _, _, len, st, ch => (⟨true, st, ch⟩, len)
  | fuel+1, dmaAddr, dmaLen, len, st, ch =>
      if dmaLen = 0 then (⟨true, st, ch⟩, len)
      else
        let r := srpMapPageStart dev registerAlways ops sg sgIndex dmaAddr st ch
        if r.ok then
          let len := min dmaLen (dev.mrPageSize - dev.pageOffset dmaAddr)
          srpMapPages dev registerAlways ops sg sgIndex fuel ((dmaAddr+len) % 2^64)
            (dmaLen-len) len (srpMapPage dev r.state dmaAddr len) r.ch
        else (r, len)

def srpMapSgEntry (dev : SrpDevice) (registerAlways : Bool) (ops : MrOps σ D) (useMr : Bool)
    (sg : Sg) (sgIndex : ℕ) (st : MapState D) (ch : σ) : Mapped σ D :=
  if sg.dmaLen = 0 then ⟨true, st, ch⟩
  else if useMr = false then ⟨true, srpMapDesc st sg.dmaAddress sg.dmaLen .target, ch⟩
  else if (dev.useFastReg = false ∧ dev.pageOffset sg.dmaAddress ≠ 0) ∨
      dev.mrMaxSize < sg.dmaLen then
    let r := srpFinishMapping dev registerAlways ops st ch
    if r.ok then
      ⟨true, srpMapUpdateStart (srpMapDesc r.state sg.dmaAddress sg.dmaLen .target) none 0 0, r.ch⟩
    else r
  else
    let st :=
      if st.unmappedSg = none then srpMapUpdateStart st (some sg) sgIndex sg.dmaAddress else st
    let (r, len) := srpMapPages dev registerAlways ops sg sgIndex sg.dmaLen sg.dmaAddress
      sg.dmaLen 0 st ch
    if r.ok then
      if len ≠ dev.mrPageSize then
        let r := srpFinishMapping dev registerAlways ops r.state r.ch
        if r.ok then ⟨true, srpMapUpdateStart r.state none 0 0, r.ch⟩ else r
      else r
    else r

/-- `for_each_sg` up to the first entry that cannot be mapped. -/
def forEachSg (dev : SrpDevice) (registerAlways : Bool) (ops : MrOps σ D) (useMr : Bool) :
    List Sg → ℕ → MapState D → σ → Mapped σ D
  | [], _, st, ch => ⟨true, st, ch⟩
  | sg::scat, i, st, ch =>
      let r := srpMapSgEntry dev registerAlways ops useMr sg i st ch
      if r.ok then forEachSg dev registerAlways ops useMr scat (i+1) r.state r.ch else r

/-- The `backtrack` label: describe the rest of the first unmapped entry with the
global rkey and go on behind it without registration. There is no result when
`unmapped_sg` is a null pointer. -/
def srpMapBacktrack (dev : SrpDevice) (registerAlways : Bool) (ops : MrOps σ D)
    (scat : List Sg) (st : MapState D) (ch : σ) : Option (MapState D × σ) :=
  match st.unmappedSg with
  | none => none
  | some sg =>
      let skip := (st.unmappedAddr + 2^64 - sg.dmaAddress) % 2^64
      let dmaLen := (sg.dmaLen + 2^32 - skip % 2^32) % 2^32
      let i := st.unmappedIndex+1
      let r := forEachSg dev registerAlways ops false (scat.drop i) i
        (srpMapDesc st st.unmappedAddr dmaLen .target) ch
      some (r.state, r.ch)

/-- `srp_map_sg` on the zeroed state `srp_map_data` hands it. `useMr` is whether
the channel has a pool of the kind the device uses. -/
def srpMapSg (dev : SrpDevice) (registerAlways useMr : Bool) (ops : MrOps σ D)
    (scat : List Sg) (ch : σ) : Option (MapState D × σ) :=
  let r := forEachSg dev registerAlways ops useMr scat 0 {} ch
  if r.ok then
    if useMr then
      let r := srpFinishMapping dev registerAlways ops r.state r.ch
      if r.ok then some (r.state, r.ch)
      else srpMapBacktrack dev registerAlways ops scat r.state r.ch
    else some (r.state, r.ch)
  else srpMapBacktrack dev registerAlways ops scat r.state r.ch

end

end IbSrp.MemoryRegistration

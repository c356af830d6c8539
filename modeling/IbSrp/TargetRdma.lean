import IbSrp.ChannelObjects
import IbSrp.SrpCommand

/-!
# The RDMA transfers of the target

The target knows the data buffer of the initiator as a list of remote descriptors, and its
own as a list of mapped segments. `srpt_map_sg_to_ib_sge` divides the transfer into work
requests. A work request has one remote address and up to 16 local pieces, so that each
descriptor needs one request, and another one whenever 16 pieces do not reach its end. The
first pass over the descriptors counts the pieces and allocates the slots for them; the
second one goes over the same descriptors and segments again and fills the slots.
`srpt_perform_rdmas` posts the requests.

Sizes are of type `u32` and addresses of type `u64`; `n_rdma` has 8 bits and `n_rdma_ius` 16.
The inner loops are run with a bound on the number of iterations. The calls of `kmalloc` are
looked at when the first pass is over: if one of them fails everything is given back and the
function returns `-ENOMEM`. The number of segments is far below `2^31`.
-/
namespace IbSrp.TargetRdma
open MemoryRegistration (Sg)
open SrpCommand (RemoteBuf)
open Channel (DataDirection)
open ChannelObjects (enomem)

def srptDefSgPerWqe : ℕ := 16

def eagain : ℤ := 11

/-- `struct ib_sge` -/
structure Sge where
  addr : ℕ
  length : ℕ
  lkey : ℕ
deriving DecidableEq, Repr

/-- `struct rdma_iu`, with `sgeCnt` slots allocated -/
structure RdmaIu where
  raddr : ℕ
  rkey : ℕ
  sgeCnt : ℕ
deriving DecidableEq, Repr

def sub32 (a b : ℕ) : ℕ := (a+2^32-b) % 2^32

/-- A loop of at most `fuel-1` iterations. -/
def whileLoop {σ : Type} (cond : σ → Bool) (body : σ → σ) : ℕ → σ → Option σ
  | 0, _ => none
  | fuel+1, s => if cond s then whileLoop cond body fuel (body s) else some s

/-- The variables of the first pass. `next` are the segments behind the current one, `riu` is
the entry whose pieces are being counted and `ius` are those before it. -/
structure Count where
  tsize : ℕ
  rsize : ℕ := 0
  raddr : ℕ := 0
  dmaLen : ℕ
  j : ℕ := 0
  next : List Sg
  riu : RdmaIu := ⟨0, 0, 0⟩
  ius : List RdmaIu := []
  nRdma : ℕ

/-- `++j`, and the next segment if there is one -/
def Count.advance (s : Count) : Count :=
  match s.next with
  | [] => { s with j := s.j+1 }
  | sg::next => { s with j := s.j+1, dmaLen := sg.dmaLen, next := next }

def Count.consume (s : Count) : Count :=
  if s.dmaLen ≤ s.rsize then
    let s := { s with
      tsize := sub32 s.tsize s.dmaLen
      rsize := sub32 s.rsize s.dmaLen
      raddr := (s.raddr+s.dmaLen) % 2^64 }
    if 0 < s.tsize then s.advance else s
  else
    { s with tsize := sub32 s.tsize s.rsize, dmaLen := sub32 s.dmaLen s.rsize, rsize := 0 }

/-- `++ioctx->n_rdma`, and the slots of the entry are allocated -/
def Count.close (s : Count) : Count :=
  { s with ius := s.ius++[s.riu], nRdma := (s.nRdma+1) % 2^8 }

def countStep (key : ℕ) (s : Count) : Count :=
  let s := s.consume
  let s := { s with riu := { s.riu with sgeCnt := s.riu.sgeCnt+1 } }
  if 0 < s.rsize ∧ s.riu.sgeCnt = srptDefSgPerWqe then
    { s.close with riu := ⟨s.raddr, key, 0⟩ }
  else s

def Count.more (s : Count) : Bool := 0 < s.rsize && 0 < s.tsize

def countBuf (fuel : ℕ) (db : RemoteBuf) (s : Count) : Option Count :=
  (whileLoop Count.more (countStep db.key) fuel
    { s with rsize := db.len, raddr := db.va, riu := ⟨db.va, db.key, 0⟩ }).map Count.close

def countBufs (fuel count : ℕ) : List RemoteBuf → Count → Option Count
  | [], s => some s
  | db::dbs, s =>
      if s.j < count ∧ 0 < s.tsize then (countBuf fuel db s).bind (countBufs fuel count dbs)
      else some s

/-- The slots for the pieces: `slots i k` is what has been written to slot `k` of entry `i`. -/
abbrev Slots := ℕ → ℕ → Option Sge

def Slots.write (slots : Slots) (i k : ℕ) (sge : Sge) : Slots :=
  fun i' k' => if i' = i ∧ k' = k then some sge else slots i' k'

/-- The variables of the second pass; `riu` is the index of the entry and `sge` the slot that
is written next. -/
structure Fill where
  tsize : ℕ
  rsize : ℕ := 0
  dmaLen : ℕ
  dmaAddr : ℕ
  j : ℕ := 0
  next : List Sg
  riu : ℕ := 0
  sge : ℕ := 0
  k : ℕ := 0
  slots : Slots := fun _ _ => none

def Fill.advance (s : Fill) : Fill :=
  match s.next with
  | [] => { s with j := s.j+1 }
  | sg::next =>
      { s with j := s.j+1, dmaLen := sg.dmaLen, dmaAddr := sg.dmaAddress, next := next }

def Fill.consume (lkey : ℕ) (s : Fill) : Fill :=
  if s.dmaLen ≤ s.rsize then
    let length := if s.tsize < s.dmaLen then s.tsize else s.dmaLen
    let s := { s with
      slots := s.slots.write s.riu s.sge ⟨s.dmaAddr, length, lkey⟩
      tsize := sub32 s.tsize s.dmaLen
      rsize := sub32 s.rsize s.dmaLen }
    if 0 < s.tsize then s.advance else s
  else
    let length := if s.tsize < s.rsize then s.tsize else s.rsize
    { s with
      slots := s.slots.write s.riu s.sge ⟨s.dmaAddr, length, lkey⟩
      tsize := sub32 s.tsize s.rsize
      dmaLen := sub32 s.dmaLen s.rsize
      dmaAddr := (s.dmaAddr+s.rsize) % 2^64
      rsize := 0 }

/-- `riu->sge_cnt`; the array has been zeroed when it was allocated -/
def sgeCnt (ius : List RdmaIu) (i : ℕ) : ℕ := (ius[i]?).elim 0 RdmaIu.sgeCnt

def fillStep (ius : List RdmaIu) (lkey : ℕ) (s : Fill) : Fill :=
  let s := s.consume lkey
  let s := { s with k := s.k+1 }
  if s.k = sgeCnt ius s.riu ∧ 0 < s.rsize ∧ 0 < s.tsize then
    { s with riu := s.riu+1, sge := 0, k := 0 }
  else if 0 < s.rsize ∧ 0 < s.tsize then { s with sge := s.sge+1 }
  else s

def Fill.more (s : Fill) : Bool := 0 < s.rsize && 0 < s.tsize

def fillBuf (fuel : ℕ) (ius : List RdmaIu) (lkey : ℕ) (db : RemoteBuf) (s : Fill) : Option Fill :=
  (whileLoop Fill.more (fillStep ius lkey) fuel
    { s with rsize := db.len, sge := 0, k := 0 }).map fun s => { s with riu := s.riu+1 }

def fillBufs (fuel count : ℕ) (ius : List RdmaIu) (lkey : ℕ) :
    List RemoteBuf → Fill → Option Fill
  | [], s => some s
  | db::dbs, s =>
      if s.j < count ∧ 0 < s.tsize then
        (fillBuf fuel ius lkey db s).bind (fillBufs fuel count ius lkey dbs)
      else some s

/-- The fields of `struct srpt_send_ioctx` that the transfer depends on. -/
structure SendIoctx where
  rbufs : List RemoteBuf
  dataLength : ℕ
  rdmaIus : Option (List RdmaIu) := none
  slots : Slots := fun _ _ => none
  nRdmaIus : ℕ := 0
  nRdma : ℕ := 0

/-- Which allocations succeed: that of the array, and those of the slots of its entries. -/
structure Allocs where
  kzalloc : Bool
  kmalloc : ℕ → Bool

/-- `srpt_map_sg_to_ib_sge`, `none` if the bound on the iterations is too small -/
def srptMapSgToIbSge (fuel lkey : ℕ) (allocs : Allocs) (sgs : List Sg) (ioctx : SendIoctx) :
    Option (Except ℤ SendIoctx) :=
  match sgs with
  | [] => some (.error (-eagain))
  | sg::next =>
      let count := sgs.length
      let reuse := ioctx.rdmaIus.isSome && ioctx.nRdmaIus ≠ 0
      if !reuse && !allocs.kzalloc then some (.error (-enomem))
      else
        let nrdma := (count+srptDefSgPerWqe-1) / srptDefSgPerWqe+ioctx.rbufs.length
        let nRdmaIus := if reuse then ioctx.nRdmaIus else nrdma % 2^16
        match countBufs fuel count ioctx.rbufs
            { tsize := ioctx.dataLength, dmaLen := sg.dmaLen, next := next,
              nRdma := ioctx.nRdma } with
        | none => none
        | some c =>
            if (List.range c.ius.length).any fun i => !allocs.kmalloc i then
              some (.error (-enomem))
            else
              match fillBufs fuel count c.ius lkey ioctx.rbufs
                  { tsize := ioctx.dataLength, dmaLen := sg.dmaLen, dmaAddr := sg.dmaAddress,
                    next := next } with
              | none => none
              | some f => some (.ok { ioctx with
                  rdmaIus := some c.ius, slots := f.slots, nRdmaIus := nRdmaIus,
                  nRdma := c.nRdma })

inductive Opcode where
  | rdmaWrite
  | rdmaRead
deriving DecidableEq, Repr

/-- `struct ib_send_wr`; `last` stands for the kind of request that `wr_id` encodes -/
structure SendWr where
  opcode : Opcode
  last : Bool
  signaled : Bool
  remoteAddr : ℕ
  rkey : ℕ
  sgList : List (Option Sge)

def SendIoctx.wr (ioctx : SendIoctx) (dir : DataDirection) (i : ℕ) : SendWr :=
  let riu := ((ioctx.rdmaIus.getD [])[i]?).getD ⟨0, 0, 0⟩
  { opcode := if dir = .fromDevice then .rdmaWrite else .rdmaRead
    last := i+1 = ioctx.nRdma
    signaled := i+1 = ioctx.nRdma ∧ dir = .toDevice
    remoteAddr := riu.raddr
    rkey := riu.rkey
    sgList := (List.range riu.sgeCnt).map (ioctx.slots i) }

/-- The loop that posts; `post i` is the return value of `ib_post_send` for entry `i`. -/
def postRdmas (ioctx : SendIoctx) (dir : DataDirection) (post : ℕ → ℤ) :
    List ℕ → ℤ × List SendWr
  | [] => (0, [])
  | i::is =>
      if post i ≠ 0 then (post i, [])
      else
        let p := postRdmas ioctx dir post is
        (p.1, ioctx.wr dir i::p.2)

/-- `srpt_perform_rdmas`: the return value and the requests that have been posted -/
def srptPerformRdmas (dir : DataDirection) (sqWrAvail : ℤ) (post : ℕ → ℤ) (ioctx : SendIoctx) :
    ℤ × List SendWr :=
  if dir = .toDevice ∧ sqWrAvail-ioctx.nRdma < 0 then (-enomem, [])
  else postRdmas ioctx dir post (List.range ioctx.nRdma)

end IbSrp.TargetRdma

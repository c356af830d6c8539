import IbSrp.ByteBuffer
import IbSrp.Channel

/-!
# The data descriptors of an SRP_CMD

`srp_map_data` writes the descriptors of a command's data into the SRP_CMD, and
the target's `srpt_get_desc_tbl` reads them from the bytes it receives. The two
agree on the bytes only: the format of the descriptor stands in one half of
`buf_fmt`, which also tells the direction, and an indirect descriptor is a packed
header of 20 bytes with the first descriptors of the table behind it.

`DataDesc` is what `srp_map_data` decides to write. Keys are abstract in the
mapping functions; `rkey` gives the number that the HCA uses for each of them.
The fields of the command in front of the descriptors are written before, by
`srp_queuecommand`, in a buffer with any content.
-/
namespace IbSrp.SrpCommand
open ByteBuffer MemoryRegistration Channel

/-- `struct srp_direct_buf` in the byte order of the CPU -/
structure RemoteBuf where
  va : ℕ
  key : ℕ
  len : ℕ
deriving DecidableEq, Repr

def RemoteBuf.bytes (buf : RemoteBuf) : List Byte :=
  bigEndian 8 buf.va++(bigEndian 4 buf.key++bigEndian 4 buf.len)

def RemoteBuf.ofBytes (bytes : List Byte) : RemoteBuf :=
  ⟨value (bytes.take 8), value ((bytes.drop 8).take 4), value (bytes.drop 12)⟩

/-- The fields fit in the structure. -/
def RemoteBuf.InRange (buf : RemoteBuf) : Prop := buf.va < 2^64 ∧ buf.key < 2^32 ∧ buf.len < 2^32

/-- Offsets in `struct srp_cmd`. -/
def bufFmtOff : ℕ := 5

def dataOutDescCntOff : ℕ := 6

def dataInDescCntOff : ℕ := 7

def tagOff : ℕ := 8

def lunOff : ℕ := 20

def addCdbLenOff : ℕ := 31

def cdbOff : ℕ := 32

def addDataOff : ℕ := 48

/-- Offsets in `struct srp_indirect_buf`. -/
def indirectLenOff : ℕ := 16

def descListOff : ℕ := 20

def srpCmd : Byte := 0x02

def srpDataDescDirect : Byte := 1

def srpDataDescIndirect : Byte := 2

def srpDataDescImm : Byte := 3

/-- The fields that `srp_queuecommand` copies into an SRP_CMD, as bytes. -/
structure CmdHeader where
  lun : List Byte
  tag : List Byte
  cdb : List Byte
  lun_length : lun.length = 8 := by decide
  tag_length : tag.length = 8 := by decide
  cdb_length : cdb.length ≤ 16 := by decide

/-- The part of `srp_queuecommand` that writes to the buffer. -/
def CmdHeader.put (hdr : CmdHeader) (cmd : Buffer) : Buffer :=
  let cmd := store cmd 0 (List.replicate srpCmdSize 0)
  let cmd := store cmd 0 [srpCmd]
  let cmd := store cmd lunOff hdr.lun
  let cmd := store cmd tagOff hdr.tag
  store cmd cdbOff hdr.cdb

/-- The descriptor of the data. An indirect one has the whole table and `total_len`. -/
inductive DataDesc where
  | noData
  | imm (len : ℕ)
  | direct (buf : RemoteBuf)
  | indirect (table : List RemoteBuf) (totalLen : ℕ)
deriving DecidableEq, Repr

section
variable (hca : Hca) (target : SrpTargetPort) (rkey : Rkey MrDesc → BitVec 32)

def remoteBuf (desc : SrpDirectBuf MrDesc) : RemoteBuf :=
  ⟨desc.va, (rkey desc.key).toNat, desc.len⟩

/-- The part of `srp_map_data` after its call of `srp_map_sg`. -/
def mappedDesc (st : MapState MrDesc) : Option DataDesc :=
  match st.desc with
  | [desc] => some (.direct (remoteBuf rkey desc))
  | descs =>
      if target.cmdSgCnt < descs.length ∧ target.allowExtSg = false then none
      else some (.indirect (descs.map (remoteBuf rkey)) st.totalLen)

/-- The descriptor that `srp_map_data` uses; there is none if it returns an error. -/
def srpMapDataDesc (scmnd : ScsiCmnd) (ch : SrpRdmaCh) : Option DataDesc :=
  match scmnd.sglist with
  | none => some .noData
  | some scat =>
      if scmnd.dataDirection = .none then some .noData
      else if scmnd.dataDirection = .bidirectional then none
      else
        match scat with
        | [] => none
        | sg::rest =>
            if target.immediate scmnd (sg::rest) then some (.imm scmnd.bufflen)
            else if rest = [] ∧ target.registerAlways = false then
              some (.direct (remoteBuf rkey ⟨sg.dmaAddress, .target, sg.dmaLen⟩))
            else
              match srpMapSg target.dev target.registerAlways target.hasPool (mrOps hca)
                (sg::rest) ch with
              | none => none
              | some (st, _) => mappedDesc target rkey st

/-- The format of an output descriptor is in the upper half of the byte. -/
def bufFmt (dir : DataDirection) (fmt : Byte) : Byte :=
  if dir = .toDevice then fmt <<< 4 else fmt

def setBufFmt (dir : DataDirection) (fmt : Byte) (cmd : Buffer) : Buffer :=
  store cmd bufFmtOff [bufFmt dir fmt]

def setDescCnt (dir : DataDirection) (count : ℕ) (cmd : Buffer) : Buffer :=
  store cmd (if dir = .toDevice then dataOutDescCntOff else dataInDescCntOff)
    [BitVec.ofNat 8 count]

/-- `struct srp_indirect_buf` with its descriptors, behind the command. -/
def putIndirect (tableDesc : RemoteBuf) (totalLen : ℕ) (descs : List RemoteBuf) (cmd : Buffer) :
    Buffer :=
  let cmd := store cmd (addDataOff+descListOff) (descs.flatMap RemoteBuf.bytes)
  let cmd := store cmd addDataOff tableDesc.bytes
  store cmd (addDataOff+indirectLenOff) (bigEndian 4 totalLen)

/-- How `srp_map_data` writes a descriptor. The table is at `indirectDmaAddr` in the memory
of the initiator; as much of it as is allowed is copied into the command. -/
def DataDesc.put (dir : DataDirection) (indirectDmaAddr : ℕ) : DataDesc → Buffer → Buffer
  | .noData, cmd => cmd
  | .imm len, cmd =>
      let cmd := store cmd addDataOff (bigEndian 4 len)
      setBufFmt dir srpDataDescImm (store cmd (addDataOff+4) (bigEndian 4 srpImmDataOutOffset))
  | .direct buf, cmd => setBufFmt dir srpDataDescDirect (store cmd addDataOff buf.bytes)
  | .indirect table totalLen, cmd =>
      let count := min table.length target.cmdSgCnt
      let tableLen := table.length*srpDirectBufSize % 2^32
      let tableDesc := ⟨indirectDmaAddr, (rkey .target).toNat, tableLen⟩
      setBufFmt dir srpDataDescIndirect
        (setDescCnt dir count (putIndirect tableDesc totalLen (table.take count) cmd))

/-- The length of an SRP_CMD with this descriptor. -/
def DataDesc.len : DataDesc → ℕ
  | .noData => srpCmdSize
  | .imm _ => srpImmDataOutOffset
  | .direct _ => srpCmdSize+srpDirectBufSize
  | .indirect table _ =>
      srpCmdSize+srpIndirectBufSize+(min table.length target.cmdSgCnt)*srpDirectBufSize

theorem mappedDesc_len (st : MapState MrDesc) (i : ℕ) (ch : SrpRdmaCh) :
    (if st.ndesc = 1 then
        (some (CmdLayout.mk (srpCmdSize+srpDirectBufSize) 1),
          ch.setReq i { ch.reqRing i with mrList := st.mrList })
      else if target.cmdSgCnt < st.ndesc ∧ target.allowExtSg = false then
        (none, ch.setReq i { ch.reqRing i with mrList := st.mrList })
      else
        (some (CmdLayout.mk (srpCmdSize+srpIndirectBufSize+
          (min st.ndesc target.cmdSgCnt)*srpDirectBufSize) 1),
          ch.setReq i { ch.reqRing i with mrList := st.mrList })).1.map CmdLayout.len =
      (mappedDesc target rkey st).map (DataDesc.len target) := by
  unfold MapState.ndesc mappedDesc
  cases hdesc : st.desc with
  | nil => simp [DataDesc.len]
  | cons desc descs =>
      cases descs with
      | nil => rfl
      | cons desc' descs =>
          have hmany : (desc::desc'::descs).length ≠ 1 := by simp
          simp only [if_neg hmany]
          split
          · rfl
          · simp [DataDesc.len]

/-- This is the descriptor that the channel's `srp_map_data` leaves room for. -/
theorem srpMapData_len (scmnd : ScsiCmnd) (i : ℕ) (ch : SrpRdmaCh) :
    (srpMapData hca target scmnd i ch).1.map CmdLayout.len =
      (srpMapDataDesc hca target rkey scmnd ch).map (DataDesc.len target) := by
  unfold srpMapData srpMapDataDesc
  cases scmnd.sglist with
  | none => rfl
  | some scat =>
      simp only
      by_cases hnone : scmnd.dataDirection = .none
      · simp only [if_pos hnone]
        rfl
      · by_cases hbi : scmnd.dataDirection = .bidirectional
        · simp only [if_neg hnone, if_pos hbi]
          rfl
        · simp only [if_neg hnone, if_neg hbi]
          cases scat with
          | nil => rfl
          | cons sg rest =>
              have hlength : (sg::rest).length = 1 ↔ rest = [] := by simp
              simp only [hlength, reduceCtorEq, if_false]
              split_ifs with himm hone
              · rfl
              · rfl
              · cases hmap : srpMapSg target.dev target.registerAlways target.hasPool (mrOps hca)
                    (sg::rest) ch with
                | none => rfl
                | some p => exact mappedDesc_len target rkey p.1 i p.2

end

inductive Errno where
  | einval
  | enomem
deriving DecidableEq, Repr

/-- What `srpt_get_desc_tbl` leaves in the I/O context and in its result parameters. -/
structure DescTbl where
  dir : DataDirection
  rbufs : List RemoteBuf
  dataLen : ℕ
deriving DecidableEq, Repr

/-- `srpt_get_desc_tbl`, where `n_rbuf` has 8 bits; `kmalloc` tells for which sizes there
is memory. -/
def srptGetDescTbl (kmalloc : ℕ → Bool) (cmd : Buffer) : Except Errno DescTbl :=
  let inFmt := cmd bufFmtOff &&& 0xf
  let outFmt := cmd bufFmtOff >>> 4
  let dir : DataDirection :=
    if inFmt ≠ 0 then .fromDevice else if outFmt ≠ 0 then .toDevice else .none
  let off := addDataOff+(cmd addCdbLenOff &&& 0xfc).toNat
  if inFmt = srpDataDescDirect ∨ outFmt = srpDataDescDirect then
    let db := RemoteBuf.ofBytes (load cmd off srpDirectBufSize)
    .ok ⟨dir, [db], db.len⟩
  else if inFmt = srpDataDescIndirect ∨ outFmt = srpDataDescIndirect then
    let tableDesc := RemoteBuf.ofBytes (load cmd off srpDirectBufSize)
    let nRbuf := tableDesc.len / srpDirectBufSize % 2^8
    if (cmd dataOutDescCntOff).toNat+(cmd dataInDescCntOff).toNat < nRbuf then .error .einval
    else if nRbuf ≠ 1 ∧ kmalloc (nRbuf*srpDirectBufSize) = false then .error .enomem
    else
      let descs := load cmd (off+descListOff) (nRbuf*srpDirectBufSize)
      .ok ⟨dir, parse srpDirectBufSize RemoteBuf.ofBytes nRbuf descs,
        loadBe 4 cmd (off+indirectLenOff)⟩
  else .ok ⟨dir, [], 0⟩

end IbSrp.SrpCommand

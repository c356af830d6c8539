import IbSrp.DescriptorFormat
import IbSrp.TargetLimits

/-!
# The SRP_CMD as it is sent

A transmit buffer has `max_iu_len` bytes, which is what an SRP_CMD with an indirect
descriptor and `cmd_sg_cnt` descriptors behind it takes. The login asks the target
for messages of that length and the target grants some maximum. A command with
immediate data is longer than its buffer: the work request gathers the first 80
bytes of the buffer and then the data itself, entry by entry.

The result of this module is that for every command that `srp_map_data` accepts the
bytes written stay in the buffer, the message stays below what was granted, and the
target finds the data of the command where the message says it is. The SCSI
mid-layer promises that the entries of a command's list have `scsi_bufflen` bytes
together.
-/
namespace IbSrp.CommandGather
open PagedBytes MemoryRegistration MappingCoverage ByteBuffer Channel SrpCommand DescriptorFormat

/-- `struct ib_sge` -/
structure Sge where
  addr : ℕ
  length : ℕ
deriving DecidableEq, Repr

def maxIuLen (target : SrpTargetPort) : ℕ :=
  srpCmdSize+srpIndirectBufSize+target.cmdSgCnt*srpDirectBufSize

/-- The entries that `srp_map_data` stores from `sge[1]` on. -/
def srpMapDataSge (target : SrpTargetPort) (scmnd : ScsiCmnd) : List Sge :=
  match scmnd.sglist with
  | none => []
  | some scat =>
      if target.immediate scmnd scat then scat.map fun sg => ⟨sg.dmaAddress, sg.dmaLen⟩ else []

/-- The message that the HCA gathers: `len` bytes of the buffer, then the entries. -/
def gathered (mem : ℕ → Byte) (buf : Buffer) (len : ℕ) (sges : List Sge) : List Byte :=
  load buf 0 len++sges.flatMap fun sge => (contiguous (2^64) sge.addr sge.length).map mem

def commandData (mem : ℕ → Byte) (scmnd : ScsiCmnd) : List Byte :=
  (sgBytes (scmnd.sglist.getD [])).map mem

/-- The list of the command describes `scsi_bufflen` bytes. -/
def HasBufflen (scmnd : ScsiCmnd) : Prop := scmnd.bufflen = sgLen (scmnd.sglist.getD [])

section
variable (target : SrpTargetPort) (rkey : Rkey MrDesc → BitVec 32)

/-- The buffer after `srp_queuecommand` has written the command with its descriptor. -/
def written (scmnd : ScsiCmnd) (desc : DataDesc) (hdr : CmdHeader) (indirectDmaAddr : ℕ)
    (cmd : Buffer) : Buffer :=
  desc.put target rkey scmnd.dataDirection indirectDmaAddr (hdr.put cmd)

/-- The command fits: in the buffer, in the message length that was granted, in the
entries of the work request and in the count field; and immediate data is where the
descriptor says. -/
structure CommandFits (scmnd : ScsiCmnd) (layout : CmdLayout) (desc : DataDesc) : Prop where
  writes : ∀ hdr indirectDmaAddr cmd j, maxIuLen target ≤ j →
    written target rkey scmnd desc hdr indirectDmaAddr cmd j = cmd j
  len_le : layout.len ≤ maxIuLen target
  gathered_le : layout.len+((srpMapDataSge target scmnd).map Sge.length).sum ≤ target.maxItIuLen
  numSge : layout.numSge = 1+(srpMapDataSge target scmnd).length
  numSge_le : layout.numSge ≤ 1+srpMaxImmSge
  descCnt : ∀ table totalLen, desc = .indirect table totalLen → ∀ hdr indirectDmaAddr cmd,
    (written target rkey scmnd desc hdr indirectDmaAddr cmd
      (if scmnd.dataDirection = .toDevice then dataOutDescCntOff else dataInDescCntOff)).toNat =
        min table.length target.cmdSgCnt
  immediate : ∀ dataLen, desc = .imm dataLen → ∀ hdr indirectDmaAddr cmd mem,
    let buf := written target rkey scmnd desc hdr indirectDmaAddr cmd
    let message := gathered mem buf layout.len (srpMapDataSge target scmnd)
    (message.drop (loadBe 4 buf (addDataOff+4))).take (loadBe 4 buf addDataOff) =
      commandData mem scmnd

end

section
variable {hca : Hca} {target : SrpTargetPort} {rkey : Rkey MrDesc → BitVec 32}
variable {scmnd : ScsiCmnd} {desc : DataDesc}

theorem mappedDesc_ne_imm (st : MapState MrDesc) (n : ℕ) :
    mappedDesc target rkey st ≠ some (.imm n) := by
  unfold mappedDesc
  split
  · simp
  · split_ifs <;> simp

/-- Immediate data is the only kind of data that the work request gathers. -/
theorem srpMapDataDesc_imm {ch : SrpRdmaCh}
    (h : srpMapDataDesc hca target rkey scmnd ch = some desc) :
    (∃ scat, scmnd.sglist = some scat ∧ target.immediate scmnd scat = true ∧
      desc = .imm scmnd.bufflen) ∨
    (srpMapDataSge target scmnd = [] ∧ ∀ n, desc ≠ .imm n) := by
  unfold srpMapDataDesc at h
  unfold srpMapDataSge
  cases hsg : scmnd.sglist with
  | none =>
      rw [hsg] at h
      cases h
      exact Or.inr ⟨rfl, fun n => DataDesc.noConfusion⟩
  | some scat =>
      rw [hsg] at h
      simp only at h ⊢
      by_cases himm : target.immediate scmnd scat = true
      · have hdir : scmnd.dataDirection = .toDevice := by
          simp only [SrpTargetPort.immediate, Bool.and_eq_true, decide_eq_true_eq] at himm
          exact himm.2
        cases scat with
        | nil => simp [hdir] at h
        | cons sg rest =>
            simp only [hdir, reduceCtorEq, if_false, himm, if_true] at h
            cases h
            exact Or.inl ⟨_, rfl, himm, rfl⟩
      · right
        constructor
        · rw [if_neg himm]
        · intro n hn
          rw [hn] at h
          split_ifs at h
          · cases h
          · split at h
            · cases h
            · rw [if_neg himm] at h
              split_ifs at h
              · cases h
              · split at h
                · cases h
                · exact mappedDesc_ne_imm _ n h

theorem srpMapData_numSge {i : ℕ} {ch ch' : SrpRdmaCh} {layout : CmdLayout}
    (h : srpMapData hca target scmnd i ch = (some layout, ch')) :
    layout.numSge = 1+(srpMapDataSge target scmnd).length := by
  unfold srpMapData at h
  unfold srpMapDataSge
  cases hsg : scmnd.sglist with
  | none =>
      rw [hsg] at h
      cases h
      rfl
  | some scat =>
      rw [hsg] at h
      simp only at h ⊢
      by_cases himm : target.immediate scmnd scat = true
      · have hdir : scmnd.dataDirection = .toDevice := by
          simp only [SrpTargetPort.immediate, Bool.and_eq_true, decide_eq_true_eq] at himm
          exact himm.2
        simp only [hdir, reduceCtorEq, if_false, himm, if_true] at h ⊢
        split_ifs at h
        · cases h
        · cases h
          simp [Nat.add_comm]
      · rw [if_neg himm] at h ⊢
        split_ifs at h
        · cases h
          rfl
        · cases h
        · cases h
        · cases h
          rfl
        · split at h
          · cases h
          · split_ifs at h
            · cases h
              rfl
            · cases h
            · cases h
              rfl

theorem put_header_beyond (hdr : CmdHeader) (cmd : Buffer) {j : ℕ} (hj : addDataOff ≤ j) :
    hdr.put cmd j = cmd j := by
  have hlun := hdr.lun_length
  have htag := hdr.tag_length
  have hcdb := hdr.cdb_length
  unfold addDataOff at hj
  unfold CmdHeader.put
  rw [store_of_disjoint _ _ (by simp only [cdbOff]; omega),
    store_of_disjoint _ _ (by simp only [tagOff]; omega),
    store_of_disjoint _ _ (by simp only [lunOff]; omega),
    store_of_disjoint _ _ (by simp only [List.length_singleton]; omega),
    store_of_disjoint _ _ (by simp only [List.length_replicate, srpCmdSize]; omega)]

/-- No descriptor reaches beyond the buffer. -/
theorem put_beyond (dir : DataDirection) (addr : ℕ) (desc : DataDesc) (cmd : Buffer) {j : ℕ}
    (hpos : 0 < target.cmdSgCnt) (hj : maxIuLen target ≤ j) :
    desc.put target rkey dir addr cmd j = cmd j := by
  unfold maxIuLen srpCmdSize srpIndirectBufSize srpDirectBufSize at hj
  have hfmt : bufFmtOff < j := by
    unfold bufFmtOff
    omega
  cases desc with
  | noData => rfl
  | imm len =>
      simp only [DataDesc.put]
      rw [setBufFmt_other _ _ _ hfmt,
        store_of_disjoint _ _ (by simp only [bigEndian_length, addDataOff]; omega),
        store_of_disjoint _ _ (by simp only [bigEndian_length, addDataOff]; omega)]
  | direct buf =>
      simp only [DataDesc.put]
      rw [setBufFmt_other _ _ _ hfmt, store_of_disjoint _ _
        (by simp only [bytes_length, addDataOff, srpDirectBufSize]; omega)]
  | indirect table totalLen =>
      have hcount : (table.take (min table.length target.cmdSgCnt)).length ≤ target.cmdSgCnt := by
        rw [List.length_take]
        omega
      have htag : tagOff ≤ j := by
        unfold tagOff
        omega
      simp only [DataDesc.put, putIndirect]
      rw [setBufFmt_other _ _ _ hfmt, setDescCnt_other _ _ _ htag,
        store_of_disjoint _ _
          (by simp only [bigEndian_length, addDataOff, indirectLenOff]; omega),
        store_of_disjoint _ _ (by simp only [bytes_length, addDataOff, srpDirectBufSize]; omega),
        store_of_disjoint _ _ (by
          simp only [flatMap_bytes_length, addDataOff, descListOff, srpDirectBufSize]
          omega)]

theorem len_le_maxIuLen (desc : DataDesc) (hpos : 0 < target.cmdSgCnt) :
    desc.len target ≤ maxIuLen target := by
  unfold maxIuLen
  cases desc with
  | noData => simp [DataDesc.len, Nat.add_assoc]
  | imm len =>
      simp only [DataDesc.len, srpImmDataOutOffset, srpCmdSize, srpIndirectBufSize,
        srpDirectBufSize]
      omega
  | direct buf =>
      simp only [DataDesc.len, srpCmdSize, srpIndirectBufSize, srpDirectBufSize]
      omega
  | indirect table totalLen =>
      have hmin : min table.length target.cmdSgCnt ≤ target.cmdSgCnt := Nat.min_le_right _ _
      exact Nat.add_le_add_left (Nat.mul_le_mul_right _ hmin) _

/-- The count of an indirect descriptor is at most 255 and does not wrap around. -/
theorem descCnt_put (dir : DataDirection) (addr : ℕ) (table : List RemoteBuf) (totalLen : ℕ)
    (cmd : Buffer) (hle : target.cmdSgCnt ≤ 255) :
    (DataDesc.put target rkey dir addr (.indirect table totalLen) cmd
      (if dir = .toDevice then dataOutDescCntOff else dataInDescCntOff)).toNat =
        min table.length target.cmdSgCnt := by
  have hoff : bufFmtOff < (if dir = .toDevice then dataOutDescCntOff else dataInDescCntOff) := by
    split <;> decide
  simp only [DataDesc.put]
  rw [setBufFmt_other _ _ _ hoff, setDescCnt, store_head, BitVec.toNat_ofNat]
  exact Nat.mod_eq_of_lt (by omega)

theorem imm_put (target : SrpTargetPort) (rkey : Rkey MrDesc → BitVec 32) (dir : DataDirection)
    (addr len : ℕ) (cmd : Buffer) (hlen : len < 2^32) :
    loadBe 4 (DataDesc.put target rkey dir addr (.imm len) cmd) addDataOff = len ∧
      loadBe 4 (DataDesc.put target rkey dir addr (.imm len) cmd) (addDataOff+4) =
        srpImmDataOutOffset := by
  simp only [DataDesc.put, loadBe]
  constructor
  · rw [load_setBufFmt _ _ _ (by decide), load_store_of_disjoint _ _ (Or.inl (by decide))]
    exact (loadBe_store_bigEndian _ _ 4 len).trans (Nat.mod_eq_of_lt hlen)
  · rw [load_setBufFmt _ _ _ (by decide)]
    exact loadBe_store_bigEndian _ _ 4 srpImmDataOutOffset

theorem flatMap_sge (mem : ℕ → Byte) (scat : List Sg) :
    ((scat.map fun sg => Sge.mk sg.dmaAddress sg.dmaLen).flatMap fun sge =>
      (contiguous (2^64) sge.addr sge.length).map mem) = (sgBytes scat).map mem := by
  rw [List.flatMap_map, sgBytes, List.map_flatMap]

theorem sum_sge (scat : List Sg) :
    ((scat.map fun sg => Sge.mk sg.dmaAddress sg.dmaLen).map Sge.length).sum = sgLen scat := by
  rw [List.map_map]
  rfl

/-- Every SRP_CMD fits, whatever the list, the registrations and the grant are. -/
theorem srp_cmd_fits (hca : Hca) (target : SrpTargetPort) (rkey : Rkey MrDesc → BitVec 32)
    (scmnd : ScsiCmnd) (i : ℕ) (ch ch' : SrpRdmaCh) (layout : CmdLayout)
    (hpos : 1 ≤ target.cmdSgCnt) (hle : target.cmdSgCnt ≤ 255)
    (hgrant : maxIuLen target ≤ target.maxItIuLen) (hdata : HasBufflen scmnd)
    (h : srpMapData hca target scmnd i ch = (some layout, ch')) :
    ∃ desc, srpMapDataDesc hca target rkey scmnd ch = some desc ∧ layout.len = desc.len target ∧
      CommandFits target rkey scmnd layout desc := by
  have hlen := srpMapData_len hca target rkey scmnd i ch
  rw [h] at hlen
  obtain ⟨desc, hdesc, hlayout⟩ := Option.map_eq_some_iff.mp hlen.symm
  have hnum := srpMapData_numSge h
  have hmax : layout.len ≤ maxIuLen target := hlayout ▸ len_le_maxIuLen desc hpos
  refine ⟨desc, hdesc, hlayout.symm, ?_⟩
  have hwrites : ∀ hdr indirectDmaAddr cmd j, maxIuLen target ≤ j →
      written target rkey scmnd desc hdr indirectDmaAddr cmd j = cmd j := by
    intro hdr addr cmd j hj
    have hbehind : addDataOff ≤ j := by
      unfold maxIuLen srpCmdSize srpIndirectBufSize at hj
      unfold addDataOff
      omega
    rw [written, put_beyond _ _ _ _ hpos hj, put_header_beyond hdr cmd hbehind]
  have hcnt : ∀ table totalLen, desc = .indirect table totalLen → ∀ hdr indirectDmaAddr cmd,
      (written target rkey scmnd desc hdr indirectDmaAddr cmd
        (if scmnd.dataDirection = .toDevice then dataOutDescCntOff else dataInDescCntOff)).toNat =
          min table.length target.cmdSgCnt := by
    intro table totalLen hind hdr addr cmd
    rw [written, hind]
    exact descCnt_put _ _ table totalLen _ hle
  rcases srpMapDataDesc_imm hdesc with ⟨scat, hsg, himm, hd⟩ | ⟨hnone, hnot⟩
  · have hsges : srpMapDataSge target scmnd =
        scat.map fun sg => ⟨sg.dmaAddress, sg.dmaLen⟩ := by
      simp only [srpMapDataSge, hsg, himm, if_true]
    have hbufflen : scmnd.bufflen = sgLen scat := by simpa [HasBufflen, hsg] using hdata
    have hoff : layout.len = srpImmDataOutOffset := by rw [← hlayout, hd]; rfl
    simp only [SrpTargetPort.immediate, Bool.and_eq_true, decide_eq_true_eq] at himm
    constructor
    · exact hwrites
    · exact hmax
    · rw [hsges, sum_sge, hoff, ← hbufflen]
      exact himm.1.2
    · exact hnum
    · rw [hnum, hsges, List.length_map]
      exact Nat.add_le_add_left himm.1.1.2 1
    · exact hcnt
    · intro dataLen hdl hdr addr cmd mem
      rw [hd] at hdl
      cases hdl
      have hlt : scmnd.bufflen < 2^32 := hbufflen ▸ scmnd.len_lt scat hsg
      obtain ⟨hadvertised, hoffset⟩ :=
        imm_put target rkey scmnd.dataDirection addr scmnd.bufflen (hdr.put cmd) hlt
      simp only [written, hd, hadvertised, hoffset, gathered, hsges, flatMap_sge, commandData, hsg,
        Option.getD_some, hoff]
      rw [List.drop_left' (load_length ..)]
      apply List.take_of_length_le
      rw [List.length_map, sgBytes_length, hbufflen]
  · constructor
    · exact hwrites
    · exact hmax
    · rw [hnone]
      exact hmax.trans hgrant
    · exact hnum
    · rw [hnum, hnone]
      exact Nat.le_add_right 1 _
    · exact hcnt
    · exact fun dataLen hdl => absurd hdl (hnot dataLen)

end

def immTarget : SrpTargetPort :=
  { ChannelSystem.smallTarget with enableImmData := true, bufFormatImm := true, maxItIuLen := 8192 }

def twoBlockWrite : ScsiCmnd := { DescriptorFormat.twoBlocks with dataDirection := .toDevice }

theorem srp_cmd_fits_immediate : ∃ desc,
    srpMapDataDesc ChannelSystem.willingHca immTarget (fun _ => 0) twoBlockWrite
      (SrpRdmaCh.login immTarget 4) = some desc ∧ 80 = desc.len immTarget ∧
      CommandFits immTarget (fun _ => 0) twoBlockWrite ⟨80, 3⟩ desc :=
  srp_cmd_fits ChannelSystem.willingHca immTarget (fun _ => 0) twoBlockWrite 0
    (SrpRdmaCh.login immTarget 4) _ ⟨80, 3⟩ (by decide) (by decide) (by decide) rfl rfl

end IbSrp.CommandGather

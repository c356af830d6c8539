import IbSrp.SrpCommand
import IbSrp.ChannelSystem

/-!
# What the target reads from an SRP_CMD

The descriptors that `srp_map_sg` leaves fit in their fields, and `total_len` is
the sum of their lengths modulo 2^32; this holds whichever registrations fail.
Hence a descriptor that is written to the command is read back as it was.

If the command has room for the whole table, `srpt_get_desc_tbl` finds the table,
the direction and `total_len`. If the table is longer, it compares the count in
the header with the number of descriptors it was told of, but that number has
been cut to eight bits by then.
-/
namespace IbSrp.DescriptorFormat
open ByteBuffer MemoryRegistration MappingCoverage MappingResults Channel SrpCommand
open ChannelSystem (smallTarget willingHca)

section
variable {σ D : Type} {st : MapState D}

/-- The descriptors fit in their fields, and so do the numbers for the next one. -/
structure Formed (st : MapState D) : Prop where
  desc : ∀ d ∈ st.desc, d.va < 2^64 ∧ d.len < 2^32
  total : st.totalLen = (st.desc.map SrpDirectBuf.len).sum % 2^32
  base : st.baseDmaAddr < 2^64
  dmaLen : st.dmaLen < 2^32
  unmapped : st.unmappedAddr < 2^64

theorem formed_init : Formed ({} : MapState D) := by
  constructor
  · intro d hd
    cases hd
  · rfl
  · exact Nat.two_pow_pos 64
  · exact Nat.two_pow_pos 32
  · exact Nat.two_pow_pos 64

theorem formed_srpMapDesc (h : Formed st) {va len : ℕ} (hva : va < 2^64) (hlen : len < 2^32)
    (key : Rkey D) : Formed (srpMapDesc st va len key) := by
  constructor
  · intro d hd
    rcases List.mem_append.mp hd with hold | hnew
    · exact h.desc d hold
    · rw [List.mem_singleton.mp hnew]
      exact ⟨hva, hlen⟩
  · simp [srpMapDesc, h.total]
  · exact h.base
  · exact h.dmaLen
  · exact h.unmapped

theorem formed_emit (h : Formed st) {buf : SrpDirectBuf D} (hva : buf.va < 2^64)
    (hlen : buf.len < 2^32) (mr : Option D) : Formed (emit st buf mr) := by
  have hsame : Formed { st with mrList := st.mrList++mr.toList } :=
    ⟨h.desc, h.total, h.base, h.dmaLen, h.unmapped⟩
  exact formed_srpMapDesc hsame hva hlen buf.key

theorem formed_closeRegion (h : Formed st) {buf : SrpDirectBuf D} (hva : buf.va < 2^64)
    (hlen : buf.len < 2^32) (mr : Option D) : Formed (closeRegion st buf mr) := by
  have hemit := formed_emit h hva hlen mr
  exact ⟨hemit.desc, hemit.total, hemit.base, Nat.two_pow_pos 32, hemit.unmapped⟩

theorem regionBuf_inRange (h : Formed st) (dev : SrpDevice) (d : D) :
    (regionBuf dev st d).va < 2^64 ∧ (regionBuf dev st d).len < 2^32 := by
  unfold regionBuf
  split
  · exact ⟨h.base, h.dmaLen⟩
  · exact ⟨Nat.two_pow_pos 64, h.dmaLen⟩

theorem formed_updateStart (h : Formed st) (sg : Option Sg) (i : ℕ) {addr : ℕ}
    (haddr : addr < 2^64) : Formed (srpMapUpdateStart st sg i addr) :=
  ⟨h.desc, h.total, h.base, h.dmaLen, haddr⟩

theorem formed_srpMapPage (h : Formed st) (dev : SrpDevice) {addr : ℕ} (haddr : addr < 2^64)
    (len : ℕ) : Formed (srpMapPage dev st addr len) := by
  constructor
  · exact h.desc
  · exact h.total
  · change (if st.npages = 0 then addr else st.baseDmaAddr) < 2^64
    split
    · exact haddr
    · exact h.base
  · exact Nat.mod_lt _ (Nat.two_pow_pos 32)
  · exact h.unmapped

end

section
variable {σ D : Type} (dev : SrpDevice) (registerAlways useMr : Bool) (ops : MrOps σ D)

theorem formed_srpFinishMapping {st : MapState D} (h : Formed st) (ch : σ) :
    Formed (srpFinishMapping dev registerAlways ops st ch).state := by
  have hfinish := srpFinishMapping_finish dev registerAlways ops st ch
  generalize srpFinishMapping dev registerAlways ops st ch = r at hfinish ⊢
  cases hfinish with
  | empty _ => exact h
  | direct _ _ => exact formed_closeRegion h h.base h.dmaLen none
  | @registered d _ _ _ =>
      have hbuf := regionBuf_inRange h dev d
      exact formed_closeRegion h hbuf.1 hbuf.2 (some d)
  | unavailable _ _ => exact h
  | @postFailed d _ _ _ _ =>
      have hbuf := regionBuf_inRange h dev d
      exact formed_emit h hbuf.1 hbuf.2 (some d)

theorem formed_srpMapPageStart (sg : Sg) (i : ℕ) {st : MapState D} (h : Formed st) {addr : ℕ}
    (haddr : addr < 2^64) (ch : σ) :
    Formed (srpMapPageStart dev registerAlways ops sg i addr st ch).state := by
  have hfinish := formed_srpFinishMapping dev registerAlways ops h ch
  unfold srpMapPageStart
  simp only
  split_ifs
  · exact formed_updateStart hfinish (some sg) i haddr
  · exact hfinish
  · exact h

theorem formed_srpMapPages (sg : Sg) (i fuel : ℕ) : ∀ {addr : ℕ} (dmaLen len : ℕ)
    {st : MapState D} (ch : σ), Formed st → addr < 2^64 →
    Formed (srpMapPages dev registerAlways ops sg i fuel addr dmaLen len st ch).1.state := by
  induction fuel with
  | zero =>
      intro addr dmaLen len st ch h _
      exact h
  | succ fuel ih =>
      intro addr dmaLen len st ch h haddr
      have hstart := formed_srpMapPageStart dev registerAlways ops sg i h haddr ch
      simp only [srpMapPages]
      split_ifs
      · exact h
      · exact ih _ _ _ (formed_srpMapPage hstart dev haddr _) (Nat.mod_lt _ (Nat.two_pow_pos 64))
      · exact hstart

theorem formed_srpMapSgEntry (sg : Sg) (i : ℕ) {st : MapState D} (h : Formed st) (ch : σ) :
    Formed (srpMapSgEntry dev registerAlways ops useMr sg i st ch).state := by
  have hfinish := formed_srpFinishMapping dev registerAlways ops h ch
  have hstart : Formed (if st.unmappedSg = none then
      srpMapUpdateStart st (some sg) i sg.dmaAddress else st) := by
    split
    · exact formed_updateStart h (some sg) i sg.address_lt
    · exact h
  unfold srpMapSgEntry
  split
  · exact h
  · split
    · exact formed_srpMapDesc h sg.address_lt sg.len_lt .target
    · split
      · simp only
        split
        · have hdesc := formed_srpMapDesc hfinish sg.address_lt sg.len_lt .target
          exact formed_updateStart hdesc none 0 (Nat.two_pow_pos 64)
        · exact hfinish
      · simp only
        generalize (if st.unmappedSg = none then
          srpMapUpdateStart st (some sg) i sg.dmaAddress else st) = st₀ at hstart ⊢
        have hpages := formed_srpMapPages dev registerAlways ops sg i sg.dmaLen sg.dmaLen 0 ch
          hstart sg.address_lt
        generalize srpMapPages dev registerAlways ops sg i sg.dmaLen sg.dmaAddress sg.dmaLen 0 st₀
          ch = r at hpages ⊢
        have hend := formed_srpFinishMapping dev registerAlways ops hpages r.1.ch
        split
        · split
          · split
            · exact formed_updateStart hend none 0 (Nat.two_pow_pos 64)
            · exact hend
          · exact hpages
        · exact hpages

theorem formed_forEachSg (scat : List Sg) : ∀ (i : ℕ) {st : MapState D} (ch : σ), Formed st →
    Formed (forEachSg dev registerAlways ops useMr scat i st ch).state := by
  induction scat with
  | nil =>
      intro i st ch h
      exact h
  | cons sg scat ih =>
      intro i st ch h
      have hentry := formed_srpMapSgEntry dev registerAlways useMr ops sg i h ch
      simp only [forEachSg]
      split
      · exact ih _ _ hentry
      · exact hentry

theorem formed_srpMapBacktrack (scat : List Sg) {st : MapState D} (h : Formed st) (ch : σ) :
    ∀ p ∈ srpMapBacktrack dev registerAlways ops scat st ch, Formed p.1 := by
  intro p hp
  unfold srpMapBacktrack at hp
  split at hp
  · cases hp
  · cases hp
    exact formed_forEachSg dev registerAlways false ops _ _ ch
      (formed_srpMapDesc h h.unmapped (Nat.mod_lt _ (Nat.two_pow_pos 32)) .target)

/-- Whichever registrations fail, the descriptors fit in their fields. -/
theorem formed_srpMapSg (scat : List Sg) (ch : σ) :
    ∀ p ∈ srpMapSg dev registerAlways useMr ops scat ch, Formed p.1 := by
  have hlist := formed_forEachSg dev registerAlways useMr ops scat 0 ch formed_init
  have hend := formed_srpFinishMapping dev registerAlways ops hlist
    (forEachSg dev registerAlways ops useMr scat 0 {} ch).ch
  intro p hp
  unfold srpMapSg at hp
  simp only at hp
  split_ifs at hp
  · cases hp
    exact hend
  · exact formed_srpMapBacktrack dev registerAlways ops scat hend _ p hp
  · cases hp
    exact hlist
  · exact formed_srpMapBacktrack dev registerAlways ops scat hlist _ p hp

end

theorem bytes_length (buf : RemoteBuf) : buf.bytes.length = srpDirectBufSize := by
  simp [RemoteBuf.bytes, srpDirectBufSize]

theorem ofBytes_bytes (buf : RemoteBuf) : RemoteBuf.ofBytes buf.bytes =
    ⟨buf.va % 2^64, buf.key % 2^32, buf.len % 2^32⟩ := by
  have hva : buf.bytes.take 8 = bigEndian 8 buf.va := List.take_left' (bigEndian_length 8 _)
  have hrest : buf.bytes.drop 8 = bigEndian 4 buf.key++bigEndian 4 buf.len :=
    List.drop_left' (bigEndian_length 8 _)
  have hlen : buf.bytes.drop 12 = bigEndian 4 buf.len := by
    have hdrop := List.drop_drop (i := 4) (j := 8) (l := buf.bytes)
    rw [← hdrop, hrest]
    exact List.drop_left' (bigEndian_length 4 _)
  unfold RemoteBuf.ofBytes
  rw [hva, hrest, hlen, List.take_left' (bigEndian_length 4 _), value_bigEndian, value_bigEndian,
    value_bigEndian]
  norm_num

theorem ofBytes_bytes_inRange {buf : RemoteBuf} (h : buf.InRange) :
    RemoteBuf.ofBytes buf.bytes = buf := by
  rw [ofBytes_bytes, Nat.mod_eq_of_lt h.1, Nat.mod_eq_of_lt h.2.1, Nat.mod_eq_of_lt h.2.2]

theorem flatMap_bytes_length (table : List RemoteBuf) :
    (table.flatMap RemoteBuf.bytes).length = table.length*srpDirectBufSize :=
  length_flatMap_of_size srpDirectBufSize fun buf _ => bytes_length buf

theorem parse_take {table : List RemoteBuf} (h : ∀ buf ∈ table, buf.InRange) {n count : ℕ}
    (hn : n ≤ count) (hlength : n ≤ table.length) :
    parse srpDirectBufSize RemoteBuf.ofBytes n
      (((table.take count).flatMap RemoteBuf.bytes).take (n*srpDirectBufSize)) = table.take n := by
  have hfirst : (table.take n).length = n := by simp [hlength]
  have hbytes : ((table.take n).flatMap RemoteBuf.bytes).length = n*srpDirectBufSize := by
    rw [flatMap_bytes_length, hfirst]
  have hsplit : table.take count = table.take n++(table.take count).drop n := by
    have htake := List.take_append_drop n (table.take count)
    rw [List.take_take, Nat.min_eq_left hn] at htake
    exact htake.symm
  rw [hsplit, List.flatMap_append, List.take_left' hbytes]
  have hparse := parse_flatMap srpDirectBufSize RemoteBuf.ofBytes (table.take n)
    (fun buf _ => bytes_length buf)
    fun buf hbuf => ofBytes_bytes_inRange (h buf (List.mem_of_mem_take hbuf))
  rw [hfirst] at hparse
  exact hparse

/-- The bytes of the header that `srp_queuecommand` leaves zero. -/
theorem header_zero (hdr : CmdHeader) (cmd : Buffer) {i : ℕ}
    (hi : (0 < i ∧ i < tagOff) ∨ (28 ≤ i ∧ i < cdbOff)) : hdr.put cmd i = 0 := by
  have hlun := hdr.lun_length
  have htag := hdr.tag_length
  simp only [tagOff, cdbOff] at hi
  unfold CmdHeader.put
  rw [store_of_disjoint _ _ (by simp only [cdbOff]; omega),
    store_of_disjoint _ _ (by simp only [tagOff]; omega),
    store_of_disjoint _ _ (by simp only [lunOff]; omega),
    store_of_disjoint _ _ (by simp only [List.length_singleton]; omega)]
  have hlt : i < srpCmdSize := by
    simp only [srpCmdSize]
    omega
  simp [store, List.getD_eq_getElem?_getD, hlt]

section
variable {dir : DataDirection} {kmalloc : ℕ → Bool} {cmd : Buffer}

theorem setBufFmt_bufFmt (dir : DataDirection) (fmt : Byte) (cmd : Buffer) :
    setBufFmt dir fmt cmd bufFmtOff = bufFmt dir fmt := store_head ..

theorem setBufFmt_other (dir : DataDirection) (fmt : Byte) (cmd : Buffer) {i : ℕ}
    (hi : bufFmtOff < i) : setBufFmt dir fmt cmd i = cmd i :=
  store_of_disjoint _ _ (Or.inr hi)

theorem load_setBufFmt (dir : DataDirection) (fmt : Byte) (cmd : Buffer) {off n : ℕ}
    (hoff : bufFmtOff < off) : load (setBufFmt dir fmt cmd) off n = load cmd off n :=
  load_store_of_disjoint _ _ (Or.inr hoff)

theorem srptGetDescTbl_direct (hdir : dir = .toDevice ∨ dir = .fromDevice)
    (hfmt : cmd bufFmtOff = bufFmt dir srpDataDescDirect) (hadd : cmd addCdbLenOff = 0)
    {buf : RemoteBuf} (hbuf : RemoteBuf.ofBytes (load cmd addDataOff srpDirectBufSize) = buf) :
    srptGetDescTbl kmalloc cmd = .ok ⟨dir, [buf], buf.len⟩ := by
  rcases hdir with rfl | rfl
  · simp [srptGetDescTbl, hfmt, hadd, hbuf, bufFmt, srpDataDescDirect]
  · simp [srptGetDescTbl, hfmt, hadd, hbuf, bufFmt, srpDataDescDirect]

/-- An SRP_CMD with an indirect descriptor: the counts of its header, the size of the table,
the descriptors in the command and the length of the data. -/
structure HasIndirect (cmd : Buffer) (dir : DataDirection) (count tableLen : ℕ)
    (descs : List RemoteBuf) (totalLen : ℕ) : Prop where
  fmt : cmd bufFmtOff = bufFmt dir srpDataDescIndirect
  addCdbLen : cmd addCdbLenOff = 0
  count : (cmd dataOutDescCntOff).toNat+(cmd dataInDescCntOff).toNat = count
  tableLen : (RemoteBuf.ofBytes (load cmd addDataOff srpDirectBufSize)).len = tableLen
  descs : ∀ {n : ℕ}, n ≤ descs.length*srpDirectBufSize →
    load cmd (addDataOff+descListOff) n = (descs.flatMap RemoteBuf.bytes).take n
  totalLen : loadBe 4 cmd (addDataOff+indirectLenOff) = totalLen

/-- The target takes the number of descriptors modulo 256. -/
theorem srptGetDescTbl_indirect (hdir : dir = .toDevice ∨ dir = .fromDevice)
    {count tableLen totalLen : ℕ} {descs : List RemoteBuf}
    (h : HasIndirect cmd dir count tableLen descs totalLen) {nRbuf : ℕ}
    (hnRbuf : tableLen / srpDirectBufSize % 2^8 = nRbuf) :
    srptGetDescTbl kmalloc cmd =
      if count < nRbuf then .error .einval
      else if nRbuf ≠ 1 ∧ kmalloc (nRbuf*srpDirectBufSize) = false then .error .enomem
      else .ok ⟨dir, parse srpDirectBufSize RemoteBuf.ofBytes nRbuf
        (load cmd (addDataOff+descListOff) (nRbuf*srpDirectBufSize)), totalLen⟩ := by
  subst hnRbuf
  unfold srptGetDescTbl
  simp only [h.fmt, h.addCdbLen, h.count]
  rcases hdir with rfl | rfl
  · simp [bufFmt, srpDataDescIndirect, srpDataDescDirect, h.tableLen, h.totalLen]
  · simp [bufFmt, srpDataDescIndirect, srpDataDescDirect, h.tableLen, h.totalLen]

end

section
variable (tableDesc : RemoteBuf) (totalLen : ℕ) (descs : List RemoteBuf) (cmd : Buffer)

theorem putIndirect_header {i : ℕ} (hi : i < addDataOff) :
    putIndirect tableDesc totalLen descs cmd i = cmd i := by
  unfold putIndirect
  rw [store_of_disjoint _ _ (Or.inl (hi.trans_le (Nat.le_add_right ..))),
    store_of_disjoint _ _ (Or.inl hi),
    store_of_disjoint _ _ (Or.inl (hi.trans_le (Nat.le_add_right ..)))]

theorem load_putIndirect_tableDesc :
    load (putIndirect tableDesc totalLen descs cmd) addDataOff srpDirectBufSize =
      tableDesc.bytes := by
  unfold putIndirect
  rw [load_store_of_disjoint _ _ (Or.inl (by decide)), load_store _ _ (bytes_length _).ge,
    List.take_of_length_le (bytes_length _).le]

theorem load_putIndirect_len :
    load (putIndirect tableDesc totalLen descs cmd) (addDataOff+indirectLenOff) 4 =
      bigEndian 4 totalLen := by
  unfold putIndirect
  rw [load_store _ _ (bigEndian_length ..).ge, List.take_of_length_le (bigEndian_length ..).le]

theorem load_putIndirect_descs {n : ℕ} (hn : n ≤ descs.length*srpDirectBufSize) :
    load (putIndirect tableDesc totalLen descs cmd) (addDataOff+descListOff) n =
      (descs.flatMap RemoteBuf.bytes).take n := by
  unfold putIndirect
  rw [load_store_of_disjoint _ _ (Or.inr (by rw [bigEndian_length]; decide)),
    load_store_of_disjoint _ _ (Or.inr (by rw [bytes_length]; decide)),
    load_store _ _ (by rw [flatMap_bytes_length]; exact hn)]

theorem cntOff_lt (dir : DataDirection) :
    (if dir = .toDevice then dataOutDescCntOff else dataInDescCntOff) < tagOff := by
  split <;> decide

theorem setDescCnt_other (dir : DataDirection) (count : ℕ) {i : ℕ} (hi : tagOff ≤ i) :
    setDescCnt dir count cmd i = cmd i :=
  store_of_disjoint _ _ (Or.inr ((cntOff_lt dir).trans_le hi))

theorem load_setDescCnt (dir : DataDirection) (count : ℕ) {off n : ℕ} (hoff : tagOff ≤ off) :
    load (setDescCnt dir count cmd) off n = load cmd off n :=
  load_store_of_disjoint _ _ (Or.inr ((cntOff_lt dir).trans_le hoff))

theorem setDescCnt_sum {dir : DataDirection} (hdir : dir = .toDevice ∨ dir = .fromDevice)
    {count : ℕ} (hcount : count ≤ 255) (hout : cmd dataOutDescCntOff = 0)
    (hin : cmd dataInDescCntOff = 0) :
    (setDescCnt dir count cmd dataOutDescCntOff).toNat+
      (setDescCnt dir count cmd dataInDescCntOff).toNat = count := by
  have hbyte : (BitVec.ofNat 8 count).toNat = count := by
    rw [BitVec.toNat_ofNat]
    exact Nat.mod_eq_of_lt (by omega)
  rcases hdir with rfl | rfl
  · have hbehind : dataOutDescCntOff+[BitVec.ofNat 8 count].length ≤ dataInDescCntOff := le_rfl
    simp only [setDescCnt, if_true, store_head]
    rw [store_of_disjoint _ _ (Or.inr hbehind), hin, hbyte]
    rfl
  · simp only [setDescCnt, reduceCtorEq, if_false, store_head]
    rw [store_of_disjoint _ _ (Or.inl (by decide)), hout, hbyte]
    exact Nat.zero_add count

end

section
variable (target : SrpTargetPort) (rkey : Rkey MrDesc → BitVec 32) (kmalloc : ℕ → Bool)
variable {dir : DataDirection} (hdir : dir = .toDevice ∨ dir = .fromDevice) (addr : ℕ)
variable (hdr : CmdHeader) (cmd : Buffer)
include hdir

theorem srptGetDescTbl_put_direct {buf : RemoteBuf} (hbuf : buf.InRange) :
    srptGetDescTbl kmalloc ((DataDesc.direct buf).put target rkey dir addr (hdr.put cmd)) =
      .ok ⟨dir, [buf], buf.len⟩ := by
  simp only [DataDesc.put]
  apply srptGetDescTbl_direct hdir
  · exact setBufFmt_bufFmt ..
  · rw [setBufFmt_other _ _ _ (by decide), store_of_disjoint _ _ (Or.inl (by decide))]
    exact header_zero hdr cmd (Or.inr (by decide))
  · rw [load_setBufFmt _ _ _ (by decide), load_store _ _ (bytes_length buf).ge,
      List.take_of_length_le (bytes_length buf).le]
    exact ofBytes_bytes_inRange hbuf

theorem hasIndirect_put (hcnt : target.cmdSgCnt ≤ 255) (table : List RemoteBuf) {totalLen : ℕ}
    (htotal : totalLen < 2^32) :
    HasIndirect ((DataDesc.indirect table totalLen).put target rkey dir addr (hdr.put cmd)) dir
      (min table.length target.cmdSgCnt) (table.length*srpDirectBufSize % 2^32)
      (table.take (min table.length target.cmdSgCnt)) totalLen := by
  simp only [DataDesc.put]
  generalize hmin : min table.length target.cmdSgCnt = count
  generalize hput : putIndirect ⟨addr, (rkey .target).toNat, table.length*srpDirectBufSize % 2^32⟩
    totalLen (table.take count) (hdr.put cmd) = cmd'
  have hheader : ∀ {i : ℕ}, (0 < i ∧ i < tagOff) ∨ (28 ≤ i ∧ i < cdbOff) → cmd' i = 0 := by
    intro i hi
    have hlt : i < addDataOff := by
      simp only [tagOff, cdbOff, addDataOff] at hi ⊢
      omega
    rw [← hput, putIndirect_header _ _ _ _ hlt]
    exact header_zero hdr cmd hi
  have hload : ∀ {off n : ℕ}, addDataOff ≤ off →
      load (setBufFmt dir srpDataDescIndirect (setDescCnt dir count cmd')) off n =
        load cmd' off n := by
    intro off n hoff
    rw [load_setBufFmt _ _ _ (lt_of_lt_of_le (by decide) hoff),
      load_setDescCnt _ _ _ (le_trans (by decide) hoff)]
  constructor
  · exact setBufFmt_bufFmt ..
  · rw [setBufFmt_other _ _ _ (by decide), setDescCnt_other _ _ _ (by decide)]
    exact hheader (Or.inr (by decide))
  · rw [setBufFmt_other _ _ _ (by decide), setBufFmt_other _ _ _ (by decide)]
    exact setDescCnt_sum cmd' hdir (by omega) (hheader (Or.inl (by decide)))
      (hheader (Or.inl (by decide)))
  · rw [hload le_rfl, ← hput, load_putIndirect_tableDesc, ofBytes_bytes]
    exact Nat.mod_mod _ _
  · intro n hn
    rw [hload (Nat.le_add_right ..), ← hput]
    exact load_putIndirect_descs _ _ _ _ hn
  · unfold loadBe
    rw [hload (Nat.le_add_right ..), ← hput, load_putIndirect_len, value_bigEndian]
    exact Nat.mod_eq_of_lt htotal

/-- What the target makes of a table whose first descriptors are in the command. -/
theorem srptGetDescTbl_put_indirect (hcnt : target.cmdSgCnt ≤ 255) {table : List RemoteBuf}
    {totalLen : ℕ} (htable : ∀ buf ∈ table, buf.InRange) (htotal : totalLen < 2^32) :
    srptGetDescTbl kmalloc
      ((DataDesc.indirect table totalLen).put target rkey dir addr (hdr.put cmd)) =
      if min table.length target.cmdSgCnt < table.length % 2^8 then .error .einval
      else if table.length % 2^8 ≠ 1 ∧
          kmalloc (table.length % 2^8*srpDirectBufSize) = false then .error .enomem
      else .ok ⟨dir, table.take (table.length % 2^8), totalLen⟩ := by
  have hput := hasIndirect_put target rkey hdir addr hdr cmd hcnt table htotal
  have hnRbuf : table.length*srpDirectBufSize % 2^32 / srpDirectBufSize % 2^8 =
      table.length % 2^8 := by
    simp only [srpDirectBufSize]
    omega
  rw [srptGetDescTbl_indirect hdir hput hnRbuf]
  split
  · rfl
  · rename_i hle
    have hlength : table.length % 2^8 ≤ table.length := Nat.mod_le ..
    have hcopied : (table.take (min table.length target.cmdSgCnt)).length =
        min table.length target.cmdSgCnt := by simp
    rw [hput.descs (by rw [hcopied]; exact Nat.mul_le_mul_right _ (Nat.not_lt.mp hle)),
      parse_take htable (Nat.not_lt.mp hle) hlength]

end

/-- What is known about the descriptor of a command's data. -/
inductive Described (target : SrpTargetPort) (scmnd : ScsiCmnd) : DataDesc → Prop
  | noData : Described target scmnd .noData
  | imm {len : ℕ} : Described target scmnd (.imm len)
  | direct {buf : RemoteBuf} :
      scmnd.dataDirection = .toDevice ∨ scmnd.dataDirection = .fromDevice → buf.InRange →
      Described target scmnd (.direct buf)
  | indirect {table : List RemoteBuf} {totalLen : ℕ} :
      scmnd.dataDirection = .toDevice ∨ scmnd.dataDirection = .fromDevice →
      (∀ buf ∈ table, buf.InRange) → totalLen = (table.map RemoteBuf.len).sum % 2^32 →
      (target.allowExtSg = false → table.length ≤ target.cmdSgCnt) →
      Described target scmnd (.indirect table totalLen)

section
variable {hca : Hca} {target : SrpTargetPort} {rkey : Rkey MrDesc → BitVec 32} {scmnd : ScsiCmnd}
variable {ch : SrpRdmaCh} {desc : DataDesc}

theorem remoteBuf_inRange (rkey : Rkey MrDesc → BitVec 32) {desc : SrpDirectBuf MrDesc}
    (h : desc.va < 2^64 ∧ desc.len < 2^32) : (remoteBuf rkey desc).InRange :=
  ⟨h.1, (rkey desc.key).isLt, h.2⟩

theorem described_mapped
    (hdir : scmnd.dataDirection = .toDevice ∨ scmnd.dataDirection = .fromDevice)
    {st : MapState MrDesc} (hst : Formed st) (h : mappedDesc target rkey st = some desc) :
    Described target scmnd desc := by
  have hrange : ∀ d ∈ st.desc, (remoteBuf rkey d).InRange :=
    fun d hd => remoteBuf_inRange rkey (hst.desc d hd)
  unfold mappedDesc at h
  split at h
  · rename_i d hone
    cases h
    exact .direct hdir (hrange d (by simp [hone]))
  · split at h
    · cases h
    · rename_i hfits
      cases h
      apply Described.indirect hdir
      · intro buf hbuf
        obtain ⟨d, hd, rfl⟩ := List.mem_map.mp hbuf
        exact hrange d hd
      · rw [hst.total, List.map_map]
        rfl
      · intro hext
        rw [List.length_map]
        exact Nat.not_lt.mp fun hlt => hfits ⟨hlt, hext⟩

theorem described (h : srpMapDataDesc hca target rkey scmnd ch = some desc) :
    Described target scmnd desc := by
  unfold srpMapDataDesc at h
  split at h
  · cases h
    exact .noData
  · split at h
    · cases h
      exact .noData
    · split at h
      · cases h
      · rename_i hnone hbi
        have hdir : scmnd.dataDirection = .toDevice ∨ scmnd.dataDirection = .fromDevice := by
          cases hd : scmnd.dataDirection <;> simp_all
        split at h
        · cases h
        · rename_i sg rest _
          split at h
          · cases h
            exact .imm
          · split at h
            · cases h
              exact .direct hdir (remoteBuf_inRange rkey ⟨sg.address_lt, sg.len_lt⟩)
            · split at h
              · cases h
              · rename_i st ch' hmap
                have hst : Formed st := formed_srpMapSg target.dev target.registerAlways
                  target.hasPool (mrOps hca) (sg::rest) ch (st, ch') hmap
                exact described_mapped hdir hst h

/-- The buffers that a direct or an indirect descriptor describes. -/
def table : DataDesc → Option (List RemoteBuf)
  | .noData => none
  | .imm _ => none
  | .direct buf => some [buf]
  | .indirect table _ => some table

/-- If all descriptors of a command's data are in the SRP_CMD, the length that the target reads is
the sum of their lengths modulo 2^32. -/
theorem srptGetDescTbl_put (kmalloc : ℕ → Bool) (addr : ℕ) (hdr : CmdHeader) (cmd : Buffer)
    (hcnt : target.cmdSgCnt ≤ 255) (hdesc : srpMapDataDesc hca target rkey scmnd ch = some desc)
    {bufs : List RemoteBuf} (hbufs : table desc = some bufs)
    (hfits : target.allowExtSg = false ∨ bufs.length ≤ target.cmdSgCnt) :
    srptGetDescTbl kmalloc (desc.put target rkey scmnd.dataDirection addr (hdr.put cmd)) =
      if bufs.length ≠ 1 ∧ kmalloc (bufs.length*srpDirectBufSize) = false then .error .enomem
      else .ok ⟨scmnd.dataDirection, bufs, (bufs.map RemoteBuf.len).sum % 2^32⟩ := by
  cases described hdesc with
  | noData => cases hbufs
  | imm => cases hbufs
  | direct hdir hbuf =>
      cases hbufs
      rw [srptGetDescTbl_put_direct target rkey kmalloc hdir addr hdr cmd hbuf]
      rw [if_neg (fun hne => hne.1 rfl), List.map_singleton, List.sum_singleton,
        Nat.mod_eq_of_lt hbuf.2.2]
  | indirect hdir hrange htotal hext =>
      cases hbufs
      have hlength : bufs.length ≤ target.cmdSgCnt := by
        cases hfits with
        | inl hoff => exact hext hoff
        | inr hle => exact hle
      have hmod : bufs.length % 2^8 = bufs.length := Nat.mod_eq_of_lt (by omega)
      rw [srptGetDescTbl_put_indirect target rkey kmalloc hdir addr hdr cmd hcnt hrange
        (htotal ▸ Nat.mod_lt _ (Nat.two_pow_pos 32)), hmod, Nat.min_eq_left hlength,
        if_neg (Nat.lt_irrefl _), List.take_length, htotal]

/-- If all descriptors of a command's data are in the SRP_CMD, the target recovers them, the
direction and the sum of the lengths, unless it has no memory for them, exactly when the lengths
add up to less than 2^32. -/
theorem desc_tbl_recovered_iff (addr : ℕ) (hdr : CmdHeader) (cmd : Buffer)
    (hcnt : target.cmdSgCnt ≤ 255) (hdesc : srpMapDataDesc hca target rkey scmnd ch = some desc)
    {bufs : List RemoteBuf} (hbufs : table desc = some bufs)
    (hfits : target.allowExtSg = false ∨ bufs.length ≤ target.cmdSgCnt) :
    (∀ kmalloc, srptGetDescTbl kmalloc
        (desc.put target rkey scmnd.dataDirection addr (hdr.put cmd)) =
      if bufs.length ≠ 1 ∧ kmalloc (bufs.length*srpDirectBufSize) = false then .error .enomem
      else .ok ⟨scmnd.dataDirection, bufs, (bufs.map RemoteBuf.len).sum⟩) ↔
        (bufs.map RemoteBuf.len).sum < 2^32 := by
  have hresult := fun kmalloc => srptGetDescTbl_put kmalloc addr hdr cmd hcnt hdesc hbufs hfits
  constructor
  · intro hsum
    have hboth := (hresult fun _ => true).symm.trans (hsum fun _ => true)
    have hmem : ¬ (bufs.length ≠ 1 ∧ true = false) := fun hnone => Bool.noConfusion hnone.2
    rw [if_neg hmem, if_neg hmem] at hboth
    have hlen : (bufs.map RemoteBuf.len).sum % 2^32 = (bufs.map RemoteBuf.len).sum :=
      congrArg DescTbl.dataLen (Except.ok.inj hboth)
    rw [← hlen]
    exact Nat.mod_lt _ (Nat.two_pow_pos 32)
  · intro hsum kmalloc
    rw [hresult, Nat.mod_eq_of_lt hsum]

theorem twoBlocks_lt : ∀ scat ∈ some [Sg.mk 4096 512 (by decide) (by decide),
    Sg.mk 12288 512 (by decide) (by decide)], sgLen scat < 2^32 := by
  decide

/-- A command that reads two blocks into different pages. -/
def twoBlocks : ScsiCmnd :=
  { id := 0, dataDirection := .fromDevice, bufflen := 1024,
    sglist := some [Sg.mk 4096 512 (by decide) (by decide),
      Sg.mk 12288 512 (by decide) (by decide)],
    len_lt := twoBlocks_lt }

def zeroHeader : CmdHeader :=
  { lun := List.replicate 8 0, tag := List.replicate 8 0, cdb := [] }

theorem desc_tbl_recovered_two_blocks :
    srpMapDataDesc willingHca smallTarget (fun _ => 7) twoBlocks (.login smallTarget 4) =
        some (.indirect [⟨4096, 7, 512⟩, ⟨12288, 7, 512⟩] 1024) ∧
      srptGetDescTbl (fun _ => true) ((DataDesc.indirect [⟨4096, 7, 512⟩, ⟨12288, 7, 512⟩]
        1024).put smallTarget (fun _ => 7) .fromDevice 0 (zeroHeader.put fun _ => 0xff)) =
          .ok ⟨.fromDevice, [⟨4096, 7, 512⟩, ⟨12288, 7, 512⟩], 1024⟩ := by
  have hdesc : srpMapDataDesc willingHca smallTarget (fun _ => 7) twoBlocks
      (.login smallTarget 4) = some (.indirect [⟨4096, 7, 512⟩, ⟨12288, 7, 512⟩] 1024) := by
    decide +kernel
  exact ⟨hdesc, (desc_tbl_recovered_iff 0 zeroHeader (fun _ => 0xff) (by decide) hdesc rfl
    (Or.inl rfl)).mpr (by decide) fun _ => true⟩

theorem largeWrite_lt : ∀ scat ∈ some [Sg.mk 0 (2^32-8193) (by decide) (by decide),
    Sg.mk (2^32) 8192 (by decide) (by decide)], sgLen scat < 2^32 := by
  decide

/-- A command that writes nearly 4 GiB. -/
def largeWrite : ScsiCmnd :=
  { id := 0, dataDirection := .toDevice, bufflen := 2^32-1,
    sglist := some [Sg.mk 0 (2^32-8193) (by decide) (by decide),
      Sg.mk (2^32) 8192 (by decide) (by decide)],
    len_lt := largeWrite_lt }

def refusingHca : Hca where
  postSend _ := false
  fmrPoolMapPhys _ := none

/-- The second entry of a large write is described twice because its registration cannot be
posted; with it the lengths add up to more than the 32 bits of the field. -/
theorem length_wraps : ∃ bufs,
    srpMapDataDesc refusingHca smallTarget (fun _ => 7) largeWrite (.login smallTarget 4) =
        some (.indirect bufs 8191) ∧
      bufs.length = 3 ∧ (bufs.map RemoteBuf.len).sum = 2^32+8191 ∧
      srptGetDescTbl (fun _ => true) ((DataDesc.indirect bufs 8191).put smallTarget (fun _ => 7)
        .toDevice 0 (zeroHeader.put fun _ => 0xff)) = .ok ⟨.toDevice, bufs, 8191⟩ := by
  refine ⟨[⟨0, 7, 4294959103⟩, ⟨4294967296, 7, 8192⟩, ⟨4294967296, 7, 8192⟩], ?_, rfl, rfl, ?_⟩
  · decide +kernel
  · rfl

/-- If the table is longer than what the command holds, the target refuses it exactly when
its number of descriptors modulo 256 is still larger than that. -/
theorem partial_table_refused (addr : ℕ) (hdr : CmdHeader) (cmd : Buffer)
    (hcnt : target.cmdSgCnt ≤ 255) {bufs : List RemoteBuf} {totalLen : ℕ}
    (hdesc : srpMapDataDesc hca target rkey scmnd ch = some (.indirect bufs totalLen))
    (hlonger : target.cmdSgCnt < bufs.length) :
    (∀ kmalloc, ∃ e, srptGetDescTbl kmalloc ((DataDesc.indirect bufs totalLen).put target rkey
      scmnd.dataDirection addr (hdr.put cmd)) = .error e) ↔
        target.cmdSgCnt < bufs.length % 2^8 := by
  cases described hdesc with
  | indirect hdir hrange htotal _ =>
      have hresult := fun kmalloc => srptGetDescTbl_put_indirect target rkey kmalloc hdir addr hdr
        cmd hcnt hrange (htotal ▸ Nat.mod_lt _ (Nat.two_pow_pos 32) : totalLen < 2^32)
      rw [Nat.min_eq_right hlonger.le] at hresult
      constructor
      · intro herror
        obtain ⟨e, he⟩ := herror fun _ => true
        by_contra hle
        rw [hresult, if_neg hle, if_neg (fun hnone => Bool.noConfusion hnone.2)] at he
        cases he
      · intro hlt kmalloc
        exact ⟨.einval, by rw [hresult, if_pos hlt]⟩

end

/-- A target that accepts tables in the memory of the initiator, on a device that cannot
register memory. -/
def extTarget : SrpTargetPort := { smallTarget with hasPool := false, allowExtSg := true }

def block : Sg := { dmaAddress := 4096, dmaLen := 512 }

/-- A command that writes the same block `n` times. -/
def blocks (n : ℕ) (hlt : ∀ scat ∈ some (List.replicate n block), sgLen scat < 2^32) : ScsiCmnd :=
  { id := 0, dataDirection := .toDevice, bufflen := n*512,
    sglist := some (List.replicate n block), len_lt := hlt }

theorem thirteen_lt : ∀ scat ∈ some (List.replicate 13 block), sgLen scat < 2^32 := by
  decide

theorem partial_table_refused_thirteen :
    srpMapDataDesc willingHca extTarget (fun _ => 7) (blocks 13 thirteen_lt) (.login extTarget 4) =
        some (.indirect (List.replicate 13 ⟨4096, 7, 512⟩) 6656) ∧
      ∀ kmalloc, ∃ e, srptGetDescTbl kmalloc ((DataDesc.indirect
        (List.replicate 13 ⟨4096, 7, 512⟩) 6656).put extTarget (fun _ => 7) .toDevice 0
          (zeroHeader.put fun _ => 0xff)) = .error e := by
  have hdesc : srpMapDataDesc willingHca extTarget (fun _ => 7) (blocks 13 thirteen_lt)
      (.login extTarget 4) = some (.indirect (List.replicate 13 ⟨4096, 7, 512⟩) 6656) := by
    decide +kernel
  exact ⟨hdesc, (partial_table_refused 0 zeroHeader (fun _ => 0xff) (by decide) hdesc
    (by decide)).mpr (by decide)⟩

theorem many_lt : ∀ scat ∈ some (List.replicate 257 block), sgLen scat < 2^32 := by
  decide +kernel

/-- Of 257 descriptors the target takes one. -/
theorem partial_table_accepted :
    srpMapDataDesc willingHca extTarget (fun _ => 7) (blocks 257 many_lt) (.login extTarget 4) =
        some (.indirect (List.replicate 257 ⟨4096, 7, 512⟩) 131584) ∧
      srptGetDescTbl (fun _ => true) ((DataDesc.indirect (List.replicate 257 ⟨4096, 7, 512⟩)
        131584).put extTarget (fun _ => 7) .toDevice 0 (zeroHeader.put fun _ => 0xff)) =
          .ok ⟨.toDevice, [⟨4096, 7, 512⟩], 131584⟩ := by
  have hdir : DataDirection.toDevice = .toDevice ∨ DataDirection.toDevice = .fromDevice :=
    Or.inl rfl
  have hrange : ∀ buf ∈ List.replicate 257 (RemoteBuf.mk 4096 7 512), buf.InRange := by
    intro buf hbuf
    rw [List.eq_of_mem_replicate hbuf]
    exact ⟨by decide, by decide, by decide⟩
  constructor
  · decide +kernel
  · rw [srptGetDescTbl_put_indirect extTarget _ _ hdir 0 zeroHeader _ (by decide) hrange
      (by decide), List.length_replicate, if_neg (by decide), if_neg (by decide),
      List.take_replicate]
    rfl

end IbSrp.DescriptorFormat

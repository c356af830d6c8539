import IbSrp.DescriptorExtents
import IbSrp.DescriptorFormat
import IbSrp.RdmaCoverage
import Mathlib.Data.List.Zip

/-!
# The data of a command, from memory to memory

The initiator maps the scatter/gather list of a command to descriptors and writes them
into the SRP_CMD. The target reads them back, divides the transfer into work requests and
posts these. Its HCA and that of the initiator then move the bytes: an RDMA write puts
bytes of the target at the addresses that the keys stand for in the memory of the
initiator, and an RDMA read goes the other way.

Here the pieces are put together. The HCAs may move the bytes of all work requests in any
order. What a key stands for is decided by the registration of its memory: every address
for the global key, and the pages of the registration for the others. Only the keys of the
command's own descriptors have to be translated in this way.
-/
namespace IbSrp.DataPath
open ByteBuffer PagedBytes MemoryRegistration MappingCoverage MappingResults Channel
open SrpCommand DescriptorExtents DescriptorFormat TargetRdma

/-- The address in the memory of the initiator that a virtual address stands for. -/
def translate {D : Type} (dev : SrpDevice) : Rkey D → ℕ → ℕ
  | .target, va => va
  | .fr _ iovaStart pageList, va =>
      let off := iovaStart % dev.mrPageSize+(va+2^64-iovaStart) % 2^64
      pageList.getD (off / dev.mrPageSize) 0+off % dev.mrPageSize
  | .fmr _ pageList, va => pageList.getD (va / dev.mrPageSize) 0+va % dev.mrPageSize

section
variable {D : Type} (dev : SrpDevice)

/-- The offset of byte `i` of a region in its registration. -/
theorem offset_in_region {va i : ℕ} (hva : va < 2^64) (hi : i < 2^32) :
    ((va+i) % 2^64+2^64-va) % 2^64 = i := by
  omega

theorem map_translate_fr (desc : D) {va len : ℕ} (hva : va < 2^64) (hlen : len < 2^32)
    (pageList : List ℕ) :
    (contiguous (2^64) va len).map (translate dev (.fr desc va pageList)) =
      paged dev.mrPageSize pageList (va % dev.mrPageSize) len := by
  unfold contiguous paged
  rw [List.map_map]
  apply List.map_congr_left
  intro i hi
  have hoff := offset_in_region hva (Nat.lt_trans (List.mem_range.mp hi) hlen)
  rw [Function.comp_apply, translate, hoff]

theorem map_translate_fmr (desc : D) {len : ℕ} (hlen : len < 2^32) (pageList : List ℕ) :
    (contiguous (2^64) 0 len).map (translate dev (.fmr desc pageList)) =
      paged dev.mrPageSize pageList 0 len := by
  unfold contiguous paged
  rw [List.map_map]
  apply List.map_congr_left
  intro i hi
  have hmod : (0+i) % 2^64 = 0+i := by
    have := List.mem_range.mp hi
    omega
  rw [Function.comp_apply, translate, hmod]

theorem map_translate {d : SrpDirectBuf D} (hstart : AtStart d) (hva : d.va < 2^64)
    (hlen : d.len < 2^32) :
    (contiguous (2^64) d.va d.len).map (translate dev d.key) = d.bytes dev := by
  unfold SrpDirectBuf.bytes
  unfold AtStart at hstart
  cases hkey : d.key with
  | target => exact List.map_id _
  | fr desc iovaStart pageList =>
      rw [hkey] at hstart
      have hstart : d.va = iovaStart := hstart
      have hzero : (d.va+2^64-d.va) % 2^64 = 0 := by
        rw [Nat.add_sub_cancel_left, Nat.mod_self]
      simp only
      rw [← hstart, hzero, map_translate_fr dev desc hva hlen, Nat.add_zero]
  | fmr desc pageList =>
      rw [hkey] at hstart
      have hstart : d.va = 0 := hstart
      simp only
      rw [hstart, map_translate_fmr dev desc hlen]

end

section
variable (hca : Hca) (target : SrpTargetPort)

/-- The descriptors that `srp_map_data` stores for a list. -/
def dataBufs (scat : List Sg) (ch : SrpRdmaCh) : List (SrpDirectBuf MrDesc) :=
  match scat with
  | [] => []
  | sg::rest =>
      if rest = [] ∧ target.registerAlways = false then [⟨sg.dmaAddress, .target, sg.dmaLen⟩]
      else
        match srpMapSg target.dev target.registerAlways target.hasPool (mrOps hca) (sg::rest)
          ch with
        | none => []
        | some (st, _) => st.desc

variable {hca target} {rkey : Rkey MrDesc → BitVec 32} {scmnd : ScsiCmnd} {scat : List Sg}
variable {ch : SrpRdmaCh} {desc : DataDesc} {bufs : List RemoteBuf}

theorem table_mappedDesc {st : MapState MrDesc} (h : mappedDesc target rkey st = some desc) :
    table desc = some (st.desc.map (remoteBuf rkey)) := by
  unfold mappedDesc at h
  split at h
  · rename_i d hone
    cases h
    rw [hone]
    rfl
  · split at h
    · cases h
    · cases h
      rfl

theorem table_dataBufs (hdesc : srpMapDataDesc hca target rkey scmnd ch = some desc)
    (hbufs : table desc = some bufs) (hscat : scmnd.sglist = some scat) :
    bufs = (dataBufs hca target scat ch).map (remoteBuf rkey) := by
  unfold srpMapDataDesc at hdesc
  rw [hscat] at hdesc
  simp only at hdesc
  split_ifs at hdesc
  · cases hdesc
    cases hbufs
  · cases scat with
    | nil => cases hdesc
    | cons sg rest =>
        unfold dataBufs
        simp only at hdesc ⊢
        split_ifs at hdesc with himm hone
        · cases hdesc
          cases hbufs
        · cases hdesc
          cases hbufs
          rw [if_pos hone]
          rfl
        · rw [if_neg hone]
          cases hmap : srpMapSg target.dev target.registerAlways target.hasPool (mrOps hca)
              (sg::rest) ch with
          | none =>
              rw [hmap] at hdesc
              cases hdesc
          | some p =>
              rw [hmap] at hdesc
              rw [table_mappedDesc hdesc] at hbufs
              cases hbufs
              rfl

theorem attempt_posts (hpost : ∀ n, hca.postSend n = true) {fast : Bool} {pages : List ℕ}
    {d : MrDesc} {ch' : SrpRdmaCh} :
    attempt (mrOps hca) fast ch pages ≠ (.postFailed, some d, ch') := by
  unfold attempt
  cases fast with
  | false =>
      simp only [Bool.false_eq_true, if_false]
      split <;> simp
  | true =>
      simp only [if_true]
      split
      · simp
      · simp [mrOps, ibPostSend, hpost]

/-- If every work request can be posted, the descriptors refer to the list. -/
theorem dataBufs_bytes (hpost : ∀ n, hca.postSend n = true) (hlt : sgLen scat < 2^32) :
    (dataBufs hca target scat ch).flatMap (SrpDirectBuf.bytes target.dev) = sgBytes scat := by
  cases scat with
  | nil => rfl
  | cons sg rest =>
      unfold dataBufs
      simp only
      split_ifs with hone
      · rw [hone.1]
        rfl
      · obtain ⟨⟨st, ch'⟩, hmap, hresult, _⟩ := srpMapSg_spec target.dev target.registerAlways
          target.hasPool (mrOps hca) ch hlt
        rw [hmap]
        cases hresult with
        | complete hcovers _ => exact hcovers.bytes
        | unavailable hcovers _ _ => exact hcovers.bytes
        | postFailed _ _ _ _ _ hattempt _ => exact absurd hattempt (attempt_posts hpost)

theorem dataBufs_extent (hlt : sgLen scat < 2^32) (hpos : 0 < sgLen scat) :
    ∀ d ∈ dataBufs hca target scat ch, Extent d ∧ d.va < 2^64 ∧ d.len < 2^32 := by
  cases scat with
  | nil => exact absurd hpos (Nat.lt_irrefl 0)
  | cons sg rest =>
      unfold dataBufs
      simp only
      intro d hd
      split_ifs at hd with hone
      · cases List.mem_singleton.mp hd
        rw [hone.1] at hpos
        exact ⟨⟨hpos, trivial⟩, sg.address_lt, sg.len_lt⟩
      · cases hmap : srpMapSg target.dev target.registerAlways target.hasPool (mrOps hca)
            (sg::rest) ch with
        | none =>
            rw [hmap] at hd
            exact (List.not_mem_nil hd).elim
        | some p =>
            rw [hmap] at hd
            have hformed := formed_srpMapSg target.dev target.registerAlways target.hasPool
              (mrOps hca) (sg::rest) ch p hmap
            exact ⟨srpMapSg_extent _ _ _ _ hlt hmap d hd, hformed.desc d hd⟩

/-- The initiator's HCA translates the keys of some descriptors by their registrations. -/
def Translates (dev : SrpDevice) (rkey : Rkey MrDesc → BitVec 32) (resolve : ℕ × ℕ → ℕ)
    (descs : List (SrpDirectBuf MrDesc)) : Prop :=
  ∀ d ∈ descs, ∀ va < 2^64, resolve ((rkey d.key).toNat, va) = translate dev d.key va

/-- The bytes the target names are those of the list. -/
theorem map_resolve_remoteBytes {dev : SrpDevice} {resolve : ℕ × ℕ → ℕ}
    (descs : List (SrpDirectBuf MrDesc)) (hkeys : Translates dev rkey resolve descs)
    (hextent : ∀ d ∈ descs, Extent d ∧ d.va < 2^64 ∧ d.len < 2^32) :
    (remoteBytes (descs.map (remoteBuf rkey))).map resolve =
      descs.flatMap (SrpDirectBuf.bytes dev) := by
  unfold remoteBytes
  rw [List.flatMap_map, List.map_flatMap]
  apply List.flatMap_congr
  intro d hd
  obtain ⟨⟨_, hstart⟩, hva, hlen⟩ := hextent d hd
  rw [← map_translate dev hstart hva hlen]
  unfold keyed remoteBuf
  rw [List.map_map]
  apply List.map_congr_left
  intro va hmem
  obtain ⟨i, _, rfl⟩ := List.mem_map.mp hmem
  exact hkeys d hd _ (Nat.mod_lt _ (Nat.two_pow_pos 64))

theorem sum_len_bufs {bufs : List RemoteBuf} :
    (bufs.map RemoteBuf.len).sum = (remoteBytes bufs).length := by
  induction bufs with
  | nil => rfl
  | cons buf bufs ih =>
      rw [List.map_cons, List.sum_cons, ih]
      unfold remoteBytes
      rw [List.flatMap_cons, List.length_append, keyed_length]

theorem srptGetDescTbl_dataBufs {kmalloc : ℕ → Bool} (hmem : ∀ size, kmalloc size = true) (addr : ℕ)
    (hdr : CmdHeader) (cmd : Buffer) (hcnt : target.cmdSgCnt ≤ 255)
    (hdesc : srpMapDataDesc hca target rkey scmnd ch = some desc) (hbufs : table desc = some bufs)
    (hfits : target.allowExtSg = false ∨ bufs.length ≤ target.cmdSgCnt) :
    srptGetDescTbl kmalloc (desc.put target rkey scmnd.dataDirection addr (hdr.put cmd)) =
      .ok ⟨scmnd.dataDirection, bufs, (remoteBytes bufs).length % 2^32⟩ := by
  rw [srptGetDescTbl_put kmalloc addr hdr cmd hcnt hdesc hbufs hfits, sum_len_bufs,
    if_neg (fun hnone => by simp [hmem] at hnone)]

end

/-- The resources of the target for one command: its buffer, and which of its calls succeed. -/
structure Backend where
  lkey : ℕ
  sgs : List Sg
  kmalloc : ℕ → Bool
  allocs : Allocs
  sqWrAvail : ℤ
  post : ℕ → ℤ

/-- No call fails, and there is room for `n` work requests. -/
structure Backend.Able (b : Backend) (n : ℕ) : Prop where
  kmalloc : ∀ size, b.kmalloc size = true
  kzalloc : b.allocs.kzalloc = true
  slots : ∀ i, b.allocs.kmalloc i = true
  avail : n ≤ b.sqWrAvail
  post : ∀ i, b.post i = 0

/-- What the target makes of a command: `srpt_get_desc_tbl` when it is received, and
`srpt_map_sg_to_ib_sge` and `srpt_perform_rdmas` when the buffer for its data is there. -/
def srptTransfer (b : Backend) (cmd : Buffer) : Option (List SendWr) :=
  match srptGetDescTbl b.kmalloc cmd with
  | .error _ => none
  | .ok tbl =>
      match srptMapSgToIbSge (b.sgs.length+1) b.lkey b.allocs b.sgs
        { rbufs := tbl.rbufs, dataLength := tbl.dataLen } with
      | some (.ok io) =>
          match srptPerformRdmas tbl.dir b.sqWrAvail b.post io with
          | (0, posted) => some posted
          | _ => none
      | _ => none

theorem postRdmas_all {ioctx : SendIoctx} {dir : DataDirection} {post : ℕ → ℤ}
    (hpost : ∀ i, post i = 0) (is : List ℕ) :
    postRdmas ioctx dir post is = (0, is.map (ioctx.wr dir)) := by
  induction is with
  | nil => rfl
  | cons i is ih => rw [postRdmas, if_neg (not_not.mpr (hpost i)), ih, List.map_cons]

def opcodeOf (dir : DataDirection) : Opcode := if dir = .fromDevice then .rdmaWrite else .rdmaRead

theorem wr_opcode (ioctx : SendIoctx) (dir : DataDirection) (i : ℕ) :
    (ioctx.wr dir i).opcode = opcodeOf dir := rfl

/-- The target posts work requests for all bytes. -/
theorem srptTransfer_posts {b : Backend} {cmd : Buffer} {tbl : DescTbl}
    (hable : b.Able (needed tbl.rbufs b.sgs)) (htbl : srptGetDescTbl b.kmalloc cmd = .ok tbl)
    (hfresh : Fresh b.sgs { rbufs := tbl.rbufs, dataLength := tbl.dataLen }) (hsgs : b.sgs ≠ [])
    (hfew : needed tbl.rbufs b.sgs ≤ 255) :
    ∃ posted, srptTransfer b cmd = some posted ∧
      posted.flatMap SendWr.bytes = (remoteBytes tbl.rbufs).zip (localBytes b.lkey b.sgs) ∧
      ∀ wr ∈ posted, wr.opcode = opcodeOf tbl.dir := by
  have hdbs : ∀ db ∈ tbl.rbufs, 0 < db.len := fun db h => (hfresh.rbufs db h).1
  have hbytes := schedule_bytes b.lkey tbl.rbufs (b.sgs.map segOf)
  rw [segBytes_segOf] at hbytes
  have hlength := schedule_length_eq_needed b.lkey b.sgs hdbs
  have hmap := srptMapSgToIbSge_schedule b.lkey b.allocs hfresh hsgs (Nat.lt_succ_self _)
  rw [if_pos ⟨hable.kzalloc, fun i _ => hable.slots i⟩] at hmap
  simp only at hmap
  generalize schedule b.lkey tbl.rbufs (b.sgs.map segOf) = es at hbytes hlength hmap
  have hstores := mapped_stores { rbufs := tbl.rbufs, dataLength := tbl.dataLen } b.sgs.length es
  generalize SendIoctx.mapped { rbufs := tbl.rbufs, dataLength := tbl.dataLen } b.sgs.length es =
    io at hmap hstores
  have hcount : io.nRdma = es.length := by
    rw [hstores.nRdma]
    exact Nat.mod_eq_of_lt (by omega)
  have hperform : srptPerformRdmas tbl.dir b.sqWrAvail b.post io =
      (0, (List.range es.length).map (io.wr tbl.dir)) := by
    have havail := hable.avail
    unfold srptPerformRdmas
    rw [if_neg (by rw [hcount]; omega), hcount, postRdmas_all hable.post]
  refine ⟨(List.range es.length).map (io.wr tbl.dir), ?_, ?_, ?_⟩
  · unfold srptTransfer
    simp only [htbl, hmap, hperform]
  · rw [hstores.posted_bytes (Nat.le_refl _), List.take_length, hbytes]
  · intro wr hwr
    cases List.mem_map.mp hwr with
    | intro i hi => rw [← hi.2, wr_opcode]

/-- The memories on both sides; that of the target is addressed by key and address. -/
structure Memories where
  initiator : ℕ → Byte
  target : ℕ × ℕ → Byte

def moves (wr : SendWr) : List (Opcode × ((ℕ × ℕ) × (ℕ × ℕ))) := wr.bytes.map (Prod.mk wr.opcode)

def moveByte (resolve : ℕ × ℕ → ℕ) (m : Memories) : Opcode × ((ℕ × ℕ) × (ℕ × ℕ)) → Memories
  | (.rdmaWrite, remote, loc) =>
      { m with initiator := Function.update m.initiator (resolve remote) (m.target loc) }
  | (.rdmaRead, remote, loc) =>
      { m with target := Function.update m.target loc (m.initiator (resolve remote)) }

/-- The HCAs move some bytes one after another. -/
def moveBytes (resolve : ℕ × ℕ → ℕ) (bytes : List (Opcode × ((ℕ × ℕ) × (ℕ × ℕ)))) (m : Memories) :
    Memories :=
  bytes.foldl (moveByte resolve) m

section
variable {resolve : ℕ × ℕ → ℕ} (ps : List ((ℕ × ℕ) × (ℕ × ℕ)))

theorem moveBytes_write : ∀ m : Memories, moveBytes resolve (ps.map (Prod.mk .rdmaWrite)) m =
    { m with initiator := copied m.target (ps.map fun p => (resolve p.1, p.2)) m.initiator } := by
  induction ps with
  | nil => exact fun _ => rfl
  | cons p ps ih => exact fun m => ih _

theorem moveBytes_read : ∀ m : Memories, moveBytes resolve (ps.map (Prod.mk .rdmaRead)) m =
    { m with target := copied m.initiator (ps.map fun p => (p.2, resolve p.1)) m.target } := by
  induction ps with
  | nil => exact fun _ => rfl
  | cons p ps ih => exact fun m => ih _

/-- If all work requests are of one kind, only the order of the bytes is open. -/
theorem exists_perm_bytes {posted : List SendWr} {op : Opcode} (hop : ∀ wr ∈ posted, wr.opcode = op)
    {order : List (Opcode × ((ℕ × ℕ) × (ℕ × ℕ)))} (horder : order.Perm (posted.flatMap moves)) :
    ∃ ps : List ((ℕ × ℕ) × (ℕ × ℕ)), ps.Perm (posted.flatMap SendWr.bytes) ∧
      order = ps.map (Prod.mk op) := by
  have hmoves : posted.flatMap moves = (posted.flatMap SendWr.bytes).map (Prod.mk op) := by
    rw [List.map_flatMap]
    apply List.flatMap_congr
    intro wr hwr
    rw [moves, hop wr hwr]
  rw [hmoves] at horder
  refine ⟨order.map Prod.snd, ?_, ?_⟩
  · have hsnd := horder.map Prod.snd
    rwa [List.map_map, Function.comp_def, List.map_id'] at hsnd
  · rw [List.map_map]
    refine ((List.map_congr_left (g := id) ?_).trans (List.map_id order)).symm
    intro move hmove
    cases List.mem_map.mp (horder.mem_iff.mp hmove) with
    | intro p hp => rw [← hp.2, Function.comp_apply, id]

end

section
variable {hca : Hca} {target : SrpTargetPort} {rkey : Rkey MrDesc → BitVec 32} {scmnd : ScsiCmnd}
variable {scat : List Sg} {ch : SrpRdmaCh} {desc : DataDesc} {bufs : List RemoteBuf} {b : Backend}
variable {resolve : ℕ × ℕ → ℕ}

theorem fresh_dataBufs (hlt : sgLen scat < 2^32) (hpos : 0 < sgLen scat)
    (hbufs : bufs = (dataBufs hca target scat ch).map (remoteBuf rkey))
    (hremote : (remoteBytes bufs).map resolve = sgBytes scat) (hlocal : sgLen b.sgs = sgLen scat) :
    Fresh b.sgs { rbufs := bufs, dataLength := (remoteBytes bufs).length % 2^32 } := by
  have hlength : (remoteBytes bufs).length = sgLen scat := by
    rw [← sgBytes_length, ← hremote, List.length_map]
  have hmod : (remoteBytes bufs).length % 2^32 = sgLen scat := by
    rw [hlength]
    exact Nat.mod_eq_of_lt hlt
  constructor
  · rfl
  · rfl
  · intro db hdb
    rw [hbufs] at hdb
    cases List.mem_map.mp hdb with
    | intro d hd =>
        have hextent := dataBufs_extent hlt hpos d hd.1
        rw [← hd.2]
        exact ⟨hextent.1.1, hextent.2.2⟩
  · rw [segLens_segOf]
    exact hlocal.trans hmod.symm
  · change (remoteBytes bufs).length % 2^32 < 2^32
    omega

/-- The data of a command arrive. Whatever the order in which the HCAs move the bytes of the
work requests, a read puts the bytes of the target's buffer into the scatter/gather list, and
a write those of the list into the buffer, each in its place. No other byte is touched in
either memory. -/
theorem data_arrives (hpost : ∀ n, hca.postSend n = true) (hcnt : target.cmdSgCnt ≤ 255)
    (hscat : scmnd.sglist = some scat) (hpos : 0 < sgLen scat)
    (hdesc : srpMapDataDesc hca target rkey scmnd ch = some desc) (hbufs : table desc = some bufs)
    (hfits : target.allowExtSg = false ∨ bufs.length ≤ target.cmdSgCnt)
    (hkeys : Translates target.dev rkey resolve (dataBufs hca target scat ch))
    (hlocal : sgLen b.sgs = sgLen scat) (hfew : needed bufs b.sgs ≤ 255)
    (hable : b.Able (needed bufs b.sgs)) (addr : ℕ) (hdr : CmdHeader) (cmd : Buffer) :
    ∃ posted, srptTransfer b (desc.put target rkey scmnd.dataDirection addr (hdr.put cmd)) =
        some posted ∧
      ∀ order, order.Perm (posted.flatMap moves) → ∀ m,
        (scmnd.dataDirection = .fromDevice → (sgBytes scat).Nodup →
          (sgBytes scat).map (moveBytes resolve order m).initiator =
              (localBytes b.lkey b.sgs).map m.target ∧
            (∀ a ∉ sgBytes scat, (moveBytes resolve order m).initiator a = m.initiator a) ∧
            (moveBytes resolve order m).target = m.target) ∧
        (scmnd.dataDirection = .toDevice → (localBytes b.lkey b.sgs).Nodup →
          (localBytes b.lkey b.sgs).map (moveBytes resolve order m).target =
              (sgBytes scat).map m.initiator ∧
            (∀ a ∉ localBytes b.lkey b.sgs, (moveBytes resolve order m).target a = m.target a) ∧
            (moveBytes resolve order m).initiator = m.initiator) := by
  have hlt : sgLen scat < 2^32 := scmnd.len_lt scat hscat
  have hdata := table_dataBufs hdesc hbufs hscat
  have hremote : (remoteBytes bufs).map resolve = sgBytes scat := by
    rw [hdata, map_resolve_remoteBytes _ hkeys (dataBufs_extent hlt hpos), dataBufs_bytes hpost hlt]
  have hfresh := fresh_dataBufs hlt hpos hdata hremote hlocal
  have hsgs : b.sgs ≠ [] := by
    intro hnil
    rw [← hlocal, hnil] at hpos
    exact Nat.lt_irrefl 0 hpos
  have hlength : (sgBytes scat).length = (localBytes b.lkey b.sgs).length := by
    rw [sgBytes_length, ← hlocal, ← segBytes_segOf, segBytes_length, segLens_segOf]
    rfl
  have htbl := srptGetDescTbl_dataBufs hable.kmalloc addr hdr cmd hcnt hdesc hbufs hfits
  obtain ⟨posted, hposted, hbytes, hop⟩ := srptTransfer_posts hable htbl hfresh hsgs hfew
  refine ⟨posted, hposted, ?_⟩
  intro order horder m
  obtain ⟨ps, hps, rfl⟩ := exists_perm_bytes hop horder
  rw [hbytes] at hps
  constructor
  · intro hdir hnodup
    have hpairs : (ps.map fun p => (resolve p.1, p.2)).Perm
        ((sgBytes scat).zip (localBytes b.lkey b.sgs)) := by
      rw [← hremote, List.zip_map_left]
      exact hps.map _
    have hopcode : opcodeOf scmnd.dataDirection = .rdmaWrite := by
      rw [hdir]
      rfl
    rw [hopcode, moveBytes_write]
    exact ⟨map_copied _ _ hpairs hlength hnodup, fun a ha => copied_elsewhere _ _ hpairs ha, rfl⟩
  · intro hdir hnodup
    have hpairs : (ps.map fun p => (p.2, resolve p.1)).Perm
        ((localBytes b.lkey b.sgs).zip (sgBytes scat)) := by
      rw [← hremote, List.zip_map_right, ← List.zip_swap (remoteBytes bufs), List.map_map]
      exact hps.map _
    have hopcode : opcodeOf scmnd.dataDirection = .rdmaRead := by
      rw [hdir]
      rfl
    rw [hopcode, moveBytes_read]
    exact ⟨map_copied _ _ hpairs hlength.symm hnodup, fun a ha => copied_elsewhere _ _ hpairs ha,
      rfl⟩

end

def threeBytes : Sg := onPage 3 3

theorem straddlingRead_lt : ∀ scat ∈ some [straddling, threeBytes], sgLen scat < 2^32 := by
  decide

/-- A command that reads five bytes, the first two of which are in different pages. -/
def straddlingRead : ScsiCmnd :=
  { id := 0, dataDirection := .fromDevice, bufflen := 5, sglist := some [straddling, threeBytes],
    len_lt := straddlingRead_lt }

def twoKeys : Rkey MrDesc → BitVec 32
  | .target => 1
  | _ => 2

/-- The second key stands for two pages. -/
def twoKeysResolve (a : ℕ × ℕ) : ℕ :=
  if a.1 = 1 then a.2
  else translate twoPageDevice (Rkey.fr (D := MrDesc) ⟨0, 0⟩ 4095 [0, 4096]) a.2

def fourAndOne : Backend where
  lkey := 7
  sgs := [onPage 1 4, onPage 2 1]
  kmalloc _ := true
  allocs := noFailure
  sqWrAvail := 64
  post _ := 0

theorem straddlingRead_bufs :
    dataBufs ChannelSystem.willingHca ChannelSystem.smallTarget [straddling, threeBytes]
        (.login ChannelSystem.smallTarget 4) =
      [⟨4095, .fr ⟨0, 0⟩ 4095 [0, 4096], 2⟩, ⟨12288, .target, 3⟩] := by
  decide +kernel

theorem straddlingRead_translates : Translates twoPageDevice twoKeys twoKeysResolve
    [⟨4095, .fr ⟨0, 0⟩ 4095 [0, 4096], 2⟩, ⟨12288, .target, 3⟩] := by
  intro d hd va _
  simp only [List.mem_cons, List.not_mem_nil, or_false] at hd
  cases hd with
  | inl hfr =>
      rw [hfr]
      rfl
  | inr htarget =>
      rw [htarget]
      rfl

theorem data_arrives_straddling : ∃ posted,
    srptTransfer fourAndOne ((DataDesc.indirect [⟨4095, 2, 2⟩, ⟨12288, 1, 3⟩] 5).put
        ChannelSystem.smallTarget twoKeys .fromDevice 0 (zeroHeader.put fun _ => 0xff)) =
      some posted ∧
    ∀ m, [4095, 4096, 12288, 12289, 12290].map
        (moveBytes twoKeysResolve (posted.flatMap moves) m).initiator =
      [(7, 4096), (7, 4097), (7, 4098), (7, 4099), (7, 8192)].map m.target := by
  have hdesc : srpMapDataDesc ChannelSystem.willingHca ChannelSystem.smallTarget twoKeys
      straddlingRead (.login ChannelSystem.smallTarget 4) =
        some (.indirect [⟨4095, 2, 2⟩, ⟨12288, 1, 3⟩] 5) := by
    decide +kernel
  have hneeded : needed [⟨4095, 2, 2⟩, ⟨12288, 1, 3⟩] fourAndOne.sgs = 2 := by decide
  have hable : fourAndOne.Able (needed [⟨4095, 2, 2⟩, ⟨12288, 1, 3⟩] fourAndOne.sgs) := by
    rw [hneeded]
    exact ⟨fun _ => rfl, rfl, fun _ => rfl, by decide, fun _ => rfl⟩
  obtain ⟨posted, hposted, harrives⟩ := data_arrives (fun _ => rfl) (by decide) rfl (by decide)
    hdesc rfl (Or.inl rfl) (straddlingRead_bufs ▸ straddlingRead_translates) (by decide)
    (by rw [hneeded]; decide) hable 0 zeroHeader fun _ => 0xff
  exact ⟨posted, hposted, fun m => ((harrives _ (List.Perm.refl _) m).1 rfl (by decide)).1⟩

end IbSrp.DataPath

import IbSrp.PagedBytes
import IbSrp.RdmaSchedule
import IbSrp.SegmentWindows

/-!
# What the work requests of a transfer cover

A work request pairs the bytes from its remote address on with the bytes of its pieces, one
after the other. All requests of the schedule together pair the bytes of the remote
descriptors with those of the local segments in order, until one of the two ends; none of
them has more than 16 pieces. Their number is found from the positions at which descriptors
and segments begin and end.

What is posted are the first `n_rdma` entries, where `n_rdma` is the number of entries
reduced to 8 bits. If there are more than 255 entries the last ones are left out, and with
them the last byte of the transfer. The number of entries is at most that of the array, but
the field that holds the size of the array has 16 bits.
-/
namespace IbSrp.TargetRdma
open PagedBytes SegmentWindows
open MemoryRegistration (Sg)
open SrpCommand (RemoteBuf)
open Channel (DataDirection)

/-- The `n` bytes from `a` on in the memory with key `key`. -/
def keyed (key a n : ℕ) : List (ℕ × ℕ) := (contiguous (2^64) a n).map (Prod.mk key)

def Sge.bytes (sge : Sge) : List (ℕ × ℕ) := keyed sge.lkey sge.addr sge.length

/-- The local bytes of a request; a slot that has not been written has none. -/
def SendWr.localBytes (wr : SendWr) : List (ℕ × ℕ) := wr.sgList.flatMap fun sge =>
  sge.elim [] Sge.bytes

/-- The pairs of a remote and a local byte between which a request transfers data. -/
def SendWr.bytes (wr : SendWr) : List ((ℕ × ℕ) × (ℕ × ℕ)) :=
  (keyed wr.rkey wr.remoteAddr wr.localBytes.length).zip wr.localBytes

def remoteBytes (dbs : List RemoteBuf) : List (ℕ × ℕ) :=
  dbs.flatMap fun db => keyed db.key db.va db.len

def localBytes (lkey : ℕ) (sgs : List Sg) : List (ℕ × ℕ) :=
  sgs.flatMap fun sg => keyed lkey sg.dmaAddress sg.dmaLen

/-- The requests that have been posted transfer all bytes, once and in order. -/
structure Covers (lkey : ℕ) (sgs : List Sg) (ioctx : SendIoctx) (posted : List SendWr) : Prop where
  slots : ∀ i k, ioctx.slots i k ≠ none →
    ∃ iu, (ioctx.rdmaIus.getD [])[i]? = some iu ∧ k < iu.sgeCnt
  used : (ioctx.rdmaIus.getD []).length ≤ ioctx.nRdmaIus
  filled : ∀ wr ∈ posted, none ∉ wr.sgList
  sges : ∀ wr ∈ posted, wr.sgList.length ≤ srptDefSgPerWqe
  bytes : posted.flatMap SendWr.bytes = (remoteBytes ioctx.rbufs).zip (localBytes lkey sgs)

/-- The number of entries: one for each descriptor that begins before the end of the data, and
another one for every 16 segments that end within it. -/
def needed (dbs : List RemoteBuf) (sgs : List Sg) : ℕ :=
  partsAt srptDefSgPerWqe (sgs.map Sg.dmaLen) 0 (dbs.map RemoteBuf.len)

@[simp] theorem keyed_length (key a n : ℕ) : (keyed key a n).length = n := by simp [keyed]

theorem keyed_add (key a m n : ℕ) : keyed key a (m+n) = keyed key a m++keyed key (a+m) n := by
  rw [keyed, contiguous_add, List.map_append]
  rfl

/-- Only the address modulo `2^64` counts. -/
theorem keyed_congr (key n : ℕ) {a b : ℕ} (h : a % 2^64 = b % 2^64) :
    keyed key a n = keyed key b n := by
  rw [keyed, keyed, ← contiguous_mod, h, contiguous_mod]

theorem zip_append_left {α β : Type} (a b : List α) : ∀ l : List β,
    (a++b).zip l = a.zip l++b.zip (l.drop a.length) := by
  induction a with
  | nil => simp
  | cons x a ih =>
      intro l
      cases l with
      | nil => simp
      | cons y l => simp [ih]

theorem zip_append_right {α β : Type} (a b : List β) : ∀ l : List α,
    l.zip (a++b) = l.zip a++(l.drop a.length).zip b := by
  induction a with
  | nil => simp
  | cons x a ih =>
      intro l
      cases l with
      | nil => simp
      | cons y l => simp [ih]

def Entry.localBytes (e : Entry) : List (ℕ × ℕ) := e.sges.flatMap Sge.bytes

def Entry.bytes (e : Entry) : List ((ℕ × ℕ) × (ℕ × ℕ)) :=
  (keyed e.rkey e.raddr e.localBytes.length).zip e.localBytes

def segBytes (lkey : ℕ) (segs : List Seg) : List (ℕ × ℕ) :=
  segs.flatMap fun seg => keyed lkey seg.addr seg.len

@[simp] theorem Entry.bytes_nil (raddr rkey : ℕ) : (⟨raddr, rkey, []⟩ : Entry).bytes = [] := rfl

@[simp] theorem segBytes_cons (lkey : ℕ) (seg : Seg) (segs : List Seg) :
    segBytes lkey (seg::segs) = keyed lkey seg.addr seg.len++segBytes lkey segs := rfl

theorem segBytes_length (lkey : ℕ) (segs : List Seg) :
    (segBytes lkey segs).length = (segLens segs).sum := by
  induction segs with
  | nil => rfl
  | cons seg segs ih => simp [ih]

theorem Entry.add_sges (e : Entry) (sge : Sge) :
    (e.add sge).sges.length = e.sges.length+1 := by
  simp [Entry.add]

theorem Entry.add_length (e : Entry) (sge : Sge) :
    (e.add sge).localBytes.length = e.localBytes.length+sge.length := by
  simp [Entry.localBytes, Entry.add, Sge.bytes]

theorem Entry.add_bytes (e : Entry) (sge : Sge) :
    (e.add sge).bytes =
      e.bytes++(keyed e.rkey (e.raddr+e.localBytes.length) sge.length).zip sge.bytes := by
  have hlocal : (e.add sge).localBytes = e.localBytes++sge.bytes := by
    simp [Entry.localBytes, Entry.add]
  rw [Entry.bytes, Entry.add_length, hlocal, keyed_add, List.zip_append (by simp)]
  rfl

theorem roll_bytes (e : Entry) (raddr : ℕ) (goesOn : Bool) :
    (e.roll raddr goesOn).1.flatMap Entry.bytes++(e.roll raddr goesOn).2.bytes = e.bytes := by
  unfold Entry.roll
  split_ifs
  · simp
  · simp

/-- The address at which the pieces of an entry go on. -/
def Entry.GoesOnAt (e : Entry) (raddr : ℕ) : Prop :=
  raddr % 2^64 = (e.raddr+e.localBytes.length) % 2^64

theorem roll_goesOnAt {e : Entry} {raddr : ℕ} (h : e.GoesOnAt raddr) (goesOn : Bool) :
    (e.roll raddr goesOn).2.GoesOnAt raddr := by
  unfold Entry.roll
  split_ifs
  · rfl
  · exact h

section
variable {lkey : ℕ} {seg : Seg} {e : Entry} {raddr : ℕ}

theorem add_goesOnAt (h : e.GoesOnAt raddr) (seg : Seg) (lkey : ℕ) :
    (e.add ⟨seg.addr, seg.len, lkey⟩).GoesOnAt ((raddr+seg.len) % 2^64) := by
  unfold Entry.GoesOnAt at h ⊢
  rw [Entry.add_length]
  simp only [Entry.add]
  omega

theorem add_bytes (h : e.GoesOnAt raddr) (lkey addr n : ℕ) :
    (e.add ⟨addr, n, lkey⟩).bytes =
      e.bytes++(keyed e.rkey raddr n).zip (keyed lkey addr n) := by
  rw [Entry.add_bytes, keyed_congr e.rkey n h]
  rfl

theorem zip_whole {r : ℕ} (hle : seg.len ≤ r) (rkey : ℕ) (segs : List Seg) :
    (keyed rkey raddr r).zip (segBytes lkey (seg::segs)) =
      (keyed rkey raddr seg.len).zip (keyed lkey seg.addr seg.len)++
        (keyed rkey ((raddr+seg.len) % 2^64) (r-seg.len)).zip (segBytes lkey segs) := by
  have hsplit : keyed rkey raddr r =
      keyed rkey raddr seg.len++keyed rkey ((raddr+seg.len) % 2^64) (r-seg.len) := by
    rw [keyed_congr rkey (r-seg.len) (Nat.mod_mod _ _), ← keyed_add, Nat.add_sub_cancel' hle]
  rw [hsplit, segBytes_cons, List.zip_append (by simp)]

theorem zip_part {r : ℕ} (hlt : r ≤ seg.len) (rkey : ℕ) (segs : List Seg) :
    (keyed rkey raddr r).zip (segBytes lkey (seg::segs)) =
      (keyed rkey raddr r).zip (keyed lkey seg.addr r) := by
  have hsplit : keyed lkey seg.addr seg.len =
      keyed lkey seg.addr r++keyed lkey (seg.addr+r) (seg.len-r) := by
    rw [← keyed_add, Nat.add_sub_cancel' hlt]
  rw [segBytes_cons, hsplit, List.append_assoc, zip_append_right]
  simp

end

theorem segBytes_of_sum {lkey : ℕ} {segs : List Seg} (h : (segLens segs).sum = 0) :
    segBytes lkey segs = [] := by
  rw [← List.length_eq_zero_iff, segBytes_length, h]

/-- The entries for a descriptor pair its bytes with those of the segments. -/
theorem cut_bytes (lkey : ℕ) (segs : List Seg) : ∀ r raddr e, e.GoesOnAt raddr →
    (cut lkey segs r raddr e).1.flatMap Entry.bytes =
      e.bytes++(keyed e.rkey raddr r).zip (segBytes lkey segs) := by
  induction segs with
  | nil =>
      intro r raddr e _
      simp [cut, segBytes]
  | cons seg segs ih =>
      intro r raddr e hgoes
      simp only [cut]
      by_cases hle : seg.len ≤ r
      · have hadd := add_bytes hgoes lkey seg.addr seg.len
        have hroll := roll_bytes (e.add ⟨seg.addr, seg.len, lkey⟩) ((raddr+seg.len) % 2^64)
          (seg.len < r)
        have hgoes' := roll_goesOnAt (add_goesOnAt hgoes seg lkey) (seg.len < r)
        have hrkey := Entry.roll_rkey (e.add ⟨seg.addr, seg.len, lkey⟩) ((raddr+seg.len) % 2^64)
          (seg.len < r)
        rw [if_pos hle, zip_whole hle, ← List.append_assoc, ← hadd, ← hroll]
        generalize (e.add ⟨seg.addr, seg.len, lkey⟩).roll ((raddr+seg.len) % 2^64)
          (seg.len < r) = q at hgoes' hrkey
        split_ifs with hsum hend
        · simp [segBytes_of_sum hsum]
        · simp [hend, keyed]
        · rw [List.flatMap_append, ih _ _ _ hgoes', hrkey, List.append_assoc]
          rfl
      · rw [if_neg hle, zip_part (by omega)]
        simp [add_bytes hgoes]

theorem cut_rest_lens (lkey : ℕ) (segs : List Seg) : ∀ r raddr e,
    segLens (cut lkey segs r raddr e).2 = cutOff r (segLens segs) := by
  induction segs with
  | nil => exact fun _ _ _ => rfl
  | cons seg segs ih =>
      intro r raddr e
      simp only [cut, segLens_cons, cutOff]
      split_ifs
      · rfl
      · rfl
      · exact ih _ _ _
      · rfl

theorem cut_rest_bytes (lkey : ℕ) (segs : List Seg) : ∀ r raddr e,
    segBytes lkey (cut lkey segs r raddr e).2 = (segBytes lkey segs).drop r := by
  induction segs with
  | nil => simp [cut, segBytes]
  | cons seg segs ih =>
      intro r raddr e
      simp only [cut]
      split_ifs with hle hsum hend
      · rw [List.drop_of_length_le]
        · rfl
        · rw [segBytes_length, segLens_cons, List.sum_cons]
          omega
      · rw [hend, segBytes_cons, List.drop_left' (keyed_length _ _ _)]
      · have hpassed : (keyed lkey seg.addr seg.len).drop r = [] :=
          List.drop_of_length_le (by simpa using hle)
        rw [ih, segBytes_cons, List.drop_append, hpassed, keyed_length, List.nil_append]
      · have hsplit : keyed lkey seg.addr seg.len =
            keyed lkey seg.addr r++keyed lkey ((seg.addr+r) % 2^64) (seg.len-r) := by
          rw [keyed_congr lkey (seg.len-r) (Nat.mod_mod _ _), ← keyed_add,
            Nat.add_sub_cancel' (by omega)]
        rw [segBytes_cons, segBytes_cons, hsplit, List.append_assoc,
          List.drop_left' (keyed_length _ _ _)]

/-- All requests together pair the bytes of the descriptors with those of the segments. -/
theorem schedule_bytes (lkey : ℕ) (dbs : List RemoteBuf) : ∀ segs,
    (schedule lkey dbs segs).flatMap Entry.bytes =
      (remoteBytes dbs).zip (segBytes lkey segs) := by
  induction dbs with
  | nil => simp [schedule, remoteBytes]
  | cons db dbs ih =>
      intro segs
      have hremote : remoteBytes (db::dbs) = keyed db.key db.va db.len++remoteBytes dbs := rfl
      rw [schedule, hremote]
      split_ifs with hsum
      · simp [segBytes_of_sum hsum]
      · have hcut := cut_bytes lkey segs db.len db.va ⟨db.va, db.key, []⟩ rfl
        rw [List.flatMap_append, hcut, ih, cut_rest_bytes, zip_append_left, keyed_length]
        rfl

/-- An entry that is to be filled has room for another piece. -/
theorem roll_room {e : Entry} (h : e.sges.length ≤ srptDefSgPerWqe) (raddr : ℕ) :
    (e.roll raddr true).2.sges.length < srptDefSgPerWqe := by
  unfold Entry.roll
  split_ifs with hfull
  · exact Nat.succ_pos 15
  · exact Nat.lt_of_le_of_ne h fun heq => hfull ⟨rfl, heq⟩

theorem roll_count (e : Entry) (raddr : ℕ) (goesOn : Bool) :
    srptDefSgPerWqe*(e.roll raddr goesOn).1.length+(e.roll raddr goesOn).2.sges.length =
      e.sges.length := by
  unfold Entry.roll
  split_ifs with hfull
  · simp [hfull.2]
  · simp

theorem roll_sges {e x : Entry} (h : e.sges.length ≤ srptDefSgPerWqe) {raddr : ℕ} {goesOn : Bool}
    (hx : x ∈ (e.roll raddr goesOn).1 ∨ x = (e.roll raddr goesOn).2) :
    x.sges.length ≤ srptDefSgPerWqe := by
  unfold Entry.roll at hx
  split_ifs at hx
  · simp only [List.mem_singleton] at hx
    rcases hx with rfl | rfl
    · exact h
    · exact Nat.zero_le _
  · simp only [List.not_mem_nil, false_or] at hx
    rw [hx]
    exact h

theorem cut_sges (lkey : ℕ) (segs : List Seg) : ∀ r raddr e, e.sges.length < srptDefSgPerWqe →
    ∀ x ∈ (cut lkey segs r raddr e).1, x.sges.length ≤ srptDefSgPerWqe := by
  induction segs with
  | nil =>
      intro r raddr e he x hx
      simp only [cut, List.mem_singleton] at hx
      rw [hx]
      omega
  | cons seg segs ih =>
      intro r raddr e he x hx
      have hadd : ∀ sge, (e.add sge).sges.length ≤ srptDefSgPerWqe := by
        intro sge
        rw [Entry.add_sges]
        exact he
      simp only [cut] at hx
      split_ifs at hx with hle hsum hend
      · exact roll_sges (hadd _) (by simpa using hx)
      · exact roll_sges (hadd _) (by simpa using hx)
      · rcases List.mem_append.mp hx with hfull | hlater
        · exact roll_sges (hadd _) (.inl hfull)
        · have hgoes : seg.len < r := by omega
          simp only [hgoes, decide_true] at hlater
          exact ih _ _ _ (roll_room (hadd _) _) x hlater
      · rw [List.mem_singleton.mp hx]
        exact hadd _

theorem schedule_sges (lkey : ℕ) (dbs : List RemoteBuf) : ∀ segs,
    ∀ x ∈ schedule lkey dbs segs, x.sges.length ≤ srptDefSgPerWqe := by
  induction dbs with
  | nil => simp [schedule]
  | cons db dbs ih =>
      intro segs x hx
      rw [schedule] at hx
      split_ifs at hx
      · cases hx
      · rcases List.mem_append.mp hx with hcut | hlater
        · exact cut_sges lkey segs db.len db.va ⟨db.va, db.key, []⟩ (Nat.succ_pos 15) x hcut
        · exact ih _ x hlater

theorem cut_length (lkey : ℕ) (segs : List Seg) : ∀ r raddr e, 0 < (segLens segs).sum →
    e.sges.length < srptDefSgPerWqe →
    (cut lkey segs r raddr e).1.length =
      1+(e.sges.length+endsBefore r (segLens segs)) / srptDefSgPerWqe := by
  induction segs with
  | nil =>
      intro r raddr e hpos
      cases hpos
  | cons seg segs ih =>
      intro r raddr e hpos he
      rw [segLens_cons, List.sum_cons] at hpos
      simp only [cut, segLens_cons, endsBefore]
      by_cases hle : seg.len ≤ r
      · have hcount := roll_count (e.add ⟨seg.addr, seg.len, lkey⟩) ((raddr+seg.len) % 2^64)
          (seg.len < r)
        have hroom : seg.len < r → ((e.add ⟨seg.addr, seg.len, lkey⟩).roll
            ((raddr+seg.len) % 2^64) (seg.len < r)).2.sges.length < srptDefSgPerWqe := by
          intro hgoes
          simp only [hgoes, decide_true]
          exact roll_room (by rw [Entry.add_sges]; exact he) _
        have hstay : ¬ seg.len < r → ((e.add ⟨seg.addr, seg.len, lkey⟩).roll
            ((raddr+seg.len) % 2^64) (seg.len < r)).1.length = 0 := by
          intro hends
          simp [Entry.roll, hends]
        rw [Entry.add_sges] at hcount
        rw [if_pos hle]
        generalize (e.add ⟨seg.addr, seg.len, lkey⟩).roll ((raddr+seg.len) % 2^64)
          (seg.len < r) = q at hcount hroom hstay
        have hlast : (q.1++[q.2]).length = q.1.length+1 := by simp
        unfold srptDefSgPerWqe at he hcount hroom ⊢
        by_cases hsum : (segLens segs).sum = 0
        · rw [if_pos hsum, hlast, endsBefore_of_sum _ hsum]
          split_ifs <;> omega
        rw [if_neg hsum]
        by_cases hend : r = seg.len
        · rw [if_pos hend, hlast, hend, Nat.sub_self, endsBefore_zero]
          split_ifs <;> omega
        · have hrest := ih (r-seg.len) ((raddr+seg.len) % 2^64) q.2 (by omega) (hroom (by omega))
          unfold srptDefSgPerWqe at hrest
          rw [if_neg hend, if_pos (by omega), List.length_append, hrest]
          omega
      · have hbefore : r-seg.len = 0 := by omega
        rw [if_neg hle, if_neg (by omega), hbefore, endsBefore_zero, Nat.add_zero,
          Nat.div_eq_of_lt he]
        rfl

theorem schedule_length (lkey : ℕ) (dbs : List RemoteBuf) : ∀ segs,
    (schedule lkey dbs segs).length =
      parts srptDefSgPerWqe (dbs.map RemoteBuf.len) (segLens segs) := by
  induction dbs with
  | nil => exact fun _ => rfl
  | cons db dbs ih =>
      intro segs
      simp only [schedule, List.map_cons, parts]
      split_ifs with hsum
      · rfl
      · have hcut := cut_length lkey segs db.len db.va ⟨db.va, db.key, []⟩ (by omega)
          (Nat.succ_pos 15)
        rw [List.length_append, hcut, ih, cut_rest_lens]
        simp

/-- One of the last two entries has bytes. -/
def EndsWithBytes (es : List Entry) : Prop :=
  ∃ pre x post, es = pre++x::post ∧ post.length ≤ 1 ∧ 0 < x.localBytes.length

theorem EndsWithBytes.append {es : List Entry} (h : EndsWithBytes es) (es' : List Entry) :
    EndsWithBytes (es'++es) := by
  obtain ⟨pre, x, post, heq, hpost⟩ := h
  exact ⟨es'++pre, x, post, by rw [heq, List.append_assoc], hpost⟩

theorem roll_endsWithBytes {e : Entry} (h : 0 < e.localBytes.length) (raddr : ℕ) (goesOn : Bool) :
    EndsWithBytes ((e.roll raddr goesOn).1++[(e.roll raddr goesOn).2]) := by
  unfold Entry.roll
  split_ifs
  · exact ⟨[], e, [_], rfl, Nat.le_refl 1, h⟩
  · exact ⟨[], e, [], rfl, Nat.zero_le 1, h⟩

theorem cut_endsWithBytes (lkey : ℕ) (segs : List Seg) : ∀ r raddr e, 0 < r →
    0 < (segLens segs).sum → EndsWithBytes (cut lkey segs r raddr e).1 := by
  induction segs with
  | nil =>
      intro r raddr e _ hpos
      cases hpos
  | cons seg segs ih =>
      intro r raddr e hr hpos
      rw [segLens_cons, List.sum_cons] at hpos
      simp only [cut]
      split_ifs with hle hsum hend
      · exact roll_endsWithBytes (by rw [Entry.add_length]; simp only; omega) _ _
      · exact roll_endsWithBytes (by rw [Entry.add_length]; simp only; omega) _ _
      · exact (ih _ _ _ (by omega) (by omega)).append _
      · exact ⟨[], _, [], rfl, Nat.zero_le 1, by rw [Entry.add_length]; simp only; omega⟩

theorem schedule_endsWithBytes (lkey : ℕ) (dbs : List RemoteBuf) (hdbs : ∀ db ∈ dbs, 0 < db.len) :
    ∀ segs, schedule lkey dbs segs ≠ [] → EndsWithBytes (schedule lkey dbs segs) := by
  induction dbs with
  | nil =>
      intro segs hne
      exact absurd rfl hne
  | cons db dbs ih =>
      intro segs hne
      simp only [schedule] at hne ⊢
      split_ifs at hne ⊢ with hsum
      · exact absurd rfl hne
      · have hcut := cut_endsWithBytes lkey segs db.len db.va ⟨db.va, db.key, []⟩
          (hdbs db List.mem_cons_self) (by omega)
        by_cases hlast : schedule lkey dbs (cut lkey segs db.len db.va ⟨db.va, db.key, []⟩).2 = []
        · rw [hlast, List.append_nil]
          exact hcut
        · exact (ih (fun db h => hdbs db (List.mem_cons_of_mem _ h)) _ hlast).append _

/-- Without its last two entries a schedule does not transfer everything. -/
theorem take_bytes_ne {es : List Entry} (h : EndsWithBytes es) {n : ℕ} (hn : n+2 ≤ es.length) :
    (es.take n).flatMap Entry.bytes ≠ es.flatMap Entry.bytes := by
  obtain ⟨pre, x, post, heq, hpost, hx⟩ := h
  intro hall
  have hlen : n ≤ pre.length := by
    rw [heq] at hn
    simp only [List.length_append, List.length_cons] at hn
    omega
  have hmem : x ∈ es.drop n := by
    rw [heq, List.drop_append_of_le_length hlen]
    simp
  have hnone : (es.drop n).flatMap Entry.bytes = [] := by
    have hsplit : es.flatMap Entry.bytes =
        (es.take n).flatMap Entry.bytes++(es.drop n).flatMap Entry.bytes := by
      rw [← List.flatMap_append, List.take_append_drop]
    rw [hall] at hsplit
    exact List.self_eq_append_right.mp hsplit
  have hbytes : x.bytes = [] := List.flatMap_eq_nil_iff.mp hnone x hmem
  have hlength : x.bytes.length = x.localBytes.length := by simp [Entry.bytes]
  rw [hbytes] at hlength
  exact absurd hlength (Nat.ne_of_lt hx)

section
variable {lkey : ℕ} {es : List Entry} {ioctx : SendIoctx} {dir : DataDirection}

/-- The mapping has stored a schedule. -/
structure Stores (ioctx : SendIoctx) (es : List Entry) : Prop where
  rdmaIus : ioctx.rdmaIus = some (es.map Entry.iu)
  slots : ioctx.slots = table es
  nRdma : ioctx.nRdma = es.length % 2^8

theorem Stores.wr_sgList (h : Stores ioctx es) {i : ℕ} {e : Entry} (hi : es[i]? = some e) :
    (ioctx.wr dir i).sgList = e.sges.map some := by
  have hiu : ((ioctx.rdmaIus.getD [])[i]?).getD ⟨0, 0, 0⟩ = e.iu := by
    simp [h.rdmaIus, hi]
  simp only [SendIoctx.wr, hiu, h.slots, Entry.iu]
  apply List.ext_getElem (by simp)
  intro k hk _
  simp only [List.length_map, List.length_range] at hk
  simp [table, hi, List.getElem?_eq_getElem hk]

theorem Stores.wr_bytes (h : Stores ioctx es) {i : ℕ} {e : Entry} (hi : es[i]? = some e) :
    (ioctx.wr dir i).bytes = e.bytes := by
  have hlocal : (ioctx.wr dir i).localBytes = e.localBytes := by
    rw [SendWr.localBytes, h.wr_sgList hi, List.flatMap_map]
    rfl
  have hiu : ((ioctx.rdmaIus.getD [])[i]?).getD ⟨0, 0, 0⟩ = e.iu := by
    simp [h.rdmaIus, hi]
  rw [SendWr.bytes, hlocal, Entry.bytes]
  simp only [SendIoctx.wr, hiu, Entry.iu]

/-- The requests for the first entries transfer what these entries do. -/
theorem Stores.posted_bytes (h : Stores ioctx es) {n : ℕ} (hn : n ≤ es.length) :
    ((List.range n).map (ioctx.wr dir)).flatMap SendWr.bytes =
      (es.take n).flatMap Entry.bytes := by
  induction n with
  | zero => rfl
  | succ n ih =>
      have hi : es[n]? = some es[n] := List.getElem?_eq_getElem hn
      rw [List.range_succ, List.map_append, List.flatMap_append, ih (by omega), List.take_add_one,
        List.flatMap_append, hi]
      simp [h.wr_bytes hi]

theorem postRdmas_ok {post : ℕ → ℤ} (is : List ℕ) : ∀ {posted : List SendWr},
    postRdmas ioctx dir post is = (0, posted) → posted = is.map (ioctx.wr dir) := by
  induction is with
  | nil =>
      intro posted h
      cases h
      rfl
  | cons i is ih =>
      intro posted h
      simp only [postRdmas] at h
      split_ifs at h with hpost
      · exact absurd (Prod.mk.inj h).1 hpost
      · cases hrest : postRdmas ioctx dir post is with
        | mk ret wrs =>
            rw [hrest] at h
            cases h
            rw [ih hrest]
            rfl

theorem srptPerformRdmas_ok {sqWrAvail : ℤ} {post : ℕ → ℤ} {posted : List SendWr}
    (h : srptPerformRdmas dir sqWrAvail post ioctx = (0, posted)) :
    posted = (List.range ioctx.nRdma).map (ioctx.wr dir) := by
  unfold srptPerformRdmas at h
  split_ifs at h
  · cases h
  · exact postRdmas_ok _ h

end

theorem segLens_segOf (sgs : List Sg) : segLens (sgs.map segOf) = sgs.map Sg.dmaLen := by
  simp [segLens, segOf]

theorem segBytes_segOf (lkey : ℕ) (sgs : List Sg) :
    segBytes lkey (sgs.map segOf) = localBytes lkey sgs := by
  simp [segBytes, localBytes, segOf, List.flatMap_map]

theorem schedule_length_eq_needed (lkey : ℕ) {dbs : List RemoteBuf} (sgs : List Sg)
    (hdbs : ∀ db ∈ dbs, 0 < db.len) :
    (schedule lkey dbs (sgs.map segOf)).length = needed dbs sgs := by
  rw [schedule_length, segLens_segOf, needed]
  apply parts_eq_partsAt
  · intro r hr
    obtain ⟨db, hdb, rfl⟩ := List.mem_map.mp hr
    exact hdbs db hdb
  · rfl
  · exact fun _ _ _ => rfl

/-- What the array has been allocated for is never exceeded. -/
theorem needed_le {dbs : List RemoteBuf} (sgs : List Sg) (hdbs : ∀ db ∈ dbs, 0 < db.len) :
    needed dbs sgs ≤ (sgs.length+15) / 16+dbs.length := by
  have hparts := parts_le srptDefSgPerWqe (dbs.map RemoteBuf.len) (sgs.map Sg.dmaLen)
  rw [← segLens_segOf, ← schedule_length 0, schedule_length_eq_needed 0 sgs hdbs] at hparts
  simp only [segLens_segOf, List.length_map, srptDefSgPerWqe] at hparts
  omega

section
variable {lkey : ℕ} {es : List Entry} {ioctx : SendIoctx} {sgs : List Sg} {posted : List SendWr}
  {dir : DataDirection}

theorem Stores.covers (h : Stores ioctx es)
    (hposted : posted = (List.range es.length).map (ioctx.wr dir))
    (hused : es.length ≤ ioctx.nRdmaIus) (hsges : ∀ e ∈ es, e.sges.length ≤ srptDefSgPerWqe)
    (hbytes : es.flatMap Entry.bytes = (remoteBytes ioctx.rbufs).zip (localBytes lkey sgs)) :
    Covers lkey sgs ioctx posted := by
  have hwr : ∀ wr ∈ posted, ∃ e ∈ es, wr.sgList = e.sges.map some := by
    intro wr hwr
    rw [hposted] at hwr
    obtain ⟨i, hi, rfl⟩ := List.mem_map.mp hwr
    have hlt := List.mem_range.mp hi
    exact ⟨es[i], List.getElem_mem hlt, h.wr_sgList (List.getElem?_eq_getElem hlt)⟩
  constructor
  · intro i k hslot
    rw [h.slots, table] at hslot
    cases hi : es[i]? with
    | none =>
        rw [hi] at hslot
        exact absurd rfl hslot
    | some e =>
        rw [hi] at hslot
        refine ⟨e.iu, by simp [h.rdmaIus, hi], ?_⟩
        by_contra hk
        exact hslot (List.getElem?_eq_none (Nat.le_of_not_lt hk))
  · simpa [h.rdmaIus] using hused
  · intro wr hmem
    obtain ⟨e, _, hlist⟩ := hwr wr hmem
    simp [hlist]
  · intro wr hmem
    obtain ⟨e, he, hlist⟩ := hwr wr hmem
    rw [hlist, List.length_map]
    exact hsges e he
  · rw [hposted, h.posted_bytes (Nat.le_refl _), List.take_length, hbytes]

/-- With more than 255 entries the counter wraps, and the bytes at the end are not posted. -/
theorem Stores.few_of_covers (h : Stores ioctx es) (hends : es ≠ [] → EndsWithBytes es)
    (hposted : posted = (List.range (es.length % 2^8)).map (ioctx.wr dir))
    (hbytes : es.flatMap Entry.bytes = (remoteBytes ioctx.rbufs).zip (localBytes lkey sgs))
    (hcovers : Covers lkey sgs ioctx posted) : es.length ≤ 255 := by
  by_contra hmany
  have hne : es ≠ [] := by
    intro hnil
    rw [hnil] at hmany
    exact hmany (Nat.zero_le _)
  have hall := hcovers.bytes
  rw [hposted, h.posted_bytes (Nat.mod_le _ _), ← hbytes] at hall
  exact take_bytes_ne (hends hne) (by omega) hall

theorem mapped_stores (ioctx : SendIoctx) (count : ℕ) (es : List Entry) :
    Stores (ioctx.mapped count es) es := ⟨rfl, rfl, rfl⟩

end

/-- The transfer is covered if and only if there are at most 255 entries and the field for the
size of the array holds at least their number. -/
theorem transfer_covered_iff (fuel lkey : ℕ) (allocs : Allocs) (sgs : List Sg)
    (ioctx : SendIoctx) (hfresh : Fresh sgs ioctx) (hfuel : sgs.length < fuel) :
    ∃ result, srptMapSgToIbSge fuel lkey allocs sgs ioctx = some result ∧
      ∀ io dir sqWrAvail post posted, result = .ok io →
        srptPerformRdmas dir sqWrAvail post io = (0, posted) →
        (Covers lkey sgs io posted ↔
          needed ioctx.rbufs sgs ≤ 255 ∧
          needed ioctx.rbufs sgs ≤ ((sgs.length+15) / 16+ioctx.rbufs.length) % 2^16) := by
  by_cases hsgs : sgs = []
  · rw [hsgs]
    refine ⟨_, rfl, ?_⟩
    intro io dir sqWrAvail post posted hok
    cases hok
  have hdbs : ∀ db ∈ ioctx.rbufs, 0 < db.len := fun db h => (hfresh.rbufs db h).1
  have hbytes := schedule_bytes lkey ioctx.rbufs (sgs.map segOf)
  rw [segBytes_segOf] at hbytes
  have hends := schedule_endsWithBytes lkey ioctx.rbufs hdbs (sgs.map segOf)
  have hsges := schedule_sges lkey ioctx.rbufs (sgs.map segOf)
  refine ⟨_, srptMapSgToIbSge_schedule lkey allocs hfresh hsgs hfuel, ?_⟩
  intro io dir sqWrAvail post posted heq hpost
  rw [← schedule_length_eq_needed lkey sgs hdbs]
  generalize schedule lkey ioctx.rbufs (sgs.map segOf) = es at hbytes hends hsges heq ⊢
  have hio : io = ioctx.mapped sgs.length es := by
    split_ifs at heq
    · cases heq
      rfl
  have hstores := mapped_stores ioctx sgs.length es
  have hposted := srptPerformRdmas_ok hpost
  rw [hio] at hposted ⊢
  constructor
  · intro hcovers
    have hused := hcovers.used
    rw [hstores.rdmaIus, Option.getD_some, List.length_map] at hused
    exact ⟨hstores.few_of_covers hends hposted hbytes hcovers, hused⟩
  · rintro ⟨hfew, hused⟩
    rw [hstores.nRdma, Nat.mod_eq_of_lt (by omega)] at hposted
    exact hstores.covers hposted hused hsges hbytes

def noFailure : Allocs := ⟨true, fun _ => true⟩

/-- A segment of `len` bytes at the beginning of page `i`. -/
def onPage (i len : ℕ) : Sg := .of (i*0x1000) len

/-- Two descriptors and three segments, none of which end together. -/
def smallTransfer : SendIoctx := { rbufs := [⟨0x8000, 1, 5⟩, ⟨0x9000, 2, 6⟩], dataLength := 11 }

/-- Both descriptors are covered by one request each. -/
theorem transfer_covered_small :
    ∃ io posted,
      srptMapSgToIbSge 4 7 noFailure [onPage 1 4, onPage 2 4, onPage 3 3] smallTransfer =
        some (.ok io) ∧
      srptPerformRdmas .toDevice 64 (fun _ => 0) io = (0, posted) ∧ posted.length = 2 ∧
      Covers 7 [onPage 1 4, onPage 2 4, onPage 3 3] io posted := by
  have hmap : ∃ io posted,
      srptMapSgToIbSge 4 7 noFailure [onPage 1 4, onPage 2 4, onPage 3 3] smallTransfer =
        some (.ok io) ∧
      srptPerformRdmas .toDevice 64 (fun _ => 0) io = (0, posted) ∧ posted.length = 2 :=
    ⟨_, _, rfl, rfl, rfl⟩
  obtain ⟨io, posted, hok, hposted, hlen⟩ := hmap
  obtain ⟨result, hresult, hcovers⟩ := transfer_covered_iff 4 7 noFailure
    [onPage 1 4, onPage 2 4, onPage 3 3] smallTransfer
    ⟨rfl, rfl, by decide, by decide, by decide⟩ (by decide)
  rw [hok] at hresult
  cases hresult
  exact ⟨io, posted, hok, hposted, hlen,
    (hcovers io .toDevice 64 (fun _ => 0) posted rfl hposted).mpr (by decide)⟩

/-- 255 descriptors, the first of which goes over 17 segments. -/
def manyDescriptors : SendIoctx where
  rbufs := ⟨0x8000, 1, 17⟩::(List.range 254).map fun i => ⟨0x10000+i, 1, 1⟩
  dataLength := 271

def manySegments : List Sg := (List.range 16).map (onPage · 1)++[onPage 16 255]

/-- There are 256 entries, and none of them is posted. -/
theorem transfer_not_posted :
    ∃ io, srptMapSgToIbSge 18 7 noFailure manySegments manyDescriptors = some (.ok io) ∧
      needed manyDescriptors.rbufs manySegments = 256 ∧ io.nRdma = 0 ∧
      srptPerformRdmas .toDevice 64 (fun _ => 0) io = (0, []) ∧
      ¬ Covers 7 manySegments io [] := by
  have hfresh : Fresh manySegments manyDescriptors :=
    ⟨rfl, rfl, by decide +kernel, by decide +kernel, by decide⟩
  have hneeded : needed manyDescriptors.rbufs manySegments = 256 := by decide +kernel
  have hlen := schedule_length_eq_needed 7 manySegments fun db h => (hfresh.rbufs db h).1
  have hmap := srptMapSgToIbSge_schedule 7 noFailure hfresh (by decide +kernel)
    (show manySegments.length < 18 by decide +kernel)
  rw [if_pos ⟨rfl, fun _ _ => rfl⟩] at hmap
  have hnRdma : (manyDescriptors.mapped manySegments.length
      (schedule 7 manyDescriptors.rbufs (manySegments.map segOf))).nRdma = 0 :=
    congrArg (· % 2^8) (hlen.trans hneeded)
  refine ⟨_, hmap, hneeded, hnRdma, ?_, ?_⟩
  · rw [srptPerformRdmas, hnRdma]
    rfl
  · intro hcovers
    have hlength := congrArg List.length hcovers.bytes
    revert hlength
    decide +kernel

end IbSrp.TargetRdma

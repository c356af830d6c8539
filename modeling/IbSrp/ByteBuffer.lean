import Mathlib.Data.List.Induction
import Mathlib.Tactic.Ring

/-!
# Bytes in memory

A buffer is a function from offsets to bytes, so a write beyond its length is a
write as any other. `store` puts a list of bytes at an offset and `load` reads
some back: at the same offset these are the bytes stored, and elsewhere the store
makes no difference. Numbers are stored with the most significant byte first. A
table is a sequence of records of equal size; `parse` reads it back.

Bytes can also be copied one by one from one memory to another, as a device does it.
If no address is written twice the result does not depend on the order.
-/
namespace IbSrp.ByteBuffer

abbrev Byte := BitVec 8

abbrev Buffer := ℕ → Byte

def store (m : Buffer) (off : ℕ) (bytes : List Byte) : Buffer := fun i =>
  if off ≤ i ∧ i < off+bytes.length then bytes.getD (i-off) 0 else m i

def load (m : Buffer) (off n : ℕ) : List Byte := (List.range n).map fun i => m (off+i)

/-- The last `n` bytes of a number. -/
def bigEndian : ℕ → ℕ → List Byte
  | 0, _ => []
  | n+1, v => bigEndian n (v / 256)++[BitVec.ofNat 8 v]

def value (bytes : List Byte) : ℕ := bytes.foldl (fun v b => v*256+b.toNat) 0

/-- The number in the `n` bytes at an offset. -/
def loadBe (n : ℕ) (m : Buffer) (off : ℕ) : ℕ := value (load m off n)

section
variable (m : Buffer) (off : ℕ)

@[simp] theorem load_length (n : ℕ) : (load m off n).length = n := by simp [load]

theorem load_store {bytes : List Byte} {n : ℕ} (hn : n ≤ bytes.length) :
    load (store m off bytes) off n = bytes.take n := by
  apply List.ext_getElem
  · simp [hn]
  · intro i hi hi'
    rw [load_length] at hi
    simp [load, store, List.getD_eq_getElem?_getD, hi.trans_le hn]

theorem load_add (n k : ℕ) : load m off (n+k) = load m off n++load m (off+n) k := by
  unfold load
  rw [List.range_add, List.map_append, List.map_map]
  simp [Function.comp_def, Nat.add_assoc]

theorem load_store_of_disjoint {bytes : List Byte} {off' n : ℕ}
    (h : off'+n ≤ off ∨ off+bytes.length ≤ off') :
    load (store m off bytes) off' n = load m off' n := by
  unfold load
  apply List.map_congr_left
  intro i hi
  rw [List.mem_range] at hi
  unfold store
  rw [if_neg (by omega)]

theorem store_of_disjoint {bytes : List Byte} {i : ℕ} (h : i < off ∨ off+bytes.length ≤ i) :
    store m off bytes i = m i := by
  unfold store
  rw [if_neg (by omega)]

theorem store_comm {bytes bytes' : List Byte} {off' : ℕ}
    (h : off+bytes.length ≤ off' ∨ off'+bytes'.length ≤ off) :
    store (store m off bytes) off' bytes' = store (store m off' bytes') off bytes := by
  funext i
  unfold store
  split_ifs with hi hi'
  · omega
  · rfl
  · rfl
  · rfl

theorem store_head (b : Byte) : store m off [b] off = b := by simp [store]

end

@[simp] theorem bigEndian_length (n v : ℕ) : (bigEndian n v).length = n := by
  induction n generalizing v with
  | zero => rfl
  | succ n ih => simp [bigEndian, ih]

theorem value_append (bytes : List Byte) (b : Byte) :
    value (bytes++[b]) = value bytes*256+b.toNat := by
  simp [value]

theorem foldl_value (v : ℕ) (bytes : List Byte) :
    bytes.foldl (fun v b => v*256+b.toNat) v = v*256^bytes.length+value bytes := by
  induction bytes using List.reverseRecOn with
  | nil => simp [value]
  | append_singleton bytes b ih =>
      rw [List.foldl_append, ih, value_append, List.length_append, List.length_singleton,
        Nat.pow_succ]
      simp only [List.foldl_cons, List.foldl_nil]
      ring

theorem value_bigEndian (n v : ℕ) : value (bigEndian n v) = v % 256^n := by
  induction n generalizing v with
  | zero =>
      rw [pow_zero, Nat.mod_one]
      rfl
  | succ n ih =>
      calc value (bigEndian (n+1) v)
          = v / 256 % 256^n*256+v % 256 := by
            rw [bigEndian, value_append, ih]
            rfl
        _ = v % (256*256^n) := by
            rw [Nat.mod_mul]
            ring
        _ = v % 256^(n+1) := by rw [pow_succ, Nat.mul_comm]

theorem bigEndian_value (bytes : List Byte) : bigEndian bytes.length (value bytes) = bytes := by
  induction bytes using List.reverseRecOn with
  | nil => rfl
  | append_singleton bytes b ih =>
      have hb := b.isLt
      have hdiv : (value bytes*256+b.toNat) / 256 = value bytes := by omega
      have hlast : BitVec.ofNat 8 (value bytes*256+b.toNat) = b := by
        apply BitVec.eq_of_toNat_eq
        rw [BitVec.toNat_ofNat]
        omega
      rw [List.length_append, List.length_singleton, bigEndian, value_append, hdiv, hlast, ih]

theorem value_lt (bytes : List Byte) : value bytes < 256^bytes.length := by
  have h := value_bigEndian bytes.length (value bytes)
  rw [bigEndian_value] at h
  rw [h]
  exact Nat.mod_lt _ (Nat.pow_pos (by decide))

theorem loadBe_store_bigEndian (m : Buffer) (off n v : ℕ) :
    loadBe n (store m off (bigEndian n v)) off = v % 256^n := by
  have hlen := bigEndian_length n v
  rw [loadBe, load_store _ _ hlen.ge, List.take_of_length_le hlen.le, value_bigEndian]

section
variable {α : Type} (size : ℕ) (decode : List Byte → α)

def parse : ℕ → List Byte → List α
  | 0, _ => []
  | n+1, bytes => decode (bytes.take size)::parse n (bytes.drop size)

theorem parse_flatMap {encode : α → List Byte} (records : List α)
    (hlength : ∀ r ∈ records, (encode r).length = size)
    (hdecode : ∀ r ∈ records, decode (encode r) = r) :
    parse size decode records.length (records.flatMap encode) = records := by
  induction records with
  | nil => rfl
  | cons r records ih =>
      have hsize := hlength r List.mem_cons_self
      rw [List.flatMap_cons, List.length_cons, parse, List.take_left' hsize,
        List.drop_left' hsize, hdecode r List.mem_cons_self,
        ih (fun r' h => hlength r' (List.mem_cons_of_mem r h))
          (fun r' h => hdecode r' (List.mem_cons_of_mem r h))]

theorem length_flatMap_of_size {encode : α → List Byte} {records : List α}
    (hlength : ∀ r ∈ records, (encode r).length = size) :
    (records.flatMap encode).length = records.length*size := by
  induction records with
  | nil => simp
  | cons r records ih =>
      rw [List.flatMap_cons, List.length_append, hlength r List.mem_cons_self,
        ih fun r' h => hlength r' (List.mem_cons_of_mem r h), List.length_cons]
      ring

end

section
variable {α β V : Type} [DecidableEq α] (src : β → V)

/-- What is at the addresses `α` after the values at the addresses `β` have been copied. -/
def copied : List (α × β) → (α → V) → α → V
  | [], dst => dst
  | p::ps, dst => copied ps (Function.update dst p.1 (src p.2))

theorem copied_of_notMem (ps : List (α × β)) : ∀ (dst : α → V) {a : α}, a ∉ ps.map Prod.fst →
    copied src ps dst a = dst a := by
  induction ps with
  | nil => exact fun _ _ _ => rfl
  | cons p ps ih =>
      intro dst a ha
      rw [List.map_cons, List.mem_cons, not_or] at ha
      rw [copied, ih _ ha.2, Function.update_of_ne ha.1]

theorem copied_of_mem (ps : List (α × β)) : ∀ (dst : α → V) {p : α × β},
    (ps.map Prod.fst).Nodup → p ∈ ps → copied src ps dst p.1 = src p.2 := by
  induction ps with
  | nil =>
      intro dst p _ hp
      cases hp
  | cons q ps ih =>
      intro dst p hnodup hp
      rw [List.map_cons, List.nodup_cons] at hnodup
      rw [copied]
      cases List.mem_cons.mp hp with
      | inl heq => rw [heq, copied_of_notMem src ps _ hnodup.1, Function.update_self]
      | inr hrest => exact ih _ hnodup.2 hrest

variable {ps : List (α × β)} {xs : List α} {ys : List β} (dst : α → V)

/-- The values arrive in whatever order they are copied. -/
theorem map_copied (hperm : ps.Perm (xs.zip ys)) (hlength : xs.length = ys.length)
    (hnodup : xs.Nodup) : xs.map (copied src ps dst) = ys.map src := by
  have hfst : (ps.map Prod.fst).Perm xs := by
    have := hperm.map Prod.fst
    rwa [List.map_fst_zip (Nat.le_of_eq hlength)] at this
  apply List.ext_getElem
  · simpa using hlength
  · intro i hi hi'
    rw [List.length_map] at hi hi'
    rw [List.getElem_map, List.getElem_map]
    have hmem : (xs[i], ys[i]) ∈ xs.zip ys := by
      rw [← List.getElem_zip (h := by rw [List.length_zip]; omega)]
      exact List.getElem_mem _
    exact copied_of_mem src ps dst (hfst.nodup_iff.mpr hnodup) (hperm.mem_iff.mpr hmem)

/-- Nothing else is written. -/
theorem copied_elsewhere (hperm : ps.Perm (xs.zip ys)) {a : α} (ha : a ∉ xs) :
    copied src ps dst a = dst a := by
  apply copied_of_notMem
  intro hmem
  have hzip := (hperm.map Prod.fst).mem_iff.mp hmem
  cases List.mem_map.mp hzip with
  | intro p hp => exact ha (hp.2 ▸ (List.of_mem_zip (a := p.1) (b := p.2) hp.1).1)

end

end IbSrp.ByteBuffer

import Mathlib.Data.List.Basic
import Mathlib.Data.Nat.Bitwise
import Mathlib.Tactic.Ring
import Mathlib.Tactic.Linarith

/-!
# Byte ranges and page-list translation

An address space of `M` bytes wraps around at `M`. A contiguous range is the
list of its addresses in order. A page list names its bytes through pages of
`ps` bytes: byte `i` of a region whose first byte lies `fbo` bytes into its
first page is byte `(fbo+i) % ps` of page number `(fbo+i) / ps`.

The lemmas say how both kinds of range grow: a contiguous range splits at any
point, and a page list whose last page is full grows by one page. Nothing here
refers to a particular device or driver.
-/
namespace IbSrp.PagedBytes

/-- The `len` addresses from `a` on, in order, in an address space of `M` bytes. -/
def contiguous (M a len : ℕ) : List ℕ := (List.range len).map fun i => (a+i) % M

/-- The `len` addresses that a page list gives from offset `fbo` of its first page on. -/
def paged (ps : ℕ) (pages : List ℕ) (fbo len : ℕ) : List ℕ :=
  (List.range len).map fun i => pages.getD ((fbo+i) / ps) 0 + (fbo+i) % ps

@[simp] theorem contiguous_length (M a len : ℕ) : (contiguous M a len).length = len := by
  simp [contiguous]

@[simp] theorem contiguous_zero (M a : ℕ) : contiguous M a 0 = [] := rfl

@[simp] theorem paged_length (ps : ℕ) (pages : List ℕ) (fbo len : ℕ) :
    (paged ps pages fbo len).length = len := by
  simp [paged]

@[simp] theorem paged_zero (ps : ℕ) (pages : List ℕ) (fbo : ℕ) : paged ps pages fbo 0 = [] := rfl

theorem contiguous_mod (M a len : ℕ) : contiguous M (a % M) len = contiguous M a len := by
  simp [contiguous]

/-- A contiguous range splits at any of its bytes. -/
theorem contiguous_add (M a m n : ℕ) :
    contiguous M a (m+n) = contiguous M a m ++ contiguous M (a+m) n := by
  simp only [contiguous, List.range_add, List.map_append, List.map_map]
  congr 1
  apply List.map_congr_left
  intro i _
  simp [Nat.add_assoc]

/-- A range that stays inside one page is the same range through that page. -/
theorem paged_singleton {M ps p fbo len : ℕ} (hfit : fbo+len ≤ ps) (hpage : p+ps ≤ M) :
    paged ps [p] fbo len = contiguous M (p+fbo) len := by
  apply List.map_congr_left
  intro i hi
  have hlt : i < len := List.mem_range.mp hi
  have hoff : fbo+i < ps := by omega
  have hmod : (p+fbo+i) % M = p+fbo+i := Nat.mod_eq_of_lt (by omega)
  rw [Nat.div_eq_of_lt hoff, Nat.mod_eq_of_lt hoff, hmod]
  simp [Nat.add_assoc]

/-- A page list whose pages are used up to their end grows by one more page:
the bytes it named stay, and the new bytes are the first ones of the page. -/
theorem paged_append_page {M ps p fbo len l : ℕ} {pages : List ℕ} (hps : 0 < ps)
    (hfull : fbo+len = pages.length*ps) (hl : l ≤ ps) (hpage : p+ps ≤ M) :
    paged ps (pages++[p]) fbo (len+l) = paged ps pages fbo len ++ contiguous M p l := by
  simp only [paged, contiguous, List.range_add, List.map_append, List.map_map]
  congr 1
  · apply List.map_congr_left
    intro i hi
    have hlt : i < len := List.mem_range.mp hi
    have hdiv : (fbo+i) / ps < pages.length := by
      rw [Nat.div_lt_iff_lt_mul hps]
      omega
    rw [List.getD_append _ _ _ _ hdiv]
  · apply List.map_congr_left
    intro i hi
    have hlt : i < l := List.mem_range.mp hi
    have hoff : fbo+(len+i) = i+pages.length*ps := by omega
    have hi' : i < ps := by omega
    have hmod : (p+i) % M = p+i := Nat.mod_eq_of_lt (by omega)
    simp only [Function.comp_apply, hoff, Nat.add_mul_div_right _ _ hps,
      Nat.div_eq_of_lt hi', Nat.add_mul_mod_self_right, Nat.mod_eq_of_lt hi', hmod]
    simp

/-- Clearing the low bits of a 64-bit word rounds it down to a page boundary. -/
theorem and_high_mask {a k : ℕ} (ha : a < 2^64) (hk : k ≤ 64) :
    a &&& (2^64-2^k) = a - a % 2^k := by
  have hmask : 2^64-2^k = 2^k*(2^(64-k)-1) := by
    rw [Nat.mul_sub, ← pow_add, Nat.add_sub_cancel' hk, mul_one]
  have hround : a - a % 2^k = 2^k*(a / 2^k) := by
    have := Nat.div_add_mod a (2^k)
    omega
  apply Nat.eq_of_testBit_eq
  intro i
  rw [hmask, hround, Nat.testBit_and, Nat.testBit_two_pow_mul, Nat.testBit_two_pow_mul,
    Nat.testBit_two_pow_sub_one]
  by_cases hi : k ≤ i
  · simp only [hi, decide_true, Bool.true_and, Nat.testBit_div_two_pow]
    rw [Nat.sub_add_cancel hi]
    by_cases hb : i-k < 64-k
    · simp [hb]
    · have hz : a.testBit i = false :=
        Nat.testBit_lt_two_pow (lt_of_lt_of_le ha (Nat.pow_le_pow_right (by norm_num) (by omega)))
      simp [hz]
  · simp [hi]

/-- The low bits of a word are its offset into the page. -/
theorem and_low_mask (a k : ℕ) (hk : k ≤ 64) :
    a &&& (2^64-1-(2^64-2^k)) = a % 2^k := by
  have hle : 2^k ≤ 2^64 := Nat.pow_le_pow_right (by norm_num) hk
  have hpos : 0 < 2^k := by positivity
  have hmask : 2^64-1-(2^64-2^k) = 2^k-1 := by omega
  rw [hmask, Nat.and_two_pow_sub_one_eq_mod]

end IbSrp.PagedBytes

import Mathlib.Algebra.Order.Ring.Int
import Mathlib.Tactic.Linarith

/-!
# Sums and products of machine integers with a note of overflow

An expression of C is evaluated in fixed-width integers. Here a result carries,
next to the value that the machine computes, whether any operation on the way had
an exact result outside its type. A value whose note is clear is the exact one, and
a sum or a product of exact values has a clear note just when it fits.
-/
namespace IbSrp.CheckedArithmetic

/-- The value of a computation and whether it has wrapped around. -/
structure Checked where
  value : ℤ
  wrapped : Bool := false
deriving DecidableEq, Repr

def FitsSigned (w : ℕ) (x : ℤ) : Prop := -2^w ≤ x ∧ x < 2^w

def FitsUnsigned (w : ℕ) (x : ℤ) : Prop := 0 ≤ x ∧ x < 2^w

/-- The value of a signed type with `w+1` bits that is congruent to `x`. -/
def toSigned (w : ℕ) (x : ℤ) : ℤ := x.bmod (2^(w+1))

/-- The value of an unsigned type with `w` bits that is congruent to `x`. -/
def toUnsigned (w : ℕ) (x : ℤ) : ℤ := x % 2^w

theorem toSigned_fits (w : ℕ) (x : ℤ) : FitsSigned w (toSigned w x) := by
  have hpos : 0 < 2^(w+1) := Nat.two_pow_pos _
  have hlow := Int.le_bmod (x := x) hpos
  have hhigh := Int.bmod_lt (x := x) hpos
  have htwo : (((2^(w+1) : ℕ)) : ℤ) = 2*2^w := by
    rw [Nat.cast_pow, pow_succ]
    exact mul_comm _ _
  rw [htwo] at hlow hhigh
  unfold FitsSigned toSigned
  constructor <;> omega

theorem toSigned_eq_iff {w : ℕ} {x : ℤ} : toSigned w x = x ↔ FitsSigned w x := by
  constructor
  · intro h
    rw [← h]
    exact toSigned_fits w x
  · intro h
    have htwo : (((2^(w+1) : ℕ)) : ℤ) = 2*2^w := by
      rw [Nat.cast_pow, pow_succ]
      exact mul_comm _ _
    apply Int.bmod_eq_of_le
    · rw [htwo]
      have := h.1
      omega
    · rw [htwo]
      have := h.2
      omega

theorem toUnsigned_eq_iff {w : ℕ} {x : ℤ} : toUnsigned w x = x ↔ FitsUnsigned w x := by
  have hpos : (0 : ℤ) < 2^w := by positivity
  constructor
  · intro h
    rw [← h]
    exact ⟨Int.emod_nonneg _ hpos.ne', Int.emod_lt_of_pos _ hpos⟩
  · intro h
    exact Int.emod_eq_of_lt h.1 h.2

def addSigned (w : ℕ) (a : Checked) (b : ℤ) : Checked :=
  { value := toSigned w (a.value+b),
    wrapped := a.wrapped || decide (toSigned w (a.value+b) ≠ a.value+b) }

def mulSigned (w : ℕ) (a b : Checked) : Checked :=
  { value := toSigned w (a.value*b.value),
    wrapped := a.wrapped || b.wrapped ||
      decide (toSigned w (a.value*b.value) ≠ a.value*b.value) }

def mulUnsigned (w : ℕ) (a : Checked) (b : ℤ) : Checked :=
  { value := toUnsigned w (a.value*b),
    wrapped := a.wrapped || decide (toUnsigned w (a.value*b) ≠ a.value*b) }

/-- The conversion of a result to an unsigned type with `w` bits. -/
def Checked.toUnsigned (w : ℕ) (a : Checked) : Checked :=
  { a with value := CheckedArithmetic.toUnsigned w a.value }

theorem addSigned_exact_iff {w : ℕ} {x b : ℤ} :
    addSigned w ⟨x, false⟩ b = ⟨x+b, false⟩ ↔ FitsSigned w (x+b) := by
  rw [← toSigned_eq_iff]
  simp [addSigned]

theorem mulSigned_exact_iff {w : ℕ} {x y : ℤ} :
    mulSigned w ⟨x, false⟩ ⟨y, false⟩ = ⟨x*y, false⟩ ↔ FitsSigned w (x*y) := by
  rw [← toSigned_eq_iff]
  simp [mulSigned]

theorem mulUnsigned_exact_iff {w : ℕ} {x b : ℤ} :
    mulUnsigned w ⟨x, false⟩ b = ⟨x*b, false⟩ ↔ FitsUnsigned w (x*b) := by
  rw [← toUnsigned_eq_iff]
  simp [mulUnsigned]

/-- A result with a clear note is exact, and so are its terms. -/
theorem addSigned_eq {w : ℕ} {a : Checked} {b : ℤ} (h : (addSigned w a b).wrapped = false) :
    a.wrapped = false ∧ addSigned w a b = ⟨a.value+b, false⟩ := by
  simp only [addSigned, Bool.or_eq_false_iff, decide_eq_false_iff_not, not_not] at h
  simp [addSigned, h]

theorem mulSigned_eq {w : ℕ} {a b : Checked} (h : (mulSigned w a b).wrapped = false) :
    a.wrapped = false ∧ b.wrapped = false ∧ mulSigned w a b = ⟨a.value*b.value, false⟩ := by
  simp only [mulSigned, Bool.or_eq_false_iff, decide_eq_false_iff_not, not_not] at h
  simp [mulSigned, h]

end IbSrp.CheckedArithmetic

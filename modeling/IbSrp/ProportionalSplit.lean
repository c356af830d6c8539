import Mathlib.Data.Nat.Basic

/-!
# Splitting a range in proportion

`c` items are split over `n` parts by giving part `i` the items from `i*c/n` up to
`(i+1)*c/n`. The parts follow one another without gaps and end at the last item, and no
part is empty if there are at least as many items as parts.
-/
namespace IbSrp.ProportionalSplit

/-- The first item of part `i`. -/
def start (n c i : ℕ) : ℕ := i*c/n

/-- The number of items of part `i`. -/
def size (n c i : ℕ) : ℕ := start n c (i+1)-start n c i

section
variable {n c i j x : ℕ}

@[simp] theorem start_zero : start n c 0 = 0 := by simp [start]

theorem start_last (hn : 0 < n) : start n c n = c := Nat.mul_div_cancel_left c hn

theorem start_le_start (h : i ≤ j) : start n c i ≤ start n c j :=
  Nat.div_le_div_right (Nat.mul_le_mul_right c h)

theorem start_add_size : start n c i+size n c i = start n c (i+1) :=
  Nat.add_sub_cancel' (start_le_start (Nat.le_succ i))

theorem size_pos (hn : 0 < n) (hc : n ≤ c) : 0 < size n c i := by
  have hstep : start n c i+1 ≤ start n c (i+1) :=
    calc i*c/n+1 = (i*c+n)/n := (Nat.add_div_right _ hn).symm
      _ ≤ (i+1)*c/n := Nat.div_le_div_right (by rw [Nat.succ_mul]; omega)
  have hsum : start n c i+size n c i = start n c (i+1) := start_add_size
  omega

theorem start_succ_le (hn : 0 < n) (hi : i < n) : start n c (i+1) ≤ c := by
  have hle : start n c (i+1) ≤ start n c n := start_le_start hi
  rwa [start_last hn] at hle

/-- Every item belongs to a part. -/
theorem exists_part (hn : 0 < n) (hx : x < c) :
    ∃ i < n, start n c i ≤ x ∧ x < start n c (i+1) := by
  have hsplit : ∀ m, x < start n c m → ∃ i < m, start n c i ≤ x ∧ x < start n c (i+1) := by
    intro m
    induction m with
    | zero =>
        intro h
        rw [start_zero] at h
        omega
    | succ m ih =>
        intro h
        rcases Nat.lt_or_ge x (start n c m) with hm | hm
        · obtain ⟨i, hi, hpart⟩ := ih hm
          exact ⟨i, Nat.lt_succ_of_lt hi, hpart⟩
        · exact ⟨m, Nat.lt_succ_self m, hm, h⟩
  exact hsplit n (by rwa [start_last hn])

/-- No item belongs to two parts. -/
theorem part_unique (hi : start n c i ≤ x ∧ x < start n c (i+1))
    (hj : start n c j ≤ x ∧ x < start n c (j+1)) : i = j := by
  rcases Nat.lt_trichotomy i j with h | h | h
  · have hle : start n c (i+1) ≤ start n c j := start_le_start h
    omega
  · exact h
  · have hle : start n c (j+1) ≤ start n c i := start_le_start h
    omega

end

end IbSrp.ProportionalSplit

import Mathlib.Algebra.BigOperators.Group.List.Basic
import Mathlib.Tactic.Linarith

/-!
# Two ways of dividing a range of bytes

The same range is divided twice: into segments and into windows, both given by their
lengths in order. A reader goes through the windows one after the other and takes from the
segments as many bytes as the window has, until there are no bytes left. An empty segment
is passed in the window that is being read; empty segments behind the last byte are not
reached.

In each window the segments that end before the window does are counted, and one more part
is needed whenever `n` of them have been passed. The number of parts can be computed along
the way, from what is left of the segments, or from the positions at which segments and
windows begin and end. The two agree, and the parts exceed the windows by no more than the
number of segments divided by `n`.
-/
namespace IbSrp.SegmentWindows

/-- What is left of the segments after their first `r` bytes. -/
def cutOff : ℕ → List ℕ → List ℕ
  | _, [] => []
  | r, s::ss =>
      if s ≤ r then
        if ss.sum = 0 then [] else if r = s then ss else cutOff (r-s) ss
      else (s-r)::ss

/-- The number of segments that end before byte `r`. -/
def endsBefore : ℕ → List ℕ → ℕ
  | _, [] => 0
  | r, s::ss => (if s < r ∧ 0 < s+ss.sum then 1 else 0)+endsBefore (r-s) ss

/-- The number of segments that end in the window from `lo` to `hi`; the first segment begins
at `off`. -/
def endsWithin (lo hi : ℕ) : ℕ → List ℕ → ℕ
  | _, [] => 0
  | off, s::ss =>
      (if lo < off+max s 1 ∧ off+s < hi ∧ 0 < s+ss.sum then 1 else 0)+endsWithin lo hi (off+s) ss

/-- The number of parts, counted along the way. -/
def parts (n : ℕ) : List ℕ → List ℕ → ℕ
  | [], _ => 0
  | r::rs, ss => if ss.sum = 0 then 0 else 1+endsBefore r ss / n+parts n rs (cutOff r ss)

/-- The number of parts by position; the first window begins at `off`. -/
def partsAt (n : ℕ) (ss : List ℕ) : ℕ → List ℕ → ℕ
  | _, [] => 0
  | off, r::rs =>
      (if off < ss.sum then 1+endsWithin off (off+r) 0 ss / n else 0)+partsAt n ss (off+r) rs

theorem cutOff_sum (ss : List ℕ) : ∀ r, (cutOff r ss).sum = ss.sum-r := by
  induction ss with
  | nil => simp [cutOff]
  | cons s ss ih =>
      intro r
      simp only [cutOff, List.sum_cons]
      split_ifs with hs hrest heq
      · simp only [List.sum_nil]
        omega
      · omega
      · rw [ih]
        omega
      · simp only [List.sum_cons]
        omega

theorem endsBefore_zero (ss : List ℕ) : endsBefore 0 ss = 0 := by
  induction ss with
  | nil => rfl
  | cons s ss ih => simp [endsBefore, ih]

theorem endsBefore_of_sum (ss : List ℕ) (h : ss.sum = 0) : ∀ r, endsBefore r ss = 0 := by
  induction ss with
  | nil => exact fun _ => rfl
  | cons s ss ih =>
      intro r
      rw [List.sum_cons] at h
      simp only [endsBefore]
      rw [ih (by omega), if_neg (by omega)]

theorem endsWithin_of_sum (lo hi : ℕ) (ss : List ℕ) (h : ss.sum = 0) :
    ∀ off, endsWithin lo hi off ss = 0 := by
  induction ss with
  | nil => exact fun _ => rfl
  | cons s ss ih =>
      intro off
      rw [List.sum_cons] at h
      simp only [endsWithin]
      rw [ih (by omega), if_neg (by omega)]

theorem endsWithin_of_le {lo : ℕ} (hi : ℕ) (ss : List ℕ) : ∀ off, lo ≤ off →
    endsWithin lo hi off ss = endsBefore (hi-off) ss := by
  induction ss with
  | nil => exact fun _ _ => rfl
  | cons s ss ih =>
      intro off hlo
      have hbegun : lo < off+max s 1 := by omega
      have hend : off+s < hi ↔ s < hi-off := by omega
      simp only [endsWithin, endsBefore, hbegun, hend, true_and]
      rw [ih (off+s) (by omega), Nat.sub_add_eq]

/-- A window further on sees what is left. -/
theorem endsWithin_cutOff {lo : ℕ} (hi : ℕ) (ss : List ℕ) : ∀ off r, 0 < r → off+r ≤ lo →
    endsWithin lo hi off ss = endsWithin lo hi (off+r) (cutOff r ss) := by
  induction ss with
  | nil => exact fun _ _ _ _ => rfl
  | cons s ss ih =>
      intro off r hr hlo
      simp only [cutOff]
      split_ifs with hs hrest heq
      · have hpassed : ¬ (lo < off+max s 1 ∧ off+s < hi ∧ 0 < s+ss.sum) := by omega
        simp only [endsWithin, if_neg hpassed, endsWithin_of_sum lo hi ss hrest]
      · rw [endsWithin, if_neg (by omega), heq, Nat.zero_add]
      · rw [endsWithin, if_neg (by omega), ih (off+s) (r-s) (by omega) (by omega), Nat.zero_add]
        congr 1
        omega
      · have hfirst : off+r+max (s-r) 1 = off+max s 1 := by omega
        have hend : off+r+(s-r) = off+s := by omega
        have hsum : 0 < s-r+ss.sum ↔ 0 < s+ss.sum := by omega
        simp only [endsWithin, hfirst, hend, hsum]

theorem parts_of_sum (n : ℕ) (rs : List ℕ) {ss : List ℕ} (h : ss.sum = 0) :
    parts n rs ss = 0 := by
  cases rs with
  | nil => rfl
  | cons r rs => rw [parts, if_pos h]

theorem parts_eq_partsAt (n : ℕ) {ss : List ℕ} (rs : List ℕ) (hrs : ∀ r ∈ rs, 0 < r) :
    ∀ (off : ℕ) (left : List ℕ), left.sum = ss.sum-off →
      (∀ lo hi, off ≤ lo → endsWithin lo hi 0 ss = endsWithin lo hi off left) →
      parts n rs left = partsAt n ss off rs := by
  induction rs with
  | nil => exact fun _ _ _ _ => rfl
  | cons r rs ih =>
      intro off left hsum hends
      have hr := hrs r List.mem_cons_self
      have hlater := ih (fun k hk => hrs k (List.mem_cons_of_mem r hk))
      have hnext := hlater (off+r) (cutOff r left) (by rw [cutOff_sum]; omega) fun lo hi hlo => by
        rw [hends lo hi (by omega), endsWithin_cutOff hi left off r hr hlo]
      simp only [parts, partsAt]
      by_cases hdone : left.sum = 0
      · have hleft : (cutOff r left).sum = 0 := by rw [cutOff_sum, hdone, Nat.zero_sub]
        rw [parts_of_sum n rs hleft] at hnext
        rw [if_pos hdone, if_neg (by omega), ← hnext]
      · have hoff : off < ss.sum := by omega
        rw [if_neg hdone, if_pos hoff, hends off (off+r) (Nat.le_refl off),
          endsWithin_of_le (off+r) left off (Nat.le_refl off), Nat.add_sub_cancel_left, hnext]

/-- The segments that have been passed are not left. -/
theorem endsBefore_add_length_le (ss : List ℕ) : ∀ r,
    endsBefore r ss+(cutOff r ss).length ≤ ss.length := by
  induction ss with
  | nil => simp [endsBefore, cutOff]
  | cons s ss ih =>
      intro r
      have hrest := ih (r-s)
      simp only [endsBefore, cutOff, List.length_cons]
      split_ifs with hpassed hs hsum heq hs hsum heq
      · rw [endsBefore_of_sum ss hsum]
        simp
      · omega
      · omega
      · omega
      · rw [endsBefore_of_sum ss hsum]
        simp
      · rw [heq, Nat.sub_self, endsBefore_zero]
        omega
      · omega
      · rw [Nat.sub_eq_zero_of_le (by omega), endsBefore_zero]
        simp

theorem parts_le (n : ℕ) (rs : List ℕ) : ∀ ss : List ℕ,
    parts n rs ss ≤ rs.length+ss.length / n := by
  induction rs with
  | nil => simp [parts]
  | cons r rs ih =>
      intro ss
      have hrest := ih (cutOff r ss)
      have hlen := Nat.div_le_div_right (c := n) (endsBefore_add_length_le ss r)
      have hsplit : endsBefore r ss / n+(cutOff r ss).length / n ≤
          (endsBefore r ss+(cutOff r ss).length) / n := Nat.div_add_div_le_add_div
      simp only [parts, List.length_cons]
      split_ifs
      · exact Nat.zero_le _
      · omega

end IbSrp.SegmentWindows

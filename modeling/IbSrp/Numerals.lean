import Mathlib.Data.List.Induction
import Mathlib.Data.Nat.Digits.Lemmas
import Mathlib.Tactic.Ring

/-!
# Numerals in a text

The digits of a base up to sixteen, in either case, and the number that a list of digits
stands for. A machine reads such a list with one multiplication and one addition for each
digit, in words of a fixed width: what it gets is the number modulo a power of two.

Whether the number fits in a given number of digits can be seen from the text, by counting
the digits after the leading zeros. In the other direction a number is written with a fixed
number of digits.
-/
namespace IbSrp.Numerals

def digitVal (c : Char) : Option ℕ :=
  if '0' ≤ c ∧ c ≤ '9' then some (c.toNat-48)
  else if 'a' ≤ c ∧ c ≤ 'f' then some (c.toNat-87)
  else if 'A' ≤ c ∧ c ≤ 'F' then some (c.toNat-55)
  else none

def digit (c : Char) : ℕ := (digitVal c).getD 0

def isDigit (base : ℕ) (c : Char) : Bool := (digitVal c).any (· < base)

def value (base : ℕ) (cs : List Char) : ℕ := cs.foldl (fun v c => v*base+digit c) 0

/-- The same in words of `w` bits. -/
def word (w base : ℕ) (cs : List Char) : BitVec w :=
  cs.foldl (fun v c => v*BitVec.ofNat w base+BitVec.ofNat w (digit c)) 0

/-- The number in a text that consists of digits and has at least one. -/
def number (base : ℕ) (cs : List Char) : Option ℕ :=
  if cs ≠ [] ∧ cs.all (isDigit base) = true then some (value base cs) else none

def digitChar (n : ℕ) : Char := Char.ofNat (if n < 10 then 48+n else 87+n)

/-- The last `w` digits of a number. -/
def numeral (base : ℕ) : ℕ → ℕ → List Char
  | 0, _ => []
  | w+1, v => numeral base w (v / base)++[digitChar (v % base)]

/-- The digits after the leading zeros. -/
def significant (cs : List Char) : List Char := cs.dropWhile (· = '0')

section
variable {base : ℕ} {c : Char} {cs : List Char}

theorem digit_lt (h : isDigit base c = true) : digit c < base := by
  unfold isDigit at h
  unfold digit
  cases hd : digitVal c with
  | none => simp [hd] at h
  | some v => simpa [hd] using h

/-- The codes of the digits lie between those of 0 and f. -/
theorem toNat_of_digitVal {v : ℕ} (h : digitVal c = some v) :
    48 ≤ c.toNat ∧ c.toNat ≤ 102 ∧ (v = 0 → c.toNat = 48) := by
  unfold digitVal at h
  split_ifs at h with h1 h2 h3
  · have hlow : 48 ≤ c.toNat := h1.1
    have hhigh : c.toNat ≤ 57 := h1.2
    have hv := Option.some.inj h
    omega
  · have hlow : 97 ≤ c.toNat := h2.1
    have hhigh : c.toNat ≤ 102 := h2.2
    have hv := Option.some.inj h
    omega
  · have hlow : 65 ≤ c.toNat := h3.1
    have hhigh : c.toNat ≤ 70 := h3.2
    have hv := Option.some.inj h
    omega

theorem digitVal_of_isDigit (h : isDigit base c = true) : digitVal c = some (digit c) := by
  unfold isDigit at h
  unfold digit
  cases hd : digitVal c with
  | none => simp [hd] at h
  | some v => rfl

theorem isDigit_of_digitVal {v : ℕ} (h : digitVal c = some v) (hv : v < base) :
    isDigit base c = true := by
  unfold isDigit
  simpa [h] using hv

theorem digitVal_digitChar (n : Fin 16) : digitVal (digitChar n) = some n.val := by
  revert n
  decide

@[simp] theorem numeral_length (w v : ℕ) : (numeral base w v).length = w := by
  induction w generalizing v with
  | zero => rfl
  | succ w ih => rw [numeral, List.length_append, ih, List.length_singleton]

theorem isDigit_numeral (w v : ℕ) : ∀ c ∈ numeral 16 w v, isDigit 16 c = true := by
  induction w generalizing v with
  | zero => exact fun _ h => absurd h List.not_mem_nil
  | succ w ih =>
      intro c hc
      have hlt : v % 16 < 16 := Nat.mod_lt _ (by decide)
      rw [numeral, List.mem_append, List.mem_singleton] at hc
      cases hc with
      | inl hc => exact ih _ c hc
      | inr hc => exact hc ▸ isDigit_of_digitVal (digitVal_digitChar ⟨v % 16, hlt⟩) hlt

theorem foldl_digit (v : ℕ) (cs : List Char) :
    cs.foldl (fun v c => v*base+digit c) v = v*base^cs.length+value base cs := by
  induction cs using List.reverseRecOn with
  | nil => simp [value]
  | append_singleton cs c ih =>
      simp only [value] at ih ⊢
      rw [List.foldl_append, List.foldl_append, ih, List.length_append, List.length_singleton,
        Nat.pow_succ]
      simp only [List.foldl_cons, List.foldl_nil]
      ring

theorem value_append (cs ds : List Char) :
    value base (cs++ds) = value base cs*base^ds.length+value base ds := by
  rw [value, List.foldl_append]
  exact foldl_digit _ ds

/-- A numeral stands for the number, as far as there is room. -/
theorem value_numeral (w v : ℕ) : value 16 (numeral 16 w v) = v % 16^w := by
  induction w generalizing v with
  | zero => rw [Nat.pow_zero, Nat.mod_one]; rfl
  | succ w ih =>
      have hlt : v % 16 < 16 := Nat.mod_lt _ (by decide)
      have hdigit : digit (digitChar (v % 16)) = v % 16 := by
        unfold digit
        rw [digitVal_digitChar ⟨v % 16, hlt⟩]
        rfl
      have hlast : value 16 [digitChar (v % 16)] = v % 16 := by
        rw [value, List.foldl_cons, List.foldl_nil, hdigit, Nat.zero_mul, Nat.zero_add]
      rw [numeral, value_append, ih, hlast, List.length_singleton, Nat.pow_one,
        Nat.pow_succ, Nat.mul_comm (16^w), Nat.mod_mul]
      omega

theorem eq_zero_of_digit (h : isDigit base c = true) (h0 : digit c = 0) : c = '0' :=
  Char.toNat_inj.mp ((toNat_of_digitVal (digitVal_of_isDigit h)).2.2 h0)

theorem word_eq (w base : ℕ) (cs : List Char) :
    word w base cs = BitVec.ofNat w (value base cs) := by
  apply List.foldl_hom (BitVec.ofNat w)
  intro v c
  rw [BitVec.ofNat_add, BitVec.ofNat_mul]

theorem value_eq_ofDigits (base : ℕ) (cs : List Char) :
    value base cs = Nat.ofDigits base (cs.map digit).reverse := by
  rw [Nat.ofDigits_eq_foldr, List.foldr_reverse, List.foldl_map]
  unfold value
  congr 1
  funext v c
  rw [Nat.cast_id, Nat.mul_comm, Nat.add_comm]

theorem value_significant (base : ℕ) (cs : List Char) :
    value base (significant cs) = value base cs := by
  induction cs with
  | nil => rfl
  | cons c cs ih =>
      by_cases hc : c = '0'
      · have hdigit : 0*base+digit c = 0 := by
          rw [hc, Nat.zero_mul]
          rfl
        have hskip : significant (c::cs) = significant cs := by simp [significant, hc]
        rw [hskip, ih]
        simp only [value, List.foldl_cons, hdigit]
      · simp [significant, hc]

theorem significant_head {ds : List Char} (h : significant cs = c::ds) : c ≠ '0' := by
  have hhead := List.head?_dropWhile_not (· = '0') cs
  unfold significant at h
  rw [h] at hhead
  exact of_decide_eq_false hhead

theorem digit_significant {cs : List Char} (h : ∀ c ∈ cs, isDigit base c = true) :
    ∀ c ∈ significant cs, isDigit base c = true := by
  intro c hc
  exact h c ((List.dropWhile_sublist _).mem hc)

theorem value_lt_pow_length (hbase : 1 < base) (h : ∀ c ∈ cs, isDigit base c = true) :
    value base cs < base^cs.length := by
  have hlt : ∀ d ∈ (cs.map digit).reverse, d < base := by
    intro d hd
    rw [List.mem_reverse, List.mem_map] at hd
    obtain ⟨c, hc, rfl⟩ := hd
    exact digit_lt (h c hc)
  have hpow := Nat.ofDigits_lt_base_pow_length hbase hlt
  rwa [← value_eq_ofDigits, List.length_reverse, List.length_map] at hpow

/-- A number whose first digit is not zero needs all its digits. -/
theorem pow_le_value (hc : digit c ≠ 0) : base^cs.length ≤ value base (c::cs) := by
  rw [value_eq_ofDigits, List.map_cons, List.reverse_cons, Nat.ofDigits_append,
    Nat.ofDigits_singleton, List.length_reverse, List.length_map]
  calc base^cs.length
      ≤ base^cs.length*digit c := Nat.le_mul_of_pos_right _ (Nat.pos_of_ne_zero hc)
    _ ≤ _ := Nat.le_add_left _ _

theorem value_lt_pow_iff (hbase : 1 < base) (h : ∀ c ∈ cs, isDigit base c = true) (k : ℕ) :
    value base cs < base^k ↔ (significant cs).length ≤ k := by
  rw [← value_significant]
  have hdigits := digit_significant h
  cases hs : significant cs with
  | nil =>
      have hpos : 0 < base^k := Nat.pow_pos (Nat.lt_of_succ_lt hbase)
      simpa [value] using hpos
  | cons c ds =>
      rw [hs] at hdigits
      constructor
      · intro hlt
        have hc : digit c ≠ 0 := by
          intro h0
          exact significant_head hs (eq_zero_of_digit (hdigits c List.mem_cons_self) h0)
        exact (Nat.pow_lt_pow_iff_right hbase).mp ((pow_le_value hc).trans_lt hlt)
      · intro hle
        exact (value_lt_pow_length hbase hdigits).trans_le (Nat.pow_le_pow_right (by omega) hle)

theorem number_eq_some {n : ℕ} : number base cs = some n ↔
    cs ≠ [] ∧ (∀ c ∈ cs, isDigit base c = true) ∧ value base cs = n := by
  unfold number
  rw [← List.all_eq_true]
  split_ifs with h
  · rw [Option.some.injEq]
    exact ⟨fun hn => ⟨h.1, h.2, hn⟩, fun hn => hn.2.2⟩
  · constructor
    · intro hn
      cases hn
    · rintro ⟨hne, hall, _⟩
      exact absurd ⟨hne, hall⟩ h

end

end IbSrp.Numerals

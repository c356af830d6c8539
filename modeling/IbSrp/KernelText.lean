import IbSrp.Numerals
import IbSrp.TargetOptions
import Mathlib.Data.List.Forall2
import Mathlib.Data.List.TakeWhile

/-!
# The text conversions of the kernel

The functions of the kernel that the parser of the options calls. `simple_strtoull` skips
the mark of a hexadecimal numeral and reads digits as long as there are any: no digit at
all, text after the digits and a number that does not fit in 64 bits go unnoticed. A pattern
of `match_token` that ends in a number takes an argument only if the number ends where the
argument does, and `match_int` and `match_hex` refuse a number that is no `int`. `sscanf`
skips white space, wants a digit next and leaves the rest. `in4_pton` reads four decimal
numbers up to 255 with dots between them, and wants the delimiter or the end of the text
next.
-/
namespace IbSrp.KernelText
open Numerals TargetOptions
open ByteBuffer (Byte)

def isSpace (c : Char) : Bool := (9 ≤ c.toNat && c.toNat ≤ 13) || c.toNat = 32 || c.toNat = 160

/-- The text of a hexadecimal numeral after the mark `0x`, if it has one. -/
def hexBody : List Char → List Char
  | '0'::x::cs => if x = 'x' ∨ x = 'X' then cs else '0'::x::cs
  | cs => cs

/-- The base that a text without a given base is in. -/
def guessBase : List Char → ℕ
  | '0'::x::c::_ => if (x = 'x' ∨ x = 'X') ∧ isDigit 16 c = true then 16 else 8
  | '0'::_ => 8
  | _ => 10

/-- `_parse_integer_fixup_radix` -/
def fixupRadix (base : ℕ) (cp : List Char) : ℕ × List Char :=
  let base := if base = 0 then guessBase cp else base
  (base, if base = 16 then hexBody cp else cp)

/-- `simple_strtoull`, with the text after the number. -/
def simpleStrtoull (base : ℕ) (cp : List Char) : BitVec 64 × List Char :=
  let (base, cp) := fixupRadix base cp
  (word 64 base (cp.takeWhile (isDigit base)), cp.dropWhile (isDigit base))

def simpleStrtol (base : ℕ) : List Char → BitVec 64 × List Char
  | '-'::cp => (-(simpleStrtoull base cp).1, (simpleStrtoull base cp).2)
  | cp => simpleStrtoull base cp

/-- `match_number`: `match_int` for the base 0, `match_hex` for the base 16. -/
def matchNumber (base : ℕ) (s : List Char) : Option ℤ :=
  let (val, endp) := simpleStrtol base s
  if endp = s then none
  else if val.toInt < -2^31 ∨ 2^31-1 < val.toInt then none
  else some val.toInt

/-- Whether a pattern of `match_token` takes the rest of an option. -/
def accepts : Conversion → List Char → Bool
  | .str, s => s ≠ []
  | .dec, s => s ≠ [] && (simpleStrtol 0 s).2 = []
  | .hex, s => s ≠ [] && (simpleStrtoull 16 s).2 = []
  | .unsigned, s => s ≠ [] && (simpleStrtoull 0 s).2 = []

def sscanfNumber (base : ℕ) (s : List Char) : Option (BitVec 64) :=
  match s.dropWhile isSpace with
  | [] => none
  | c::cs => if isDigit base c then some (simpleStrtoull base (c::cs)).1 else none

def sscanfHhx (s : List Char) : Option Byte := (sscanfNumber 16 s).map (BitVec.setWidth 8)

def sscanfPort : List Char → Option (BitVec 16)
  | ':'::s => (sscanfNumber 10 s).map (BitVec.setWidth 16)
  | _ => none

/-- The number in one part of an address. -/
def octet (s : List Char) : Option Byte :=
  match number 10 s with
  | some v => if v ≤ 255 then some (BitVec.ofNat 8 v) else none
  | none => none

/-- `n+1` parts with dots between them, and the text after them. -/
def octets : ℕ → List Char → Option (List Byte × List Char)
  | 0, s => (octet (s.takeWhile (isDigit 10))).map fun b => ([b], s.dropWhile (isDigit 10))
  | n+1, s =>
      match octet (s.takeWhile (isDigit 10)), s.dropWhile (isDigit 10) with
      | some b, '.'::s => (octets n s).map fun x => (b::x.1, x.2)
      | _, _ => none

/-- `in4_pton` with a colon as the delimiter, and the text from there. -/
def in4Pton (s : List Char) : Option (BitVec 32 × List Char) :=
  match octets 3 s with
  | some (bs, []) => some (BitVec.ofNat 32 (ByteBuffer.value bs), [])
  | some (bs, ':'::rest) => some (BitVec.ofNat 32 (ByteBuffer.value bs), ':'::rest)
  | _ => none

theorem matchNumber_lt {base : ℕ} {s : List Char} {token : ℤ}
    (h : matchNumber base s = some token) : token < 2^31 := by
  simp only [matchNumber] at h
  split_ifs at h with hend hrange
  cases h
  omega

def linuxKernel (littleEndian : Bool) : Kernel where
  accepts := accepts
  matchInt := matchNumber 0
  matchHex := matchNumber 16
  simpleStrtoull cp := (simpleStrtoull 16 cp).1
  sscanfHhx := sscanfHhx
  in4Pton := in4Pton
  sscanfPort := sscanfPort
  littleEndian := littleEndian
  matchInt_lt := matchNumber_lt

section
variable {base : ℕ} {c d : Char} {cp : List Char}

theorem isSpace_of_isDigit (h : isDigit base c = true) : isSpace c = false := by
  have hrange := toNat_of_digitVal (digitVal_of_isDigit h)
  have h1 : ¬ c.toNat ≤ 13 := by omega
  have h2 : c.toNat ≠ 32 := by omega
  have h3 : c.toNat ≠ 160 := by omega
  simp [isSpace, h1, h2, h3]

theorem simpleStrtoull_hex (cp : List Char) :
    simpleStrtoull 16 cp = (BitVec.ofNat 64 (value 16 ((hexBody cp).takeWhile (isDigit 16))),
      (hexBody cp).dropWhile (isDigit 16)) := by
  rw [← word_eq]
  rfl

theorem simpleStrtoull_hex_of_digits (h : ∀ c ∈ hexBody cp, isDigit 16 c = true) :
    simpleStrtoull 16 cp = (BitVec.ofNat 64 (value 16 (hexBody cp)), []) := by
  rw [simpleStrtoull_hex, List.takeWhile_eq_self_iff.mpr h, List.dropWhile_eq_nil_iff.mpr h]

theorem simpleStrtoull_dec_of_digits (h : ∀ c ∈ cp, isDigit 10 c = true) :
    simpleStrtoull 10 cp = (BitVec.ofNat 64 (value 10 cp), []) := by
  change (word 64 10 (cp.takeWhile (isDigit 10)), cp.dropWhile (isDigit 10)) = _
  rw [word_eq, List.takeWhile_eq_self_iff.mpr h, List.dropWhile_eq_nil_iff.mpr h]

theorem hexBody_pair (hd : isDigit 16 d = true) : hexBody [c, d] = [c, d] := by
  unfold hexBody
  split
  · rename_i x cs heq
    rw [if_neg]
    · exact heq.symm
    · cases heq
      rintro (rfl | rfl) <;> cases hd
  · rfl

/-- A pair that `sscanf` takes consists of two digits if it has no white space in front and a
digit at the end. -/
theorem sscanfHhx_pair (hc : isSpace c = false) (hd : isDigit 16 d = true)
    (h : (sscanfHhx [c, d]).isSome) :
    isDigit 16 c = true ∧ sscanfHhx [c, d] = some (BitVec.ofNat 8 (value 16 [c, d])) := by
  have hskip : [c, d].dropWhile isSpace = [c, d] := List.dropWhile_cons_of_neg (by simp [hc])
  unfold sscanfHhx sscanfNumber at h ⊢
  rw [hskip] at h ⊢
  simp only at h ⊢
  split_ifs at h ⊢ with hdigit
  · have hall : ∀ x ∈ hexBody [c, d], isDigit 16 x = true := by
      rw [hexBody_pair hd]
      simp [hdigit, hd]
    rw [simpleStrtoull_hex_of_digits hall, hexBody_pair hd]
    exact ⟨hdigit, congrArg some (BitVec.setWidth_ofNat_of_le (by decide) _)⟩
  · cases h

theorem sscanfPort_of_digits (hne : cp ≠ []) (h : ∀ c ∈ cp, isDigit 10 c = true) :
    sscanfPort (':'::cp) = some (BitVec.ofNat 16 (value 10 cp)) := by
  cases cp with
  | nil => exact absurd rfl hne
  | cons c cs =>
      have hc := h c List.mem_cons_self
      have hskip : (c::cs).dropWhile isSpace = c::cs :=
        List.dropWhile_cons_of_neg (by simp [isSpace_of_isDigit hc])
      change (sscanfNumber 10 (c::cs)).map (BitVec.setWidth 16) = _
      unfold sscanfNumber
      rw [hskip]
      simp only [hc, if_true, simpleStrtoull_dec_of_digits h]
      exact congrArg some (BitVec.setWidth_ofNat_of_le (by decide) _)

end

section
variable {n : ℕ} {s rest : List Char} {b : Byte} {bs : List Byte} {parts : List (List Char)}

theorem digits_of_octet (h : octet s = some b) : ∀ c ∈ s, isDigit 10 c = true := by
  unfold octet at h
  split at h
  · rename_i v hv
    exact (number_eq_some.mp hv).2.1
  · cases h

/-- The bytes that the parts of an address stand for. -/
def Parts (parts : List (List Char)) (bs : List Byte) : Prop :=
  List.Forall₂ (fun s b => octet s = some b) parts bs

theorem octets_sound (h : octets n s = some (bs, rest)) :
    ∃ parts, parts.length = n+1 ∧ Parts parts bs ∧ s = ['.'].intercalate parts++rest := by
  induction n generalizing s bs with
  | zero =>
      simp only [octets, Option.map_eq_some_iff, Prod.mk.injEq] at h
      obtain ⟨b, hb, rfl, rfl⟩ := h
      exact ⟨[s.takeWhile (isDigit 10)], rfl, List.Forall₂.cons hb List.Forall₂.nil,
        by rw [List.intercalate_singleton, List.takeWhile_append_dropWhile]⟩
  | succ n ih =>
      simp only [octets] at h
      split at h
      · rename_i b s' hb hs'
        simp only [Option.map_eq_some_iff, Prod.mk.injEq, Prod.exists] at h
        obtain ⟨bs', rest', hoctets, rfl, rfl⟩ := h
        obtain ⟨parts, hlen, hparts, rfl⟩ := ih hoctets
        refine ⟨s.takeWhile (isDigit 10)::parts, by rw [List.length_cons, hlen],
          List.Forall₂.cons hb hparts, ?_⟩
        cases parts with
        | nil => cases hlen
        | cons part parts =>
            rw [List.intercalate_cons_cons, List.append_assoc, List.append_assoc,
              List.singleton_append, ← hs', List.takeWhile_append_dropWhile]
      · cases h

theorem octets_complete (hparts : Parts parts bs) (hlen : parts.length = n+1)
    (hrest : rest.takeWhile (isDigit 10) = []) :
    octets n (['.'].intercalate parts++rest) = some (bs, rest) := by
  have hdrop : rest.dropWhile (isDigit 10) = rest := by
    have happend : rest.takeWhile (isDigit 10)++rest.dropWhile (isDigit 10) = rest :=
      List.takeWhile_append_dropWhile
    rwa [hrest] at happend
  induction hparts generalizing n with
  | nil => cases hlen
  | @cons part b parts bs hb hparts ih =>
      have hdigits := digits_of_octet hb
      cases hparts with
      | nil =>
          cases hlen
          rw [List.intercalate_singleton, octets, List.takeWhile_append_of_pos hdigits,
            List.dropWhile_append_of_pos hdigits, hrest, hdrop, List.append_nil, hb]
          rfl
      | @cons part' b' parts bs hb' hparts' =>
          cases n with
          | zero => cases hlen
          | succ n =>
              have hoctets := ih (Nat.succ.inj hlen)
              rw [List.intercalate_cons_cons, List.append_assoc, List.append_assoc,
                List.singleton_append]
              have hdot : isDigit 10 '.' = false := rfl
              rw [octets, List.takeWhile_append_of_pos hdigits,
                List.dropWhile_append_of_pos hdigits, List.takeWhile_cons_of_neg (by simp [hdot]),
                List.dropWhile_cons_of_neg (by simp [hdot]), List.append_nil, hb]
              simp only [hoctets]
              rfl

end

end IbSrp.KernelText

import IbSrp.ByteBuffer
import IbSrp.Numerals

/-!
# The names of initiators

An initiator is admitted to a port of the target by a directory whose name is the
initiator's port identifier in hexadecimal. `srpt_parse_i_port_id` turns the name into the
16 bytes that a login is compared with. Digits that are missing at the front are zeros, and
what goes beyond 32 digits is dropped. `hex2bin` stops at the first character that is no
digit, and the parser does not care: the rest of the identifier is then whatever was on the
stack.

A login names its session after the initiator, with two 64-bit numbers in hexadecimal. This
is the name that an administrator sees.
-/
namespace IbSrp.AclNames
open ByteBuffer (Byte bigEndian bigEndian_length bigEndian_value)
open Numerals

/-- The bytes that `hex2bin` stores before it is done or fails. -/
def hex2bin : ℕ → List Char → List Byte
  | n+1, c::d::cs =>
      match digitVal c, digitVal d with
      | some hi, some lo => BitVec.ofNat 8 (16*hi+lo)::hex2bin n cs
      | _, _ => []
  | _, _ => []

def skipMark : List Char → List Char
  | '0':: 'x'::cs => cs
  | '0':: 'X'::cs => cs
  | cs => cs

/-- `stack` is what the array holds before. -/
def srptParseIPortId (stack : List Byte) (name : List Char) : Option (List Byte) :=
  let p := skipMark name
  if p.length % 2 = 1 then none
  else
    let count := min (p.length / 2) 16
    let bytes := List.replicate (16-count) 0++hex2bin count p
    some (bytes++stack.drop bytes.length)

/-- The session name, `0x%016llx%016llx` of the two halves of the identifier. -/
def sessName (iPortId : List Byte) : List Char :=
  '0':: 'x'::(numeral 16 16 (ByteBuffer.value (iPortId.take 8))++
    numeral 16 16 (ByteBuffer.value (iPortId.drop 8)))

/-- A name of at most 32 digits, and an even number of them. -/
structure WellFormed (name : List Char) : Prop where
  digits : ∀ c ∈ skipMark name, isDigit 16 c = true
  even : (skipMark name).length % 2 = 0
  length_le : (skipMark name).length ≤ 32

theorem hex2bin_length (n : ℕ) : ∀ {cs : List Char}, cs.length = 2*n →
    (∀ c ∈ cs, isDigit 16 c = true) → (hex2bin n cs).length = n := by
  induction n with
  | zero =>
      intro cs _ _
      rfl
  | succ n ih =>
      intro cs hlen hdigits
      match cs with
      | [] => simp at hlen
      | [_] => simp at hlen; omega
      | c::d::cs =>
          have hc := digitVal_of_isDigit (hdigits c (by simp))
          have hd := digitVal_of_isDigit (hdigits d (by simp))
          have hrest : cs.length = 2*n := by simpa [Nat.mul_add] using hlen
          simp only [hex2bin, hc, hd, List.length_cons]
          rw [ih hrest fun e he => hdigits e (by simp [he])]

/-- Two digits at a time make a byte. -/
theorem foldl_hex2bin (n : ℕ) : ∀ {cs : List Char} (v : ℕ), cs.length = 2*n →
    (∀ c ∈ cs, isDigit 16 c = true) →
    (hex2bin n cs).foldl (fun v b => v*256+b.toNat) v =
      cs.foldl (fun v c => v*16+digit c) v := by
  induction n with
  | zero =>
      intro cs v hlen _
      rw [List.eq_nil_of_length_eq_zero hlen]
      rfl
  | succ n ih =>
      intro cs v hlen hdigits
      match cs with
      | [] => simp at hlen
      | [_] => simp at hlen; omega
      | c::d::cs =>
          have hc := hdigits c (by simp)
          have hd := hdigits d (by simp)
          have hhi := digit_lt hc
          have hlo := digit_lt hd
          have hrest : cs.length = 2*n := by simpa [Nat.mul_add] using hlen
          have hbyte : (BitVec.ofNat 8 (16*digit c+digit d)).toNat = 16*digit c+digit d := by
            rw [BitVec.toNat_ofNat]
            omega
          have hstep : v*256+(16*digit c+digit d) = (v*16+digit c)*16+digit d := by omega
          simp only [hex2bin, digitVal_of_isDigit hc, digitVal_of_isDigit hd, List.foldl_cons]
          rw [hbyte, hstep]
          exact ih _ hrest fun e he => hdigits e (by simp [he])

theorem hex2bin_eq {n : ℕ} {cs : List Char} (hlen : cs.length = 2*n)
    (hdigits : ∀ c ∈ cs, isDigit 16 c = true) : hex2bin n cs = bigEndian n (value 16 cs) := by
  have hvalue : ByteBuffer.value (hex2bin n cs) = value 16 cs := foldl_hex2bin n 0 hlen hdigits
  have hlength := hex2bin_length n hlen hdigits
  calc hex2bin n cs
      = bigEndian (hex2bin n cs).length (ByteBuffer.value (hex2bin n cs)) :=
        (bigEndian_value _).symm
    _ = bigEndian n (value 16 cs) := by rw [hlength, hvalue]

theorem value_replicate (k : ℕ) (bytes : List Byte) :
    ByteBuffer.value (List.replicate k 0++bytes) = ByteBuffer.value bytes := by
  induction k with
  | zero => rfl
  | succ k ih => exact ih

/-- A well-formed name is read as the number it is, whatever was on the stack. -/
theorem srptParseIPortId_eq {name : List Char} (h : WellFormed name) {stack : List Byte}
    (hstack : stack.length = 16) :
    srptParseIPortId stack name = some (bigEndian 16 (value 16 (skipMark name))) := by
  have heven := h.even
  have hle := h.length_le
  have hcount : min ((skipMark name).length / 2) 16 = (skipMark name).length / 2 := by omega
  have htwice : (skipMark name).length = 2*((skipMark name).length / 2) := by omega
  have hlen := hex2bin_length _ htwice h.digits
  have hvalue := foldl_hex2bin _ 0 htwice h.digits
  unfold srptParseIPortId
  simp only [hcount]
  rw [if_neg (by omega)]
  generalize hbytes : List.replicate (16-(skipMark name).length / 2) 0++
    hex2bin ((skipMark name).length / 2) (skipMark name) = bytes
  have hbytesLen : bytes.length = 16 := by
    rw [← hbytes, List.length_append, List.length_replicate, hlen]
    omega
  have hbytesValue : ByteBuffer.value bytes = value 16 (skipMark name) := by
    rw [← hbytes, value_replicate]
    exact hvalue
  rw [List.drop_of_length_le (by omega), List.append_nil, ← hbytesValue]
  conv_lhs => rw [← bigEndian_value bytes, hbytesLen]

theorem wellFormed_sessName (iPortId : List Byte) : WellFormed (sessName iPortId) := by
  constructor
  · intro c hc
    have hc : c ∈ numeral 16 16 (ByteBuffer.value (iPortId.take 8))++
      numeral 16 16 (ByteBuffer.value (iPortId.drop 8)) := hc
    cases List.mem_append.mp hc with
    | inl hc => exact isDigit_numeral _ _ c hc
    | inr hc => exact isDigit_numeral _ _ c hc
  · show (numeral 16 16 _++numeral 16 16 _).length % 2 = 0
    rw [List.length_append, numeral_length, numeral_length]
  · show (numeral 16 16 _++numeral 16 16 _).length ≤ 32
    rw [List.length_append, numeral_length, numeral_length]

theorem value_sessName {iPortId : List Byte} (hlen : iPortId.length = 16) :
    value 16 (skipMark (sessName iPortId)) = ByteBuffer.value iPortId := by
  have hfirst : (iPortId.take 8).length = 8 := by
    rw [List.length_take]
    omega
  have hsecond : (iPortId.drop 8).length = 8 := by
    rw [List.length_drop]
    omega
  have hltFirst : ByteBuffer.value (iPortId.take 8) < 16^16 :=
    Nat.lt_of_lt_of_eq (hfirst ▸ ByteBuffer.value_lt (iPortId.take 8)) (by decide)
  have hltSecond : ByteBuffer.value (iPortId.drop 8) < 16^16 :=
    Nat.lt_of_lt_of_eq (hsecond ▸ ByteBuffer.value_lt (iPortId.drop 8)) (by decide)
  have hsplit : ByteBuffer.value iPortId =
      ByteBuffer.value (iPortId.take 8)*256^8+ByteBuffer.value (iPortId.drop 8) := by
    conv_lhs => rw [ByteBuffer.value, ← List.take_append_drop 8 iPortId, List.foldl_append]
    rw [ByteBuffer.foldl_value, hsecond]
    rfl
  have hpow : 16^16 = 256^8 := by decide
  show value 16 (numeral 16 16 _++numeral 16 16 _) = _
  rw [value_append, value_numeral, value_numeral, numeral_length, Nat.mod_eq_of_lt hltFirst,
    Nat.mod_eq_of_lt hltSecond, hsplit, hpow]

/-- `__srpt_lookup_acl` for the ACLs with the given names. -/
def srptLookupAcl (stack : List Byte) (names : List (List Char)) (iPortId : List Byte) : Bool :=
  (names.filterMap (srptParseIPortId stack)).any (· = iPortId)

/-- An initiator is admitted if one of the names is its identifier. -/
theorem srptLookupAcl_iff {stack iPortId : List Byte} (hstack : stack.length = 16)
    (hlen : iPortId.length = 16) {names : List (List Char)} (hnames : ∀ n ∈ names, WellFormed n) :
    srptLookupAcl stack names iPortId = true ↔
      ∃ n ∈ names, value 16 (skipMark n) = ByteBuffer.value iPortId := by
  have hread : ∀ n ∈ names, (srptParseIPortId stack n = some iPortId ↔
      value 16 (skipMark n) = ByteBuffer.value iPortId) := by
    intro n hn
    have hlt : value 16 (skipMark n) < 256^16 := by
      apply Nat.lt_of_lt_of_le (value_lt_pow_length (by decide) (hnames n hn).digits)
      exact Nat.le_trans (Nat.pow_le_pow_right (by decide) (hnames n hn).length_le) (by decide)
    rw [srptParseIPortId_eq (hnames n hn) hstack, Option.some_inj]
    constructor
    · intro heq
      rw [← heq, ByteBuffer.value_bigEndian, Nat.mod_eq_of_lt hlt]
    · intro heq
      rw [heq, ← hlen, bigEndian_value]
  unfold srptLookupAcl
  simp only [List.any_eq_true, List.mem_filterMap, decide_eq_true_eq]
  constructor
  · rintro ⟨id, ⟨n, hn, hid⟩, rfl⟩
    exact ⟨n, hn, (hread n hn).mp hid⟩
  · rintro ⟨n, hn, hvalue⟩
    exact ⟨iPortId, ⟨n, hn, (hread n hn).mpr hvalue⟩, rfl⟩

end IbSrp.AclNames

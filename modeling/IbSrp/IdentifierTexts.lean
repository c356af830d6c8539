import IbSrp.KernelText

/-!
# The texts of identifiers

A text for `add_target` names the target by numbers: 64-bit identifiers and a 16-bit
partition key in hexadecimal, a GID of 32 hexadecimal digits, or an IPv4 address with a
decimal port. The parser hands each to a conversion of the kernel and checks little of what
the conversion leaves: characters after the digits of an identifier or a port, a second
character of a pair that is no digit, and high digits that do not fit are dropped without
an error.

These are all the ways in which an accepted argument can be misread: any other has the
documented form, and the setting made from it has the number written.
-/
namespace IbSrp.IdentifierTexts
open Numerals TargetOptions KernelText
open ByteBuffer (Byte)

/-- The number in a hexadecimal numeral, with or without the mark `0x`. -/
def hexNumeral (arg : List Char) : Option ℕ := number 16 (hexBody arg)

/-- The bytes that pairs of digits stand for. -/
def hexPairs : List Char → List Byte
  | c::d::cs => BitVec.ofNat 8 (value 16 [c, d])::hexPairs cs
  | _ => []

/-- Four decimal numbers up to 255 with dots between them, a colon, and the digits of the port. -/
def IsDest (arg : List Char) (addr : BitVec 32) (port : BitVec 16) : Prop :=
  ∃ parts bs cs, parts.length = 4 ∧ Parts parts bs ∧ arg = ['.'].intercalate parts++ ':'::cs ∧
    addr = BitVec.ofNat 32 (ByteBuffer.value bs) ∧ number 10 cs = some port.toNat

/-- The form of the identifiers. -/
def Documented : Opt → List Char → Prop
  | .idExt, arg | .iocGuid, arg | .serviceId, arg | .initiatorExt, arg =>
      ∃ n < 2^64, hexNumeral arg = some n
  | .pkey, arg => ∃ n < 2^16, hexNumeral arg = some n
  | .dgid, arg => arg.length = 32 ∧ ∀ c ∈ arg, isDigit 16 c = true
  | .ipDest, arg => ∃ addr port, IsDest arg addr port
  | _, _ => True

/-- A numeral with nothing after its mark, with a character that is no digit, or with more
than `k` digits after the leading zeros. -/
def Stray (k : ℕ) (arg : List Char) : Prop :=
  hexBody arg = [] ∨ (hexBody arg).dropWhile (isDigit 16) ≠ [] ∨
    k < (significant (hexBody arg)).length

/-- A pair of which only one character is read: the second after a blank, or the first before a
character that is no digit. -/
def HalfPair (arg : List Char) : Prop :=
  ∃ i : Fin 16, ∃ c d, (arg.drop (2*i)).take 2 = [c, d] ∧
    (isSpace c = true ∨ isDigit 16 d = false)

def portText (arg : List Char) : List Char := (arg.dropWhile (· ≠ ':')).drop 1

/-- A port with something in front of its digits or after them, or that needs more than 16
bits. -/
def StrayPort (arg : List Char) : Prop :=
  (portText arg).dropWhile (isDigit 10) ≠ [] ∨ 2^16 ≤ value 10 (portText arg)

/-- The arguments of which the conversions drop something. -/
def Misread : Opt → List Char → Prop
  | .idExt, arg | .iocGuid, arg | .serviceId, arg | .initiatorExt, arg => Stray 16 arg
  | .pkey, arg => Stray 4 arg
  | .dgid, arg => HalfPair arg
  | .ipDest, arg => StrayPort arg
  | _, _ => False

section
variable {k : ℕ} {arg : List Char}

theorem not_stray_iff : ¬ Stray k arg ↔ ∃ n < 16^k, hexNumeral arg = some n := by
  unfold Stray hexNumeral
  rw [not_or, not_or, not_not, List.dropWhile_eq_nil_iff, not_lt]
  constructor
  · rintro ⟨hne, hdigits, hlen⟩
    exact ⟨value 16 (hexBody arg), (value_lt_pow_iff (by decide) hdigits k).mpr hlen,
      number_eq_some.mpr ⟨hne, hdigits, rfl⟩⟩
  · rintro ⟨n, hn, hnumber⟩
    obtain ⟨hne, hdigits, rfl⟩ := number_eq_some.mp hnumber
    exact ⟨hne, hdigits, (value_lt_pow_iff (by decide) hdigits k).mp hn⟩

theorem hexNumeral_digits {n : ℕ} (h : hexNumeral arg = some n) :
    (∀ c ∈ hexBody arg, isDigit 16 c = true) ∧ value 16 (hexBody arg) = n :=
  (number_eq_some.mp h).2

theorem hexNumeral_simpleStrtoull (h : ¬ Stray 16 arg) :
    hexNumeral arg = some (simpleStrtoull 16 arg).1.toNat := by
  obtain ⟨n, hn, hnumeral⟩ := not_stray_iff.mp h
  obtain ⟨hdigits, hvalue⟩ := hexNumeral_digits hnumeral
  have hmod : n % 2^64 = n := Nat.mod_eq_of_lt (by norm_num at hn ⊢; exact hn)
  rw [simpleStrtoull_hex_of_digits hdigits, hvalue, BitVec.toNat_ofNat, hmod, hnumeral]

/-- A partition key that is not misread is the number that `match_hex` gives. -/
theorem hexNumeral_matchNumber {token : ℤ} (h : ¬ Stray 4 arg)
    (htoken : matchNumber 16 arg = some token) :
    hexNumeral arg = some (token % 2^16).toNat := by
  obtain ⟨n, hn, hnumeral⟩ := not_stray_iff.mp h
  obtain ⟨hdigits, hvalue⟩ := hexNumeral_digits hnumeral
  have hsign : simpleStrtol 16 arg = simpleStrtoull 16 arg := by
    unfold simpleStrtol
    split
    · rename_i cp
      have hminus : isDigit 16 '-' = true := hdigits '-' List.mem_cons_self
      cases hminus
    · rfl
  simp only [matchNumber, hsign, simpleStrtoull_hex_of_digits hdigits, hvalue] at htoken
  have hsmall : n < 2^16 := by
    norm_num at hn ⊢
    exact hn
  have hint : (BitVec.ofNat 64 n).toInt = n := by
    rw [BitVec.toInt_ofNat', Int.bmod_eq_of_le] <;> omega
  rw [hint] at htoken
  split_ifs at htoken
  cases htoken
  rw [hnumeral]
  congr 1
  omega

end

section
variable {arg : List Char}

theorem hexPairs_eq {n : ℕ} (arg : List Char) (h : arg.length = 2*n) :
    hexPairs arg =
      List.ofFn fun i : Fin n => BitVec.ofNat 8 (value 16 ((arg.drop (2*i)).take 2)) := by
  induction n generalizing arg with
  | zero =>
      rw [List.length_eq_zero_iff.mp h]
      rfl
  | succ n ih =>
      match arg, h with
      | c::d::cs, h =>
          have hlen : cs.length = 2*n := by
            rw [List.length_cons, List.length_cons] at h
            omega
          rw [hexPairs, List.ofFn_succ, ih cs hlen]
          rfl

theorem pair_at (h : arg.length = 32) (i : Fin 16) :
    ∃ c d, (arg.drop (2*i)).take 2 = [c, d] := by
  apply List.length_eq_two.mp
  rw [List.length_take, List.length_drop, h]
  omega

theorem mem_pair (h : arg.length = 32) {x : Char} (hx : x ∈ arg) :
    ∃ i : Fin 16, x ∈ (arg.drop (2*i)).take 2 := by
  obtain ⟨j, hj, rfl⟩ := List.mem_iff_getElem.mp hx
  have hi : j / 2 < 16 := by omega
  refine ⟨⟨j / 2, hi⟩, List.mem_iff_getElem.mpr ⟨j % 2, ?_, ?_⟩⟩
  · rw [List.length_take, List.length_drop]
    simp only
    omega
  · rw [List.getElem_take, List.getElem_drop]
    congr 1
    exact Nat.div_add_mod j 2

theorem not_halfPair_of_digits (h : ∀ c ∈ arg, isDigit 16 c = true) : ¬ HalfPair arg := by
  rintro ⟨i, c, d, hpair, hcd⟩
  have hmem : ∀ x ∈ [c, d], isDigit 16 x = true := by
    intro x hx
    rw [← hpair] at hx
    exact h x (List.mem_of_mem_drop (List.mem_of_mem_take hx))
  rcases hcd with hc | hd
  · rw [isSpace_of_isDigit (hmem c List.mem_cons_self)] at hc
    cases hc
  · rw [hmem d (List.mem_cons_of_mem c List.mem_cons_self)] at hd
    cases hd

/-- A GID without half pairs consists of digits, and its bytes are those of the pairs. -/
theorem gid_of_pairs (hlen : arg.length = 32) (hhalf : ¬ HalfPair arg)
    (hsome : ∀ i : Fin 16, (sscanfHhx ((arg.drop (2*i)).take 2)).isSome) :
    (∀ c ∈ arg, isDigit 16 c = true) ∧
      (List.ofFn fun i : Fin 16 => (sscanfHhx ((arg.drop (2*i)).take 2)).getD 0) =
        hexPairs arg := by
  have hpair (i : Fin 16) : (∀ x ∈ (arg.drop (2*i)).take 2, isDigit 16 x = true) ∧
      sscanfHhx ((arg.drop (2*i)).take 2) =
        some (BitVec.ofNat 8 (value 16 ((arg.drop (2*i)).take 2))) := by
    obtain ⟨c, d, hcd⟩ := pair_at hlen i
    have hc : isSpace c = false := by
      by_contra hne
      exact hhalf ⟨i, c, d, hcd, Or.inl (by simpa using hne)⟩
    have hd : isDigit 16 d = true := by
      by_contra hne
      exact hhalf ⟨i, c, d, hcd, Or.inr (by simpa using hne)⟩
    have hread := hsome i
    rw [hcd] at hread ⊢
    obtain ⟨hc', hvalue⟩ := sscanfHhx_pair hc hd hread
    exact ⟨by simp [hc', hd], hvalue⟩
  constructor
  · intro c hc
    obtain ⟨i, hi⟩ := mem_pair hlen hc
    exact (hpair i).1 c hi
  · rw [hexPairs_eq (n := 16) arg hlen]
    congr 1
    funext i
    rw [(hpair i).2]
    rfl

end

section
variable {arg cs : List Char} {addr : BitVec 32} {port : BitVec 16} {parts : List (List Char)}
  {bs : List Byte}

theorem not_colon_of_mem (hparts : Parts parts bs) :
    ∀ c ∈ ['.'].intercalate parts, c ≠ ':' := by
  induction hparts with
  | nil =>
      intro c hc
      cases hc
  | @cons part b parts bs hb hparts ih =>
      have hpart : ∀ c ∈ part, c ≠ ':' := by
        rintro c hc rfl
        cases digits_of_octet hb ':' hc
      cases parts with
      | nil =>
          rw [List.intercalate_singleton]
          exact hpart
      | cons part' parts =>
          intro c hc
          rw [List.intercalate_cons_cons, List.append_assoc, List.mem_append, List.mem_append,
            List.mem_singleton] at hc
          rcases hc with hc | rfl | hc
          · exact hpart c hc
          · decide
          · exact ih c hc

theorem portText_dest (hparts : Parts parts bs) (cs : List Char) :
    portText (['.'].intercalate parts++ ':'::cs) = cs := by
  unfold portText
  rw [List.dropWhile_append_of_pos, List.dropWhile_cons_of_neg]
  · rfl
  · simp
  · simpa using not_colon_of_mem hparts

theorem not_strayPort_of_isDest (h : IsDest arg addr port) : ¬ StrayPort arg := by
  obtain ⟨parts, bs, cs, _, hparts, rfl, _, hport⟩ := h
  obtain ⟨_, hdigits, hvalue⟩ := number_eq_some.mp hport
  unfold StrayPort
  rw [portText_dest hparts, hvalue, List.dropWhile_eq_nil_iff.mpr hdigits]
  have hlt := port.isLt
  rintro (hne | hle)
  · exact hne rfl
  · omega

/-- A destination of the documented form is accepted with its address and port. -/
theorem srpParseIn_of_isDest (littleEndian : Bool) (h : IsDest arg addr port) :
    srpParseIn (linuxKernel littleEndian) arg = some (addr, port) := by
  obtain ⟨parts, bs, cs, hlen, hparts, rfl, rfl, hport⟩ := h
  obtain ⟨hne, hdigits, hvalue⟩ := number_eq_some.mp hport
  have hoctets : octets 3 (['.'].intercalate parts++ ':'::cs) = some (bs, ':'::cs) :=
    octets_complete hparts hlen rfl
  have haddr : in4Pton (['.'].intercalate parts++ ':'::cs) =
      some (BitVec.ofNat 32 (ByteBuffer.value bs), ':'::cs) := by
    unfold in4Pton
    rw [hoctets]
    rfl
  have hread : sscanfPort (':'::cs) = some port := by
    rw [sscanfPort_of_digits hne hdigits, hvalue, BitVec.ofNat_toNat, BitVec.setWidth_eq]
  simp only [srpParseIn, linuxKernel, haddr, hread]
  rfl

theorem isDest_unique {addr' : BitVec 32} {port' : BitVec 16} (h : IsDest arg addr port)
    (h' : IsDest arg addr' port') : addr = addr' ∧ port = port' := by
  have hsame := (srpParseIn_of_isDest true h).symm.trans (srpParseIn_of_isDest true h')
  exact Prod.mk.inj (Option.some.inj hsame)

theorem in4Pton_eq_some {rest : List Char} (h : in4Pton arg = some (addr, rest)) :
    ∃ bs, octets 3 arg = some (bs, rest) ∧ addr = BitVec.ofNat 32 (ByteBuffer.value bs) ∧
      (rest = [] ∨ ∃ cs, rest = ':'::cs) := by
  unfold in4Pton at h
  split at h
  · rename_i bs hoctets
    cases h
    exact ⟨bs, hoctets, rfl, Or.inl rfl⟩
  · rename_i bs cs hoctets
    cases h
    exact ⟨bs, hoctets, rfl, Or.inr ⟨cs, rfl⟩⟩
  · cases h

/-- An accepted destination whose port is not misread has the documented form. -/
theorem isDest_of_srpParseIn {littleEndian : Bool}
    (h : srpParseIn (linuxKernel littleEndian) arg = some (addr, port))
    (hstray : ¬ StrayPort arg) : IsDest arg addr port := by
  unfold srpParseIn at h
  split at h
  · cases h
  · rename_i addr' rest haddr
    obtain ⟨bs, hoctets, hvalue, hrest⟩ := in4Pton_eq_some haddr
    obtain ⟨parts, hlen, hparts, harg⟩ := octets_sound hoctets
    rw [Option.map_eq_some_iff] at h
    obtain ⟨port', hport, heq⟩ := h
    cases heq
    rcases hrest with rfl | ⟨cs, rfl⟩
    · cases hport
    · rw [harg, StrayPort, portText_dest hparts, not_or, not_not, not_le,
        List.dropWhile_eq_nil_iff] at hstray
      have hne : cs ≠ [] := by
        rintro rfl
        cases hport
      have hread : some (BitVec.ofNat 16 (value 10 cs)) = some port :=
        (sscanfPort_of_digits hne hstray.1).symm.trans hport
      have hnat : (BitVec.ofNat 16 (value 10 cs)).toNat = value 10 cs :=
        Nat.mod_eq_of_lt hstray.2
      refine ⟨parts, bs, cs, hlen, hparts, harg, hvalue, ?_⟩
      rw [← Option.some.inj hread, hnat]
      exact number_eq_some.mpr ⟨hne, hstray.1, rfl⟩

end

/-- A setting has the number that its argument writes. -/
def Denotes : Setting → List Char → Prop
  | .idExt v, arg | .iocGuid v, arg | .serviceId v, arg | .initiatorExt v, arg =>
      hexNumeral arg = some v.toNat
  | .pkey token, arg => hexNumeral arg = some (token % 2^16).toNat
  | .dgid raw, arg =>
      (arg.length = 32 ∧ ∀ c ∈ arg, isDigit 16 c = true) ∧ List.ofFn raw = hexPairs arg
  | .ipDest addr port, arg => IsDest arg addr port
  | _, _ => True

section
variable {kernel : Kernel} {littleEndian : Bool} {opt : Opt} {arg : List Char} {s : Setting}

theorem not_misread_of_documented (h : Documented opt arg) : ¬ Misread opt arg := by
  cases opt with
  | idExt | iocGuid | serviceId | initiatorExt | pkey => exact not_stray_iff.mpr h
  | dgid => exact not_halfPair_of_digits h.2
  | ipDest =>
      obtain ⟨addr, port, hdest⟩ := h
      exact not_strayPort_of_isDest hdest
  | _ => exact id

theorem documented_of_denotes (h : Denotes s arg) : Documented s.opt arg := by
  cases s with
  | idExt v | iocGuid v | serviceId v | initiatorExt v => exact ⟨v.toNat, v.isLt, h⟩
  | pkey token => exact ⟨_, by omega, h⟩
  | dgid raw => exact h.1
  | ipDest addr port => exact ⟨addr, port, h⟩
  | _ => trivial

/-- What an accepted argument has the parser store is the number written, unless it is misread. -/
theorem denotes_of_parseArg (h : parseArg (linuxKernel littleEndian) opt arg = .ok s)
    (hread : ¬ Misread opt arg) : Denotes s arg := by
  cases opt with
  | idExt | iocGuid | serviceId | initiatorExt =>
      cases h
      exact hexNumeral_simpleStrtoull hread
  | dgid =>
      simp only [parseArg, gidArg] at h
      split_ifs at h with hlen hsome
      cases h
      obtain ⟨hdigits, hbytes⟩ := gid_of_pairs (not_not.mp hlen) hread hsome
      exact ⟨⟨not_not.mp hlen, hdigits⟩, hbytes⟩
  | pkey =>
      simp only [parseArg] at h
      split at h
      · cases h
      · rename_i token htoken
        cases h
        exact hexNumeral_matchNumber hread htoken
  | ipDest =>
      simp only [parseArg] at h
      split at h
      · cases h
      · rename_i addr port hparse
        cases h
        exact isDest_of_srpParseIn hparse hread
  | ioClass =>
      simp only [parseArg] at h
      split at h
      · cases h
      · split_ifs at h
        cases h
        trivial
  | _ =>
      obtain ⟨token, _, _, rfl⟩ := intArg_ok h
      trivial

end

end IbSrp.IdentifierTexts

import IbSrp.IdentifierTexts
import IbSrp.OptionOrder

/-!
# Login texts are not parsed exactly

A mistyped text can be accepted, with other numbers than those written: an option stores
what the conversion of its argument makes of it. If no argument is misread, every option
stores the number written, and the target holds it until an option comes that writes the
same field. That is the same option given again, which replaces the earlier one, or the
other one of `service_id` and `dest`, which share eight bytes of the union.

So the target holds exactly what a text writes last, for every identifier in it, if and only
if none is misread and a service ID and a destination that both stay are the same bytes.
-/
namespace IbSrp.LoginText
open ByteBuffer (Byte load loadBe store bigEndian load_store loadBe_store_bigEndian)
open Numerals TargetOptions KernelText IdentifierTexts

def arguments (kernel : Kernel) (buf : List Char) : List (Opt × List Char) :=
  (options buf).filterMap (matchToken kernel)

/-- The target holds exactly the number written. -/
def Holds (kernel : Kernel) (t : Target) : Opt → List Char → Prop
  | .idExt, arg => hexNumeral arg = some t.idExt.toNat
  | .iocGuid, arg => hexNumeral arg = some t.iocGuid.toNat
  | .initiatorExt, arg => hexNumeral arg = some t.initiatorExt.toNat
  | .serviceId, arg => hexNumeral arg = some (loadBe 8 t.cm 0)
  | .pkey, arg => hexNumeral arg = some (loadBe 2 t.cm 24)
  | .dgid, arg => load t.cm 8 16 = hexPairs arg
  | .ipDest, arg => ∃ addr port, IsDest arg addr port ∧
      load t.cm 0 8 = sockaddrIn kernel addr port
  | _, _ => True

/-- An option that is not given again. -/
def IsLast (args : List (Opt × List Char)) (x : Opt × List Char) : Prop :=
  ∃ pre post, args = pre++x::post ∧ ∀ y ∈ post, y.1 ≠ x.1

theorem IsLast.mem {args : List (Opt × List Char)} {x : Opt × List Char} (h : IsLast args x) :
    x ∈ args := by
  obtain ⟨pre, post, rfl, _⟩ := h
  exact List.mem_append_right pre List.mem_cons_self

/-- All identifiers of a text have the documented form and the target holds their numbers. -/
def ParsedExactly (kernel : Kernel) (buf : List Char) (t : Target) : Prop :=
  (∀ x ∈ arguments kernel buf, Documented x.1 x.2) ∧
    ∀ x, IsLast (arguments kernel buf) x → Holds kernel t x.1 x.2

/-- A service ID and a destination that both stay are the same bytes. -/
def OneAddress (kernel : Kernel) (args : List (Opt × List Char)) : Prop :=
  ∀ service dest, IsLast args (.serviceId, service) → IsLast args (.ipDest, dest) →
    ∀ n addr port, hexNumeral service = some n → IsDest dest addr port →
      bigEndian 8 n = sockaddrIn kernel addr port

/-- Two options that write the same field. -/
def Shares (a b : Opt) : Prop :=
  a = b ∨ (a = .serviceId ∨ a = .ipDest) ∧ (b = .serviceId ∨ b = .ipDest)

section
variable {kernel : Kernel} {s : Setting} {opt : Opt} {arg : List Char}

/-- Where the identifiers in the union lie. -/
def unionField : Opt → ℕ × ℕ
  | .dgid => (8, 16)
  | .pkey => (24, 2)
  | _ => (0, 8)

theorem load_step_of_not_shares (kernel : Kernel) (x : ℕ × Target) (hshares : ¬ Shares s.opt opt)
    (hopt : opt = .serviceId ∨ opt = .ipDest ∨ opt = .dgid ∨ opt = .pkey) :
    load (step kernel x s).2.cm (unionField opt).1 (unionField opt).2 =
      load x.2.cm (unionField opt).1 (unionField opt).2 := by
  apply load_step_of_disjoint
  intro w hw
  cases s <;> cases hw <;> rcases hopt with rfl | rfl | rfl | rfl <;>
    first
      | exact absurd (Or.inl rfl) hshares
      | exact absurd (Or.inr ⟨Or.inl rfl, Or.inr rfl⟩) hshares
      | exact absurd (Or.inr ⟨Or.inr rfl, Or.inl rfl⟩) hshares
      | simp [unionField, OptionOrder.sockaddrIn_length]

/-- A setting keeps the identifiers that it does not share a field with. -/
theorem holds_step_of_not_shares {x : ℕ × Target} (hshares : ¬ Shares s.opt opt)
    (h : Holds kernel x.2 opt arg) : Holds kernel (step kernel x s).2 opt arg := by
  have hne : s.opt ≠ opt := fun heq => hshares (Or.inl heq)
  have hload := load_step_of_not_shares kernel x hshares
  cases opt with
  | idExt =>
      have hid : (step kernel x s).2.idExt = x.2.idExt := by
        cases s <;> first | rfl | exact absurd rfl hne
      rw [Holds, hid]
      exact h
  | iocGuid =>
      have hguid : (step kernel x s).2.iocGuid = x.2.iocGuid := by
        cases s <;> first | rfl | exact absurd rfl hne
      rw [Holds, hguid]
      exact h
  | initiatorExt =>
      have hext : (step kernel x s).2.initiatorExt = x.2.initiatorExt := by
        cases s <;> first | rfl | exact absurd rfl hne
      rw [Holds, hext]
      exact h
  | serviceId =>
      have hbytes : load (step kernel x s).2.cm 0 8 = load x.2.cm 0 8 := hload (by simp)
      rw [Holds, loadBe, hbytes]
      exact h
  | pkey =>
      have hbytes : load (step kernel x s).2.cm 24 2 = load x.2.cm 24 2 := hload (by simp)
      rw [Holds, loadBe, hbytes]
      exact h
  | dgid =>
      have hbytes : load (step kernel x s).2.cm 8 16 = load x.2.cm 8 16 := hload (by simp)
      rw [Holds, hbytes]
      exact h
  | ipDest =>
      have hbytes : load (step kernel x s).2.cm 0 8 = load x.2.cm 0 8 := hload (by simp)
      rw [Holds, hbytes]
      exact h
  | _ => trivial

theorem holds_step (kernel : Kernel) (x : ℕ × Target) (h : Denotes s arg) :
    Holds kernel (step kernel x s).2 s.opt arg := by
  cases s with
  | idExt v | iocGuid v | initiatorExt v => exact h
  | serviceId v =>
      have hmod : v.toNat % 256^8 = v.toNat := Nat.mod_eq_of_lt v.isLt
      rw [Setting.opt, Holds, step_cm rfl, loadBe_store_bigEndian, hmod]
      exact h
  | pkey token =>
      have hmod : (token % 2^16).toNat % 256^2 = (token % 2^16).toNat :=
        Nat.mod_eq_of_lt (by omega)
      rw [Setting.opt, Holds, step_cm rfl, loadBe_store_bigEndian, hmod]
      exact h
  | dgid raw =>
      rw [Setting.opt, Holds, step_cm rfl, load_store _ _ (by simp),
        List.take_of_length_le (by simp)]
      exact h.2
  | ipDest addr port => exact ⟨addr, port, h, OptionOrder.step_first rfl x⟩
  | _ => trivial

theorem holds_foldl_of_not_shares (ss : List Setting) (hshares : ∀ s ∈ ss, ¬ Shares s.opt opt)
    (x : ℕ × Target) (h : Holds kernel x.2 opt arg) :
    Holds kernel (ss.foldl (step kernel) x).2 opt arg := by
  induction ss generalizing x with
  | nil => exact h
  | cons s ss ih =>
      rw [List.forall_mem_cons] at hshares
      exact ih hshares.2 _ (holds_step_of_not_shares hshares.1 h)

end

/-- What the arguments have the parser store. -/
def argSettings (kernel : Kernel) (args : List (Opt × List Char)) : List Setting :=
  args.filterMap fun x => (parseArg kernel x.1 x.2).toOption

section
variable {kernel : Kernel} {littleEndian : Bool} {buf : List Char} {t t' : Target}
  {x : Opt × List Char} {pre post : List (Opt × List Char)}

theorem settings_eq_argSettings (kernel : Kernel) (buf : List Char) :
    settings kernel (options buf) = argSettings kernel (arguments kernel buf) := by
  unfold settings argSettings arguments
  rw [List.filterMap_filterMap]
  congr 1
  funext p
  unfold parseToken
  cases matchToken kernel p <;> rfl

theorem arguments_accepted (hok : srpParseOptions kernel buf t = .ok t')
    (hx : x ∈ arguments kernel buf) : ∃ s, parseArg kernel x.1 x.2 = .ok s := by
  obtain ⟨p, hp, hmatch⟩ := List.mem_filterMap.mp hx
  obtain ⟨s, hs⟩ := ((srpParseOptions_eq_ok buf t t').mp hok).1 p hp
  unfold parseToken at hs
  rw [hmatch] at hs
  exact ⟨s, hs⟩

theorem argSettings_append_cons {s : Setting} (hs : parseArg kernel x.1 x.2 = .ok s) :
    argSettings kernel (pre++x::post) = argSettings kernel pre++s::argSettings kernel post := by
  simp [argSettings, hs, Except.toOption]

theorem mem_argSettings {s : Setting} (hs : s ∈ argSettings kernel post) :
    ∃ y ∈ post, parseArg kernel y.1 y.2 = .ok s := by
  obtain ⟨y, hy, hparse⟩ := List.mem_filterMap.mp hs
  cases hp : parseArg kernel y.1 y.2 with
  | error e =>
      rw [hp] at hparse
      cases hparse
  | ok s' =>
      rw [hp] at hparse
      cases hparse
      exact ⟨y, hy, hp⟩

/-- The target holds an identifier if no later option shares the field with it. -/
theorem holds_of_last_writer {s : Setting} (hok : srpParseOptions kernel buf t = .ok t')
    (hargs : arguments kernel buf = pre++x::post) (hpost : ∀ y ∈ post, ¬ Shares y.1 x.1)
    (hs : parseArg kernel x.1 x.2 = .ok s) (hdenotes : Denotes s x.2) :
    Holds kernel t' x.1 x.2 := by
  have hlater : ∀ r ∈ argSettings kernel post, ¬ Shares r.opt x.1 := by
    intro r hr
    obtain ⟨y, hy, hparse⟩ := mem_argSettings hr
    rw [parseArg_opt hparse]
    exact hpost y hy
  obtain ⟨_, mask, hfold, _⟩ := (srpParseOptions_eq_ok buf t t').mp hok
  rw [settings_eq_argSettings, hargs, argSettings_append_cons hs, List.foldl_append,
    List.foldl_cons] at hfold
  have hstored := holds_step kernel ((argSettings kernel pre).foldl (step kernel) (0, t)) hdenotes
  rw [parseArg_opt hs] at hstored
  have hkept := holds_foldl_of_not_shares (argSettings kernel post) hlater _ hstored
  rw [hfold] at hkept
  exact hkept

theorem exists_last {opt : Opt} {args : List (Opt × List Char)} (h : ∃ y ∈ args, y.1 = opt) :
    ∃ pre arg post, args = pre++(opt, arg)::post ∧ ∀ z ∈ post, z.1 ≠ opt := by
  induction args with
  | nil =>
      obtain ⟨y, hy, _⟩ := h
      cases hy
  | cons x args ih =>
      by_cases hlater : ∃ y ∈ args, y.1 = opt
      · obtain ⟨pre, arg, post, rfl, hpost⟩ := ih hlater
        exact ⟨x::pre, arg, post, rfl, hpost⟩
      · obtain ⟨y, hy, rfl⟩ := h
        rcases List.mem_cons.mp hy with rfl | hmem
        · exact ⟨[], y.2, args, rfl, fun z hz heq => hlater ⟨z, hz, heq⟩⟩
        · exact absurd ⟨y, hmem, rfl⟩ hlater

/-- If the bytes of the union are those of the service ID and of the destination alike, the
target holds both or none. -/
theorem holds_serviceId_iff {service dest : List Char} {n : ℕ} {addr : BitVec 32}
    {port : BitVec 16} (hn : n < 2^64) (hservice : hexNumeral service = some n)
    (hdest : IsDest dest addr port) (hsame : bigEndian 8 n = sockaddrIn kernel addr port) :
    Holds kernel t .serviceId service ↔ Holds kernel t .ipDest dest := by
  have hmod : n % 256^8 = n := Nat.mod_eq_of_lt hn
  constructor
  · intro h
    rw [Holds, hservice, Option.some.injEq] at h
    have hbytes := ByteBuffer.bigEndian_value (load t.cm 0 8)
    rw [ByteBuffer.load_length] at hbytes
    refine ⟨addr, port, hdest, ?_⟩
    rw [← hsame, h]
    exact hbytes.symm
  · rintro ⟨addr', port', hdest', hbytes⟩
    obtain ⟨rfl, rfl⟩ := isDest_unique hdest hdest'
    rw [Holds, loadBe, hbytes, ← hsame, ByteBuffer.value_bigEndian, hmod]
    exact hservice

theorem oneAddress_of_holds (h : ∀ x, IsLast (arguments kernel buf) x → Holds kernel t x.1 x.2) :
    OneAddress kernel (arguments kernel buf) := by
  intro service dest hservice hdest n addr port hn haddr
  have hstart := h _ hservice
  rw [Holds, hn, Option.some.injEq] at hstart
  obtain ⟨addr', port', haddr', hbytes⟩ := h _ hdest
  obtain ⟨rfl, rfl⟩ := isDest_unique haddr haddr'
  have hsame := ByteBuffer.bigEndian_value (load t.cm 0 8)
  rw [ByteBuffer.load_length] at hsame
  rw [hstart, ← hbytes]
  exact hsame

end

section
variable {littleEndian : Bool} {buf arg : List Char} {t t' : Target} {x : Opt × List Char}
  {pre post : List (Opt × List Char)}
variable (hok : srpParseOptions (linuxKernel littleEndian) buf t = .ok t')
  (hread : ∀ x ∈ arguments (linuxKernel littleEndian) buf, ¬ Misread x.1 x.2)
include hok hread

theorem denotes_of_mem (hx : x ∈ arguments (linuxKernel littleEndian) buf) :
    ∃ s, parseArg (linuxKernel littleEndian) x.1 x.2 = .ok s ∧ Denotes s x.2 := by
  obtain ⟨s, hs⟩ := arguments_accepted hok hx
  exact ⟨s, hs, denotes_of_parseArg hs (hread x hx)⟩

theorem documented_of_mem (hx : x ∈ arguments (linuxKernel littleEndian) buf) :
    Documented x.1 x.2 := by
  obtain ⟨s, hs, hdenotes⟩ := denotes_of_mem hok hread hx
  rw [← parseArg_opt hs]
  exact documented_of_denotes hdenotes

theorem holds_of_not_shares (hargs : arguments (linuxKernel littleEndian) buf = pre++x::post)
    (hpost : ∀ y ∈ post, ¬ Shares y.1 x.1) : Holds (linuxKernel littleEndian) t' x.1 x.2 := by
  have hx : x ∈ arguments (linuxKernel littleEndian) buf := by
    rw [hargs]
    exact List.mem_append_right pre List.mem_cons_self
  obtain ⟨s, hs, hdenotes⟩ := denotes_of_mem hok hread hx
  exact holds_of_last_writer hok hargs hpost hs hdenotes

/-- Of a service ID and a destination, the target holds the later one. -/
theorem holds_later {a b : Opt}
    (hab : a = .serviceId ∧ b = .ipDest ∨ a = .ipDest ∧ b = .serviceId)
    (hargs : arguments (linuxKernel littleEndian) buf = pre++(a, arg)::post)
    (hpost : ∀ y ∈ post, y.1 ≠ a) (hlater : ∃ y ∈ post, y.1 = b) :
    ∃ arg', IsLast (arguments (linuxKernel littleEndian) buf) (b, arg') ∧
      Holds (linuxKernel littleEndian) t' b arg' := by
  obtain ⟨mid, arg', last, rfl, hlast⟩ := exists_last hlater
  have hargs' : arguments (linuxKernel littleEndian) buf =
      (pre++(a, arg)::mid)++(b, arg')::last := by simp [hargs]
  refine ⟨arg', ⟨_, last, hargs', hlast⟩, holds_of_not_shares hok hread hargs' ?_⟩
  intro z hz hshares
  have hza : z.1 ≠ a := hpost z (List.mem_append_right mid (List.mem_cons_of_mem _ hz))
  have hzb : z.1 ≠ b := hlast z hz
  rcases hab with ⟨rfl, rfl⟩ | ⟨rfl, rfl⟩
  · rcases hshares with h | ⟨h | h, _⟩
    · exact hzb h
    · exact hza h
    · exact hzb h
  · rcases hshares with h | ⟨h | h, _⟩
    · exact hzb h
    · exact hzb h
    · exact hza h

theorem holds_iff_of_isLast {service dest : List Char}
    (hone : OneAddress (linuxKernel littleEndian) (arguments (linuxKernel littleEndian) buf))
    (hservice : IsLast (arguments (linuxKernel littleEndian) buf) (.serviceId, service))
    (hdest : IsLast (arguments (linuxKernel littleEndian) buf) (.ipDest, dest)) :
    Holds (linuxKernel littleEndian) t' .serviceId service ↔
      Holds (linuxKernel littleEndian) t' .ipDest dest := by
  obtain ⟨n, hn, hnumeral⟩ := documented_of_mem hok hread hservice.mem
  obtain ⟨addr, port, haddr⟩ := documented_of_mem hok hread hdest.mem
  exact holds_serviceId_iff hn hnumeral haddr
    (hone service dest hservice hdest n addr port hnumeral haddr)

/-- Nothing misread, and one address: the target holds what is written last. -/
theorem holds_of_isLast
    (hone : OneAddress (linuxKernel littleEndian) (arguments (linuxKernel littleEndian) buf))
    (hx : IsLast (arguments (linuxKernel littleEndian) buf) x) :
    Holds (linuxKernel littleEndian) t' x.1 x.2 := by
  have hlast := hx
  obtain ⟨pre, post, hargs, hpost⟩ := hx
  obtain ⟨opt, arg⟩ := x
  by_cases hlater : ∃ y ∈ post, Shares y.1 opt
  · obtain ⟨y, hy, heq | ⟨hystart, rfl | rfl⟩⟩ := hlater
    · exact absurd heq (hpost y hy)
    · have hdest : y.1 = .ipDest := hystart.resolve_left (hpost y hy)
      obtain ⟨dest, hlast', hholds⟩ :=
        holds_later hok hread (Or.inl ⟨rfl, rfl⟩) hargs hpost ⟨y, hy, hdest⟩
      exact (holds_iff_of_isLast hok hread hone hlast hlast').mpr hholds
    · have hservice : y.1 = .serviceId := hystart.resolve_right (hpost y hy)
      obtain ⟨service, hlast', hholds⟩ :=
        holds_later hok hread (Or.inr ⟨rfl, rfl⟩) hargs hpost ⟨y, hy, hservice⟩
      exact (holds_iff_of_isLast hok hread hone hlast' hlast).mp hholds
  · exact holds_of_not_shares hok hread hargs fun y hy h => hlater ⟨y, hy, h⟩

end

/-- Let a text be accepted. Its identifiers have the documented form and the target holds
exactly their numbers if and only if no argument is misread and a service ID and a destination
that both stay are the same bytes. -/
theorem login_text_exact_iff (littleEndian : Bool) (buf : List Char) (t t' : Target)
    (hok : srpParseOptions (linuxKernel littleEndian) buf t = .ok t') :
    ParsedExactly (linuxKernel littleEndian) buf t' ↔
      (∀ x ∈ arguments (linuxKernel littleEndian) buf, ¬ Misread x.1 x.2) ∧
        OneAddress (linuxKernel littleEndian) (arguments (linuxKernel littleEndian) buf) := by
  constructor
  · rintro ⟨hdocumented, hholds⟩
    exact ⟨fun x hx => not_misread_of_documented (hdocumented x hx), oneAddress_of_holds hholds⟩
  · rintro ⟨hread, hone⟩
    exact ⟨fun x hx => documented_of_mem hok hread hx,
      fun x hx => holds_of_isLast hok hread hone hx⟩

/-- A text with all identifiers of an InfiniBand target. -/
def loginText : List Char :=
  "id_ext=A1,ioc_guid=0x2,dgid=fe800000000000000002c90200402bd5,pkey=ffff,service_id=3\n".toList

theorem loginText_arguments :
    arguments (linuxKernel true) loginText =
      [(.idExt, "A1".toList), (.iocGuid, "0x2".toList),
       (.dgid, "fe800000000000000002c90200402bd5".toList), (.pkey, "ffff".toList),
       (.serviceId, "3".toList)] := by
  decide +kernel

theorem login_text_exact_ib :
    ∃ t, srpParseOptions (linuxKernel true) loginText (newTarget {} 1024) = .ok t ∧
      ParsedExactly (linuxKernel true) loginText t := by
  have haccepted : (srpParseOptions (linuxKernel true) loginText (newTarget {} 1024)).toOption.map
      (·.idExt) = some 0xA1 := by
    decide +kernel
  obtain ⟨t, hok, _⟩ := OptionOrder.exists_ok haccepted
  refine ⟨t, hok, (login_text_exact_iff true loginText _ t hok).mpr ⟨?_, ?_⟩⟩
  · rw [loginText_arguments]
    simp only [List.forall_mem_cons, Misread]
    refine ⟨?_, ?_, ?_, ?_, ?_, fun x hx => nomatch hx⟩
    · rw [Stray]
      decide +kernel
    · rw [Stray]
      decide +kernel
    · exact not_halfPair_of_digits (List.all_eq_true.mp rfl)
    · rw [Stray]
      decide +kernel
    · rw [Stray]
      decide +kernel
  · intro service dest _ hdest
    have hmem := hdest.mem
    rw [loginText_arguments] at hmem
    simp at hmem

/-- The letter O for the digit 0 in the identifier, and a digit too many in the port. -/
def mistypedText : List Char := "id_ext=2OO5,ioc_guid=2,dest=10.0.0.1:70000".toList

/-- It is accepted, with the identifier 2 and the port 4464. -/
theorem mistyped_text_accepted :
    ∃ t, srpParseOptions (linuxKernel true) mistypedText (newTarget {} 1024) = .ok t ∧
      t.idExt = 2 ∧ loadBe 2 t.cm 2 = 4464 ∧
      ¬ ParsedExactly (linuxKernel true) mistypedText t := by
  have haccepted :
      (srpParseOptions (linuxKernel true) mistypedText (newTarget {} 1024)).toOption.map
        (fun t => (t.idExt, loadBe 2 t.cm 2)) = some (2, 4464) := by
    decide +kernel
  obtain ⟨t, hok, hstored⟩ := OptionOrder.exists_ok haccepted
  obtain ⟨hid, hport⟩ := Prod.mk.inj hstored
  refine ⟨t, hok, hid, hport, ?_⟩
  intro hexact
  have hmem : (.idExt, "2OO5".toList) ∈ arguments (linuxKernel true) mistypedText := by
    decide +kernel
  obtain ⟨n, _, hnumeral⟩ := hexact.1 _ hmem
  have hnone : hexNumeral "2OO5".toList = none := by decide +kernel
  rw [hnone] at hnumeral
  cases hnumeral

end IbSrp.LoginText

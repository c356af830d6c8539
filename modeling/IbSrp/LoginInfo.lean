import IbSrp.LoginHandshake
import IbSrp.OptionOrder
import IbSrp.IdentifierTexts

/-!
# The login information of the target

When the target driver finds a device it prints what an initiator has to write to
`add_target`: the identifiers of the target, the partition key and the service, all of them
made from one GUID. The GID of a port is printed when the port is set up, as the name of
the port.

Here the two drivers meet at this text. Whatever the GUID and the GID are, the parser of
the initiator takes the text, connects to the service that the target listens on and to the
port with this GID, and the login it sends has the names that the target checks.
-/
namespace IbSrp.LoginInfo
open ByteBuffer hiding value
open Numerals TargetOptions KernelText IdentifierTexts LoginHandshake AclNames

/-- The pieces of `id_ext=%016llx,ioc_guid=%016llx,pkey=ffff,service_id=%016llx`. -/
def loginPieces (guid : BitVec 64) : List (List Char) :=
  ["id_ext=".toList++numeral 16 16 guid.toNat, "ioc_guid=".toList++numeral 16 16 guid.toNat,
    "pkey=ffff".toList, "service_id=".toList++numeral 16 16 guid.toNat]

def loginInfo (guid : BitVec 64) : List Char := [','].intercalate (loginPieces guid)

/-- The GID in the name of a port, `0x%016llx%016llx` without the mark. -/
def gidText (gid : List Byte) : List Char := skipMark (sessName gid)

def addTarget (guid : BitVec 64) (gid : List Byte) : List Char :=
  loginInfo guid++",dgid=".toList++gidText gid

theorem no_separator_numeral (w v : ℕ) : ∀ c ∈ numeral 16 w v, isSeparator c = false := by
  intro c hc
  have hrange := toNat_of_digitVal (digitVal_of_isDigit (isDigit_numeral w v c hc))
  unfold isSeparator
  have hcomma : c ≠ ',' := by
    rintro rfl
    exact absurd hrange.1 (by decide)
  have hnewline : c ≠ '\n' := by
    rintro rfl
    exact absurd hrange.1 (by decide)
  simp [hcomma, hnewline]

theorem no_separator_name {name : List Char} (h : name.any isSeparator = false) :
    ∀ c ∈ name, isSeparator c = false := by
  simpa [List.any_eq_false] using h

theorem no_separator_append {name cs : List Char} (hname : ∀ c ∈ name, isSeparator c = false)
    (hcs : ∀ c ∈ cs, isSeparator c = false) : ∀ c ∈ name++cs, isSeparator c = false := by
  intro c hc
  cases List.mem_append.mp hc with
  | inl h => exact hname c h
  | inr h => exact hcs c h

theorem gidText_eq (gid : List Byte) :
    gidText gid = numeral 16 16 (ByteBuffer.value (gid.take 8))++
      numeral 16 16 (ByteBuffer.value (gid.drop 8)) := rfl

theorem strsep_cons {p rest : List Char} (h : ∀ c ∈ p, isSeparator c = false) :
    strsep (p++ ','::rest) = p::strsep rest :=
  List.splitOnP_append_cons_of_forall_mem (by simpa using h) ',' rfl _

theorem strsep_single {p : List Char} (h : ∀ c ∈ p, isSeparator c = false) : strsep p = [p] :=
  List.splitOnP_eq_singleton (by simpa using h)

theorem options_addTarget (guid : BitVec 64) (gid : List Byte) :
    options (addTarget guid gid) = loginPieces guid++["dgid=".toList++gidText gid] := by
  have hdigits := no_separator_numeral 16 guid.toNat
  have hgid : ∀ c ∈ gidText gid, isSeparator c = false :=
    no_separator_append (no_separator_numeral 16 _) (no_separator_numeral 16 _)
  have htext : addTarget guid gid = ("id_ext=".toList++numeral 16 16 guid.toNat)++ ','::
      (("ioc_guid=".toList++numeral 16 16 guid.toNat)++ ','::("pkey=ffff".toList++ ','::
        (("service_id=".toList++numeral 16 16 guid.toNat)++ ','::
          ("dgid=".toList++gidText gid)))) := by
    simp [addTarget, loginInfo, loginPieces, List.intercalate]
  unfold options
  rw [htext, strsep_cons (no_separator_append (no_separator_name (by decide)) hdigits),
    strsep_cons (no_separator_append (no_separator_name (by decide)) hdigits),
    strsep_cons (no_separator_name (by decide)),
    strsep_cons (no_separator_append (no_separator_name (by decide)) hdigits),
    strsep_single (no_separator_append (no_separator_name (by decide)) hgid)]
  simp [loginPieces]

/-- The options of the text that `match_token` gives with the rest of the piece. -/
def identifierNames : List (Opt × String) :=
  [(.idExt, "id_ext="), (.iocGuid, "ioc_guid="), (.serviceId, "service_id="), (.dgid, "dgid=")]

theorem matchToken_identifier {opt : Opt} {name : String} (h : (opt, name) ∈ identifierNames)
    {cs : List Char} (hne : cs ≠ []) (littleEndian : Bool) :
    matchToken (linuxKernel littleEndian) (name.toList++cs) = some (opt, cs) := by
  cases cs with
  | nil => exact absurd rfl hne
  | cons c cs =>
      simp only [identifierNames, List.mem_cons, List.not_mem_nil, or_false] at h
      rcases h with h | h | h | h <;> cases h <;> rfl

theorem parseToken_identifier {opt : Opt} {name : String} (h : (opt, name) ∈ identifierNames)
    {cs : List Char} (hne : cs ≠ []) (littleEndian : Bool) :
    parseToken (linuxKernel littleEndian) (name.toList++cs) =
      parseArg (linuxKernel littleEndian) opt cs := by
  unfold parseToken
  rw [matchToken_identifier h hne]

theorem parseToken_pkey (littleEndian : Bool) :
    parseToken (linuxKernel littleEndian) "pkey=ffff".toList = .ok (.pkey 0xffff) := by
  cases littleEndian <;> rfl

theorem hexBody_of_digits {cs : List Char} (h : ∀ c ∈ cs, isDigit 16 c = true) :
    hexBody cs = cs := by
  unfold hexBody
  split
  · rename_i x cs'
    have hx := h x (by simp)
    rw [if_neg]
    rintro (rfl | rfl)
    · exact absurd hx (by decide)
    · exact absurd hx (by decide)
  · rfl

theorem numeral_ne_nil {w v : ℕ} (hw : w ≠ 0) : numeral 16 w v ≠ [] := by
  intro hnil
  have hlen : (numeral 16 w v).length = w := numeral_length w v
  rw [hnil] at hlen
  exact hw hlen.symm

theorem simpleStrtoull_numeral (guid : BitVec 64) :
    (simpleStrtoull 16 (numeral 16 16 guid.toNat)).1 = guid := by
  have hdigits := isDigit_numeral 16 guid.toNat
  have hlt : guid.toNat < 16^16 := guid.isLt
  rw [simpleStrtoull_hex_of_digits (by rwa [hexBody_of_digits hdigits]),
    hexBody_of_digits hdigits, value_numeral, Nat.mod_eq_of_lt hlt, BitVec.ofNat_toNat,
    BitVec.setWidth_eq]

theorem isDigit_gidText (gid : List Byte) : ∀ c ∈ gidText gid, isDigit 16 c = true :=
  (wellFormed_sessName gid).digits

theorem gidText_length (gid : List Byte) : (gidText gid).length = 32 := by
  rw [gidText_eq, List.length_append, numeral_length, numeral_length]

theorem hexPairs_eq_hex2bin (n : ℕ) : ∀ {cs : List Char}, cs.length = 2*n →
    (∀ c ∈ cs, isDigit 16 c = true) → hexPairs cs = hex2bin n cs := by
  induction n with
  | zero =>
      intro cs hlen _
      rw [List.eq_nil_of_length_eq_zero hlen]
      rfl
  | succ n ih =>
      intro cs hlen hdigits
      match cs with
      | [] => simp at hlen
      | [_] => simp at hlen; omega
      | c::d::cs =>
          have hc := digitVal_of_isDigit (hdigits c (by simp))
          have hd := digitVal_of_isDigit (hdigits d (by simp))
          have hrest : cs.length = 2*n := by simpa [Nat.mul_add] using hlen
          have hpair : value 16 [c, d] = 16*digit c+digit d := by
            simp only [value, List.foldl_cons, List.foldl_nil]
            omega
          simp only [hexPairs, hex2bin, hc, hd, hpair]
          rw [ih hrest fun e he => hdigits e (by simp [he])]

theorem hexPairs_gidText {gid : List Byte} (hlen : gid.length = 16) :
    hexPairs (gidText gid) = gid := by
  have hlength : (gidText gid).length = 2*16 := gidText_length gid
  have hdigits := isDigit_gidText gid
  rw [hexPairs_eq_hex2bin 16 hlength hdigits, hex2bin_eq hlength hdigits]
  unfold gidText
  rw [value_sessName hlen, ← hlen, bigEndian_value]

theorem sscanfHhx_isSome {c d : Char} (hc : isDigit 16 c = true) : (sscanfHhx [c, d]).isSome := by
  have hskip : [c, d].dropWhile isSpace = [c, d] :=
    List.dropWhile_cons_of_neg (by simp [isSpace_of_isDigit hc])
  unfold sscanfHhx sscanfNumber
  rw [hskip]
  simp [hc]

theorem gidArg_gidText {gid : List Byte} (hlen : gid.length = 16) (littleEndian : Bool) :
    ∃ raw, gidArg (linuxKernel littleEndian) (gidText gid) = .ok (.dgid raw) ∧
      List.ofFn raw = gid := by
  have hlength := gidText_length gid
  have hdigits := isDigit_gidText gid
  have hsome : ∀ i : Fin 16, (sscanfHhx (((gidText gid).drop (2*i)).take 2)).isSome := by
    intro i
    obtain ⟨c, d, hpair⟩ := pair_at hlength i
    have hc : c ∈ ((gidText gid).drop (2*i)).take 2 := hpair ▸ List.mem_cons_self
    rw [hpair]
    exact sscanfHhx_isSome (hdigits c (List.mem_of_mem_drop (List.mem_of_mem_take hc)))
  have hbytes := (gid_of_pairs hlength (not_halfPair_of_digits hdigits) hsome).2
  refine ⟨_, ?_, hbytes.trans (hexPairs_gidText hlen)⟩
  unfold gidArg
  rw [if_neg (by simp [hlength])]
  exact if_pos hsome

theorem gidText_ne_nil (gid : List Byte) : gidText gid ≠ [] := by
  intro hnil
  have hlength := gidText_length gid
  rw [hnil] at hlength
  cases hlength

section
variable (guid : BitVec 64) (littleEndian : Bool)

theorem linuxKernel_simpleStrtoull (cp : List Char) :
    (linuxKernel littleEndian).simpleStrtoull cp = (simpleStrtoull 16 cp).1 := rfl

theorem parseToken_idExt :
    parseToken (linuxKernel littleEndian) ("id_ext=".toList++numeral 16 16 guid.toNat) =
      .ok (.idExt guid) := by
  have hname : (Opt.idExt, "id_ext=") ∈ identifierNames := by decide
  rw [parseToken_identifier hname (numeral_ne_nil (by decide)), parseArg,
    linuxKernel_simpleStrtoull, simpleStrtoull_numeral]

theorem parseToken_iocGuid :
    parseToken (linuxKernel littleEndian) ("ioc_guid=".toList++numeral 16 16 guid.toNat) =
      .ok (.iocGuid guid) := by
  have hname : (Opt.iocGuid, "ioc_guid=") ∈ identifierNames := by decide
  rw [parseToken_identifier hname (numeral_ne_nil (by decide)), parseArg,
    linuxKernel_simpleStrtoull, simpleStrtoull_numeral]

theorem parseToken_serviceId :
    parseToken (linuxKernel littleEndian) ("service_id=".toList++numeral 16 16 guid.toNat) =
      .ok (.serviceId guid) := by
  have hname : (Opt.serviceId, "service_id=") ∈ identifierNames := by decide
  rw [parseToken_identifier hname (numeral_ne_nil (by decide)), parseArg,
    linuxKernel_simpleStrtoull, simpleStrtoull_numeral]

theorem parseToken_dgid {gid : List Byte} (hlen : gid.length = 16) :
    ∃ raw, parseToken (linuxKernel littleEndian) ("dgid=".toList++gidText gid) =
      .ok (.dgid raw) ∧ List.ofFn raw = gid := by
  have hname : (Opt.dgid, "dgid=") ∈ identifierNames := by decide
  rw [parseToken_identifier hname (gidText_ne_nil gid)]
  exact gidArg_gidText hlen littleEndian

/-- The text is accepted, and these are its settings. -/
theorem settings_addTarget {gid : List Byte} (hlen : gid.length = 16) :
    (∀ p ∈ options (addTarget guid gid), ∃ s, parseToken (linuxKernel littleEndian) p = .ok s) ∧
      ∃ raw, List.ofFn raw = gid ∧
        settings (linuxKernel littleEndian) (options (addTarget guid gid)) =
          [.idExt guid, .iocGuid guid, .pkey 0xffff, .serviceId guid, .dgid raw] := by
  have hid := parseToken_idExt guid littleEndian
  have hioc := parseToken_iocGuid guid littleEndian
  have hpkey := parseToken_pkey littleEndian
  have hservice := parseToken_serviceId guid littleEndian
  obtain ⟨raw, hdgid, hraw⟩ := parseToken_dgid littleEndian hlen
  rw [options_addTarget]
  unfold loginPieces
  constructor
  · intro p hp
    simp only [List.cons_append, List.nil_append, List.mem_cons, List.not_mem_nil, or_false] at hp
    rcases hp with rfl | rfl | rfl | rfl | rfl
    · exact ⟨_, hid⟩
    · exact ⟨_, hioc⟩
    · exact ⟨_, hpkey⟩
    · exact ⟨_, hservice⟩
    · exact ⟨_, hdgid⟩
  · refine ⟨raw, hraw, ?_⟩
    simp only [List.cons_append, List.nil_append]
    rw [settings_cons_of_ok hid, settings_cons_of_ok hioc, settings_cons_of_ok hpkey,
      settings_cons_of_ok hservice, settings_cons_of_ok hdgid]
    rfl

end

/-- What a target that is created with this text has to send its login with. -/
def identityOf (t : Target) (interfaceId nodeGuid : BitVec 64) (workarounds : Bool) : Identity where
  idExt := t.idExt
  iocGuid := t.iocGuid
  initiatorExt := t.initiatorExt
  interfaceId := interfaceId
  nodeGuid := nodeGuid
  ioClass := t.ioClass
  topspinWorkarounds := workarounds

theorem parsed_addTarget (littleEndian : Bool) (guid : BitVec 64) {gid : List Byte}
    (hlen : gid.length = 16) (t : Target) :
    ∃ t', srpParseOptions (linuxKernel littleEndian) (addTarget guid gid) t = .ok t' ∧
      t'.toParams = { t.toParams with idExt := guid, iocGuid := guid } ∧
      load t'.cm 0 8 = bigEndian 8 guid.toNat ∧ load t'.cm 8 16 = gid ∧
      load t'.cm 24 2 = [0xff, 0xff] := by
  obtain ⟨hall, raw, hraw, hsettings⟩ := settings_addTarget guid littleEndian hlen
  generalize hfinal : (settings (linuxKernel littleEndian) (options (addTarget guid gid))).foldl
    (step (linuxKernel littleEndian)) (0, t) = final
  have hok : srpParseOptions (linuxKernel littleEndian) (addTarget guid gid) t = .ok final.2 := by
    apply (srpParseOptions_eq_ok _ _ _).mpr
    have hmask : final.1 = 0 ||| Opt.idExt.bit ||| Opt.iocGuid.bit ||| Opt.pkey.bit |||
        Opt.serviceId.bit ||| Opt.dgid.bit := by
      rw [← hfinal, hsettings]
      rfl
    exact ⟨hall, final.1, hfinal, _, List.mem_cons_self, by rw [hmask]; decide⟩
  have hcm : final.2.cm = store (store (store t.cm 24 (bigEndian 2 0xffff)) 0
      (bigEndian 8 guid.toNat)) 8 (List.ofFn raw) := by
    rw [← hfinal, hsettings]
    rfl
  refine ⟨final.2, hok, ?_, ?_, ?_, ?_⟩
  · rw [← hfinal, hsettings]
    rfl
  · rw [hcm, load_store_of_disjoint _ _ (Or.inl (by decide)), load_store _ _ (by simp),
      List.take_of_length_le (by simp)]
  · rw [hcm, load_store _ _ (by rw [hraw, hlen]), hraw, List.take_of_length_le (by omega)]
  · rw [hcm, load_store_of_disjoint _ _ (Or.inr (by rw [hraw, hlen])),
      load_store_of_disjoint _ _ (Or.inr (by simp)), load_store _ _ (by decide)]
    decide

/-- The text that the target prints leads to the target, and sets nothing else. The initiator
connects to the service that the target listens on, at the port with the GID, and with the
default partition key; and its login is accepted if its requests fit and the initiator has
been admitted. -/
theorem login_info_connects (littleEndian : Bool) (guid : BitVec 64) {gid : List Byte}
    (hlen : gid.length = 16) (params : TargetLimits.ModuleParams) (maxSectors : ℤ) :
    ∃ t, srpParseOptions (linuxKernel littleEndian) (addTarget guid gid)
        (newTarget params maxSectors) = .ok t ∧
      t.toParams = { (newTarget params maxSectors).toParams with idExt := guid, iocGuid := guid } ∧
      load t.cm 0 8 = bigEndian 8 guid.toNat ∧ load t.cm 8 16 = gid ∧
      load t.cm 24 2 = [0xff, 0xff] ∧
      ∀ (interfaceId nodeGuid : BitVec 64) (workarounds multich : Bool)
        (target : Channel.SrpTargetPort) (maxReqSize : ℕ) (port : SrptPort) (stack : List Byte)
        (chs : List Listed),
        maxReqSize < 2^32 → CommandGather.maxIuLen target ≤ maxReqSize → port.enabled = true →
        stack.length = 16 →
        (∀ n ∈ port.aclNames, WellFormed n) →
        (∃ n ∈ port.aclNames, value 16 (skipMark n) =
          ByteBuffer.value (identityOf t interfaceId nodeGuid workarounds).initiatorPortId) →
        ∃ m login, (srptCmReqRecv ⟨maxReqSize, guid⟩ port {} stack chs
          (srpSendReq target (identityOf t interfaceId nodeGuid workarounds) multich)).answer =
            .rep m login := by
  obtain ⟨t, hok, hparams, hservice, hgid, hpkey⟩ :=
    parsed_addTarget littleEndian guid hlen (newTarget params maxSectors)
  refine ⟨t, hok, hparams, hservice, hgid, hpkey, ?_⟩
  intro interfaceId nodeGuid workarounds multich target maxReqSize port stack chs hmax hfits
    henabled hstack hnames hname
  have hid : t.idExt = guid := by rw [hparams]
  have hioc : t.iocGuid = guid := by rw [hparams]
  have haccepts := (accepts_iff (Nat.lt_of_le_of_lt hfits hmax)
    (identityOf t interfaceId nodeGuid workarounds) multich ⟨maxReqSize, guid⟩ hnames hstack).mpr
      ⟨hfits, henabled, hid, hioc, hname⟩
  exact ⟨_, _, rep_of_accepts haccepts⟩

/-- The GID of a port with the default subnet. -/
def oneGid : List Byte := bigEndian 8 0xfe80000000000000++bigEndian 8 0x0002c90300000002

theorem login_info_connects_one : ∃ t,
    srpParseOptions (linuxKernel true) (addTarget 0x0002c90300000001 oneGid) (newTarget {} 1024) =
      .ok t ∧ ∃ m login, (srptCmReqRecv ⟨4148, 0x0002c90300000001⟩ oneAcl {}
        (List.replicate 16 0xff) [] (srpSendReq ChannelSystem.smallTarget
          (identityOf t 0x0002c90300000011 0 false) true)).answer = .rep m login := by
  obtain ⟨t, hok, hparams, _, _, _, hlogin⟩ :=
    login_info_connects true 0x0002c90300000001 (show oneGid.length = 16 by decide) {} 1024
  have hidentity : identityOf t 0x0002c90300000011 0 false =
      { oneInitiator with nodeGuid := 0, topspinWorkarounds := false } := by
    simp only [identityOf, hparams]
    rfl
  refine ⟨t, hok, hlogin _ _ _ _ _ _ _ _ _ (by decide) (by decide) rfl (by simp)
    wellFormed_oneAcl ⟨_, List.mem_singleton_self _, ?_⟩⟩
  rw [hidentity]
  decide

end IbSrp.LoginInfo

import IbSrp.ByteBuffer
import IbSrp.Channel
import IbSrp.TargetLimits

/-!
# The options of a target creation request

A target is created by writing options to a sysfs attribute. `srp_parse_options` cuts
the text at commas and newlines, skips empty pieces, and looks each piece up in
`srp_opt_tokens`. It collects the options seen in a mask, checks the argument of the
option, and stores it. In the end one of two sets of options must have been seen: those
of an InfiniBand destination or those of an IP destination.

The parsing functions of the kernel are given: they say which arguments a conversion
of `match_token` accepts and what the number functions make of them. All memory
allocations succeed. The addresses of the two kinds of destination are in a union, of
which the model has the bytes. The arguments that the options store in fields of
other integer types are kept as the numbers they are; the size of the queue is
computed as an `int`.
-/
namespace IbSrp.TargetOptions
open ByteBuffer TargetLimits
open Channel (srpRspSqSize srpTskMgmtSqSize)

/-- The options, `SRP_OPT_ID_EXT` to `SRP_OPT_IP_DEST` -/
inductive Opt where
  | idExt | iocGuid | dgid | pkey | serviceId | maxSect | maxCmdPerLun | ioClass | initiatorExt
  | cmdSgEntries | allowExtSg | sgTablesize | compVector | tlRetryCount | queueSize | ipDest
deriving DecidableEq, Repr

def Opt.bit : Opt → ℕ
  | .idExt => 1 <<< 0
  | .iocGuid => 1 <<< 1
  | .dgid => 1 <<< 2
  | .pkey => 1 <<< 3
  | .serviceId => 1 <<< 4
  | .maxSect => 1 <<< 5
  | .maxCmdPerLun => 1 <<< 6
  | .ioClass => 1 <<< 7
  | .initiatorExt => 1 <<< 8
  | .cmdSgEntries => 1 <<< 9
  | .allowExtSg => 1 <<< 10
  | .sgTablesize => 1 <<< 11
  | .compVector => 1 <<< 12
  | .tlRetryCount => 1 <<< 13
  | .queueSize => 1 <<< 14
  | .ipDest => 1 <<< 15

/-- The conversions of the patterns: `%s`, `%d`, `%x` and `%u` -/
inductive Conversion where
  | str | dec | hex | unsigned
deriving DecidableEq, Repr

/-- `srp_opt_tokens`: each option, the text before its argument, and the conversion -/
def srpOptTokens : List (Opt × String × Conversion) :=
  [(.idExt, "id_ext=", .str),
   (.iocGuid, "ioc_guid=", .str),
   (.dgid, "dgid=", .str),
   (.pkey, "pkey=", .hex),
   (.serviceId, "service_id=", .str),
   (.maxSect, "max_sect=", .dec),
   (.maxCmdPerLun, "max_cmd_per_lun=", .dec),
   (.ioClass, "io_class=", .hex),
   (.initiatorExt, "initiator_ext=", .str),
   (.cmdSgEntries, "cmd_sg_entries=", .unsigned),
   (.allowExtSg, "allow_ext_sg=", .unsigned),
   (.sgTablesize, "sg_tablesize=", .unsigned),
   (.compVector, "comp_vector=", .unsigned),
   (.tlRetryCount, "tl_retry_count=", .unsigned),
   (.queueSize, "queue_size=", .dec),
   (.ipDest, "dest=", .str)]

def srpOptMandatory : List ℕ :=
  [Opt.idExt.bit ||| Opt.iocGuid.bit ||| Opt.dgid.bit ||| Opt.pkey.bit ||| Opt.serviceId.bit,
   Opt.idExt.bit ||| Opt.iocGuid.bit ||| Opt.ipDest.bit]

/-- The functions of the kernel that the parser calls, and the byte order. `match_int` stores
an `int`. -/
structure Kernel where
  accepts : Conversion → List Char → Bool
  matchInt : List Char → Option ℤ
  matchHex : List Char → Option ℤ
  simpleStrtoull : List Char → BitVec 64
  sscanfHhx : List Char → Option Byte
  in4Pton : List Char → Option (BitVec 32 × List Char)
  sscanfPort : List Char → Option (BitVec 16)
  littleEndian : Bool
  matchInt_lt : ∀ {arg token}, matchInt arg = some token → token < 2^31

/-- Why a request is refused. The function returns `-EINVAL` for each of them. -/
inductive ParseError where
  | badParameter (opt : Opt)
  | unknownIoClass (token : ℤ)
  | unknownParameter
  | missingParameters
deriving DecidableEq, Repr

/-- What an accepted option has the parser store. -/
inductive Setting where
  | idExt (v : BitVec 64)
  | iocGuid (v : BitVec 64)
  | dgid (raw : Fin 16 → Byte)
  | pkey (token : ℤ)
  | serviceId (v : BitVec 64)
  | maxSect (token : ℤ)
  | maxCmdPerLun (token : ℤ)
  | ioClass (token : ℤ)
  | initiatorExt (v : BitVec 64)
  | cmdSgEntries (token : ℤ)
  | allowExtSg (token : ℤ)
  | sgTablesize (token : ℤ)
  | compVector (token : ℤ)
  | tlRetryCount (token : ℤ)
  | queueSize (token : ℤ)
  | ipDest (addr : BitVec 32) (port : BitVec 16)

def Setting.opt : Setting → Opt
  | .idExt _ => .idExt
  | .iocGuid _ => .iocGuid
  | .dgid _ => .dgid
  | .pkey _ => .pkey
  | .serviceId _ => .serviceId
  | .maxSect _ => .maxSect
  | .maxCmdPerLun _ => .maxCmdPerLun
  | .ioClass _ => .ioClass
  | .initiatorExt _ => .initiatorExt
  | .cmdSgEntries _ => .cmdSgEntries
  | .allowExtSg _ => .allowExtSg
  | .sgTablesize _ => .sgTablesize
  | .compVector _ => .compVector
  | .tlRetryCount _ => .tlRetryCount
  | .queueSize _ => .queueSize
  | .ipDest _ _ => .ipDest

def matchToken (kernel : Kernel) (p : List Char) : Option (Opt × List Char) :=
  srpOptTokens.findSome? fun (opt, name, conv) =>
    if name.toList.isPrefixOf p && kernel.accepts conv (p.drop name.toList.length) then
      some (opt, p.drop name.toList.length)
    else none

/-- The arguments read with `match_int`, which differ in the numbers they admit. -/
def intArg (kernel : Kernel) (opt : Opt) (admits : ℤ → Bool) (setting : ℤ → Setting)
    (arg : List Char) : Except ParseError Setting :=
  match kernel.matchInt arg with
  | none => .error (.badParameter opt)
  | some token => if admits token then .ok (setting token) else .error (.badParameter opt)

/-- The 16 pairs of digits of a GID. -/
def gidArg (kernel : Kernel) (arg : List Char) : Except ParseError Setting :=
  if arg.length ≠ 32 then .error (.badParameter .dgid)
  else if ∀ i : Fin 16, (kernel.sscanfHhx ((arg.drop (2*i)).take 2)).isSome then
    .ok (.dgid fun i => (kernel.sscanfHhx ((arg.drop (2*i)).take 2)).getD 0)
  else .error (.badParameter .dgid)

def srpParseIn (kernel : Kernel) (p : List Char) : Option (BitVec 32 × BitVec 16) :=
  match kernel.in4Pton p with
  | none => none
  | some (addr, dstPortStr) => (kernel.sscanfPort dstPortStr).map fun dstPort => (addr, dstPort)

def srpRev10IbIoClass : ℤ := 0xff00

def srpRev16aIbIoClass : ℤ := 0x0100

/-- The checks of the argument of an option. -/
def parseArg (kernel : Kernel) : Opt → List Char → Except ParseError Setting
  | .idExt, arg => .ok (.idExt (kernel.simpleStrtoull arg))
  | .iocGuid, arg => .ok (.iocGuid (kernel.simpleStrtoull arg))
  | .dgid, arg => gidArg kernel arg
  | .pkey, arg =>
      match kernel.matchHex arg with
      | none => .error (.badParameter .pkey)
      | some token => .ok (.pkey token)
  | .serviceId, arg => .ok (.serviceId (kernel.simpleStrtoull arg))
  | .ipDest, arg =>
      match srpParseIn kernel arg with
      | none => .error (.badParameter .ipDest)
      | some (addr, port) => .ok (.ipDest addr port)
  | .maxSect, arg => intArg kernel .maxSect (fun _ => true) .maxSect arg
  | .queueSize, arg => intArg kernel .queueSize (fun token => 1 ≤ token) .queueSize arg
  | .maxCmdPerLun, arg => intArg kernel .maxCmdPerLun (fun token => 1 ≤ token) .maxCmdPerLun arg
  | .ioClass, arg =>
      match kernel.matchHex arg with
      | none => .error (.badParameter .ioClass)
      | some token =>
          if token ≠ srpRev10IbIoClass ∧ token ≠ srpRev16aIbIoClass then
            .error (.unknownIoClass token)
          else .ok (.ioClass token)
  | .initiatorExt, arg => .ok (.initiatorExt (kernel.simpleStrtoull arg))
  | .cmdSgEntries, arg =>
      intArg kernel .cmdSgEntries (fun token => 1 ≤ token && token ≤ 255) .cmdSgEntries arg
  | .allowExtSg, arg => intArg kernel .allowExtSg (fun _ => true) .allowExtSg arg
  | .sgTablesize, arg =>
      intArg kernel .sgTablesize (fun token => 1 ≤ token && token ≤ scsiMaxSgChainSegments)
        .sgTablesize arg
  | .compVector, arg => intArg kernel .compVector (fun token => 0 ≤ token) .compVector arg
  | .tlRetryCount, arg =>
      intArg kernel .tlRetryCount (fun token => 2 ≤ token && token ≤ 7) .tlRetryCount arg

/-- The fields of the target and the SCSI host that options set, apart from the union. -/
structure Params where
  idExt : BitVec 64 := 0
  iocGuid : BitVec 64 := 0
  initiatorExt : BitVec 64 := 0
  ioClass : ℤ := srpRev16aIbIoClass
  usingRdmaCm : Bool := false
  maxSectors : ℤ
  canQueue : ℤ
  cmdPerLun : ℤ
  queueSize : ℤ
  limits : SgLimits
  compVector : ℤ := 0
  tlRetryCount : ℤ := 2
deriving DecidableEq, Repr

/-- The target with the bytes of its union: `ib_cm` has `service_id` at offset 0, `orig_dgid`
at 8 and `pkey` at 24; `rdma_cm` has the family, the port and the address of `dst` at 0, 2
and 4. -/
structure Target extends Params where
  cm : Buffer := fun _ => 0

def srpDefaultQueueSize : ℤ := 1 <<< 6

def srpDefaultCmdSqSize : ℤ := srpDefaultQueueSize-srpRspSqSize-srpTskMgmtSqSize

/-- The target that `srp_create_target` has the options change, with `max_sectors` as the SCSI
mid-layer sets it. -/
def newTarget (params : ModuleParams) (maxSectors : ℤ) : Target where
  maxSectors := maxSectors
  canQueue := srpDefaultCmdSqSize
  cmdPerLun := srpDefaultCmdSqSize
  queueSize := srpDefaultQueueSize
  limits :=
    { cmdSgCnt := params.cmdSgEntries
      sgTablesize :=
        if params.indirectSgEntries ≠ 0 then params.indirectSgEntries else params.cmdSgEntries
      allowExtSg := params.allowExtSg }

theorem Target.eq_of_parts {t t' : Target} (hparams : t.toParams = t'.toParams)
    (hcm : t.cm = t'.cm) : t = t' := by
  cases t
  cases t'
  cases hparams
  cases hcm
  rfl

/-- The bytes that `srp_parse_in` writes to a `struct sockaddr_in`. -/
def sockaddrIn (kernel : Kernel) (addr : BitVec 32) (port : BitVec 16) : List Byte :=
  (if kernel.littleEndian then [2, 0] else [0, 2]) ++
    (bigEndian 2 port.toNat ++ bigEndian 4 addr.toNat)

/-- The fields that a setting writes; `perLun` says that `max_cmd_per_lun` has been seen. -/
def Setting.assign (perLun : Bool) (t : Params) : Setting → Params
  | .idExt v => { t with idExt := v }
  | .iocGuid v => { t with iocGuid := v }
  | .dgid _ => t
  | .pkey _ => t
  | .serviceId _ => t
  | .ipDest _ _ => { t with usingRdmaCm := true }
  | .maxSect token => { t with maxSectors := token }
  | .queueSize token =>
      { t with
        canQueue := token
        queueSize := (token+srpRspSqSize+srpTskMgmtSqSize).bmod (2^32)
        cmdPerLun := if perLun then t.cmdPerLun else token }
  | .maxCmdPerLun token => { t with cmdPerLun := token }
  | .ioClass token => { t with ioClass := token }
  | .initiatorExt v => { t with initiatorExt := v }
  | .cmdSgEntries token => { t with limits := { t.limits with cmdSgCnt := token.toNat } }
  | .allowExtSg token => { t with limits := { t.limits with allowExtSg := decide (token ≠ 0) } }
  | .sgTablesize token => { t with limits := { t.limits with sgTablesize := token.toNat } }
  | .compVector token => { t with compVector := token }
  | .tlRetryCount token => { t with tlRetryCount := token }

/-- The offset in the union and the bytes that a setting writes there. -/
def Setting.cmBytes (kernel : Kernel) : Setting → Option (ℕ × List Byte)
  | .serviceId v => some (0, bigEndian 8 v.toNat)
  | .dgid raw => some (8, List.ofFn raw)
  | .pkey token => some (24, bigEndian 2 (token % 2^16).toNat)
  | .ipDest addr port => some (0, sockaddrIn kernel addr port)
  | _ => none

def Setting.store (kernel : Kernel) (mask : ℕ) (t : Target) (s : Setting) : Target where
  toParams := s.assign (mask &&& Opt.maxCmdPerLun.bit ≠ 0) t.toParams
  cm := match s.cmBytes kernel with
    | some (off, bytes) => ByteBuffer.store t.cm off bytes
    | none => t.cm

/-- The mask and the target after an option. -/
def step (kernel : Kernel) (x : ℕ × Target) (s : Setting) : ℕ × Target :=
  let mask := x.1 ||| s.opt.bit
  (mask, s.store kernel mask x.2)

section
variable {kernel : Kernel} {s : Setting}

theorem step_cm {off : ℕ} {bytes : List Byte} (h : s.cmBytes kernel = some (off, bytes))
    (x : ℕ × Target) : (step kernel x s).2.cm = ByteBuffer.store x.2.cm off bytes := by
  simp only [step, Setting.store, h]

theorem load_step_of_disjoint (x : ℕ × Target) {off n : ℕ}
    (h : ∀ w ∈ s.cmBytes kernel, off+n ≤ w.1 ∨ w.1+w.2.length ≤ off) :
    load (step kernel x s).2.cm off n = load x.2.cm off n := by
  simp only [step, Setting.store]
  cases hw : s.cmBytes kernel with
  | none => rfl
  | some w => exact load_store_of_disjoint _ _ (h w hw)

end

def parseToken (kernel : Kernel) (p : List Char) : Except ParseError Setting :=
  match matchToken kernel p with
  | none => .error .unknownParameter
  | some (opt, arg) => parseArg kernel opt arg

def parseTokens (kernel : Kernel) : List (List Char) → ℕ × Target → Except ParseError (ℕ × Target)
  | [], x => .ok x
  | p :: ps, x =>
      if p = [] then parseTokens kernel ps x
      else
        match parseToken kernel p with
        | .error e => .error e
        | .ok s => parseTokens kernel ps (step kernel x s)

def isSeparator (c : Char) : Bool := c = ',' || c = '\n'

def strsep (buf : List Char) : List (List Char) := buf.splitOnP isSeparator

def srpParseOptions (kernel : Kernel) (buf : List Char) (target : Target) :
    Except ParseError Target :=
  match parseTokens kernel (strsep buf) (0, target) with
  | .error e => .error e
  | .ok (mask, target) =>
      if ∃ mandatory ∈ srpOptMandatory, mask &&& mandatory = mandatory then .ok target
      else .error .missingParameters

/-- The options of a text: the pieces that are not empty. -/
def options (buf : List Char) : List (List Char) := (strsep buf).filter (· ≠ [])

/-- What they have the parser store, as far as they are accepted. -/
def settings (kernel : Kernel) (ps : List (List Char)) : List Setting :=
  ps.filterMap fun p => (parseToken kernel p).toOption

section
variable {kernel : Kernel}

theorem settings_cons_of_ok {p : List Char} {s : Setting} (h : parseToken kernel p = .ok s)
    (ps : List (List Char)) : settings kernel (p :: ps) = s :: settings kernel ps := by
  simp [settings, h, Except.toOption]

theorem mem_settings {ps : List (List Char)} {s : Setting} :
    s ∈ settings kernel ps ↔ ∃ p ∈ ps, parseToken kernel p = .ok s := by
  unfold settings
  rw [List.mem_filterMap]
  refine exists_congr fun p => and_congr_right fun _ => ?_
  cases parseToken kernel p <;> simp [Except.toOption]

/-- The loop succeeds if every option is accepted by itself, and then stores one setting after
the other. -/
theorem parseTokens_eq_ok (ps : List (List Char)) : ∀ x r,
    parseTokens kernel ps x = .ok r ↔
      (∀ p ∈ ps.filter (· ≠ []), ∃ s, parseToken kernel p = .ok s) ∧
        (settings kernel (ps.filter (· ≠ []))).foldl (step kernel) x = r := by
  induction ps with
  | nil =>
      intro x r
      simp [parseTokens, settings]
  | cons p ps ih =>
      intro x r
      by_cases hp : p = []
      · rw [List.filter_cons_of_neg (by simp [hp])]
        simp only [parseTokens, if_pos hp]
        exact ih x r
      · rw [List.filter_cons_of_pos (by simp [hp])]
        simp only [parseTokens, if_neg hp, List.forall_mem_cons]
        cases hs : parseToken kernel p with
        | error e => simp
        | ok s =>
            rw [settings_cons_of_ok hs, List.foldl_cons, and_assoc]
            simp only [Except.ok.injEq, exists_eq', true_and]
            exact ih (step kernel x s) r

theorem srpParseOptions_eq_ok (buf : List Char) (t t' : Target) :
    srpParseOptions kernel buf t = .ok t' ↔
      (∀ p ∈ options buf, ∃ s, parseToken kernel p = .ok s) ∧
        ∃ mask, (settings kernel (options buf)).foldl (step kernel) (0, t) = (mask, t') ∧
          ∃ mandatory ∈ srpOptMandatory, mask &&& mandatory = mandatory := by
  unfold srpParseOptions
  cases hp : parseTokens kernel (strsep buf) (0, t) with
  | error e =>
      have hno : ¬ ∀ p ∈ options buf, ∃ s, parseToken kernel p = .ok s := by
        intro hall
        have hok := (parseTokens_eq_ok (strsep buf) (0, t) _).mpr ⟨hall, rfl⟩
        rw [hp] at hok
        cases hok
      simp [hno]
  | ok r =>
      obtain ⟨hall, hr⟩ := (parseTokens_eq_ok (strsep buf) (0, t) r).mp hp
      change (settings kernel (options buf)).foldl (step kernel) (0, t) = r at hr
      change ∀ p ∈ options buf, ∃ s, parseToken kernel p = .ok s at hall
      obtain ⟨mask, t₁⟩ := r
      simp only [hr, Prod.mk.injEq]
      split_ifs with hm
      · simp only [Except.ok.injEq]
        constructor
        · intro he
          exact ⟨hall, mask, ⟨rfl, he⟩, hm⟩
        · rintro ⟨_, _, ⟨_, he⟩, _⟩
          exact he
      · constructor
        · intro he
          cases he
        · rintro ⟨_, mask', ⟨hmask, _⟩, hm'⟩
          rw [← hmask] at hm'
          exact absurd hm' hm

end

/-- The numbers that the checks let through. -/
def Setting.Admissible : Setting → Prop
  | .queueSize token => 1 ≤ token ∧ token < 2^31
  | .maxCmdPerLun token => 1 ≤ token
  | .ioClass token => token = srpRev10IbIoClass ∨ token = srpRev16aIbIoClass
  | .cmdSgEntries token => 1 ≤ token ∧ token ≤ 255
  | .sgTablesize token => 1 ≤ token ∧ token ≤ scsiMaxSgChainSegments
  | .compVector token => 0 ≤ token
  | .tlRetryCount token => 2 ≤ token ∧ token ≤ 7
  | _ => True

section
variable {kernel : Kernel}

theorem intArg_ok {opt : Opt} {admits : ℤ → Bool} {setting : ℤ → Setting} {arg : List Char}
    {s : Setting} (h : intArg kernel opt admits setting arg = .ok s) :
    ∃ token, kernel.matchInt arg = some token ∧ admits token = true ∧ s = setting token := by
  unfold intArg at h
  cases htoken : kernel.matchInt arg with
  | none =>
      rw [htoken] at h
      cases h
  | some token =>
      rw [htoken] at h
      simp only at h
      split_ifs at h with hadmits
      cases h
      exact ⟨token, rfl, hadmits, rfl⟩

theorem parseArg_opt {opt : Opt} {arg : List Char} {s : Setting}
    (h : parseArg kernel opt arg = .ok s) : s.opt = opt := by
  cases opt with
  | idExt | iocGuid | serviceId | initiatorExt =>
      cases h
      rfl
  | dgid =>
      simp only [parseArg, gidArg] at h
      split_ifs at h
      cases h
      rfl
  | pkey | ipDest =>
      simp only [parseArg] at h
      split at h <;> cases h
      rfl
  | ioClass =>
      simp only [parseArg] at h
      split at h
      · cases h
      · split_ifs at h
        cases h
        rfl
  | _ =>
      obtain ⟨token, _, _, rfl⟩ := intArg_ok h
      rfl

theorem parseArg_admissible {opt : Opt} {arg : List Char} {s : Setting}
    (h : parseArg kernel opt arg = .ok s) : s.Admissible := by
  cases opt with
  | idExt | iocGuid | serviceId | initiatorExt =>
      cases h
      trivial
  | dgid =>
      simp only [parseArg, gidArg] at h
      split_ifs at h
      cases h
      trivial
  | pkey =>
      simp only [parseArg] at h
      split at h <;> cases h
      trivial
  | ipDest =>
      simp only [parseArg] at h
      split at h <;> cases h
      trivial
  | ioClass =>
      simp only [parseArg] at h
      split at h
      · cases h
      · split_ifs at h with hclass
        cases h
        unfold Setting.Admissible
        by_contra hne
        exact hclass (not_or.mp hne)
  | maxSect | allowExtSg =>
      obtain ⟨token, _, _, rfl⟩ := intArg_ok h
      trivial
  | queueSize =>
      obtain ⟨token, htoken, hadmits, rfl⟩ := intArg_ok h
      exact ⟨by simpa using hadmits, kernel.matchInt_lt htoken⟩
  | maxCmdPerLun | compVector =>
      obtain ⟨token, _, hadmits, rfl⟩ := intArg_ok h
      simpa [Setting.Admissible] using hadmits
  | cmdSgEntries | sgTablesize | tlRetryCount =>
      obtain ⟨token, _, hadmits, rfl⟩ := intArg_ok h
      simpa [Setting.Admissible] using hadmits

theorem settings_admissible {ps : List (List Char)} {s : Setting} (h : s ∈ settings kernel ps) :
    s.Admissible := by
  obtain ⟨p, _, hs⟩ := mem_settings.mp h
  unfold parseToken at hs
  split at hs
  · cases hs
  · exact parseArg_admissible hs

end

/-- The setting as an option that the limits of scatter/gather lists depend on. -/
def Setting.sgOption : Setting → Option SgOption
  | .cmdSgEntries token => some (.cmdSgEntries (some token))
  | .allowExtSg token => some (.allowExtSg (some token))
  | .sgTablesize token => some (.sgTablesize (some token))
  | _ => none

theorem assign_limits {s : Setting} (h : s.Admissible) (perLun : Bool) (t : Params) :
    s.sgOption.elim (some t.limits) (srpParseOption t.limits) =
      some (s.assign perLun t).limits := by
  cases s with
  | cmdSgEntries token =>
      have hrange : ¬ (token < 1 ∨ 255 < token) := by
        unfold Setting.Admissible at h
        omega
      simp [Setting.sgOption, Setting.assign, srpParseOption, hrange]
  | sgTablesize token =>
      have hrange : ¬ (token < 1 ∨ (scsiMaxSgChainSegments : ℤ) < token) := by
        unfold Setting.Admissible at h
        omega
      simp [Setting.sgOption, Setting.assign, srpParseOption, hrange]
  | _ => rfl

theorem foldl_limits (kernel : Kernel) (ss : List Setting) (h : ∀ s ∈ ss, s.Admissible) :
    ∀ x : ℕ × Target, TargetLimits.srpParseOptions x.2.limits (ss.filterMap Setting.sgOption) =
      some (ss.foldl (step kernel) x).2.limits := by
  induction ss with
  | nil => exact fun x => rfl
  | cons s ss ih =>
      intro x
      rw [List.forall_mem_cons] at h
      have hs := assign_limits h.1 (((x.1 ||| s.opt.bit) &&& Opt.maxCmdPerLun.bit) ≠ 0)
        x.2.toParams
      have hrest := ih h.2 (step kernel x s)
      rw [List.foldl_cons, ← hrest]
      cases ho : s.sgOption with
      | none =>
          rw [ho] at hs
          rw [List.filterMap_cons_none ho]
          exact congrArg (fun l => TargetLimits.srpParseOptions l _) (Option.some.inj hs)
      | some o =>
          rw [ho, Option.elim_some] at hs
          rw [List.filterMap_cons_some ho]
          simp only [TargetLimits.srpParseOptions, List.foldlM_cons, hs, Option.bind_eq_bind,
            Option.bind_some]
          rfl

/-- The limits after a request are those that the options on scatter/gather lists give: all
other options leave them alone. -/
theorem srpParseOptions_limits {kernel : Kernel} {buf : List Char} {t t' : Target}
    (h : srpParseOptions kernel buf t = .ok t') :
    TargetLimits.srpParseOptions t.limits
      ((settings kernel (options buf)).filterMap Setting.sgOption) = some t'.limits := by
  obtain ⟨_, mask, hfold, _⟩ := (srpParseOptions_eq_ok buf t t').mp h
  have hlimits := foldl_limits kernel (settings kernel (options buf))
    (fun s hs => settings_admissible hs) (0, t)
  rw [hfold] at hlimits
  exact hlimits

/-- The number that a numeral stands for. -/
def numeral (base : ℕ) (digit : Char → Option ℕ) : List Char → Option ℕ
  | [] => none
  | cs => cs.foldlM (fun n c => (digit c).map (n*base+·)) 0

def decDigit (c : Char) : Option ℕ := if c.isDigit then some (c.toNat - '0'.toNat) else none

def hexDigit (c : Char) : Option ℕ :=
  if c.isDigit then some (c.toNat - '0'.toNat)
  else if 'a' ≤ c ∧ c ≤ 'f' then some (c.toNat - 'a'.toNat+10) else none

/-- The digits as an `int`, if they fit. -/
def intNumeral (cs : List Char) : Option ℤ :=
  match numeral 10 decDigit cs with
  | some n => if n < 2^31 then some n else none
  | none => none

theorem intNumeral_lt {cs : List Char} {token : ℤ} (h : intNumeral cs = some token) :
    token < 2^31 := by
  unfold intNumeral at h
  split at h
  · split_ifs at h with hn
    cases h
    omega
  · cases h

/-- The parsing functions for plain numerals: digits without sign, without the marks of a base
and without anything after them. -/
def plainKernel : Kernel where
  accepts conv arg := match conv with
    | .str => !arg.isEmpty
    | .hex => (numeral 16 hexDigit arg).isSome
    | _ => (numeral 10 decDigit arg).isSome
  matchInt := intNumeral
  matchHex arg := (numeral 16 hexDigit arg).map (·)
  simpleStrtoull arg := BitVec.ofNat 64 ((numeral 16 hexDigit arg).getD 0)
  sscanfHhx arg := (numeral 16 hexDigit arg).map (BitVec.ofNat 8)
  in4Pton arg := match (arg.takeWhile (· ≠ ':')).splitOn '.' |>.map (numeral 10 decDigit) with
    | [some a, some b, some c, some d] =>
        some (BitVec.ofNat 32 (((a*256+b)*256+c)*256+d), arg.dropWhile (· ≠ ':'))
    | _ => none
  sscanfPort arg := (numeral 10 decDigit (arg.drop 1)).map (BitVec.ofNat 16)
  littleEndian := true
  matchInt_lt := intNumeral_lt

end IbSrp.TargetOptions

import IbSrp.MemoryRegistration

/-!
# The scatter/gather limits of a target

Three parameters decide how many descriptors a request has room for. The module
parameters give their defaults, the options of the target creation request
override them, and `srp_create_target` lowers `sg_tablesize` for an HCA without
memory registration that may not use external descriptors. `srp_alloc_req_data`
then allocates `cmd_sg_cnt` memory descriptors and `indirect_size` bytes of
buffer descriptors for each request, and the SCSI mid-layer is told to build
lists of at most `sg_tablesize` entries.

Only the options that set these parameters appear here. All other options leave
them alone. A token is the value that `match_int` found, if it found one.
-/
namespace IbSrp.TargetLimits
open MemoryRegistration

structure ModuleParams where
  srpSgTablesize : ℕ := 0
  cmdSgEntries : ℕ := 0
  indirectSgEntries : ℕ := 0
  allowExtSg : Bool := false
  preferFr : Bool := false
  registerAlways : Bool := false
deriving DecidableEq, Repr

def srpDefSgTablesize : ℕ := 12

def scsiMaxSgChainSegments : ℕ := 2048

/-- How `srp_init_module` completes the parameters. -/
def srpInitModule (p : ModuleParams) : ModuleParams :=
  let cmd := if p.srpSgTablesize ≠ 0 ∧ p.cmdSgEntries = 0 then p.srpSgTablesize else p.cmdSgEntries
  let cmd := if cmd = 0 then srpDefSgTablesize else cmd
  let cmd := if 255 < cmd then 255 else cmd
  let indirect :=
    if p.indirectSgEntries = 0 then cmd
    else if p.indirectSgEntries < cmd then cmd else p.indirectSgEntries
  { p with cmdSgEntries := cmd, indirectSgEntries := indirect }

structure SgLimits where
  cmdSgCnt : ℕ
  sgTablesize : ℕ
  allowExtSg : Bool
deriving DecidableEq, Repr

namespace SgLimits

def directBufSize : ℕ := 16

/-- `indirect_size`, an `unsigned int` -/
def indirectSize (l : SgLimits) : ℕ := l.sgTablesize*directBufSize % 2^32

/-- The number of descriptors `req->indirect_desc` has room for. -/
def indirectDescs (l : SgLimits) : ℕ := l.indirectSize / directBufSize

theorem indirectDescs_eq (l : SgLimits) : l.indirectDescs = l.sgTablesize % 2^28 := by
  unfold indirectDescs indirectSize directBufSize
  omega

end SgLimits

inductive SgOption where
  | cmdSgEntries (token : Option ℤ)
  | allowExtSg (token : Option ℤ)
  | sgTablesize (token : Option ℤ)
deriving DecidableEq, Repr

def srpParseOption (target : SgLimits) : SgOption → Option SgLimits
  | .cmdSgEntries none => none
  | .cmdSgEntries (some token) =>
      if token < 1 ∨ 255 < token then none else some { target with cmdSgCnt := token.toNat }
  | .allowExtSg none => none
  | .allowExtSg (some token) => some { target with allowExtSg := decide (token ≠ 0) }
  | .sgTablesize none => none
  | .sgTablesize (some token) =>
      if token < 1 ∨ (scsiMaxSgChainSegments : ℤ) < token then none
      else some { target with sgTablesize := token.toNat }

def srpParseOptions (target : SgLimits) (options : List SgOption) : Option SgLimits :=
  options.foldlM srpParseOption target

/-- The limits of a new target, or `none` if its options are refused. -/
def srpCreateTarget (p : ModuleParams) (hasFmr hasFr : Bool) (options : List SgOption) :
    Option SgLimits :=
  let target : SgLimits :=
    { cmdSgCnt := p.cmdSgEntries,
      sgTablesize := if p.indirectSgEntries ≠ 0 then p.indirectSgEntries else p.cmdSgEntries,
      allowExtSg := p.allowExtSg }
  (srpParseOptions target options).map fun target =>
    if hasFmr = false ∧ hasFr = false ∧ target.allowExtSg = false ∧
        target.cmdSgCnt < target.sgTablesize then
      { target with sgTablesize := target.cmdSgCnt }
    else target

def SgLimits.Positive (l : SgLimits) : Prop := 0 < l.cmdSgCnt ∧ 0 < l.sgTablesize

theorem srpInitModule_positive (p : ModuleParams) :
    0 < (srpInitModule p).cmdSgEntries ∧ 0 < (srpInitModule p).indirectSgEntries := by
  simp only [srpInitModule, srpDefSgTablesize]
  split_ifs <;> omega

theorem srpParseOption_positive {l l' : SgLimits} {o : SgOption}
    (h : srpParseOption l o = some l') (hpos : l.Positive) : l'.Positive := by
  obtain ⟨hcmd, htab⟩ := hpos
  cases o with
  | cmdSgEntries token =>
      cases token with
      | none => cases h
      | some token =>
          simp only [srpParseOption] at h
          split_ifs at h with hrange
          cases h
          exact ⟨by simp only; omega, htab⟩
  | allowExtSg token =>
      cases token with
      | none => cases h
      | some token =>
          cases h
          exact ⟨hcmd, htab⟩
  | sgTablesize token =>
      cases token with
      | none => cases h
      | some token =>
          simp only [srpParseOption] at h
          split_ifs at h with hrange
          cases h
          exact ⟨hcmd, by simp only; omega⟩

/-- What every option keeps, the options of a request keep. -/
theorem srpParseOptions_keeps {P : SgLimits → Prop}
    (hstep : ∀ {l l' o}, srpParseOption l o = some l' → P l → P l') (options : List SgOption) :
    ∀ {l l' : SgLimits}, srpParseOptions l options = some l' → P l → P l' := by
  induction options with
  | nil =>
      intro l l' h hl
      cases h
      exact hl
  | cons o options ih =>
      intro l l' h hl
      simp only [srpParseOptions, List.foldlM_cons, Option.bind_eq_bind,
        Option.bind_eq_some_iff] at h
      obtain ⟨l₁, ho, hrest⟩ := h
      exact ih hrest (hstep ho hl)

theorem srpCreateTarget_positive {p : ModuleParams} {hasFmr hasFr : Bool}
    {options : List SgOption} {l : SgLimits}
    (h : srpCreateTarget (srpInitModule p) hasFmr hasFr options = some l) : l.Positive := by
  obtain ⟨hcmd, hind⟩ := srpInitModule_positive p
  simp only [srpCreateTarget, Option.map_eq_some_iff] at h
  obtain ⟨l₁, hparse, hl⟩ := h
  have hpos : l₁.Positive := by
    refine srpParseOptions_keeps srpParseOption_positive options hparse ⟨hcmd, ?_⟩
    simp only
    rw [if_pos hind.ne']
    exact hind
  split_ifs at hl with hclamp
  · rw [← hl]
    exact ⟨hpos.1, hpos.1⟩
  · rw [← hl]
    exact hpos

theorem srpInitModule_cmdSgEntries_le (p : ModuleParams) :
    (srpInitModule p).cmdSgEntries ≤ 255 := by
  simp only [srpInitModule, srpDefSgTablesize]
  split_ifs <;> omega

theorem srpParseOption_cmdSgCnt_le {l l' : SgLimits} {o : SgOption}
    (h : srpParseOption l o = some l') (hle : l.cmdSgCnt ≤ 255) : l'.cmdSgCnt ≤ 255 := by
  cases o with
  | cmdSgEntries token =>
      cases token with
      | none => cases h
      | some token =>
          simp only [srpParseOption] at h
          split_ifs at h with hrange
          cases h
          simp only
          omega
  | allowExtSg token =>
      cases token with
      | none => cases h
      | some token =>
          cases h
          exact hle
  | sgTablesize token =>
      cases token with
      | none => cases h
      | some token =>
          simp only [srpParseOption] at h
          split_ifs at h
          cases h
          exact hle

theorem srpCreateTarget_cmdSgCnt_le {p : ModuleParams} {hasFmr hasFr : Bool}
    {options : List SgOption} {l : SgLimits}
    (h : srpCreateTarget (srpInitModule p) hasFmr hasFr options = some l) : l.cmdSgCnt ≤ 255 := by
  simp only [srpCreateTarget, Option.map_eq_some_iff] at h
  obtain ⟨l₁, hparse, hl⟩ := h
  have hle : l₁.cmdSgCnt ≤ 255 :=
    srpParseOptions_keeps srpParseOption_cmdSgCnt_le options hparse
      (srpInitModule_cmdSgEntries_le p)
  split_ifs at hl
  · rw [← hl]
    exact hle
  · rw [← hl]
    exact hle

/-- A target whose creation request was accepted, on an HCA with the given
registration methods. `use_fast_reg` is set as in `srp_add_one`. -/
structure Target where
  params : ModuleParams
  hasFmr : Bool
  hasFr : Bool
  dev : SrpDevice
  options : List SgOption
  limits : SgLimits
  useFastReg_eq : dev.useFastReg = (hasFr && (!hasFmr || params.preferFr))
  accepted : srpCreateTarget (srpInitModule params) hasFmr hasFr options = some limits

namespace Target

/-- Whether `srp_create_ch_ib` creates a pool of the kind the device uses. -/
def useMr (t : Target) : Bool := if t.dev.useFastReg then t.hasFr else t.hasFmr

theorem positive (t : Target) : t.limits.Positive := srpCreateTarget_positive t.accepted

theorem cmdSgCnt_le (t : Target) : t.limits.cmdSgCnt ≤ 255 :=
  srpCreateTarget_cmdSgCnt_le t.accepted

theorem useMr_of_useFastReg {t : Target} (h : t.dev.useFastReg = true) : t.useMr = true := by
  have he := t.useFastReg_eq
  rw [h] at he
  rw [useMr, if_pos h]
  exact (Bool.and_eq_true _ _ ▸ he.symm).1

end Target

end IbSrp.TargetLimits

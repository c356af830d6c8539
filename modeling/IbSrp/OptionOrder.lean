import IbSrp.TargetOptions
import Mathlib.Data.List.Nodup

/-!
# The order of the options

The parser goes over the options in the order of the text. Each option is accepted or
refused by itself, so the order could only make a difference to what is stored. Two
options with different names write different fields, with two exceptions. `queue_size`
also sets `cmd_per_lun`, but leaves it alone if `max_cmd_per_lun` has been seen, which
in turn overwrites it; both orders give the same. `service_id` and `dest` write the
same eight bytes of the union, and the later one stays.

An option text may hold both, since a text with an IP destination needs no `service_id`
but is not refused for having one. Its destination is then the service ID if that comes
last.
-/
namespace IbSrp.OptionOrder
open ByteBuffer TargetOptions

/-- Where the target is: the three fields of `ib_cm`, or the family, port and address of
`rdma_cm.dst`. -/
inductive Address where
  | ib (serviceId origDgid pkey : List Byte)
  | ip (sockaddr : List Byte)
deriving DecidableEq, Repr

def address (t : Target) : Address :=
  if t.usingRdmaCm then .ip (load t.cm 0 8)
  else .ib (load t.cm 0 8) (load t.cm 8 16) (load t.cm 24 2)

def Same (t t' : Target) : Prop := t.toParams = t'.toParams ∧ address t = address t'

section
variable {kernel : Kernel} {a b : Setting}

theorem seen_or (mask : ℕ) (opt : Opt) :
    decide ((mask ||| opt.bit) &&& Opt.maxCmdPerLun.bit ≠ 0) =
      (decide (mask &&& Opt.maxCmdPerLun.bit ≠ 0) || decide (opt = .maxCmdPerLun)) := by
  rw [Nat.and_or_distrib_right]
  by_cases h : opt = .maxCmdPerLun
  · have hbit : Opt.maxCmdPerLun.bit ≠ 0 := by decide
    simp [h, Nat.or_eq_zero_iff, hbit]
  · have hbit : opt.bit &&& Opt.maxCmdPerLun.bit = 0 := by
      cases opt with
      | maxCmdPerLun => exact absurd rfl h
      | _ => rfl
    simp [h, hbit]

/-- Settings with different names write different fields, except for `cmd_per_lun`. -/
theorem assign_comm (h : a.opt ≠ b.opt) (perLun : Bool) (t : Params) :
    b.assign ((perLun || decide (a.opt = .maxCmdPerLun)) || decide (b.opt = .maxCmdPerLun))
        (a.assign (perLun || decide (a.opt = .maxCmdPerLun)) t) =
      a.assign ((perLun || decide (b.opt = .maxCmdPerLun)) || decide (a.opt = .maxCmdPerLun))
        (b.assign (perLun || decide (b.opt = .maxCmdPerLun)) t) := by
  cases a <;> cases b <;> first | rfl | exact absurd rfl h | cases perLun <;> rfl

theorem sockaddrIn_length (kernel : Kernel) (addr : BitVec 32) (port : BitVec 16) :
    (sockaddrIn kernel addr port).length = 8 := by
  unfold sockaddrIn
  split_ifs <;> simp

/-- The bytes that a setting writes at the start of the union. -/
def firstBytes (kernel : Kernel) (s : Setting) : Option (List Byte) :=
  match s.cmBytes kernel with
  | some (0, bytes) => some bytes
  | _ => none

/-- Settings with different names write disjoint parts of the union, unless both write its
start. -/
theorem cmBytes_disjoint {off off' : ℕ} {bytes bytes' : List Byte} (h : a.opt ≠ b.opt)
    (ha : a.cmBytes kernel = some (off, bytes)) (hb : b.cmBytes kernel = some (off', bytes')) :
    (off+bytes.length ≤ off' ∨ off'+bytes'.length ≤ off) ∨ off = 0 ∧ off' = 0 := by
  cases a <;> cases ha <;> cases b <;> cases hb <;>
    first | exact absurd rfl h | simp [sockaddrIn_length]

/-- The settings agree on the start of the union, if both write it. -/
def Agree (kernel : Kernel) (a b : Setting) : Prop :=
  ∀ bytes ∈ firstBytes kernel a, ∀ bytes' ∈ firstBytes kernel b, bytes = bytes'

theorem step_comm (h : a.opt ≠ b.opt) (hagree : Agree kernel a b) (x : ℕ × Target) :
    step kernel (step kernel x a) b = step kernel (step kernel x b) a := by
  have hparams : (step kernel (step kernel x a) b).2.toParams =
      (step kernel (step kernel x b) a).2.toParams := by
    simp only [step, Setting.store, seen_or]
    exact assign_comm h _ _
  have hcm : (step kernel (step kernel x a) b).2.cm = (step kernel (step kernel x b) a).2.cm := by
    simp only [step, Setting.store]
    cases ha : a.cmBytes kernel with
    | none => rfl
    | some wa =>
        cases hb : b.cmBytes kernel with
        | none => rfl
        | some wb =>
            rcases cmBytes_disjoint h ha hb with hdisj | ⟨hoff, hoff'⟩
            · exact store_comm _ _ hdisj
            · obtain ⟨off, bytes⟩ := wa
              obtain ⟨off', bytes'⟩ := wb
              simp only at hoff hoff'
              subst hoff hoff'
              have hsame : bytes = bytes' :=
                hagree bytes (by simp [firstBytes, ha]) bytes' (by simp [firstBytes, hb])
              rw [hsame]
  have hmask : (step kernel (step kernel x a) b).1 = (step kernel (step kernel x b) a).1 := by
    change x.1 ||| a.opt.bit ||| b.opt.bit = x.1 ||| b.opt.bit ||| a.opt.bit
    rw [Nat.lor_assoc, Nat.lor_comm a.opt.bit, ← Nat.lor_assoc]
  exact Prod.ext hmask (Target.eq_of_parts hparams hcm)

/-- The order of settings with different names makes no difference if those that write the
start of the union agree. -/
theorem foldl_step_perm {ss ss' : List Setting} (hperm : ss.Perm ss')
    (hnames : (ss.map Setting.opt).Nodup) (hagree : ∀ a ∈ ss, ∀ b ∈ ss, Agree kernel a b)
    (x : ℕ × Target) : ss.foldl (step kernel) x = ss'.foldl (step kernel) x := by
  apply hperm.foldl_eq'
  intro a ha b hb y
  by_cases hab : a.opt = b.opt
  · rw [List.inj_on_of_nodup_map hnames ha hb hab]
  · exact step_comm hab (hagree a ha b hb) y

theorem firstBytes_cases {s : Setting} {bytes : List Byte} (h : firstBytes kernel s = some bytes) :
    (∃ v, s = .serviceId v ∧ bytes = bigEndian 8 v.toNat) ∨
      ∃ addr port, s = .ipDest addr port ∧ bytes = sockaddrIn kernel addr port := by
  cases s with
  | serviceId v =>
      cases h
      exact Or.inl ⟨v, rfl, rfl⟩
  | ipDest addr port =>
      cases h
      exact Or.inr ⟨addr, port, rfl, rfl⟩
  | _ => cases h

/-- Settings that do not write the start of the union leave it as it is. -/
theorem foldl_step_first (ss : List Setting) (h : ∀ s ∈ ss, firstBytes kernel s = none) :
    ∀ x : ℕ × Target, load (ss.foldl (step kernel) x).2.cm 0 8 = load x.2.cm 0 8 := by
  induction ss with
  | nil => exact fun x => rfl
  | cons s ss ih =>
      intro x
      rw [List.forall_mem_cons] at h
      rw [List.foldl_cons, ih h.2]
      apply load_step_of_disjoint
      intro w hw
      left
      have hs := h.1
      cases s with
      | serviceId v => cases hs
      | ipDest addr port => cases hs
      | dgid raw =>
          cases hw
          exact Nat.le_refl 8
      | pkey token =>
          cases hw
          change 0+8 ≤ 24
          decide
      | _ => cases hw

theorem step_first {s : Setting} {bytes : List Byte} (h : firstBytes kernel s = some bytes)
    (x : ℕ × Target) : load (step kernel x s).2.cm 0 8 = bytes := by
  rcases firstBytes_cases h with ⟨v, rfl, rfl⟩ | ⟨addr, port, rfl, rfl⟩
  · have hlen : (bigEndian 8 v.toNat).length = 8 := bigEndian_length 8 _
    rw [step_cm rfl, load_store _ _ hlen.ge, List.take_of_length_le hlen.le]
  · have hlen := sockaddrIn_length kernel addr port
    rw [step_cm rfl, load_store _ _ hlen.ge, List.take_of_length_le hlen.le]

theorem foldl_step_usingRdmaCm (kernel : Kernel) (ss : List Setting) : ∀ x : ℕ × Target,
    x.2.usingRdmaCm = true ∨ (∃ addr port, Setting.ipDest addr port ∈ ss) →
      (ss.foldl (step kernel) x).2.usingRdmaCm = true := by
  induction ss with
  | nil =>
      intro x h
      rcases h with h | ⟨addr, port, h⟩
      · exact h
      · cases h
  | cons s ss ih =>
      intro x h
      rw [List.foldl_cons]
      apply ih
      rcases h with h | ⟨addr, port, h⟩
      · left
        cases s with
        | ipDest addr port => rfl
        | _ => exact h
      · rcases List.mem_cons.mp h with he | hmem
        · left
          rw [← he]
          rfl
        · exact Or.inr ⟨addr, port, hmem⟩

end

section Texts

/-- The pieces that `strsep` finds have no separator in them. -/
theorem no_separator_of_mem_strsep {p : List Char} (buf : List Char) (h : p ∈ strsep buf) :
    ∀ c ∈ p, isSeparator c = false := by
  unfold strsep at h
  induction buf generalizing p with
  | nil =>
      rw [List.splitOnP_nil, List.mem_singleton] at h
      rw [h]
      intro c hc
      cases hc
  | cons x buf ih =>
      rw [List.splitOnP_cons_eq_if_modifyHead] at h
      split_ifs at h with hsep
      · rcases List.mem_cons.mp h with he | hmem
        · rw [he]
          intro c hc
          cases hc
        · exact ih hmem
      · cases hpieces : buf.splitOnP isSeparator with
        | nil => exact absurd hpieces (List.splitOnP_ne_nil _ _)
        | cons q qs =>
            rw [hpieces, List.modifyHead_cons, List.mem_cons] at h
            rw [hpieces] at ih
            rcases h with he | hmem
            · rw [he, List.forall_mem_cons]
              exact ⟨by simpa using hsep, ih List.mem_cons_self⟩
            · exact ih (List.mem_cons_of_mem q hmem)

/-- A text with the given options, each followed by a comma. -/
def commaSeparated (ps : List (List Char)) : List Char := ps.flatMap (· ++ [','])

theorem options_commaSeparated (ps : List (List Char))
    (h : ∀ p ∈ ps, p ≠ [] ∧ ∀ c ∈ p, isSeparator c = false) :
    options (commaSeparated ps) = ps := by
  induction ps with
  | nil => rfl
  | cons p ps ih =>
      rw [List.forall_mem_cons] at h
      have hsplit : strsep (commaSeparated (p :: ps)) = p :: strsep (commaSeparated ps) := by
        unfold strsep commaSeparated
        rw [List.flatMap_cons, List.append_assoc, List.singleton_append]
        exact List.splitOnP_append_cons_of_forall_mem (by simpa using h.1.2) ',' rfl _
      unfold options
      rw [hsplit, List.filter_cons_of_pos (by simpa using h.1.1)]
      exact congrArg (p :: ·) (ih h.2)

/-- Every order of the options of a text is that of some text. -/
theorem exists_text_of_perm {buf : List Char} {ps : List (List Char)}
    (h : ps.Perm (options buf)) : ∃ buf', options buf' = ps := by
  refine ⟨commaSeparated ps, options_commaSeparated ps ?_⟩
  intro p hp
  have hmem : p ∈ options buf := h.mem_iff.mp hp
  unfold options at hmem
  rw [List.mem_filter] at hmem
  exact ⟨by simpa using hmem.2, no_separator_of_mem_strsep buf hmem.1⟩

end Texts

section
variable {kernel : Kernel}

theorem settings_perm (kernel : Kernel) {ps ps' : List (List Char)} (h : ps.Perm ps') :
    (settings kernel ps).Perm (settings kernel ps') :=
  h.filterMap _

theorem agree_of_equal {ss : List Setting} (hnames : (ss.map Setting.opt).Nodup)
    (hequal : ∀ v addr port, Setting.serviceId v ∈ ss → Setting.ipDest addr port ∈ ss →
      bigEndian 8 v.toNat = sockaddrIn kernel addr port) :
    ∀ a ∈ ss, ∀ b ∈ ss, Agree kernel a b := by
  intro a ha b hb bytes hbytes bytes' hbytes'
  by_cases hab : a.opt = b.opt
  · rw [List.inj_on_of_nodup_map hnames ha hb hab] at hbytes
    exact Option.some.inj (hbytes.symm.trans hbytes')
  · rcases firstBytes_cases hbytes with ⟨v, rfl, rfl⟩ | ⟨addr, port, rfl, rfl⟩
    · rcases firstBytes_cases hbytes' with ⟨v', rfl, _⟩ | ⟨addr, port, rfl, rfl⟩
      · exact absurd rfl hab
      · exact hequal v addr port ha hb
    · rcases firstBytes_cases hbytes' with ⟨v, rfl, rfl⟩ | ⟨addr', port', rfl, _⟩
      · exact (hequal v addr port hb ha).symm
      · exact absurd rfl hab

theorem exists_perm_cons_cons {ps : List (List Char)} {p q : List Char} (hp : p ∈ ps) (hq : q ∈ ps)
    (hne : q ≠ p) : ∃ rest, (p :: q :: rest).Perm ps := by
  obtain ⟨l₁, l₂, hl⟩ := List.append_of_mem hp
  have hmem : q ∈ l₁ ++ l₂ := by
    rw [hl, List.mem_append, List.mem_cons] at hq
    rw [List.mem_append]
    rcases hq with h | h | h
    · exact Or.inl h
    · exact absurd h hne
    · exact Or.inr h
  obtain ⟨m₁, m₂, hm⟩ := List.append_of_mem hmem
  refine ⟨m₁ ++ m₂, ?_⟩
  rw [hl]
  refine (List.Perm.cons p ?_).trans List.perm_middle.symm
  rw [hm]
  exact List.perm_middle.symm

/-- The address that a text gives in which only the first two options write the start of the
union and one of them is an IP destination. -/
theorem address_of_last {buf : List Char} {t t' : Target} {p q : List Char}
    {rest : List (List Char)} {a b : Setting} {bytes : List Byte} {addr : BitVec 32}
    {port : BitVec 16} (hok : srpParseOptions kernel buf t = .ok t')
    (hbuf : options buf = p :: q :: rest) (hp : parseToken kernel p = .ok a)
    (hq : parseToken kernel q = .ok b) (hb : firstBytes kernel b = some bytes)
    (hnone : ∀ s ∈ settings kernel rest, firstBytes kernel s = none)
    (hdest : .ipDest addr port ∈ a :: b :: settings kernel rest) : address t' = .ip bytes := by
  obtain ⟨_, mask, hfold, _⟩ := (srpParseOptions_eq_ok buf t t').mp hok
  rw [hbuf, settings_cons_of_ok hp, settings_cons_of_ok hq] at hfold
  have hip := foldl_step_usingRdmaCm kernel _ (0, t) (Or.inr ⟨addr, port, hdest⟩)
  rw [hfold] at hip
  have hfirst := foldl_step_first _ hnone (step kernel (step kernel (0, t) a) b)
  rw [step_first hb] at hfirst
  rw [List.foldl_cons, List.foldl_cons] at hfold
  rw [hfold] at hfirst
  rw [address, if_pos hip, hfirst]

/-- If all orders give the same address, `service_id` and `dest` write the same bytes: put
first the one and then the other last. -/
theorem equal_of_same {buf : List Char} {t t' : Target} {v : BitVec 64} {addr : BitVec 32}
    {port : BitVec 16} (hnames : ((settings kernel (options buf)).map Setting.opt).Nodup)
    (hsame : ∀ buf', (options buf').Perm (options buf) →
      ∃ t'', srpParseOptions kernel buf' t = .ok t'' ∧ Same t' t'')
    (hv : .serviceId v ∈ settings kernel (options buf))
    (hd : .ipDest addr port ∈ settings kernel (options buf)) :
    bigEndian 8 v.toNat = sockaddrIn kernel addr port := by
  obtain ⟨pv, hpv, hpv'⟩ := mem_settings.mp hv
  obtain ⟨pd, hpd, hpd'⟩ := mem_settings.mp hd
  have hne : pd ≠ pv := by
    intro he
    rw [he, hpv'] at hpd'
    cases hpd'
  obtain ⟨rest, hrest⟩ := exists_perm_cons_cons hpv hpd hne
  have hnone : ∀ s ∈ settings kernel rest, firstBytes kernel s = none := by
    have hnodup := ((settings_perm kernel hrest).map Setting.opt).nodup_iff.mpr hnames
    rw [settings_cons_of_ok hpv', settings_cons_of_ok hpd', List.map_cons, List.map_cons,
      List.nodup_cons, List.nodup_cons, List.mem_cons, not_or] at hnodup
    intro s hs
    cases hbytes : firstBytes kernel s with
    | none => rfl
    | some bytes =>
        rcases firstBytes_cases hbytes with ⟨v', rfl, _⟩ | ⟨addr', port', rfl, _⟩
        · exact absurd (List.mem_map_of_mem hs) hnodup.1.2
        · exact absurd (List.mem_map_of_mem hs) hnodup.2.1
  have hswap : (pd :: pv :: rest).Perm (options buf) := (List.Perm.swap pv pd rest).trans hrest
  obtain ⟨buf₁, hbuf₁⟩ := exists_text_of_perm hrest
  obtain ⟨buf₂, hbuf₂⟩ := exists_text_of_perm hswap
  obtain ⟨t₁, hok₁, _, hsame₁⟩ := hsame buf₁ (by rw [hbuf₁]; exact hrest)
  obtain ⟨t₂, hok₂, _, hsame₂⟩ := hsame buf₂ (by rw [hbuf₂]; exact hswap)
  have hip₁ := address_of_last hok₁ hbuf₁ hpv' hpd' rfl hnone
    (List.mem_cons_of_mem _ List.mem_cons_self)
  have hip₂ := address_of_last hok₂ hbuf₂ hpd' hpv' rfl hnone List.mem_cons_self
  rw [← hsame₁] at hip₁
  rw [← hsame₂, hip₁] at hip₂
  exact (Address.ip.inj hip₂).symm

/-- Let a text be accepted in which no option occurs twice. All texts with the same options in
another order are accepted and give the same parameters if and only if `service_id` and `dest`
are not both among them, or write the same bytes. -/
theorem option_order_irrelevant (kernel : Kernel) (buf : List Char) (t t' : Target)
    (hok : srpParseOptions kernel buf t = .ok t')
    (hnames : ((settings kernel (options buf)).map Setting.opt).Nodup) :
    (∀ buf', (options buf').Perm (options buf) →
      ∃ t'', srpParseOptions kernel buf' t = .ok t'' ∧ Same t' t'') ↔
    ∀ v addr port, .serviceId v ∈ settings kernel (options buf) →
      .ipDest addr port ∈ settings kernel (options buf) →
      bigEndian 8 v.toNat = sockaddrIn kernel addr port := by
  constructor
  · intro hsame v addr port hv hd
    exact equal_of_same hnames hsame hv hd
  · intro hequal buf' hperm
    obtain ⟨hall, mask, hfold, hmandatory⟩ := (srpParseOptions_eq_ok buf t t').mp hok
    refine ⟨t', (srpParseOptions_eq_ok buf' t t').mpr ⟨?_, mask, ?_, hmandatory⟩, rfl, rfl⟩
    · intro p hp
      exact hall p (hperm.mem_iff.mp hp)
    · rw [← hfold]
      exact (foldl_step_perm (settings_perm kernel hperm.symm) hnames
        (agree_of_equal hnames hequal) (0, t)).symm

end

/-- An IP destination with both options on the queue. -/
def ipText : List Char :=
  "id_ext=1,ioc_guid=2,queue_size=9,dest=10.0.0.1:5,max_cmd_per_lun=4\n".toList

theorem ipText_settings :
    settings plainKernel (options ipText) =
      [.idExt 1, .iocGuid 2, .queueSize 9, .ipDest 0x0a000001 5, .maxCmdPerLun 4] := by
  unfold ipText
  rfl

theorem exists_ok {α β ε : Type} {e : Except ε α} {f : α → β} {v : β}
    (h : e.toOption.map f = some v) : ∃ t, e = .ok t ∧ f t = v := by
  cases e with
  | error err => cases h
  | ok t => exact ⟨t, rfl, Option.some.inj h⟩

theorem option_order_irrelevant_ip :
    ∃ t, srpParseOptions plainKernel ipText (newTarget {} 1024) = .ok t ∧
      ∀ buf, (options buf).Perm (options ipText) →
        ∃ t', srpParseOptions plainKernel buf (newTarget {} 1024) = .ok t' ∧ Same t t' := by
  have haccepted : (srpParseOptions plainKernel ipText (newTarget {} 1024)).toOption.map
      (·.idExt) = some 1 := by
    decide +kernel
  obtain ⟨t, hok, _⟩ := exists_ok haccepted
  refine ⟨t, hok, (option_order_irrelevant plainKernel ipText _ t hok ?_).mpr ?_⟩
  · rw [ipText_settings]
    decide
  · intro v addr port hv
    rw [ipText_settings] at hv
    simp at hv

/-- An IP destination followed by a service ID. -/
def destFirst : List Char := "id_ext=1,ioc_guid=2,dest=10.0.0.1:5,service_id=3".toList

/-- The same options, with the service ID before the destination. -/
def destLast : List Char := "id_ext=1,ioc_guid=2,service_id=3,dest=10.0.0.1:5".toList

/-- Both are accepted. The destination of the first is the service ID. -/
theorem dest_overwritten_by_service_id :
    (options destFirst).Perm (options destLast) ∧
    (srpParseOptions plainKernel destFirst (newTarget {} 1024)).toOption.map address =
      some (.ip [0, 0, 0, 0, 0, 0, 0, 3]) ∧
    (srpParseOptions plainKernel destLast (newTarget {} 1024)).toOption.map address =
      some (.ip [2, 0, 0, 5, 10, 0, 0, 1]) :=
  ⟨by decide, by decide +kernel, by decide +kernel⟩

end IbSrp.OptionOrder

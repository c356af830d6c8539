import IbSrp.CheckedArithmetic
import IbSrp.RportTransport

/-!
# The delays of the transport layer timers

The timers of a remote port are given in seconds and handed to the workqueue in ticks.
The products are formed in three places: `srp_reconnect_work` multiplies the delay by a
factor that grows with the number of failed attempts and then by `HZ`, both in `int`;
`store_reconnect_delay` multiplies by `HZ` in `int`; `__srp_start_tl_fail_timers`
multiplies in `unsigned long`, for all three timers. The argument of
`queue_delayed_work` is an `unsigned long`.

`srp_tmo_valid` bounds the fast I/O fail timeout by ten minutes and the device loss
timeout by what fits in a `long`, and the reconnect delay not at all. It accepts 0 for
both timeouts, and the timer is then started with no delay. The counter of failed
attempts is an `int` that is incremented without a test. Kernels with 32 and with 64
bits in a `long` are considered.
-/
namespace IbSrp.RetryDelays
open CheckedArithmetic RportTransport

/-- The number of bits of a `long`. -/
inductive LongWidth where
  | ilp32
  | lp64
deriving DecidableEq, Repr

def LongWidth.bits : LongWidth → ℕ
  | .ilp32 => 32
  | .lp64 => 64

def LongWidth.longMax (width : LongWidth) : ℤ := 2^(width.bits-1)-1

/-- `srp_tmo_valid` for both widths of a `long` -/
def srpTmoValid (width : LongWidth) (hz : ℕ) (reconnectDelay fastIoFailTmo devLossTmo : ℤ) :
    Bool :=
  if reconnectDelay < 0 ∧ fastIoFailTmo < 0 ∧ devLossTmo < 0 then false
  else if reconnectDelay = 0 then false
  else if scsiDeviceBlockMaxTimeout < fastIoFailTmo then false
  else if fastIoFailTmo < 0 ∧ scsiDeviceBlockMaxTimeout < devLossTmo then false
  else if width.longMax/hz ≤ devLossTmo then false
  else if 0 ≤ fastIoFailTmo ∧ 0 ≤ devLossTmo ∧ devLossTmo ≤ fastIoFailTmo then false
  else true

theorem srpTmoValid_lp64 : srpTmoValid .lp64 = RportTransport.srpTmoValid := rfl

def ulongTicks (width : LongWidth) (hz : ℕ) (tmo : ℤ) : Checked :=
  mulUnsigned width.bits (mulUnsigned width.bits ⟨1, false⟩ tmo) hz

def backoff (failedReconnects : Checked) : Checked :=
  let attempts := addSigned 31 failedReconnects (-10)
  { attempts with value := min 100 (max 1 attempts.value) }

/-- The delay that `srp_reconnect_work` hands over after a failed attempt, if any. -/
def srpReconnectWork (width : LongWidth) (hz : ℕ) (rport : SrpRport) : Option Checked :=
  let failedReconnects := addSigned 31 ⟨rport.failedReconnects, false⟩ 1
  let delay := mulSigned 31 ⟨rport.reconnectDelay, false⟩ (backoff failedReconnects)
  if 0 < delay.value then some ((mulSigned 31 delay ⟨hz, false⟩).toUnsigned width.bits) else none

/-- The delay that `store_reconnect_delay` hands over for the new value `delay`, if any. -/
def storeReconnectDelay (width : LongWidth) (hz : ℕ) (delay : ℤ) (rport : SrpRport) :
    Option Checked :=
  if srpTmoValid width hz delay rport.fastIoFailTmo rport.devLossTmo = false then none
  else if rport.reconnectDelay ≤ 0 ∧ 0 < delay ∧ rport.state ≠ .running then
    some ((mulSigned 31 ⟨delay, false⟩ ⟨hz, false⟩).toUnsigned width.bits)
  else none

/-- The timers that `__srp_start_tl_fail_timers` starts, with their delays. -/
def srpStartTlFailTimers (width : LongWidth) (hz : ℕ) (rport : SrpRport) :
    List (WorkName × Checked) :=
  if rport.state = .lost then []
  else
    (if 0 < rport.reconnectDelay then
      [(.reconnect, ulongTicks width hz rport.reconnectDelay)] else []) ++
    if (0 ≤ rport.fastIoFailTmo ∨ 0 ≤ rport.devLossTmo) ∧ rport.state.accepts .blocked then
      (if 0 ≤ rport.fastIoFailTmo then
        [(.fastIoFail, ulongTicks width hz rport.fastIoFailTmo)] else []) ++
      (if 0 ≤ rport.devLossTmo then [(.devLoss, ulongTicks width hz rport.devLossTmo)] else [])
    else []

def seconds (rport : SrpRport) : WorkName → ℤ
  | .reconnect => rport.reconnectDelay
  | .fastIoFail => rport.fastIoFailTmo
  | .devLoss => rport.devLossTmo

theorem seconds_state (rport : SrpRport) (state : RportState) (name : WorkName) :
    seconds { rport with state := state } name = seconds rport name := by
  cases name <;> rfl

/-- The factor of the next attempt that fails. -/
def factor (rport : SrpRport) : ℤ := min 100 (max 1 (rport.failedReconnects+1-10))

theorem factor_pos (rport : SrpRport) : 0 < factor rport := by
  unfold factor
  omega

/-- Every delay handed over is the exact number of ticks and positive, and no operation has
wrapped. -/
structure DelaysExact (width : LongWidth) (hz : ℕ) (rport : SrpRport) : Prop where
  retry : srpReconnectWork width hz rport =
    some ⟨rport.reconnectDelay*factor rport*hz, false⟩
  retry_pos : 0 < rport.reconnectDelay*factor rport*hz
  stored : ∀ old state, old ≤ 0 → state ≠ .running →
    storeReconnectDelay width hz rport.reconnectDelay
      { rport with reconnectDelay := old, state := state } =
        some ⟨rport.reconnectDelay*hz, false⟩
  stored_pos : 0 < rport.reconnectDelay*hz
  timers : ∀ state, ∀ p ∈ srpStartTlFailTimers width hz { rport with state := state },
    p.2 = ⟨seconds rport p.1*hz, false⟩ ∧ 0 < p.2.value

section
variable {width : LongWidth} {hz : ℕ} {rport : SrpRport}

/-- The factor is computed exactly unless the counter is at one of its ends. -/
theorem backoff_eq_factor (hlow : -2^31+9 ≤ rport.failedReconnects)
    (hhigh : rport.failedReconnects+1 < 2^31) :
    backoff (addSigned 31 ⟨rport.failedReconnects, false⟩ 1) = ⟨factor rport, false⟩ := by
  have hnext : addSigned 31 ⟨rport.failedReconnects, false⟩ 1 =
      ⟨rport.failedReconnects+1, false⟩ := addSigned_exact_iff.mpr ⟨by omega, hhigh⟩
  have hsub : addSigned 31 ⟨rport.failedReconnects+1, false⟩ (-10) =
      ⟨rport.failedReconnects+1+(-10), false⟩ := addSigned_exact_iff.mpr ⟨by omega, by omega⟩
  unfold backoff factor
  rw [hnext, hsub]
  rfl

/-- A factor that has not wrapped comes from a counter that is at neither end. -/
theorem counter_of_backoff
    (h : (backoff (addSigned 31 ⟨rport.failedReconnects, false⟩ 1)).wrapped = false) :
    -2^31+9 ≤ rport.failedReconnects ∧ rport.failedReconnects+1 < 2^31 := by
  have hsub := addSigned_eq h
  have hnext := (addSigned_eq hsub.1).2
  have hfitsNext := addSigned_exact_iff.mp hnext
  rw [hnext] at hsub
  have hfitsSub : FitsSigned 31 (rport.failedReconnects+1+(-10)) :=
    addSigned_exact_iff.mp hsub.2
  have hlow := hfitsSub.1
  exact ⟨by omega, hfitsNext.2⟩

/-- An `int` that is not negative keeps its value in an `unsigned long`. -/
theorem toUnsigned_of_fits {x : ℤ} (hpos : 0 ≤ x) (hfits : FitsSigned 31 x) :
    (⟨x, false⟩ : Checked).toUnsigned width.bits = ⟨x, false⟩ := by
  have hlt : x < 2^width.bits := by
    have := hfits.2
    cases width <;> simp only [LongWidth.bits] <;> omega
  unfold Checked.toUnsigned
  rw [toUnsigned_eq_iff.mpr ⟨hpos, hlt⟩]

theorem ulongTicks_exact {tmo : ℤ} (hpos : 0 ≤ tmo) (hhz : 0 < hz)
    (hlt : tmo*hz < 2^width.bits) : ulongTicks width hz tmo = ⟨tmo*hz, false⟩ := by
  have hone : tmo ≤ tmo*hz := le_mul_of_one_le_right hpos (by exact_mod_cast hhz)
  have hfirst : mulUnsigned width.bits ⟨1, false⟩ tmo = ⟨1*tmo, false⟩ :=
    mulUnsigned_exact_iff.mpr ⟨by omega, by omega⟩
  unfold ulongTicks
  rw [hfirst, one_mul]
  exact mulUnsigned_exact_iff.mpr ⟨by positivity, hlt⟩

/-- What the validator promises about the two other timeouts. -/
theorem srpTmoValid_bounds {delay fastIoFailTmo devLossTmo : ℤ}
    (h : srpTmoValid width hz delay fastIoFailTmo devLossTmo = true) :
    fastIoFailTmo ≤ 600 ∧ devLossTmo < width.longMax/hz := by
  unfold srpTmoValid scsiDeviceBlockMaxTimeout at h
  split_ifs at h
  constructor <;> omega

/-- The retry delay is exact just when the counter is at neither end and the product fits. -/
theorem srpReconnectWork_exact_iff (hhz : 0 < hz) (hdelay : 0 < rport.reconnectDelay) :
    srpReconnectWork width hz rport = some ⟨rport.reconnectDelay*factor rport*hz, false⟩ ↔
      rport.reconnectDelay*factor rport*hz < 2^31 ∧
        -2^31+9 ≤ rport.failedReconnects ∧ rport.failedReconnects+1 < 2^31 := by
  have hfactor := factor_pos rport
  have hseconds : 0 < rport.reconnectDelay*factor rport := mul_pos hdelay hfactor
  have hhz' : (1 : ℤ) ≤ hz := by exact_mod_cast hhz
  have hle : rport.reconnectDelay*factor rport ≤ rport.reconnectDelay*factor rport*hz :=
    le_mul_of_one_le_right hseconds.le hhz'
  simp only [srpReconnectWork]
  constructor
  · intro h
    split_ifs at h
    have hticks := mulSigned_eq (congrArg Checked.wrapped (Option.some.inj h))
    have hproduct := mulSigned_eq hticks.1
    have hcounter := counter_of_backoff hproduct.2.1
    have hdelay' := hproduct.2.2
    rw [backoff_eq_factor hcounter.1 hcounter.2] at hdelay' hticks
    rw [hdelay'] at hticks
    exact ⟨(mulSigned_exact_iff.mp hticks.2.2).2, hcounter⟩
  · intro h
    have hfits : FitsSigned 31 (rport.reconnectDelay*factor rport) := ⟨by omega, by omega⟩
    have hfitsHz : FitsSigned 31 (rport.reconnectDelay*factor rport*hz) := ⟨by omega, h.1⟩
    rw [backoff_eq_factor h.2.1 h.2.2, mulSigned_exact_iff.mpr hfits,
      mulSigned_exact_iff.mpr hfitsHz, toUnsigned_of_fits (by omega) hfitsHz]
    exact if_pos hseconds

theorem storeReconnectDelay_exact (hhz : 0 < hz) (hdelay : 0 < rport.reconnectDelay)
    (hvalid : srpTmoValid width hz rport.reconnectDelay rport.fastIoFailTmo rport.devLossTmo =
      true) (hlt : rport.reconnectDelay*hz < 2^31) {old : ℤ} {state : RportState} (hold : old ≤ 0)
    (hstate : state ≠ .running) :
    storeReconnectDelay width hz rport.reconnectDelay
      { rport with reconnectDelay := old, state := state } =
        some ⟨rport.reconnectDelay*hz, false⟩ := by
  have hpos : 0 < rport.reconnectDelay*hz := mul_pos hdelay (by exact_mod_cast hhz)
  have hfits : FitsSigned 31 (rport.reconnectDelay*hz) := ⟨by omega, hlt⟩
  unfold storeReconnectDelay
  rw [mulSigned_exact_iff.mpr hfits, toUnsigned_of_fits hpos.le hfits]
  simp [hvalid, hold, hdelay, hstate]

theorem mem_srpStartTlFailTimers {p : WorkName × Checked}
    (h : p ∈ srpStartTlFailTimers width hz rport) :
    p.2 = ulongTicks width hz (seconds rport p.1) ∧ 0 ≤ seconds rport p.1 := by
  simp only [srpStartTlFailTimers, List.mem_ite_nil_left, List.mem_append,
    List.mem_ite_nil_right, List.mem_singleton] at h
  rcases h with ⟨_, ⟨hpos, rfl⟩ | ⟨_, ⟨hpos, rfl⟩ | ⟨hpos, rfl⟩⟩⟩
  · exact ⟨rfl, hpos.le⟩
  · exact ⟨rfl, hpos⟩
  · exact ⟨rfl, hpos⟩

/-- The ticks of every timer are in the range of an `unsigned long`. -/
theorem seconds_mul_lt (hhz : 0 < hz) (hle : hz ≤ 1000)
    (hvalid : srpTmoValid width hz rport.reconnectDelay rport.fastIoFailTmo rport.devLossTmo =
      true) (hdelay : rport.reconnectDelay*hz < 2^31) (name : WorkName) :
    seconds rport name*hz < 2^width.bits := by
  have hbounds := srpTmoValid_bounds hvalid
  have hhz' : (0 : ℤ) < hz := by exact_mod_cast hhz
  have hwidth : (2^31 : ℤ) ≤ width.longMax+1 ∧ width.longMax < 2^width.bits := by
    cases width <;> decide
  cases name with
  | reconnect =>
      change rport.reconnectDelay*hz < _
      omega
  | fastIoFail =>
      have hhz'' : (hz : ℤ) ≤ 1000 := by exact_mod_cast hle
      have : rport.fastIoFailTmo*hz ≤ 600*1000 := by
        nlinarith [hbounds.1]
      change rport.fastIoFailTmo*hz < _
      omega
  | devLoss =>
      have : rport.devLossTmo*hz ≤ width.longMax/hz*hz :=
        mul_le_mul_of_nonneg_right hbounds.2.le hhz'.le
      have := Int.ediv_mul_le width.longMax hhz'.ne'
      change rport.devLossTmo*hz < _
      omega

theorem timers_exact (hhz : 0 < hz) (hle : hz ≤ 1000)
    (hvalid : srpTmoValid width hz rport.reconnectDelay rport.fastIoFailTmo rport.devLossTmo =
      true) (hdelay : rport.reconnectDelay*hz < 2^31) {state : RportState}
    {p : WorkName × Checked}
    (h : p ∈ srpStartTlFailTimers width hz { rport with state := state }) :
    p.2 = ⟨seconds rport p.1*hz, false⟩ ∧ 0 ≤ seconds rport p.1 := by
  have hmem := mem_srpStartTlFailTimers h
  rw [seconds_state] at hmem
  refine ⟨?_, hmem.2⟩
  rw [hmem.1]
  exact ulongTicks_exact hmem.2 hhz (seconds_mul_lt hhz hle hvalid hdelay p.1)

theorem zero_timer_started (width : LongWidth) (hz : ℕ)
    (h : rport.fastIoFailTmo = 0 ∨ rport.devLossTmo = 0) :
    ∃ p ∈ srpStartTlFailTimers width hz { rport with state := .running },
      seconds rport p.1 = 0 := by
  cases h with
  | inl hfast =>
      refine ⟨(.fastIoFail, ulongTicks width hz rport.fastIoFailTmo), ?_, hfast⟩
      simp [srpStartTlFailTimers, RportState.accepts, hfast]
  | inr hloss =>
      refine ⟨(.devLoss, ulongTicks width hz rport.devLossTmo), ?_, hloss⟩
      simp [srpStartTlFailTimers, RportState.accepts, hloss]

theorem timeouts_ne_zero (h : DelaysExact width hz rport) :
    rport.fastIoFailTmo ≠ 0 ∧ rport.devLossTmo ≠ 0 := by
  rw [← not_or]
  intro hzero
  obtain ⟨p, hp, hseconds⟩ := zero_timer_started width hz hzero
  have htimer := h.timers .running p hp
  rw [hseconds, zero_mul] at htimer
  rw [htimer.1] at htimer
  exact lt_irrefl _ htimer.2

end

/-- The delays are exact and positive for just those ports whose reconnect delay stays within
an `int` after the factor and `HZ` are applied, whose other timeouts are not 0, and whose
counter of failed attempts is not at an end of its range. -/
theorem delays_exact_iff (width : LongWidth) (hz : ℕ) (hlow : 100 ≤ hz) (hhigh : hz ≤ 1000)
    (rport : SrpRport) (hdelay : 0 < rport.reconnectDelay)
    (hvalid : srpTmoValid width hz rport.reconnectDelay rport.fastIoFailTmo rport.devLossTmo =
      true) :
    DelaysExact width hz rport ↔
      rport.reconnectDelay*factor rport*hz < 2^31 ∧
        rport.fastIoFailTmo ≠ 0 ∧ rport.devLossTmo ≠ 0 ∧
        -2^31+9 ≤ rport.failedReconnects ∧ rport.failedReconnects+1 < 2^31 := by
  have hhz : 0 < hz := by omega
  have hhz' : (0 : ℤ) < hz := by exact_mod_cast hhz
  have hfactor := factor_pos rport
  constructor
  · intro h
    have hretry := (srpReconnectWork_exact_iff hhz hdelay).mp h.retry
    have hzero := timeouts_ne_zero h
    exact ⟨hretry.1, hzero.1, hzero.2, hretry.2⟩
  · rintro ⟨hproduct, hfast, hloss, hcounter⟩
    have hone : rport.reconnectDelay ≤ rport.reconnectDelay*factor rport :=
      le_mul_of_one_le_right hdelay.le hfactor
    have hlt : rport.reconnectDelay*hz < 2^31 :=
      lt_of_le_of_lt (mul_le_mul_of_nonneg_right hone hhz'.le) hproduct
    have hseconds : ∀ name, seconds rport name ≠ 0 := by
      intro name
      cases name with
      | reconnect => exact hdelay.ne'
      | fastIoFail => exact hfast
      | devLoss => exact hloss
    constructor
    · exact (srpReconnectWork_exact_iff hhz hdelay).mpr ⟨hproduct, hcounter⟩
    · exact mul_pos (mul_pos hdelay hfactor) hhz'
    · exact fun old state hold hstate =>
        storeReconnectDelay_exact hhz hdelay hvalid hlt hold hstate
    · exact mul_pos hdelay hhz'
    · intro state p hp
      have htimer := timers_exact hhz hhigh hvalid hlt hp
      have hpos := lt_of_le_of_ne htimer.2 (hseconds p.1).symm
      refine ⟨htimer.1, ?_⟩
      rw [htimer.1]
      exact mul_pos hpos hhz'

/-- A port that reconnects every ten seconds, after five failed attempts. -/
def tenSeconds : SrpRport :=
  { reconnectDelay := 10, fastIoFailTmo := 15, devLossTmo := 600, failedReconnects := 5 }

theorem delays_exact_ten_seconds : DelaysExact .lp64 250 tenSeconds :=
  (delays_exact_iff .lp64 250 (by decide) (by decide) tenSeconds (by decide)
    (by decide)).mpr (by decide)

/-- A port that reconnects every six hours, after 110 failed attempts. -/
def sixHours : SrpRport :=
  { reconnectDelay := 21600, fastIoFailTmo := 15, devLossTmo := -1, failedReconnects := 110 }

/-- The next failed attempt asks for 600 hours. With 1000 ticks in a second the product is
negative as an `int`, and a delay of almost `2^64` ticks is handed over. -/
theorem retry_delay_wraps :
    srpTmoValid .lp64 1000 sixHours.reconnectDelay sixHours.fastIoFailTmo sixHours.devLossTmo =
        true ∧
      sixHours.reconnectDelay*factor sixHours*1000 = 2160000000 ∧
      srpReconnectWork .lp64 1000 sixHours = some ⟨18446744071574584320, true⟩ ∧
      ¬ DelaysExact .lp64 1000 sixHours := by
  have hwork : srpReconnectWork .lp64 1000 sixHours = some ⟨18446744071574584320, true⟩ := rfl
  constructor
  · decide
  constructor
  · decide
  constructor
  · exact hwork
  · intro h
    have := h.retry
    rw [hwork] at this
    exact absurd this (by decide)

end IbSrp.RetryDelays

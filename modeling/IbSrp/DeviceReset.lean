import IbSrp.TargetHost
import IbSrp.TaskManagement

/-!
# LUN reset over all channels

`srp_reset_device` sends a LUN reset on the first channel. If the target confirms
it, two nested loops go over the channels of the target and over the request ring
of each channel and finish the commands of the device. The source counts both
loops with one variable, so the inner loop moves the counter of the outer one.

The two loops are a program with a program counter, and a step is one evaluation
of a loop condition with what follows it. The program need not reach its return
statement; the results below say when it does, and with which commands finished.
-/
namespace IbSrp.DeviceReset
open Channel TargetHost
open ChannelSystem (smallTarget willingHca noData)
open TaskManagement (Verdict srpResetDeviceVerdict)

section
variable (hca : Hca) (target : SrpTargetPort)

/-- Where `srp_reset_device` is: at the condition of the outer loop, at the condition of
the inner loop with `ch` assigned, or behind the loops. -/
inductive Pc where
  | outer
  | inner (ch : ℕ)
  | returned (verdict : Verdict)
deriving DecidableEq

structure Reset where
  i : ℕ := 0
  pc : Pc
  host : Host

/-- The function up to its loops, given the result of `srp_send_tsk_mgmt` and the status
from the response. -/
def srpResetDevice (ok : Bool) (tskMgmtStatus : BitVec 8) (host : Host) : Reset :=
  { pc := if srpResetDeviceVerdict ok tskMgmtStatus = .success then .outer else .returned .failed,
    host := host }

def step (chCount sdev : ℕ) (r : Reset) : Reset :=
  match r.pc with
  | .outer =>
      if r.i < chCount then { r with i := 0, pc := .inner r.i }
      else { r with pc := .returned .success }
  | .inner ch =>
      if r.i < target.reqRingSize then
        { r with i := r.i+1, host := r.host.finishReq hca target (some sdev) .didReset ch r.i }
      else { r with i := r.i+1, pc := .outer }
  | .returned _ => r

end

/-- Every command of the device was finished once, on every channel, and no other slot
changed. -/
structure Finished (target : SrpTargetPort) (chCount sdev : ℕ) (h h' : Host) : Prop where
  done : ∃ fin, h'.done = h.done++fin ∧ fin.Perm (((List.range chCount).flatMap fun c =>
    commandsOn (some sdev) target.reqRingSize (h.ch c)).map fun scmnd => (scmnd, .didReset))
  rings : ∀ c < chCount, ∀ j < target.reqRingSize,
    (h'.ch c).reqRing j = cleared (some sdev) ((h.ch c).reqRing j)

section
variable {hca : Hca} {target : SrpTargetPort} {chCount sdev : ℕ}

theorem iterate_inner (c : ℕ) (h : Host) {n : ℕ} (hn : n ≤ target.reqRingSize) :
    (step hca target chCount sdev)^[n] ⟨0, .inner c, h⟩ =
      ⟨n, .inner c, finishSlots hca target (some sdev) .didReset c n h⟩ := by
  induction n with
  | zero => rfl
  | succ n ih =>
      rw [Function.iterate_succ_apply', ih (Nat.le_of_succ_le hn)]
      simp only [step, if_pos (Nat.lt_of_succ_le hn)]
      rfl

/-- The counter behind the inner loop is one more than the size of the ring. -/
theorem iterate_channel (c : ℕ) (h : Host) (hc : c < chCount) :
    (step hca target chCount sdev)^[target.reqRingSize+2] ⟨c, .outer, h⟩ =
      ⟨target.reqRingSize+1, .outer,
        finishSlots hca target (some sdev) .didReset c target.reqRingSize h⟩ := by
  have hfirst : step hca target chCount sdev ⟨c, .outer, h⟩ = ⟨0, .inner c, h⟩ := by
    simp [step, hc]
  rw [Function.iterate_succ_apply', Function.iterate_succ_apply, hfirst,
    iterate_inner c h (Nat.le_refl _)]
  simp [step]

def Looping (target : SrpTargetPort) (chCount : ℕ) (r : Reset) : Prop :=
  match r.pc with
  | .outer => r.i < chCount
  | .inner _ => r.i ≤ target.reqRingSize
  | .returned _ => False

theorem Looping.step (hmany : target.reqRingSize+1 < chCount) {r : Reset}
    (h : Looping target chCount r) : Looping target chCount (step hca target chCount sdev r) := by
  unfold Looping at h
  cases hpc : r.pc with
  | outer =>
      rw [hpc] at h
      simp only [DeviceReset.step, hpc, if_pos h]
      exact Nat.zero_le _
  | inner c =>
      rw [hpc] at h
      by_cases hi : r.i < target.reqRingSize
      · simp only [DeviceReset.step, hpc, if_pos hi, Looping]
        exact hi
      · simp only [DeviceReset.step, hpc, if_neg hi, Looping]
        omega
  | returned v =>
      rw [hpc] at h
      exact h.elim

/-- With more channels than slots plus one the loops start over and over. -/
theorem reset_never_returns (hmany : target.reqRingSize+1 < chCount) (h : Host) (n : ℕ)
    (verdict : Verdict) :
    ((step hca target chCount sdev)^[n] (srpResetDevice true 0 h)).pc ≠ .returned verdict := by
  have hloop : Looping target chCount
      ((step hca target chCount sdev)^[n] (srpResetDevice true 0 h)) := by
    induction n with
    | zero =>
        change 0 < chCount
        omega
    | succ n ih =>
        rw [Function.iterate_succ_apply']
        exact ih.step hmany
  intro hret
  unfold Looping at hloop
  rw [hret] at hloop
  exact hloop

theorem iterate_returned {r : Reset} {verdict : Verdict} (h : r.pc = .returned verdict) (n : ℕ) :
    (step hca target chCount sdev)^[n] r = r := by
  apply Function.iterate_fixed
  simp [step, h]

theorem returned_unique {r : Reset} {n m : ℕ} {v w : Verdict}
    (hn : ((step hca target chCount sdev)^[n] r).pc = .returned v)
    (hm : ((step hca target chCount sdev)^[m] r).pc = .returned w) :
    (step hca target chCount sdev)^[n] r = (step hca target chCount sdev)^[m] r := by
  rcases Nat.le_total n m with hle | hle
  · obtain ⟨k, rfl⟩ := Nat.exists_eq_add_of_le hle
    rw [Nat.add_comm, Function.iterate_add_apply, iterate_returned hn]
  · obtain ⟨k, rfl⟩ := Nat.exists_eq_add_of_le hle
    rw [Nat.add_comm, Function.iterate_add_apply, iterate_returned hm]

/-- With few channels the loops return after the first of them. -/
theorem reset_returns (hca : Hca) (sdev : ℕ) (hfew : chCount ≤ target.reqRingSize+1)
    (hpos : 0 < chCount) (h : Host) :
    (step hca target chCount sdev)^[target.reqRingSize+3] (srpResetDevice true 0 h) =
      ⟨target.reqRingSize+1, .returned .success,
        finishSlots hca target (some sdev) .didReset 0 target.reqRingSize h⟩ := by
  have hstart : srpResetDevice true 0 h = ⟨0, .outer, h⟩ := rfl
  rw [hstart, Function.iterate_succ_apply', iterate_channel 0 h hpos]
  have hnot : ¬ target.reqRingSize+1 < chCount := Nat.not_lt.mpr hfew
  simp [step, hnot]

/-- No command of the device is outstanding on a channel other than the first. -/
def OnFirstChannel (target : SrpTargetPort) (chCount sdev : ℕ) (h : Host) : Prop :=
  ∀ c < chCount, c ≠ 0 → ∀ j < target.reqRingSize, commandOf (some sdev) ((h.ch c).reqRing j) = none

/-- What the first channel's loop finishes is everything if the others have nothing. -/
theorem finished_finishSlots (h : Host) (hpos : 0 < chCount) :
    Finished target chCount sdev h
        (finishSlots hca target (some sdev) .didReset 0 target.reqRingSize h) ↔
      OnFirstChannel target chCount sdev h := by
  constructor
  · intro hfin c hc hne j hj
    have hring := hfin.rings c hc j hj
    rw [finishSlots_other hca target hne] at hring
    exact cleared_eq_self.mp hring.symm
  · intro hfirst
    constructor
    · refine ⟨_, finishSlots_done hca target 0 target.reqRingSize h, List.Perm.of_eq ?_⟩
      congr 1
      obtain ⟨m, rfl⟩ := Nat.exists_eq_succ_of_ne_zero hpos.ne'
      rw [List.range_succ_eq_map, List.flatMap_cons, List.flatMap_map]
      have hrest : ((List.range m).flatMap fun c =>
          commandsOn (some sdev) target.reqRingSize (h.ch c.succ)) = [] := by
        rw [List.flatMap_eq_nil_iff]
        intro c hc
        unfold commandsOn
        rw [List.filterMap_eq_nil_iff]
        intro j hj
        exact hfirst c.succ (Nat.succ_lt_succ (List.mem_range.mp hc)) (Nat.succ_ne_zero c) j
          (List.mem_range.mp hj)
      rw [hrest, List.append_nil]
    · intro c hc j hj
      by_cases hz : c = 0
      · rw [hz, finishSlots_reqRing, if_pos hj]
      · rw [finishSlots_other hca target hz]
        exact (cleared_eq_self.mpr (hfirst c hc hz j hj)).symm

/-- A confirmed LUN reset returns with exactly the commands of the device finished if and
only if the channels are at most one more than the slots of a ring and all outstanding
commands of the device are on the first channel. -/
theorem reset_finishes_device (hca : Hca) (target : SrpTargetPort) (chCount sdev : ℕ) (h : Host) :
    (∃ n, ((step hca target chCount sdev)^[n] (srpResetDevice true 0 h)).pc = .returned .success ∧
      Finished target chCount sdev h
        ((step hca target chCount sdev)^[n] (srpResetDevice true 0 h)).host) ↔
      chCount ≤ target.reqRingSize+1 ∧ OnFirstChannel target chCount sdev h := by
  constructor
  · rintro ⟨n, hret, hfin⟩
    have hfew : chCount ≤ target.reqRingSize+1 := by
      by_contra hmany
      exact reset_never_returns (Nat.lt_of_not_le hmany) h n .success hret
    refine ⟨hfew, ?_⟩
    rcases Nat.eq_zero_or_pos chCount with hz | hpos
    · intro c hc
      omega
    · have hend := reset_returns hca sdev hfew hpos h
      have hsame := returned_unique hret (by rw [hend])
      rw [hsame, hend] at hfin
      exact (finished_finishSlots h hpos).mp hfin
  · rintro ⟨hfew, hfirst⟩
    rcases Nat.eq_zero_or_pos chCount with hz | hpos
    · refine ⟨1, ?_, ?_, ?_⟩
      · simp [srpResetDevice, srpResetDeviceVerdict, step, hz]
      · exact ⟨[], by simp [srpResetDevice, srpResetDeviceVerdict, step, hz], by simp [hz]⟩
      · intro c hc
        omega
    · refine ⟨target.reqRingSize+3, ?_⟩
      rw [reset_returns hca sdev hfew hpos h]
      exact ⟨rfl, (finished_finishSlots h hpos).mpr hfirst⟩

end

/-- A target with rings of two slots, and a command in progress on its second channel. -/
def busySecond : Host where
  ch c :=
    if c = 1 then (SrpRdmaCh.login smallTarget 4).setReq 0 { scmnd := some (noData 7) }
    else SrpRdmaCh.login smallTarget 4

/-- With two channels the reset succeeds and leaves the command on the second channel
unfinished; with four it does not return. -/
theorem reset_misses_second_channel :
    (∃ n, ((step willingHca smallTarget 2 0)^[n] (srpResetDevice true 0 busySecond)).pc =
        .returned .success ∧
      ((step willingHca smallTarget 2 0)^[n] (srpResetDevice true 0 busySecond)).host.done = [] ∧
      ((((step willingHca smallTarget 2 0)^[n] (srpResetDevice true 0 busySecond)).host.ch
        1).reqRing 0).scmnd = some (noData 7)) ∧
      ∀ n verdict, ((step willingHca smallTarget 4 0)^[n] (srpResetDevice true 0 busySecond)).pc ≠
        .returned verdict :=
  ⟨⟨5, by decide, by decide, by decide⟩, reset_never_returns (by decide) busySecond⟩

end IbSrp.DeviceReset

import IbSrp.TargetOptions
import Mathlib.Data.List.Nodup

/-!
# Queue sizes and request tags

The option `queue_size` sets how many commands the SCSI mid-layer may have outstanding.
The send queue has room for one response and one task management request more, and the
request ring for one more than that without task management. `srp_alloc_req_data` gives
each slot of the ring of each channel a tag: the channel number in the upper half of
32 bits and the slot in the lower half. The highest bit marks task management requests.

The option is only checked for being positive. With many slots their numbers no longer
fit the lower half of the tag, and near the largest `int` the size of the queue itself
wraps around. The number of channels is not bounded either, but by the CPUs and nodes of
the machine.
-/
namespace IbSrp.RequestTags
open Channel TargetOptions

def srpTagCh (tag : ℕ) : ℕ := tag / 2^16 % 2^16

/-- `target->req_ring_size`, as `srp_create_target` computes it -/
def reqRingSize (t : Target) : ℤ := (t.queueSize-srpTskMgmtSqSize).bmod (2^32)

/-- The tags that `srp_alloc_req_data` assigns to the slots of a channel. -/
def srpAllocReqData (t : Target) (ch : ℕ) : List ℕ :=
  (List.range (reqRingSize t).toNat).map (buildSrpTag ch)

/-- What the queue sizes and tags of a target with `chCount` channels should satisfy. -/
structure Sound (t : Target) (chCount : ℕ) : Prop where
  queue : 0 < t.queueSize ∧ t.queueSize = t.canQueue+srpRspSqSize+srpTskMgmtSqSize
  ring : 0 < reqRingSize t ∧ reqRingSize t = t.canQueue+srpRspSqSize
  distinct : ((List.range chCount).flatMap (srpAllocReqData t)).Nodup
  recovered : ∀ ch < chCount, ∀ i < (reqRingSize t).toNat,
    srpTagCh (buildSrpTag ch i) = ch ∧ srpTagIdx (buildSrpTag ch i) = i
  command : ∀ ch < chCount, ∀ tag ∈ srpAllocReqData t ch, isTskMgmtTag tag = false

def queueSizes (ss : List Setting) : List ℤ :=
  ss.filterMap fun
    | .queueSize token => some token
    | _ => none

/-- The number of commands that a request asks for: the last `queue_size`, or the default. -/
def requested (kernel : Kernel) (buf : List Char) : ℤ :=
  (queueSizes (settings kernel (options buf))).getLastD srpDefaultCmdSqSize

/-- The queue has the size that belongs to the number of commands. -/
structure Sized (t : Target) : Prop where
  pos : 1 ≤ t.canQueue
  lt : t.canQueue < 2^31
  size : t.queueSize = (t.canQueue+srpRspSqSize+srpTskMgmtSqSize).bmod (2^32)

section
variable {kernel : Kernel}

theorem step_sized {s : Setting} (h : s.Admissible) {x : ℕ × Target} (hx : Sized x.2) :
    Sized (step kernel x s).2 := by
  cases s with
  | queueSize token => exact ⟨h.1, h.2, rfl⟩
  | _ => exact ⟨hx.pos, hx.lt, hx.size⟩

theorem foldl_sized (kernel : Kernel) (ss : List Setting) (h : ∀ s ∈ ss, s.Admissible) :
    ∀ x : ℕ × Target, Sized x.2 → Sized (ss.foldl (step kernel) x).2 := by
  induction ss with
  | nil => exact fun x hx => hx
  | cons s ss ih =>
      intro x hx
      rw [List.forall_mem_cons] at h
      exact ih h.2 _ (step_sized h.1 hx)

theorem foldl_canQueue (kernel : Kernel) (ss : List Setting) : ∀ x : ℕ × Target,
    (ss.foldl (step kernel) x).2.canQueue = (queueSizes ss).getLastD x.2.canQueue := by
  induction ss with
  | nil => exact fun x => rfl
  | cons s ss ih =>
      intro x
      rw [List.foldl_cons, ih]
      cases s with
      | queueSize token => exact List.getLastD_cons.symm
      | _ => rfl

theorem newTarget_sized (params : TargetLimits.ModuleParams) (maxSectors : ℤ) :
    Sized (newTarget params maxSectors) where
  pos := (by decide : (1 : ℤ) ≤ srpDefaultCmdSqSize)
  lt := (by decide : srpDefaultCmdSqSize < 2^31)
  size := rfl

theorem accepted_sized {buf : List Char} {params : TargetLimits.ModuleParams} {maxSectors : ℤ}
    {t : Target} (h : srpParseOptions kernel buf (newTarget params maxSectors) = .ok t) :
    Sized t ∧ t.canQueue = requested kernel buf := by
  obtain ⟨_, mask, hfold, _⟩ := (srpParseOptions_eq_ok buf _ t).mp h
  have hsized := foldl_sized kernel (settings kernel (options buf))
    (fun s hs => settings_admissible hs) (0, newTarget params maxSectors)
    (newTarget_sized params maxSectors)
  have hcan := foldl_canQueue kernel (settings kernel (options buf))
    (0, newTarget params maxSectors)
  rw [hfold] at hsized hcan
  exact ⟨hsized, hcan⟩

end

/-- An `int` expression that does not overflow. -/
theorem bmod_of_fits {x : ℤ} (hpos : 0 ≤ x) (hlt : x < 2^31) : x.bmod (2^32) = x :=
  Int.bmod_eq_of_le (by omega) (by omega)

/-- The sizes are as intended if and only if the sum does not overflow. -/
theorem sizes_iff {t : Target} (h : Sized t) :
    (0 < t.queueSize ∧ t.queueSize = t.canQueue+srpRspSqSize+srpTskMgmtSqSize) ∧
      (0 < reqRingSize t ∧ reqRingSize t = t.canQueue+srpRspSqSize) ↔ t.canQueue ≤ 2^31-3 := by
  have hpos := h.pos
  have hsize := h.size
  simp only [srpRspSqSize, srpTskMgmtSqSize, Nat.cast_one] at hsize ⊢
  constructor
  · rintro ⟨⟨_, hqueue⟩, _⟩
    have hlt : (t.canQueue+1+1).bmod (2^32) < (2^32+1)/2 := Int.bmod_lt (by decide)
    omega
  · intro hle
    rw [bmod_of_fits (by omega) (by omega)] at hsize
    have hring : reqRingSize t = t.queueSize-1 := by
      unfold reqRingSize
      exact bmod_of_fits (by simp only [srpTskMgmtSqSize]; omega)
        (by simp only [srpTskMgmtSqSize]; omega)
    omega

theorem tag_of_fits {ch i : ℕ} (hch : ch < 2^15) (hi : i < 2^16) :
    srpTagCh (buildSrpTag ch i) = ch ∧ srpTagIdx (buildSrpTag ch i) = i ∧
      isTskMgmtTag (buildSrpTag ch i) = false := by
  have htag : buildSrpTag ch i < 2^31 := by
    unfold buildSrpTag
    omega
  refine ⟨?_, ?_, Nat.testBit_lt_two_pow htag⟩
  · unfold srpTagCh buildSrpTag
    omega
  · unfold srpTagIdx buildSrpTag
    omega

/-- Tags that channel and slot can be recovered from are distinct. -/
theorem tags_nodup {t : Target} {chCount : ℕ}
    (h : ∀ ch < chCount, ∀ i < (reqRingSize t).toNat,
      srpTagCh (buildSrpTag ch i) = ch ∧ srpTagIdx (buildSrpTag ch i) = i) :
    ((List.range chCount).flatMap (srpAllocReqData t)).Nodup := by
  rw [List.nodup_flatMap]
  constructor
  · intro ch hch
    refine List.Nodup.map_on ?_ List.nodup_range
    intro i hi i' hi' he
    rw [List.mem_range] at hch hi hi'
    rw [← (h ch hch i hi).2, he, (h ch hch i' hi').2]
  · refine List.nodup_range.imp_of_mem ?_
    intro ch ch' hch hch' hne tag htag htag'
    rw [List.mem_range] at hch hch'
    obtain ⟨i, hi, rfl⟩ := List.mem_map.mp htag
    obtain ⟨i', hi', he⟩ := List.mem_map.mp htag'
    apply hne
    rw [List.mem_range] at hi hi'
    rw [← (h ch hch i hi).1, ← he, (h ch' hch' i' hi').1]

/-- For every accepted request and every number of channels, the queue sizes and tags are sound
if and only if the size of the queue does not overflow and, where there are channels, at most
`65535` commands are asked for and there are at most `32768` channels. -/
theorem tags_sound_iff (kernel : Kernel) (buf : List Char) (params : TargetLimits.ModuleParams)
    (maxSectors : ℤ) (t : Target) (chCount : ℕ)
    (h : srpParseOptions kernel buf (newTarget params maxSectors) = .ok t) :
    Sound t chCount ↔
      requested kernel buf ≤ 2^31-3 ∧
        (0 < chCount → requested kernel buf ≤ 65535 ∧ chCount ≤ 32768) := by
  obtain ⟨hsized, hcan⟩ := accepted_sized h
  rw [← hcan]
  have hpos := hsized.pos
  constructor
  · intro hsound
    have hring := hsound.ring
    simp only [srpRspSqSize, Nat.cast_one] at hring
    refine ⟨(sizes_iff hsized).mp ⟨hsound.queue, hsound.ring⟩, fun hch => ⟨?_, ?_⟩⟩
    · by_contra hmany
      have hidx := (hsound.recovered 0 hch 65536 (by omega)).2
      cases hidx
    · by_contra hmany
      have hmem : buildSrpTag 32768 0 ∈ srpAllocReqData t 32768 :=
        List.mem_map_of_mem (List.mem_range.mpr (by omega))
      have htag := hsound.command 32768 (by omega) _ hmem
      cases htag
  · rintro ⟨hfits, hbounds⟩
    obtain ⟨hqueue, hring⟩ := (sizes_iff hsized).mpr hfits
    have hsize := hring.2
    simp only [srpRspSqSize, Nat.cast_one] at hsize
    have htags : ∀ ch < chCount, ∀ i < (reqRingSize t).toNat,
        srpTagCh (buildSrpTag ch i) = ch ∧ srpTagIdx (buildSrpTag ch i) = i ∧
          isTskMgmtTag (buildSrpTag ch i) = false := by
      intro ch hch i hi
      obtain ⟨hcommands, hchannels⟩ := hbounds (by omega)
      exact tag_of_fits (by omega) (by omega)
    have hrecovered : ∀ ch < chCount, ∀ i < (reqRingSize t).toNat,
        srpTagCh (buildSrpTag ch i) = ch ∧ srpTagIdx (buildSrpTag ch i) = i :=
      fun ch hch i hi => ⟨(htags ch hch i hi).1, (htags ch hch i hi).2.1⟩
    refine ⟨hqueue, hring, tags_nodup hrecovered, hrecovered, ?_⟩
    intro ch hch tag htag
    obtain ⟨i, hi, rfl⟩ := List.mem_map.mp htag
    exact (htags ch hch i (List.mem_range.mp hi)).2.2

/-- The tags are sound for the largest queue that the lower half of a tag has room for. -/
theorem tags_sound_largest :
    ∃ t, srpParseOptions plainKernel
        "id_ext=1,ioc_guid=2,dest=10.0.0.1:5,queue_size=65535".toList (newTarget {} 1024) = .ok t ∧
      Sound t 4 := by
  have hok : ∃ t, srpParseOptions plainKernel
      "id_ext=1,ioc_guid=2,dest=10.0.0.1:5,queue_size=65535".toList (newTarget {} 1024) = .ok t :=
    ⟨_, rfl⟩
  obtain ⟨t, hok⟩ := hok
  exact ⟨t, hok, (tags_sound_iff _ _ _ _ t 4 hok).mpr (by decide)⟩

/-- With one command more, the first and the last slot of a channel have the same tag. -/
theorem tags_collide :
    ∃ t, srpParseOptions plainKernel
        "id_ext=1,ioc_guid=2,dest=10.0.0.1:5,queue_size=65536".toList (newTarget {} 1024) = .ok t ∧
      reqRingSize t = 65537 ∧ buildSrpTag 0 65536 = buildSrpTag 0 0 :=
  ⟨_, rfl, by decide, by decide⟩

end IbSrp.RequestTags

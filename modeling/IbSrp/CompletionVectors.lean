import IbSrp.ChannelCoverage

/-!
# The completion vectors of the channels

The completion vectors of the HCA are split over the nodes like the channels, after
which the option `comp_vector` moves all ranges along. The start and the end of the
range of a node are reduced modulo the number of vectors one by one. If the range
reaches the last vector its end comes before its start, the difference is negative, and
the remainder that the C operator gives for it counts the vectors outside the range
instead of those inside. The vectors of the channels then run on past the last one,
unless there are few channels or few vectors outside.
-/
namespace IbSrp.CompletionVectors
open ProportionalSplit ChannelSetup ChannelVisits ChannelCoverage

def nodeVectors (cfg : Config) (i : ℕ) : ℕ := size cfg.numOnlineNodes cfg.numCompVectors i

def firstVector (cfg : Config) (i : ℕ) : ℕ :=
  (start cfg.numOnlineNodes cfg.numCompVectors i+cfg.compVector) % cfg.numCompVectors

/-- The number of vectors from the first vector of a node to the last of the HCA. -/
def vectorsLeft (cfg : Config) (i : ℕ) : ℕ := cfg.numCompVectors-firstVector cfg i

section
variable (cfg : Config) (i k : ℕ)

theorem firstVector_lt : firstVector cfg i < cfg.numCompVectors := Nat.mod_lt _ cfg.vectors_pos

theorem nodeVectors_le : nodeVectors cfg i ≤ cfg.numCompVectors := by
  have hpos := numOnlineNodes_pos cfg
  have hstep : start cfg.numOnlineNodes cfg.numCompVectors (i+1) ≤
      start cfg.numOnlineNodes cfg.numCompVectors i+cfg.numCompVectors :=
    calc (i+1)*cfg.numCompVectors / cfg.numOnlineNodes
        ≤ (i*cfg.numCompVectors+cfg.numCompVectors*cfg.numOnlineNodes) / cfg.numOnlineNodes := by
          apply Nat.div_le_div_right
          rw [Nat.succ_mul]
          exact Nat.add_le_add_left (Nat.le_mul_of_pos_right _ hpos) _
      _ = i*cfg.numCompVectors / cfg.numOnlineNodes+cfg.numCompVectors :=
          Nat.add_mul_div_right _ _ hpos
  unfold nodeVectors size
  omega

theorem cvStart_eq : cfg.cvStart i = firstVector cfg i := by
  simp only [Config.cvStart, firstVector, start]
  norm_cast

theorem cvEnd_eq :
    cfg.cvEnd i = ((firstVector cfg i+nodeVectors cfg i) % cfg.numCompVectors : ℕ) := by
  have hsum : start cfg.numOnlineNodes cfg.numCompVectors i+nodeVectors cfg i =
      start cfg.numOnlineNodes cfg.numCompVectors (i+1) := start_add_size
  have hend : (firstVector cfg i+nodeVectors cfg i) % cfg.numCompVectors =
      (start cfg.numOnlineNodes cfg.numCompVectors (i+1)+cfg.compVector) %
        cfg.numCompVectors := by
    rw [firstVector, Nat.mod_add_mod, ← hsum, Nat.add_right_comm]
  rw [hend]
  simp only [Config.cvEnd, start]
  norm_cast

theorem chCompVector_of_fits (h : nodeVectors cfg i < vectorsLeft cfg i) :
    ∃ d ≤ nodeVectors cfg i, cfg.chCompVector i k = (firstVector cfg i+d : ℕ) := by
  have hend : (firstVector cfg i+nodeVectors cfg i) % cfg.numCompVectors =
      firstVector cfg i+nodeVectors cfg i := by
    apply Nat.mod_eq_of_lt
    unfold vectorsLeft at h
    omega
  rw [Config.chCompVector, cvStart_eq, cvEnd_eq, hend]
  split_ifs with hempty
  · exact ⟨0, Nat.zero_le _, rfl⟩
  · have hpos : 0 < nodeVectors cfg i := by omega
    refine ⟨k % nodeVectors cfg i, Nat.le_of_lt (Nat.mod_lt _ hpos), ?_⟩
    have hdiff : ((firstVector cfg i+nodeVectors cfg i : ℕ) : ℤ)-firstVector cfg i =
        nodeVectors cfg i := by omega
    rw [hdiff]
    norm_cast

theorem chCompVector_of_wraps (h : vectorsLeft cfg i ≤ nodeVectors cfg i) :
    cfg.chCompVector i k =
      if nodeVectors cfg i = cfg.numCompVectors then (firstVector cfg i : ℤ)
      else (firstVector cfg i+k % (cfg.numCompVectors-nodeVectors cfg i) : ℕ) := by
  have hle := nodeVectors_le cfg i
  have hlt := firstVector_lt cfg i
  have hend : (firstVector cfg i+nodeVectors cfg i) % cfg.numCompVectors =
      firstVector cfg i+nodeVectors cfg i-cfg.numCompVectors := by
    unfold vectorsLeft at h
    rw [Nat.mod_eq_sub_mod (by omega), Nat.mod_eq_of_lt (by omega)]
  unfold vectorsLeft at h
  rw [Config.chCompVector, cvStart_eq, cvEnd_eq, hend]
  by_cases hall : nodeVectors cfg i = cfg.numCompVectors
  · rw [if_pos hall, if_pos (by omega)]
  · have hdiff : ((firstVector cfg i+nodeVectors cfg i-cfg.numCompVectors : ℕ) : ℤ)-
        firstVector cfg i = -((cfg.numCompVectors-nodeVectors cfg i : ℕ) : ℤ) := by omega
    rw [if_neg hall, if_neg (by omega), hdiff, Int.tmod_neg]
    norm_cast

end

/-- Remainders by `m` of the numbers below `t` are below `r`. -/
theorem forall_mod_lt_iff {t m r : ℕ} (ht : 0 < t) (hm : 0 < m) :
    (∀ k < t, k % m < r) ↔ min t m ≤ r := by
  constructor
  · intro h
    have hlast := h (min t m-1) (by omega)
    rw [Nat.mod_eq_of_lt (by omega)] at hlast
    omega
  · intro h k hk
    have hle := Nat.mod_le k m
    have hlt := Nat.mod_lt k hm
    omega

/-- The completion vectors of the channels of a node are in range if and only if the range of
the node ends before the last vector, or its channels or the vectors outside its range are no
more than the vectors from its first to the last. -/
theorem comp_vectors_in_range (cfg : Config) (i : ℕ) :
    (∀ k < cfg.chEnd i-cfg.chStart i,
      0 ≤ cfg.chCompVector i k ∧ cfg.chCompVector i k < cfg.numCompVectors) ↔
      nodeVectors cfg i < vectorsLeft cfg i ∨
        min (cfg.chEnd i-cfg.chStart i) (cfg.numCompVectors-nodeVectors cfg i) ≤
          vectorsLeft cfg i := by
  have hlt := firstVector_lt cfg i
  rcases Nat.lt_or_ge (nodeVectors cfg i) (vectorsLeft cfg i) with hfits | hwraps
  · simp only [hfits, true_or, iff_true]
    intro k _
    obtain ⟨d, hd, he⟩ := chCompVector_of_fits cfg i k hfits
    rw [he]
    unfold vectorsLeft at hfits
    omega
  · have hshare : 0 < cfg.chEnd i-cfg.chStart i := Nat.sub_pos_of_lt (chStart_lt_chEnd cfg i)
    have hle := nodeVectors_le cfg i
    simp only [Nat.not_lt.mpr hwraps, false_or, chCompVector_of_wraps cfg i _ hwraps]
    by_cases hall : nodeVectors cfg i = cfg.numCompVectors
    · simp only [if_pos hall]
      constructor
      · intro _
        omega
      · intro _ k _
        omega
    · have hout : 0 < cfg.numCompVectors-nodeVectors cfg i := by omega
      rw [← forall_mod_lt_iff hshare hout]
      simp only [if_neg hall]
      refine forall₂_congr fun k _ => ?_
      unfold vectorsLeft
      omega

/-- Every channel that the loops initialise has the vector of its node and its index in the
share. -/
theorem initialised_vector {cfg : Config} {results : Results} {s : Setup}
    (h : srpCreateTarget cfg results = some s) {c : ℕ} (hc : (s.ch c).target = true) :
    ∃ i k, k < cfg.chEnd i-cfg.chStart i ∧ c = cfg.chStart i+k ∧
      (s.ch c).compVector = cfg.chCompVector i k := by
  have hchannel : ∀ {v : Visit}, channel cfg v = some c →
      v.cpuIdx < cfg.chEnd v.nodeIdx-cfg.chStart v.nodeIdx ∧
        c = cfg.chStart v.nodeIdx+v.cpuIdx := by
    intro v hv
    unfold channel at hv
    split_ifs at hv with hshare
    cases hv
    exact ⟨by omega, rfl⟩
  have hfold : ∀ vs : List Visit, ((vs.foldl (visited cfg) (initial cfg)).ch c).target = true →
      ∃ i k, k < cfg.chEnd i-cfg.chStart i ∧ c = cfg.chStart i+k ∧
        ((vs.foldl (visited cfg) (initial cfg)).ch c).compVector = cfg.chCompVector i k := by
    intro vs hvs
    rcases foldl_visited_ch vs c (initial cfg) with ⟨v, _, hv, hlast⟩ | ⟨_, hsame⟩
    · obtain ⟨hk, hcv⟩ := hchannel hv
      exact ⟨v.nodeIdx, v.cpuIdx, hk, hcv, by rw [hlast]⟩
    · rw [hsame] at hvs
      cases hvs
  rcases srpCreateTarget_cases h with ⟨_, hs⟩ | ⟨pre, v, post, s', _, _, hv, hs⟩
  · rw [hs, patchMqMap_ch] at hc ⊢
    exact hfold (visits cfg) hc
  · obtain ⟨f, hf, _, _, _, _, hch⟩ := visit_connected cfg hv
    rw [hs, patchMqMap_ch, hch] at hc ⊢
    by_cases hcf : c = f
    · rw [← hcf] at hf
      obtain ⟨hk, hcv⟩ := hchannel hf
      exact ⟨v.nodeIdx, v.cpuIdx, hk, hcv, by rw [hcf, Function.update_self]⟩
    · rw [Function.update_of_ne hcf] at hc ⊢
      exact hfold pre hc

theorem six_ascending : [0, 1, 2, 3, 4, 5].Pairwise (· < ·) := by decide

theorem three_ascending : [0, 1, 2].Pairwise (· < ·) := by decide

theorem pairs_online : ∀ cpu ∈ [0, 1, 2, 3, 4, 5], cpu / 2 ∈ [0, 1, 2] := by decide

def threeNodes : Topology where
  onlineNodes := [0, 1, 2]
  onlineCpus := [0, 1, 2, 3, 4, 5]
  possibleCpus := [0, 1, 2, 3, 4, 5]
  cpuToNode := (· / 2)
  nodes_ascending := three_ascending
  cpus_ascending := six_ascending
  node_online := pairs_online
  cpu_possible _ h := h
  cpus_ne_nil := List.cons_ne_nil _ _

/-- Three completion vectors, six channels and no `comp_vector` option. -/
def threeVectors : Config where
  topo := threeNodes
  chCountParam := 6
  numCompVectors := 3
  compVector := 0
  vectors_pos := Nat.succ_pos 2

/-- The last channel gets vector `3` of three. -/
theorem comp_vector_past_last :
    ∃ s, srpCreateTarget threeVectors noErrors = some s ∧
      (s.ch 5).connected = true ∧ (s.ch 5).compVector = 3 :=
  ⟨_, rfl, by decide⟩

end IbSrp.CompletionVectors

import IbSrp.ChannelVisits
import Mathlib.Data.List.Perm.Basic

/-!
# Which channels get set up

If no call fails, the loops over nodes and CPUs set up the channels that have a CPU
to set them up. The number of channels is bounded by the number of CPUs of the whole
machine, but a share is handed out to the CPUs of its node, one channel for each. A
node with fewer CPUs than channels in its share leaves the rest of the share as
`kcalloc` made it, and these channels are among the `ch_count` that all later loops
go over.
-/
namespace IbSrp.ChannelCoverage
open ProportionalSplit ChannelSetup ChannelVisits

def initial (cfg : Config) : Setup := { chCount := cfg.chCount }

theorem srpCreateTarget_eq (cfg : Config) (results : Results) :
    srpCreateTarget cfg results =
      match runVisits cfg results (visits cfg) (initial cfg) with
      | .ok s => some (patchMqMap cfg s)
      | .error (.connected s) => some (patchMqMap cfg s)
      | .error (.errDisconnect _ _) => none := by
  rw [srpCreateTarget, nodeLoop_eq_runVisits]
  rfl

/-- The setup reaches `connected` after all visits, or at the first login that fails. -/
theorem srpCreateTarget_cases {cfg : Config} {results : Results} {s : Setup}
    (h : srpCreateTarget cfg results = some s) :
    ((∀ c ∈ channels cfg (visits cfg), Results.Succeed results c) ∧
      s = patchMqMap cfg ((visits cfg).foldl (visited cfg) (initial cfg))) ∨
    ∃ pre v post s', visits cfg = pre ++ v :: post ∧
      (∀ c ∈ channels cfg pre, Results.Succeed results c) ∧
      visit cfg results v (pre.foldl (visited cfg) (initial cfg)) = .error (.connected s') ∧
      s = patchMqMap cfg s' := by
  rw [srpCreateTarget_eq] at h
  rcases runVisits_cases cfg (visits cfg) (initial cfg) with
    ⟨hok, hrun⟩ | ⟨pre, v, post, e, hvs, hok, hv, hrun⟩
  · rw [hrun] at h
    cases h
    exact Or.inl ⟨hok, rfl⟩
  · rw [hrun] at h
    cases e with
    | connected s' =>
        cases h
        exact Or.inr ⟨pre, v, post, s', hvs, hok, hv, rfl⟩
    | errDisconnect ret s' => cases h

theorem srpCreateTarget_of_succeed {cfg : Config} {results : Results}
    (h : ∀ c, Results.Succeed results c) :
    srpCreateTarget cfg results =
      some (patchMqMap cfg ((visits cfg).foldl (visited cfg) (initial cfg))) := by
  rw [srpCreateTarget_eq]
  rcases runVisits_cases cfg (visits cfg) (initial cfg) with
    ⟨_, hrun⟩ | ⟨pre, v, post, e, _, _, hv, _⟩
  · rw [hrun]
  · rw [visit_of_succeed cfg fun c _ => h c] at hv
    cases hv

section
variable (cfg : Config) (s : Setup)

@[simp] theorem patchMqMap_chCount : (patchMqMap cfg s).chCount = s.chCount := by
  unfold patchMqMap
  split_ifs <;> rfl

@[simp] theorem patchMqMap_ch : (patchMqMap cfg s).ch = s.ch := by
  unfold patchMqMap
  split_ifs <;> rfl

@[simp] theorem patchMqMap_setUp : (patchMqMap cfg s).setUp = s.setUp := by
  unfold patchMqMap
  split_ifs <;> rfl

end

/-- What a complete setup is: every channel has been initialised once and is connected. -/
structure Complete (s : Setup) : Prop where
  once : s.setUp.Perm (List.range s.chCount)
  connected : ∀ c < s.chCount, (s.ch c).target = true ∧ (s.ch c).connected = true
  counted : srpConnectedCh s = s.chCount

/-- All channels have a CPU if and only if each node has a CPU for each channel of its
share. -/
theorem all_served_iff (cfg : Config) :
    (∀ c < cfg.chCount, Served cfg c) ↔
      ∀ i node, cfg.topo.onlineNodes[i]? = some node →
        cfg.chEnd i-cfg.chStart i ≤ (cfg.topo.cpusOf node).length := by
  have hpos := numOnlineNodes_pos cfg
  constructor
  · intro hall i node hi
    by_contra hshort
    have hi' : i < cfg.numOnlineNodes := (List.getElem?_eq_some_iff.mp hi).1
    have hle : cfg.chEnd i ≤ cfg.chCount := start_succ_le hpos hi'
    have hpart : cfg.chStart i ≤ cfg.chStart i+(cfg.topo.cpusOf node).length ∧
        cfg.chStart i+(cfg.topo.cpusOf node).length < cfg.chEnd i := by
      omega
    obtain ⟨j, node', hj, hstart, hend, hcpu⟩ :=
      hall (cfg.chStart i+(cfg.topo.cpusOf node).length) (by omega)
    have hij : i = j := part_unique hpart ⟨hstart, hend⟩
    rw [← hij, hi] at hj
    cases hj
    rw [← hij] at hcpu
    omega
  · intro hshare c hc
    obtain ⟨i, hi, hstart, hend⟩ := exists_part hpos hc
    have hnode := List.getElem?_eq_getElem hi
    have hlen := hshare i _ hnode
    refine ⟨i, _, hnode, hstart, hend, ?_⟩
    change c < cfg.chEnd i at hend
    change cfg.chStart i ≤ c at hstart
    omega

/-- If all calls succeed, each channel is initialised and connected exactly once if and only
if every node has at least as many online CPUs as channels in its share. -/
theorem setup_complete (cfg : Config) (results : Results)
    (hok : ∀ c, Results.Succeed results c) :
    (∃ s, srpCreateTarget cfg results = some s ∧ Complete s) ↔
      ∀ i node, cfg.topo.onlineNodes[i]? = some node →
        cfg.chEnd i-cfg.chStart i ≤ (cfg.topo.cpusOf node).length := by
  rw [← all_served_iff, srpCreateTarget_of_succeed hok]
  have hcount : (patchMqMap cfg ((visits cfg).foldl (visited cfg) (initial cfg))).chCount =
      cfg.chCount := by
    rw [patchMqMap_chCount, foldl_visited_chCount]
    rfl
  have hsetUp : (patchMqMap cfg ((visits cfg).foldl (visited cfg) (initial cfg))).setUp =
      channels cfg (visits cfg) := by
    rw [patchMqMap_setUp, foldl_visited_setUp]
    rfl
  constructor
  · rintro ⟨s, hs, hcomplete⟩
    cases hs
    have honce := hcomplete.once
    rw [hcount, hsetUp] at honce
    intro c hc
    rw [← mem_channels_visits, honce.mem_iff, List.mem_range]
    exact hc
  · intro hall
    have hconn : ∀ c < cfg.chCount,
        ((patchMqMap cfg ((visits cfg).foldl (visited cfg) (initial cfg))).ch c).target = true ∧
        ((patchMqMap cfg ((visits cfg).foldl (visited cfg) (initial cfg))).ch c).connected =
          true := by
      intro c hc
      rw [patchMqMap_ch]
      rcases foldl_visited_ch (visits cfg) c (initial cfg) with ⟨v, _, _, hlast⟩ | ⟨hout, _⟩
      · rw [hlast]
        exact ⟨rfl, rfl⟩
      · exact absurd ((mem_channels_visits cfg c).mpr (hall c hc)) hout
    refine ⟨_, rfl, ?_, ?_, ?_⟩
    · rw [hcount, hsetUp]
      apply (List.perm_ext_iff_of_nodup
        ((channels_visits_ascending cfg).imp Nat.ne_of_lt) List.nodup_range).mpr
      intro c
      rw [mem_channels_visits, List.mem_range]
      exact ⟨served_lt_chCount, hall c⟩
    · rw [hcount]
      exact hconn
    · rw [srpConnectedCh, hcount, List.filter_eq_self.mpr, List.length_range]
      intro c hc
      exact (hconn c (List.mem_range.mp hc)).2

def noErrors : Results where
  newCmId _ := 0
  createChIb _ := 0
  allocReqData _ := 0
  connectCh _ := 0

theorem noErrors_succeed (c : ℕ) : Results.Succeed noErrors c := ⟨rfl, rfl, rfl, rfl⟩

theorem two_ascending : [0, 1].Pairwise (· < ·) := by decide

theorem four_ascending : [0, 1, 2, 3].Pairwise (· < ·) := by decide

def fourCpus (cpuToNode : ℕ → ℕ) (h : ∀ cpu ∈ [0, 1, 2, 3], cpuToNode cpu ∈ [0, 1]) :
    Topology where
  onlineNodes := [0, 1]
  onlineCpus := [0, 1, 2, 3]
  possibleCpus := [0, 1, 2, 3]
  cpuToNode := cpuToNode
  nodes_ascending := two_ascending
  cpus_ascending := four_ascending
  node_online := h
  cpu_possible _ h := h
  cpus_ne_nil := List.cons_ne_nil _ _

/-- A target on such a machine, with four channels. -/
def fourChannels (topo : Topology) : Config where
  topo := topo
  chCountParam := 4
  numCompVectors := 8
  compVector := 0
  vectors_pos := Nat.succ_pos 7

theorem halves_online : ∀ cpu ∈ [0, 1, 2, 3], cpu / 2 ∈ [0, 1] := by decide

/-- If the nodes have two CPUs each, all channels are set up. -/
theorem setup_complete_halves :
    ∃ s, srpCreateTarget (fourChannels (fourCpus (· / 2) halves_online)) noErrors = some s ∧
      Complete s := by
  apply (setup_complete _ noErrors noErrors_succeed).mpr
  intro i node hi
  match i with
  | 0 =>
      cases hi
      decide
  | 1 =>
      cases hi
      decide
  | i+2 => cases hi

theorem one_and_three_online : ∀ cpu ∈ [0, 1, 2, 3], min cpu 1 ∈ [0, 1] := by decide

/-- If they have one and three, the second channel is never set up. -/
theorem setup_skips_channel :
    ∃ s, srpCreateTarget (fourChannels (fourCpus (min · 1) one_and_three_online)) noErrors =
        some s ∧
      s.chCount = 4 ∧ s.setUp = [0, 2, 3] ∧ s.ch 1 = {} ∧ srpConnectedCh s = 3 :=
  ⟨_, rfl, by decide⟩

end IbSrp.ChannelCoverage

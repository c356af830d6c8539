import IbSrp.ChannelCoverage

/-!
# The map from CPUs to channels

`srp_queuecommand` takes the channel that `mq_map` has for the CPU it runs on. The loops
of the channel setup fill the map for the online CPUs, and where a login fails the entry
of the CPU at hand is overwritten with `first_cpu`. At the label `connected` the entries
of the possible CPUs that are still zero are overwritten with `first_cpu` as well.

Both times the number of a CPU is stored where the number of a channel is expected. All
other entries name connected channels, so the map is good if the first CPU visited
happens to have the number of a connected channel. The one exception is a machine whose
first node has no CPUs: there no CPU that is visited has the entry zero, and the number
of the first CPU is not used if all logins succeed and all possible CPUs are online.
-/
namespace IbSrp.CpuMap
open ProportionalSplit ChannelSetup ChannelVisits ChannelCoverage

/-- The index of the channel that `srp_map_cpu_to_ch` takes. -/
def srpMapCpuToCh (s : Setup) (cpu : ℕ) : ℤ := s.mqMap cpu

/-- The map sends every possible CPU to a connected channel of the target. -/
def MapValid (cfg : Config) (s : Setup) : Prop :=
  ∀ cpu ∈ cfg.topo.possibleCpus, ∃ c : ℕ, srpMapCpuToCh s cpu = c ∧ c < s.chCount ∧
    (s.ch c).connected = true

theorem visited_ne_nil (topo : Topology) : topo.onlineNodes.flatMap topo.cpusOf ≠ [] := by
  obtain ⟨cpu, hcpu⟩ := List.exists_mem_of_ne_nil _ topo.cpus_ne_nil
  apply List.ne_nil_of_mem (a := cpu)
  rw [List.mem_flatMap]
  exact ⟨_, topo.node_online cpu hcpu, by simp [Topology.cpusOf, hcpu]⟩

/-- The first online CPU of the first online node that has one. -/
def firstCpu (topo : Topology) : ℕ :=
  (topo.onlineNodes.flatMap topo.cpusOf).head (visited_ne_nil topo)

/-- The channel has a CPU to set it up, and its login and all logins before it succeed. -/
def Usable (cfg : Config) (results : Results) (c : ℕ) : Prop :=
  Served cfg c ∧ ∀ c' ≤ c, Served cfg c' → results.connectCh c' = 0

section
variable {cfg : Config} {results : Results}

theorem patchMqMap_mqMap (s : Setup) {cpu : ℕ} (h : cpu ∈ cfg.topo.possibleCpus) :
    (patchMqMap cfg s).mqMap cpu = if s.mqMap cpu = 0 then s.firstCpu else s.mqMap cpu := by
  unfold patchMqMap
  by_cases hzero : s.firstCpu = 0
  · rw [if_neg (not_not.mpr hzero)]
    split_ifs with hmap
    · rw [hmap, hzero]
    · rfl
  · simp [hzero, h]

/-- If all entries are zero, the number of the first CPU or a connected channel, the final
map is valid exactly if that number is a connected channel or no entry will have it. -/
theorem mapValid_patch {s : Setup} {cpu₀ : ℕ} {conn : List ℕ} (hfirst : s.firstCpu = cpu₀)
    (hconn : ∀ c, (s.ch c).connected = true ↔ c ∈ conn) (hlt : ∀ c ∈ conn, c < s.chCount)
    (hmap : ∀ cpu, s.mqMap cpu = 0 ∨ s.mqMap cpu = cpu₀ ∨ ∃ c ∈ conn, s.mqMap cpu = (c : ℕ)) :
    MapValid cfg (patchMqMap cfg s) ↔
      cpu₀ ∈ conn ∨ ∀ cpu ∈ cfg.topo.possibleCpus, s.mqMap cpu ≠ 0 ∧ s.mqMap cpu ≠ cpu₀ := by
  have hentry : ∀ cpu ∈ cfg.topo.possibleCpus,
      (s.mqMap cpu = 0 ∨ s.mqMap cpu = cpu₀) → (patchMqMap cfg s).mqMap cpu = cpu₀ := by
    intro cpu hcpu h
    rw [patchMqMap_mqMap s hcpu, hfirst]
    split_ifs with hzero
    · rfl
    · exact h.resolve_left hzero
  unfold MapValid srpMapCpuToCh
  simp only [patchMqMap_chCount, patchMqMap_ch]
  constructor
  · intro hvalid
    by_cases hin : cpu₀ ∈ conn
    · exact Or.inl hin
    · right
      intro cpu hcpu
      rw [← not_or]
      intro h
      obtain ⟨c, hc, _, hcon⟩ := hvalid cpu hcpu
      rw [hentry cpu hcpu h] at hc
      have hcpu₀ : cpu₀ = c := by omega
      rw [← hcpu₀, hconn] at hcon
      exact hin hcon
  · intro h cpu hcpu
    by_cases hold : s.mqMap cpu = 0 ∨ s.mqMap cpu = cpu₀
    · rcases h with hin | hnone
      · exact ⟨cpu₀, hentry cpu hcpu hold, hlt cpu₀ hin, (hconn cpu₀).mpr hin⟩
      · exact absurd hold (not_or.mpr (hnone cpu hcpu))
    · rcases hmap cpu with hzero | hcpu₀ | ⟨c, hc, he⟩
      · exact absurd (Or.inl hzero) hold
      · exact absurd (Or.inr hcpu₀) hold
      · refine ⟨c, ?_, hlt c hc, (hconn c).mpr hc⟩
        rw [patchMqMap_mqMap s hcpu, if_neg fun hzero => hold (Or.inl hzero), he]

theorem mqEntry_mem {pre post : List Visit} (hvs : visits cfg = pre ++ post) {v : Visit}
    (hv : v ∈ pre) : cfg.mqEntry v.nodeIdx v.cpuIdx ∈ channels cfg pre := by
  obtain ⟨before, after, hsplit⟩ := List.append_of_mem hv
  rw [hsplit, List.append_assoc, List.cons_append] at hvs
  have hentry := nodesVisits_entry _ 0 before v _ hvs
  rw [hsplit, ← List.singleton_append, ← List.append_assoc, channels_append]
  exact List.mem_append_left _ hentry

/-- After the first visits every entry is zero or names a channel they have set up. -/
theorem foldl_mqMap_cases {pre post : List Visit} (hvs : visits cfg = pre ++ post) (cpu : ℕ) :
    (pre.foldl (visited cfg) (initial cfg)).mqMap cpu = 0 ∨
      ∃ c ∈ channels cfg pre, (pre.foldl (visited cfg) (initial cfg)).mqMap cpu = (c : ℕ) := by
  by_cases hcpu : cpu ∈ pre.map Visit.cpu
  · obtain ⟨v, hv, hcpu⟩ := List.mem_map.mp hcpu
    have hnodup : (pre.map Visit.cpu).Nodup := by
      have hall := visits_cpu_nodup cfg
      rw [hvs, List.map_append] at hall
      exact hall.of_append_left
    right
    refine ⟨cfg.mqEntry v.nodeIdx v.cpuIdx, mqEntry_mem hvs hv, ?_⟩
    rw [← hcpu]
    exact foldl_visited_mqMap pre hnodup _ v hv
  · left
    exact foldl_visited_mqMap_other pre _ hcpu

theorem foldl_firstCpu {pre post : List Visit} (hvs : visits cfg = pre ++ post) (hne : pre ≠ []) :
    (pre.foldl (visited cfg) (initial cfg)).firstCpu = firstCpu cfg.topo := by
  cases pre with
  | nil => exact absurd rfl hne
  | cons v pre =>
      have hneg : (initial cfg).firstCpu < 0 := Int.negSucc_lt_zero 0
      have hcpus : (visits cfg).map Visit.cpu = cfg.topo.onlineNodes.flatMap cfg.topo.cpusOf :=
        nodesVisits_cpu _ 0
      rw [hvs, List.cons_append, List.map_cons] at hcpus
      rw [foldl_visited_firstCpu v pre _ hneg]
      simp only [firstCpu, ← hcpus, List.head_cons]

theorem first_entry_zero {node : ℕ} {nodes : List ℕ} {cpu : ℕ} {cpus : List ℕ}
    (hnodes : cfg.topo.onlineNodes = node :: nodes) (hcpus : cfg.topo.cpusOf node = cpu :: cpus) :
    ((visits cfg).foldl (visited cfg) (initial cfg)).mqMap cpu = 0 := by
  have hmem : (⟨cpu, 0, 0⟩ : Visit) ∈ visits cfg := by
    rw [visits, hnodes, nodesVisits, hcpus, nodeVisits]
    exact List.mem_append_left _ List.mem_cons_self
  have hstart : cfg.chStart 0+0 < cfg.chEnd 0 := chStart_lt_chEnd cfg 0
  have hentry : ((visits cfg).foldl (visited cfg) (initial cfg)).mqMap cpu = cfg.mqEntry 0 0 :=
    foldl_visited_mqMap _ (visits_cpu_nodup cfg) (initial cfg) _ hmem
  rw [hentry, mqEntry_of_lt hstart]
  simp [Config.chStart]

/-- If it has none, no channel that is set up is channel zero. -/
theorem channels_pos {node : ℕ} {nodes : List ℕ} (hnodes : cfg.topo.onlineNodes = node :: nodes)
    (hcpus : cfg.topo.cpusOf node = []) : ∀ c ∈ channels cfg (visits cfg), 0 < c := by
  intro c hc
  rw [visits, hnodes, nodesVisits, hcpus, nodeVisits, List.nil_append,
    mem_channels_nodesVisits] at hc
  obtain ⟨j, _, _, hstart, _⟩ := hc
  have hfirst := chStart_lt_chEnd cfg 0
  have hle : cfg.chEnd 0 ≤ cfg.chStart (0+1+j) := start_le_start (by omega)
  omega

theorem usable_of_succeed (hok : ∀ c ∈ channels cfg (visits cfg), Results.Succeed results c)
    (c : ℕ) : Usable cfg results c ↔ c ∈ channels cfg (visits cfg) := by
  rw [mem_channels_visits]
  constructor
  · exact fun h => h.1
  · intro h
    refine ⟨h, ?_⟩
    intro c' _ hc'
    exact (hok c' ((mem_channels_visits cfg c').mpr hc')).2.2.2

theorem usable_of_fail {pre post : List Visit} {v : Visit} {f : ℕ}
    (hvs : visits cfg = pre ++ v :: post) (hf : channel cfg v = some f)
    (hok : ∀ c ∈ channels cfg pre, Results.Succeed results c) (hfail : results.connectCh f ≠ 0)
    (c : ℕ) : Usable cfg results c ↔ c ∈ channels cfg pre := by
  have hchannels : channels cfg (visits cfg) = channels cfg pre ++ f :: channels cfg post := by
    rw [hvs, channels_append]
    simp [channels, hf]
  have hasc := channels_visits_ascending cfg
  rw [hchannels, List.pairwise_append, List.pairwise_cons] at hasc
  have hmem : ∀ k, Served cfg k ↔ k ∈ channels cfg pre ∨ k = f ∨ k ∈ channels cfg post := by
    intro k
    rw [← mem_channels_visits, hchannels, List.mem_append, List.mem_cons]
  constructor
  · rintro ⟨hc, hbefore⟩
    have hlt : ¬ f ≤ c := fun hle => hfail (hbefore f hle ((hmem f).mpr (Or.inr (Or.inl rfl))))
    rcases (hmem c).mp hc with hpre | he | hpost
    · exact hpre
    · exact absurd (Nat.le_of_eq he.symm) hlt
    · exact absurd (Nat.le_of_lt (hasc.2.1.1 c hpost)) hlt
  · intro hc
    refine ⟨(hmem c).mpr (Or.inl hc), ?_⟩
    intro c' hle hc'
    have hcf : c < f := hasc.2.2 c hc f List.mem_cons_self
    rcases (hmem c').mp hc' with hpre | he | hpost
    · exact (hok c' hpre).2.2.2
    · omega
    · have hfc' := hasc.2.1.1 c' hpost
      omega

theorem initial_ch (cfg : Config) (c : ℕ) : ((initial cfg).ch c).connected = false := rfl

/-- After all visits the number of the first CPU is not used if and only if the first node
has no CPU and all possible CPUs are online, unless it is the number of a channel set up. -/
theorem unused_iff {cpu₀ : ℕ} (hout : cpu₀ ∉ channels cfg (visits cfg)) :
    (∀ cpu ∈ cfg.topo.possibleCpus,
      ((visits cfg).foldl (visited cfg) (initial cfg)).mqMap cpu ≠ 0 ∧
      ((visits cfg).foldl (visited cfg) (initial cfg)).mqMap cpu ≠ cpu₀) ↔
    (∀ node ∈ cfg.topo.onlineNodes.head?, cfg.topo.cpusOf node = []) ∧
      ∀ cpu ∈ cfg.topo.possibleCpus, cpu ∈ cfg.topo.onlineCpus := by
  obtain ⟨node, nodes, hnodes⟩ := List.exists_cons_of_length_pos (numOnlineNodes_pos cfg)
  rw [hnodes, List.head?_cons]
  constructor
  · intro hunused
    constructor
    · intro node' hnode'
      cases hnode'
      cases hcpus : cfg.topo.cpusOf node with
      | nil => rfl
      | cons cpu cpus =>
          have hcpu : cpu ∈ cfg.topo.onlineCpus := by
            apply List.mem_of_mem_filter (p := fun cpu => cfg.topo.cpuToNode cpu = node)
            change cpu ∈ cfg.topo.cpusOf node
            rw [hcpus]
            exact List.mem_cons_self
          exact absurd (first_entry_zero hnodes hcpus)
            (hunused cpu (cfg.topo.cpu_possible cpu hcpu)).1
    · intro cpu hcpu
      by_contra hoff
      rw [← mem_visits_cpu] at hoff
      exact (hunused cpu hcpu).1 (foldl_visited_mqMap_other _ _ hoff)
  · rintro ⟨hempty, honline⟩ cpu hcpu
    obtain ⟨v, hv, hvcpu⟩ := List.mem_map.mp ((mem_visits_cpu cfg cpu).mpr (honline cpu hcpu))
    have hall : visits cfg = visits cfg ++ [] := (List.append_nil _).symm
    have hentry : ((visits cfg).foldl (visited cfg) (initial cfg)).mqMap v.cpu =
        cfg.mqEntry v.nodeIdx v.cpuIdx :=
      foldl_visited_mqMap _ (visits_cpu_nodup cfg) (initial cfg) v hv
    have hmem : cfg.mqEntry v.nodeIdx v.cpuIdx ∈ channels cfg (visits cfg) :=
      mqEntry_mem hall hv
    have hpos := channels_pos hnodes (hempty node rfl) _ hmem
    rw [← hvcpu, hentry]
    constructor
    · omega
    · intro he
      rw [← Int.ofNat_inj.mp he] at hout
      exact hout hmem

theorem mapValid_of_succeed (hok : ∀ c ∈ channels cfg (visits cfg), Results.Succeed results c) :
    MapValid cfg (patchMqMap cfg ((visits cfg).foldl (visited cfg) (initial cfg))) ↔
      Usable cfg results (firstCpu cfg.topo) ∨
        ((∀ node ∈ cfg.topo.onlineNodes.head?, cfg.topo.cpusOf node = []) ∧
          ∀ cpu ∈ cfg.topo.possibleCpus, cpu ∈ cfg.topo.onlineCpus) := by
  have hall : visits cfg = visits cfg ++ [] := (List.append_nil _).symm
  have hne : visits cfg ≠ [] := by
    intro hnil
    obtain ⟨cpu, hcpu⟩ := List.exists_mem_of_ne_nil _ cfg.topo.cpus_ne_nil
    rw [← mem_visits_cpu, hnil] at hcpu
    cases hcpu
  have hlt : ∀ c ∈ channels cfg (visits cfg),
      c < ((visits cfg).foldl (visited cfg) (initial cfg)).chCount := by
    intro c hc
    rw [foldl_visited_chCount]
    exact served_lt_chCount ((mem_channels_visits cfg c).mp hc)
  rw [usable_of_succeed hok, mapValid_patch (foldl_firstCpu hall hne)
    (fun c => foldl_visited_connected _ c (initial_ch cfg c)) hlt
    (fun cpu => (foldl_mqMap_cases hall cpu).imp_right Or.inr)]
  by_cases hin : firstCpu cfg.topo ∈ channels cfg (visits cfg)
  · simp only [hin, true_or]
  · rw [unused_iff hin]

/-- The map if a login fails: the CPU at hand has the number of the first CPU as its entry. -/
theorem mapValid_of_fail {pre post : List Visit} {v : Visit} {s : Setup}
    (hvs : visits cfg = pre ++ v :: post) (hok : ∀ c ∈ channels cfg pre, Results.Succeed results c)
    (hv : visit cfg results v (pre.foldl (visited cfg) (initial cfg)) = .error (.connected s)) :
    (MapValid cfg (patchMqMap cfg s) ↔ Usable cfg results (firstCpu cfg.topo)) ∧
      ∃ f, Served cfg f ∧ results.connectCh f ≠ 0 := by
  obtain ⟨f, hf, hfail, hcount, hfirst, hmap, hch⟩ := visit_connected cfg hv
  have hserved : Served cfg f := by
    rw [← mem_channels_visits, hvs]
    exact List.mem_filterMap.mpr ⟨v, by simp, hf⟩
  refine ⟨?_, f, hserved, hfail⟩
  have hcpu₀ : s.firstCpu = firstCpu cfg.topo := by
    have hpre : visits cfg = (pre ++ [v]) ++ post := by simpa using hvs
    rw [hfirst, ← foldl_firstCpu hpre (by simp), List.foldl_append]
    rfl
  have hconn : ∀ c, (s.ch c).connected = true ↔ c ∈ channels cfg pre := by
    intro c
    rw [← foldl_visited_connected pre c (initial_ch cfg c), hch]
    by_cases hc : c = f
    · rw [hc, Function.update_self]
    · rw [Function.update_of_ne hc]
  have hlt : ∀ c ∈ channels cfg pre, c < s.chCount := by
    intro c hc
    rw [hcount]
    by_contra hle
    exact hfail (((usable_of_fail hvs hf hok hfail c).mpr hc).2 f (by omega) hserved)
  have hlast : s.mqMap v.cpu = firstCpu cfg.topo := by
    rw [hmap, Function.update_self, ← hfirst, hcpu₀]
  have hentries : ∀ cpu, s.mqMap cpu = 0 ∨ s.mqMap cpu = firstCpu cfg.topo ∨
      ∃ c ∈ channels cfg pre, s.mqMap cpu = (c : ℕ) := by
    intro cpu
    by_cases hcpu : cpu = v.cpu
    · rw [hcpu]
      exact Or.inr (Or.inl hlast)
    · rw [hmap, Function.update_of_ne hcpu]
      exact (foldl_mqMap_cases hvs cpu).imp_right Or.inr
  have hpossible : v.cpu ∈ cfg.topo.possibleCpus := by
    apply cfg.topo.cpu_possible
    rw [← mem_visits_cpu, hvs]
    simp
  rw [usable_of_fail hvs hf hok hfail, mapValid_patch hcpu₀ hconn hlt hentries]
  constructor
  · rintro (hin | hunused)
    · exact hin
    · exact absurd hlast (hunused v.cpu hpossible).2
  · exact Or.inl

/-- When `srp_create_target` reaches the label `connected`, the map sends every possible CPU
to a connected channel if and only if the number of the first CPU is that of a channel whose
login and all logins before it succeed, or the first node has no CPU, all possible CPUs are
online and all logins succeed. -/
theorem map_valid_iff (cfg : Config) (results : Results) (s : Setup)
    (h : srpCreateTarget cfg results = some s) :
    MapValid cfg s ↔
      Usable cfg results (firstCpu cfg.topo) ∨
        (((∀ node ∈ cfg.topo.onlineNodes.head?, cfg.topo.cpusOf node = []) ∧
          ∀ cpu ∈ cfg.topo.possibleCpus, cpu ∈ cfg.topo.onlineCpus) ∧
          ∀ c, Served cfg c → results.connectCh c = 0) := by
  rcases srpCreateTarget_cases h with ⟨hok, hs⟩ | ⟨pre, v, post, s', hvs, hok, hv, hs⟩
  · have hlogins : ∀ c, Served cfg c → results.connectCh c = 0 := fun c hc =>
      (hok c ((mem_channels_visits cfg c).mpr hc)).2.2.2
    rw [hs, mapValid_of_succeed hok, and_iff_left hlogins]
  · obtain ⟨hiff, f, hserved, hfail⟩ := mapValid_of_fail hvs hok hv
    have hno : ¬ ∀ c, Served cfg c → results.connectCh c = 0 := fun hall => hfail (hall f hserved)
    rw [hs, hiff, or_iff_left fun hc => hno hc.2]

end

def secondRefused : Results := { noErrors with connectCh := fun c => if c = 1 then -1 else 0 }

/-- If CPU `0` is the first one the map is valid although the second login fails. -/
theorem map_valid_halves :
    ∃ s, srpCreateTarget (fourChannels (fourCpus (· / 2) halves_online)) secondRefused = some s ∧
      s.chCount = 1 ∧ MapValid (fourChannels (fourCpus (· / 2) halves_online)) s := by
  have hs : ∃ s, srpCreateTarget (fourChannels (fourCpus (· / 2) halves_online)) secondRefused =
      some s ∧ s.chCount = 1 := ⟨_, rfl, rfl⟩
  obtain ⟨s, hs, hcount⟩ := hs
  refine ⟨s, hs, hcount, (map_valid_iff _ _ s hs).mpr (Or.inl ⟨?_, ?_⟩)⟩
  · exact ⟨0, 0, rfl, by decide⟩
  · intro c hc _
    rw [Nat.le_zero.mp hc]
    rfl

theorem swapped_online : ∀ cpu ∈ [0, 1, 2, 3], 1-cpu / 2 ∈ [0, 1] := by decide

/-- If CPUs `2` and `3` are on the first node and the second login fails, there is one channel
and the map sends all CPUs to channel `2`. -/
theorem map_names_no_channel :
    ∃ s, srpCreateTarget (fourChannels (fourCpus (1-· / 2) swapped_online)) secondRefused =
        some s ∧
      s.chCount = 1 ∧ ∀ cpu ∈ [0, 1, 2, 3], srpMapCpuToCh s cpu = 2 :=
  ⟨_, rfl, rfl, by decide⟩

end IbSrp.CpuMap

import IbSrp.ChannelSetup
import Mathlib.Data.List.Nodup

/-!
# The loops over nodes and CPUs as one list of visits

The two loops of the channel setup visit every online CPU once, node after node. The
node index and CPU index of each visit are known before the loops run, because a
call that fails ends them. So the loops are one pass over a list of visits, and what
they leave behind follows from the visits before the first failure: the channels set
up are those that the visits ask for, in ascending order, and the map holds the entry
of each CPU visited.

A visit asks for a new channel as long as the share of its node is not used up. All
later CPUs of the node are mapped to the first channel of the share.
-/
namespace IbSrp.ChannelVisits
open ProportionalSplit ChannelSetup

structure Visit where
  cpu : ℕ
  nodeIdx : ℕ
  cpuIdx : ℕ
deriving DecidableEq, Repr

section
variable (cfg : Config)

def channel (v : Visit) : Option ℕ :=
  if cfg.chStart v.nodeIdx+v.cpuIdx < cfg.chEnd v.nodeIdx then
    some (cfg.chStart v.nodeIdx+v.cpuIdx)
  else none

def channels (vs : List Visit) : List ℕ := vs.filterMap (channel cfg)

/-- The visits of the CPUs of one node, from index `cpuIdx` on. -/
def nodeVisits (nodeIdx : ℕ) : ℕ → List ℕ → List Visit
  | _, [] => []
  | cpuIdx, cpu :: cpus =>
      ⟨cpu, nodeIdx, cpuIdx⟩ :: nodeVisits nodeIdx
        (if cfg.chStart nodeIdx+cpuIdx < cfg.chEnd nodeIdx then cpuIdx+1 else cpuIdx) cpus

/-- The visits of the CPUs of a list of nodes, the first of which has index `nodeIdx`. -/
def nodesVisits : ℕ → List ℕ → List Visit
  | _, [] => []
  | nodeIdx, node :: nodes =>
      nodeVisits cfg nodeIdx 0 (cfg.topo.cpusOf node) ++ nodesVisits (nodeIdx+1) nodes

def visits : List Visit := nodesVisits cfg 0 cfg.topo.onlineNodes

/-- The loop body for a CPU of the node. -/
def visit (results : Results) (v : Visit) (s : Setup) : Except Exit Setup :=
  let s := mapCpu cfg v.nodeIdx v.cpuIdx v.cpu s
  if cfg.chStart v.nodeIdx+v.cpuIdx < cfg.chEnd v.nodeIdx then
    connectCh cfg results v.nodeIdx v.cpuIdx v.cpu (initCh cfg v.nodeIdx v.cpuIdx s)
  else .ok s

def runVisits (results : Results) : List Visit → Setup → Except Exit Setup
  | [], s => .ok s
  | v :: vs, s =>
      match visit cfg results v s with
      | .error e => .error e
      | .ok s => runVisits results vs s

end

section Flattening
variable {cfg : Config} {results : Results}

theorem runVisits_append (vs ws : List Visit) : ∀ s, runVisits cfg results (vs ++ ws) s =
    match runVisits cfg results vs s with
    | .error e => .error e
    | .ok s => runVisits cfg results ws s := by
  induction vs with
  | nil => exact fun s => rfl
  | cons v vs ih =>
      intro s
      simp only [List.cons_append, runVisits]
      cases visit cfg results v s with
      | error e => rfl
      | ok s => exact ih s

theorem cpuLoop_eq_runVisits (nodeIdx node : ℕ) (cpus : List ℕ) : ∀ cpuIdx s,
    cpuLoop cfg results nodeIdx node cpus cpuIdx s =
      runVisits cfg results (nodeVisits cfg nodeIdx cpuIdx
        (cpus.filter fun cpu => cfg.topo.cpuToNode cpu = node)) s := by
  induction cpus with
  | nil => exact fun _ s => rfl
  | cons cpu cpus ih =>
      intro cpuIdx s
      by_cases hnode : cfg.topo.cpuToNode cpu = node
      · rw [List.filter_cons_of_pos (by simpa using hnode)]
        simp only [cpuLoop, nodeVisits, runVisits, visit, hnode, ne_eq, not_true_eq_false,
          if_false, ge_iff_le]
        by_cases hshare : cfg.chStart nodeIdx+cpuIdx < cfg.chEnd nodeIdx
        · rw [if_neg (by omega), if_pos hshare, if_pos hshare]
          cases connectCh cfg results nodeIdx cpuIdx cpu
              (initCh cfg nodeIdx cpuIdx (mapCpu cfg nodeIdx cpuIdx cpu s)) with
          | error e => rfl
          | ok s => exact ih (cpuIdx+1) s
        · rw [if_pos (by omega), if_neg hshare, if_neg hshare]
          exact ih cpuIdx _
      · rw [List.filter_cons_of_neg (by simpa using hnode)]
        simp only [cpuLoop, hnode, ne_eq, not_false_eq_true, if_true]
        exact ih cpuIdx s

theorem nodeLoop_eq_runVisits (nodes : List ℕ) : ∀ nodeIdx s,
    nodeLoop cfg results nodes nodeIdx s =
      runVisits cfg results (nodesVisits cfg nodeIdx nodes) s := by
  induction nodes with
  | nil => exact fun _ s => rfl
  | cons node nodes ih =>
      intro nodeIdx s
      simp only [nodeLoop, nodesVisits, runVisits_append, cpuLoop_eq_runVisits, Topology.cpusOf]
      cases runVisits cfg results (nodeVisits cfg nodeIdx 0
          (cfg.topo.onlineCpus.filter fun cpu => cfg.topo.cpuToNode cpu = node)) s with
      | error e => rfl
      | ok s => exact ih (nodeIdx+1) s

end Flattening

section Outcome
variable (cfg : Config) {results : Results}

def Results.Succeed (results : Results) (c : ℕ) : Prop :=
  results.newCmId c = 0 ∧ results.createChIb c = 0 ∧ results.allocReqData c = 0 ∧
    results.connectCh c = 0

def visited (s : Setup) (v : Visit) : Setup :=
  let s := mapCpu cfg v.nodeIdx v.cpuIdx v.cpu s
  match channel cfg v with
  | some c => (initCh cfg v.nodeIdx v.cpuIdx s).login c
  | none => s

theorem visit_of_succeed {v : Visit} (h : ∀ c ∈ channel cfg v, Results.Succeed results c)
    (s : Setup) : visit cfg results v s = .ok (visited cfg s v) := by
  unfold visit visited channel at *
  by_cases hshare : cfg.chStart v.nodeIdx+v.cpuIdx < cfg.chEnd v.nodeIdx
  · rw [if_pos hshare] at h
    obtain ⟨hid, hib, halloc, hlogin⟩ := h _ rfl
    simp [hshare, connectCh, hid, hib, halloc, hlogin]
  · simp [hshare]

theorem visit_of_fail {v : Visit} (h : ¬ ∀ c ∈ channel cfg v, Results.Succeed results c)
    (s : Setup) : ∃ e, visit cfg results v s = .error e := by
  unfold visit channel at *
  by_cases hshare : cfg.chStart v.nodeIdx+v.cpuIdx < cfg.chEnd v.nodeIdx
  · simp only [if_pos hshare, connectCh]
    split_ifs with hid hib halloc hlogin hfirst
    · exact ⟨_, rfl⟩
    · exact ⟨_, rfl⟩
    · exact ⟨_, rfl⟩
    · exact ⟨_, rfl⟩
    · exact ⟨_, rfl⟩
    · refine absurd ?_ h
      intro c hc
      rw [if_pos hshare] at hc
      cases hc
      exact ⟨not_not.mp hid, not_not.mp hib, not_not.mp halloc, not_not.mp hlogin⟩
  · refine absurd ?_ h
    intro c hc
    rw [if_neg hshare] at hc
    cases hc

/-- A visit that leaves for `connected` asks for a channel whose login fails. -/
theorem visit_connected {v : Visit} {s s' : Setup}
    (h : visit cfg results v s = .error (.connected s')) :
    ∃ c, channel cfg v = some c ∧ results.connectCh c ≠ 0 ∧ s'.chCount = c ∧
      s'.firstCpu = (visited cfg s v).firstCpu ∧
      s'.mqMap = Function.update s.mqMap v.cpu (visited cfg s v).firstCpu ∧
      s'.ch = Function.update s.ch c
        ⟨true, cfg.chCompVector v.nodeIdx v.cpuIdx, (s.ch c).connected⟩ := by
  unfold visit at h
  by_cases hshare : cfg.chStart v.nodeIdx+v.cpuIdx < cfg.chEnd v.nodeIdx
  · simp only [if_pos hshare, connectCh] at h
    split_ifs at h with hid hib halloc hlogin hfirst
    · cases h
    · cases h
    · cases h
    · cases h
    · cases h
      have hc : channel cfg v = some (cfg.chStart v.nodeIdx+v.cpuIdx) := if_pos hshare
      refine ⟨_, hc, hlogin, rfl, ?_, ?_, ?_⟩
      · simp [visited, hc, initCh, Setup.login]
      · simp [visited, hc, initCh, Setup.login, mapCpu]
      · simp [initCh, mapCpu]
  · simp [hshare] at h

/-- The loops end either after all visits or at the first one with a call that fails. -/
theorem runVisits_cases (vs : List Visit) : ∀ s,
    ((∀ c ∈ channels cfg vs, Results.Succeed results c) ∧
      runVisits cfg results vs s = .ok (vs.foldl (visited cfg) s)) ∨
    ∃ pre v post e, vs = pre ++ v :: post ∧ (∀ c ∈ channels cfg pre, Results.Succeed results c) ∧
      visit cfg results v (pre.foldl (visited cfg) s) = .error e ∧
      runVisits cfg results vs s = .error e := by
  induction vs with
  | nil =>
      intro s
      left
      exact ⟨by simp [channels], rfl⟩
  | cons v vs ih =>
      intro s
      by_cases hv : ∀ c ∈ channel cfg v, Results.Succeed results c
      · have hfirst := visit_of_succeed cfg hv s
        have hcons : ∀ ws, (∀ c ∈ channels cfg ws, Results.Succeed results c) →
            ∀ c ∈ channels cfg (v :: ws), Results.Succeed results c := by
          intro ws hws c hc
          simp only [channels, List.filterMap_cons] at hc
          cases hch : channel cfg v with
          | none =>
              rw [hch] at hc
              exact hws c hc
          | some c' =>
              rw [hch] at hc
              rcases List.mem_cons.mp hc with he | hc
              · exact hv c (by rw [hch, he]; rfl)
              · exact hws c hc
        rcases ih (visited cfg s v) with ⟨hok, hrun⟩ | ⟨pre, w, post, e, hvs, hok, hw, hrun⟩
        · left
          exact ⟨hcons vs hok, by simp only [runVisits, hfirst, hrun, List.foldl_cons]⟩
        · right
          refine ⟨v :: pre, w, post, e, by rw [hvs]; rfl, hcons pre hok, hw, ?_⟩
          simp only [runVisits, hfirst, hrun]
      · right
        obtain ⟨e, he⟩ := visit_of_fail cfg hv s
        exact ⟨[], v, vs, e, rfl, by simp [channels], he, by simp only [runVisits, he]⟩

end Outcome

section Effects
variable {cfg : Config}

theorem channels_append (vs ws : List Visit) :
    channels cfg (vs ++ ws) = channels cfg vs ++ channels cfg ws :=
  List.filterMap_append

theorem visited_mqMap (s : Setup) (v : Visit) :
    (visited cfg s v).mqMap =
      Function.update s.mqMap v.cpu (cfg.mqEntry v.nodeIdx v.cpuIdx : ℤ) := by
  unfold visited
  cases channel cfg v <;> rfl

theorem visited_firstCpu (s : Setup) (v : Visit) :
    (visited cfg s v).firstCpu = if s.firstCpu < 0 then (v.cpu : ℤ) else s.firstCpu := by
  unfold visited
  cases channel cfg v <;> rfl

theorem visited_chCount (s : Setup) (v : Visit) : (visited cfg s v).chCount = s.chCount := by
  unfold visited
  cases channel cfg v <;> rfl

theorem visited_setUp (s : Setup) (v : Visit) :
    (visited cfg s v).setUp = s.setUp ++ channels cfg [v] := by
  unfold visited channels
  by_cases hshare : cfg.chStart v.nodeIdx+v.cpuIdx < cfg.chEnd v.nodeIdx
  · simp [channel, hshare, Setup.login, initCh, mapCpu]
  · simp [channel, hshare, mapCpu]

theorem visited_ch (s : Setup) (v : Visit) (k : ℕ) :
    (visited cfg s v).ch k =
      if channel cfg v = some k then ⟨true, cfg.chCompVector v.nodeIdx v.cpuIdx, true⟩
      else s.ch k := by
  unfold visited
  by_cases hshare : cfg.chStart v.nodeIdx+v.cpuIdx < cfg.chEnd v.nodeIdx
  · by_cases hk : k = cfg.chStart v.nodeIdx+v.cpuIdx
    · simp [channel, hshare, Setup.login, initCh, hk]
    · simp [channel, hshare, Setup.login, initCh, mapCpu, Function.update_of_ne hk, Ne.symm hk]
  · simp [channel, hshare, mapCpu]

theorem foldl_visited_chCount (vs : List Visit) : ∀ s,
    (vs.foldl (visited cfg) s).chCount = s.chCount := by
  induction vs with
  | nil => exact fun s => rfl
  | cons v vs ih =>
      intro s
      rw [List.foldl_cons, ih, visited_chCount]

theorem foldl_visited_setUp (vs : List Visit) : ∀ s,
    (vs.foldl (visited cfg) s).setUp = s.setUp ++ channels cfg vs := by
  induction vs with
  | nil => exact fun s => (List.append_nil _).symm
  | cons v vs ih =>
      intro s
      rw [List.foldl_cons, ih, visited_setUp, List.append_assoc]
      rw [← channels_append, List.singleton_append]

/-- A channel is either as the last visit that sets it up leaves it, or untouched. -/
theorem foldl_visited_ch (vs : List Visit) (k : ℕ) : ∀ s,
    (∃ v ∈ vs, channel cfg v = some k ∧ (vs.foldl (visited cfg) s).ch k =
      ⟨true, cfg.chCompVector v.nodeIdx v.cpuIdx, true⟩) ∨
    (k ∉ channels cfg vs ∧ (vs.foldl (visited cfg) s).ch k = s.ch k) := by
  induction vs with
  | nil => exact fun s => Or.inr ⟨List.not_mem_nil, rfl⟩
  | cons v vs ih =>
      intro s
      rw [List.foldl_cons]
      rcases ih (visited cfg s v) with ⟨w, hw, hch, hlast⟩ | ⟨hout, hsame⟩
      · exact Or.inl ⟨w, List.mem_cons_of_mem v hw, hch, hlast⟩
      · rw [visited_ch] at hsame
        by_cases hk : channel cfg v = some k
        · rw [if_pos hk] at hsame
          exact Or.inl ⟨v, List.mem_cons_self, hk, hsame⟩
        · rw [if_neg hk] at hsame
          refine Or.inr ⟨?_, hsame⟩
          rw [← List.singleton_append, channels_append, List.mem_append, not_or]
          exact ⟨by simp [channels, hk], hout⟩

theorem foldl_visited_connected (vs : List Visit) (k : ℕ) {s : Setup}
    (hs : (s.ch k).connected = false) :
    ((vs.foldl (visited cfg) s).ch k).connected = true ↔ k ∈ channels cfg vs := by
  rcases foldl_visited_ch vs k s with ⟨v, hv, hch, hlast⟩ | ⟨hout, hsame⟩
  · have hmem : k ∈ channels cfg vs := List.mem_filterMap.mpr ⟨v, hv, hch⟩
    simp [hlast, hmem]
  · simp [hsame, hs, hout]

theorem foldl_visited_firstCpu (v : Visit) (vs : List Visit) : ∀ s, s.firstCpu < 0 →
    ((v :: vs).foldl (visited cfg) s).firstCpu = v.cpu := by
  have hkeep : ∀ s, 0 ≤ s.firstCpu → (vs.foldl (visited cfg) s).firstCpu = s.firstCpu := by
    induction vs with
    | nil => exact fun s _ => rfl
    | cons w vs ih =>
        intro s hs
        have hfirst : (visited cfg s w).firstCpu = s.firstCpu := by
          rw [visited_firstCpu, if_neg (by omega)]
        rw [List.foldl_cons, ih _ (by omega), hfirst]
  intro s hs
  have hfirst : (visited cfg s v).firstCpu = v.cpu := by
    rw [visited_firstCpu, if_pos hs]
  rw [List.foldl_cons, hkeep _ (by omega), hfirst]

theorem foldl_visited_mqMap_other (vs : List Visit) {cpu : ℕ} : ∀ s, cpu ∉ vs.map Visit.cpu →
    (vs.foldl (visited cfg) s).mqMap cpu = s.mqMap cpu := by
  induction vs with
  | nil => exact fun s _ => rfl
  | cons v vs ih =>
      intro s h
      rw [List.map_cons, List.mem_cons, not_or] at h
      rw [List.foldl_cons, ih _ h.2, visited_mqMap, Function.update_of_ne h.1]

theorem foldl_visited_mqMap (vs : List Visit) (hnodup : (vs.map Visit.cpu).Nodup) :
    ∀ s, ∀ v ∈ vs, (vs.foldl (visited cfg) s).mqMap v.cpu =
      (cfg.mqEntry v.nodeIdx v.cpuIdx : ℤ) := by
  induction vs with
  | nil =>
      intro s v hv
      cases hv
  | cons w vs ih =>
      intro s v hv
      rw [List.map_cons, List.nodup_cons] at hnodup
      rw [List.foldl_cons]
      rcases List.mem_cons.mp hv with he | hv
      · rw [he, foldl_visited_mqMap_other vs _ hnodup.1, visited_mqMap, Function.update_self]
      · exact ih hnodup.2 _ v hv

end Effects

section Order
variable {cfg : Config} {i k : ℕ}

theorem numOnlineNodes_pos (cfg : Config) : 0 < cfg.numOnlineNodes := by
  obtain ⟨cpu, hcpu⟩ := List.exists_mem_of_ne_nil _ cfg.topo.cpus_ne_nil
  exact List.length_pos_of_mem (cfg.topo.node_online cpu hcpu)

theorem numOnlineNodes_le_chCount (cfg : Config) : cfg.numOnlineNodes ≤ cfg.chCount :=
  Nat.le_max_left _ _

/-- Every node has a share, because there are at least as many channels as nodes. -/
theorem chStart_lt_chEnd (cfg : Config) (i : ℕ) : cfg.chStart i < cfg.chEnd i := by
  have hpos : 0 < size cfg.numOnlineNodes cfg.chCount i :=
    size_pos (numOnlineNodes_pos cfg) (numOnlineNodes_le_chCount cfg)
  unfold size at hpos
  unfold Config.chStart Config.chEnd
  omega

theorem mqEntry_of_lt (h : cfg.chStart i+k < cfg.chEnd i) :
    cfg.mqEntry i k = cfg.chStart i+k := by
  unfold Config.mqEntry
  rw [if_neg (Nat.ne_of_lt (chStart_lt_chEnd cfg i)), Nat.mod_eq_of_lt (by omega)]

theorem mqEntry_of_eq (h : cfg.chStart i+k = cfg.chEnd i) : cfg.mqEntry i k = cfg.chStart i := by
  unfold Config.mqEntry
  have hk : cfg.chEnd i-cfg.chStart i = k := by omega
  rw [if_neg (Nat.ne_of_lt (chStart_lt_chEnd cfg i)), hk, Nat.mod_self, Nat.add_zero]

theorem nodeVisits_cpu (i : ℕ) (cpus : List ℕ) : ∀ k,
    (nodeVisits cfg i k cpus).map Visit.cpu = cpus := by
  induction cpus with
  | nil => exact fun k => rfl
  | cons cpu cpus ih =>
      intro k
      rw [nodeVisits, List.map_cons, ih]

theorem nodesVisits_cpu (nodes : List ℕ) : ∀ i,
    (nodesVisits cfg i nodes).map Visit.cpu = nodes.flatMap cfg.topo.cpusOf := by
  induction nodes with
  | nil => exact fun i => rfl
  | cons node nodes ih =>
      intro i
      rw [nodesVisits, List.map_append, nodeVisits_cpu, ih, List.flatMap_cons]

theorem visits_cpu_nodup (cfg : Config) : ((visits cfg).map Visit.cpu).Nodup := by
  rw [visits, nodesVisits_cpu, List.nodup_flatMap]
  constructor
  · intro node _
    exact (cfg.topo.cpus_ascending.imp Nat.ne_of_lt).filter _
  · refine cfg.topo.nodes_ascending.imp ?_
    intro node node' hlt cpu hcpu hcpu'
    simp only [Topology.cpusOf, List.mem_filter, decide_eq_true_eq] at hcpu hcpu'
    omega

theorem mem_visits_cpu (cfg : Config) (cpu : ℕ) :
    cpu ∈ (visits cfg).map Visit.cpu ↔ cpu ∈ cfg.topo.onlineCpus := by
  rw [visits, nodesVisits_cpu, List.mem_flatMap]
  simp only [Topology.cpusOf, List.mem_filter, decide_eq_true_eq]
  constructor
  · rintro ⟨node, _, hcpu, _⟩
    exact hcpu
  · intro hcpu
    exact ⟨_, cfg.topo.node_online cpu hcpu, hcpu, rfl⟩

/-- A node sets up the first channels of its share, one for each CPU. -/
theorem channels_nodeVisits (i : ℕ) (cpus : List ℕ) : ∀ k, cfg.chStart i+k ≤ cfg.chEnd i →
    channels cfg (nodeVisits cfg i k cpus) =
      List.range' (cfg.chStart i+k) (min (cfg.chEnd i-(cfg.chStart i+k)) cpus.length) := by
  induction cpus with
  | nil =>
      intro k _
      rw [List.length_nil, Nat.min_zero]
      rfl
  | cons cpu cpus ih =>
      intro k hk
      by_cases hshare : cfg.chStart i+k < cfg.chEnd i
      · have hlen : min (cfg.chEnd i-(cfg.chStart i+k)) (cpu :: cpus).length =
            min (cfg.chEnd i-(cfg.chStart i+(k+1))) cpus.length+1 := by
          rw [List.length_cons]
          omega
        rw [nodeVisits, if_pos hshare, hlen, List.range'_succ]
        have hrest := ih (k+1) (by omega)
        simp only [channels] at hrest
        simp only [channels, List.filterMap_cons, channel, if_pos hshare, hrest]
        rfl
      · have hlen : min (cfg.chEnd i-(cfg.chStart i+k)) (cpu :: cpus).length =
            min (cfg.chEnd i-(cfg.chStart i+k)) cpus.length := by
          omega
        rw [nodeVisits, if_neg hshare, hlen, ← ih k hk]
        simp only [channels, List.filterMap_cons, channel, if_neg hshare]

/-- A channel that some CPU sets up: it is in the share of a node, among as many channels of
the share as the node has CPUs. -/
def Served (cfg : Config) (c : ℕ) : Prop :=
  ∃ i node, cfg.topo.onlineNodes[i]? = some node ∧ cfg.chStart i ≤ c ∧ c < cfg.chEnd i ∧
    c < cfg.chStart i+(cfg.topo.cpusOf node).length

theorem mem_channels_nodesVisits (nodes : List ℕ) (c : ℕ) : ∀ i,
    c ∈ channels cfg (nodesVisits cfg i nodes) ↔
      ∃ j node, nodes[j]? = some node ∧ cfg.chStart (i+j) ≤ c ∧ c < cfg.chEnd (i+j) ∧
        c < cfg.chStart (i+j)+(cfg.topo.cpusOf node).length := by
  induction nodes with
  | nil =>
      intro i
      simp [nodesVisits, channels]
  | cons node nodes ih =>
      intro i
      have hle := chStart_lt_chEnd cfg i
      rw [nodesVisits, channels_append, List.mem_append, ih,
        channels_nodeVisits i _ 0 (by omega), List.mem_range'_1]
      constructor
      · rintro (h | ⟨j, node', hj, h⟩)
        · exact ⟨0, node, rfl, by simp only [Nat.add_zero] at h ⊢; omega⟩
        · exact ⟨j+1, node', hj, by rwa [Nat.add_right_comm, Nat.add_assoc] at h⟩
      · rintro ⟨j, node', hj, h⟩
        cases j with
        | zero =>
            cases hj
            left
            simp only [Nat.add_zero] at h ⊢
            omega
        | succ j =>
            right
            exact ⟨j, node', hj, by rwa [Nat.add_right_comm, Nat.add_assoc]⟩

theorem mem_channels_visits (cfg : Config) (c : ℕ) :
    c ∈ channels cfg (visits cfg) ↔ Served cfg c := by
  rw [visits, mem_channels_nodesVisits]
  simp only [Nat.zero_add]
  rfl

theorem channels_nodesVisits_ascending (nodes : List ℕ) : ∀ i,
    (channels cfg (nodesVisits cfg i nodes)).Pairwise (· < ·) := by
  induction nodes with
  | nil => exact fun i => .nil
  | cons node nodes ih =>
      intro i
      have hle := chStart_lt_chEnd cfg i
      rw [nodesVisits, channels_append, List.pairwise_append,
        channels_nodeVisits i _ 0 (by omega)]
      refine ⟨List.pairwise_lt_range', ih (i+1), ?_⟩
      intro c hc c' hc'
      rw [List.mem_range'_1] at hc
      obtain ⟨j, node', hj, hstart, _⟩ := (mem_channels_nodesVisits nodes c' (i+1)).mp hc'
      have hnext : cfg.chEnd i ≤ cfg.chStart (i+1+j) := start_le_start (by omega)
      omega

theorem channels_visits_ascending (cfg : Config) :
    (channels cfg (visits cfg)).Pairwise (· < ·) :=
  channels_nodesVisits_ascending _ 0

theorem served_lt_chCount {c : ℕ} (h : Served cfg c) : c < cfg.chCount := by
  obtain ⟨i, node, hi, _, hend, _⟩ := h
  have hlt : i < cfg.numOnlineNodes := (List.getElem?_eq_some_iff.mp hi).1
  have hle : cfg.chEnd i ≤ cfg.chCount := start_succ_le (numOnlineNodes_pos cfg) hlt
  omega

/-- The entry of a CPU names a channel that has been set up by then: the first CPU of a
node always sets one up. -/
theorem nodeVisits_entry (i : ℕ) (cpus : List ℕ) : ∀ k (before : List ℕ),
    cfg.chStart i+k ≤ cfg.chEnd i → (0 < k → cfg.chStart i ∈ before) →
    ∀ pre v post, nodeVisits cfg i k cpus = pre ++ v :: post →
      cfg.mqEntry v.nodeIdx v.cpuIdx ∈ before ++ channels cfg (pre ++ [v]) := by
  induction cpus with
  | nil =>
      intro k before _ _ pre v post h
      simp [nodeVisits] at h
  | cons cpu cpus ih =>
      intro k before hk hbefore pre v post h
      have hlt := chStart_lt_chEnd cfg i
      cases pre with
      | nil =>
          simp only [nodeVisits, List.nil_append, List.cons.injEq] at h
          rw [← h.1]
          by_cases hshare : cfg.chStart i+k < cfg.chEnd i
          · rw [mqEntry_of_lt hshare]
            simp [channels, channel, hshare]
          · have hfull : cfg.chStart i+k = cfg.chEnd i := by omega
            rw [mqEntry_of_eq hfull]
            exact List.mem_append_left _ (hbefore (by omega))
      | cons u pre =>
          simp only [nodeVisits, List.cons_append, List.cons.injEq] at h
          rw [← h.1, List.cons_append, ← List.singleton_append, channels_append,
            ← List.append_assoc]
          refine ih _ (before ++ channels cfg [⟨cpu, i, k⟩]) ?_ ?_ pre v post h.2
          · split_ifs with hshare <;> omega
          · intro _
            rcases Nat.eq_zero_or_pos k with hz | hpos
            · simp [channels, channel, hz, hlt]
            · exact List.mem_append_left _ (hbefore hpos)

theorem nodesVisits_entry (nodes : List ℕ) : ∀ i pre v post,
    nodesVisits cfg i nodes = pre ++ v :: post →
      cfg.mqEntry v.nodeIdx v.cpuIdx ∈ channels cfg (pre ++ [v]) := by
  induction nodes with
  | nil =>
      intro i pre v post h
      simp [nodesVisits] at h
  | cons node nodes ih =>
      intro i pre v post h
      have hlt := chStart_lt_chEnd cfg i
      rcases List.append_eq_append_iff.mp h with ⟨pre', hpre, hrest⟩ | ⟨post', hnode, hpost⟩
      · rw [hpre, List.append_assoc, channels_append]
        exact List.mem_append_right _ (ih (i+1) pre' v post hrest)
      · cases post' with
        | nil =>
            rw [List.append_nil] at hnode
            rw [channels_append]
            have hrest := ih (i+1) [] v post (by simpa using hpost.symm)
            rw [List.nil_append] at hrest
            exact List.mem_append_right _ hrest
        | cons w post' =>
            rw [List.cons_append, List.cons.injEq] at hpost
            rw [← hpost.1] at hnode
            have hentry := nodeVisits_entry i (cfg.topo.cpusOf node) 0 [] (by omega) (by simp)
              pre v post' hnode
            rwa [List.nil_append] at hentry

end Order

end IbSrp.ChannelVisits

import IbSrp.ProportionalSplit
import Mathlib.Data.List.Basic
import Mathlib.Logic.Function.Basic

/-!
# Setting up the channels of a target

`srp_create_target` decides on a number of channels, splits them over the online
nodes in proportion, and goes over the online CPUs of each node. A CPU is mapped to
a channel of its node; as long as the share of the node is not used up the channel is
new, and is given a completion vector, initialised and connected. If a login fails
after the first one the function goes on with the channels it has.

The loops leave in two ways before their end: to the label `connected` with fewer
channels, and to `err_disconnect`. The results of the calls for each channel are
given. This is the configuration without `HAVE_USE_BLK_TAGS`, in which the driver
has the map from CPUs to channels. The limits of the kernel on nodes and CPUs keep
the products of their numbers within 32 bits, so the arithmetic of the split is that
of the natural numbers. That of the completion vectors is that of the C operators.
-/
namespace IbSrp.ChannelSetup
open ProportionalSplit

/-- The nodes and CPUs of the machine, in the order in which the kernel visits them. -/
structure Topology where
  onlineNodes : List ℕ
  onlineCpus : List ℕ
  possibleCpus : List ℕ
  cpuToNode : ℕ → ℕ
  nodes_ascending : onlineNodes.Pairwise (· < ·)
  cpus_ascending : onlineCpus.Pairwise (· < ·)
  node_online : ∀ cpu ∈ onlineCpus, cpuToNode cpu ∈ onlineNodes
  cpu_possible : ∀ cpu ∈ onlineCpus, cpu ∈ possibleCpus
  cpus_ne_nil : onlineCpus ≠ []

def Topology.cpusOf (topo : Topology) (node : ℕ) : List ℕ :=
  topo.onlineCpus.filter fun cpu => topo.cpuToNode cpu = node

/-- What the number of channels and their completion vectors depend on: the topology, the
module parameter `ch_count`, `num_comp_vectors` of the HCA and the option `comp_vector`. -/
structure Config where
  topo : Topology
  chCountParam : ℕ
  numCompVectors : ℕ
  compVector : ℕ
  vectors_pos : 0 < numCompVectors

namespace Config

def numOnlineNodes (cfg : Config) : ℕ := cfg.topo.onlineNodes.length

def numOnlineCpus (cfg : Config) : ℕ := cfg.topo.onlineCpus.length

/-- `target->ch_count` when the loops begin -/
def chCount (cfg : Config) : ℕ :=
  max cfg.numOnlineNodes
    (min (if cfg.chCountParam ≠ 0 then cfg.chCountParam
      else min (4*cfg.numOnlineNodes) cfg.numCompVectors) cfg.numOnlineCpus)

def chStart (cfg : Config) (nodeIdx : ℕ) : ℕ := start cfg.numOnlineNodes cfg.chCount nodeIdx

def chEnd (cfg : Config) (nodeIdx : ℕ) : ℕ := start cfg.numOnlineNodes cfg.chCount (nodeIdx+1)

def cvStart (cfg : Config) (nodeIdx : ℕ) : ℤ :=
  (((nodeIdx : ℤ)*cfg.numCompVectors).tdiv cfg.numOnlineNodes+cfg.compVector).tmod
    cfg.numCompVectors

def cvEnd (cfg : Config) (nodeIdx : ℕ) : ℤ :=
  (((nodeIdx+1 : ℤ)*cfg.numCompVectors).tdiv cfg.numOnlineNodes+cfg.compVector).tmod
    cfg.numCompVectors

/-- `ch->comp_vector` of the channel with index `cpuIdx` within its node -/
def chCompVector (cfg : Config) (nodeIdx cpuIdx : ℕ) : ℤ :=
  if cfg.cvStart nodeIdx = cfg.cvEnd nodeIdx then cfg.cvStart nodeIdx
  else cfg.cvStart nodeIdx+(cpuIdx : ℤ).tmod (cfg.cvEnd nodeIdx-cfg.cvStart nodeIdx)

def mqEntry (cfg : Config) (nodeIdx cpuIdx : ℕ) : ℕ :=
  if cfg.chStart nodeIdx = cfg.chEnd nodeIdx then cfg.chStart nodeIdx
  else cfg.chStart nodeIdx+cpuIdx % (cfg.chEnd nodeIdx-cfg.chStart nodeIdx)

end Config

/-- The return values of the calls for each channel. -/
structure Results where
  newCmId : ℕ → ℤ
  createChIb : ℕ → ℤ
  allocReqData : ℕ → ℤ
  connectCh : ℕ → ℤ

/-- What the loops write of a channel; `target` is set for the channels they initialise. -/
structure Ch where
  target : Bool := false
  compVector : ℤ := 0
  connected : Bool := false
deriving DecidableEq, Repr

/-- The target during the loops. The list `setUp` records the channels in the order in which
they are initialised. -/
structure Setup where
  chCount : ℕ
  ch : ℕ → Ch := fun _ => {}
  mqMap : ℕ → ℤ := fun _ => 0
  firstCpu : ℤ := -1
  setUp : List ℕ := []

inductive Exit where
  | connected (s : Setup)
  | errDisconnect (ret : ℤ) (s : Setup)

/-- The head of the loop body: `first_cpu` and the map. -/
def mapCpu (cfg : Config) (nodeIdx cpuIdx cpu : ℕ) (s : Setup) : Setup :=
  { s with
    firstCpu := if s.firstCpu < 0 then cpu else s.firstCpu
    mqMap := Function.update s.mqMap cpu (cfg.mqEntry nodeIdx cpuIdx) }

def initCh (cfg : Config) (nodeIdx cpuIdx : ℕ) (s : Setup) : Setup :=
  let c := cfg.chStart nodeIdx+cpuIdx
  { s with
    ch := Function.update s.ch c
      { s.ch c with target := true, compVector := cfg.chCompVector nodeIdx cpuIdx }
    setUp := s.setUp ++ [c] }

def Setup.login (c : ℕ) (s : Setup) : Setup :=
  { s with ch := Function.update s.ch c { s.ch c with connected := true } }

/-- The calls for channel `ch_start + cpu_idx`. -/
def connectCh (cfg : Config) (results : Results) (nodeIdx cpuIdx cpu : ℕ) (s : Setup) :
    Except Exit Setup :=
  let c := cfg.chStart nodeIdx+cpuIdx
  if results.newCmId c ≠ 0 then .error (.errDisconnect (results.newCmId c) s)
  else if results.createChIb c ≠ 0 then .error (.errDisconnect (results.createChIb c) s)
  else if results.allocReqData c ≠ 0 then .error (.errDisconnect (results.allocReqData c) s)
  else if results.connectCh c ≠ 0 then
    if nodeIdx = 0 ∧ cpuIdx = 0 then .error (.errDisconnect (results.connectCh c) s)
    else .error (.connected
      { s with mqMap := Function.update s.mqMap cpu s.firstCpu, chCount := c })
  else .ok (s.login c)

/-- `for_each_online_cpu` -/
def cpuLoop (cfg : Config) (results : Results) (nodeIdx node : ℕ) :
    List ℕ → ℕ → Setup → Except Exit Setup
  | [], _, s => .ok s
  | cpu :: cpus, cpuIdx, s =>
      if cfg.topo.cpuToNode cpu ≠ node then cpuLoop cfg results nodeIdx node cpus cpuIdx s
      else
        let s := mapCpu cfg nodeIdx cpuIdx cpu s
        if cfg.chStart nodeIdx+cpuIdx ≥ cfg.chEnd nodeIdx then
          cpuLoop cfg results nodeIdx node cpus cpuIdx s
        else
          match connectCh cfg results nodeIdx cpuIdx cpu (initCh cfg nodeIdx cpuIdx s) with
          | .error e => .error e
          | .ok s => cpuLoop cfg results nodeIdx node cpus (cpuIdx+1) s

/-- `for_each_online_node` -/
def nodeLoop (cfg : Config) (results : Results) : List ℕ → ℕ → Setup → Except Exit Setup
  | [], _, s => .ok s
  | node :: nodes, nodeIdx, s =>
      match cpuLoop cfg results nodeIdx node cfg.topo.onlineCpus 0 s with
      | .error e => .error e
      | .ok s => nodeLoop cfg results nodes (nodeIdx+1) s

/-- The statements at the label `connected`. -/
def patchMqMap (cfg : Config) (s : Setup) : Setup :=
  if s.firstCpu ≠ 0 then
    { s with mqMap := fun cpu =>
        if cpu ∈ cfg.topo.possibleCpus ∧ s.mqMap cpu = 0 then s.firstCpu else s.mqMap cpu }
  else s

/-- The part of `srp_create_target` that sets up the channels; `none` if it ends at
`err_disconnect`. -/
def srpCreateTarget (cfg : Config) (results : Results) : Option Setup :=
  match nodeLoop cfg results cfg.topo.onlineNodes 0 { chCount := cfg.chCount } with
  | .ok s => some (patchMqMap cfg s)
  | .error (.connected s) => some (patchMqMap cfg s)
  | .error (.errDisconnect _ _) => none

def srpConnectedCh (s : Setup) : ℕ :=
  ((List.range s.chCount).filter fun c => (s.ch c).connected).length

end IbSrp.ChannelSetup

import LatencyAnalyzer.Numa.Support

/-!
# Matrix — the initiators of the NUMA matrix

For every node, `run_numa_matrix` looks for the first allowed CPU that `node_for_cpu` maps to it.
Each such question lists the directory again, so the listings form a sequence and the functions
below carry the number of listings made so far.
-/

namespace LatencyAnalyzer
namespace Numa

open Cxx

/-! ## The search of `main.cpp` -/

/-- The listings `node_for_cpu` needs for one CPU. -/
def listingsFor (cpu : Int) : Nat :=
  if cpu < 0 then 0 else 1

def firstAllowedCpuForNode (sysfs : Nat → SysNode) (nodeId : Int) :
    List Int → Nat → Option (Int × Nat)
  | [], k => some (-1, k)
  -- `node_for_cpu` lists the directory again, except for a negative argument.
  | cpu :: rest, k =>
      match nodeForCpu (sysfs k) cpu with
      | none => none
      | some node =>
          if node = nodeId then some (cpu, k + listingsFor cpu)
          else firstAllowedCpuForNode sysfs nodeId rest (k + listingsFor cpu)

structure Initiator where
  node : Int
  cpu : Int
  deriving DecidableEq, Repr

/-- The loop that fills `initiators`. -/
def pushInitiators (sysfs : Nat → SysNode) (allowedCpus : List Int) :
    List NumaNodeInfo → Nat → List Initiator → Option (List Initiator)
  | [], _, initiators => some initiators
  | node :: rest, k, initiators =>
      match firstAllowedCpuForNode sysfs node.id allowedCpus k with
      | none => none
      | some (cpu, k') =>
          if cpu ≥ 0 then
            pushInitiators sysfs allowedCpus rest k'
              (initiators ++ [{ node := node.id, cpu := cpu }])
          else
            pushInitiators sysfs allowedCpus rest k' initiators

/-- The initiators of `run_numa_matrix`; without nodes or allowed CPUs it returns before. -/
def matrixInitiators (sysfs : Nat → SysNode) (allowedCpus : List Int) :
    Option (List Initiator) :=
  match nodes (sysfs 0) with
  | none => none
  | some found =>
      if found.isEmpty || allowedCpus.isEmpty then some []
      else pushInitiators sysfs allowedCpus found 1 []

/-! ## What a node is given -/

/-- `cpu` is the first allowed CPU that belongs to the node. -/
def FirstOwned (allowedCpus : List Int) (node : MemoryNode) (cpu : Int) : Prop :=
  ∃ before after, allowedCpus = before ++ cpu :: after ∧ node.Has cpu ∧
    ∀ c ∈ before, ¬ node.Has c

/-- The rows are the nodes that own an allowed CPU, in ascending order, each with the first one. -/
structure Selected (t : Topology) (allowedCpus : List Int) (rows : List Initiator) : Prop where
  ascending : rows.Pairwise (·.node < ·.node)
  sound : ∀ row ∈ rows, ∃ node ∈ t.nodes, row.node = node.id ∧
    FirstOwned allowedCpus node row.cpu
  complete : ∀ node ∈ t.nodes, (∃ cpu ∈ allowedCpus, node.Has cpu) →
    ∃ row ∈ rows, row.node = node.id

/-- The row of one node. -/
def select (allowedCpus : List Int) (node : NumaNodeInfo) : Option Initiator :=
  (allowedCpus.find? (fun cpu => node.cpus.contains cpu)).map fun cpu =>
    { node := node.id, cpu := cpu }

theorem has_nonneg {node : MemoryNode} {cpu : Int} (h : node.Has cpu) : 0 ≤ cpu := by
  rcases h with ⟨c, _, rfl⟩
  omega

theorem contains_info {node : MemoryNode} {cpu : Int} :
    node.info.cpus.contains cpu = true ↔ node.Has cpu := by
  simp [node.mem_info_cpus]

/-- `node_for_cpu` answers with a node exactly for the CPUs of that node. -/
theorem Topology.NodeOf.eq_id_iff {t : Topology} {cpu v : Int} (h : t.NodeOf cpu v)
    {node : MemoryNode} (hnode : node ∈ t.nodes) : v = node.id ↔ node.Has cpu := by
  rcases h with ⟨owner, howner, hcpu, rfl⟩ | ⟨hnone, rfl⟩
  -- Either the CPU has an owner, or the answer is -1 and no node has that number.
  · constructor
    · intro heq
      have hsame : owner = node := by
        by_contra hne
        have hsymm : Std.Symm fun a b : MemoryNode => a.id ≠ b.id := ⟨fun _ _ h => h.symm⟩
        exact t.distinct.forall howner hnode hne (by exact_mod_cast heq)
      rwa [← hsame]
    · intro hhas
      rw [t.owner_unique howner hnode hcpu hhas]
  · constructor
    · intro heq
      omega
    · intro hhas
      exact absurd hhas (hnone node hnode)

section Listed

variable {t : Topology} {sysfs : Nat → SysNode} (h : ∀ k, (sysfs k).Lists t)
include h

theorem firstAllowedCpuForNode_eq {node : MemoryNode} (hnode : node ∈ t.nodes)
    (allowedCpus : List Int) (k : Nat) :
    ∃ k', firstAllowedCpuForNode sysfs node.info.id allowedCpus k =
      some ((allowedCpus.find? (fun cpu => node.info.cpus.contains cpu)).getD (-1), k') := by
  induction allowedCpus generalizing k with
  | nil => exact ⟨k, rfl⟩
  | cons cpu rest ih =>
      rcases nodeForCpu_of_lists (h k) cpu with ⟨v, hv, hof⟩
      -- Asking the CPU for its node is asking the node for the CPU.
      have hiff : v = node.info.id ↔ node.info.cpus.contains cpu = true :=
        (hof.eq_id_iff hnode).trans contains_info.symm
      by_cases howned : v = node.info.id
      · refine ⟨k + listingsFor cpu, ?_⟩
        simp only [firstAllowedCpuForNode, hv, if_pos howned,
          List.find?_cons_of_pos (hiff.1 howned), Option.getD_some]
      · rcases ih (k + listingsFor cpu) with ⟨k', hrest⟩
        refine ⟨k', ?_⟩
        rw [List.find?_cons_of_neg (fun hc => howned (hiff.2 hc)), ← hrest]
        simp only [firstAllowedCpuForNode, hv, if_neg howned]

theorem pushInitiators_eq {found : List NumaNodeInfo} (allowedCpus : List Int)
    (hfound : ∀ info ∈ found, ∃ node ∈ t.nodes, node.info = info) (k : Nat)
    (initiators : List Initiator) :
    pushInitiators sysfs allowedCpus found k initiators =
      some (initiators ++ found.filterMap (select allowedCpus)) := by
  induction found generalizing k initiators with
  | nil => simp [pushInitiators]
  | cons info rest ih =>
      rcases hfound info List.mem_cons_self with ⟨node, hnode, rfl⟩
      rcases firstAllowedCpuForNode_eq h hnode allowedCpus k with ⟨k', hfirst⟩
      have hrest := ih (fun i hi => hfound i (List.mem_cons_of_mem _ hi)) k'
      cases hfind : allowedCpus.find? (fun cpu => node.info.cpus.contains cpu) with
      | none =>
          have hselect : select allowedCpus node.info = none := by rw [select, hfind]; rfl
          rw [hfind] at hfirst
          rw [List.filterMap_cons_none hselect, ← hrest]
          simp [pushInitiators, hfirst]
      | some cpu =>
          have hselect :
              select allowedCpus node.info = some { node := node.info.id, cpu := cpu } := by
            rw [select, hfind]
            rfl
          have hnonneg : 0 ≤ cpu := has_nonneg (contains_info.1 (List.find?_some hfind))
          rw [hfind] at hfirst
          rw [List.filterMap_cons_some hselect]
          simp [pushInitiators, hfirst, hnonneg, hrest]

theorem matrixInitiators_eq (allowedCpus : List Int) :
    ∃ found, nodes (sysfs 0) = some found ∧
      matrixInitiators sysfs allowedCpus = some (found.filterMap (select allowedCpus)) := by
  rcases nodes_of_lists (h 0) with ⟨found, hfound, hperm, _⟩
  refine ⟨found, hfound, ?_⟩
  have hmem : ∀ info ∈ found, ∃ node ∈ t.nodes, node.info = info := fun info hinfo =>
    List.mem_map.1 (hperm.mem_iff.1 hinfo)
  unfold matrixInitiators
  rw [hfound]
  dsimp only
  -- The early return is right: without nodes or allowed CPUs there are no rows.
  split
  · rename_i hempty
    rcases Bool.or_eq_true _ _ ▸ hempty with hnodes | hallowed
    · simp [List.isEmpty_iff.1 hnodes]
    · have hselect : select allowedCpus = fun _ => none := by
        funext info
        simp [select, List.isEmpty_iff.1 hallowed]
      simp [hselect]
  · simpa using pushInitiators_eq h allowedCpus hmem 1 []

end Listed

theorem select_eq_some {allowedCpus : List Int} {node : MemoryNode} {row : Initiator}
    (hrow : select allowedCpus node.info = some row) :
    row.node = node.id ∧ FirstOwned allowedCpus node row.cpu := by
  rcases Option.map_eq_some_iff.1 hrow with ⟨cpu, hfind, rfl⟩
  rcases List.find?_eq_some_iff_append.1 hfind with ⟨hcpu, before, after, hsplit, hbefore⟩
  refine ⟨rfl, before, after, hsplit, contains_info.1 hcpu, ?_⟩
  intro c hc hhas
  have hnot := hbefore c hc
  rw [contains_info.2 hhas] at hnot
  cases hnot

theorem select_of_owned {allowedCpus : List Int} {node : MemoryNode}
    (howned : ∃ cpu ∈ allowedCpus, node.Has cpu) :
    ∃ row, select allowedCpus node.info = some row := by
  rcases howned with ⟨cpu, hmem, hhas⟩
  have hsome : (allowedCpus.find? (fun c => node.info.cpus.contains c)).isSome = true :=
    List.find?_isSome.2 ⟨cpu, hmem, contains_info.2 hhas⟩
  rcases Option.isSome_iff_exists.1 hsome with ⟨c, hfind⟩
  exact ⟨{ node := node.info.id, cpu := c }, by rw [select, hfind]; rfl⟩

/-- The rows of a list of nodes come from its nodes, in their order. -/
theorem nodes_sublist (allowedCpus : List Int) (found : List NumaNodeInfo) :
    ((found.filterMap (select allowedCpus)).map Initiator.node).Sublist
      (found.map NumaNodeInfo.id) := by
  induction found with
  | nil => simp
  | cons info rest ih =>
      cases hselect : select allowedCpus info with
      | none =>
          rw [List.filterMap_cons_none hselect]
          exact ih.cons info.id
      | some row =>
          -- A row carries the number of the node that it is made for.
          have hid : row.node = info.id := by
            rcases Option.map_eq_some_iff.1 hselect with ⟨cpu, _, rfl⟩
            rfl
          rw [List.filterMap_cons_some hselect, List.map_cons, List.map_cons, hid]
          exact ih.cons_cons info.id

theorem selected_filterMap {t : Topology} {found : List NumaNodeInfo}
    (hperm : found.Perm (t.nodes.map MemoryNode.info)) (hascending : found.Pairwise (·.id < ·.id))
    (allowedCpus : List Int) :
    Selected t allowedCpus (found.filterMap (select allowedCpus)) := by
  refine ⟨?_, ?_, ?_⟩
  · have hids : (found.map NumaNodeInfo.id).Pairwise (· < ·) := List.pairwise_map.2 hascending
    exact List.pairwise_map.1 (hids.sublist (nodes_sublist allowedCpus found))
  · intro row hrow
    rcases List.mem_filterMap.1 hrow with ⟨info, hinfo, hselect⟩
    rcases List.mem_map.1 (hperm.mem_iff.1 hinfo) with ⟨node, hnode, rfl⟩
    exact ⟨node, hnode, select_eq_some hselect⟩
  · intro node hnode howned
    rcases select_of_owned howned with ⟨row, hselect⟩
    have hinfo : node.info ∈ found := hperm.mem_iff.2 (List.mem_map_of_mem hnode)
    exact ⟨row, List.mem_filterMap.2 ⟨_, hinfo, hselect⟩, (select_eq_some hselect).1⟩

/-! ## The initiators of a machine -/

/-- Whatever the order of each listing, the initiators are the nodes with an allowed CPU, and
`node_for_cpu` names the owner of every CPU. -/
theorem initiators_of_lists {t : Topology} {sysfs : Nat → SysNode}
    (h : ∀ k, (sysfs k).Lists t) (allowedCpus : List Int) :
    (∃ rows, matrixInitiators sysfs allowedCpus = some rows ∧ Selected t allowedCpus rows) ∧
      ∀ k cpu, ∃ v, nodeForCpu (sysfs k) cpu = some v ∧ t.NodeOf cpu v := by
  refine ⟨?_, fun k cpu => nodeForCpu_of_lists (h k) cpu⟩
  rcases matrixInitiators_eq h allowedCpus with ⟨found, hfound, hrows⟩
  rcases nodes_of_lists (h 0) with ⟨found', hfound', hperm, hascending⟩
  have hsame : found = found' := Option.some.inj (hfound.symm.trans hfound')
  subst hsame
  exact ⟨_, hrows, selected_filterMap hperm hascending allowedCpus⟩

/-- Two sockets and a memory-only node, with a gap in the numbering. -/
def twoSockets : Topology where
  nodes :=
    [{ id := 0, cpus := {0, 1, 2, 3}, id_le := by decide, cpus_lt := by decide },
      { id := 2, cpus := {4, 6}, id_le := by decide, cpus_lt := by decide },
      { id := 5, cpus := ∅, id_le := by decide, cpus_lt := by decide }]
  distinct := by decide
  disjoint := by decide

def otherEntries : List DirEntry :=
  [{ name := "online".toList, isDirectory := some false, cpulist := none },
    { name := "power".toList, isDirectory := some true, cpulist := none }]

/-- Listed upwards and downwards in turn, with a file and another directory. -/
def alternatingListings (k : Nat) : SysNode :=
  let entries := twoSockets.nodes.map MemoryNode.entry ++ otherEntries
  { isDirectory := true
    entries := if k % 2 = 0 then entries else entries.reverse }

theorem initiators_two_sockets :
    (∃ rows, matrixInitiators alternatingListings [6, 3, 4, 1] = some rows ∧
        Selected twoSockets [6, 3, 4, 1] rows) ∧
      ∀ k cpu, ∃ v, nodeForCpu (alternatingListings k) cpu = some v ∧ twoSockets.NodeOf cpu v := by
  refine initiators_of_lists ?_ [6, 3, 4, 1]
  intro k
  refine ⟨rfl, otherEntries, ?_, ?_⟩
  · intro entry hentry
    simp only [otherEntries, List.mem_cons, List.not_mem_nil, or_false] at hentry
    rcases hentry with rfl | rfl
    · exact Or.inl rfl
    · exact Or.inr ⟨rfl, by decide⟩
  · simp only [alternatingListings]
    split
    · exact List.Perm.refl _
    · exact List.reverse_perm _

end Numa
end LatencyAnalyzer

import Mathlib.Data.List.Sort
import LatencyAnalyzer.Numa.CpuList

/-!
# Support — the nodes of the machine as `NumaSupport` sees them

`NumaSupport::nodes` reads `/sys/devices/system/node` anew on every call, and the order in which a
directory is listed is free.  One state of the directory, together with the order of one listing,
is a `SysNode`.
-/

namespace LatencyAnalyzer
namespace Numa

open Cxx

/-! ## The directory -/

/-- An entry of the directory. -/
structure DirEntry where
  /-- `entry.path().filename()`. -/
  name : Text
  /-- `entry.is_directory(ec)`, with `none` when the status cannot be read. -/
  isDirectory : Option Bool
  /-- The content of the file `cpulist` below the entry, with `none` when it cannot be opened. -/
  cpulist : Option Text
  deriving DecidableEq, Repr

/-- One listing of `/sys/devices/system/node`; `entries` is empty when it cannot be iterated. -/
structure SysNode where
  isDirectory : Bool
  entries : List DirEntry

structure NumaNodeInfo where
  id : Int
  cpus : List Int
  deriving DecidableEq, Repr

/-! ## `NumaSupport` -/

/-- The first line of a file, and whether one was read. -/
def readText (file : Option Text) : Bool × Text :=
  match file with
  | none => (false, [])
  | some content =>
      let value := content.takeWhile (· != '\n')
      -- `getline` fails only if it extracts nothing, the line end included.
      (content != [] || value != [], value)

def nodePrefix : Text := "node".toList

/-- `parse_node_id`, with `none` for `false`. -/
def parseNodeId (name : Text) : Option Int :=
  if ¬ nodePrefix.isPrefixOf name ∨ name.length ≤ 4 then none
  else
    match (name.substrFrom 4).stoi with
    | none => none
    | some nodeId => if nodeId ≥ 0 then some nodeId else none

/-- The loop of `nodes` over the entries.  `ec` is the error code of the last status query, and
`none` an overflow in `parse_cpu_list`. -/
def scanEntries : List DirEntry → Bool → List NumaNodeInfo → Option (List NumaNodeInfo)
  | [], _, result => some result
  | entry :: rest, ec, result =>
      -- `if (ec) break;` sees the error of the entry before.
      if ec then some result
      else
        match entry.isDirectory with
        | none => scanEntries rest true result
        | some false => scanEntries rest false result
        | some true =>
            match parseNodeId entry.name with
            | none => scanEntries rest false result
            | some nodeId =>
                match parseCpuList (readText entry.cpulist).2 with
                | none => none
                | some cpus => scanEntries rest false (result ++ [{ id := nodeId, cpus := cpus }])

def nodes (root : SysNode) : Option (List NumaNodeInfo) :=
  if ¬ root.isDirectory then some []
  else
    -- The listing comes in any order; the sort is by number.
    (scanEntries root.entries false []).map
      (List.insertionSort fun lhs rhs => lhs.id ≤ rhs.id)

def nodeForCpu (root : SysNode) (cpu : Int) : Option Int :=
  if cpu < 0 then some (-1)
  else
    (nodes root).map fun allNodes =>
      match allNodes.find? (fun node => node.cpus.contains cpu) with
      | some node => node.id
      | none => -1

/-! ## A machine and its directory -/

/-- A NUMA node.  The kernel numbers its CPUs below an `int`, `nr_cpu_ids`. -/
structure MemoryNode where
  id : Nat
  cpus : Finset Nat
  id_le : (id : Int) ≤ intMax
  cpus_lt : ∀ cpu ∈ cpus, (cpu : Int) < intMax

/-- The nodes of a machine, in no particular order. -/
structure Topology where
  nodes : List MemoryNode
  distinct : nodes.Pairwise fun a b => a.id ≠ b.id
  disjoint : nodes.Pairwise fun a b => Disjoint a.cpus b.cpus

def MemoryNode.Has (node : MemoryNode) (cpu : Int) : Prop :=
  ∃ c ∈ node.cpus, (c : Int) = cpu

/-- The directory of a node, with the first line of its CPU list as the kernel prints it. -/
def MemoryNode.entry (node : MemoryNode) : DirEntry :=
  { name := nodePrefix ++ Text.decimal node.id
    isDirectory := some true
    cpulist := some (formatCpuList node.cpus ++ ['\n']) }

/-- A file, or a directory that is not named after a node. -/
def DirEntry.Other (entry : DirEntry) : Prop :=
  entry.isDirectory = some false ∨
    entry.isDirectory = some true ∧ nodePrefix.isPrefixOf entry.name = false

/-- A listing shows the nodes of the machine in some order, among other entries. -/
structure SysNode.Lists (root : SysNode) (t : Topology) : Prop where
  isDirectory : root.isDirectory = true
  entries : ∃ others : List DirEntry, (∀ entry ∈ others, entry.Other) ∧
    root.entries.Perm (t.nodes.map MemoryNode.entry ++ others)

/-- What `nodes` makes of a node. -/
def MemoryNode.info (node : MemoryNode) : NumaNodeInfo :=
  { id := node.id
    cpus := (node.cpus.sort (· ≤ ·)).map Int.ofNat }

theorem MemoryNode.mem_info_cpus {node : MemoryNode} {cpu : Int} :
    cpu ∈ node.info.cpus ↔ node.Has cpu := by
  simp [MemoryNode.info, MemoryNode.Has]

/-! ## One entry -/

theorem newline_not_mem_format (cpus : Finset Nat) : '\n' ∉ formatCpuList cpus := by
  have hdigits : ∀ n, '\n' ∉ Text.decimal n := fun n => not_mem_decimal rfl
  have hitem : ∀ run, '\n' ∉ cpuItem run := by
    intro run
    unfold cpuItem
    split
    · exact hdigits _
    · simp [hdigits]
  have hjoin : ∀ rs : List (Nat × Nat), '\n' ∉ List.intercalate [','] (rs.map cpuItem) := by
    intro rs
    induction rs with
    | nil => simp
    | cons run rest ih =>
        cases rest with
        | nil => simpa using hitem run
        | cons next others => simpa [List.intercalate_cons_cons, hitem run] using ih
  exact hjoin _

theorem readText_entry (node : MemoryNode) :
    (readText node.entry.cpulist).2 = formatCpuList node.cpus := by
  have hall : ∀ c ∈ formatCpuList node.cpus, (c != '\n') = true := by
    intro c hc
    have hne : c ≠ '\n' := fun heq => newline_not_mem_format node.cpus (heq ▸ hc)
    simpa using hne
  simp [readText, MemoryNode.entry, List.takeWhile_append_of_pos hall]

theorem parseNodeId_entry (node : MemoryNode) :
    parseNodeId node.entry.name = some (node.id : Int) := by
  have hpos : 0 < (Text.decimal node.id).length :=
    List.length_pos_of_ne_nil (Text.decimal_ne_nil node.id)
  have hsuffix : node.entry.name.substrFrom 4 = Text.decimal node.id := by
    simp [MemoryNode.entry, Text.substrFrom, nodePrefix]
  have hprefix : nodePrefix.isPrefixOf node.entry.name = true := by
    simp [MemoryNode.entry]
  have hlength : ¬ node.entry.name.length ≤ 4 := by
    have heq : node.entry.name.length = 4 + (Text.decimal node.id).length := by
      simp [MemoryNode.entry, nodePrefix]
      omega
    omega
  unfold parseNodeId
  rw [if_neg (not_or.2 ⟨not_not.2 hprefix, hlength⟩), hsuffix, Text.stoi_decimal node.id_le]
  simp

theorem parseCpuList_entry (node : MemoryNode) :
    parseCpuList (readText node.entry.cpulist).2 = some node.info.cpus := by
  rw [readText_entry, parseCpuList_format node.cpus_lt]
  rfl

/-! ## The nodes of a machine -/

/-- The entry names a node. -/
def DirEntry.isNode (entry : DirEntry) : Bool :=
  entry.isDirectory = some true && nodePrefix.isPrefixOf entry.name

theorem MemoryNode.isNode_entry (node : MemoryNode) : node.entry.isNode = true := by
  simp [DirEntry.isNode, MemoryNode.entry]

theorem DirEntry.Other.isNode {entry : DirEntry} (h : entry.Other) : entry.isNode = false := by
  rcases h with h | ⟨h, hname⟩
  · simp [DirEntry.isNode, h]
  · simp [DirEntry.isNode, h, hname]

/-- What one entry adds to the result, when all of it can be read. -/
def readEntry (entry : DirEntry) : NumaNodeInfo :=
  { id := (parseNodeId entry.name).getD (-1)
    cpus := (parseCpuList (readText entry.cpulist).2).getD [] }

theorem readEntry_entry (node : MemoryNode) : readEntry node.entry = node.info := by
  unfold readEntry
  rw [parseNodeId_entry, parseCpuList_entry]
  rfl

/-- The scan keeps the nodes in the order of the listing and drops everything else. -/
theorem scanEntries_eq {entries : List DirEntry}
    (h : ∀ entry ∈ entries, entry.Other ∨ ∃ node : MemoryNode, entry = node.entry)
    (result : List NumaNodeInfo) :
    scanEntries entries false result =
      some (result ++ (entries.filter DirEntry.isNode).map readEntry) := by
  induction entries generalizing result with
  | nil => simp [scanEntries]
  | cons entry rest ih =>
      have hrest := ih (fun e he => h e (List.mem_cons_of_mem _ he))
      rcases h entry List.mem_cons_self with hother | ⟨node, rfl⟩
      -- A file fails the test for a directory, another directory the test of its name.
      · have hskip : scanEntries (entry :: rest) false result = scanEntries rest false result := by
          rcases hother with hfile | ⟨hdir, hname⟩
          · simp [scanEntries, hfile]
          · have hid : parseNodeId entry.name = none := by
              unfold parseNodeId
              rw [if_pos (Or.inl (by rw [hname]; decide))]
            simp [scanEntries, hdir, hid]
        rw [hskip, hrest, List.filter_cons_of_neg (by simp [hother.isNode])]
      · have hdir : node.entry.isDirectory = some true := rfl
        rw [List.filter_cons_of_pos node.isNode_entry, List.map_cons, readEntry_entry]
        simp [scanEntries, hdir, parseNodeId_entry, parseCpuList_entry, hrest, MemoryNode.info]

theorem ascending_of_distinct {l : List NumaNodeInfo} (hsorted : l.Pairwise (·.id ≤ ·.id))
    (hdistinct : l.Pairwise (·.id ≠ ·.id)) : l.Pairwise (·.id < ·.id) := by
  have hboth := hsorted.and hdistinct
  exact hboth.imp fun h => lt_of_le_of_ne h.1 h.2

/-- In whatever order a machine is listed, `nodes` gives its nodes in ascending order. -/
theorem nodes_of_lists {t : Topology} {root : SysNode} (h : root.Lists t) :
    ∃ found, nodes root = some found ∧ found.Perm (t.nodes.map MemoryNode.info) ∧
      found.Pairwise (·.id < ·.id) := by
  rcases h.entries with ⟨others, hothers, hperm⟩
  have hentries : ∀ entry ∈ root.entries,
      entry.Other ∨ ∃ node : MemoryNode, entry = node.entry := by
    intro entry hentry
    rcases List.mem_append.1 (hperm.mem_iff.1 hentry) with hnode | hother
    · rcases List.mem_map.1 hnode with ⟨node, _, rfl⟩
      exact Or.inr ⟨node, rfl⟩
    · exact Or.inl (hothers entry hother)
  have hfilter : (t.nodes.map MemoryNode.entry ++ others).filter DirEntry.isNode =
      t.nodes.map MemoryNode.entry := by
    rw [List.filter_append, List.filter_eq_self.2, List.filter_eq_nil_iff.2, List.append_nil]
    · intro entry hentry
      simp [(hothers entry hentry).isNode]
    · intro entry hentry
      rcases List.mem_map.1 hentry with ⟨node, _, rfl⟩
      exact node.isNode_entry
  have hread : ((root.entries.filter DirEntry.isNode).map readEntry).Perm
      (t.nodes.map MemoryNode.info) := by
    have hmap := (hperm.filter DirEntry.isNode).map readEntry
    rw [hfilter, List.map_map] at hmap
    simpa [Function.comp_def, readEntry_entry] using hmap
  have hsort : (List.insertionSort (fun lhs rhs => lhs.id ≤ rhs.id)
      ((root.entries.filter DirEntry.isNode).map readEntry)).Perm
        (t.nodes.map MemoryNode.info) := (List.perm_insertionSort _ _).trans hread
  refine ⟨_, ?_, hsort, ?_⟩
  · simp [nodes, h.isDirectory, scanEntries_eq hentries]
  · apply ascending_of_distinct
    -- Sorted by number and with distinct numbers, hence strictly ascending.
    · exact List.pairwise_insertionSort _ _
    · refine (hsort.pairwise_iff fun hne => hne.symm).2 ?_
      rw [List.pairwise_map]
      exact t.distinct.imp fun hne heq => hne (by simpa [MemoryNode.info] using heq)

/-- `v` is the node that owns `cpu`, or -1 when there is none. -/
def Topology.NodeOf (t : Topology) (cpu v : Int) : Prop :=
  (∃ node ∈ t.nodes, node.Has cpu ∧ v = node.id) ∨
    ((∀ node ∈ t.nodes, ¬ node.Has cpu) ∧ v = -1)

/-- No CPU belongs to two nodes. -/
theorem Topology.owner_unique (t : Topology) {a b : MemoryNode} {cpu : Int} (ha : a ∈ t.nodes)
    (hb : b ∈ t.nodes) (hacpu : a.Has cpu) (hbcpu : b.Has cpu) : a = b := by
  by_contra hne
  have hsymm : Std.Symm fun a b : MemoryNode => Disjoint a.cpus b.cpus := ⟨fun _ _ h => h.symm⟩
  -- Two different nodes of the list have disjoint sets of CPUs.
  have hdisjoint : Disjoint a.cpus b.cpus := t.disjoint.forall ha hb hne
  rcases hacpu with ⟨c, hc, rfl⟩
  rcases hbcpu with ⟨d, hd, heq⟩
  have hcd : d = c := by exact_mod_cast heq
  subst hcd
  exact Finset.disjoint_left.1 hdisjoint hc hd

theorem nodeForCpu_of_lists {t : Topology} {root : SysNode} (h : root.Lists t) (cpu : Int) :
    ∃ v, nodeForCpu root cpu = some v ∧ t.NodeOf cpu v := by
  by_cases hneg : cpu < 0
  · refine ⟨-1, by simp [nodeForCpu, hneg], Or.inr ⟨?_, rfl⟩⟩
    rintro node _ ⟨c, _, rfl⟩
    omega
  rcases nodes_of_lists h with ⟨found, hfound, hperm, _⟩
  simp only [nodeForCpu, hneg, if_false, hfound, Option.map_some]
  refine ⟨_, rfl, ?_⟩
  have hmem : ∀ info ∈ found, ∃ node ∈ t.nodes, node.info = info := by
    intro info hinfo
    exact List.mem_map.1 (hperm.mem_iff.1 hinfo)
  -- The search finds the owner or goes through all nodes.
  split
  · rename_i info hfind
    rcases hmem info (List.mem_of_find?_eq_some hfind) with ⟨node, hnode, rfl⟩
    have hcpu := List.find?_some hfind
    exact Or.inl ⟨node, hnode, node.mem_info_cpus.1 (by simpa using hcpu), rfl⟩
  · rename_i hfind
    refine Or.inr ⟨?_, rfl⟩
    intro node hnode hcpu
    have hinfo : node.info ∈ found := hperm.mem_iff.2 (List.mem_map_of_mem hnode)
    have hnone := List.find?_eq_none.1 hfind node.info hinfo
    exact hnone (by simpa using node.mem_info_cpus.2 hcpu)

end Numa
end LatencyAnalyzer

import LatencyAnalyzer.Cxx.Extract
import LatencyAnalyzer.Numa.Support

/-!
# Distance — `NumaSupport::distance`

The file of a node is a row of numbers, one for each node.  The numbers stand in the order of the
nodes, which is not the same as their numbers where some are missing.
-/

namespace LatencyAnalyzer
namespace Numa

open Cxx

def distancePath (fromNode : Int) : Text :=
  "/sys/devices/system/node/node".toList ++ Text.integer fromNode ++ "/distance".toList

/-- `distance`, with `none` for an overflow in `parse_cpu_list`. -/
def distance (files : Files) (root : SysNode) (fromNode toNode : Int) : Option Int :=
  if fromNode < 0 ∨ toNode < 0 then some (-1)
  else
    match files (distancePath fromNode) with
    | none => some (-1)
    | some row =>
        let values := row.extractAll
        (nodes root).map fun allNodes =>
          match allNodes.findIdx? (fun node => node.id == toNode) with
          | none => -1
          -- `index < values.size() ? values[index] : -1`
          | some index => values.getD index (-1)

/-! ## The row of a node -/

/-- The numbers with spaces between them and a line feed behind them, as the kernel prints a
row. -/
def formatRow (values : List Int) : Text :=
  List.intercalate [' '] (values.map Text.integer) ++ ['\n']

theorem extractAll_newline : Text.extractAll ['\n'] = [] :=
  Text.extractAll_of_exhausted rfl

theorem extractAll_formatRow {values : List Int} (h : ∀ v ∈ values, InInt v) :
    (formatRow values).extractAll = values := by
  unfold formatRow
  induction values with
  | nil => exact extractAll_newline
  | cons v values ih =>
      have hv := h v List.mem_cons_self
      have hrest := ih fun x hx => h x (List.mem_cons_of_mem v hx)
      cases values with
      | nil =>
          have hend : Text.NoDigit ['\n'] := by
            intro c rest heq
            cases heq
            rfl
          have hread := Text.extractInt_integer hv hend
          rw [List.map_cons, List.map_nil, List.intercalate_singleton,
            Text.extractAll_of_ok hread, extractAll_newline]
      | cons next values =>
          have hspace : Text.NoDigit
              (' ' :: (List.intercalate [' '] ((next :: values).map Text.integer) ++ ['\n'])) := by
            intro c rest heq
            cases heq
            rfl
          have hread := Text.extractInt_integer hv hspace
          have htext : List.intercalate [' '] ((v :: next :: values).map Text.integer) ++ ['\n'] =
              Text.integer v ++
                ' ' :: (List.intercalate [' '] ((next :: values).map Text.integer) ++ ['\n']) := by
            simp [List.intercalate_cons_cons]
          rw [htext, Text.extractAll_of_ok hread, Text.extractAll_space rfl, hrest]

/-- The numbers of the nodes, in ascending order. -/
def Topology.ids (t : Topology) : List Nat :=
  (t.nodes.map MemoryNode.id).insertionSort (· ≤ ·)

/-- `values` is printed for the node: one value for each node of the machine. -/
def HasRow (files : Files) (t : Topology) (fromNode : Nat) (values : Nat → Int) : Prop :=
  files (distancePath fromNode) = some (formatRow (t.ids.map values)) ∧
    ∀ id ∈ t.ids, InInt (values id)

/-! ## Ranks -/

/-- The place of a node among those that `nodes` finds is its place among the numbers. -/
theorem map_id_of_lists {t : Topology} {found : List NumaNodeInfo}
    (hperm : found.Perm (t.nodes.map MemoryNode.info)) (hsorted : found.Pairwise (·.id < ·.id)) :
    found.map NumaNodeInfo.id = t.ids.map Int.ofNat := by
  have hids : (found.map NumaNodeInfo.id).Perm (t.ids.map Int.ofNat) := by
    have hmap := hperm.map NumaNodeInfo.id
    have hsort := (List.perm_insertionSort (· ≤ ·) (t.nodes.map MemoryNode.id)).map Int.ofNat
    rw [List.map_map] at hmap hsort
    exact hmap.trans hsort.symm
  have hfound : (found.map NumaNodeInfo.id).Pairwise (· ≤ ·) :=
    List.pairwise_map.2 (hsorted.imp le_of_lt)
  have hascending : (t.ids.map Int.ofNat).Pairwise (· ≤ ·) := by
    rw [List.pairwise_map]
    exact (List.pairwise_insertionSort (· ≤ ·) _).imp fun h => Int.ofNat_le.2 h
  exact hids.eq_of_pairwise (fun a b _ _ hab hba => le_antisymm hab hba) hfound hascending

/-- What stands under a number in a row, by the place of the number. -/
def lookup (ids : List Nat) (values : Nat → Int) (toNode : Int) : Int :=
  match (ids.map Int.ofNat).findIdx? (· == toNode) with
  | none => -1
  | some index => (ids.map values).getD index (-1)

theorem lookup_of_mem {ids : List Nat} (values : Nat → Int) {toNode : Nat} (h : toNode ∈ ids) :
    lookup ids values toNode = values toNode := by
  unfold lookup
  cases hfind : (ids.map Int.ofNat).findIdx? (· == (toNode : Int)) with
  | none =>
      rw [List.findIdx?_eq_none_iff] at hfind
      have hmem : (toNode : Int) ∈ ids.map Int.ofNat := List.mem_map_of_mem (f := Int.ofNat) h
      have hno := hfind toNode hmem
      simp at hno
  | some index =>
      rcases List.findIdx?_eq_some_iff_getElem.1 hfind with ⟨hlt, hhere, _⟩
      rw [List.length_map] at hlt
      -- The number at the place is the one that was looked for.
      have hid : ids[index] = toNode := by simpa using hhere
      simp [hlt, hid]

theorem lookup_of_not_mem {ids : List Nat} (values : Nat → Int) {toNode : Int}
    (h : ∀ id ∈ ids, (id : Int) ≠ toNode) : lookup ids values toNode = -1 := by
  have hfind : (ids.map Int.ofNat).findIdx? (· == toNode) = none := by
    rw [List.findIdx?_eq_none_iff]
    intro id hmem
    rcases List.mem_map.1 hmem with ⟨n, hn, rfl⟩
    simpa using h n hn
  unfold lookup
  rw [hfind]

/-- The distance is looked up in the row, whatever the order of the listing. -/
theorem distance_of_lists {files : Files} {t : Topology} {root : SysNode} {fromNode : Nat}
    {values : Nat → Int} (hrow : HasRow files t fromNode values) (hlists : root.Lists t)
    {toNode : Int} (hto : 0 ≤ toNode) :
    distance files root fromNode toNode = some (lookup t.ids values toNode) := by
  rcases nodes_of_lists hlists with ⟨found, hfound, hperm, hsorted⟩
  have hids := map_id_of_lists hperm hsorted
  have hnonneg : ¬ ((fromNode : Int) < 0 ∨ toNode < 0) := by omega
  have hvalues : (formatRow (t.ids.map values)).extractAll = t.ids.map values := by
    refine extractAll_formatRow fun v hv => ?_
    rcases List.mem_map.1 hv with ⟨id, hid, rfl⟩
    exact hrow.2 id hid
  have hindex : found.findIdx? (fun node => node.id == toNode) =
      (t.ids.map Int.ofNat).findIdx? (· == toNode) := by
    rw [← hids, List.findIdx?_map]
    rfl
  unfold distance lookup
  rw [if_neg hnonneg, hrow.1]
  simp only [hfound, hvalues, hindex, Option.map_some]

theorem mem_ids {t : Topology} {id : Nat} : id ∈ t.ids ↔ ∃ node ∈ t.nodes, node.id = id := by
  unfold Topology.ids
  rw [(List.perm_insertionSort (· ≤ ·) _).mem_iff, List.mem_map]

theorem distance_of_neg (files : Files) (root : SysNode) (fromNode : Int) {toNode : Int}
    (h : toNode < 0) : distance files root fromNode toNode = some (-1) :=
  if_pos (Or.inr h)

/-- A row is read by the ranks of the nodes: each node of the machine gets its own value, any
other number gets -1, and all listings of the machine give the same. -/
theorem distance_exact {files : Files} {t : Topology} {fromNode : Nat} {values : Nat → Int}
    (hrow : HasRow files t fromNode values) :
    (∀ root : SysNode, root.Lists t →
      (∀ node ∈ t.nodes, distance files root fromNode node.id = some (values node.id)) ∧
      (∀ toNode : Int, (∀ node ∈ t.nodes, (node.id : Int) ≠ toNode) →
        distance files root fromNode toNode = some (-1))) ∧
    (∀ root root' : SysNode, root.Lists t → root'.Lists t → ∀ toNode : Int,
      distance files root fromNode toNode = distance files root' fromNode toNode) := by
  constructor
  · intro root hlists
    constructor
    · intro node hnode
      rw [distance_of_lists hrow hlists (Int.natCast_nonneg node.id),
        lookup_of_mem values (mem_ids.2 ⟨node, hnode, rfl⟩)]
    · intro toNode habsent
      rcases Int.lt_or_le toNode 0 with hneg | hnonneg
      · exact distance_of_neg files root fromNode hneg
      · rw [distance_of_lists hrow hlists hnonneg, lookup_of_not_mem values ?_]
        intro id hid
        rcases mem_ids.1 hid with ⟨node, hnode, rfl⟩
        exact habsent node hnode
  · intro root root' hlists hlists' toNode
    rcases Int.lt_or_le toNode 0 with hneg | hnonneg
    · rw [distance_of_neg files root fromNode hneg, distance_of_neg files root' fromNode hneg]
    · rw [distance_of_lists hrow hlists hnonneg, distance_of_lists hrow hlists' hnonneg]

/-- A machine with the nodes 1 and 3, and a row of two values for the first one. -/
def twoNodes : Topology :=
  { nodes :=
      [{ id := 3, cpus := {1}, id_le := by decide, cpus_lt := by decide },
        { id := 1, cpus := {0}, id_le := by decide, cpus_lt := by decide }]
    distinct := by simp
    disjoint := by simp }

def twoNodesRow : Files := fun path =>
  if path = distancePath 1 then some "10 21\n".toList else none

def twoNodesListing : SysNode :=
  { isDirectory := true, entries := twoNodes.nodes.map MemoryNode.entry }

theorem distance_exact_two :
    distance twoNodesRow twoNodesListing 1 3 = some 21 ∧
      distance twoNodesRow twoNodesListing 1 2 = some (-1) := by
  have hrow : HasRow twoNodesRow twoNodes 1 fun id => if id = 1 then 10 else 21 :=
    ⟨by decide +kernel, by decide⟩
  have hlists : twoNodesListing.Lists twoNodes :=
    { isDirectory := rfl
      entries := ⟨[], by simp, by simp [twoNodesListing]⟩ }
  rcases (distance_exact hrow).1 twoNodesListing hlists with ⟨hpresent, habsent⟩
  exact ⟨hpresent _ List.mem_cons_self, habsent 2 (by decide)⟩

end Numa
end LatencyAnalyzer

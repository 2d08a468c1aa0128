import Mathlib.Data.Set.Function
import LatencyAnalyzer.Latency.Measurer
import LatencyAnalyzer.Lib.Ring

/-!
# Walks — what the primitives of the measurer do to the buffer

Each primitive has one statement: the layout it leaves behind and the accesses it appends.  A walk
is described by a map `succ` on node numbers to which the stored addresses are linked; the rings
are described by the nodes that a loop of stores writes.
-/

namespace LatencyAnalyzer
namespace Latency

open Cxx Lib

/-! ## Layouts -/

theorem Layout.nodeOf_address (l : Layout) {i : Nat} (hi : i < l.nodeCount) :
    l.nodeOf (l.address i) = some i := by
  have hsub : l.address i - l.base = nodeSize * i := by
    unfold Layout.address
    omega
  have hdiv : nodeSize * i / nodeSize = i := Nat.mul_div_cancel_left _ (by decide)
  have hmod : nodeSize * i % nodeSize = 0 := Nat.mul_mod_right _ _
  unfold Layout.nodeOf
  rw [hsub, hdiv, if_pos ⟨by unfold Layout.address; omega, hmod, hi⟩]

theorem Layout.address_inj (l : Layout) {i j : Nat} (h : l.address i = l.address j) : i = j := by
  unfold Layout.address nodeSize at h
  omega

def Layout.withNext (l : Layout) (next : Nat → Nat) : Layout :=
  { l with next := next }

theorem Layout.withNext_withNext (l : Layout) (next next' : Nat → Nat) :
    (l.withNext next).withNext next' = l.withNext next' := rfl

/-- On the nodes of `T`, the stored addresses lead where `succ` does. -/
structure Layout.Links (l : Layout) (succ : Nat → Nat) (T : Nat → Prop) : Prop where
  inside : ∀ i, T i → i < l.nodeCount
  closed : ∀ i, T i → T (succ i)
  next : ∀ i, T i → l.next i = l.address (succ i)

theorem Layout.Links.iterate {l : Layout} {succ : Nat → Nat} {T : Nat → Prop}
    (h : l.Links succ T) {i : Nat} (hi : T i) (k : Nat) : T (succ^[k] i) := by
  have hmaps : Set.MapsTo succ {j | T j} {j | T j} := h.closed
  exact hmaps.iterate k hi

/-- Every `next` member holds the address of a node. -/
def Layout.Closed (l : Layout) : Prop :=
  ∀ i < l.nodeCount, ∃ j < l.nodeCount, l.next i = l.address j

/-! ## Accesses -/

def loads (nodes : List Nat) : List Access :=
  nodes.map fun i => .load (some i)

/-- The accesses that stay in a buffer of `n` nodes and leave addresses of its nodes there. -/
def Access.Inside (n : Nat) : Access → Prop
  | .load node => ∃ i < n, node = some i
  | .store node target => node < n ∧ ∃ j < n, target = some j
  | .flush node => node < n
  | .fence => True

theorem inside_loads {n : Nat} {nodes : List Nat} (h : ∀ i ∈ nodes, i < n) :
    ∀ a ∈ loads nodes, a.Inside n := by
  intro a ha
  rcases List.mem_map.1 ha with ⟨i, hi, rfl⟩
  exact ⟨i, h i hi, rfl⟩

section Primitives

variable {abi : Abi}

/-! ## Recording -/

def LatencyMeasurer.emitAll (o : LatencyMeasurer abi) (block : List Access) :
    LatencyMeasurer abi :=
  { o with accesses := o.accesses ++ block }

theorem emitAll_emitAll (o : LatencyMeasurer abi) (block block' : List Access) :
    (o.emitAll block).emitAll block' = o.emitAll (block ++ block') := by
  unfold LatencyMeasurer.emitAll
  rw [List.append_assoc]

theorem emitAll_nil (o : LatencyMeasurer abi) : o.emitAll [] = o := by
  unfold LatencyMeasurer.emitAll
  rw [List.append_nil]

/-- A step that leaves a layout with the property `P` behind and appends `block` to the
accesses. -/
structure Emits (P : Layout → Prop) (before after : LatencyMeasurer abi) (block : List Access) :
    Prop where
  layout : P after.toLayout
  accesses : after.accesses = before.accesses ++ block

theorem Emits.trans {P Q : Layout → Prop} {o o' o'' : LatencyMeasurer abi}
    {block block' : List Access} (h : Emits P o o' block) (h' : Emits Q o' o'' block') :
    Emits Q o o'' (block ++ block') := by
  refine ⟨h'.layout, ?_⟩
  calc
    o''.accesses = o'.accesses ++ block' := h'.accesses
    _ = o.accesses ++ block ++ block' := by rw [h.accesses]
    _ = o.accesses ++ (block ++ block') := List.append_assoc _ _ _

theorem Emits.mono {P Q : Layout → Prop} {o o' : LatencyMeasurer abi} {block : List Access}
    (h : Emits P o o' block) (himp : ∀ l, P l → Q l) : Emits Q o o' block :=
  ⟨himp _ h.layout, h.accesses⟩

theorem emits_emitAll {P : Layout → Prop} {o : LatencyMeasurer abi} (h : P o.toLayout)
    (block : List Access) : Emits P o (o.emitAll block) block :=
  ⟨h, rfl⟩

/-- A counting loop all of whose rounds keep `P`; `view` finds the object in the loop's state. -/
theorem emits_foldl {β : Type*} (view : β → LatencyMeasurer abi) {P : Layout → Prop}
    {step : β → Nat → β} {block : Nat → List Access}
    (hstep : ∀ i b, P (view b).toLayout → Emits P (view b) (view (step b i)) (block i))
    {b : β} (hb : P (view b).toLayout) (n : Nat) :
    Emits P (view b) (view ((List.range n).foldl step b)) ((List.range n).flatMap block) := by
  rcases foldl_range_trace (fun b => (view b).accesses) block (fun _ b => P (view b).toLayout)
    step n (fun i b _ hb => ⟨(hstep i b hb).layout, (hstep i b hb).accesses⟩) b hb
    with ⟨hlayout, haccesses⟩
  exact ⟨hlayout, haccesses⟩

/-! ## Loads and walks -/

theorem loadNext_address {o : LatencyMeasurer abi} {l : Layout} (hl : o.toLayout = l) {i : Nat}
    (hi : i < l.nodeCount) :
    o.loadNext (l.address i) = (l.next i, o.emitAll [.load (some i)]) := by
  subst hl
  unfold LatencyMeasurer.loadNext
  rw [o.nodeOf_address hi]
  rfl

theorem iterate_succ_append (succ : Nat → Nat) (i steps : Nat) :
    List.iterate succ i (steps + 1) = List.iterate succ i steps ++ [succ^[steps] i] := by
  rw [List.iterate_add]
  rfl

/-- A walk along `succ` reads the nodes it passes and ends behind the last of them. -/
theorem chase_eq {o : LatencyMeasurer abi} {succ : Nat → Nat} {T : Nat → Prop}
    (h : o.Links succ T) {i : Nat} (hi : T i) (steps : Nat) :
    chase (o.address i) steps o =
      (o.address (succ^[steps] i), o.emitAll (loads (List.iterate succ i steps))) := by
  induction steps with
  | zero =>
      unfold chase
      exact congrArg (Prod.mk (o.address i)) (emitAll_nil o).symm
  | succ steps ih =>
      -- One more step is a load from where the walk has come to.
      have hlast : T (succ^[steps] i) := h.iterate hi steps
      have hchase : chase (o.address i) (steps + 1) o =
          (chase (o.address i) steps o).2.loadNext (chase (o.address i) steps o).1 := by
        unfold chase
        rw [List.range_succ, List.foldl_append]
        rfl
      have hkeep : (o.emitAll (loads (List.iterate succ i steps))).toLayout = o.toLayout := rfl
      rw [hchase, ih]
      dsimp only
      rw [loadNext_address hkeep (h.inside _ hlast), h.next _ hlast, emitAll_emitAll,
        Function.iterate_succ_apply', iterate_succ_append]
      simp [loads]

theorem emits_timedPointerChase {o : LatencyMeasurer abi} {l : Layout} (hl : o.toLayout = l)
    {succ : Nat → Nat} {T : Nat → Prop} (h : l.Links succ T) {i : Nat} (hi : T i) (steps : Nat) :
    Emits (· = l) o (timedPointerChase (l.address i) steps o).2
      (loads (List.iterate succ i steps)) := by
  subst hl
  unfold timedPointerChase
  rw [chase_eq h hi]
  exact ⟨rfl, rfl⟩

theorem emits_flushRandomPath {o : LatencyMeasurer abi} {l : Layout} (hl : o.toLayout = l)
    (startPosition steps : Nat) :
    Emits (· = l) o (flushRandomPath startPosition steps o)
      ((window l.randomOrder 0 startPosition steps).map Access.flush ++ [.fence]) := by
  subst hl
  have hstep : ∀ i (o' : LatencyMeasurer abi), o'.toLayout = o.toLayout →
      Emits (· = o.toLayout) o'
        (o'.emit (.flush (o.randomOrder.getD ((startPosition + i) % o.randomOrder.length) 0)))
        [.flush (o.randomOrder.getD ((startPosition + i) % o.randomOrder.length) 0)] :=
    fun _ _ ho' => ⟨ho', rfl⟩
  -- The flushes do not touch the layout, so every round sees the same order.
  have hloop := emits_foldl (P := (· = o.toLayout)) id hstep rfl steps
  rw [← List.map_eq_flatMap] at hloop
  unfold window
  rw [List.map_map]
  exact hloop.trans ⟨hloop.layout, rfl⟩

/-! ## Loops of stores -/

/-- A loop that stores the address of node `target i` into node `key i` for every `i < n`. -/
structure Rewritten (key target : Nat → Nat) (n : Nat) (before after : LatencyMeasurer abi) :
    Prop where
  layout : after.toLayout = before.withNext after.next
  written : ∀ i < n, after.next (key i) = before.address (target i)
  kept : ∀ x, (∀ i < n, key i ≠ x) → after.next x = before.next x
  accesses : after.accesses =
    before.accesses ++ (List.range n).map fun i => Access.store (key i) (some (target i))

theorem rewritten_foldl (o : LatencyMeasurer abi) (key target : Nat → Nat) {n : Nat}
    (htarget : ∀ i < n, target i < o.nodeCount)
    (hkey : ∀ i < n, ∀ j < n, key i = key j → target i = target j) :
    Rewritten key target n o
      ((List.range n).foldl (fun o' i => o'.storeNext (key i) (o.address (target i))) o) := by
  induction n with
  | zero =>
      refine ⟨rfl, ?_, fun x _ => rfl, ?_⟩
      · intro i hi
        exact absurd hi (Nat.not_lt_zero i)
      · exact (List.append_nil _).symm
  | succ n ih =>
      rcases ih (fun i hi => htarget i (Nat.lt_succ_of_lt hi))
        (fun i hi j hj => hkey i (Nat.lt_succ_of_lt hi) j (Nat.lt_succ_of_lt hj))
        with ⟨hlayout, hwritten, hkept, haccesses⟩
      rw [List.range_succ, List.foldl_append]
      generalize (List.range n).foldl (fun o' i => o'.storeNext (key i) (o.address (target i))) o =
        o' at hlayout hwritten hkept haccesses
      dsimp only [List.foldl_cons, List.foldl_nil]
      refine ⟨?_, ?_, ?_, ?_⟩
      · show o'.withNext _ = _
        rw [hlayout, Layout.withNext_withNext]
        rfl
      · -- A node that is written twice gets the same target both times.
        intro i hi
        show Function.update o'.next (key n) (o.address (target n)) (key i) = _
        by_cases hsame : key i = key n
        · rw [hsame, Function.update_self, hkey i hi n n.lt_succ_self hsame]
        · have hlt : i < n := by
            rcases Nat.lt_succ_iff_lt_or_eq.1 hi with hlt | rfl
            · exact hlt
            · exact absurd rfl hsame
          rw [Function.update_of_ne hsame, hwritten i hlt]
      · intro x hx
        show Function.update o'.next (key n) (o.address (target n)) x = _
        rw [Function.update_of_ne (hx n n.lt_succ_self).symm]
        exact hkept x fun i hi => hx i (Nat.lt_succ_of_lt hi)
      · -- The stored address is recorded as the node it belongs to.
        show o'.accesses ++ [.store (key n) (o'.nodeOf (o.address (target n)))] = _
        have hnode : o'.nodeOf (o.address (target n)) = some (target n) := by
          rw [hlayout]
          exact o.nodeOf_address (htarget n n.lt_succ_self)
        rw [hnode, haccesses, List.range_succ, List.map_append, List.append_assoc]
        rfl

/-- A loop that stores addresses of nodes keeps the buffer closed. -/
theorem Rewritten.closed {key target : Nat → Nat} {n : Nat} {o o' : LatencyMeasurer abi}
    (h : Rewritten key target n o o') (hclosed : o.Closed)
    (htarget : ∀ i < n, target i < o.nodeCount) : o'.Closed := by
  have hcount : o'.nodeCount = o.nodeCount := by rw [h.layout]; rfl
  have haddress : o'.address = o.address := by rw [h.layout]; rfl
  intro x hx
  rw [hcount] at hx
  rw [hcount, haddress]
  -- A node the loop has written leads to its target, any other one where it led before.
  by_cases hkey : ∃ i < n, key i = x
  · rcases hkey with ⟨i, hi, rfl⟩
    exact ⟨target i, htarget i hi, h.written i hi⟩
  · have hno : ∀ i < n, key i ≠ x := fun i hi heq => hkey ⟨i, hi, heq⟩
    rw [h.kept x hno]
    exact hclosed x hx

theorem inside_stores {count : Nat} {key target : Nat → Nat} {n : Nat}
    (hkey : ∀ i < n, key i < count) (htarget : ∀ i < n, target i < count) :
    ∀ a ∈ (List.range n).map fun i => Access.store (key i) (some (target i)), a.Inside count := by
  intro a ha
  rcases List.mem_map.1 ha with ⟨i, hi, rfl⟩
  have hi' : i < n := List.mem_range.1 hi
  exact ⟨hkey i hi', target i, htarget i hi', rfl⟩

end Primitives

end Latency
end LatencyAnalyzer

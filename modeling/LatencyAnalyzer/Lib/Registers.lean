import Mathlib.Data.List.Nodup
import Mathlib.Data.List.Perm.Basic

/-!
# Registers — writes that change one register each

A state is what its registers hold.  A write replaces the value of one of them by a value of its
own, whatever the state is.  The order of the writes then matters within one register only, and
there the last one counts.
-/

namespace LatencyAnalyzer
namespace Lib

section KeepLast

variable {κ ω : Type*} [DecidableEq κ]

/-- Of the entries with a key, only the last one is kept. -/
def keepLast (key : ω → κ) (k : κ) : List ω → List ω
  | [] => []
  | w :: ws => if key w = k ∧ k ∈ ws.map key then keepLast key k ws else w :: keepLast key k ws

theorem mem_of_mem_keepLast {key : ω → κ} {k : κ} {w : ω} {ws : List ω}
    (h : w ∈ keepLast key k ws) : w ∈ ws := by
  induction ws with
  | nil => exact h
  | cons x ws ih =>
      rw [keepLast] at h
      split at h
      · exact List.mem_cons_of_mem x (ih h)
      · rcases List.mem_cons.1 h with rfl | h
        · exact List.mem_cons_self
        · exact List.mem_cons_of_mem x (ih h)

/-- The writes to other registers are all kept. -/
theorem mem_keepLast_of_ne {key : ω → κ} {k : κ} {w : ω} {ws : List ω} (hne : key w ≠ k)
    (h : w ∈ ws) : w ∈ keepLast key k ws := by
  induction ws with
  | nil => exact h
  | cons x ws ih =>
      rw [keepLast]
      rcases List.mem_cons.1 h with rfl | h
      · rw [if_neg fun hlater => hne hlater.1]
        exact List.mem_cons_self
      · split
        · exact ih h
        · exact List.mem_cons_of_mem x (ih h)

end KeepLast

/-- States with registers, and writes to them.  Only the `good` writes have to be writes to a
single register. -/
structure Registers (σ κ ν ω : Type*) [DecidableEq κ] where
  get : σ → κ → ν
  ext : ∀ s s', (∀ k, get s k = get s' k) → s = s'
  key : ω → κ
  value : ω → ν
  write : ω → σ → σ
  good : ω → Prop
  get_write : ∀ w, good w → ∀ s k, get (write w s) k = if k = key w then value w else get s k

namespace Registers

variable {σ κ ν ω : Type*} [DecidableEq κ] (r : Registers σ κ ν ω)

/-- The writes of a list, from left to right. -/
def run (ws : List ω) (s : σ) : σ :=
  ws.foldl (fun s w => r.write w s) s

variable {r}

theorem write_comm {a b : ω} (ha : r.good a) (hb : r.good b) (hne : r.key a ≠ r.key b) (s : σ) :
    r.write a (r.write b s) = r.write b (r.write a s) := by
  refine r.ext _ _ fun k => ?_
  rw [r.get_write a ha, r.get_write b hb, r.get_write b hb, r.get_write a ha]
  by_cases hka : k = r.key a
  · rw [if_pos hka, if_pos hka, if_neg (by rw [hka]; exact hne)]
  · rw [if_neg hka, if_neg hka]

/-- A write hides an earlier one to the same register. -/
theorem write_write {a b : ω} (ha : r.good a) (hb : r.good b) (heq : r.key a = r.key b) (s : σ) :
    r.write a (r.write b s) = r.write a s := by
  refine r.ext _ _ fun k => ?_
  rw [r.get_write a ha, r.get_write b hb, r.get_write a ha]
  by_cases hka : k = r.key a
  · rw [if_pos hka, if_pos hka]
  · rw [if_neg hka, if_neg hka, if_neg (by rw [← heq]; exact hka)]

/-- Writes to different registers can be made in any order. -/
theorem run_perm {ws ws' : List ω} (hperm : ws.Perm ws') (hgood : ∀ w ∈ ws, r.good w)
    (hdistinct : (ws.map r.key).Nodup) (s : σ) : r.run ws s = r.run ws' s := by
  refine hperm.foldl_eq' ?_ s
  intro a ha b hb s
  by_cases heq : a = b
  · rw [heq]
  · have hne : r.key a ≠ r.key b := fun hkey => heq (List.inj_on_of_nodup_map hdistinct ha hb hkey)
    exact write_comm (hgood b hb) (hgood a ha) hne.symm s

/-- A write does not matter when a later one goes to the same register. -/
theorem run_write_of_mem {w : ω} {ws : List ω} (hw : r.good w) (hgood : ∀ x ∈ ws, r.good x)
    (hlater : r.key w ∈ ws.map r.key) (s : σ) : r.run ws (r.write w s) = r.run ws s := by
  induction ws generalizing s with
  | nil => cases hlater
  | cons next ws ih =>
      have hnext : r.good next := hgood next List.mem_cons_self
      have hrest : ∀ x ∈ ws, r.good x := fun x hx => hgood x (List.mem_cons_of_mem next hx)
      by_cases heq : r.key next = r.key w
      · -- The next write goes to the register itself.
        calc
          r.run (next :: ws) (r.write w s) = r.run ws (r.write next (r.write w s)) := rfl
          _ = r.run ws (r.write next s) := by rw [write_write hnext hw heq]
          _ = r.run (next :: ws) s := rfl
      · have hmem : r.key w ∈ ws.map r.key := by
          rcases List.mem_cons.1 hlater with hhead | htail
          · exact absurd hhead.symm heq
          · exact htail
        calc
          r.run (next :: ws) (r.write w s) = r.run ws (r.write next (r.write w s)) := rfl
          _ = r.run ws (r.write w (r.write next s)) := by rw [write_comm hnext hw heq]
          _ = r.run ws (r.write next s) := ih hrest hmem _
          _ = r.run (next :: ws) s := rfl

/-- A register that no write goes to keeps its value. -/
theorem get_run_of_ne {ws : List ω} {k : κ} (hgood : ∀ w ∈ ws, r.good w)
    (hne : ∀ w ∈ ws, r.key w ≠ k) (s : σ) : r.get (r.run ws s) k = r.get s k := by
  induction ws generalizing s with
  | nil => rfl
  | cons w ws ih =>
      have hw : k ≠ r.key w := (hne w List.mem_cons_self).symm
      calc
        r.get (r.run (w :: ws) s) k = r.get (r.run ws (r.write w s)) k := rfl
        _ = r.get (r.write w s) k :=
          ih (fun x hx => hgood x (List.mem_cons_of_mem w hx))
            (fun x hx => hne x (List.mem_cons_of_mem w hx)) _
        _ = r.get s k := by
          rw [r.get_write w (hgood w List.mem_cons_self), if_neg hw]

/-- A register holds the value of the last write to it. -/
theorem get_run_last {before after : List ω} {w : ω} (hw : r.good w)
    (hgood : ∀ x ∈ after, r.good x) (hlast : ∀ x ∈ after, r.key x ≠ r.key w) (s : σ) :
    r.get (r.run (before ++ w :: after) s) (r.key w) = r.value w := by
  have hsplit : r.run (before ++ w :: after) s = r.run after (r.write w (r.run before s)) := by
    unfold run
    rw [List.foldl_append, List.foldl_cons]
  rw [hsplit, get_run_of_ne hgood hlast, r.get_write w hw, if_pos rfl]

theorem run_keepLast (k : κ) {ws : List ω} (hgood : ∀ w ∈ ws, r.good w) (s : σ) :
    r.run (keepLast r.key k ws) s = r.run ws s := by
  induction ws generalizing s with
  | nil => rfl
  | cons w ws ih =>
      have hw : r.good w := hgood w List.mem_cons_self
      have hrest : ∀ x ∈ ws, r.good x := fun x hx => hgood x (List.mem_cons_of_mem w hx)
      rw [keepLast]
      split
      · rename_i hlater
        rcases hlater with ⟨rfl, hmem⟩
        calc
          r.run (keepLast r.key (r.key w) ws) s = r.run ws s := ih hrest s
          _ = r.run ws (r.write w s) := (run_write_of_mem hw hrest hmem s).symm
          _ = r.run (w :: ws) s := rfl
      · exact ih hrest _

end Registers

end Lib
end LatencyAnalyzer

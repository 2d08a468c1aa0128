import Mathlib.Data.List.Nodup
import Mathlib.Logic.Function.Basic

/-!
# Replacement — what stays in a cache, whatever its policy is

With every access a policy may throw out any lines but those that were accessed last.  Two things
can be relied upon all the same: a flushed line is out until it is accessed again, and a line that
is accessed again soon enough is still in.
-/

namespace LatencyAnalyzer
namespace Lib

section Replacement

variable {κ L : Type*} [DecidableEq L]

structure Policy (L : Type*) where
  /-- So many of the last accesses protect their lines. -/
  depth : Nat
  /-- The line is thrown out after the given accesses, the last one first. -/
  evicts : List L → L → Bool
  keeps : ∀ recent, ∀ l ∈ recent.take depth, evicts recent l = false

structure CacheState (L : Type*) where
  cached : L → Bool
  /-- The lines of the accesses so far, the last one first. -/
  recent : List L

/-- An access to a line is of some kind, such as a load or a store. -/
inductive CacheOp (κ L : Type*)
  | touch (kind : κ) (l : L)
  | flush (l : L)

namespace CacheState

def step (p : Policy L) (s : CacheState L) : CacheOp κ L → CacheState L
  | .touch _ l =>
      { cached := fun l' => (decide (l' = l) || s.cached l') && !p.evicts (l :: s.recent) l'
        recent := l :: s.recent }
  | .flush l => { s with cached := Function.update s.cached l false }

def run (p : Policy L) (s : CacheState L) (ops : List (CacheOp κ L)) : CacheState L :=
  ops.foldl (step p) s

/-- The time that the accesses take one after the other; each finds its line cached or not. -/
def cost (p : Policy L) (time : κ → Bool → Nat) : CacheState L → List (CacheOp κ L) → Nat
  | _, [] => 0
  | s, .touch kind l :: ops =>
      time kind (s.cached l) + cost p time (s.step p (.touch kind l)) ops
  | s, .flush l :: ops => cost p time (s.step p (.flush l : CacheOp κ L)) ops

variable {p : Policy L} {time : κ → Bool → Nat} {s : CacheState L}

theorem run_append (ops ops' : List (CacheOp κ L)) :
    s.run p (ops ++ ops') = (s.run p ops).run p ops' :=
  List.foldl_append

theorem cost_append (ops ops' : List (CacheOp κ L)) :
    s.cost p time (ops ++ ops') = s.cost p time ops + (s.run p ops).cost p time ops' := by
  induction ops generalizing s with
  | nil => exact (Nat.zero_add _).symm
  | cons op ops ih =>
      cases op with
      | touch kind l =>
          have hrest := @ih (s.step p (.touch kind l))
          exact (congrArg (time kind (s.cached l) + ·) hrest).trans (Nat.add_assoc _ _ _).symm
      | flush l => exact ih

/-- Between all hits and all misses. -/
theorem cost_between {kind : κ} (h : time kind true ≤ time kind false) (lines : List L) :
    lines.length * time kind true ≤ s.cost p time (lines.map (.touch kind)) ∧
      s.cost p time (lines.map (.touch kind)) ≤ lines.length * time kind false := by
  induction lines generalizing s with
  | nil => exact ⟨Nat.le_of_eq (Nat.zero_mul _), Nat.zero_le _⟩
  | cons l lines ih =>
      have hcost : s.cost p time ((l :: lines).map (.touch kind)) =
          time kind (s.cached l) +
            (s.step p (.touch kind l)).cost p time (lines.map (.touch kind)) := rfl
      have hrest := @ih (s.step p (.touch kind l))
      have hfirst : time kind true ≤ time kind (s.cached l) ∧
          time kind (s.cached l) ≤ time kind false := by
        cases s.cached l with
        | true => exact ⟨Nat.le_refl _, h⟩
        | false => exact ⟨h, Nat.le_refl _⟩
      rw [hcost, List.length_cons, Nat.succ_mul, Nat.succ_mul]
      omega

/-! ## Lines that are out -/

theorem cached_touch_ne {kind : κ} {l l' : L} (hne : l' ≠ l) (h : s.cached l' = false) :
    (s.step p (.touch kind l)).cached l' = false := by
  show ((decide (l' = l) || s.cached l') && !p.evicts (l :: s.recent) l') = false
  rw [decide_eq_false hne, h]
  rfl

def flushes (κ : Type*) (lines : List L) : List (CacheOp κ L) :=
  lines.map .flush

theorem cached_flushes (lines : List L) {l : L} (h : s.cached l = false ∨ l ∈ lines) :
    (s.run p (flushes κ lines)).cached l = false := by
  induction lines generalizing s with
  | nil => exact h.resolve_right List.not_mem_nil
  | cons l' lines ih =>
      refine @ih (s.step p (.flush l' : CacheOp κ L)) ?_
      by_cases hl : l = l'
      · refine Or.inl ?_
        rw [hl]
        exact Function.update_self _ _ _
      · -- Another line keeps its state.
        have hkept : (s.step p (.flush l' : CacheOp κ L)).cached l = s.cached l :=
          Function.update_of_ne hl _ _
        rw [hkept]
        exact h.imp_right fun hmem => (List.mem_cons.1 hmem).resolve_left hl

/-- Different lines that are all out are missed one after the other, whatever is thrown out. -/
theorem cost_cold (time : κ → Bool → Nat) (kind : κ) {lines : List L} (hnodup : lines.Nodup)
    (h : ∀ l ∈ lines, s.cached l = false) :
    s.cost p time (lines.map (.touch kind)) = lines.length * time kind false := by
  induction lines generalizing s with
  | nil => exact (Nat.zero_mul _).symm
  | cons l lines ih =>
      obtain ⟨hl, hnodup⟩ := List.nodup_cons.1 hnodup
      obtain ⟨hout, hlines⟩ := List.forall_mem_cons.1 h
      have hrest : ∀ l' ∈ lines, (s.step p (.touch kind l)).cached l' = false := by
        intro l' hl'
        refine cached_touch_ne ?_ (hlines l' hl')
        rintro rfl
        exact hl hl'
      calc
        s.cost p time ((l :: lines).map (.touch kind)) =
            time kind (s.cached l) +
              (s.step p (.touch kind l)).cost p time (lines.map (.touch kind)) := rfl
        _ = time kind false + lines.length * time kind false := by rw [hout, ih hnodup hrest]
        _ = (l :: lines).length * time kind false := by
          rw [List.length_cons, Nat.succ_mul, Nat.add_comm]

/-! ## Lines that stay -/

/-- The line is cached, and it still is when `k` more lines have been accessed. -/
def Survives (p : Policy L) (s : CacheState L) (k : Nat) (l : L) : Prop :=
  s.cached l = true ∧ l ∈ s.recent.take (p.depth - k)

theorem survives_touch (kind : κ) (l : L) {k : Nat} (hk : k < p.depth) :
    (s.step p (.touch kind l)).Survives p k l := by
  have hmem : ∀ {n}, 0 < n → l ∈ (l :: s.recent).take n := by
    intro n hn
    rw [List.take_cons hn]
    exact List.mem_cons_self
  constructor
  · show ((decide (l = l) || s.cached l) && !p.evicts (l :: s.recent) l) = true
    rw [p.keeps _ l (hmem (Nat.zero_lt_of_lt hk)), decide_eq_true rfl]
    rfl
  · exact hmem (Nat.sub_pos_of_lt hk)

theorem Survives.touch {k : Nat} {l : L} (h : s.Survives p (k + 1) l) (kind : κ) (l' : L) :
    (s.step p (.touch kind l')).Survives p k l := by
  obtain ⟨hcached, hmem⟩ := h
  have hpos : 0 < p.depth - (k + 1) := by
    refine Nat.pos_of_ne_zero fun hzero => ?_
    rw [hzero] at hmem
    exact List.not_mem_nil hmem
  have hrecent : ∀ n, p.depth - (k + 1) < n → l ∈ (l' :: s.recent).take n := by
    intro n hn
    rw [List.take_cons (Nat.zero_lt_of_lt hn)]
    exact List.mem_cons_of_mem _ (List.take_subset_take_left _ (by omega) hmem)
  constructor
  · show ((decide (l = l') || s.cached l) && !p.evicts (l' :: s.recent) l) = true
    rw [p.keeps _ l (hrecent p.depth (by omega)), hcached, Bool.or_true]
    rfl
  · exact hrecent (p.depth - k) (by omega)

/-- The lines accessed last are the ones that stay. -/
theorem survives_touches (kind : κ) (lines : List L) {i k : Nat} (hi : i < lines.length)
    (hk : k + lines.length ≤ p.depth + i) :
    (s.run p (lines.map (.touch kind))).Survives p k lines[i] := by
  -- From the access itself on, the line loses one of its lives with each further access.
  have hlater : ∀ (later : List L) (s : CacheState L) (l : L),
      s.Survives p (k + later.length) l →
        (s.run p (later.map (.touch kind))).Survives p k l := by
    intro later
    induction later with
    | nil => exact fun _ _ h => h
    | cons l' later ih => exact fun s l h => ih _ l (Survives.touch h kind l')
  have hsplit : lines = lines.take i ++ lines[i] :: lines.drop (i + 1) := by simp
  have hlength : (lines.drop (i + 1)).length = lines.length - (i + 1) := List.length_drop
  have hrun : s.run p (lines.map (.touch kind)) =
      (((s.run p ((lines.take i).map (.touch kind))).step p (.touch kind lines[i])).run p
        ((lines.drop (i + 1)).map (.touch kind))) := by
    conv_lhs => rw [hsplit, List.map_append, run_append]
    rfl
  rw [hrun]
  exact hlater _ _ _ (survives_touch kind _ (by omega))

/-- Lines that all live long enough are hit one after the other. -/
theorem cost_hot (kind : κ) {lines : List L}
    (h : ∀ (k : Nat) (hk : k < lines.length), s.Survives p k lines[k]) :
    s.cost p time (lines.map (.touch kind)) = lines.length * time kind true := by
  induction lines generalizing s with
  | nil => exact (Nat.zero_mul _).symm
  | cons l lines ih =>
      have hl : s.cached l = true := (h 0 (Nat.succ_pos _)).1
      have hrest : ∀ (k : Nat) (hk : k < lines.length),
          (s.step p (.touch kind l)).Survives p k lines[k] :=
        fun k hk => (h (k + 1) (Nat.succ_lt_succ hk)).touch kind l
      calc
        s.cost p time ((l :: lines).map (.touch kind)) =
            time kind (s.cached l) +
              (s.step p (.touch kind l)).cost p time (lines.map (.touch kind)) := rfl
        _ = time kind true + lines.length * time kind true := by rw [hl, ih hrest]
        _ = (l :: lines).length * time kind true := by
          rw [List.length_cons, Nat.succ_mul, Nat.add_comm]

/-! ## Lines in rotation -/

/-- The next `d` accesses of a rotation through `d` lines find their lines. -/
def Rotates (p : Policy L) (s : CacheState L) (line : Nat → L) (d i : Nat) : Prop :=
  ∀ k < d, s.Survives p k (line ((i + k) % d))

section Rotation

variable {line : Nat → L} {d i : Nat}

theorem Rotates.touch (hd : d ≤ p.depth) (h : s.Rotates p line d i) (kind : κ) :
    (s.step p (.touch kind (line (i % d)))).Rotates p line d (i + 1) := by
  intro k hk
  rcases Nat.lt_or_ge (k + 1) d with hlt | hge
  · have hsame : i + 1 + k = i + (k + 1) := by omega
    rw [hsame]
    exact (h (k + 1) hlt).touch kind _
  · -- The line of this access has its next turn after all the others.
    have hturn : i + 1 + k = i + d := by omega
    rw [hturn, Nat.add_mod_right]
    exact survives_touch kind _ (Nat.lt_of_lt_of_le hk hd)

/-- The accesses of a rotation from its `i`-th turn on. -/
def turns (kind : κ) (line : Nat → L) (d i n : Nat) : List (CacheOp κ L) :=
  (List.range' i n).map fun j => .touch kind (line (j % d))

theorem Rotates.turns (hd : d ≤ p.depth) (hpos : 0 < d) (h : s.Rotates p line d i)
    (time : κ → Bool → Nat) (kind : κ) (n : Nat) :
    s.cost p time (CacheState.turns kind line d i n) = n * time kind true ∧
      (s.run p (CacheState.turns kind line d i n)).Rotates p line d (i + n) := by
  induction n generalizing s i with
  | zero => exact ⟨(Nat.zero_mul _).symm, h⟩
  | succ n ih =>
      have hcached : s.cached (line (i % d)) = true := (h 0 hpos).1
      obtain ⟨hcost, hrotates⟩ := ih (h.touch hd kind)
      have hcons : CacheState.turns kind line d i (n + 1) =
          .touch kind (line (i % d)) :: CacheState.turns kind line d (i + 1) n := rfl
      have hlast : i + (n + 1) = i + 1 + n := by omega
      rw [hcons, hlast]
      refine ⟨?_, hrotates⟩
      calc
        s.cost p time (.touch kind (line (i % d)) :: CacheState.turns kind line d (i + 1) n) =
            time kind (s.cached (line (i % d))) +
              (s.step p (.touch kind (line (i % d)))).cost p time
                (CacheState.turns kind line d (i + 1) n) := rfl
        _ = time kind true + n * time kind true := by rw [hcached, hcost]
        _ = (n + 1) * time kind true := by rw [Nat.succ_mul, Nat.add_comm]

omit [DecidableEq L] in
/-- After full turns a rotation starts again from its first line. -/
theorem Rotates.restart {m : Nat} (h : s.Rotates p line d (d * m)) : s.Rotates p line d 0 := by
  intro k hk
  have hk' := h k hk
  rw [Nat.mul_add_mod] at hk'
  rwa [Nat.zero_add]

/-- One turn brings all lines in, whatever has been in the cache before. -/
theorem rotates_turns (hd : d ≤ p.depth) (kind : κ) (line : Nat → L) {n : Nat} (hn : d ≤ n) :
    (s.run p (turns kind line d 0 n)).Rotates p line d n := by
  intro k hk
  have hlast : n - d + k < ((List.range' 0 n).map fun j => line (j % d)).length := by
    rw [List.length_map, List.length_range']
    omega
  have hlives : k + ((List.range' 0 n).map fun j => line (j % d)).length ≤
      p.depth + (n - d + k) := by
    rw [List.length_map, List.length_range']
    omega
  have hsurvives := survives_touches (p := p) (s := s) kind _ hlast hlives
  have hline : ((List.range' 0 n).map fun j => line (j % d))[n - d + k] = line ((n + k) % d) := by
    have hturn : n + k = n - d + k + d := by omega
    rw [List.getElem_map, List.getElem_range', hturn, Nat.add_mod_right]
    congr 2
    omega
  rw [hline, List.map_map] at hsurvives
  exact hsurvives

end Rotation

end CacheState

end Replacement

end Lib
end LatencyAnalyzer

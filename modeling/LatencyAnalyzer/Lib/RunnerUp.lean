import Mathlib.Data.List.Basic
import Mathlib.Order.Lattice
import Mathlib.Order.Defs.LinearOrder

/-!
# RunnerUp — the one-pass search for a maximum and its runner-up

The scan keeps two cursors, both on the first element at the start.  A new maximum pushes the old
one to the second cursor.  This module states what the two cursors mean after any prefix of an
ascending list: the first is always the earliest maximum, and the second is a runner-up from the
moment the maximum has left the first element, but not before.
-/

namespace LatencyAnalyzer
namespace RunnerUp

variable {ι α : Type*} [LinearOrder ι] [LinearOrder α]

/-- `b` is the least index of `seen` at which `score` is maximal on `seen`. -/
structure FirstMax (score : ι → α) (seen : List ι) (b : ι) : Prop where
  mem : b ∈ seen
  max : ∀ j ∈ seen, score j ≤ score b
  first : ∀ j ∈ seen, j < b → score j < score b

/-- `r` attains the maximum of `score` on `seen` without `b`. -/
structure Runner (score : ι → α) (seen : List ι) (b r : ι) : Prop where
  mem : r ∈ seen
  ne : r ≠ b
  max : ∀ j ∈ seen, j ≠ b → score j ≤ score r

def scanStep (score : ι → α) (cursors : ι × ι) (i : ι) : ι × ι :=
  if score cursors.1 < score i then
    (i, cursors.1)
  else if i ≠ cursors.1 ∧ score cursors.2 < score i then
    (cursors.1, i)
  else
    cursors

def scan (score : ι → α) (front : ι) (rest : List ι) : ι × ι :=
  rest.foldl (scanStep score) (front, front)

/-- What the cursors say about the elements seen so far. -/
structure Meaning (score : ι → α) (front : ι) (seen : List ι) (cursors : ι × ι) : Prop where
  best : FirstMax score seen cursors.1
  second : cursors = (front, front) ∨
    (front < cursors.1 ∧ Runner score seen cursors.1 cursors.2)

theorem meaning_start (score : ι → α) (front : ι) :
    Meaning score front [front] (front, front) := by
  refine ⟨⟨by simp, ?_, ?_⟩, Or.inl rfl⟩
  · intro j hj
    rw [List.mem_singleton.1 hj]
  · intro j hj hlt
    rw [List.mem_singleton.1 hj] at hlt
    exact (lt_irrefl _ hlt).elim

/-- One step of the scan extends the meaning to an index above all seen ones. -/
theorem meaning_step {score : ι → α} {front i : ι} {seen : List ι} {cursors : ι × ι}
    (h : Meaning score front seen cursors) (hfront : front ∈ seen) (hi : ∀ j ∈ seen, j < i) :
    Meaning score front (seen ++ [i]) (scanStep score cursors i) := by
  rcases cursors with ⟨best, second⟩
  rcases h with ⟨hbest, hsecond⟩
  have hbi : best < i := hi best hbest.mem
  have hsplit : ∀ {j}, j ∈ seen ++ [i] → j ∈ seen ∨ j = i := by
    intro j hj
    simpa using hj
  unfold scanStep
  by_cases hnew : score best < score i
  · -- A new maximum: everything seen so far is at most the old one.
    rw [if_pos hnew]
    have hbelow : ∀ j ∈ seen, score j < score i := fun j hj =>
      lt_of_le_of_lt (hbest.max j hj) hnew
    refine ⟨⟨by simp, ?_, ?_⟩, Or.inr ⟨hi front hfront, by simp [hbest.mem], hbi.ne, ?_⟩⟩
    · intro j hj
      rcases hsplit hj with hj | rfl
      · exact (hbelow j hj).le
      · exact le_rfl
    · intro j hj hji
      rcases hsplit hj with hj | rfl
      · exact hbelow j hj
      · exact (lt_irrefl _ hji).elim
    · intro j hj hne
      rcases hsplit hj with hj | rfl
      · exact hbest.max j hj
      · exact (hne rfl).elim
  · -- The maximum stays; only the runner-up may change.
    rw [if_neg hnew]
    have hle : score i ≤ score best := not_lt.1 hnew
    have hbest' : FirstMax score (seen ++ [i]) best := by
      refine ⟨by simp [hbest.mem], ?_, ?_⟩
      · intro j hj
        rcases hsplit hj with hj | rfl
        · exact hbest.max j hj
        · exact hle
      · intro j hj hjb
        rcases hsplit hj with hj | rfl
        · exact hbest.first j hj hjb
        · exact (lt_asymm hbi hjb).elim
    by_cases hrun : i ≠ best ∧ score second < score i
    · rw [if_pos hrun]
      refine ⟨hbest', ?_⟩
      rcases hsecond with heq | ⟨hlt, hr⟩
      · -- Both cursors on the front: the condition would make `i` a new maximum.
        have hb : best = front := congrArg Prod.fst heq
        have hs : second = front := congrArg Prod.snd heq
        exact (hnew (by simpa [hb, hs] using hrun.2)).elim
      · refine Or.inr ⟨hlt, by simp, hrun.1, ?_⟩
        intro j hj hne
        rcases hsplit hj with hj | rfl
        · exact (hr.max j hj hne).trans hrun.2.le
        · exact le_rfl
    · rw [if_neg hrun]
      refine ⟨hbest', ?_⟩
      rcases hsecond with heq | ⟨hlt, hr⟩
      · exact Or.inl heq
      · have his : score i ≤ score second := by
          by_contra hgt
          exact hrun ⟨hbi.ne', not_le.1 hgt⟩
        refine Or.inr ⟨hlt, by simp [hr.mem], hr.ne, ?_⟩
        intro j hj hne
        rcases hsplit hj with hj | rfl
        · exact hr.max j hj hne
        · exact his

theorem meaning_foldl {score : ι → α} {front : ι} (rest : List ι) :
    ∀ {seen : List ι} {cursors : ι × ι}, front ∈ seen → (seen ++ rest).Pairwise (· < ·) →
      Meaning score front seen cursors →
        Meaning score front (seen ++ rest) (rest.foldl (scanStep score) cursors) := by
  induction rest with
  | nil =>
      intro seen cursors _ _ h
      simpa using h
  | cons i rest ih =>
      intro seen cursors hfront hsorted h
      have hi : ∀ j ∈ seen, j < i := by
        intro j hj
        exact (List.pairwise_append.1 hsorted).2.2 j hj i (by simp)
      have hassoc : seen ++ i :: rest = (seen ++ [i]) ++ rest := by simp
      rw [hassoc] at hsorted ⊢
      exact ih (by simp [hfront]) hsorted (meaning_step h hfront hi)

theorem meaning_scan (score : ι → α) (front : ι) (rest : List ι)
    (hsorted : (front :: rest).Pairwise (· < ·)) :
    Meaning score front (front :: rest) (scan score front rest) :=
  meaning_foldl rest (by simp) hsorted (meaning_start score front)

/-- When some element beats the front, the second cursor ends on a runner-up. -/
theorem scan_runner {score : ι → α} {front : ι} {rest : List ι}
    (hsorted : (front :: rest).Pairwise (· < ·)) {j : ι} (hj : j ∈ rest)
    (hlt : score front < score j) :
    Runner score (front :: rest) (scan score front rest).1 (scan score front rest).2 := by
  rcases (meaning_scan score front rest hsorted) with ⟨hbest, heq | ⟨_, hr⟩⟩
  · have hle := hbest.max j (by simp [hj])
    rw [heq] at hle
    exact (not_lt.2 hle hlt).elim
  · exact hr

/-- When nothing beats the front, neither cursor ever leaves it. -/
theorem scan_front {score : ι → α} {front : ι} {rest : List ι}
    (hsorted : (front :: rest).Pairwise (· < ·)) (hmax : ∀ j ∈ rest, score j ≤ score front) :
    scan score front rest = (front, front) := by
  rcases (meaning_scan score front rest hsorted) with ⟨hbest, heq | ⟨hlt, _⟩⟩
  · exact heq
  · have hless := hbest.first front (by simp) hlt
    rcases List.mem_cons.1 hbest.mem with hb | hb
    · rw [hb] at hless
      exact (lt_irrefl _ hless).elim
    · exact (not_lt.2 (hmax _ hb) hless).elim

end RunnerUp
end LatencyAnalyzer

import Mathlib.Data.Finset.Basic
import Mathlib.Data.List.Count

/-!
# Ledger — acquisitions and releases in the order in which they happen

Replaying a log fails on a second acquisition of a held resource and on a release of one that is
not held.  A settled log replays to the empty set: whatever it acquires it releases afterwards,
once for each acquisition.
-/

namespace LatencyAnalyzer
namespace Lib

inductive Entry (R : Type*)
  | acquire (r : R)
  | release (r : R)
  deriving DecidableEq, Repr

section Ledger

variable {R : Type*} [DecidableEq R]

def replay : Finset R → List (Entry R) → Option (Finset R)
  | held, [] => some held
  | held, .acquire r :: log => if r ∈ held then none else replay (insert r held) log
  | held, .release r :: log => if r ∈ held then replay (held.erase r) log else none

def Settled (log : List (Entry R)) : Prop :=
  replay ∅ log = some ∅

instance (log : List (Entry R)) : Decidable (Settled log) := by
  unfold Settled
  infer_instance

/-- What a replay ends with is what it started with, plus acquisitions, minus releases. -/
theorem count_of_replay {held held' : Finset R} {log : List (Entry R)}
    (h : replay held log = some held') (r : R) :
    (if r ∈ held then 1 else 0) + log.count (.acquire r) =
      log.count (.release r) + if r ∈ held' then 1 else 0 := by
  induction log generalizing held with
  | nil =>
      cases h
      simp
  | cons entry log ih =>
      cases entry with
      | acquire s =>
          unfold replay at h
          split at h
          · cases h
          · rename_i hs
            have hrest := ih h
            -- Only the entries for `r` itself change both sides, by one each.
            by_cases hr : r = s
            · subst hr
              simp only [Finset.mem_insert_self, if_true] at hrest
              simp only [hs, if_false, List.count_cons_self, ne_eq, reduceCtorEq,
                not_false_eq_true, List.count_cons_of_ne]
              omega
            · have hne : Entry.acquire s ≠ Entry.acquire r :=
                fun heq => hr (Entry.acquire.inj heq).symm
              simp only [Finset.mem_insert, hr, false_or] at hrest
              simp only [List.count_cons_of_ne hne, ne_eq, reduceCtorEq, not_false_eq_true,
                List.count_cons_of_ne]
              omega
      | release s =>
          unfold replay at h
          split at h
          · rename_i hs
            have hrest := ih h
            by_cases hr : r = s
            · subst hr
              simp only [Finset.mem_erase, ne_eq, not_true, false_and, if_false] at hrest
              simp only [hs, if_true, List.count_cons_self, ne_eq, reduceCtorEq,
                not_false_eq_true, List.count_cons_of_ne]
              omega
            · have hne : Entry.release s ≠ Entry.release r :=
                fun heq => hr (Entry.release.inj heq).symm
              simp only [Finset.mem_erase, ne_eq, hr, not_false_eq_true, true_and] at hrest
              simp only [List.count_cons_of_ne hne, ne_eq, reduceCtorEq, not_false_eq_true,
                List.count_cons_of_ne]
              omega
          · cases h

/-- In a settled log every resource is released as often as it is acquired. -/
theorem Settled.count_eq {log : List (Entry R)} (h : Settled log) (r : R) :
    log.count (.release r) = log.count (.acquire r) := by
  have hcount := count_of_replay h r
  simp only [Finset.notMem_empty, if_false] at hcount
  omega

/-! ## Ledgers of one and of two resources -/

theorem settled_of_one (r : R) : Settled [Entry.acquire r, Entry.release r] := by
  simp [Settled, replay]

theorem settled_of_two {r s : R} (hne : r ≠ s) :
    Settled [Entry.acquire r, Entry.acquire s, Entry.release r, Entry.release s] := by
  have hsr : s ∉ ({r} : Finset R) := by simpa using hne.symm
  have hrs : r ∉ ({s} : Finset R) := by simpa using hne
  have hswap : (insert s {r} : Finset R) = insert r {s} := Finset.pair_comm s r
  have hfirst : (insert s {r} : Finset R).erase r = {s} := by
    rw [hswap, Finset.erase_insert hrs]
  simp [Settled, replay, hsr, hfirst]

end Ledger

end Lib
end LatencyAnalyzer

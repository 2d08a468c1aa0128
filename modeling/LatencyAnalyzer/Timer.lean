import Mathlib.Data.List.Sort
import Mathlib.Data.Rat.Floor

/-!
# Timer — `calibrate_tsc_hz` of `timer.cpp`

What a calibration reads is a `World`: for each round the two readings of the clock and the two time
stamps with the CPUs they were taken on.  A round during which the CPU has changed is dropped.
-/

namespace LatencyAnalyzer
namespace Timer

inductive Thrown
  | invalidArgument (what : String)
  | runtimeError (what : String)
  /-- `reserve` throws `length_error` or `bad_alloc`. -/
  | allocation
  deriving DecidableEq, Repr

/-- One round; a clock reading is `none` when `clock_gettime` fails. -/
structure Round where
  nsStart : Option UInt64
  tscStart : UInt64
  auxStart : UInt32
  tscEnd : UInt64
  auxEnd : UInt32
  nsEnd : Option UInt64
  deriving DecidableEq, Repr

structure World where
  reserve : Nat → Bool
  round : Nat → Round

/-- The estimate of a round; `none` is `continue`. -/
def estimate (r : Round) : Except Thrown (Option ℚ) :=
  match r.nsStart, r.nsEnd with
  | some nsStart, some nsEnd =>
      let elapsedNs := nsEnd - nsStart
      if elapsedNs = 0 ∨ r.auxStart ≠ r.auxEnd then
        .ok none
      else
        .ok (some (((r.tscEnd - r.tscStart).toNat : ℚ) / (elapsedNs.toNat * (1 / 10 ^ 9))))
  | _, _ => .error (.runtimeError "clock_gettime(CLOCK_MONOTONIC_RAW) failed")

/-- The loop of `calibrate_tsc_hz`, up to round `n`. -/
def estimatesOf (w : World) : Nat → Except Thrown (List ℚ)
  | 0 => .ok []
  | n + 1 =>
      match estimatesOf w n with
      | .error thrown => .error thrown
      | .ok estimates =>
          match estimate (w.round n) with
          | .error thrown => .error thrown
          | .ok none => .ok estimates
          | .ok (some rate) => .ok (estimates ++ [rate])

/-- `std::sort` and `estimates[estimates.size() / 2]`. -/
def middleEstimate (estimates : List ℚ) : ℚ :=
  (estimates.insertionSort (· ≤ ·)).getD (estimates.length / 2) 0

def calibrateTscHz (w : World) (rounds intervalMs : Int) : Except Thrown ℚ :=
  if rounds ≤ 0 ∨ intervalMs ≤ 0 then
    .error (.invalidArgument "TSC calibration parameters must be positive")
  else if w.reserve rounds.toNat then
    match estimatesOf w rounds.toNat with
    | .error thrown => .error thrown
    | .ok estimates =>
        if estimates = [] then .error (.runtimeError "Unable to calibrate TSC rate")
        else .ok (middleEstimate estimates)
  else
    .error .allocation

/-- The estimate of a round that is not dropped. -/
def Round.kept (r : Round) : Option ℚ :=
  match estimate r with
  | .ok rate => rate
  | .error _ => none

def World.kept (w : World) (rounds : Nat) : List ℚ :=
  (List.range rounds).filterMap fun i => (w.round i).kept

theorem World.kept_succ (w : World) (n : Nat) :
    w.kept (n + 1) = w.kept n ++ (w.round n).kept.toList := by
  unfold World.kept
  rw [List.range_succ, List.filterMap_append, List.filterMap_cons, List.filterMap_nil]
  cases (w.round n).kept with
  | none => rfl
  | some => rfl

theorem estimatesOf_eq_kept {w : World} {rounds : Nat} {estimates : List ℚ}
    (h : estimatesOf w rounds = .ok estimates) : estimates = w.kept rounds := by
  induction rounds generalizing estimates with
  | zero =>
      cases h
      rfl
  | succ n ih =>
      unfold estimatesOf at h
      rw [World.kept_succ, Round.kept]
      split at h
      · cases h
      · rename_i before hbefore
        rw [← ih hbefore]
        split at h
        · cases h
        · rename_i hround
          cases h
          rw [hround]
          exact (List.append_nil _).symm
        · rename_i rate hround
          cases h
          rw [hround]
          rfl

/-- A calibration that succeeds returns the middle one of the estimates that it has kept. -/
theorem calibrateTscHz_inversion {w : World} {rounds intervalMs : Int} {rate : ℚ}
    (h : calibrateTscHz w rounds intervalMs = .ok rate) :
    w.kept rounds.toNat ≠ [] ∧ rate = middleEstimate (w.kept rounds.toNat) := by
  unfold calibrateTscHz at h
  split at h
  · cases h
  split at h
  · split at h
    · cases h
    · rename_i estimates hestimates
      rw [← estimatesOf_eq_kept hestimates]
      split at h
      · cases h
      · rename_i hsome
        cases h
        exact ⟨hsome, rfl⟩
  · cases h

end Timer
end LatencyAnalyzer

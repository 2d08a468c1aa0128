import Mathlib.Data.List.Iterate
import Mathlib.Data.List.Nodup
import Mathlib.Data.Nat.ModEq
import Mathlib.Data.Set.Function

/-!
# Rotation — the orbits of the addition of a constant modulo `n`

A walk by steps of `s` around `n` positions comes back after `n / gcd n s` steps.  Until then it
visits every position that differs from its start by a multiple of `gcd n s`, and no position twice.
-/

namespace LatencyAnalyzer
namespace Lib

/-- The position `s` places after `i`, around the end. -/
def rotate (n s i : Nat) : Nat :=
  (i + s) % n

section Rotation

variable {n s : Nat}

theorem rotate_lt (hn : 0 < n) (i : Nat) : rotate n s i < n :=
  Nat.mod_lt _ hn

theorem iterate_rotate {i : Nat} (hi : i < n) (k : Nat) :
    (rotate n s)^[k] i = (i + k * s) % n := by
  induction k with
  | zero => rw [Function.iterate_zero_apply, Nat.zero_mul, Nat.add_zero, Nat.mod_eq_of_lt hi]
  | succ k ih =>
      calc
        (rotate n s)^[k + 1] i = rotate n s ((rotate n s)^[k] i) :=
          Function.iterate_succ_apply' _ _ _
        _ = ((i + k * s) % n + s) % n := by rw [ih, rotate]
        _ = (i + (k + 1) * s) % n := by rw [Nat.mod_add_mod, Nat.add_assoc, Nat.succ_mul]

/-- Two positions of a walk agree as soon as the numbers of steps do modulo `n / gcd n s`. -/
theorem iterate_rotate_eq_iff {i : Nat} (hi : i < n) (k l : Nat) :
    (rotate n s)^[k] i = (rotate n s)^[l] i ↔ k ≡ l [MOD n / Nat.gcd n s] := by
  have hn : 0 < n := Nat.zero_lt_of_lt hi
  rw [iterate_rotate hi, iterate_rotate hi]
  constructor
  · intro heq
    have hsteps : k * s ≡ l * s [MOD n] := Nat.ModEq.add_left_cancel' i heq
    exact hsteps.cancel_right_div_gcd hn
  · intro hmod
    rcases Nat.gcd_dvd_right n s with ⟨t, ht⟩
    -- `s` is a multiple of the gcd, so multiplying by it restores the modulus `n`.
    have hscaled : Nat.gcd n s * k ≡ Nat.gcd n s * l [MOD n] := by
      have hmul := hmod.mul_left' (Nat.gcd n s)
      rwa [Nat.mul_div_cancel' (Nat.gcd_dvd_left n s)] at hmul
    have hsteps : k * s ≡ l * s [MOD n] := by
      have hmul := hscaled.mul_right t
      have hfactor : ∀ m, Nat.gcd n s * m * t = m * s := by
        intro m
        rw [Nat.mul_right_comm, ← ht, Nat.mul_comm]
      rwa [hfactor, hfactor] at hmul
    exact hsteps.add_left i

/-- The walk is back at its start exactly at the multiples of `n / gcd n s`. -/
theorem iterate_rotate_eq_self_iff {i : Nat} (hi : i < n) (k : Nat) :
    (rotate n s)^[k] i = i ↔ n / Nat.gcd n s ∣ k :=
  (iterate_rotate_eq_iff hi k 0).trans Nat.modEq_zero_iff_dvd

theorem nodup_iterate_rotate {i : Nat} (hi : i < n) :
    (List.iterate (rotate n s) i (n / Nat.gcd n s)).Nodup := by
  rw [← List.range_map_iterate]
  refine List.Nodup.map_on ?_ List.nodup_range
  intro k hk l hl heq
  exact Nat.ModEq.eq_of_lt_of_lt ((iterate_rotate_eq_iff hi k l).1 heq) (List.mem_range.1 hk)
    (List.mem_range.1 hl)

theorem iterate_rotate_modEq {i : Nat} (hi : i < n) (k : Nat) :
    (rotate n s)^[k] i ≡ i [MOD Nat.gcd n s] := by
  rw [iterate_rotate hi]
  have hmod : (i + k * s) % n ≡ i + k * s [MOD Nat.gcd n s] :=
    (Nat.mod_modEq _ n).of_dvd (Nat.gcd_dvd_left n s)
  have hsteps : k * s ≡ 0 [MOD Nat.gcd n s] :=
    Nat.modEq_zero_iff_dvd.2 ((Nat.gcd_dvd_right n s).mul_left k)
  exact hmod.trans (hsteps.add_left i)

/-- Any position that is congruent to the start is reached. -/
theorem exists_iterate_rotate {i j : Nat} (hi : i < n) (hj : j < n) (hs : 0 < s)
    (h : j ≡ i [MOD Nat.gcd n s]) : ∃ k, (rotate n s)^[k] i = j := by
  rcases Nat.chineseRemainder' h with ⟨x, hxj, hxi⟩
  -- A common solution above `i` is `i` plus a number of steps.
  have hle : i ≤ x + n * s * i :=
    le_add_left (Nat.le_mul_of_pos_left i (Nat.mul_pos (Nat.zero_lt_of_lt hi) hs))
  have hshift : i ≡ x + n * s * i [MOD s] := by
    have hzero : n * s * i ≡ 0 [MOD s] := by
      rw [Nat.modEq_zero_iff_dvd]
      exact ((dvd_refl s).mul_left n).mul_right i
    exact (hxi.symm.trans (hzero.symm.add_left x))
  rcases (Nat.modEq_iff_dvd' hle).1 hshift with ⟨k, hk⟩
  refine ⟨k, ?_⟩
  have hsum : i + k * s = x + n * s * i := by
    rw [Nat.mul_comm k s, ← hk]
    omega
  calc
    (rotate n s)^[k] i = (x + n * s * i) % n := by rw [iterate_rotate hi, hsum]
    _ = x % n := by rw [Nat.mul_assoc, Nat.add_mul_mod_self_left]
    _ = j := by rw [hxj, Nat.mod_eq_of_lt hj]

theorem mem_iterate_rotate_iff {i : Nat} (hi : i < n) (hs : 0 < s) (j : Nat) :
    j ∈ List.iterate (rotate n s) i (n / Nat.gcd n s) ↔ j < n ∧ j ≡ i [MOD Nat.gcd n s] := by
  have hn : 0 < n := Nat.zero_lt_of_lt hi
  have hperiod : 0 < n / Nat.gcd n s :=
    Nat.div_pos (Nat.gcd_le_left s hn) (Nat.gcd_pos_of_pos_left s hn)
  rw [List.mem_iterate]
  constructor
  · rintro ⟨k, _, rfl⟩
    refine ⟨?_, iterate_rotate_modEq hi k⟩
    rw [iterate_rotate hi]
    exact Nat.mod_lt _ hn
  · rintro ⟨hj, hmod⟩
    rcases exists_iterate_rotate hi hj hs hmod with ⟨k, rfl⟩
    refine ⟨k % (n / Nat.gcd n s), Nat.mod_lt _ hperiod, ?_⟩
    exact (iterate_rotate_eq_iff hi _ _).2 (Nat.mod_modEq _ _).symm

theorem bijOn_rotate (hn : 0 < n) : Set.BijOn (rotate n s) (Set.Iio n) (Set.Iio n) := by
  refine Set.BijOn.mk (fun i _ => rotate_lt hn i) ?_ ?_
  · intro i hi j hj heq
    exact Nat.ModEq.eq_of_lt_of_lt (Nat.ModEq.add_right_cancel' s heq) hi hj
  · intro j hj
    -- The step back is a step by the part of `s` that is missing to a multiple of `n`.
    refine ⟨(j + (n - s % n)) % n, Nat.mod_lt _ hn, ?_⟩
    have hsum : j + (n - s % n) + s % n = j + n := by
      have hlt : s % n < n := Nat.mod_lt _ hn
      omega
    rw [rotate, Nat.mod_add_mod, ← Nat.add_mod_mod, hsum, Nat.add_mod_right]
    exact Nat.mod_eq_of_lt hj

end Rotation

end Lib
end LatencyAnalyzer

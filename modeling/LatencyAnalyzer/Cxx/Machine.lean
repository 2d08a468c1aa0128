import Mathlib.Algebra.Order.Ring.Int
import Mathlib.Tactic.NormNum

/-!
# Machine — the integer types of the analyzer's build

The build admits two processors, `x86_64` and `i.86`; they differ in the width of `size_t` only.
`int` is 32 bits on both.  An `int` is an `Int` here, and the operations that can leave its range
go through `wrapInt`, the two's complement result of the instruction the compiler emits.  Where a
program is to be shown free of overflow they go through `checkedInt`, which has no result then.
-/

namespace LatencyAnalyzer
namespace Cxx

/-! ## `size_t` -/

/-- The processors `CMakeLists.txt` accepts. -/
inductive Abi
  | i386
  | x8664
  deriving DecidableEq, Repr

def Abi.sizeBits : Abi → Nat
  | .i386 => 32
  | .x8664 => 64

abbrev SizeT (abi : Abi) : Type := BitVec abi.sizeBits

theorem Abi.two_pow_le_sizeMax (abi : Abi) : 2 ^ 32 ≤ 2 ^ abi.sizeBits := by
  cases abi <;> norm_num [Abi.sizeBits]

/-- Constants up to `2 ^ 32` are the same number at both widths. -/
theorem SizeT.toNat_ofNat {abi : Abi} {n : Nat} (hn : n < 2 ^ 32) :
    (BitVec.ofNat abi.sizeBits n).toNat = n := by
  have hlt : n < 2 ^ abi.sizeBits := lt_of_lt_of_le hn abi.two_pow_le_sizeMax
  rw [BitVec.toNat_ofNat, Nat.mod_eq_of_lt hlt]

/-! ## `int` -/

def intMax : Int := 2147483647

def intMin : Int := -2147483648

theorem intMax_eq : intMax = 2147483647 := rfl

theorem intMin_eq : intMin = -2147483648 := rfl

/-- The values a variable of type `int` can hold. -/
def InInt (v : Int) : Prop := intMin ≤ v ∧ v ≤ intMax

instance (v : Int) : Decidable (InInt v) := by
  unfold InInt
  infer_instance

def wrapInt (v : Int) : Int := Int.bmod v (2 ^ 32)

theorem wrapInt_of_inInt {v : Int} (h : InInt v) : wrapInt v = v := by
  rcases h with ⟨hlo, hhi⟩
  rw [intMin_eq] at hlo
  rw [intMax_eq] at hhi
  unfold wrapInt
  rw [Int.bmod_eq_of_le] <;> norm_num <;> omega

/-- The value of an operation in `int`, if the type can hold it. -/
def checkedInt (v : Int) : Option Int :=
  if InInt v then some v else none

theorem checkedInt_of_inInt {v : Int} (h : InInt v) : checkedInt v = some v :=
  if_pos h

theorem checkedInt_of_not_inInt {v : Int} (h : ¬ InInt v) : checkedInt v = none :=
  if_neg h

theorem inInt_of_nonneg_le {v : Int} (hnonneg : 0 ≤ v) (hle : v ≤ intMax) : InInt v :=
  ⟨le_trans (by decide) hnonneg, hle⟩

end Cxx
end LatencyAnalyzer

import Mathlib.Order.Basic
import Mathlib.Tactic.Common

/-!
# Ram — bytes in blocks that may be accessed

An access outside of all blocks is a fault, and so is a copy between bytes that overlap.  Whoever
knows the block that a range of addresses lies in can replace the checked operations by what they
do to the bytes.
-/

namespace LatencyAnalyzer
namespace Lib

structure Block where
  base : Nat
  length : Nat
  deriving DecidableEq, Repr

structure Ram where
  blocks : List Block
  bytes : Nat → UInt8

inductive Fault
  /-- The address lies in no block. -/
  | outside (address : Nat)
  /-- Source and destination of a copy have bytes in common. -/
  | overlap
  deriving DecidableEq, Repr

/-- Two ranges of one length without a common address. -/
def Apart (base base' n : Nat) : Prop :=
  base + n ≤ base' ∨ base' + n ≤ base

instance (base base' n : Nat) : Decidable (Apart base base' n) := by
  unfold Apart
  infer_instance

theorem Apart.symm {base base' n : Nat} (h : Apart base base' n) : Apart base' base n :=
  Or.symm h

theorem Apart.mono {base base' n n' : Nat} (h : Apart base base' n) (hle : n' ≤ n) :
    Apart base base' n' := by
  unfold Apart at h ⊢
  omega

namespace Ram

def Live (r : Ram) (address : Nat) : Prop :=
  ∃ b ∈ r.blocks, b.base ≤ address ∧ address < b.base + b.length

instance (r : Ram) (address : Nat) : Decidable (r.Live address) := by
  unfold Live
  infer_instance

/-- The first address of a range that lies in no block. -/
def stray (r : Ram) (base n : Nat) : Option Nat :=
  ((List.range n).map (base + ·)).find? fun address => !decide (r.Live address)

def load (r : Ram) (address : Nat) : Except Fault UInt8 :=
  if r.Live address then .ok (r.bytes address) else .error (.outside address)

/-- The memory with one value in a range. -/
def filled (r : Ram) (base : Nat) (value : UInt8) (n : Nat) : Ram :=
  { r with bytes := fun a => if base ≤ a ∧ a < base + n then value else r.bytes a }

/-- The memory with the bytes of one range in another one. -/
def copied (r : Ram) (dst src n : Nat) : Ram :=
  { r with
    bytes := fun a => if dst ≤ a ∧ a < dst + n then r.bytes (src + (a - dst)) else r.bytes a }

def memset (r : Ram) (base : Nat) (value : UInt8) (n : Nat) : Except Fault Ram :=
  match r.stray base n with
  | some address => .error (.outside address)
  | none => .ok (r.filled base value n)

def memcpy (r : Ram) (dst src n : Nat) : Except Fault Ram :=
  -- Both ranges are checked before the overlap is.
  match r.stray dst n, r.stray src n with
  | some address, _ => .error (.outside address)
  | none, some address => .error (.outside address)
  | none, none => if Apart dst src n then .ok (r.copied dst src n) else .error .overlap

/-! ## Inside of a block -/

variable {r : Ram} {base n : Nat}

/-- The range lies in one block. -/
def Inside (r : Ram) (base n : Nat) : Prop :=
  ∃ b ∈ r.blocks, b.base ≤ base ∧ base + n ≤ b.base + b.length

theorem Inside.live (h : r.Inside base n) {i : Nat} (hi : i < n) : r.Live (base + i) := by
  obtain ⟨b, hb, hbase, hend⟩ := h
  exact ⟨b, hb, by omega, by omega⟩

theorem Inside.stray (h : r.Inside base n) : r.stray base n = none := by
  refine List.find?_eq_none.2 fun address haddress => ?_
  obtain ⟨i, hi, rfl⟩ := List.mem_map.1 haddress
  simp [h.live (List.mem_range.1 hi)]

theorem Inside.load (h : r.Inside base n) {i : Nat} (hi : i < n) :
    r.load (base + i) = .ok (r.bytes (base + i)) :=
  if_pos (h.live hi)

theorem Inside.memset (h : r.Inside base n) (value : UInt8) :
    r.memset base value n = .ok (r.filled base value n) := by
  unfold Ram.memset
  rw [h.stray]

theorem Inside.memcpy {dst src : Nat} (hdst : r.Inside dst n) (hsrc : r.Inside src n)
    (hapart : Apart dst src n) : r.memcpy dst src n = .ok (r.copied dst src n) := by
  unfold Ram.memcpy
  rw [hdst.stray, hsrc.stray]
  exact if_pos hapart

/-! ## Contents -/

theorem bytes_filled (value : UInt8) {i : Nat} (hi : i < n) :
    (r.filled base value n).bytes (base + i) = value :=
  if_pos ⟨Nat.le_add_right _ _, Nat.add_lt_add_left hi _⟩

theorem bytes_filled_apart {base' : Nat} (hapart : Apart base base' n) (value : UInt8) {i : Nat}
    (hi : i < n) : (r.filled base' value n).bytes (base + i) = r.bytes (base + i) := by
  -- No byte of the one range lies in the other.
  have hout : ¬ (base' ≤ base + i ∧ base + i < base' + n) := by
    unfold Apart at hapart
    omega
  exact if_neg hout

/-- Only the last value that a range was filled with is left. -/
theorem filled_filled (r : Ram) (base : Nat) (value value' : UInt8) (n : Nat) :
    (r.filled base value n).filled base value' n = r.filled base value' n := by
  unfold filled
  congr 1
  funext a
  dsimp only
  split <;> rfl

/-- The copy of a range that holds one value fills the other range with it. -/
theorem copied_eq_filled {dst src : Nat} {value : UInt8}
    (h : ∀ i < n, r.bytes (src + i) = value) : r.copied dst src n = r.filled dst value n := by
  unfold copied filled
  congr 1
  funext a
  by_cases hin : dst ≤ a ∧ a < dst + n
  · rw [if_pos hin, if_pos hin]
    exact h (a - dst) (by omega)
  · rw [if_neg hin, if_neg hin]

end Ram

end Lib
end LatencyAnalyzer

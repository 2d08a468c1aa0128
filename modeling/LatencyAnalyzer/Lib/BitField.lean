import Mathlib.Algebra.BigOperators.Group.List.Basic
import Mathlib.Algebra.Order.Ring.Nat
import Mathlib.Tactic.Ring

/-!
# BitField — words that are made up of fields

A word holds its fields side by side, the lowest first.  A shift and a mask take one of them out
again, whatever the others hold.
-/

namespace LatencyAnalyzer
namespace Lib

/-- Some bits of a word, and what they hold. -/
structure BitField where
  width : Nat
  value : Nat
  fits : value < 2 ^ width

namespace BitField

def flag (b : Bool) : BitField :=
  { width := 1, value := b.toNat, fits := Bool.toNat_lt b }

def totalWidth (fields : List BitField) : Nat :=
  (fields.map width).sum

/-- The word of some fields, the lowest first. -/
def pack : List BitField → Nat
  | [] => 0
  | field :: fields => field.value + 2 ^ field.width * pack fields

/-- Shifted to the right and masked. -/
def extract (word offset width : Nat) : Nat :=
  word / 2 ^ offset % 2 ^ width

/-- Some bits of another word. -/
def slice (word offset width : Nat) : BitField :=
  { width := width
    value := extract word offset width
    fits := Nat.mod_lt _ (Nat.two_pow_pos width) }

theorem pack_lt (fields : List BitField) : pack fields < 2 ^ totalWidth fields := by
  induction fields with
  | nil => exact Nat.one_pos
  | cons field fields ih =>
      have hfits := field.fits
      have hsplit : totalWidth (field :: fields) = field.width + totalWidth fields :=
        List.sum_cons
      calc
        field.value + 2 ^ field.width * pack fields
            < 2 ^ field.width * (pack fields + 1) := by
          rw [Nat.mul_succ]
          omega
        _ ≤ 2 ^ field.width * 2 ^ totalWidth fields := Nat.mul_le_mul_left _ ih
        _ = 2 ^ totalWidth (field :: fields) := by rw [hsplit, pow_add]

theorem pack_append (fields fields' : List BitField) :
    pack (fields ++ fields') = pack fields + 2 ^ totalWidth fields * pack fields' := by
  induction fields with
  | nil => simp [pack, totalWidth]
  | cons field fields ih =>
      have hsplit : totalWidth (field :: fields) = field.width + totalWidth fields :=
        List.sum_cons
      rw [List.cons_append, pack, ih, hsplit, pack]
      ring

/-- What lies below a field is shifted out, and what lies above is masked. -/
theorem extract_pack (below : List BitField) (field : BitField) (above : List BitField) :
    extract (pack (below ++ field :: above)) (totalWidth below) field.width = field.value := by
  unfold extract
  rw [pack_append, Nat.add_mul_div_left _ _ (Nat.two_pow_pos _), Nat.div_eq_of_lt (pack_lt below),
    Nat.zero_add, pack, Nat.add_mul_mod_self_left, Nat.mod_eq_of_lt field.fits]

/-! ## In a machine word -/

variable {w : Nat}

/-- A mask of ones takes the low bits. -/
theorem toNat_and_mask (r : BitVec w) {width : Nat} (h : width ≤ w) :
    (r &&& BitVec.ofNat w (2 ^ width - 1)).toNat = extract r.toNat 0 width := by
  have hle : 2 ^ width ≤ 2 ^ w := Nat.pow_le_pow_right (by decide) h
  have hmask : (BitVec.ofNat w (2 ^ width - 1)).toNat = 2 ^ width - 1 := by
    rw [BitVec.toNat_ofNat, Nat.mod_eq_of_lt]
    have hpos := Nat.two_pow_pos width
    omega
  unfold extract
  rw [BitVec.toNat_and, hmask, Nat.and_two_pow_sub_one_eq_mod, pow_zero, Nat.div_one]

theorem toNat_shift_and_mask (r : BitVec w) (offset : Nat) {width : Nat} (h : width ≤ w) :
    ((r >>> offset) &&& BitVec.ofNat w (2 ^ width - 1)).toNat =
      extract r.toNat offset width := by
  rw [toNat_and_mask _ h, BitVec.toNat_ushiftRight, Nat.shiftRight_eq_div_pow]
  unfold extract
  rw [pow_zero, Nat.div_one]

/-- A bit is tested by the mask that holds it alone. -/
theorem and_bit_ne_zero_iff (r : BitVec w) {bit : Nat} (h : bit < w) :
    (r &&& (1#w <<< bit)) ≠ 0 ↔ extract r.toNat bit 1 = 1 := by
  have hbit : (r &&& (1#w <<< bit)) ≠ 0 ↔ r.getLsbD bit = true := by
    constructor
    · intro hne
      by_contra hnot
      apply hne
      ext i hi
      by_cases heq : i = bit
      · subst heq
        simp [← BitVec.getLsbD_eq_getElem, hnot]
      · have hone : ¬ (bit ≤ i ∧ i - bit = 0) := by omega
        simp
        omega
    · intro htrue hzero
      have hfalse : r[bit] = false := by
        have hget := congrArg (·.getLsbD bit) hzero
        simpa [h] using hget
      rw [BitVec.getLsbD_eq_getElem h, hfalse] at htrue
      cases htrue
  rw [hbit, BitVec.getLsbD, Nat.testBit_eq_decide_div_mod_eq, decide_eq_true_iff]
  rfl

/-- The register with the given fields. -/
def register (w : Nat) (fields : List BitField) : BitVec w :=
  BitVec.ofNat w (pack fields)

theorem toNat_register {fields : List BitField} (h : totalWidth fields ≤ w) :
    (register w fields).toNat = pack fields := by
  unfold register
  rw [BitVec.toNat_ofNat, Nat.mod_eq_of_lt]
  exact (pack_lt fields).trans_le (Nat.pow_le_pow_right (by decide) h)

theorem width_le {below above : List BitField} {field : BitField}
    (h : totalWidth (below ++ field :: above) ≤ w) : field.width ≤ w := by
  refine Nat.le_trans ?_ h
  unfold totalWidth
  rw [List.map_append, List.sum_append, List.map_cons, List.sum_cons]
  omega

/-- The lowest field needs no shift. -/
theorem toNat_register_and_mask {field : BitField} {above : List BitField}
    (h : totalWidth (field :: above) ≤ w) :
    (register w (field :: above) &&& BitVec.ofNat w (2 ^ field.width - 1)).toNat =
      field.value := by
  have hwidth : field.width ≤ w := @width_le w [] above field h
  rw [toNat_and_mask _ hwidth, toNat_register h]
  exact extract_pack [] field above

theorem toNat_register_shift_and_mask {below above : List BitField} {field : BitField}
    (h : totalWidth (below ++ field :: above) ≤ w) :
    ((register w (below ++ field :: above) >>> totalWidth below) &&&
      BitVec.ofNat w (2 ^ field.width - 1)).toNat = field.value := by
  rw [toNat_shift_and_mask _ _ (width_le h), toNat_register h]
  exact extract_pack below field above

/-- A flag is tested in place. -/
theorem register_flag {below above : List BitField} {b : Bool}
    (h : totalWidth (below ++ flag b :: above) ≤ w) :
    ((register w (below ++ flag b :: above) &&& (1#w <<< totalWidth below)) != 0) = b := by
  have hbit : totalWidth below < w := by
    have hsplit : totalWidth (below ++ flag b :: above) =
        totalWidth below + (1 + totalWidth above) := by
      simp [totalWidth, flag]
    omega
  have hvalue : extract (register w (below ++ flag b :: above)).toNat (totalWidth below) 1 =
      b.toNat := by
    rw [toNat_register h]
    exact extract_pack below (flag b) above
  rw [Bool.eq_iff_iff, bne_iff_ne, and_bit_ne_zero_iff _ hbit, hvalue, Bool.toNat_eq_one]

end BitField

end Lib
end LatencyAnalyzer

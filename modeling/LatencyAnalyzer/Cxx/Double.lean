import Mathlib.Data.Int.Log
import Mathlib.Data.List.DropRight
import Mathlib.Data.Rat.Floor
import LatencyAnalyzer.Cxx.Text

/-!
# Double — how a stream prints a `double`

`operator<<` prints what `printf` prints: with the conversion `%.6g` under the flags a stream
starts with, and with `%.nf` under `std::fixed` and a precision of `n`.  A `double` is the number
that it stands for; infinities and NaN have none.
-/

namespace LatencyAnalyzer
namespace Cxx
namespace Double

/-- The nearest integer, and the even one of two. -/
def roundEven (v : ℚ) : Nat :=
  let lower := ⌊v⌋₊
  let rest := v - lower
  if rest < 1 / 2 ∨ (rest = 1 / 2 ∧ lower % 2 = 0) then lower else lower + 1

/-- The first digits of a positive number, and the exponent of the first one. -/
def significand (precision : Nat) (v : ℚ) : Nat × Int :=
  let exponent := Int.log 10 v
  let digits := roundEven (v * 10 ^ ((precision : Int) - 1 - exponent))
  -- Rounding 9.99… up makes one more digit.
  if digits = 10 ^ precision then (10 ^ (precision - 1), exponent + 1) else (digits, exponent)

/-- No point without a digit behind it. -/
def withPoint (whole fraction : Text) : Text :=
  if fraction = [] then whole else whole ++ '.' :: fraction

def stripZeros (fraction : Text) : Text :=
  fraction.rdropWhile (· == '0')

/-- At least two digits behind the sign. -/
def exponentText (exponent : Int) : Text :=
  let digits := Text.decimal exponent.natAbs
  'e' :: (if exponent < 0 then '-' else '+') ::
    (if digits.length < 2 then '0' :: digits else digits)

def generalAbs (precision : Nat) (v : ℚ) : Text :=
  if v = 0 then ['0']
  else
    let exponent := (significand precision v).2
    let digits := Text.decimal (significand precision v).1
    if exponent < -4 ∨ (precision : Int) ≤ exponent then
      withPoint (digits.take 1) (stripZeros (digits.drop 1)) ++ exponentText exponent
    else if exponent < 0 then
      withPoint ['0'] (stripZeros (List.replicate (exponent.natAbs - 1) '0' ++ digits))
    else
      withPoint (digits.take (exponent.natAbs + 1)) (stripZeros (digits.drop (exponent.natAbs + 1)))

def fixedAbs (precision : Nat) (v : ℚ) : Text :=
  let scaled := Text.decimal (roundEven (v * 10 ^ precision))
  -- At least one digit stands in front of the point.
  let digits := List.replicate (precision + 1 - scaled.length) '0' ++ scaled
  withPoint (digits.take (digits.length - precision)) (digits.drop (digits.length - precision))

def withSign (print : ℚ → Text) (v : ℚ) : Text :=
  if v < 0 then '-' :: print (-v) else print v

/-- `%.6g`. -/
def general (v : ℚ) : Text :=
  withSign (generalAbs 6) v

/-- `%.nf`. -/
def fixed (precision : Nat) (v : ℚ) : Text :=
  withSign (fixedAbs precision) v

/-! ## The characters of a number -/

/-- The characters that `%g` prints for a number. -/
def IsNumberChar (c : Char) : Prop :=
  c.isDigit = true ∨ c = '.' ∨ c = '-' ∨ c = '+' ∨ c = 'e'

def IsNumberText (text : Text) : Prop :=
  ∀ c ∈ text, IsNumberChar c

theorem isNumberText_decimal (n : Nat) : IsNumberText (Text.decimal n) := by
  intro c hc
  exact Or.inl (Text.isDigit_of_mem_decimal hc)

theorem isNumberText_zeros (n : Nat) : IsNumberText (List.replicate n '0') := by
  intro c hc
  rw [List.eq_of_mem_replicate hc]
  exact Or.inl (by decide)

variable {text whole fraction : Text}

theorem IsNumberText.append (hwhole : IsNumberText whole) (hfraction : IsNumberText fraction) :
    IsNumberText (whole ++ fraction) := by
  intro c hc
  rcases List.mem_append.1 hc with hmem | hmem
  · exact hwhole c hmem
  · exact hfraction c hmem

theorem IsNumberText.cons {c : Char} (hc : IsNumberChar c) (htext : IsNumberText text) :
    IsNumberText (c :: text) := by
  intro x hx
  rcases List.mem_cons.1 hx with rfl | hmem
  · exact hc
  · exact htext x hmem

/-- Part of the digits. -/
theorem IsNumberText.sublist (htext : IsNumberText text) {part : Text}
    (h : List.Sublist part text) : IsNumberText part :=
  fun c hc => htext c (h.subset hc)

theorem IsNumberText.stripZeros (htext : IsNumberText text) : IsNumberText (stripZeros text) :=
  htext.sublist (List.rdropWhile_prefix _ _).sublist

theorem IsNumberText.withPoint (hwhole : IsNumberText whole) (hfraction : IsNumberText fraction) :
    IsNumberText (withPoint whole fraction) := by
  unfold Double.withPoint
  split
  · exact hwhole
  · exact hwhole.append (hfraction.cons (Or.inr (Or.inl rfl)))

theorem isNumberText_exponentText (exponent : Int) : IsNumberText (exponentText exponent) := by
  have hdigits := isNumberText_decimal exponent.natAbs
  have hzero : IsNumberChar '0' := Or.inl (by decide)
  have hsign : IsNumberChar (if exponent < 0 then '-' else '+') := by
    split
    · exact Or.inr (Or.inr (Or.inl rfl))
    · exact Or.inr (Or.inr (Or.inr (Or.inl rfl)))
  have he : IsNumberChar 'e' := Or.inr (Or.inr (Or.inr (Or.inr rfl)))
  apply IsNumberText.cons he
  apply IsNumberText.cons hsign
  split
  · exact hdigits.cons hzero
  · exact hdigits

theorem isNumberText_generalAbs (precision : Nat) (v : ℚ) :
    IsNumberText (generalAbs precision v) := by
  have hzero : IsNumberText ['0'] := isNumberText_zeros 1
  unfold generalAbs
  split
  · exact hzero
  · generalize (significand precision v).2 = exponent
    have hdigits := isNumberText_decimal (significand precision v).1
    have htake : ∀ n, IsNumberText ((Text.decimal (significand precision v).1).take n) :=
      fun n => hdigits.sublist (List.take_sublist n _)
    have hdrop : ∀ n, IsNumberText ((Text.decimal (significand precision v).1).drop n) :=
      fun n => hdigits.sublist (List.drop_sublist n _)
    dsimp only
    split
    · exact ((htake 1).withPoint (hdrop 1).stripZeros).append (isNumberText_exponentText exponent)
    · split
      · exact hzero.withPoint ((isNumberText_zeros _).append hdigits).stripZeros
      · exact (htake _).withPoint (hdrop _).stripZeros

theorem isNumberText_general (v : ℚ) : IsNumberText (general v) := by
  unfold general withSign
  split
  · exact (isNumberText_generalAbs 6 (-v)).cons (Or.inr (Or.inr (Or.inl rfl)))
  · exact isNumberText_generalAbs 6 v

example : general 12345678 = "1.23457e+07".toList := by decide +kernel

example : general (1 / 80) = "0.0125".toList := by decide +kernel

end Double

end Cxx
end LatencyAnalyzer

import LatencyAnalyzer.Cxx.Text

/-!
# Extract — `operator>>` of a stream for an `int`

White space is skipped first.  Since C++11 a conversion that fails leaves a value behind as well:
zero where there is no number, and the nearest `int` where the number is out of range.  Only where
nothing is left to convert is the variable as it was.
-/

namespace LatencyAnalyzer
namespace Cxx

/-- What can be opened for reading, and what is read there. -/
abbrev Files : Type := Text → Option Text

namespace Text

/-! ## One extraction -/

/-- What `stream >> value` does to the variable and to the stream. -/
inductive Extraction
  /-- The stream was at its end.  The variable is not touched. -/
  | exhausted
  /-- The stream has failed, and this was stored. -/
  | failed (stored : Int)
  | ok (value : Int) (rest : Text)
  deriving DecidableEq, Repr

/-- `stream >> value` for an `int` in front of this text. -/
def extractInt (text : Text) : Extraction :=
  match text.dropWhile isSpace with
  | [] => .exhausted
  | c :: front =>
      let (negative, body) := takeSign (c :: front)
      let digits := body.takeWhile Char.isDigit
      let value := signed negative (decimalValue digits)
      if digits = [] then .failed 0
      else if value < intMin then .failed intMin
      else if intMax < value then .failed intMax
      else .ok value (body.dropWhile Char.isDigit)

/-- There is nothing but white space. -/
def IsBlank (text : Text) : Prop :=
  ∀ c ∈ text, isSpace c = true

instance (text : Text) : Decidable text.IsBlank :=
  List.decidableBAll _ text

theorem dropWhile_isSpace_eq_nil_iff {text : Text} :
    text.dropWhile isSpace = [] ↔ text.IsBlank :=
  List.dropWhile_eq_nil_iff

theorem strtol_of_isBlank {text : Text} (h : text.IsBlank) : text.strtol = none := by
  unfold strtol
  rw [dropWhile_isSpace_eq_nil_iff.2 h]
  rfl

/-- What is extracted is what `strtol` reads, if an `int` holds it. -/
theorem extractInt_cases (text : Text) :
    (text.IsBlank ∧ text.extractInt = .exhausted) ∨
    (¬ text.IsBlank ∧ text.strtol = none ∧ text.extractInt = .failed 0) ∨
    (∃ n, ¬ text.IsBlank ∧ text.strtol = some n ∧ n < intMin ∧
      text.extractInt = .failed intMin) ∨
    (∃ n, ¬ text.IsBlank ∧ text.strtol = some n ∧ intMax < n ∧
      text.extractInt = .failed intMax) ∨
    (∃ n rest, ¬ text.IsBlank ∧ text.strtol = some n ∧ InInt n ∧
      text.extractInt = .ok n rest) := by
  unfold extractInt strtol
  rw [← dropWhile_isSpace_eq_nil_iff]
  cases hskip : text.dropWhile isSpace with
  | nil => exact Or.inl ⟨rfl, rfl⟩
  | cons c front =>
      have hne : ¬ c :: front = [] := List.cons_ne_nil c front
      refine Or.inr ?_
      by_cases hdigits : (takeSign (c :: front)).2.takeWhile Char.isDigit = []
      · exact Or.inl ⟨hne, by simp [hdigits], by simp [hdigits]⟩
      · generalize hvalue : signed (takeSign (c :: front)).1
          (decimalValue ((takeSign (c :: front)).2.takeWhile Char.isDigit)) = n
        refine Or.inr ?_
        by_cases hlow : n < intMin
        · exact Or.inl ⟨n, hne, by simp [hdigits, hvalue], hlow, by simp [hdigits, hvalue, hlow]⟩
        refine Or.inr ?_
        by_cases hhigh : intMax < n
        · exact Or.inl ⟨n, hne, by simp [hdigits, hvalue], hhigh,
            by simp [hdigits, hvalue, hlow, hhigh]⟩
        · exact Or.inr ⟨n, (takeSign (c :: front)).2.dropWhile Char.isDigit, hne,
            by simp [hdigits, hvalue], ⟨not_lt.1 hlow, not_lt.1 hhigh⟩,
            by simp [hdigits, hvalue, hlow, hhigh]⟩

theorem length_takeSign_le (text : Text) : (takeSign text).2.length ≤ text.length := by
  unfold takeSign
  split <;> simp

/-- An `int` that is read has one digit at least. -/
theorem length_lt_of_extractInt {text rest : Text} {value : Int}
    (h : extractInt text = .ok value rest) : rest.length < text.length := by
  unfold extractInt at h
  split at h
  · cases h
  · rename_i c front hskip
    have hskipped : (c :: front).length ≤ text.length := by
      rw [← hskip]
      exact (List.dropWhile_sublist isSpace).length_le
    have hsign := length_takeSign_le (c :: front)
    dsimp only at h
    split at h
    · cases h
    rename_i hdigits
    split at h
    · cases h
    split at h
    · cases h
    injection h with _ hrest
    have hsplit := congrArg List.length
      (List.takeWhile_append_dropWhile (p := Char.isDigit) (l := (takeSign (c :: front)).2))
    have hpos := List.length_pos_iff.2 hdigits
    rw [List.length_append, hrest] at hsplit
    omega

/-- The values of `while (stream >> value)`. -/
def extractAll (text : Text) : List Int :=
  match _h : extractInt text with
  | .ok value rest => value :: extractAll rest
  | _ => []
termination_by text.length
decreasing_by exact length_lt_of_extractInt _h

theorem extractAll_of_ok {text rest : Text} {value : Int} (h : extractInt text = .ok value rest) :
    extractAll text = value :: extractAll rest := by
  rw [extractAll]
  split
  · rename_i value' rest' heq
    rw [h] at heq
    cases heq
    rfl
  · rename_i hnot
    exact absurd h (hnot value rest)

theorem extractAll_of_exhausted {text : Text} (h : extractInt text = .exhausted) :
    extractAll text = [] := by
  rw [extractAll]
  split
  · rename_i value rest heq
    rw [h] at heq
    cases heq
  · rfl

/-! ## Printed numbers -/

/-- White space in front is skipped. -/
theorem extractInt_space {c : Char} (h : isSpace c = true) (text : Text) :
    extractInt (c :: text) = extractInt text := by
  simp only [extractInt, List.dropWhile_cons_of_pos h]

theorem extractAll_space {c : Char} (h : isSpace c = true) (text : Text) :
    extractAll (c :: text) = extractAll text := by
  rw [extractAll, extractAll, extractInt_space h]

/-- No digit stands in front of the text. -/
def NoDigit (text : Text) : Prop :=
  ∀ c rest, text = c :: rest → c.isDigit = false

theorem takeWhile_decimal_append (n : Nat) {rest : Text} (h : NoDigit rest) :
    (decimal n ++ rest).takeWhile Char.isDigit = decimal n ∧
      (decimal n ++ rest).dropWhile Char.isDigit = rest := by
  have hall : ∀ c ∈ decimal n, c.isDigit = true := fun _ hc => isDigit_of_mem_decimal hc
  rw [List.takeWhile_append_of_pos hall, List.dropWhile_append_of_pos hall]
  cases rest with
  | nil => simp
  | cons c rest =>
      have hc := h c rest rfl
      rw [List.takeWhile_cons_of_neg (by simp [hc]), List.dropWhile_cons_of_neg (by simp [hc])]
      simp

theorem extractInt_of_decimal (negative : Bool) (n : Nat) {text rest : Text}
    (hskip : text.dropWhile isSpace = text) (hsign : takeSign text = (negative, decimal n ++ rest))
    (hint : InInt (signed negative n)) (hrest : NoDigit rest) :
    extractInt text = .ok (signed negative n) rest := by
  cases htext : text with
  | nil =>
      rw [htext] at hsign
      injection hsign with _ hnil
      exact absurd (List.append_eq_nil_iff.1 hnil.symm).1 (decimal_ne_nil n)
  | cons c front =>
      have hdigits := takeWhile_decimal_append n hrest
      have hlow : ¬ signed negative n < intMin := not_lt.2 hint.1
      have hhigh : ¬ intMax < signed negative n := not_lt.2 hint.2
      rw [← htext]
      unfold extractInt
      rw [hskip, htext]
      dsimp only
      rw [← htext, hsign]
      simp only [hdigits, decimalValue_decimal, decimal_ne_nil, if_false, hlow, hhigh]

/-- A printed `int` is read back, whatever stands behind it. -/
theorem extractInt_integer {v : Int} (hv : InInt v) {rest : Text} (hrest : NoDigit rest) :
    extractInt (integer v ++ rest) = .ok v rest := by
  unfold integer
  split
  · rename_i hneg
    have hvalue : signed true v.natAbs = v := by
      unfold signed
      rw [if_pos rfl]
      omega
    have hsign : takeSign ('-' :: (decimal v.natAbs ++ rest)) = (true, decimal v.natAbs ++ rest) :=
      rfl
    have hread := extractInt_of_decimal true v.natAbs rfl hsign (by rwa [hvalue]) hrest
    rwa [hvalue] at hread
  · rename_i hnonneg
    have hvalue : signed false v.natAbs = v := by
      unfold signed
      rw [if_neg (by simp)]
      omega
    cases hd : decimal v.natAbs with
    | nil => exact absurd hd (decimal_ne_nil _)
    | cons c digits =>
        have hc : c.isDigit = true := isDigit_of_mem_decimal (n := v.natAbs) (by simp [hd])
        have hsign : takeSign (decimal v.natAbs ++ rest) = (false, decimal v.natAbs ++ rest) := by
          rw [hd, List.cons_append, takeSign_of_isDigit hc]
        have hread := extractInt_of_decimal false v.natAbs
          (by simp [hd, not_isSpace_of_isDigit hc]) hsign (by rwa [hvalue]) hrest
        rwa [hvalue, hd] at hread

end Text

end Cxx
end LatencyAnalyzer

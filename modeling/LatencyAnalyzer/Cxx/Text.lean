import Mathlib.Data.List.TakeWhile
import LatencyAnalyzer.Cxx.Machine

/-!
# Text — `std::string` and its conversions to `int`

A string is the list of its bytes, one `Char` for each.  The searches and conversions of the
standard library follow their specification in the "C" locale, which the program never leaves.
-/

namespace LatencyAnalyzer
namespace Cxx

abbrev Text : Type := List Char

namespace Text

/-! ## Searching -/

/-- `text.find(c, pos)`, with `none` for `npos`. -/
def find (text : Text) (c : Char) (pos : Nat) : Option Nat :=
  ((text.drop pos).findIdx? (· == c)).map (pos + ·)

/-- `text.substr(pos, count)`. -/
def substr (text : Text) (pos count : Nat) : Text :=
  (text.drop pos).take count

/-- `text.substr(pos)`. -/
def substrFrom (text : Text) (pos : Nat) : Text :=
  text.drop pos

theorem find_ge {text : Text} {c : Char} {pos k : Nat} (h : text.find c pos = some k) :
    pos ≤ k := by
  unfold find at h
  rcases Option.map_eq_some_iff.1 h with ⟨i, _, rfl⟩
  exact Nat.le_add_right pos i

theorem findIdx_absent {c : Char} {item : Text} (h : c ∉ item) :
    item.findIdx? (· == c) = none := by
  rw [List.findIdx?_eq_none_iff]
  intro x hx
  have hne : x ≠ c := ne_of_mem_of_not_mem hx h
  simpa using hne

/-- A search that stops at the first separator of the remaining text. -/
theorem find_of_drop {text item rest : Text} {c : Char} {pos : Nat}
    (htext : text.drop pos = item ++ c :: rest) (hitem : c ∉ item) :
    text.find c pos = some (pos + item.length) := by
  simp [find, htext, List.findIdx?_append, findIdx_absent hitem, List.findIdx?_cons]

theorem find_of_absent {text item : Text} {c : Char} {pos : Nat}
    (htext : text.drop pos = item) (hitem : c ∉ item) : text.find c pos = none := by
  simp [find, htext, findIdx_absent hitem]

/-! ## Digits -/

/-- The value of a string of decimal digits. -/
def decimalValue (digits : Text) : Nat :=
  digits.foldl (fun value c => 10 * value + (c.toNat - '0'.toNat)) 0

/-- The decimal digits of a number. -/
def decimal (n : Nat) : Text :=
  Nat.toDigits 10 n

/-- A number as `operator<<` prints it. -/
def integer (v : Int) : Text :=
  if v < 0 then '-' :: decimal v.natAbs else decimal v.natAbs

@[simp] theorem decimalValue_decimal (n : Nat) : decimalValue (decimal n) = n := by
  unfold decimalValue decimal
  rw [← Nat.ofDigitChars_eq_foldl]
  exact Nat.ofDigitChars_toDigits (by omega) (by omega)

theorem isDigit_of_mem_decimal {n : Nat} {c : Char} (h : c ∈ decimal n) : c.isDigit = true :=
  Nat.isDigit_of_mem_toDigits (by omega) (by omega) h

theorem decimal_ne_nil (n : Nat) : decimal n ≠ [] :=
  Nat.toDigits_ne_nil

def signed (negative : Bool) (n : Nat) : Int :=
  if negative then -(n : Int) else n

/-! ## `std::stoi` -/

def isSpace (c : Char) : Bool :=
  c == ' ' || (9 ≤ c.toNat && c.toNat ≤ 13)

/-- The optional sign before the digits of `strtol`. -/
def takeSign : Text → Bool × Text
  | '-' :: rest => (true, rest)
  | '+' :: rest => (false, rest)
  | text => (false, text)

/-- What `strtol(text, …, 10)` reads, with `none` when no conversion is done. -/
def strtol (text : Text) : Option Int :=
  let (negative, body) := takeSign (text.dropWhile isSpace)
  -- Reading stops at the first character that is no digit.
  let digits := body.takeWhile Char.isDigit
  if digits = [] then none else some (signed negative (decimalValue digits))

/-- `std::stoi`, with `none` for an exception. -/
def stoi (text : Text) : Option Int :=
  match strtol text with
  | none => none
  | some value => if InInt value then some value else none

/-! ## `std::from_chars` -/

inductive FromChars
  | invalidArgument
  | outOfRange (rest : Text)
  | ok (value : Int) (rest : Text)
  deriving DecidableEq, Repr

/-- The optional minus sign before the digits of `std::from_chars`. -/
def takeMinus : Text → Bool × Text
  | '-' :: rest => (true, rest)
  | text => (false, text)

/-- `std::from_chars` for an `int`: no white space and no plus sign. -/
def fromChars (text : Text) : FromChars :=
  let (negative, body) := takeMinus text
  let digits := body.takeWhile Char.isDigit
  let rest := body.dropWhile Char.isDigit
  let value := signed negative (decimalValue digits)
  if digits = [] then .invalidArgument
  else if InInt value then .ok value rest
  else .outOfRange rest

/-! ## Reading numbers that were printed -/

theorem not_isSpace_of_isDigit {c : Char} (h : c.isDigit = true) : isSpace c = false := by
  simp only [Char.isDigit, Bool.and_eq_true, decide_eq_true_eq] at h
  rcases h with ⟨hlo, _⟩
  have hlo' : 48 ≤ c.toNat := hlo
  have hspace : c ≠ ' ' := by
    rintro rfl
    exact absurd hlo' (by decide)
  simp [isSpace, hspace]
  omega

theorem takeWhile_isDigit_decimal (n : Nat) :
    (decimal n).takeWhile Char.isDigit = decimal n := by
  rw [List.takeWhile_eq_self_iff]
  intro c hc
  exact isDigit_of_mem_decimal hc

theorem takeSign_of_isDigit {c : Char} {rest : Text} (h : c.isDigit = true) :
    takeSign (c :: rest) = (false, c :: rest) := by
  unfold takeSign
  split
  · rename_i heq
    cases heq
    exact absurd h (by decide)
  · rename_i heq
    cases heq
    exact absurd h (by decide)
  · rfl

theorem stoi_decimal {n : Nat} (h : (n : Int) ≤ intMax) : stoi (decimal n) = some (n : Int) := by
  have hread : strtol (decimal n) = some (n : Int) := by
    have hdigits := takeWhile_isDigit_decimal n
    cases hd : decimal n with
    | nil => exact absurd hd (decimal_ne_nil n)
    | cons c rest =>
        have hc : c.isDigit = true := isDigit_of_mem_decimal (n := n) (by simp [hd])
        have hskip : (c :: rest).dropWhile isSpace = c :: rest := by
          simp [not_isSpace_of_isDigit hc]
        rw [hd] at hdigits
        have hvalue : decimalValue (c :: rest) = n := by
          rw [← hd]
          exact decimalValue_decimal n
        -- No white space and no sign: the digits are all there is to read.
        simp only [strtol, hskip, takeSign_of_isDigit hc, hdigits, hvalue]
        simp [signed]
  have hint : InInt (n : Int) := ⟨by rw [intMin_eq]; omega, h⟩
  simp [stoi, hread, hint]

/-! ## What `std::stoi` reads -/

/-- The text begins with a number: white space, a sign or none, and digits, whose value fits into an
`int`.  What follows the digits does not matter. -/
def IntFront (text : Text) (value : Int) : Prop :=
  ∃ spaces sign digits rest : Text, text = spaces ++ (sign ++ (digits ++ rest)) ∧
    (∀ c ∈ spaces, isSpace c = true) ∧ digits ≠ [] ∧ (∀ c ∈ digits, c.isDigit = true) ∧
    (∀ c ∈ rest.head?, c.isDigit = false) ∧ InInt value ∧
    ((sign = [] ∨ sign = ['+']) ∧ value = decimalValue digits ∨
      sign = ['-'] ∧ value = -(decimalValue digits : Int))

theorem takeSign_cases (text : Text) :
    (∃ rest, text = '-' :: rest ∧ takeSign text = (true, rest)) ∨
      ∃ sign rest, (sign = [] ∨ sign = ['+']) ∧ text = sign ++ rest ∧
        takeSign text = (false, rest) := by
  unfold takeSign
  split
  · exact Or.inl ⟨_, rfl, rfl⟩
  · exact Or.inr ⟨['+'], _, Or.inr rfl, rfl, rfl⟩
  · exact Or.inr ⟨[], _, Or.inl rfl, rfl, rfl⟩

theorem intFront_of_stoi {text : Text} {value : Int} (h : stoi text = some value) :
    IntFront text value := by
  unfold stoi strtol at h
  dsimp only at h
  generalize hbody : takeSign (text.dropWhile isSpace) = taken at h
  rcases taken with ⟨negative, body⟩
  by_cases hnone : body.takeWhile Char.isDigit = []
  · rw [if_pos hnone] at h
    cases h
  rw [if_neg hnone] at h
  by_cases hint : InInt (signed negative (decimalValue (body.takeWhile Char.isDigit)))
  · simp only [hint, if_true, Option.some.injEq] at h
    subst h
    have hspaces : text = text.takeWhile isSpace ++ text.dropWhile isSpace :=
      List.takeWhile_append_dropWhile.symm
    have hdigits : body = body.takeWhile Char.isDigit ++ body.dropWhile Char.isDigit :=
      List.takeWhile_append_dropWhile.symm
    have hrest : ∀ c ∈ (body.dropWhile Char.isDigit).head?, c.isDigit = false := by
      intro c hc
      have hhead := List.head?_dropWhile_not Char.isDigit body
      rw [Option.mem_def.1 hc] at hhead
      exact hhead
    have hfront : ∀ c ∈ text.takeWhile isSpace, isSpace c = true :=
      fun c hc => List.mem_takeWhile_imp hc
    have hall : ∀ c ∈ body.takeWhile Char.isDigit, c.isDigit = true :=
      fun c hc => List.mem_takeWhile_imp hc
    rcases takeSign_cases (text.dropWhile isSpace) with
      ⟨rest, htext, htake⟩ | ⟨sign, rest, hsign, htext, htake⟩
    · cases hbody.symm.trans htake
      refine ⟨_, ['-'], _, _, ?_, hfront, hnone, hall, hrest, hint, Or.inr ⟨rfl, rfl⟩⟩
      rw [← hdigits, List.singleton_append, ← htext]
      exact hspaces
    · cases hbody.symm.trans htake
      refine ⟨_, sign, _, _, ?_, hfront, hnone, hall, hrest, hint, Or.inl ⟨hsign, rfl⟩⟩
      rw [← hdigits, ← htext]
      exact hspaces
  · simp only [hint, if_false] at h
    cases h

theorem strtol_of_front {spaces digits rest : Text} (sign : Text) (negative : Bool)
    (hspaces : ∀ c ∈ spaces, isSpace c = true)
    (hstart : ∀ c ∈ (sign ++ (digits ++ rest)).head?, isSpace c = false)
    (hsign : takeSign (sign ++ (digits ++ rest)) = (negative, digits ++ rest))
    (hnone : digits ≠ []) (hdigits : ∀ c ∈ digits, c.isDigit = true)
    (hrest : ∀ c ∈ rest.head?, c.isDigit = false) :
    strtol (spaces ++ (sign ++ (digits ++ rest))) =
      some (signed negative (decimalValue digits)) := by
  have hskip : (spaces ++ (sign ++ (digits ++ rest))).dropWhile isSpace =
      sign ++ (digits ++ rest) := by
    rw [List.dropWhile_append_of_pos hspaces]
    cases hbody : sign ++ (digits ++ rest) with
    | nil => rfl
    | cons c others =>
        have hc := hstart c (by rw [hbody]; rfl)
        rw [List.dropWhile_cons_of_neg (by rw [hc]; decide)]
  have hread : (digits ++ rest).takeWhile Char.isDigit = digits := by
    rw [List.takeWhile_append_of_pos hdigits]
    cases rest with
    | nil => exact List.append_nil digits
    | cons c others =>
        have hc := hrest c rfl
        rw [List.takeWhile_cons_of_neg (by rw [hc]; decide), List.append_nil]
  unfold strtol
  rw [hskip, hsign]
  dsimp only
  rw [hread, if_neg hnone]

theorem stoi_of_intFront {text : Text} {value : Int} (h : IntFront text value) :
    stoi text = some value := by
  obtain ⟨spaces, sign, digits, rest, rfl, hspaces, hnone, hdigits, hrest, hint, hvalue⟩ := h
  obtain ⟨digit, others, rfl⟩ := List.exists_cons_of_ne_nil hnone
  have hdigit : digit.isDigit = true := hdigits digit List.mem_cons_self
  have hread : strtol (spaces ++ (sign ++ (digit :: others ++ rest))) = some value := by
    rcases hvalue with ⟨rfl | rfl, rfl⟩ | ⟨rfl, rfl⟩
    · refine strtol_of_front [] false hspaces ?_ (takeSign_of_isDigit hdigit) hnone hdigits hrest
      rintro c ⟨⟩
      exact not_isSpace_of_isDigit hdigit
    · refine strtol_of_front ['+'] false hspaces ?_ rfl hnone hdigits hrest
      rintro c ⟨⟩
      decide
    · refine strtol_of_front ['-'] true hspaces ?_ rfl hnone hdigits hrest
      rintro c ⟨⟩
      decide
  unfold stoi
  rw [hread]
  exact if_pos hint

theorem stoi_eq_some_iff {text : Text} {value : Int} :
    stoi text = some value ↔ IntFront text value :=
  ⟨intFront_of_stoi, stoi_of_intFront⟩

/-! ## What `std::from_chars` reads to the end -/

/-- The text is a decimal number, with a minus sign or none, and fits into an `int`. -/
def IntText (text : Text) (value : Int) : Prop :=
  ∃ digits : Text, digits ≠ [] ∧ (∀ c ∈ digits, c.isDigit = true) ∧ InInt value ∧
    ((text = digits ∧ value = decimalValue digits) ∨
      (text = '-' :: digits ∧ value = -(decimalValue digits : Int)))

theorem takeMinus_cases (text : Text) :
    (∃ rest, text = '-' :: rest ∧ takeMinus text = (true, rest)) ∨
      takeMinus text = (false, text) := by
  unfold takeMinus
  split
  · exact Or.inl ⟨_, rfl, rfl⟩
  · exact Or.inr rfl

theorem takeMinus_of_digits {digits : Text} (h : ∀ c ∈ digits, c.isDigit = true) :
    takeMinus digits = (false, digits) := by
  rcases takeMinus_cases digits with ⟨rest, rfl, _⟩ | hnone
  · exact absurd (h '-' (by simp)) (by decide)
  · exact hnone

theorem fromChars_of_digits {text body : Text} {negative : Bool}
    (htake : takeMinus text = (negative, body)) (hne : body ≠ [])
    (hdigits : ∀ c ∈ body, c.isDigit = true) (hint : InInt (signed negative (decimalValue body))) :
    fromChars text = .ok (signed negative (decimalValue body)) [] := by
  have htakeWhile : body.takeWhile Char.isDigit = body := List.takeWhile_eq_self_iff.2 hdigits
  have hdropWhile : body.dropWhile Char.isDigit = [] := List.dropWhile_eq_nil_iff.2 hdigits
  simp [fromChars, htake, htakeWhile, hdropWhile, hne, hint]

theorem intText_of_fromChars {text : Text} {value : Int} (h : fromChars text = .ok value []) :
    IntText text value := by
  unfold fromChars at h
  dsimp only at h
  split at h
  · cases h
  rename_i hne
  split at h
  · rename_i hint
    injection h with hvalue hrest
    have hall := List.dropWhile_eq_nil_iff.1 hrest
    -- Nothing is left behind the digits, so they are all of the text behind the sign.
    have hbody : (takeMinus text).2.takeWhile Char.isDigit = (takeMinus text).2 :=
      List.takeWhile_eq_self_iff.2 hall
    rw [hbody] at hne hint hvalue
    rw [hvalue] at hint
    refine ⟨(takeMinus text).2, hne, hall, hint, ?_⟩
    rcases takeMinus_cases text with ⟨rest, htext, htake⟩ | htake
    · rw [htake] at hvalue ⊢
      exact Or.inr ⟨htext, hvalue.symm⟩
    · rw [htake] at hvalue ⊢
      exact Or.inl ⟨rfl, hvalue.symm⟩
  · cases h

theorem fromChars_eq_ok_nil_iff {text : Text} {value : Int} :
    fromChars text = .ok value [] ↔ IntText text value := by
  constructor
  · exact intText_of_fromChars
  · rintro ⟨digits, hne, hdigits, hint, ⟨rfl, rfl⟩ | ⟨rfl, rfl⟩⟩
    · exact fromChars_of_digits (takeMinus_of_digits hdigits) hne hdigits hint
    · have htake : takeMinus ('-' :: digits) = (true, digits) := rfl
      exact fromChars_of_digits htake hne hdigits hint

end Text

end Cxx
end LatencyAnalyzer

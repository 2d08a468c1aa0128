import Mathlib.Data.List.Basic

/-!
# JsonReader — JSON texts as RFC 8259 describes them

The reader takes one character after the other.  Around the value that it is in stand the arrays
and objects that are still open, the innermost first.  It accepts the grammar and nothing else.
-/

namespace LatencyAnalyzer
namespace Lib

/-- A value of a JSON text.  A number is kept as it is written. -/
inductive Json
  | null
  | bool (b : Bool)
  | number (text : List Char)
  | string (text : List Char)
  | array (elements : List Json)
  | object (members : List (List Char × Json))

namespace Json

/-- The white space between tokens. -/
def IsWhite (c : Char) : Prop :=
  c = ' ' ∨ c = '\t' ∨ c = '\n' ∨ c = '\r'

instance (c : Char) : Decidable (IsWhite c) :=
  inferInstanceAs (Decidable (_ ∨ _))

/-- The text is white space. -/
def IsBlank (text : List Char) : Prop :=
  ∀ c ∈ text, IsWhite c

instance (text : List Char) : Decidable (IsBlank text) :=
  List.decidableBAll _ text

/-- A character that stands for itself within quotes. -/
def IsUnescaped (c : Char) : Prop :=
  32 ≤ c.toNat ∧ c ≠ '"' ∧ c ≠ '\\'

instance (c : Char) : Decidable (IsUnescaped c) :=
  inferInstanceAs (Decidable (_ ∧ _))

/-- A text that stands for itself within quotes. -/
def IsBare (text : List Char) : Prop :=
  ∀ c ∈ text, IsUnescaped c

instance (text : List Char) : Decidable (IsBare text) :=
  List.decidableBAll _ text

/-! ## Strings -/

/-- A piece of a string: a character, or four hexadecimal digits, which are half of a character
where they are a surrogate. -/
inductive Piece
  | char (c : Char)
  | unit (n : Nat)

def IsHighSurrogate (n : Nat) : Prop :=
  0xD800 ≤ n ∧ n < 0xDC00

instance (n : Nat) : Decidable (IsHighSurrogate n) :=
  inferInstanceAs (Decidable (_ ∧ _))

def IsLowSurrogate (n : Nat) : Prop :=
  0xDC00 ≤ n ∧ n < 0xE000

instance (n : Nat) : Decidable (IsLowSurrogate n) :=
  inferInstanceAs (Decidable (_ ∧ _))

/-- A unit that stands alone. -/
def unitChar (n : Nat) : Char :=
  -- The grammar admits a lone surrogate; it reads as the replacement character.
  if IsHighSurrogate n ∨ IsLowSurrogate n then Char.ofNat 0xFFFD else Char.ofNat n

def decode : List Piece → List Char
  | [] => []
  | .char c :: rest => c :: decode rest
  | .unit high :: .unit low :: rest =>
      if IsHighSurrogate high ∧ IsLowSurrogate low then
        Char.ofNat (0x10000 + (high - 0xD800) * 0x400 + (low - 0xDC00)) :: decode rest
      else unitChar high :: decode (.unit low :: rest)
  | .unit n :: rest => unitChar n :: decode rest

@[simp] theorem decode_map_char (text : List Char) : decode (text.map Piece.char) = text := by
  induction text with
  | nil => rfl
  | cons c text ih => rw [List.map_cons, decode, ih]

/-- What a backslash and this character stand for. -/
def escapedChar (c : Char) : Option Char :=
  match c with
  | '"' => some '"'
  | '\\' => some '\\'
  | '/' => some '/'
  | 'b' => some '\x08'
  | 'f' => some '\x0c'
  | 'n' => some '\n'
  | 'r' => some '\r'
  | 't' => some '\t'
  | _ => none

def hexDigit (c : Char) : Option Nat :=
  if c.isDigit then some (c.toNat - '0'.toNat)
  else if 'a' ≤ c ∧ c ≤ 'f' then some (c.toNat - 'a'.toNat + 10)
  else if 'A' ≤ c ∧ c ≤ 'F' then some (c.toNat - 'A'.toNat + 10)
  else none

inductive StringMode
  | plain
  /-- Behind a backslash. -/
  | escape
  /-- Behind `\u` and as many hexadecimal digits, with their value. -/
  | unit (digits value : Nat)
  deriving DecidableEq, Repr

/-- A string behind its opening quote. -/
structure StringReader where
  pieces : List Piece
  mode : StringMode

namespace StringReader

def start : StringReader :=
  { pieces := [], mode := .plain }

def push (s : StringReader) (piece : Piece) : StringReader :=
  { pieces := s.pieces ++ [piece], mode := .plain }

/-- A character that is not the closing quote. -/
def read (s : StringReader) (c : Char) : Option StringReader :=
  match s.mode with
  | .plain =>
      if c = '\\' then some { s with mode := .escape }
      else if IsUnescaped c then some (s.push (.char c))
      else none
  | .escape =>
      if c = 'u' then some { s with mode := .unit 0 0 }
      else (escapedChar c).map fun c => s.push (.char c)
  | .unit digits value =>
      (hexDigit c).map fun digit =>
        let value := 16 * value + digit
        if digits = 3 then s.push (.unit value) else { s with mode := .unit (digits + 1) value }

/-- The string ends at a quote that is not behind a backslash. -/
def Ends (s : StringReader) (c : Char) : Prop :=
  s.mode = .plain ∧ c = '"'

instance (s : StringReader) (c : Char) : Decidable (s.Ends c) :=
  inferInstanceAs (Decidable (_ ∧ _))

end StringReader

/-! ## Numbers -/

/-- The part of a number that its last character belongs to. -/
inductive NumberPart
  | minus
  /-- A zero in front: no digit may follow it. -/
  | zero
  | whole
  | point
  | fraction
  | exponent
  | exponentSign
  | exponentDigits
  deriving DecidableEq, Repr

namespace NumberPart

/-- The part that the next character belongs to, with `none` behind the number. -/
def next (part : NumberPart) (c : Char) : Option NumberPart :=
  match part with
  | .minus => if c = '0' then some .zero else if c.isDigit then some .whole else none
  | .zero =>
      if c = '.' then some .point else if c = 'e' ∨ c = 'E' then some .exponent else none
  | .whole =>
      if c.isDigit then some .whole
      else if c = '.' then some .point
      else if c = 'e' ∨ c = 'E' then some .exponent
      else none
  | .point => if c.isDigit then some .fraction else none
  | .fraction =>
      if c.isDigit then some .fraction
      else if c = 'e' ∨ c = 'E' then some .exponent
      else none
  | .exponent =>
      if c = '+' ∨ c = '-' then some .exponentSign
      else if c.isDigit then some .exponentDigits
      else none
  | .exponentSign | .exponentDigits => if c.isDigit then some .exponentDigits else none

/-- The number may end here. -/
def IsLast (part : NumberPart) : Prop :=
  part = .zero ∨ part = .whole ∨ part = .fraction ∨ part = .exponentDigits

instance (part : NumberPart) : Decidable part.IsLast :=
  inferInstanceAs (Decidable (_ ∨ _))

end NumberPart

/-! ## The reader -/

/-- An array or an object that a value is read for. -/
inductive Frame
  | array (elements : List Json)
  | member (members : List (List Char × Json)) (name : List Char)

/-- Where in the text the reader is. -/
inductive Mode
  | value
  /-- In front of an element; no element is needed behind the opening bracket. -/
  | element (elements : List Json)
  | behindElement (elements : List Json)
  /-- In front of a name; no name is needed behind the opening brace. -/
  | name (members : List (List Char × Json))
  | inName (members : List (List Char × Json)) (s : StringReader)
  | behindName (members : List (List Char × Json)) (name : List Char)
  | behindMember (members : List (List Char × Json))
  | string (s : StringReader)
  | number (part : NumberPart) (text : List Char)
  /-- In a literal name, with the characters that must follow. -/
  | word (rest : List Char) (v : Json)
  | done (v : Json)

structure Reader where
  stack : List Frame
  mode : Mode

namespace Reader

/-- In front of the text. -/
def start : Reader :=
  { stack := [], mode := .value }

/-- Behind a value. -/
def endValue : List Frame → Json → Reader
  | [], v => { stack := [], mode := .done v }
  | .array elements :: stack, v => { stack := stack, mode := .behindElement (elements ++ [v]) }
  | .member members name :: stack, v =>
      { stack := stack, mode := .behindMember (members ++ [(name, v)]) }

/-- The first character of a value. -/
def startValue (stack : List Frame) (c : Char) : Option Reader :=
  if c = '"' then some { stack := stack, mode := .string .start }
  else if c = '[' then some { stack := stack, mode := .element [] }
  else if c = '\x7b' then some { stack := stack, mode := .name [] }
  else if c = '-' then some { stack := stack, mode := .number .minus [c] }
  else if c = '0' then some { stack := stack, mode := .number .zero [c] }
  else if c.isDigit then some { stack := stack, mode := .number .whole [c] }
  else if c = 't' then some { stack := stack, mode := .word ['r', 'u', 'e'] (.bool true) }
  else if c = 'f' then some { stack := stack, mode := .word ['a', 'l', 's', 'e'] (.bool false) }
  else if c = 'n' then some { stack := stack, mode := .word ['u', 'l', 'l'] .null }
  else none

/-- A character behind a value. -/
def separate (s : Reader) (c : Char) : Option Reader :=
  match s.mode with
  | .behindElement elements =>
      if IsWhite c then some s
      else if c = ',' then some { s with mode := .element elements }
      else if c = ']' then some (endValue s.stack (.array elements))
      else none
  | .behindMember members =>
      if IsWhite c then some s
      else if c = ',' then some { s with mode := .name members }
      else if c = '\x7d' then some (endValue s.stack (.object members))
      else none
  | .done _ => if IsWhite c then some s else none
  | _ => none

def read (s : Reader) (c : Char) : Option Reader :=
  match s.mode with
  | .value => if IsWhite c then some s else startValue s.stack c
  | .element elements =>
      if IsWhite c then some s
      else if c = ']' then
        if elements.isEmpty then some (endValue s.stack (.array [])) else none
      else startValue (.array elements :: s.stack) c
  | .name members =>
      if IsWhite c then some s
      else if c = '"' then some { s with mode := .inName members .start }
      else if c = '\x7d' then
        if members.isEmpty then some (endValue s.stack (.object [])) else none
      else none
  | .inName members text =>
      if text.Ends c then some { s with mode := .behindName members (decode text.pieces) }
      else (text.read c).map fun text => { s with mode := .inName members text }
  | .behindName members name =>
      if IsWhite c then some s
      else if c = ':' then some { stack := .member members name :: s.stack, mode := .value }
      else none
  | .string text =>
      if text.Ends c then some (endValue s.stack (.string (decode text.pieces)))
      else (text.read c).map fun text => { s with mode := .string text }
  | .number part text =>
      match part.next c with
      | some part => some { s with mode := .number part (text ++ [c]) }
      -- The number has ended in front of this character.
      | none => if part.IsLast then (endValue s.stack (.number text)).separate c else none
  | .word rest v =>
      match rest with
      | [] => none
      | [last] => if c = last then some (endValue s.stack v) else none
      | next :: rest => if c = next then some { s with mode := .word rest v } else none
  | .behindElement _ | .behindMember _ | .done _ => s.separate c

/-- The end of the text. -/
def finish (s : Reader) : Option Json :=
  match s.stack, s.mode with
  | [], .done v => some v
  | [], .number part text => if part.IsLast then some (.number text) else none
  | _, _ => none

end Reader

/-- The value of a text, with `none` for a text that is not JSON. -/
def readJson (text : List Char) : Option Json :=
  (text.foldlM Reader.read Reader.start).bind Reader.finish

/-! ## Steps -/

section Steps

variable {σ α : Type*} {step : σ → α → Option σ} {s s' : σ}

theorem foldlM_cons_of_step {a : α} (h : step s a = some s') (l : List α) :
    (a :: l).foldlM step s = l.foldlM step s' := by
  rw [List.foldlM_cons, h]
  rfl

theorem foldlM_append_of_run {l : List α} (h : l.foldlM step s = some s') (l' : List α) :
    (l ++ l').foldlM step s = l'.foldlM step s' := by
  rw [List.foldlM_append, h]
  rfl

end Steps

/-! ## White space -/

namespace Reader

/-- Between two tokens. -/
def Between (s : Reader) : Prop :=
  match s.mode with
  | .inName _ _ | .string _ | .number _ _ | .word _ _ => False
  | _ => True

theorem between_endValue (stack : List Frame) (v : Json) : (endValue stack v).Between := by
  cases stack with
  | nil => trivial
  | cons frame stack => cases frame <;> trivial

theorem read_white (s : Reader) (h : s.Between) {c : Char} (hc : IsWhite c) :
    s.read c = some s := by
  rcases s with ⟨stack, mode⟩
  cases mode <;> first | exact h.elim | simp only [read, separate, hc, if_true]

theorem foldlM_blank (s : Reader) (h : s.Between) {gap : List Char} (hgap : IsBlank gap) :
    gap.foldlM read s = some s := by
  induction gap with
  | nil => rfl
  | cons c gap ih =>
      rw [foldlM_cons_of_step (read_white s h (hgap c List.mem_cons_self))]
      exact ih fun x hx => hgap x (List.mem_cons_of_mem c hx)

theorem foldlM_blank_append (s : Reader) (h : s.Between) {gap : List Char} (hgap : IsBlank gap)
    (text : List Char) : (gap ++ text).foldlM read s = text.foldlM read s :=
  foldlM_append_of_run (foldlM_blank s h hgap) text

end Reader

/-! ## What a string spells -/

/-- Within quotes, `encoded` is read as `text`. -/
def Spells (encoded text : List Char) : Prop :=
  ∀ pieces, encoded.foldlM StringReader.read { pieces := pieces, mode := .plain } =
    some { pieces := pieces ++ text.map Piece.char, mode := .plain }

theorem spells_nil : Spells [] [] := by
  intro pieces
  simp

theorem Spells.append {a b x y : List Char} (ha : Spells a x) (hb : Spells b y) :
    Spells (a ++ b) (x ++ y) := by
  intro pieces
  rw [foldlM_append_of_run (ha pieces), hb (pieces ++ x.map Piece.char)]
  simp

theorem spells_unescaped {c : Char} (h : IsUnescaped c) : Spells [c] [c] := by
  intro pieces
  have hread : StringReader.read { pieces := pieces, mode := .plain } c =
      some { pieces := pieces ++ [.char c], mode := .plain } := by
    simp [StringReader.read, StringReader.push, h, h.2.2]
  rw [foldlM_cons_of_step hread]
  rfl

theorem spells_escaped {c d : Char} (h : escapedChar c = some d) : Spells ['\\', c] [d] := by
  intro pieces
  have hc : c ≠ 'u' := by
    rintro rfl
    cases h
  have hopen : StringReader.read { pieces := pieces, mode := .plain } '\\' =
      some { pieces := pieces, mode := .escape } := by
    simp [StringReader.read]
  have hread : StringReader.read { pieces := pieces, mode := .escape } c =
      some { pieces := pieces ++ [.char d], mode := .plain } := by
    simp [StringReader.read, StringReader.push, h, hc]
  rw [foldlM_cons_of_step hopen, foldlM_cons_of_step hread]
  rfl

theorem spells_flatMap {encode : Char → List Char} {text : List Char}
    (h : ∀ c ∈ text, Spells (encode c) [c]) : Spells (text.flatMap encode) text := by
  induction text with
  | nil => exact spells_nil
  | cons c text ih =>
      rw [List.flatMap_cons]
      exact (h c List.mem_cons_self).append (ih fun x hx => h x (List.mem_cons_of_mem c hx))

theorem spells_bare {text : List Char} (h : IsBare text) : Spells text text := by
  have hone : Spells (text.flatMap fun c => [c]) text :=
    spells_flatMap fun c hc => spells_unescaped (h c hc)
  rwa [List.flatMap_singleton'] at hone

/-- Within a string, the reader does what the reader of strings does. -/
theorem foldlM_inside {inside : StringReader → Mode}
    (hinside : ∀ stack sr sr' c, StringReader.read sr c = some sr' →
      Reader.read ⟨stack, inside sr⟩ c = some ⟨stack, inside sr'⟩)
    (stack : List Frame) {text : List Char} :
    ∀ {sr sr' : StringReader}, text.foldlM StringReader.read sr = some sr' →
      text.foldlM Reader.read ⟨stack, inside sr⟩ = some ⟨stack, inside sr'⟩ := by
  induction text with
  | nil =>
      intro sr sr' h
      cases h
      rfl
  | cons c text ih =>
      intro sr sr' h
      rw [List.foldlM_cons] at h
      cases hread : sr.read c with
      | none =>
          rw [hread] at h
          cases h
      | some next =>
          rw [hread] at h
          rw [foldlM_cons_of_step (hinside stack sr next c hread)]
          exact ih h

/-- No quote is read inside a string. -/
theorem not_ends_of_read {sr sr' : StringReader} {c : Char} (h : sr.read c = some sr') :
    ¬ sr.Ends c := by
  rintro ⟨hmode, rfl⟩
  simp [StringReader.read, hmode, IsUnescaped] at h

theorem read_inside_string (stack : List Frame) (sr sr' : StringReader) (c : Char)
    (h : sr.read c = some sr') :
    Reader.read ⟨stack, .string sr⟩ c = some ⟨stack, .string sr'⟩ := by
  simp [Reader.read, not_ends_of_read h, h]

theorem foldlM_string (stack : List Frame) {encoded text : List Char} (h : Spells encoded text) :
    ('"' :: (encoded ++ ['"'])).foldlM Reader.read ⟨stack, .value⟩ =
      some (Reader.endValue stack (.string text)) := by
  have hopen : Reader.read ⟨stack, .value⟩ '"' = some ⟨stack, .string .start⟩ := by
    simp [Reader.read, Reader.startValue, IsWhite]
  have hbody := foldlM_inside read_inside_string stack (h [])
  rw [foldlM_cons_of_step hopen, StringReader.start, foldlM_append_of_run hbody]
  simp [Reader.read, StringReader.Ends]

/-! ## What a text denotes -/

/-- A character that may stand behind a value and is no part of one. -/
def IsSeparator (c : Char) : Prop :=
  IsWhite c ∨ c = ',' ∨ c = ']' ∨ c = '\x7d'

instance (c : Char) : Decidable (IsSeparator c) :=
  inferInstanceAs (Decidable (_ ∨ _))

/-- White space may stand between a value and the separator. -/
theorem foldlM_gap {s : Reader} {stack : List Frame} {value : List Char} {v : Json}
    (h : ∀ c, IsSeparator c →
      (value ++ [c]).foldlM Reader.read s = (Reader.endValue stack v).read c)
    {gap : List Char} (hgap : IsBlank gap) {c : Char} (hc : IsSeparator c) :
    (value ++ (gap ++ [c])).foldlM Reader.read s = (Reader.endValue stack v).read c := by
  cases gap with
  | nil => exact h c hc
  | cons d gap =>
      have hbetween := Reader.between_endValue stack v
      have hd : IsWhite d := hgap d List.mem_cons_self
      have hgap' : IsBlank gap := fun x hx => hgap x (List.mem_cons_of_mem d hx)
      have hsplit : value ++ (d :: gap ++ [c]) = (value ++ [d]) ++ (gap ++ [c]) := by simp
      have hvalue : (value ++ [d]).foldlM Reader.read s = some (Reader.endValue stack v) := by
        rw [h d (Or.inl hd), Reader.read_white _ hbetween hd]
      rw [hsplit, foldlM_append_of_run hvalue, Reader.foldlM_blank_append _ hbetween hgap']
      simp

/-- Wherever a value may stand, the text is read as this one. -/
structure Denotes (text : List Char) (v : Json) : Prop where
  head : ∃ c rest, text = c :: rest ∧ ¬ IsWhite c ∧ c ≠ ']'
  reads : ∀ stack c, IsSeparator c →
    (text ++ [c]).foldlM Reader.read ⟨stack, .value⟩ = (Reader.endValue stack v).read c

/-- A value that ends with its own last character, whatever stands behind it. -/
theorem denotes_of_closed {first : Char} {rest : List Char} {v : Json} (hwhite : ¬ IsWhite first)
    (hbracket : first ≠ ']')
    (hclosed : ∀ stack, (first :: rest).foldlM Reader.read ⟨stack, .value⟩ =
      some (Reader.endValue stack v)) : Denotes (first :: rest) v := by
  refine ⟨⟨first, rest, rfl, hwhite, hbracket⟩, ?_⟩
  intro stack c _
  rw [foldlM_append_of_run (hclosed stack)]
  simp

theorem denotes_string {encoded text : List Char} (h : Spells encoded text) :
    Denotes ('"' :: (encoded ++ ['"'])) (.string text) :=
  denotes_of_closed (by decide) (by decide) fun stack => foldlM_string stack h

theorem denotes_true : Denotes ['t', 'r', 'u', 'e'] (.bool true) := by
  refine denotes_of_closed (by decide) (by decide) fun stack => ?_
  simp [Reader.read, Reader.startValue, IsWhite]

theorem denotes_false : Denotes ['f', 'a', 'l', 's', 'e'] (.bool false) := by
  refine denotes_of_closed (by decide) (by decide) fun stack => ?_
  simp [Reader.read, Reader.startValue, IsWhite]

/-- Behind a value in an array or an object, or behind the text. -/
theorem read_endValue (stack : List Frame) (v : Json) (c : Char) :
    (Reader.endValue stack v).read c = (Reader.endValue stack v).separate c := by
  cases stack with
  | nil => rfl
  | cons frame stack => cases frame <;> rfl

/-! ### Numbers -/

/-- The part that the first character of a number belongs to. -/
def NumberPart.first (c : Char) : Option NumberPart :=
  if c = '-' then some .minus
  else if c = '0' then some .zero
  else if c.isDigit then some .whole
  else none

/-- The text of a number. -/
def IsNumber : List Char → Prop
  | [] => False
  | c :: rest =>
      ∃ part last, NumberPart.first c = some part ∧ rest.foldlM NumberPart.next part = some last ∧
        last.IsLast

/-- At least one digit. -/
def IsDigits (text : List Char) : Prop :=
  text ≠ [] ∧ ∀ c ∈ text, c.isDigit = true

/-- Digits without a zero in front that is not needed. -/
def IsWhole (text : List Char) : Prop :=
  IsDigits text ∧ ∀ rest, text = '0' :: rest → rest = []

theorem foldlM_digits {part : NumberPart} {text : List Char}
    (hpart : ∀ c, c.isDigit = true → part.next c = some part)
    (htext : ∀ c ∈ text, c.isDigit = true) : text.foldlM NumberPart.next part = some part := by
  induction text with
  | nil => rfl
  | cons c text ih =>
      rw [foldlM_cons_of_step (hpart c (htext c List.mem_cons_self))]
      exact ih fun x hx => htext x (List.mem_cons_of_mem c hx)

/-- The digits in front of the point, behind a minus sign. -/
theorem foldlM_whole {text : List Char} (h : IsWhole text) :
    ∃ last, text.foldlM NumberPart.next .minus = some last ∧ (last = .zero ∨ last = .whole) := by
  rcases h with ⟨⟨hne, hdigits⟩, hzero⟩
  cases text with
  | nil => exact absurd rfl hne
  | cons c rest =>
      by_cases hc : c = '0'
      · subst hc
        rw [hzero rest rfl]
        exact ⟨.zero, rfl, Or.inl rfl⟩
      · have hdigit : c.isDigit = true := hdigits c List.mem_cons_self
        have hfirst : NumberPart.minus.next c = some .whole := by
          simp [NumberPart.next, hc, hdigit]
        refine ⟨.whole, ?_, Or.inr rfl⟩
        rw [foldlM_cons_of_step hfirst]
        refine foldlM_digits ?_ fun x hx => hdigits x (List.mem_cons_of_mem c hx)
        intro d hd
        simp [NumberPart.next, hd]

/-- The point and the digits behind it. -/
theorem foldlM_fraction {part : NumberPart} (hpart : part = .zero ∨ part = .whole)
    {text : List Char} (h : IsDigits text) :
    ('.' :: text).foldlM NumberPart.next part = some .fraction := by
  have hpoint : part.next '.' = some .point := by
    rcases hpart with rfl | rfl <;> rfl
  rw [foldlM_cons_of_step hpoint]
  rcases h with ⟨hne, hdigits⟩
  cases text with
  | nil => exact absurd rfl hne
  | cons c rest =>
      have hfirst : NumberPart.point.next c = some .fraction := by
        simp [NumberPart.next, hdigits c List.mem_cons_self]
      rw [foldlM_cons_of_step hfirst]
      refine foldlM_digits ?_ fun x hx => hdigits x (List.mem_cons_of_mem c hx)
      intro d hd
      simp [NumberPart.next, hd]

/-- What may stand behind a minus sign is a number with it and without it. -/
theorem isNumber_of_foldlM {text : List Char} {last : NumberPart}
    (hfold : text.foldlM NumberPart.next .minus = some last) (hlast : last.IsLast) :
    IsNumber text ∧ IsNumber ('-' :: text) := by
  refine ⟨?_, .minus, last, rfl, hfold, hlast⟩
  cases text with
  | nil =>
      cases hfold
      exact absurd hlast (by decide)
  | cons c rest =>
      rw [List.foldlM_cons] at hfold
      cases hnext : NumberPart.minus.next c with
      | none =>
          rw [hnext] at hfold
          cases hfold
      | some part =>
          rw [hnext] at hfold
          have hminus : c ≠ '-' := by
            rintro rfl
            cases hnext
          have hfirst : NumberPart.first c = some part := by
            rw [← hnext]
            simp only [NumberPart.first, NumberPart.next, hminus, if_false]
          exact ⟨part, last, hfirst, hfold, hlast⟩

theorem isNumber_whole {text : List Char} (h : IsWhole text) :
    IsNumber text ∧ IsNumber ('-' :: text) := by
  rcases foldlM_whole h with ⟨last, hfold, rfl | rfl⟩
  · exact isNumber_of_foldlM hfold (Or.inl rfl)
  · exact isNumber_of_foldlM hfold (Or.inr (Or.inl rfl))

theorem isNumber_fixed {whole fraction : List Char} (hwhole : IsWhole whole)
    (hfraction : IsDigits fraction) :
    IsNumber (whole ++ '.' :: fraction) ∧ IsNumber ('-' :: (whole ++ '.' :: fraction)) := by
  rcases foldlM_whole hwhole with ⟨last, hfold, hlast⟩
  have hall : (whole ++ '.' :: fraction).foldlM NumberPart.next .minus = some .fraction := by
    rw [foldlM_append_of_run hfold]
    exact foldlM_fraction hlast hfraction
  exact isNumber_of_foldlM hall (Or.inr (Or.inr (Or.inl rfl)))

theorem startValue_of_first {c : Char} {part : NumberPart} (h : NumberPart.first c = some part)
    (stack : List Frame) : Reader.startValue stack c = some ⟨stack, .number part [c]⟩ := by
  have hopen : c ≠ '"' ∧ c ≠ '[' ∧ c ≠ '\x7b' := by
    refine ⟨?_, ?_, ?_⟩ <;>
    · rintro rfl
      cases h
  unfold NumberPart.first at h
  simp only [Reader.startValue, hopen, if_false]
  split at h
  · cases h
    simp [*]
  · split at h
    · cases h
      simp [*]
    · split at h
      · cases h
        simp [*]
      · cases h

theorem foldlM_number (stack : List Frame) {rest : List Char} :
    ∀ {part last : NumberPart} (text : List Char), rest.foldlM NumberPart.next part = some last →
      rest.foldlM Reader.read ⟨stack, .number part text⟩ =
        some ⟨stack, .number last (text ++ rest)⟩ := by
  induction rest with
  | nil =>
      intro part last text h
      cases h
      simp
  | cons c rest ih =>
      intro part last text h
      rw [List.foldlM_cons] at h
      cases hnext : part.next c with
      | none =>
          rw [hnext] at h
          cases h
      | some next =>
          rw [hnext] at h
          have hread : Reader.read ⟨stack, .number part text⟩ c =
              some ⟨stack, .number next (text ++ [c])⟩ := by
            simp only [Reader.read, hnext]
          rw [foldlM_cons_of_step hread, ih (text ++ [c]) h]
          simp

/-- A number is over in front of a separator. -/
theorem next_separator (part : NumberPart) {c : Char} (h : IsSeparator c) :
    part.next c = none := by
  rcases h with (rfl | rfl | rfl | rfl) | rfl | rfl | rfl <;> cases part <;> rfl

theorem denotes_number {text : List Char} (h : IsNumber text) : Denotes text (.number text) := by
  cases text with
  | nil => exact h.elim
  | cons c rest =>
      rcases h with ⟨part, last, hfirst, hfold, hlast⟩
      have hwhite : ¬ IsWhite c := by
        rintro (rfl | rfl | rfl | rfl) <;> cases hfirst
      have hbracket : c ≠ ']' := by
        rintro rfl
        cases hfirst
      refine ⟨⟨c, rest, rfl, hwhite, hbracket⟩, ?_⟩
      intro stack d hd
      have hopen : Reader.read ⟨stack, .value⟩ c = some ⟨stack, .number part [c]⟩ := by
        simp only [Reader.read, hwhite, if_false, startValue_of_first hfirst]
      have hclose : Reader.read ⟨stack, .number last ([c] ++ rest)⟩ d =
          (Reader.endValue stack (.number (c :: rest))).read d := by
        rw [read_endValue]
        simp [Reader.read, next_separator last hd, hlast]
      rw [List.cons_append, foldlM_cons_of_step hopen,
        foldlM_append_of_run (foldlM_number stack [c] hfold)]
      simpa using hclose

/-! ### Objects -/

/-- What is left of an object behind some of its members, up to the closing brace. -/
def Members (text : List Char) (members : List (List Char × Json)) : Prop :=
  ∀ stack before, text.foldlM Reader.read ⟨stack, .name before⟩ =
    some (Reader.endValue stack (.object (before ++ members)))

/-- A name and the colon behind it. -/
def Opens (text name : List Char) : Prop :=
  ∀ stack before, text.foldlM Reader.read ⟨stack, .name before⟩ =
    some ⟨.member before name :: stack, .value⟩

theorem opens_bare {indent name gap : List Char} (hindent : IsBlank indent) (hname : IsBare name)
    (hgap : IsBlank gap) : Opens (indent ++ '"' :: (name ++ '"' :: ':' :: gap)) name := by
  intro stack before
  have hinside : ∀ stack sr sr' c, StringReader.read sr c = some sr' →
      Reader.read ⟨stack, .inName before sr⟩ c = some ⟨stack, .inName before sr'⟩ := by
    intro stack sr sr' c hread
    simp [Reader.read, not_ends_of_read hread, hread]
  have hopen : Reader.read ⟨stack, .name before⟩ '"' = some ⟨stack, .inName before .start⟩ := by
    simp [Reader.read, IsWhite]
  have hbody := foldlM_inside hinside stack (spells_bare hname [])
  have hclose : Reader.read ⟨stack, .inName before ⟨name.map .char, .plain⟩⟩ '"' =
      some ⟨stack, .behindName before name⟩ := by
    simp [Reader.read, StringReader.Ends]
  have hcolon : Reader.read ⟨stack, .behindName before name⟩ ':' =
      some ⟨.member before name :: stack, .value⟩ := by
    simp [Reader.read, IsWhite]
  have hwhite := Reader.foldlM_blank ⟨.member before name :: stack, .value⟩ trivial hgap
  rw [Reader.foldlM_blank_append ⟨stack, .name before⟩ trivial hindent, foldlM_cons_of_step hopen,
    StringReader.start, foldlM_append_of_run hbody, List.nil_append, foldlM_cons_of_step hclose,
    foldlM_cons_of_step hcolon]
  exact hwhite

/-- A member in front of another one. -/
theorem Members.cons {opening name value gap rest : List Char} {v : Json}
    {members : List (List Char × Json)} (hopen : Opens opening name) (hvalue : Denotes value v)
    (hgap : IsBlank gap) (hrest : Members rest members) :
    Members (opening ++ (value ++ ',' :: (gap ++ rest))) ((name, v) :: members) := by
  intro stack before
  have hcomma := hvalue.reads (.member before name :: stack) ',' (by decide)
  have hnext : (Reader.endValue (.member before name :: stack) v).read ',' =
      some ⟨stack, .name (before ++ [(name, v)])⟩ := rfl
  have hsplit : value ++ ',' :: (gap ++ rest) = (value ++ [',']) ++ (gap ++ rest) := by simp
  rw [foldlM_append_of_run (hopen stack before), hsplit, foldlM_append_of_run (hcomma.trans hnext),
    Reader.foldlM_blank_append ⟨stack, .name (before ++ [(name, v)])⟩ trivial hgap]
  simpa using hrest stack (before ++ [(name, v)])

/-- The last member. -/
theorem members_last {opening name value gap : List Char} {v : Json} (hopen : Opens opening name)
    (hvalue : Denotes value v) (hgap : IsBlank gap) :
    Members (opening ++ (value ++ (gap ++ ['\x7d']))) [(name, v)] := by
  intro stack before
  have hclose : (Reader.endValue (.member before name :: stack) v).read '\x7d' =
      some (Reader.endValue stack (.object (before ++ [(name, v)]))) := rfl
  rw [foldlM_append_of_run (hopen stack before),
    foldlM_gap (hvalue.reads (.member before name :: stack)) hgap (by decide), hclose]

/-- White space in front of a name. -/
theorem Members.blank {gap text : List Char} {members : List (List Char × Json)}
    (hgap : IsBlank gap) (h : Members text members) : Members (gap ++ text) members := by
  intro stack before
  rw [Reader.foldlM_blank_append ⟨stack, .name before⟩ trivial hgap]
  exact h stack before

theorem denotes_object {text : List Char} {members : List (List Char × Json)}
    (h : Members text members) : Denotes ('\x7b' :: text) (.object members) := by
  refine denotes_of_closed (by decide) (by decide) fun stack => ?_
  have hopen : Reader.read ⟨stack, .value⟩ '\x7b' = some ⟨stack, .name []⟩ := by
    simp [Reader.read, Reader.startValue, IsWhite]
  rw [foldlM_cons_of_step hopen]
  exact h stack []

/-! ### Arrays -/

/-- What is left of an array behind some of its elements, up to the closing bracket. -/
def Elements (text : List Char) (elements : List Json) : Prop :=
  ∀ stack before, text.foldlM Reader.read ⟨stack, .element before⟩ =
    some (Reader.endValue stack (.array (before ++ elements)))

/-- In front of an element, the reader does what it does in front of a value. -/
theorem Denotes.reads_element {text : List Char} {v : Json} (h : Denotes text v)
    (stack : List Frame) (before : List Json) {c : Char} (hc : IsSeparator c) :
    (text ++ [c]).foldlM Reader.read ⟨stack, .element before⟩ =
      (Reader.endValue (.array before :: stack) v).read c := by
  rcases h.head with ⟨first, rest, rfl, hwhite, hbracket⟩
  have hopen : Reader.read ⟨stack, .element before⟩ first =
      Reader.read ⟨.array before :: stack, .value⟩ first := by
    simp only [Reader.read, hwhite, hbracket, if_false]
  rw [← h.reads (.array before :: stack) c hc, List.cons_append, List.foldlM_cons, hopen,
    List.foldlM_cons]

theorem Elements.cons {value gap rest : List Char} {v : Json} {elements : List Json}
    (hvalue : Denotes value v) (hgap : IsBlank gap) (hrest : Elements rest elements) :
    Elements (value ++ ',' :: (gap ++ rest)) (v :: elements) := by
  intro stack before
  have hcomma := hvalue.reads_element stack before (c := ',') (by decide)
  have hnext : (Reader.endValue (.array before :: stack) v).read ',' =
      some ⟨stack, .element (before ++ [v])⟩ := rfl
  have hsplit : value ++ ',' :: (gap ++ rest) = (value ++ [',']) ++ (gap ++ rest) := by simp
  rw [hsplit, foldlM_append_of_run (hcomma.trans hnext),
    Reader.foldlM_blank_append ⟨stack, .element (before ++ [v])⟩ trivial hgap]
  simpa using hrest stack (before ++ [v])

theorem elements_last {value gap : List Char} {v : Json} (hvalue : Denotes value v)
    (hgap : IsBlank gap) : Elements (value ++ (gap ++ [']'])) [v] := by
  intro stack before
  have hclose : (Reader.endValue (.array before :: stack) v).read ']' =
      some (Reader.endValue stack (.array (before ++ [v]))) := rfl
  rw [foldlM_gap (fun c hc => hvalue.reads_element stack before hc) hgap (by decide), hclose]

theorem Elements.blank {gap text : List Char} {elements : List Json} (hgap : IsBlank gap)
    (h : Elements text elements) : Elements (gap ++ text) elements := by
  intro stack before
  rw [Reader.foldlM_blank_append ⟨stack, .element before⟩ trivial hgap]
  exact h stack before

theorem denotes_array {text : List Char} {elements : List Json} (h : Elements text elements) :
    Denotes ('[' :: text) (.array elements) := by
  refine denotes_of_closed (by decide) (by decide) fun stack => ?_
  have hopen : Reader.read ⟨stack, .value⟩ '[' = some ⟨stack, .element []⟩ := by
    simp [Reader.read, Reader.startValue, IsWhite]
  rw [foldlM_cons_of_step hopen]
  exact h stack []

theorem denotes_array_nil {gap : List Char} (hgap : IsBlank gap) :
    Denotes ('[' :: (gap ++ [']'])) (.array []) := by
  refine denotes_of_closed (by decide) (by decide) fun stack => ?_
  have hopen : Reader.read ⟨stack, .value⟩ '[' = some ⟨stack, .element []⟩ := by
    simp [Reader.read, Reader.startValue, IsWhite]
  have hclose : Reader.read ⟨stack, .element []⟩ ']' =
      some (Reader.endValue stack (.array [])) := by
    simp [Reader.read, IsWhite]
  rw [foldlM_cons_of_step hopen, Reader.foldlM_blank_append ⟨stack, .element []⟩ trivial hgap,
    foldlM_cons_of_step hclose]
  rfl

/-! ## Whole texts -/

theorem readJson_of_denotes {text gap : List Char} {v : Json} (h : Denotes text v)
    (hgap : IsBlank gap) : readJson (text ++ (gap ++ ['\n'])) = some v := by
  have hend : (Reader.endValue [] v).read '\n' = some (Reader.endValue [] v) :=
    Reader.read_white (Reader.endValue [] v) trivial (by decide)
  unfold readJson
  rw [Reader.start, foldlM_gap (h.reads []) hgap (by decide), hend]
  rfl

end Json

end Lib
end LatencyAnalyzer

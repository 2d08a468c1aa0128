import LatencyAnalyzer.Report.Escape
import LatencyAnalyzer.Report.Layout

/-!
# WellFormed — the reports of the labs as JSON objects

The braces, brackets and commas are insertions of their own.  A report is a list of members, each
with a comma behind it, and a last one without; so are the objects within it.
-/

namespace LatencyAnalyzer
namespace Report

open Cxx
open Lib
open Lib.Json

/-! ## Values -/

/-- An optional minus sign, digits, a point and digits. -/
def IsFixedText (text : Text) : Prop :=
  ∃ whole fraction : Text, IsWhole whole ∧ IsDigits fraction ∧
    (text = whole ++ '.' :: fraction ∨ text = '-' :: (whole ++ '.' :: fraction))

theorem denotes_fixed {text : Text} (h : IsFixedText text) : Denotes text (.number text) := by
  rcases h with ⟨whole, fraction, hwhole, hfraction, rfl | rfl⟩
  · exact denotes_number (isNumber_fixed hwhole hfraction).1
  · exact denotes_number (isNumber_fixed hwhole hfraction).2

theorem isDigits_decimal (n : Nat) : IsDigits (Text.decimal n) :=
  ⟨Text.decimal_ne_nil n, fun _ hc => Text.isDigit_of_mem_decimal hc⟩

/-- A number is printed without a zero in front. -/
theorem isWhole_decimal (n : Nat) : IsWhole (Text.decimal n) := by
  refine ⟨isDigits_decimal n, ?_⟩
  unfold Text.decimal
  induction n using Nat.strong_induction_on with
  | h n ih =>
      intro rest hzero
      by_cases hsmall : n < 10
      · rw [Nat.toDigits_of_lt_base hsmall] at hzero
        injection hzero with _ hrest
        exact hrest.symm
      · -- The zero would be the first digit of what stands in front of the last one.
        have hle : 10 ≤ n := Nat.le_of_not_lt hsmall
        have hlt : n / 10 < n := Nat.div_lt_self (by omega) (by omega)
        rw [Nat.toDigits_of_base_le (by omega) hle] at hzero
        cases hfront : Nat.toDigits 10 (n / 10) with
        | nil => exact absurd hfront Nat.toDigits_ne_nil
        | cons c front =>
            rw [hfront] at hzero
            injection hzero with hc _
            have hnil := ih (n / 10) hlt front (by rw [hfront, hc])
            rw [hc, hnil] at hfront
            -- The only number that is printed as a zero is zero.
            have hvalue := Text.decimalValue_decimal (n / 10)
            unfold Text.decimal at hvalue
            rw [hfront] at hvalue
            have hzero' : Text.decimalValue ['0'] = 0 := rfl
            omega

/-- With a precision, a stream prints digits on both sides of the point. -/
theorem isFixedText_fixedAbs {precision : Nat} (hprecision : 0 < precision) (v : ℚ) :
    ∃ whole fraction : Text, IsWhole whole ∧ IsDigits fraction ∧
      Double.fixedAbs precision v = whole ++ '.' :: fraction := by
  unfold Double.fixedAbs
  generalize Double.roundEven (v * 10 ^ precision) = n
  generalize hdigits : List.replicate (precision + 1 - (Text.decimal n).length) '0' ++
    Text.decimal n = digits
  have hlength : precision + 1 ≤ digits.length := by
    rw [← hdigits, List.length_append, List.length_replicate]
    omega
  have hall : ∀ c ∈ digits, c.isDigit = true := by
    intro c hc
    rw [← hdigits] at hc
    rcases List.mem_append.1 hc with hzero | hdecimal
    · rw [(List.mem_replicate.1 hzero).2]
      rfl
    · exact Text.isDigit_of_mem_decimal hdecimal
  have hfraction : digits.drop (digits.length - precision) ≠ [] := by
    rw [← List.length_pos_iff, List.length_drop]
    omega
  have hwhole : digits.take (digits.length - precision) ≠ [] := by
    rw [← List.length_pos_iff, List.length_take]
    omega
  refine ⟨digits.take (digits.length - precision), digits.drop (digits.length - precision),
    ⟨⟨hwhole, fun c hc => hall c (List.mem_of_mem_take hc)⟩, ?_⟩,
    ⟨hfraction, fun c hc => hall c (List.mem_of_mem_drop hc)⟩, ?_⟩
  · intro rest hzero
    by_cases hshort : (Text.decimal n).length ≤ precision
    · -- The zeros are filled up to a single digit in front of the point.
      have hexact : digits.length = precision + 1 := by
        rw [← hdigits, List.length_append, List.length_replicate]
        omega
      have hone : (digits.take (digits.length - precision)).length = 1 := by
        rw [List.length_take]
        omega
      rw [hzero, List.length_cons] at hone
      exact List.length_eq_zero_iff.1 (Nat.succ.inj hone)
    · have hnone : digits = Text.decimal n := by
        have hpad : precision + 1 - (Text.decimal n).length = 0 := by omega
        rw [← hdigits, hpad]
        rfl
      have hsplit : Text.decimal n = '0' :: (rest ++ digits.drop (digits.length - precision)) := by
        rw [← hnone]
        conv_lhs => rw [← List.take_append_drop (digits.length - precision) digits, hzero]
        rfl
      have hnil := (isWhole_decimal n).2 _ hsplit
      exact absurd (List.append_eq_nil_iff.1 hnil).2 hfraction
  · simp only [Double.withPoint, hdigits, hfraction, if_false]

theorem isFixedText_fixed {precision : Nat} (hprecision : 0 < precision) (v : ℚ) :
    IsFixedText (Double.fixed precision v) := by
  unfold Double.fixed Double.withSign
  split
  · rcases isFixedText_fixedAbs hprecision (-v) with ⟨whole, fraction, hwhole, hfraction, htext⟩
    exact ⟨whole, fraction, hwhole, hfraction, Or.inr (by rw [htext])⟩
  · rcases isFixedText_fixedAbs hprecision v with ⟨whole, fraction, hwhole, hfraction, htext⟩
    exact ⟨whole, fraction, hwhole, hfraction, Or.inl htext⟩

theorem denotes_decimal (n : Nat) : Denotes (Text.decimal n) (.number (Text.decimal n)) :=
  denotes_number (isNumber_whole (isWhole_decimal n)).1

theorem denotes_integer (v : Int) : Denotes (Text.integer v) (.number (Text.integer v)) := by
  have hwhole := isNumber_whole (isWhole_decimal v.natAbs)
  unfold Text.integer
  split
  · exact denotes_number hwhole.2
  · exact denotes_number hwhole.1

theorem denotes_boolean (b : Bool) : Denotes (boolean b) (.bool b) := by
  cases b with
  | false => exact denotes_false
  | true => exact denotes_true

/-! ## Members -/

/-- The literal is a name with its indentation and its colon; `suffix` is what it has of the
value. -/
def Names (literal key suffix : Text) : Prop :=
  literal.dropWhile (· == ' ') = '"' :: (key ++ '"' :: ':' :: ' ' :: suffix) ∧ IsBare key

instance (literal key suffix : Text) : Decidable (Names literal key suffix) :=
  inferInstanceAs (Decidable (_ ∧ _))

theorem Names.opens {literal key suffix : Text} (h : Names literal key suffix) :
    ∃ opening, literal = opening ++ suffix ∧ Opens opening key := by
  rcases h with ⟨hdrop, hbare⟩
  have hindent : IsBlank (literal.takeWhile (· == ' ')) := by
    intro c hc
    have hspace := List.mem_takeWhile_imp hc
    exact Or.inl (by simpa using hspace)
  refine ⟨literal.takeWhile (· == ' ') ++ '"' :: (key ++ '"' :: ':' :: [' ']), ?_,
    opens_bare hindent hbare (by decide)⟩
  calc
    literal = literal.takeWhile (· == ' ') ++ literal.dropWhile (· == ' ') :=
      List.takeWhile_append_dropWhile.symm
    _ = literal.takeWhile (· == ' ') ++ '"' :: (key ++ '"' :: ':' :: ' ' :: suffix) := by
      rw [hdrop]
    _ = literal.takeWhile (· == ' ') ++ '"' :: (key ++ '"' :: ':' :: [' ']) ++ suffix := by simp

/-- The insertions of a member that another one follows. -/
structure Entry where
  pieces : List Text
  key : Text
  value : Json
  reads : ∀ {rest : Text} {members : List (Text × Json)}, Members rest members →
    Members (pieces.flatten ++ rest) ((key, value) :: members)

theorem lit_injective : Function.Injective lit :=
  fun _ _ h => String.toList_injective h

theorem lit_comma_lf : lit ",\n" = [',', '\n'] := lit_ofList _

theorem lit_quote_comma_lf : lit "\",\n" = ['"', ',', '\n'] := lit_ofList _

theorem reads_of_denotes {pieces : List Text} {opening text key : Text} {v : Json}
    (hopen : Opens opening key) (hvalue : Denotes text v)
    (hpieces : pieces.flatten = opening ++ (text ++ [',', '\n'])) {rest : Text}
    {members : List (Text × Json)} (hrest : Members rest members) :
    Members (pieces.flatten ++ rest) ((key, v) :: members) := by
  have hcons := Members.cons hopen hvalue (by decide : IsBlank ['\n']) hrest
  rw [hpieces]
  simpa using hcons

namespace Entry

def named (e : Entry) : Text × Json :=
  (e.key, e.value)

variable {nameChars keyChars : Text}

def member (name key : String) {text : Text} {v : Json} (hvalue : Denotes text v)
    (hname : lit name = nameChars := by exact lit_ofList _)
    (hkey : lit key = keyChars := by exact lit_ofList _)
    (hnames : Names nameChars keyChars [] := by decide) : Entry :=
  { pieces := Report.member name text
    key := lit key
    value := v
    reads := by
      rcases hnames.opens with ⟨opening, hopening, hopen⟩
      rw [← hkey] at hopen
      refine reads_of_denotes hopen hvalue ?_
      simp [Report.member, hname, hopening, lit_comma_lf] }

def text (name key : String) {value : Text} (hfree : ControlFree value)
    (hname : lit name = nameChars := by exact lit_ofList _)
    (hkey : lit key = keyChars := by exact lit_ofList _)
    (hnames : Names nameChars keyChars ['"'] := by decide) : Entry :=
  { pieces := textMember name (escape value)
    key := lit key
    value := .string value
    reads := by
      rcases hnames.opens with ⟨opening, hopening, hopen⟩
      rw [← hkey] at hopen
      refine reads_of_denotes hopen (denotes_string (spells_escape hfree)) ?_
      simp [textMember, hname, hopening, lit_quote_comma_lf] }

/-- A member that is a literal as a whole. -/
def line (name key : String) {text : Text} {v : Json} (hvalue : Denotes text v)
    (hname : lit name = nameChars := by exact lit_ofList _)
    (hkey : lit key = keyChars := by exact lit_ofList _)
    (hnames : Names nameChars keyChars (text ++ [',', '\n']) := by decide) : Entry :=
  { pieces := [lit name]
    key := lit key
    value := v
    reads := by
      rcases hnames.opens with ⟨opening, hopening, hopen⟩
      rw [← hkey] at hopen
      refine reads_of_denotes hopen hvalue ?_
      simp [hname, hopening] }

/-- A member that is an object. -/
def object (name key : String) {inner : List Text} {members : List (Text × Json)}
    (hinner : Members (inner.flatten ++ [' ', ' ', '\x7d']) members)
    (hname : lit name = nameChars := by exact lit_ofList _)
    (hkey : lit key = keyChars := by exact lit_ofList _)
    (hnames : Names nameChars keyChars ['\x7b', '\n'] := by decide) : Entry :=
  { pieces := [lit name] ++ inner ++ [lit "  \x7d,\n"]
    key := lit key
    value := .object members
    reads := by
      rcases hnames.opens with ⟨opening, hopening, hopen⟩
      rw [← hkey] at hopen
      intro rest after hrest
      have hclose : lit "  \x7d,\n" = [' ', ' ', '\x7d', ',', '\n'] := lit_ofList _
      have hblank := Members.blank (by decide : IsBlank ['\n']) hinner
      refine reads_of_denotes hopen (denotes_object hblank) ?_ hrest
      simp [hname, hopening, hclose] }

/-- A member that is an array on one line. -/
def array (name key : String) {inner : List Text} {elements : List Json}
    (hinner : Denotes ('[' :: (inner.flatten ++ [']'])) (.array elements))
    (hname : lit name = nameChars := by exact lit_ofList _)
    (hkey : lit key = keyChars := by exact lit_ofList _)
    (hnames : Names nameChars keyChars ['['] := by decide) : Entry :=
  { pieces := [lit name] ++ inner ++ [lit "],\n"]
    key := lit key
    value := .array elements
    reads := by
      rcases hnames.opens with ⟨opening, hopening, hopen⟩
      rw [← hkey] at hopen
      intro rest after hrest
      have hclose : lit "],\n" = [']', ',', '\n'] := lit_ofList _
      refine reads_of_denotes hopen hinner ?_ hrest
      simp [hname, hopening, hclose] }

theorem members_flatMap (entries : List Entry) {rest : Text} {members : List (Text × Json)}
    (hrest : Members rest members) :
    Members ((entries.flatMap Entry.pieces).flatten ++ rest)
      (entries.map Entry.named ++ members) := by
  induction entries with
  | nil => simpa using hrest
  | cons e entries ih =>
      have hcons := e.reads ih
      simpa [named] using hcons

theorem members_append (entries : List Entry) {last : List Text} {gap : Text}
    {members : List (Text × Json)} (hlast : Members (last.flatten ++ gap) members) :
    Members ((entries.flatMap Entry.pieces ++ last).flatten ++ gap)
      (entries.map Entry.named ++ members) := by
  rw [List.flatten_append, List.append_assoc]
  exact members_flatMap entries hlast

end Entry

/-! ## Arrays of objects -/

section Objects

variable {α : Type*} {fields : α → List Text} {value : α → Json}

theorem objects_cons (fields : α → List Text) (element : α) (elements : List α) :
    objects fields (element :: elements) =
      [lit "    \x7b\n"] ++ fields element ++ [lit "    \x7d"] ++
        (if elements = [] then [] else [lit ","]) ++ [lit "\n"] ++ objects fields elements := by
  unfold objects
  rw [List.mapIdx_cons, List.flatten_cons]
  congr 1
  · cases elements <;> simp
  · simp [Nat.add_right_cancel_iff]

/-- The text of an element, from its brace on. -/
def objectText (fields : List Text) : Text :=
  '\x7b' :: '\n' :: (fields.flatten ++ [' ', ' ', ' ', ' ', '\x7d'])

theorem flatten_objects_cons (element : α) (elements : List α) :
    (objects fields (element :: elements)).flatten =
      [' ', ' ', ' ', ' '] ++ (objectText (fields element) ++
        ((if elements = [] then [] else [',']) ++ '\n' :: (objects fields elements).flatten)) := by
  have hopen : lit "    \x7b\n" = [' ', ' ', ' ', ' ', '\x7b', '\n'] := lit_ofList _
  have hclose : lit "    \x7d" = [' ', ' ', ' ', ' ', '\x7d'] := lit_ofList _
  have hcomma : lit "," = [','] := lit_ofList _
  have hlf : lit "\n" = ['\n'] := lit_ofList _
  rw [objects_cons]
  split <;> simp [objectText, hopen, hclose, hcomma, hlf]

theorem elements_objects {elements : List α} (hne : elements ≠ [])
    (h : ∀ element ∈ elements, Denotes (objectText (fields element)) (value element)) :
    Elements ((objects fields elements).flatten ++ [' ', ' ', ']']) (elements.map value) := by
  induction elements with
  | nil => exact absurd rfl hne
  | cons element elements ih =>
      have hvalue := h element List.mem_cons_self
      rw [flatten_objects_cons, List.map_cons, List.append_assoc]
      refine Elements.blank (by decide) ?_
      cases helements : elements with
      | nil =>
          have hlast := elements_last hvalue (by decide : IsBlank ['\n', ' ', ' '])
          simpa [objects] using hlast
      | cons next rest =>
          rw [← helements]
          have hrest : elements ≠ [] := by simp [helements]
          have hnext := Elements.cons hvalue (by decide : IsBlank ['\n'])
            (ih hrest fun x hx => h x (List.mem_cons_of_mem element hx))
          simpa [hrest] using hnext

/-- The array of no objects, too. -/
theorem denotes_objects {elements : List α}
    (h : ∀ element ∈ elements, Denotes (objectText (fields element)) (value element)) :
    Denotes ('[' :: '\n' :: ((objects fields elements).flatten ++ [' ', ' ', ']']))
      (.array (elements.map value)) := by
  by_cases hne : elements = []
  · subst hne
    exact denotes_array_nil (by decide : IsBlank ['\n', ' ', ' '])
  · have hinner := Elements.blank (by decide : IsBlank ['\n']) (elements_objects hne h)
    exact denotes_array hinner

end Objects

/-! ## The end of an object -/

theorem members_end {pieces : List Text} {opening text key gap : Text} {v : Json}
    (hopen : Opens opening key) (hvalue : Denotes text v) (hgap : IsBlank gap)
    (hpieces : pieces.flatten = opening ++ (text ++ ['\n'])) :
    Members (pieces.flatten ++ (gap ++ ['\x7d'])) [(key, v)] := by
  have hblank : IsBlank ('\n' :: gap) := by
    intro c hc
    rcases List.mem_cons.1 hc with rfl | hc
    · decide
    · exact hgap c hc
  have hlast := members_last hopen hvalue hblank
  rw [hpieces]
  simpa using hlast

theorem members_end_boolean (name key : String) (b : Bool) {gap nameChars keyChars : Text}
    (hgap : IsBlank gap) (hname : lit name = nameChars := by exact lit_ofList _)
    (hkey : lit key = keyChars := by exact lit_ofList _)
    (hnames : Names nameChars keyChars [] := by decide) :
    Members ([lit name, boolean b, lit "\n"].flatten ++ (gap ++ ['\x7d']))
      [(lit key, .bool b)] := by
  rcases hnames.opens with ⟨opening, hopening, hopen⟩
  rw [← hkey] at hopen
  have hlf : lit "\n" = ['\n'] := lit_ofList _
  refine members_end hopen (denotes_boolean b) hgap ?_
  simp [hname, hopening, hlf]

theorem members_end_text (name key : String) {value gap nameChars keyChars : Text}
    (hfree : ControlFree value) (hgap : IsBlank gap)
    (hname : lit name = nameChars := by exact lit_ofList _)
    (hkey : lit key = keyChars := by exact lit_ofList _)
    (hnames : Names nameChars keyChars ['"'] := by decide) :
    Members ([lit name, escape value, lit "\"\n"].flatten ++ (gap ++ ['\x7d']))
      [(lit key, .string value)] := by
  rcases hnames.opens with ⟨opening, hopening, hopen⟩
  rw [← hkey] at hopen
  have hend : lit "\"\n" = ['"', '\n'] := lit_ofList _
  refine members_end hopen (denotes_string (spells_escape hfree)) hgap ?_
  simp [hname, hopening, hend]

/-- A last member that is a literal as a whole. -/
theorem members_end_line (name key : String) {text gap nameChars keyChars : Text} {v : Json}
    (hvalue : Denotes text v) (hgap : IsBlank gap)
    (hname : lit name = nameChars := by exact lit_ofList _)
    (hkey : lit key = keyChars := by exact lit_ofList _)
    (hnames : Names nameChars keyChars (text ++ ['\n']) := by decide) :
    Members ([lit name].flatten ++ (gap ++ ['\x7d'])) [(lit key, v)] := by
  rcases hnames.opens with ⟨opening, hopening, hopen⟩
  rw [← hkey] at hopen
  refine members_end hopen hvalue hgap ?_
  simp [hname, hopening]

/-- The array of objects that ends a report. -/
theorem members_end_objects (name key : String) {α : Type*} {fields : α → List Text}
    {value : α → Json} {elements : List α} {nameChars keyChars : Text}
    (h : ∀ element ∈ elements, Denotes (objectText (fields element)) (value element))
    (hname : lit name = nameChars := by exact lit_ofList _)
    (hkey : lit key = keyChars := by exact lit_ofList _)
    (hnames : Names nameChars keyChars ['[', '\n'] := by decide) :
    Members (([lit name] ++ objects fields elements ++ [lit "  ]\n"]).flatten ++ ['\x7d'])
      [(lit key, .array (elements.map value))] := by
  rcases hnames.opens with ⟨opening, hopening, hopen⟩
  rw [← hkey] at hopen
  have hend : lit "  ]\n" = [' ', ' ', ']', '\n'] := lit_ofList _
  refine members_end hopen (denotes_objects h) (by decide : IsBlank []) ?_
  simp [hname, hopening, hend]

/-- An object with a last member and a line feed behind it. -/
theorem readJson_report {entries : List Entry} {last : List Text} {members : List (Text × Json)}
    (hlast : Members (last.flatten ++ ['\x7d']) members) :
    readJson ([lit "\x7b\n"] ++ entries.flatMap Entry.pieces ++ last ++ [lit "\x7d\n"]).flatten =
      some (.object (entries.map Entry.named ++ members)) := by
  have hopen : lit "\x7b\n" = ['\x7b', '\n'] := lit_ofList _
  have hclose : lit "\x7d\n" = ['\x7d', '\n'] := lit_ofList _
  have hmembers := Members.blank (by decide : IsBlank ['\n'])
    (Entry.members_flatMap entries hlast)
  have hread := readJson_of_denotes (denotes_object hmembers) (by decide : IsBlank [])
  simpa [hopen, hclose] using hread

/-! ## `evaluation_lab.cpp` -/

variable {K : Type*} {fmt : Format K}

namespace EvaluationLab

/-- The numbers with a fraction. -/
def reportNumbers (result : EvaluationLabResult K) (tvlaClean : TvlaResult K)
    (runMedians : List K) : List K :=
  [result.recoveryRatePercent, result.alignmentLossPercent, result.snrLinear, result.snrDb,
    result.classificationErrorPercent, result.repeatabilityCvPercent, result.tvla.tStatistic,
    tvlaClean.tStatistic, result.tvla.threshold] ++ runMedians

def controlStrings (c : ControlEvaluation) : List String :=
  [c.control, c.scenario, c.expectedAction, c.evidence]

def reportStrings (result : EvaluationLabResult K) : List String :=
  [result.platform.vendor, result.platform.brand, result.platform.osRelease,
    result.platform.machine] ++ result.controls.flatMap controlStrings

/-- The numbers of the report are finite, and its strings have none of the control characters
that `json_escape` leaves as they are. -/
structure Printable (fmt : Format K) (result : EvaluationLabResult K) (tvlaClean : TvlaResult K)
    (runMedians : List K) : Prop where
  numbers : ∀ v ∈ reportNumbers result tvlaClean runMedians, IsFixedText (fmt.fixed 4 v)
  strings : ∀ s ∈ reportStrings result, ControlFree s.toList

/-- The object that stands for a control. -/
def controlValue (c : ControlEvaluation) : Json :=
  .object [(lit "control", .string c.control.toList), (lit "scenario", .string c.scenario.toList),
    (lit "expected_action", .string c.expectedAction.toList),
    (lit "executed", .bool c.executed), (lit "evidence", .string c.evidence.toList)]

theorem denotes_control {c : ControlEvaluation}
    (h : ∀ s ∈ controlStrings c, ControlFree s.toList) :
    Denotes (objectText (controlFields c)) (controlValue c) := by
  have hcontrol := h c.control (by simp [controlStrings])
  have hscenario := h c.scenario (by simp [controlStrings])
  have haction := h c.expectedAction (by simp [controlStrings])
  have hevidence := h c.evidence (by simp [controlStrings])
  have hlast := members_end_text "      \"evidence\": \"" "evidence" hevidence
    (by decide : IsBlank [' ', ' ', ' ', ' '])
  have hmembers := Entry.members_flatMap
    [.text "      \"control\": \"" "control" hcontrol,
      .text "      \"scenario\": \"" "scenario" hscenario,
      .text "      \"expected_action\": \"" "expected_action" haction,
      .member "      \"executed\": " "executed" (denotes_boolean c.executed)] hlast
  have hobject := denotes_object (Members.blank (by decide : IsBlank ['\n']) hmembers)
  simpa [objectText, controlFields, jsonEscape, controlValue, Entry.named, Entry.text,
    Entry.member] using hobject

/-- The first median stands alone, and each later one behind a comma. -/
theorem flatten_medianPieces_cons (fmt : Format K) (median : K) (runMedians : List K) :
    (medianPieces fmt (median :: runMedians)).flatten =
      fmt.fixed 4 median ++ runMedians.flatMap fun m => ',' :: ' ' :: fmt.fixed 4 m := by
  have hcomma : lit ", " = [',', ' '] := lit_ofList _
  have hmap : (runMedians.mapIdx fun _ m => [lit ", ", fmt.fixed 4 m]).flatten.flatten =
      runMedians.flatMap fun m => ',' :: ' ' :: fmt.fixed 4 m := by
    induction runMedians with
    | nil => rfl
    | cons m runMedians ih =>
        rw [List.mapIdx_cons, List.flatten_cons, List.flatten_append, ih]
        simp [hcomma]
  rw [← hmap]
  simp [medianPieces, List.mapIdx_cons]

theorem elements_medians {runMedians : List K} :
    ∀ {median : K}, (∀ m ∈ median :: runMedians, IsFixedText (fmt.fixed 4 m)) →
      Elements (fmt.fixed 4 median ++
          ((runMedians.flatMap fun m => ',' :: ' ' :: fmt.fixed 4 m) ++ [']']))
        ((median :: runMedians).map fun m => .number (fmt.fixed 4 m)) := by
  induction runMedians with
  | nil =>
      intro median h
      exact elements_last (denotes_fixed (h median List.mem_cons_self)) (by decide : IsBlank [])
  | cons next runMedians ih =>
      intro median h
      have hrest := ih fun m hm => h m (List.mem_cons_of_mem median hm)
      have hcons := Elements.cons (denotes_fixed (h median List.mem_cons_self))
        (by decide : IsBlank [' ']) hrest
      simpa using hcons

theorem denotes_medians {runMedians : List K}
    (h : ∀ m ∈ runMedians, IsFixedText (fmt.fixed 4 m)) :
    Denotes ('[' :: ((medianPieces fmt runMedians).flatten ++ [']']))
      (.array (runMedians.map fun m => .number (fmt.fixed 4 m))) := by
  cases runMedians with
  | nil => exact denotes_array_nil (by decide : IsBlank [])
  | cons median runMedians =>
      rw [flatten_medianPieces_cons, List.append_assoc]
      exact denotes_array (elements_medians h)

/-- The limits that the report is held to, which are constants. -/
def criteriaEntry : Entry :=
  .object "  \"acceptance_criteria\": \x7b\n" "acceptance_criteria"
    (Entry.members_append
      [.line "    \"repeatability_cv_percent_max\": 10.0,\n" "repeatability_cv_percent_max"
          (denotes_number (show IsNumber ['1', '0', '.', '0'] from
            ⟨.whole, .fraction, rfl, rfl, by decide⟩)),
        .line "    \"classification_error_percent_max\": 5.0,\n" "classification_error_percent_max"
          (denotes_number (show IsNumber ['5', '.', '0'] from
            ⟨.whole, .fraction, rfl, rfl, by decide⟩))]
      (members_end_line "    \"tvla_reference_threshold\": 4.5\n" "tvla_reference_threshold"
        (denotes_number (show IsNumber ['4', '.', '5'] from
          ⟨.whole, .fraction, rfl, rfl, by decide⟩))
        (by decide : IsBlank [' ', ' '])))

theorem criteriaPieces_eq : criteriaPieces = criteriaEntry.pieces := rfl

section Entries

variable {result : EvaluationLabResult K} {tvlaClean : TvlaResult K} {runMedians : List K}
variable (h : Printable fmt result tvlaClean runMedians)

include h

/-- A number with a fraction. -/
theorem Printable.denotes {v : K} (hmem : v ∈ reportNumbers result tvlaClean runMedians) :
    Denotes (fmt.fixed 4 v) (.number (fmt.fixed 4 v)) :=
  denotes_fixed (h.numbers v hmem)

def numberEntries : List Entry :=
  [.member "  \"runs\": " "runs" (denotes_integer result.runs),
    .member "  \"trace_samples\": " "trace_samples" (denotes_integer result.traceSamples),
    .member "  \"averaging_window\": " "averaging_window"
      (denotes_integer result.averagingWindow),
    .member "  \"simulated_capture_faults\": " "simulated_capture_faults"
      (denotes_integer result.simulatedCaptureFaults),
    .member "  \"recovered_captures\": " "recovered_captures"
      (denotes_integer result.recoveredCaptures),
    .member "  \"recovery_rate_percent\": " "recovery_rate_percent"
      (h.denotes (v := result.recoveryRatePercent) (by simp [reportNumbers])),
    .member "  \"aligned_samples\": " "aligned_samples" (denotes_decimal result.alignedSamples),
    .member "  \"alignment_loss_percent\": " "alignment_loss_percent"
      (h.denotes (v := result.alignmentLossPercent) (by simp [reportNumbers])),
    .member "  \"fixed_input_count\": " "fixed_input_count"
      (denotes_decimal result.fixedMetrics.inputCount),
    .member "  \"fixed_kept_count\": " "fixed_kept_count"
      (denotes_decimal result.fixedMetrics.keptCount),
    .member "  \"fixed_rejected_count\": " "fixed_rejected_count"
      (denotes_decimal result.fixedMetrics.rejectedCount),
    .member "  \"random_input_count\": " "random_input_count"
      (denotes_decimal result.randomMetrics.inputCount),
    .member "  \"random_kept_count\": " "random_kept_count"
      (denotes_decimal result.randomMetrics.keptCount),
    .member "  \"random_rejected_count\": " "random_rejected_count"
      (denotes_decimal result.randomMetrics.rejectedCount),
    .member "  \"snr_linear\": " "snr_linear"
      (h.denotes (v := result.snrLinear) (by simp [reportNumbers])),
    .member "  \"snr_db\": " "snr_db"
      (h.denotes (v := result.snrDb) (by simp [reportNumbers])),
    .member "  \"classification_error_percent\": " "classification_error_percent"
      (h.denotes (v := result.classificationErrorPercent) (by simp [reportNumbers])),
    .member "  \"repeatability_cv_percent\": " "repeatability_cv_percent"
      (h.denotes (v := result.repeatabilityCvPercent) (by simp [reportNumbers])),
    .member "  \"tvla_raw_t\": " "tvla_raw_t"
      (h.denotes (v := result.tvla.tStatistic) (by simp [reportNumbers])),
    .member "  \"tvla_clean_t\": " "tvla_clean_t"
      (h.denotes (v := tvlaClean.tStatistic) (by simp [reportNumbers])),
    .member "  \"tvla_threshold\": " "tvla_threshold"
      (h.denotes (v := result.tvla.threshold) (by simp [reportNumbers])),
    .member "  \"tvla_raw_threshold_exceeded\": " "tvla_raw_threshold_exceeded"
      (denotes_boolean result.tvla.thresholdExceeded),
    .member "  \"tvla_clean_threshold_exceeded\": " "tvla_clean_threshold_exceeded"
      (denotes_boolean tvlaClean.thresholdExceeded),
    .member "  \"repeatability_ok\": " "repeatability_ok"
      (denotes_boolean result.repeatabilityOk),
    .member "  \"leakage_detected\": " "leakage_detected"
      (denotes_boolean result.leakageDetected)]

theorem numberPieces_eq :
    numberPieces fmt result tvlaClean = (numberEntries h).flatMap Entry.pieces := by
  unfold numberPieces numberEntries Entry.member
  simp only [List.append_assoc, List.append_nil, List.flatMap_cons, List.flatMap_nil]

theorem Printable.controlFree {s : String} (hmem : s ∈ reportStrings result) :
    ControlFree s.toList :=
  h.strings s hmem

def platformEntry : Entry :=
  .object "  \"platform\": \x7b\n" "platform"
    (Entry.members_append
      [.text "    \"vendor\": \"" "vendor"
          (h.controlFree (s := result.platform.vendor) (by simp [reportStrings])),
        .text "    \"brand\": \"" "brand"
          (h.controlFree (s := result.platform.brand) (by simp [reportStrings])),
        .text "    \"os_release\": \"" "os_release"
          (h.controlFree (s := result.platform.osRelease) (by simp [reportStrings])),
        .text "    \"machine\": \"" "machine"
          (h.controlFree (s := result.platform.machine) (by simp [reportStrings])),
        .member "    \"physical_cores\": " "physical_cores"
          (denotes_integer result.platform.physicalCores),
        .member "    \"logical_cpus\": " "logical_cpus"
          (denotes_integer result.platform.logicalCpus),
        .member "    \"packages\": " "packages" (denotes_integer result.platform.packages)]
      (members_end_boolean "    \"smt_active\": " "smt_active" result.platform.smtActive
        (by decide : IsBlank [' ', ' '])))

def mediansEntry : Entry :=
  .array "  \"run_medians\": [" "run_medians"
    (denotes_medians fun m hm => h.numbers m (List.mem_append_right _ hm))

/-- The members in front of the controls. -/
def entries : List Entry :=
  [.line "  \"lab\": \"evaluation_validation_lab\",\n" "lab"
      (denotes_string (spells_bare (by decide : IsBare (lit "evaluation_validation_lab")))),
    .line "  \"scope\": \"local_synthetic_reference_fixture\",\n" "scope"
      (denotes_string
        (spells_bare (by decide : IsBare (lit "local_synthetic_reference_fixture"))))] ++
    numberEntries h ++ [criteriaEntry, platformEntry h, mediansEntry h]

theorem platformPieces_eq : platformPieces result.platform = (platformEntry h).pieces := by
  unfold platformPieces platformEntry Entry.object Entry.text Entry.member
  simp only [List.append_assoc, List.append_nil, List.flatMap_cons, List.flatMap_nil,
    List.cons_append, List.nil_append, jsonEscape]

theorem reportPieces_eq :
    reportPieces fmt result tvlaClean runMedians =
      [lit "\x7b\n"] ++ (entries h).flatMap Entry.pieces ++
        ([lit "  \"control_evaluation\": [\n"] ++ objects controlFields result.controls ++
          [lit "  ]\n"]) ++ [lit "\x7d\n"] := by
  unfold reportPieces entries
  rw [numberPieces_eq h, criteriaPieces_eq, platformPieces_eq h]
  unfold mediansEntry Entry.array Entry.line
  simp only [List.append_assoc, List.append_nil, List.flatMap_append, List.flatMap_cons,
    List.flatMap_nil, List.cons_append, List.nil_append]

end Entries

/-- The report has an object for each control and a number for each median. -/
structure IsReport (fmt : Format K) (result : EvaluationLabResult K) (runMedians : List K)
    (text : Text) (members : List (Text × Json)) : Prop where
  read : readJson text = some (.object members)
  names : (members.map Prod.fst).Nodup
  medians : (lit "run_medians", Json.array (runMedians.map fun m => .number (fmt.fixed 4 m))) ∈
    members
  controls : (lit "control_evaluation", Json.array (result.controls.map controlValue)) ∈ members

/-- The names of the report, from top to bottom. -/
def reportNames : List String :=
  ["lab", "scope", "runs", "trace_samples", "averaging_window", "simulated_capture_faults",
    "recovered_captures", "recovery_rate_percent", "aligned_samples", "alignment_loss_percent",
    "fixed_input_count", "fixed_kept_count", "fixed_rejected_count", "random_input_count",
    "random_kept_count", "random_rejected_count", "snr_linear", "snr_db",
    "classification_error_percent", "repeatability_cv_percent", "tvla_raw_t", "tvla_clean_t",
    "tvla_threshold", "tvla_raw_threshold_exceeded", "tvla_clean_threshold_exceeded",
    "repeatability_ok", "leakage_detected", "acceptance_criteria", "platform", "run_medians",
    "control_evaluation"]

/-- The names do not depend on what stands behind them. -/
theorem names_eq {result : EvaluationLabResult K} {tvlaClean : TvlaResult K} {runMedians : List K}
    (h : Printable fmt result tvlaClean runMedians) (controls : Json) :
    ((entries h).map Entry.named ++ [(lit "control_evaluation", controls)]).map Prod.fst =
      reportNames.map lit := by
  rfl

theorem isReport_reportPieces {result : EvaluationLabResult K} {tvlaClean : TvlaResult K}
    {runMedians : List K} (h : Printable fmt result tvlaClean runMedians) :
    ∃ members, IsReport fmt result runMedians
      (reportPieces fmt result tvlaClean runMedians).flatten members := by
  have hcontrols : ∀ c ∈ result.controls,
      Denotes (objectText (controlFields c)) (controlValue c) := by
    intro c hc
    refine denotes_control fun s hs => h.strings s ?_
    exact List.mem_append_right _ (List.mem_flatMap.2 ⟨c, hc, hs⟩)
  have hlast := members_end_objects "  \"control_evaluation\": [\n" "control_evaluation" hcontrols
  have hread := @readJson_report (entries h) _ _ hlast
  rw [← reportPieces_eq h] at hread
  have hnodup : reportNames.Nodup := by decide +kernel
  refine ⟨_, hread, ?_, ?_, List.mem_append_right _ List.mem_cons_self⟩
  · rw [names_eq]
    exact hnodup.map lit_injective
  · have hmem : mediansEntry h ∈ entries h := by simp [entries]
    exact List.mem_append_left _ (List.mem_map_of_mem (f := Entry.named) hmem)

end EvaluationLab

/-! ## `operational_lab.cpp` -/

namespace OperationalLab

def reportNumbers (result : OperationalLabResult K) : List K :=
  [result.detectionRatePercent, result.falsePositiveRatePercent, result.recoveryRatePercent]

def scenarioStrings (scenario : OperationalScenarioResult) : List String :=
  [scenario.name, scenario.stage, scenario.expectedControl]

structure Printable (fmt : Format K) (result : OperationalLabResult K) : Prop where
  numbers : ∀ v ∈ reportNumbers result, IsFixedText (fmt.fixed 2 v)
  strings : ∀ s ∈ result.scenarios.flatMap scenarioStrings, ControlFree s.toList

/-- The object that stands for a scenario. -/
def scenarioValue (scenario : OperationalScenarioResult) : Json :=
  .object [(lit "name", .string scenario.name.toList),
    (lit "stage", .string scenario.stage.toList),
    (lit "expected_control", .string scenario.expectedControl.toList),
    (lit "detected", .bool scenario.detected), (lit "recovered", .bool scenario.recovered)]

theorem denotes_scenario {scenario : OperationalScenarioResult}
    (h : ∀ s ∈ scenarioStrings scenario, ControlFree s.toList) :
    Denotes (objectText (scenarioFields scenario)) (scenarioValue scenario) := by
  have hname := h scenario.name (by simp [scenarioStrings])
  have hstage := h scenario.stage (by simp [scenarioStrings])
  have hcontrol := h scenario.expectedControl (by simp [scenarioStrings])
  have hlast := members_end_boolean "      \"recovered\": " "recovered" scenario.recovered
    (by decide : IsBlank [' ', ' ', ' ', ' '])
  have hmembers := Entry.members_flatMap
    [.text "      \"name\": \"" "name" hname, .text "      \"stage\": \"" "stage" hstage,
      .text "      \"expected_control\": \"" "expected_control" hcontrol,
      .member "      \"detected\": " "detected" (denotes_boolean scenario.detected)] hlast
  have hobject := denotes_object (Members.blank (by decide : IsBlank ['\n']) hmembers)
  simpa [objectText, scenarioFields, jsonEscape, scenarioValue, Entry.named, Entry.text,
    Entry.member] using hobject

section Entries

variable {result : OperationalLabResult K} (h : Printable fmt result)

include h

/-- The members in front of the scenarios. -/
def entries : List Entry :=
  [.line "  \"lab\": \"operational_defensive_simulation\",\n" "lab"
      (denotes_string (spells_bare (by decide : IsBare (lit "operational_defensive_simulation")))),
    .line "  \"reference_boundary\": \"in_memory_synthetic_state_machine\",\n"
      "reference_boundary"
      (denotes_string (spells_bare (by decide : IsBare (lit "in_memory_synthetic_state_machine")))),
    .member "  \"runs\": " "runs" (denotes_integer result.runs),
    .member "  \"events_generated\": " "events_generated"
      (denotes_integer result.eventsGenerated),
    .member "  \"detected_events\": " "detected_events" (denotes_integer result.detectedEvents),
    .member "  \"missed_events\": " "missed_events" (denotes_integer result.missedEvents),
    .member "  \"false_positive_events\": " "false_positive_events"
      (denotes_integer result.falsePositiveEvents),
    .member "  \"recovery_attempts\": " "recovery_attempts"
      (denotes_integer result.recoveryAttempts),
    .member "  \"recovered_events\": " "recovered_events"
      (denotes_integer result.recoveredEvents),
    .member "  \"detection_rate_percent\": " "detection_rate_percent"
      (denotes_fixed (h.numbers result.detectionRatePercent (by simp [reportNumbers]))),
    .member "  \"false_positive_rate_percent\": " "false_positive_rate_percent"
      (denotes_fixed (h.numbers result.falsePositiveRatePercent (by simp [reportNumbers]))),
    .member "  \"recovery_rate_percent\": " "recovery_rate_percent"
      (denotes_fixed (h.numbers result.recoveryRatePercent (by simp [reportNumbers]))),
    .line "  \"real_network_activity\": false,\n" "real_network_activity" denotes_false,
    .line "  \"real_persistence\": false,\n" "real_persistence" denotes_false,
    .line "  \"real_privilege_change\": false,\n" "real_privilege_change" denotes_false,
    .line "  \"external_process_access\": false,\n" "external_process_access" denotes_false]

theorem reportPieces_eq :
    reportPieces fmt result =
      [lit "\x7b\n"] ++ (entries h).flatMap Entry.pieces ++
        ([lit "  \"scenarios\": [\n"] ++ objects scenarioFields result.scenarios ++
          [lit "  ]\n"]) ++ [lit "\x7d\n"] := by
  unfold reportPieces entries Entry.member Entry.line
  simp only [List.append_assoc, List.append_nil, List.flatMap_cons, List.flatMap_nil,
    List.cons_append, List.nil_append]

end Entries

/-- The report has an object for each scenario. -/
structure IsReport (result : OperationalLabResult K) (text : Text)
    (members : List (Text × Json)) : Prop where
  read : readJson text = some (.object members)
  names : (members.map Prod.fst).Nodup
  scenarios : (lit "scenarios", Json.array (result.scenarios.map scenarioValue)) ∈ members

def reportNames : List String :=
  ["lab", "reference_boundary", "runs", "events_generated", "detected_events", "missed_events",
    "false_positive_events", "recovery_attempts", "recovered_events", "detection_rate_percent",
    "false_positive_rate_percent", "recovery_rate_percent", "real_network_activity",
    "real_persistence", "real_privilege_change", "external_process_access", "scenarios"]

theorem names_eq {result : OperationalLabResult K} (h : Printable fmt result) (scenarios : Json) :
    ((entries h).map Entry.named ++ [(lit "scenarios", scenarios)]).map Prod.fst =
      reportNames.map lit := by
  rfl

theorem isReport_reportPieces {result : OperationalLabResult K} (h : Printable fmt result) :
    ∃ members, IsReport result (reportPieces fmt result).flatten members := by
  have hscenarios : ∀ scenario ∈ result.scenarios,
      Denotes (objectText (scenarioFields scenario)) (scenarioValue scenario) := by
    intro scenario hscenario
    exact denotes_scenario fun s hs => h.strings s (List.mem_flatMap.2 ⟨scenario, hscenario, hs⟩)
  have hlast := members_end_objects "  \"scenarios\": [\n" "scenarios" hscenarios
  have hread := @readJson_report (entries h) _ _ hlast
  rw [← reportPieces_eq h] at hread
  have hnodup : reportNames.Nodup := by decide +kernel
  refine ⟨_, hread, ?_, List.mem_append_right _ List.mem_cons_self⟩
  rw [names_eq]
  exact hnodup.map lit_injective

end OperationalLab

/-! ## `defensive_lab.cpp` -/

namespace DefensiveLab

def eventStrings (event : LabEvent) : List String :=
  [event.name, event.action, event.disposition]

structure Printable (fmt : Format K) (byteAccuracy exactRate : K) (events : List LabEvent) :
    Prop where
  byteAccuracy : IsFixedText (fmt.fixed 2 byteAccuracy)
  exactRate : IsFixedText (fmt.fixed 2 exactRate)
  strings : ∀ s ∈ events.flatMap eventStrings, ControlFree s.toList

/-- The object that stands for an event. -/
def eventValue (event : LabEvent) : Json :=
  .object [(lit "name", .string event.name.toList), (lit "action", .string event.action.toList),
    (lit "disposition", .string event.disposition.toList), (lit "alert", .bool event.alert),
    (lit "confirmed", .bool event.confirmed)]

theorem denotes_event {event : LabEvent} (h : ∀ s ∈ eventStrings event, ControlFree s.toList) :
    Denotes (objectText (eventFields event)) (eventValue event) := by
  have hname := h event.name (by simp [eventStrings])
  have haction := h event.action (by simp [eventStrings])
  have hdisposition := h event.disposition (by simp [eventStrings])
  have hlast := members_end_boolean "      \"confirmed\": " "confirmed" event.confirmed
    (by decide : IsBlank [' ', ' ', ' ', ' '])
  have hmembers := Entry.members_flatMap
    [.text "      \"name\": \"" "name" hname, .text "      \"action\": \"" "action" haction,
      .text "      \"disposition\": \"" "disposition" hdisposition,
      .member "      \"alert\": " "alert" (denotes_boolean event.alert)] hlast
  have hobject := denotes_object (Members.blank (by decide : IsBlank ['\n']) hmembers)
  simpa [objectText, eventFields, jsonEscape, eventValue, Entry.named, Entry.text,
    Entry.member] using hobject

/-- The report, from top to bottom. -/
def reportMembers (fmt : Format K) (runs triesPerByte : Int) (byteAccuracy exactRate : K)
    (events : List LabEvent) : List (Text × Json) :=
  [(lit "lab", .string (lit "phase5_defensive_lab")),
    (lit "scope", .string (lit "self_contained_local_fixture")),
    (lit "runs", .number (Text.integer runs)),
    (lit "tries_per_byte", .number (Text.integer triesPerByte)),
    (lit "byte_accuracy_percent", .number (fmt.fixed 2 byteAccuracy)),
    (lit "exact_recovery_rate_percent", .number (fmt.fixed 2 exactRate)),
    (lit "simulated_alerts", .number (Text.decimal (events.countP LabEvent.alert))),
    (lit "simulated_confirmed_alerts",
      .number (Text.decimal (events.countP fun event => event.alert && event.confirmed))),
    (lit "simulated_false_positives",
      .number (Text.decimal (events.countP fun event => event.alert && !event.confirmed))),
    (lit "network_access_performed", .bool false), (lit "persistence_performed", .bool false),
    (lit "external_process_access", .bool false),
    (lit "events", .array (events.map eventValue))]

section Entries

variable (runs triesPerByte : Int) {byteAccuracy exactRate : K} {events : List LabEvent}
  (h : Printable fmt byteAccuracy exactRate events)

include h

/-- The members in front of the events. -/
def entries : List Entry :=
  [.line "  \"lab\": \"phase5_defensive_lab\",\n" "lab"
      (denotes_string (spells_bare (by decide : IsBare (lit "phase5_defensive_lab")))),
    .line "  \"scope\": \"self_contained_local_fixture\",\n" "scope"
      (denotes_string (spells_bare (by decide : IsBare (lit "self_contained_local_fixture")))),
    .member "  \"runs\": " "runs" (denotes_integer runs),
    .member "  \"tries_per_byte\": " "tries_per_byte" (denotes_integer triesPerByte),
    .member "  \"byte_accuracy_percent\": " "byte_accuracy_percent" (denotes_fixed h.byteAccuracy),
    .member "  \"exact_recovery_rate_percent\": " "exact_recovery_rate_percent"
      (denotes_fixed h.exactRate),
    .member "  \"simulated_alerts\": " "simulated_alerts"
      (denotes_decimal (events.countP LabEvent.alert)),
    .member "  \"simulated_confirmed_alerts\": " "simulated_confirmed_alerts"
      (denotes_decimal (events.countP fun event => event.alert && event.confirmed)),
    .member "  \"simulated_false_positives\": " "simulated_false_positives"
      (denotes_decimal (events.countP fun event => event.alert && !event.confirmed)),
    .line "  \"network_access_performed\": false,\n" "network_access_performed" denotes_false,
    .line "  \"persistence_performed\": false,\n" "persistence_performed" denotes_false,
    .line "  \"external_process_access\": false,\n" "external_process_access" denotes_false]

theorem reportPieces_eq :
    reportPieces fmt runs triesPerByte byteAccuracy exactRate events =
      [lit "\x7b\n"] ++ (entries runs triesPerByte h).flatMap Entry.pieces ++
        ([lit "  \"events\": [\n"] ++ objects eventFields events ++ [lit "  ]\n"]) ++
          [lit "\x7d\n"] := by
  unfold reportPieces entries Entry.member Entry.line
  simp only [List.append_assoc, List.append_nil, List.flatMap_cons, List.flatMap_nil,
    List.cons_append, List.nil_append]

end Entries

end DefensiveLab

/-! ## The files -/

theorem file_writeChecked_of_takes {d : Destination} {pieces : List Text}
    (h : d.Takes pieces.flatten) : (writeChecked d pieces).file = pieces.flatten := by
  unfold writeChecked
  rw [if_pos h.1]
  exact (Sink.close_putAll d.sink pieces).trans (List.take_of_length_le h.2)

/-- Both reports are JSON objects, whatever number of medians, controls and scenarios they have. -/
theorem reports_wellFormed (fmt : Format K) (d : Destination) :
    (∀ (result : EvaluationLabResult K) (tvlaClean : TvlaResult K) (runMedians : List K),
      EvaluationLab.Printable fmt result tvlaClean runMedians →
      d.Takes (EvaluationLab.reportPieces fmt result tvlaClean runMedians).flatten →
      ∃ members, EvaluationLab.IsReport fmt result runMedians
        (EvaluationLab.writeReport fmt d result tvlaClean runMedians).file members) ∧
    (∀ result : OperationalLabResult K, OperationalLab.Printable fmt result →
      d.Takes (OperationalLab.reportPieces fmt result).flatten →
      ∃ members, OperationalLab.IsReport result (OperationalLab.writeReport fmt d result).file
        members) := by
  constructor
  · intro result tvlaClean runMedians hprintable htakes
    rw [EvaluationLab.writeReport, file_writeChecked_of_takes htakes]
    exact EvaluationLab.isReport_reportPieces hprintable
  · intro result hprintable htakes
    rw [OperationalLab.writeReport, file_writeChecked_of_takes htakes]
    exact OperationalLab.isReport_reportPieces hprintable

/-! ## A report of each kind -/

def alertReview : ControlEvaluation :=
  { control := "detection"
    scenario := "burst of \"alerts\"\n"
    expectedAction := "review"
    evidence := "C:\\log"
    executed := true }

def noMetrics : RobustMetrics ℚ :=
  { inputCount := 0, keptCount := 0, rejectedCount := 0, mean := 0, median := 0, stddev := 0 }

def noTvla : TvlaResult ℚ :=
  { fixedCount := 0
    randomCount := 0
    fixedMean := 0
    randomMean := 0
    fixedStddev := 0
    randomStddev := 0
    tStatistic := -(1 / 3)
    absT := 1 / 3
    threshold := 9 / 2
    thresholdExceeded := false }

def oneControl : EvaluationLabResult ℚ :=
  { runs := 2
    traceSamples := 64
    averagingWindow := 8
    simulatedCaptureFaults := 0
    recoveredCaptures := 0
    recoveryRatePercent := 100
    alignedSamples := 128
    alignmentLossPercent := 0
    fixedMetrics := noMetrics
    randomMetrics := noMetrics
    snrLinear := 1 / 8
    snrDb := -9
    classificationErrorPercent := 0
    repeatabilityCvPercent := 0
    tvla := noTvla
    repeatabilityOk := true
    leakageDetected := false
    platform :=
      { vendor := "GenuineIntel"
        brand := "Tab\tCPU"
        osRelease := "6.8.0"
        machine := "x86_64"
        physicalCores := 1
        logicalCpus := 2
        packages := 1
        smtActive := true }
    controls := [alertReview]
    reportWritten := false
    reportPath := "report.json" }

def oneScenario : OperationalLabResult ℚ :=
  { oneRun with
    scenarios :=
      [{ name := "beacon"
         stage := "c2"
         expectedControl := "egress \\ filter"
         detected := true
         recovered := false }] }

/-- A file that is just large enough. -/
def fitting (text : Text) : Destination :=
  { opens := true, sink := { limit := text.length, drain := fun _ _ => 0 } }

theorem reports_wellFormed_two :
    (∃ members, EvaluationLab.IsReport streamFormat oneControl [41 / 2, 43 / 2]
      (EvaluationLab.writeReport streamFormat
        (fitting (EvaluationLab.reportPieces streamFormat oneControl noTvla
          [41 / 2, 43 / 2]).flatten) oneControl noTvla [41 / 2, 43 / 2]).file members) ∧
    (∃ members, OperationalLab.IsReport oneScenario
      (OperationalLab.writeReport streamFormat
        (fitting (OperationalLab.reportPieces streamFormat oneScenario).flatten)
        oneScenario).file members) := by
  constructor
  · refine (reports_wellFormed streamFormat _).1 oneControl noTvla [41 / 2, 43 / 2] ?_
      ⟨rfl, le_refl _⟩
    exact
      { numbers := fun v _ => isFixedText_fixed (by decide) v
        strings := by decide +kernel }
  · refine (reports_wellFormed streamFormat _).2 oneScenario ?_ ⟨rfl, le_refl _⟩
    exact
      { numbers := fun v _ => isFixedText_fixed (by decide) v
        strings := by decide +kernel }

end Report
end LatencyAnalyzer

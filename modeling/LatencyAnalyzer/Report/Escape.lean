import LatencyAnalyzer.Lib.JsonReader
import LatencyAnalyzer.Report.Json

/-!
# Escape — what a JSON reader makes of `json_escape`

The backslash, the quote and three of the control characters are escaped.  The grammar admits none
of the other control characters within a string.
-/

namespace LatencyAnalyzer
namespace Report

open Cxx
open Lib
open Lib.Json

/-- The text has no control character but those that `json_escape` knows. -/
def ControlFree (text : Text) : Prop :=
  ∀ c ∈ text, c.toNat < 32 → c = '\n' ∨ c = '\r' ∨ c = '\t'

instance (text : Text) : Decidable (ControlFree text) :=
  List.decidableBAll _ text

/-- A value between quotes, as the reports print it. -/
def quoted (encoded : Text) : Text :=
  '"' :: (encoded ++ ['"'])

theorem spells_escapeChar {c : Char} (h : c.toNat < 32 → c = '\n' ∨ c = '\r' ∨ c = '\t') :
    Spells (escapeChar c) [c] := by
  unfold escapeChar
  split
  · exact spells_escaped rfl
  · exact spells_escaped rfl
  · exact spells_escaped rfl
  · exact spells_escaped rfl
  · exact spells_escaped rfl
  · rename_i hbackslash hquote hlf hcr htab
    refine spells_unescaped ⟨?_, hquote, hbackslash⟩
    by_contra hlow
    rcases h (Nat.lt_of_not_le hlow) with rfl | rfl | rfl
    · exact hlf rfl
    · exact hcr rfl
    · exact htab rfl

theorem spells_escape {text : Text} (h : ControlFree text) : Spells (escape text) text :=
  spells_flatMap fun c hc => spells_escapeChar (h c hc)

/-- The reader stops at a control character that is copied as it is. -/
theorem foldlM_escape_of_control (stack : List Frame) {text : Text} (h : ¬ ControlFree text)
    (rest : Text) :
    ∀ pieces, (escape text ++ rest).foldlM Reader.read ⟨stack, .string ⟨pieces, .plain⟩⟩ =
      none := by
  induction text with
  | nil => exact absurd (fun c hc => nomatch hc) h
  | cons c text ih =>
      intro pieces
      by_cases hc : c.toNat < 32 → c = '\n' ∨ c = '\r' ∨ c = '\t'
      · have htext : ¬ ControlFree text := by
          intro hfree
          refine h fun x hx => ?_
          rcases List.mem_cons.1 hx with rfl | hx
          · exact hc
          · exact hfree x hx
        have hchar := foldlM_inside read_inside_string stack (spells_escapeChar hc pieces)
        rw [escape, List.flatMap_cons, List.append_assoc, foldlM_append_of_run hchar]
        exact ih htext _
      · -- It is none of the five, so it stands for itself.
        rw [not_forall] at hc
        rcases hc with ⟨hlow, hother⟩
        rw [not_or, not_or] at hother
        have hbackslash : c ≠ '\\' := by
          rintro rfl
          exact absurd hlow (by decide)
        have hquote : c ≠ '"' := by
          rintro rfl
          exact absurd hlow (by decide)
        have hcopied : escapeChar c = [c] := by
          unfold escapeChar
          split <;> simp_all
        have hraw : ¬ IsUnescaped c := fun hun => absurd hun.1 (Nat.not_le_of_lt hlow)
        have hread : Reader.read ⟨stack, .string ⟨pieces, .plain⟩⟩ c = none := by
          simp [Reader.read, StringReader.Ends, StringReader.read, hquote, hbackslash, hraw]
        rw [escape, List.flatMap_cons, hcopied]
        change (c :: (text.flatMap escapeChar ++ rest)).foldlM Reader.read _ = _
        rw [List.foldlM_cons, hread]
        rfl

/-- The text is a string literal with this value, and nothing that stands around it matters. -/
def IsLiteral (text value : Text) : Prop :=
  readJson text = some (.string value) ∧ Denotes text (.string value)

theorem isLiteral_escape_iff (text : Text) :
    IsLiteral (quoted (escape text)) text ↔ ControlFree text := by
  constructor
  · rintro ⟨hread, _⟩
    by_contra hcontrol
    have hopen : Reader.read Reader.start '"' = some ⟨[], .string .start⟩ := by
      simp [Reader.read, Reader.startValue, Reader.start, IsWhite]
    rw [readJson, quoted, foldlM_cons_of_step hopen, StringReader.start,
      foldlM_escape_of_control [] hcontrol ['"'] []] at hread
    cases hread
  · intro hfree
    refine ⟨?_, denotes_string (spells_escape hfree)⟩
    rw [readJson, Reader.start, quoted, foldlM_string [] (spells_escape hfree)]
    rfl

/-! ## No two texts are escaped alike -/

/-- A backslash leads in two characters, and any other one stands alone. -/
theorem escapeChar_cases (c : Char) :
    (escapeChar c = [c] ∧ c ≠ '\\') ∨ ∃ d, escapeChar c = ['\\', d] := by
  unfold escapeChar
  split
  · exact Or.inr ⟨'\\', rfl⟩
  · exact Or.inr ⟨'"', rfl⟩
  · exact Or.inr ⟨'n', rfl⟩
  · exact Or.inr ⟨'r', rfl⟩
  · exact Or.inr ⟨'t', rfl⟩
  · rename_i hbackslash _ _ _ _
    exact Or.inl ⟨rfl, hbackslash⟩

theorem escapeChar_injective : Function.Injective escapeChar := by
  intro a b h
  unfold escapeChar at h
  split at h <;> split at h <;> simp_all [lit]

/-- What a text starts with tells its first character. -/
theorem escapeChar_append_inj {a b : Char} {x y : Text}
    (h : escapeChar a ++ x = escapeChar b ++ y) : a = b ∧ x = y := by
  have hcodes : escapeChar a = escapeChar b ∧ x = y := by
    rcases escapeChar_cases a with ⟨ha, hane⟩ | ⟨d, ha⟩
    · rcases escapeChar_cases b with ⟨hb, _⟩ | ⟨e, hb⟩
      · rw [ha, hb] at h ⊢
        simpa using h
      · rw [ha, hb] at h
        injection h with hhead _
        exact absurd hhead hane
    · rcases escapeChar_cases b with ⟨hb, hbne⟩ | ⟨e, hb⟩
      · rw [ha, hb] at h
        injection h with hhead _
        exact absurd hhead.symm hbne
      · rw [ha, hb] at h ⊢
        simpa using h
  exact ⟨escapeChar_injective hcodes.1, hcodes.2⟩

theorem escape_injective : Function.Injective escape := by
  intro s
  induction s with
  | nil =>
      intro t h
      cases t with
      | nil => rfl
      | cons c t =>
          rcases escapeChar_cases c with ⟨hc, _⟩ | ⟨d, hc⟩ <;> simp [escape, hc] at h
  | cons c s ih =>
      intro t h
      cases t with
      | nil =>
          rcases escapeChar_cases c with ⟨hc, _⟩ | ⟨d, hc⟩ <;> simp [escape, hc] at h
      | cons d t =>
          rw [escape, escape, List.flatMap_cons, List.flatMap_cons] at h
          rcases escapeChar_append_inj h with ⟨rfl, hrest⟩
          rw [ih hrest]

/-! ## The three copies -/

/-- The labs with a `json_escape`. -/
inductive Lab
  | evaluation
  | operational
  | defensive
  deriving DecidableEq, Repr

def Lab.jsonEscape : Lab → String → Text
  | .evaluation => EvaluationLab.jsonEscape
  | .operational => OperationalLab.jsonEscape
  | .defensive => DefensiveLab.jsonEscape

theorem Lab.jsonEscape_eq (lab : Lab) (value : String) :
    lab.jsonEscape value = escape value.toList := by
  cases lab <;> rfl

/-- No copy gives two values the same text.  The text is a literal of the value unless a control
character is copied. -/
theorem jsonEscape_literal_iff (lab : Lab) :
    Function.Injective lab.jsonEscape ∧
      ∀ value : String,
        IsLiteral (quoted (lab.jsonEscape value)) value.toList ↔ ControlFree value.toList := by
  constructor
  · intro s t h
    rw [lab.jsonEscape_eq, lab.jsonEscape_eq] at h
    exact String.toList_injective (escape_injective h)
  · intro value
    rw [lab.jsonEscape_eq]
    exact isLiteral_escape_iff value.toList

/-- A start of heading is copied, and no copy of the function makes a literal of it. -/
theorem jsonEscape_control :
    readJson (quoted (EvaluationLab.jsonEscape "\x01")) = none ∧
      readJson (quoted (OperationalLab.jsonEscape "\x01")) = none ∧
      readJson (quoted (DefensiveLab.jsonEscape "\x01")) = none :=
  ⟨rfl, rfl, rfl⟩

end Report
end LatencyAnalyzer

import Mathlib.Data.List.Basic

/-!
# CsvReader — comma-separated values as RFC 4180 describes them

A record is a line of fields with commas between them.  A field in quotes may hold any character,
a quote being doubled; a field without quotes holds none that has a meaning.  Lines may end in a
line feed or in a carriage return and a line feed, and the last one need not end at all.
-/

namespace LatencyAnalyzer
namespace Lib

/-- The characters of a field without quotes. -/
def IsFieldText (c : Char) : Prop :=
  c ≠ ',' ∧ c ≠ '"' ∧ c ≠ '\n' ∧ c ≠ '\r'

instance (c : Char) : Decidable (IsFieldText c) :=
  inferInstanceAs (Decidable (_ ∧ _))

/-- A text that can stand without quotes. -/
def IsPlain (text : List Char) : Prop :=
  ∀ c ∈ text, IsFieldText c

instance (text : List Char) : Decidable (IsPlain text) :=
  List.decidableBAll _ text

namespace Csv

/-! ## The reader -/

/-- Where in a field the reader is. -/
inductive Mode
  | start
  | plain
  | quoted
  /-- Behind a quote in a field in quotes: its last one, or the first of two. -/
  | closed
  /-- Behind a carriage return. -/
  | carriage
  deriving DecidableEq, Repr

structure Reader where
  records : List (List (List Char))
  fields : List (List Char)
  field : List Char
  mode : Mode

namespace Reader

/-- In front of a field. -/
def fresh (records : List (List (List Char))) (fields : List (List Char)) : Reader :=
  { records := records, fields := fields, field := [], mode := .start }

def push (s : Reader) (c : Char) (mode : Mode) : Reader :=
  { s with field := s.field ++ [c], mode := mode }

def endField (s : Reader) : Reader :=
  fresh s.records (s.fields ++ [s.field])

def endRecord (s : Reader) : Reader :=
  fresh (s.records ++ [s.fields ++ [s.field]]) []

/-- A character behind a field. -/
def separate (s : Reader) (c : Char) : Option Reader :=
  if c = ',' then some s.endField
  else if c = '\n' then some s.endRecord
  else if c = '\r' then some { s with mode := .carriage }
  else none

def read (s : Reader) (c : Char) : Option Reader :=
  match s.mode with
  | .start =>
      if IsFieldText c then some (s.push c .plain)
      else if c = '"' then some { s with mode := .quoted }
      else s.separate c
  -- A quote is no text, and it separates nothing.
  | .plain => if IsFieldText c then some (s.push c .plain) else s.separate c
  | .quoted => if c = '"' then some { s with mode := .closed } else some (s.push c .quoted)
  | .closed => if c = '"' then some (s.push c .quoted) else s.separate c
  | .carriage => if c = '\n' then some s.endRecord else none

/-- The end of the text: the records, if it does not come within a field in quotes. -/
def finish (s : Reader) : Option (List (List (List Char))) :=
  match s.mode with
  | .quoted | .carriage => none
  | .start => if s.fields = [] then some s.records else some s.endRecord.records
  | .plain | .closed => some s.endRecord.records

end Reader

/-- The records of a text, with `none` for a text that is not comma-separated values. -/
def readCsv (text : List Char) : Option (List (List (List Char))) :=
  (text.foldlM Reader.read (Reader.fresh [] [])).bind Reader.finish

/-! ## What a writer writes -/

/-- A field, without quotes or in quotes. -/
inductive Cell
  | plain (text : List Char) (h : IsPlain text)
  | quoted (text : List Char)

inductive LineBreak
  | lf
  | crlf

def LineBreak.chars : LineBreak → List Char
  | .lf => ['\n']
  | .crlf => ['\r', '\n']

/-- A character of a field in quotes. -/
def escapeQuote (c : Char) : List Char :=
  if c = '"' then ['"', '"'] else [c]

namespace Cell

def contents : Cell → List Char
  | .plain text _ => text
  | .quoted text => text

def render : Cell → List Char
  | .plain text _ => text
  | .quoted text => '"' :: (text.flatMap escapeQuote ++ ['"'])

end Cell

def renderRecord (lineBreak : LineBreak) : List Cell → List Char
  | [] => lineBreak.chars
  | [cell] => cell.render ++ lineBreak.chars
  | cell :: next :: rest => cell.render ++ ',' :: renderRecord lineBreak (next :: rest)

theorem flatMap_escapeQuote {text : List Char} (h : '"' ∉ text) :
    text.flatMap escapeQuote = text := by
  have hone : ∀ c ∈ text, escapeQuote c = [c] := by
    intro c hc
    have hne : c ≠ '"' := ne_of_mem_of_not_mem hc h
    simp [escapeQuote, hne]
  rw [List.flatMap_congr hone, List.flatMap_singleton']

/-! ## Reading what was written -/

namespace Reader

/-- Behind a field, where a separator may stand. -/
def Ended (s : Reader) : Prop :=
  s.mode = .start ∨ s.mode = .plain ∨ s.mode = .closed

variable {s : Reader}

theorem read_of_ended (h : s.Ended) {c : Char} (htext : ¬ IsFieldText c) (hquote : c ≠ '"') :
    s.read c = s.separate c := by
  unfold read
  rcases h with hmode | hmode | hmode
  · simp only [hmode, htext, hquote, if_false]
  · simp only [hmode, htext, if_false]
  · simp only [hmode, hquote, if_false]

theorem read_comma (h : s.Ended) : s.read ',' = some s.endField := by
  rw [read_of_ended h (by decide) (by decide)]
  simp [separate]

theorem foldlM_lineBreak (h : s.Ended) (lineBreak : LineBreak) :
    lineBreak.chars.foldlM read s = some s.endRecord := by
  cases lineBreak with
  | lf =>
      have hread : s.read '\n' = some s.endRecord := by
        rw [read_of_ended h (by decide) (by decide)]
        simp [separate]
      simp [LineBreak.chars, hread]
  | crlf =>
      have hread : s.read '\r' = some { s with mode := .carriage } := by
        rw [read_of_ended h (by decide) (by decide)]
        simp [separate]
      have hnext : ({ s with mode := .carriage } : Reader).read '\n' = some s.endRecord := by
        simp [read, endRecord]
      simp [LineBreak.chars, hread, hnext]

/-- A field without quotes, from its first character or from a later one. -/
theorem foldlM_plain {text : List Char} (htext : IsPlain text) :
    ∀ s : Reader, s.mode = .start ∨ s.mode = .plain →
      ∃ s' : Reader, text.foldlM read s = some s' ∧ s'.Ended ∧ s'.records = s.records ∧
        s'.fields = s.fields ∧ s'.field = s.field ++ text := by
  induction text with
  | nil =>
      intro s hs
      refine ⟨s, rfl, ?_, rfl, rfl, (List.append_nil _).symm⟩
      rcases hs with hmode | hmode
      · exact Or.inl hmode
      · exact Or.inr (Or.inl hmode)
  | cons c text ih =>
      intro s hs
      have hc : IsFieldText c := htext c List.mem_cons_self
      have hread : s.read c = some (s.push c .plain) := by
        unfold read
        rcases hs with hmode | hmode <;> simp only [hmode, hc, if_true]
      rcases ih (fun x hx => htext x (List.mem_cons_of_mem c hx)) (s.push c .plain) (Or.inr rfl)
        with ⟨s', hfold, hended, hrecords, hfields, hfield⟩
      refine ⟨s', ?_, hended, hrecords, hfields, ?_⟩
      · rw [List.foldlM_cons, hread]
        exact hfold
      · rw [hfield]
        simp [push]

/-- A field in quotes, behind its first one. -/
theorem foldlM_escapeQuote (text : List Char) :
    ∀ s : Reader, s.mode = .quoted →
      (text.flatMap escapeQuote).foldlM read s = some { s with field := s.field ++ text } := by
  induction text with
  | nil =>
      intro s _
      simp
  | cons c text ih =>
      intro s hmode
      -- A quote is read as two characters, any other one as itself.
      have hread : (escapeQuote c).foldlM read s = some (s.push c .quoted) := by
        by_cases hc : c = '"'
        · simp [escapeQuote, hc, read, hmode, push]
        · simp [escapeQuote, hc, read, hmode]
      rw [List.flatMap_cons, List.foldlM_append, hread]
      calc
        (text.flatMap escapeQuote).foldlM read (s.push c .quoted)
            = some { s.push c .quoted with field := (s.push c .quoted).field ++ text } :=
              ih (s.push c .quoted) rfl
        _ = some { s with field := s.field ++ c :: text } := by
              simp [push, hmode]

theorem foldlM_cell (records : List (List (List Char))) (fields : List (List Char))
    (cell : Cell) :
    ∃ s : Reader, cell.render.foldlM read (fresh records fields) = some s ∧ s.Ended ∧
      s.records = records ∧ s.fields = fields ∧ s.field = cell.contents := by
  cases cell with
  | plain text h =>
      rcases foldlM_plain h (fresh records fields) (Or.inl rfl)
        with ⟨s, hfold, hended, hrecords, hfields, hfield⟩
      exact ⟨s, hfold, hended, hrecords, hfields, hfield⟩
  | quoted text =>
      have hopen : (fresh records fields).read '"' =
          some { fresh records fields with mode := .quoted } := by
        simp [read, fresh, IsFieldText]
      refine ⟨{ fresh records fields with field := text, mode := .closed }, ?_,
        Or.inr (Or.inr rfl), rfl, rfl, rfl⟩
      rw [Cell.render, List.foldlM_cons, hopen]
      simp [foldlM_escapeQuote, fresh, read]

theorem foldlM_record (lineBreak : LineBreak) (records : List (List (List Char)))
    (cells : List Cell) (hne : cells ≠ []) :
    ∀ fields, (renderRecord lineBreak cells).foldlM read (fresh records fields) =
      some (fresh (records ++ [fields ++ cells.map Cell.contents]) []) := by
  induction cells with
  | nil => exact absurd rfl hne
  | cons cell rest ih =>
      intro fields
      rcases foldlM_cell records fields cell
        with ⟨s, hfold, hended, hrecords, hfields, hfield⟩
      cases rest with
      | nil =>
          rw [renderRecord, List.foldlM_append, hfold]
          simp [foldlM_lineBreak hended, endRecord, hrecords, hfields, hfield]
      | cons next rest =>
          -- The comma leads to the next field of the same record.
          rw [renderRecord, List.foldlM_append, hfold]
          simp [read_comma hended, endField, hrecords, hfields, hfield, ih (by simp)]

theorem foldlM_records (lineBreak : LineBreak) (rows : List (List Cell))
    (hne : ∀ row ∈ rows, row ≠ []) :
    ∀ records, (rows.flatMap (renderRecord lineBreak)).foldlM read (fresh records []) =
      some (fresh (records ++ rows.map (List.map Cell.contents)) []) := by
  induction rows with
  | nil =>
      intro records
      simp
  | cons row rows ih =>
      intro records
      have hrow := foldlM_record lineBreak records row (hne row List.mem_cons_self) []
      rw [List.flatMap_cons, List.foldlM_append, hrow]
      simp [ih (fun x hx => hne x (List.mem_cons_of_mem row hx))]

end Reader

/-- The fields come back as they were, in quotes or not. -/
theorem readCsv_flatMap_renderRecord (lineBreak : LineBreak) (rows : List (List Cell))
    (hne : ∀ row ∈ rows, row ≠ []) :
    readCsv (rows.flatMap (renderRecord lineBreak)) =
      some (rows.map (List.map Cell.contents)) := by
  unfold readCsv
  rw [Reader.foldlM_records lineBreak rows hne]
  simp [Reader.finish, Reader.fresh]

/-! ## Fields by name -/

/-- The field of a record under a name of the header. -/
def fieldUnder (header record : List (List Char)) (name : List Char) : Option (List Char) :=
  (header.zip record).lookup name

section Columns

variable {κ : Type*} {columns : List κ} {name entry : κ → List Char}

/-- Where the names are distinct, a record has under each name what was put there. -/
theorem fieldUnder_map (hinjective : Function.Injective name) {column : κ}
    (hmem : column ∈ columns) :
    fieldUnder (columns.map name) (columns.map entry) (name column) = some (entry column) := by
  unfold fieldUnder
  induction columns with
  | nil => cases hmem
  | cons first rest ih =>
      rw [List.map_cons, List.map_cons, List.zip_cons_cons, List.lookup_cons]
      by_cases hfirst : name column = name first
      · rw [hinjective hfirst]
        simp
      · have hrest : column ∈ rest := by
          rcases List.mem_cons.1 hmem with rfl | hrest
          · exact absurd rfl hfirst
          · exact hrest
        have hbeq : (name column == name first) = false := by simpa using hfirst
        rw [hbeq]
        exact ih hrest

end Columns

end Csv

end Lib
end LatencyAnalyzer

import LatencyAnalyzer.Lib.JsonReader

/-!
# JsonPrefix — the beginnings of a JSON text

A file that was not written to its end holds the beginning of a text.  The beginning of a JSON text
is no JSON text itself, unless only white space is missing or the text is a number: a number can go
on with further digits, and everything else shows by its last character that it is complete.
-/

namespace LatencyAnalyzer
namespace Lib
namespace Json

def IsNumeral : Json → Prop
  | .number _ => True
  | _ => False

namespace Reader

/-! ## Behind the text -/

/-- In a number that is the whole text, or behind it. -/
def AtNumeral (s : Reader) : Prop :=
  match s.stack, s.mode with
  | [], .number _ _ => True
  | [], .done v => v.IsNumeral
  | _, _ => False

theorem AtNumeral.read {s s' : Reader} (h : s.AtNumeral) {c : Char} (hread : s.read c = some s') :
    s'.AtNumeral := by
  rcases s with ⟨stack, mode⟩
  cases stack with
  | cons frame stack => cases mode <;> exact h.elim
  | nil =>
      cases mode with
      | number part text =>
          unfold Reader.read at hread
          dsimp only at hread
          split at hread
          · cases hread
            trivial
          · -- Only white space may follow a number that no array or object holds.
            split at hread
            · have hblank : IsWhite c ∧ s' = endValue [] (.number text) := by
                unfold separate endValue at hread
                dsimp only at hread
                split at hread
                · rename_i hc
                  exact ⟨hc, (Option.some.inj hread).symm⟩
                · cases hread
              rw [hblank.2]
              trivial
            · cases hread
      | done v =>
          unfold Reader.read separate at hread
          dsimp only at hread
          split at hread
          · cases hread
            exact h
          · cases hread
      | _ => exact h.elim

theorem AtNumeral.run {s s' : Reader} (h : s.AtNumeral) {text : List Char}
    (hrun : text.foldlM Reader.read s = some s') : s'.AtNumeral := by
  induction text generalizing s with
  | nil =>
      cases hrun
      exact h
  | cons c text ih =>
      cases hread : s.read c with
      | none =>
          rw [List.foldlM_cons, hread] at hrun
          cases hrun
      | some next =>
          rw [foldlM_cons_of_step hread] at hrun
          exact ih (h.read hread) hrun

theorem AtNumeral.finish {s : Reader} (h : s.AtNumeral) {v : Json} (hfinish : s.finish = some v) :
    v.IsNumeral := by
  rcases s with ⟨stack, mode⟩
  cases stack with
  | cons frame stack => cases mode <;> exact h.elim
  | nil =>
      cases mode with
      | number part text =>
          unfold Reader.finish at hfinish
          dsimp only at hfinish
          split at hfinish
          · cases hfinish
            trivial
          · cases hfinish
      | done w =>
          cases hfinish
          exact h
      | _ => exact h.elim

/-- Behind a complete value there is room for white space only. -/
theorem foldlM_done {v : Json} {text : List Char} {s : Reader}
    (h : text.foldlM Reader.read ⟨[], .done v⟩ = some s) : IsBlank text ∧ s = ⟨[], .done v⟩ := by
  induction text with
  | nil =>
      cases h
      exact ⟨fun _ hc => absurd hc List.not_mem_nil, rfl⟩
  | cons c text ih =>
      by_cases hc : IsWhite c
      · rw [foldlM_cons_of_step (read_white ⟨[], .done v⟩ trivial hc)] at h
        exact ⟨List.forall_mem_cons.2 ⟨hc, (ih h).1⟩, (ih h).2⟩
      · have hread : Reader.read ⟨[], .done v⟩ c = none := if_neg hc
        rw [List.foldlM_cons, hread] at h
        cases h

end Reader

/-- What can be read of a text and of its beginning: either nothing but white space is missing, or
the text is a number. -/
theorem readJson_beginning {text rest : List Char} {v w : Json}
    (htext : readJson (text ++ rest) = some w) (hw : ¬ w.IsNumeral) (h : readJson text = some v) :
    v = w ∧ IsBlank rest := by
  obtain ⟨s, hrun, hfinish⟩ := Option.bind_eq_some_iff.1 h
  obtain ⟨s', hrun', hfinish'⟩ := Option.bind_eq_some_iff.1 htext
  have hrest : rest.foldlM Reader.read s = some s' := by
    rw [← hrun', foldlM_append_of_run hrun]
  -- The reader can stop in two ways only: behind a complete value, or within a number that the rest
  -- may go on with.
  rcases s with ⟨stack, mode⟩
  cases stack with
  | cons frame stack => cases mode <;> cases hfinish
  | nil =>
      cases mode with
      | done u =>
          cases hfinish
          obtain ⟨hblank, rfl⟩ := Reader.foldlM_done hrest
          cases hfinish'
          exact ⟨rfl, hblank⟩
      | number part digits =>
          have hnumeral : Reader.AtNumeral ⟨[], .number part digits⟩ := trivial
          exact absurd ((hnumeral.run hrest).finish hfinish') hw
      | _ => cases hfinish

/-! ## Documents -/

/-- A text that is one object, with a line feed behind its closing brace. -/
def IsDocument (text : List Char) (members : List (List Char × Json)) : Prop :=
  ∃ body, text = body ++ ['\x7d', '\n'] ∧
    (body ++ ['\x7d']).foldlM Reader.read .start = some ⟨[], .done (.object members)⟩

namespace IsDocument

variable {text : List Char} {members : List (List Char × Json)} (h : IsDocument text members)
include h

theorem read : readJson text = some (.object members) := by
  obtain ⟨body, rfl, hrun⟩ := h
  have hend := Reader.read_white ⟨[], .done (.object members)⟩ trivial (by decide : IsWhite '\n')
  have hsplit : body ++ ['\x7d', '\n'] = (body ++ ['\x7d']) ++ ['\n'] := by simp
  unfold readJson
  rw [hsplit, foldlM_append_of_run hrun, foldlM_cons_of_step hend]
  rfl

/-- A document that was cut off is no JSON text, unless it has lost its last line feed only, and
then nothing else is lost. -/
theorem take_iff (n : Nat) (v : Json) :
    readJson (text.take n) = some v ↔ v = .object members ∧ text.length ≤ n + 1 := by
  have hwhole := h.read
  obtain ⟨body, rfl, hrun⟩ := h
  have hlength : (body ++ ['\x7d', '\n']).length = body.length + 2 := by simp
  constructor
  · intro hread
    rw [← List.take_append_drop n (body ++ ['\x7d', '\n'])] at hwhole
    obtain ⟨hv, hblank⟩ := readJson_beginning hwhole id hread
    refine ⟨hv, ?_⟩
    -- Else the brace would be among what is missing.
    by_contra hlt
    have hbrace : '\x7d' ∈ (body ++ ['\x7d', '\n']).drop n := by
      rw [List.drop_append_of_le_length (by omega)]
      simp
    exact absurd (hblank _ hbrace) (by decide)
  · rintro ⟨rfl, hle⟩
    by_cases hall : (body ++ ['\x7d', '\n']).length ≤ n
    · rw [List.take_of_length_le hall]
      exact hwhole
    -- The line feed alone is missing.
    · have hn : n = (body ++ ['\x7d']).length := by
        rw [List.length_append, List.length_singleton]
        omega
      have hsplit : body ++ ['\x7d', '\n'] = (body ++ ['\x7d']) ++ ['\n'] := by simp
      rw [hsplit, hn, List.take_left]
      unfold readJson
      rw [hrun]
      rfl

end IsDocument

/-- The members and the closing brace, behind an opening brace and white space. -/
theorem isDocument_of_members {gap body : List Char} {members : List (List Char × Json)}
    (hgap : IsBlank gap) (h : Members (body ++ ['\x7d']) members) :
    IsDocument ('\x7b' :: (gap ++ body) ++ ['\x7d', '\n']) members := by
  refine ⟨'\x7b' :: (gap ++ body), rfl, ?_⟩
  have hopen : Reader.read .start '\x7b' = some ⟨[], .name []⟩ := rfl
  have hmembers := Members.blank hgap h [] []
  rw [List.cons_append, foldlM_cons_of_step hopen, List.append_assoc, hmembers]
  rfl

end Json
end Lib
end LatencyAnalyzer

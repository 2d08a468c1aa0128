import LatencyAnalyzer.Cxx.Text

/-!
# Stream — `std::getline` on a string stream

A stream holds the characters that are left and the end-of-file flag.  The flag is set when an
extraction looks for a character behind the last one; with the flag set nothing is extracted.
-/

namespace LatencyAnalyzer
namespace Cxx

/-- A string stream that has not failed. -/
structure InStream where
  rest : Text
  eof : Bool

namespace InStream

/-- `std::stringstream ss(text)`. -/
def ofText (text : Text) : InStream :=
  { rest := text, eof := false }

/-- `std::getline(ss, line, delim)`, with `none` when the stream has failed afterwards. -/
def getline (delim : Char) (ss : InStream) : Option (Text × InStream) :=
  if ss.eof then none
  else
    let line := ss.rest.takeWhile (· != delim)
    match ss.rest.dropWhile (· != delim) with
    -- The delimiter is extracted, but not stored.
    | _ :: rest => some (line, { rest := rest, eof := false })
    -- At the end of the text the call fails only if it has extracted nothing.
    | [] => if line = [] then none else some (line, { rest := [], eof := true })

/-- What a stream can still be read for: its characters, and its end. -/
def size (ss : InStream) : Nat :=
  ss.rest.length + if ss.eof then 0 else 1

theorem size_getline_lt {delim : Char} {ss ss' : InStream} {line : Text}
    (h : ss.getline delim = some (line, ss')) : ss'.size < ss.size := by
  unfold getline at h
  split at h
  · cases h
  rename_i heof
  have hlength : (ss.rest.dropWhile (· != delim)).length ≤ ss.rest.length :=
    (List.dropWhile_sublist _).length_le
  dsimp only at h
  split at h
  · rename_i c rest hrest
    rw [hrest, List.length_cons] at hlength
    cases h
    simp only [size, heof]
    simp only [Bool.false_eq_true, if_false]
    omega
  · split at h
    · cases h
    · cases h
      simp only [size, heof, List.length_nil]
      simp

/-! ## The three outcomes -/

theorem takeWhile_absent {delim : Char} {item : Text} (h : delim ∉ item) :
    item.takeWhile (· != delim) = item := by
  rw [List.takeWhile_eq_self_iff]
  intro c hc
  have hne : c ≠ delim := ne_of_mem_of_not_mem hc h
  simpa using hne

theorem dropWhile_absent {delim : Char} {item : Text} (h : delim ∉ item) :
    item.dropWhile (· != delim) = [] := by
  rw [List.dropWhile_eq_nil_iff]
  intro c hc
  have hne : c ≠ delim := ne_of_mem_of_not_mem hc h
  simpa using hne

theorem getline_ofText_nil (delim : Char) : (ofText []).getline delim = none := rfl

theorem getline_of_eof (delim : Char) (rest : Text) :
    getline delim { rest := rest, eof := true } = none := rfl

/-- A line in front of a delimiter. -/
theorem getline_item {delim : Char} {item : Text} (h : delim ∉ item) (rest : Text) :
    (ofText (item ++ delim :: rest)).getline delim = some (item, ofText rest) := by
  have htake : (item ++ delim :: rest).takeWhile (· != delim) = item := by
    rw [List.takeWhile_append, takeWhile_absent h]
    simp
  have hdrop : (item ++ delim :: rest).dropWhile (· != delim) = delim :: rest := by
    rw [List.dropWhile_append, dropWhile_absent h]
    simp
  unfold getline ofText
  simp only [Bool.false_eq_true, if_false, htake, hdrop]

/-- The last line, which no delimiter follows. -/
theorem getline_last {delim : Char} {item : Text} (hne : item ≠ []) (h : delim ∉ item) :
    (ofText item).getline delim = some (item, { rest := [], eof := true }) := by
  unfold getline ofText
  simp only [Bool.false_eq_true, if_false, takeWhile_absent h, dropWhile_absent h, hne]

end InStream

end Cxx
end LatencyAnalyzer

import Mathlib.Data.List.Basic

/-!
# OutputStream — a buffered stream in front of a file that may fill up

An insertion puts its bytes behind the buffered ones and hands some of the buffer on.  The file
takes bytes up to a limit; once it refuses one, the stream has failed and takes no insertion any
more.  Closing hands the rest of the buffer on, and its failure is seen by nobody.
-/

namespace LatencyAnalyzer
namespace Lib

/-- A file that stops accepting bytes after `limit` of them, behind a buffer.  When `written`
bytes are in the file and `pending` in the buffer, `drain written pending` of these are handed
on. -/
structure Sink where
  limit : Nat
  drain : Nat → Nat → Nat

structure Stream (β : Type*) where
  written : List β
  pending : List β
  failed : Bool

namespace Sink

variable {β : Type*} (sink : Sink)

def put (s : Stream β) (piece : List β) : Stream β :=
  if s.failed then s
  else
    let pending := s.pending ++ piece
    -- The file sees the buffer in order; what it refuses stays behind.
    let handed := min (sink.drain s.written.length pending.length) pending.length
    let accepted := min handed (sink.limit - s.written.length)
    { written := s.written ++ pending.take accepted
      pending := pending.drop accepted
      failed := accepted < handed }

def putAll (pieces : List (List β)) : Stream β :=
  pieces.foldl sink.put { written := [], pending := [], failed := false }

/-- The content of the file after the stream is closed. -/
def close (s : Stream β) : List β :=
  s.written ++ s.pending.take (sink.limit - s.written.length)

/-! ## How much is handed on -/

/-- The numbers of written and pending bytes of a stream that does not fail. -/
def drainStep (counts : Nat × Nat) (piece : List β) : Nat × Nat :=
  let pending := counts.2 + piece.length
  let handed := min (sink.drain counts.1 pending) pending
  (counts.1 + handed, pending - handed)

/-- The bytes that the insertions hand on before the stream is closed. -/
def handed (pieces : List (List β)) : Nat :=
  (pieces.foldl sink.drainStep (0, 0)).1

/-! ## What a stream has done -/

/-- A stream after the text `seen`: either everything handed on so far is in the file, or the
file is full and the stream has failed. -/
structure Progress (seen : List β) (counts : Nat × Nat) (s : Stream β) : Prop where
  total : counts.1 + counts.2 = seen.length
  running : counts.1 ≤ sink.limit →
    s = { written := seen.take counts.1, pending := seen.drop counts.1, failed := false }
  stopped : sink.limit < counts.1 → s.failed = true ∧ s.written = seen.take sink.limit

variable {sink}

theorem Progress.put {seen : List β} {counts : Nat × Nat} {s : Stream β}
    (h : sink.Progress seen counts s) (piece : List β) :
    sink.Progress (seen ++ piece) (sink.drainStep counts piece) (sink.put s piece) := by
  rcases counts with ⟨w, p⟩
  have htotal : w + p = seen.length := h.total
  generalize hhanded : min (sink.drain w (p + piece.length)) (p + piece.length) = handed
  have hle : handed ≤ p + piece.length := by omega
  have hcounts : sink.drainStep (w, p) piece = (w + handed, p + piece.length - handed) := by
    simp only [drainStep, hhanded]
  rw [hcounts]
  have hsum : w + handed + (p + piece.length - handed) = (seen ++ piece).length := by
    rw [List.length_append]
    omega
  -- A running stream hands on the next bytes of the text; a failed one is left as it is.
  by_cases hrunning : w ≤ sink.limit
  · have hs := h.running hrunning
    have hwritten : (seen.take w).length = w := by
      rw [List.length_take]
      omega
    have hpending : seen.drop w ++ piece = (seen ++ piece).drop w := by
      rw [List.drop_append_of_le_length (by omega)]
    have hlength : ((seen ++ piece).drop w).length = p + piece.length := by
      rw [List.length_drop, List.length_append]
      omega
    have hput : sink.put s piece =
        { written := (seen ++ piece).take (w + min handed (sink.limit - w))
          pending := (seen ++ piece).drop (w + min handed (sink.limit - w))
          failed := decide (min handed (sink.limit - w) < handed) } := by
      have hprefix : seen.take w = (seen ++ piece).take w := by
        rw [List.take_append_of_le_length (by omega)]
      simp only [hs, Sink.put, hwritten, hpending, hlength, hhanded, List.drop_drop]
      simp [List.take_add, hprefix]
    refine ⟨hsum, ?_, ?_⟩
    · intro hfits
      -- The file takes all that is handed on.
      have hall : min handed (sink.limit - w) = handed := by omega
      rw [hput, hall]
      simp
    · intro hfull
      -- The file takes what it still can, and the stream fails.
      have hpart : min handed (sink.limit - w) = sink.limit - w := by omega
      have hsome : sink.limit - w < handed := by omega
      have hreach : w + (sink.limit - w) = sink.limit := by omega
      rw [hput, hpart, hreach]
      simp [hsome]
  · rcases h.stopped (Nat.lt_of_not_le hrunning) with ⟨hfailed, hwritten⟩
    have hput : sink.put s piece = s := by simp [Sink.put, hfailed]
    refine ⟨hsum, ?_, ?_⟩
    · intro hfits
      exact absurd (Nat.le_trans (Nat.le_add_right w handed) hfits) hrunning
    · intro _
      rw [hput, List.take_append_of_le_length (by omega)]
      exact ⟨hfailed, hwritten⟩

theorem progress_foldl {seen : List β} {counts : Nat × Nat} {s : Stream β}
    (h : sink.Progress seen counts s) (pieces : List (List β)) :
    sink.Progress (seen ++ pieces.flatten) (pieces.foldl sink.drainStep counts)
      (pieces.foldl sink.put s) := by
  induction pieces generalizing seen counts s with
  | nil => simpa using h
  | cons piece pieces ih =>
      have hnext := ih (h.put piece)
      simpa [List.append_assoc] using hnext

theorem progress_putAll (sink : Sink) (pieces : List (List β)) :
    sink.Progress pieces.flatten (pieces.foldl sink.drainStep (0, 0)) (sink.putAll pieces) := by
  have hstart : sink.Progress ([] : List β) (0, 0)
      { written := [], pending := [], failed := false } :=
    ⟨rfl, fun _ => rfl, fun hlt => absurd hlt (Nat.not_lt_zero _)⟩
  simpa [putAll] using progress_foldl hstart pieces

/-- Whenever the file fills up, it ends up with the first bytes of the text. -/
theorem close_putAll (sink : Sink) (pieces : List (List β)) :
    sink.close (sink.putAll pieces) = pieces.flatten.take sink.limit := by
  have h := progress_putAll sink pieces
  generalize pieces.foldl sink.drainStep (0, 0) = counts at h
  rcases counts with ⟨w, p⟩
  have htotal : w + p = pieces.flatten.length := h.total
  by_cases hrunning : w ≤ sink.limit
  · have hwritten : (pieces.flatten.take w).length = w := by
      rw [List.length_take]
      omega
    -- Closing hands the rest of the text on, up to the limit.
    have hreach : w + (sink.limit - w) = sink.limit := by omega
    rw [h.running hrunning]
    calc
      sink.close
          { written := pieces.flatten.take w, pending := pieces.flatten.drop w, failed := false }
          = pieces.flatten.take w ++ (pieces.flatten.drop w).take (sink.limit - w) := by
            simp only [close, hwritten]
      _ = pieces.flatten.take (w + (sink.limit - w)) := List.take_add.symm
      _ = pieces.flatten.take sink.limit := by rw [hreach]
  · rcases h.stopped (Nat.lt_of_not_le hrunning) with ⟨_, hwritten⟩
    have hfull : (pieces.flatten.take sink.limit).length = sink.limit := by
      rw [List.length_take]
      omega
    simp [close, hwritten, hfull]

/-- The stream sees a failure exactly if more is handed on than the file accepts. -/
theorem failed_putAll (sink : Sink) (pieces : List (List β)) :
    (sink.putAll pieces).failed = true ↔ sink.limit < sink.handed pieces := by
  have h := progress_putAll sink pieces
  unfold handed
  generalize pieces.foldl sink.drainStep (0, 0) = counts at h ⊢
  constructor
  · intro hfailed
    by_contra hnot
    rw [h.running (Nat.le_of_not_lt hnot)] at hfailed
    cases hfailed
  · intro hlt
    exact (h.stopped hlt).1

/-- A buffer that holds everything hands nothing on. -/
theorem handed_of_buffered {sink : Sink} (h : ∀ written pending, sink.drain written pending = 0)
    (pieces : List (List β)) : sink.handed pieces = 0 := by
  have hstep : ∀ (counts : Nat × Nat) (piece : List β),
      (sink.drainStep counts piece).1 = counts.1 := by
    intro counts piece
    simp [drainStep, h]
  have hfold : ∀ counts : Nat × Nat, (pieces.foldl sink.drainStep counts).1 = counts.1 := by
    induction pieces with
    | nil => simp
    | cons piece pieces ih =>
        intro counts
        rw [List.foldl_cons, ih, hstep]
  exact hfold (0, 0)

end Sink

end Lib
end LatencyAnalyzer

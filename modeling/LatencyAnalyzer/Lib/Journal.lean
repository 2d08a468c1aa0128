import Mathlib.Data.List.Basic
import Mathlib.Data.List.Forall2

/-!
# Journal — blocks of lines in a file that may break off anywhere

A block is a list of lines, and a line that holds nothing but a marker ends it.  Where a block finds
too little room it breaks off, in the middle of a line perhaps, and the next one goes on from there.
The reader closes a block at each marker that has arrived, and so for each block that is whole: it
reads what was torn in front of it along with it, and it loses none.
-/

namespace LatencyAnalyzer
namespace Lib
namespace Journal

section Journal

variable {β : Type*} [DecidableEq β] (newline : β) (marker : List β)

/-! ## The reader -/

structure Reader (β : Type*) where
  blocks : List (List (List β))
  /-- The lines of the block that is still open. -/
  lines : List (List β)
  /-- The characters of the line that is still open. -/
  line : List β

/-- The reader behind some blocks. -/
def Reader.fresh (blocks : List (List (List β))) : Reader β :=
  { blocks := blocks, lines := [], line := [] }

def Reader.read (s : Reader β) (c : β) : Reader β :=
  if c = newline then
    if s.line = marker then
      .fresh (s.blocks ++ [s.lines])
    else
      { s with lines := s.lines ++ [s.line], line := [] }
  else
    { s with line := s.line ++ [c] }

def readAll (s : Reader β) (text : List β) : Reader β :=
  text.foldl (Reader.read newline marker) s

/-- The blocks of a file. -/
def recover (text : List β) : List (List (List β)) :=
  (readAll newline marker (.fresh []) text).blocks

/-! ## The writers -/

/-- The lines of a block can be told from each other and from the marker, the first of them behind
any text. -/
structure IsBlock (block : List (List β)) : Prop where
  lines : ∀ line ∈ block, newline ∉ line ∧ line ≠ marker
  stamp : ∃ line rest, block = line :: rest ∧ ∃ c ∈ line, c ∉ marker

/-- The text of the lines. -/
def body (block : List (List β)) : List β :=
  block.flatMap (· ++ [newline])

def render (block : List (List β)) : List β :=
  body newline block ++ marker ++ [newline]

/-- A block and the number of its characters that there is room for. -/
structure Piece (β : Type*) where
  block : List (List β)
  room : Nat

/-- What arrives of a piece. -/
def Piece.text (piece : Piece β) : List β :=
  (render newline marker piece.block).take piece.room

def Piece.Whole (piece : Piece β) : Prop :=
  (render newline marker piece.block).length ≤ piece.room

instance (piece : Piece β) : Decidable (piece.Whole newline marker) :=
  inferInstanceAs (Decidable (_ ≤ _))

/-- The whole blocks, each behind the text that was torn since the one before. -/
def wholeBlocks (torn : List β) : List (Piece β) → List (List β × List (List β))
  | [] => []
  | piece :: pieces =>
      if piece.Whole newline marker then
        (torn, piece.block) :: wholeBlocks [] pieces
      else
        wholeBlocks (torn ++ piece.text newline marker) pieces

/-- A block that was read, against one that was written behind a torn text. -/
structure ReadsAs (written : List β × List (List β)) (block : List (List β)) : Prop where
  text : body newline block = written.1 ++ body newline written.2
  exact : written.1 = [] → block = written.2

/-! ## Reading what was written -/

variable {newline marker}

omit [DecidableEq β] in
theorem body_append (block block' : List (List β)) :
    body newline (block ++ block') = body newline block ++ body newline block' :=
  List.flatMap_append

omit [DecidableEq β] in
theorem body_cons (line : List β) (block : List (List β)) :
    body newline (line :: block) = line ++ [newline] ++ body newline block :=
  List.flatMap_cons

theorem readAll_append (s : Reader β) (text text' : List β) :
    readAll newline marker s (text ++ text') =
      readAll newline marker (readAll newline marker s text) text' :=
  List.foldl_append

theorem readAll_text (s : Reader β) {text : List β} (h : newline ∉ text) :
    readAll newline marker s text = { s with line := s.line ++ text } := by
  induction text generalizing s with
  | nil =>
      rw [List.append_nil]
      rfl
  | cons c text ih =>
      have hc : newline ≠ c := fun heq => h (heq ▸ List.mem_cons_self)
      have htext : newline ∉ text := fun hmem => h (List.mem_cons_of_mem c hmem)
      have hread : s.read newline marker c = { s with line := s.line ++ [c] } :=
        if_neg (Ne.symm hc)
      calc
        readAll newline marker s (c :: text) =
            readAll newline marker (s.read newline marker c) text := rfl
        _ = { s with line := s.line ++ [c] ++ text } := by rw [hread, ih _ htext]
        _ = { s with line := s.line ++ c :: text } := by
          rw [List.append_assoc, List.singleton_append]

/-- The end of a line that is not the marker adds it to the open block. -/
theorem readAll_line (s : Reader β) {line : List β} (h : newline ∉ line)
    (hmarker : s.line ++ line ≠ marker) :
    readAll newline marker s (line ++ [newline]) =
      { s with lines := s.lines ++ [s.line ++ line], line := [] } := by
  rw [readAll_append, readAll_text s h]
  unfold readAll Reader.read
  simp [hmarker]

theorem readAll_lines (s : Reader β) (hline : s.line = []) {block : List (List β)}
    (h : ∀ line ∈ block, newline ∉ line ∧ line ≠ marker) :
    readAll newline marker s (body newline block) = { s with lines := s.lines ++ block } := by
  induction block generalizing s with
  | nil =>
      rw [List.append_nil]
      rfl
  | cons line block ih =>
      rcases List.forall_mem_cons.1 h with ⟨⟨hnewline, hmarker⟩, hblock⟩
      have hfirst := readAll_line s hnewline (by rw [hline]; exact hmarker)
      rw [body_cons, readAll_append, hfirst, ih _ rfl hblock, hline, List.nil_append]
      simp

/-- Everything of a block but its last newline leaves it open; its first line joins the open
line. -/
theorem readAll_open (s : Reader β) {block : List (List β)} (hnewline : newline ∉ marker)
    (h : IsBlock newline marker block) :
    ∃ lines, readAll newline marker s (body newline block ++ marker) =
        { blocks := s.blocks, lines := lines, line := marker } ∧
      body newline lines = body newline s.lines ++ s.line ++ body newline block ∧
      (s.lines = [] → s.line = [] → lines = block) := by
  obtain ⟨line, rest, rfl, c, hc, hother⟩ := h.stamp
  rcases List.forall_mem_cons.1 h.lines with ⟨⟨hline, _⟩, hrest⟩
  -- The stamp keeps the glued line from being a marker.
  have hglued : s.line ++ line ≠ marker :=
    fun heq => hother (heq ▸ List.mem_append_right s.line hc)
  refine ⟨s.lines ++ [s.line ++ line] ++ rest, ?_, ?_, ?_⟩
  · rw [body_cons, List.append_assoc _ (body newline rest), readAll_append,
      readAll_line s hline hglued, readAll_append, readAll_lines _ rfl hrest,
      readAll_text _ hnewline]
    rfl
  · rw [body_append, body_append, body_cons, body_cons]
    simp [body]
  · intro hnone hempty
    rw [hnone, hempty]
    rfl

/-- The reader never takes a block back. -/
theorem blocks_prefix (s : Reader β) (text : List β) :
    s.blocks <+: (readAll newline marker s text).blocks := by
  induction text generalizing s with
  | nil => exact List.prefix_rfl
  | cons c text ih =>
      have hread : s.blocks <+: (s.read newline marker c).blocks := by
        unfold Reader.read Reader.fresh
        split
        · split
          · exact List.prefix_append _ _
          · exact List.prefix_rfl
        · exact List.prefix_rfl
      exact hread.trans (ih _)

/-- What lies between two readers that have closed the same blocks. -/
theorem blocks_between {s : Reader β} (text rest : List β)
    (h : (readAll newline marker s (text ++ rest)).blocks = s.blocks) :
    (readAll newline marker s text).blocks = s.blocks := by
  have hbefore : s.blocks <+: (readAll newline marker s text).blocks := blocks_prefix s text
  have hafter : (readAll newline marker s text).blocks <+: s.blocks := by
    rw [← h, readAll_append]
    exact blocks_prefix _ rest
  exact (hbefore.eq_of_length (Nat.le_antisymm hbefore.length_le hafter.length_le)).symm

/-- As long as no block closes, all that is read stays open. -/
theorem open_readAll (s : Reader β) {text : List β}
    (h : (readAll newline marker s text).blocks = s.blocks) :
    body newline (readAll newline marker s text).lines ++ (readAll newline marker s text).line =
      body newline s.lines ++ s.line ++ text := by
  induction text generalizing s with
  | nil => exact (List.append_nil _).symm
  | cons c text ih =>
      have hfirst : (s.read newline marker c).blocks = s.blocks :=
        blocks_between [c] text h
      have hopen : body newline (s.read newline marker c).lines ++ (s.read newline marker c).line =
          body newline s.lines ++ s.line ++ [c] := by
        revert hfirst
        unfold Reader.read Reader.fresh
        split
        · rename_i hc
          split
          · simp
          · intro _
            simp [body, hc]
        · intro _
          rw [List.append_assoc]
      have hrest := ih (s.read newline marker c) (h.trans hfirst.symm)
      rw [hopen, List.append_assoc, List.singleton_append] at hrest
      exact hrest

/-- A torn piece closes no block. -/
theorem blocks_of_torn (s : Reader β) {piece : Piece β} (hnewline : newline ∉ marker)
    (h : IsBlock newline marker piece.block) (htorn : ¬ piece.Whole newline marker) :
    (readAll newline marker s (piece.text newline marker)).blocks = s.blocks := by
  have hshort : piece.room ≤ (body newline piece.block ++ marker).length := by
    unfold Piece.Whole render at htorn
    rw [List.length_append, List.length_singleton] at htorn
    omega
  have htext :
      piece.text newline marker = (body newline piece.block ++ marker).take piece.room := by
    unfold Piece.text render
    rw [List.take_append_of_le_length hshort]
  obtain ⟨lines, hopen, _⟩ := readAll_open s hnewline h
  rw [htext]
  apply blocks_between _ ((body newline piece.block ++ marker).drop piece.room)
  rw [List.take_append_drop, hopen]

theorem readAll_whole (s : Reader β) {piece : Piece β} (hnewline : newline ∉ marker)
    (h : IsBlock newline marker piece.block) (hwhole : piece.Whole newline marker) :
    ∃ block, readAll newline marker s (piece.text newline marker) = .fresh (s.blocks ++ [block]) ∧
      ReadsAs newline (body newline s.lines ++ s.line, piece.block) block := by
  obtain ⟨lines, hopen, hbody, hexact⟩ := readAll_open s hnewline h
  refine ⟨lines, ?_, hbody, ?_⟩
  · unfold Piece.text
    rw [List.take_of_length_le hwhole]
    unfold render
    rw [readAll_append, hopen]
    unfold readAll Reader.read
    simp
  · intro hnone
    obtain ⟨hlines, hline⟩ := List.append_eq_nil_iff.1 hnone
    apply hexact _ hline
    cases hcases : s.lines with
    | nil => rfl
    | cons line lines =>
        rw [hcases, body_cons] at hlines
        simp at hlines

/-- The reader finds a block for each whole one that was written, in their order, and no other. -/
theorem recover_pieces (hnewline : newline ∉ marker) {pieces : List (Piece β)}
    (h : ∀ piece ∈ pieces, IsBlock newline marker piece.block) :
    List.Forall₂ (ReadsAs newline) (wholeBlocks newline marker [] pieces)
      (recover newline marker (pieces.flatMap (Piece.text newline marker))) := by
  have hread : ∀ s : Reader β, ∃ blocks,
      (readAll newline marker s (pieces.flatMap (Piece.text newline marker))).blocks =
        s.blocks ++ blocks ∧
      List.Forall₂ (ReadsAs newline)
        (wholeBlocks newline marker (body newline s.lines ++ s.line) pieces) blocks := by
    induction pieces with
    | nil => exact fun s => ⟨[], (List.append_nil _).symm, .nil⟩
    | cons piece pieces ih =>
        intro s
        rcases List.forall_mem_cons.1 h with ⟨hpiece, hpieces⟩
        rw [List.flatMap_cons, readAll_append]
        unfold wholeBlocks
        by_cases hwhole : piece.Whole newline marker
        · obtain ⟨block, hclosed, hblock⟩ := readAll_whole s hnewline hpiece hwhole
          obtain ⟨blocks, hrest, hreads⟩ := ih hpieces (.fresh (s.blocks ++ [block]))
          rw [if_pos hwhole, hclosed]
          refine ⟨block :: blocks, ?_, .cons hblock hreads⟩
          rw [hrest, Reader.fresh, List.append_assoc, List.singleton_append]
        · have hsame := blocks_of_torn s hnewline hpiece hwhole
          obtain ⟨blocks, hrest, hreads⟩ :=
            ih hpieces (readAll newline marker s (piece.text newline marker))
          rw [if_neg hwhole]
          rw [open_readAll s hsame] at hreads
          rw [hsame] at hrest
          exact ⟨blocks, hrest, hreads⟩
  obtain ⟨blocks, hblocks, hreads⟩ := hread (.fresh [])
  unfold recover
  rw [hblocks]
  exact hreads

/-- The blocks in front of the first torn one are read as they were written. -/
theorem takeWhile_prefix (hnewline : newline ∉ marker) {pieces : List (Piece β)}
    (h : ∀ piece ∈ pieces, IsBlock newline marker piece.block) :
    (pieces.takeWhile (fun piece => decide (piece.Whole newline marker))).map Piece.block <+:
      recover newline marker (pieces.flatMap (Piece.text newline marker)) := by
  have hread : ∀ done, done ++
      (pieces.takeWhile (fun piece => decide (piece.Whole newline marker))).map Piece.block <+:
        (readAll newline marker (.fresh done)
          (pieces.flatMap (Piece.text newline marker))).blocks := by
    induction pieces with
    | nil =>
        intro done
        rw [List.takeWhile_nil, List.map_nil, List.append_nil]
        exact blocks_prefix (.fresh done) _
    | cons piece pieces ih =>
        intro done
        rcases List.forall_mem_cons.1 h with ⟨hpiece, hpieces⟩
        by_cases hwhole : piece.Whole newline marker
        · obtain ⟨block, hclosed, hblock⟩ := readAll_whole (.fresh done) hnewline hpiece hwhole
          cases hblock.exact rfl
          have hrest := ih hpieces (done ++ [piece.block])
          rw [List.takeWhile_cons, if_pos (decide_eq_true hwhole), List.flatMap_cons,
            readAll_append, hclosed, List.map_cons, ← List.singleton_append, ← List.append_assoc]
          exact hrest
        · rw [List.takeWhile_cons, if_neg (by rwa [decide_eq_true_iff]), List.map_nil,
            List.append_nil]
          exact blocks_prefix (.fresh done) _
  exact hread []

end Journal

end Journal
end Lib
end LatencyAnalyzer

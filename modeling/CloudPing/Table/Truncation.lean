import CloudPing.Table.Alignment

/-!
# What is cut

A cell that is too long is cut at a byte, wherever its characters end.  All that is written
beside the cells is ASCII, and every cell begins where a text may start.  So the text of a table
is one exactly if each cell is cut in front of a first byte (`valid_text_iff`).
-/

namespace CloudPing.Table

open Utf8

namespace StyledTable

variable {tb : StyledTable} {colGap maxColWidth : Int} {row : Row} {rows : List Row}

/-- The byte at which a cell is cut. -/
def cutAt (maxColWidth : Int) : Nat :=
  if maxColWidth ≤ 3 then maxColWidth.toNat else (maxColWidth - 3).toNat

/-- What stands behind a cell that is cut. -/
def dots (maxColWidth : Int) : List UInt8 := if maxColWidth ≤ 3 then [] else text "..."

theorem truncateCell_eq {s : List UInt8} (hpos : 0 < maxColWidth)
    (hlong : (s.length : Int) > maxColWidth) :
    truncateCell maxColWidth s = s.take (cutAt maxColWidth) ++ dots maxColWidth := by
  rw [truncateCell, if_pos ⟨hpos, hlong⟩, cutAt, dots]
  split
  · exact (List.append_nil _).symm
  · rfl

theorem starts_dots (maxColWidth : Int) : Starts (dots maxColWidth) := by
  rw [dots]
  split <;> decide

theorem valid_dots (maxColWidth : Int) : Valid (dots maxColWidth) := by
  rw [dots]
  split
  · exact valid_nil
  · exact valid_text _

/-- A cell that is cut is a text exactly if one may start behind the cut. -/
theorem valid_truncateCell_iff {s : List UInt8} (hs : Valid s) (hpos : 0 < maxColWidth) :
    Valid (truncateCell maxColWidth s) ↔
      ((s.length : Int) > maxColWidth → Starts (s.drop (cutAt maxColWidth))) := by
  by_cases hlong : (s.length : Int) > maxColWidth
  · have hsplit : Valid (s.take (cutAt maxColWidth) ++ s.drop (cutAt maxColWidth)) := by
      rwa [List.take_append_drop]
    rw [truncateCell_eq hpos hlong, valid_append_iff (starts_dots _), hsplit.front_iff,
      and_iff_left (valid_dots _), imp_iff_right hlong]
  · rw [truncateCell, if_neg fun h => hlong h.2]
    exact iff_of_true hs fun h => absurd h hlong

/-! ## The text of a table -/

theorem valid_spaces (i : Nat) : Valid (List.replicate i 0x20) := valid_ascii (spaces_ascii i)

theorem valid_fprintfLeft_iff {s : List UInt8} (hs : Starts s) (width : Nat) :
    Valid (fprintfLeft width s) ↔ Valid s := by
  rw [fprintfLeft]
  split
  · rw [valid_append_iff hs, and_iff_right (valid_text _)]
  · rw [valid_append_iff (starts_replicate_space _), and_iff_left (valid_spaces _)]

theorem valid_writeCell_iff (h : tb.CellsStart) (hrow : row ∈ tb.cells) (k : Nat) :
    Valid (tb.writeCell colGap maxColWidth row k) ↔ Valid (cellText maxColWidth row k) := by
  rw [writeCell]
  split
  · rw [valid_append_iff (starts_replicate_space _), and_iff_left (valid_spaces _),
      valid_fprintfLeft_iff (starts_cellText h hrow k)]
  · rw [List.append_nil, valid_fprintfLeft_iff (starts_cellText h hrow k)]

theorem valid_rowStart_iff (h : tb.CellsStart) (hrow : row ∈ tb.cells) (n : Nat) :
    Valid (tb.rowStart colGap maxColWidth row n) ↔
      ∀ k < n, Valid (cellText maxColWidth row k) := by
  induction n with
  | zero => exact iff_of_true valid_nil fun k hk => absurd hk (Nat.not_lt_zero k)
  | succ n ih =>
    rw [rowStart_succ, valid_append_iff (starts_writeCell h hrow n), ih, valid_writeCell_iff h hrow]
    constructor
    · rintro ⟨hfront, hlast⟩ k hk
      rcases Nat.lt_succ_iff_lt_or_eq.1 hk with hk | rfl
      · exact hfront k hk
      · exact hlast
    · exact fun hall => ⟨fun k hk => hall k (Nat.lt_succ_of_lt hk), hall n (Nat.lt_succ_self n)⟩

theorem starts_rowStart (h : tb.CellsStart) (hrow : row ∈ tb.cells) (n : Nat) :
    Starts (tb.rowStart colGap maxColWidth row n) := by
  induction n with
  | zero => exact starts_nil
  | succ n ih =>
    rw [rowStart_succ]
    exact ih.append (starts_writeCell h hrow n)

/-- What is written for a row, as a gap or not. -/
def rowText (tb : StyledTable) (colGap maxColWidth : Int) (rowIdx : Nat) (row : Row) :
    List UInt8 :=
  if IsGap rowIdx row then [0x0A] else tb.writeRow colGap maxColWidth row

theorem starts_rowText (h : tb.CellsStart) (hrow : row ∈ tb.cells) (rowIdx : Nat) :
    Starts (tb.rowText colGap maxColWidth rowIdx row) := by
  rw [rowText]
  split
  · decide
  · exact (starts_rowStart h hrow _).append (by decide)

theorem valid_rowText_iff (h : tb.CellsStart) (hrow : row ∈ tb.cells) (rowIdx : Nat) :
    Valid (tb.rowText colGap maxColWidth rowIdx row) ↔
      ∀ k < tb.numCols, Valid (cellText maxColWidth row k) := by
  have hnewline : Valid [0x0A] := valid_ascii (by decide)
  rw [rowText]
  split
  next hgap =>
    refine iff_of_true hnewline fun k _ => ?_
    rw [cellText, List.length_eq_zero_iff.1 hgap.2]
    exact valid_nil
  next =>
    rw [writeRow, valid_append_iff (by decide), valid_rowStart_iff h hrow, and_iff_left hnewline]

theorem writeRows_starts_and_valid_iff (h : tb.CellsStart)
    (hrows : ∀ row ∈ rows, row ∈ tb.cells) (rowIdx : Nat) :
    Starts (tb.writeRows colGap maxColWidth rowIdx rows) ∧
      (Valid (tb.writeRows colGap maxColWidth rowIdx rows) ↔
        ∀ row ∈ rows, ∀ k < tb.numCols, Valid (cellText maxColWidth row k)) := by
  induction rows generalizing rowIdx with
  | nil => exact ⟨starts_nil, iff_of_true valid_nil fun row hrow => absurd hrow List.not_mem_nil⟩
  | cons row rows ih =>
    obtain ⟨hstarts, hvalid⟩ :=
      ih (fun row hrow => hrows row (List.mem_cons_of_mem _ hrow)) (rowIdx + 1)
    have hrow := hrows row List.mem_cons_self
    have htext : tb.writeRows colGap maxColWidth rowIdx (row :: rows) =
        tb.rowText colGap maxColWidth rowIdx row ++
          tb.writeRows colGap maxColWidth (rowIdx + 1) rows := rfl
    rw [htext, valid_append_iff hstarts, valid_rowText_iff h hrow, hvalid, List.forall_mem_cons]
    exact ⟨(starts_rowText h hrow rowIdx).append hstarts, Iff.rfl⟩

/-- The text of a table is one exactly if what is written of each cell is. -/
theorem valid_getHumanReadableText_iff (h : tb.CellsStart) (rowGap : Int) :
    Valid (tb.getHumanReadableText colGap maxColWidth rowGap) ↔
      ∀ row ∈ tb.cells, ∀ cell ∈ row, Valid (truncateCell maxColWidth cell.textContent) := by
  rw [getHumanReadableText]
  split
  next hnil =>
    rw [List.length_eq_zero_iff.1 hnil]
    exact iff_of_true (valid_text _) fun row hrow => absurd hrow List.not_mem_nil
  next =>
    split
    next hcols =>
      refine iff_of_true (valid_text _) fun row hrow cell hcell => ?_
      have hlen := le_numCols hrow
      rw [hcols, Nat.le_zero, List.length_eq_zero_iff] at hlen
      exact absurd (hlen ▸ hcell) List.not_mem_nil
    next =>
      rw [(writeRows_starts_and_valid_iff h (fun row hrow => hrow) 0).2]
      refine forall₂_congr fun row hrow => ⟨fun hall cell hcell => ?_, fun hall k _ => ?_⟩
      · obtain ⟨k, hk, rfl⟩ := List.mem_iff_getElem.1 hcell
        have hcellText := hall k (Nat.lt_of_lt_of_le hk (le_numCols hrow))
        rwa [cellText, List.getElem?_eq_getElem hk] at hcellText
      · rw [cellText]
        split
        next => exact valid_nil
        next cell hcell => exact hall cell (List.mem_of_getElem? hcell)

/-! ## When it is kept -/

/-- The text of the table is one, and what is left of a cell that is cut is its front up to a
character, with dots behind if there is room for them. -/
structure Kept (tb : StyledTable) (colGap rowGap maxColWidth : Int) : Prop where
  valid : Valid (tb.getHumanReadableText colGap maxColWidth rowGap)
  boundary : ∀ row ∈ tb.cells, ∀ cell ∈ row, (cell.textContent.length : Int) > maxColWidth →
    ∃ n, Valid (cell.textContent.take n) ∧ Valid (cell.textContent.drop n) ∧
      truncateCell maxColWidth cell.textContent =
        cell.textContent.take n ++ if maxColWidth > 3 then text "..." else []

/-- Each cell that is cut is cut in front of a first byte. -/
def CutClean (tb : StyledTable) (maxColWidth : Int) : Prop :=
  ∀ row ∈ tb.cells, ∀ cell ∈ row, (cell.textContent.length : Int) > maxColWidth →
    Starts (cell.textContent.drop (cutAt maxColWidth))

theorem valid_text_iff (h : ∀ row ∈ tb.cells, ∀ cell ∈ row, Valid cell.textContent)
    (rowGap : Int) (hpos : 0 < maxColWidth) :
    Valid (tb.getHumanReadableText colGap maxColWidth rowGap) ↔ tb.CutClean maxColWidth := by
  have hstart : tb.CellsStart := fun row hrow cell hcell => (h row hrow cell hcell).starts
  rw [valid_getHumanReadableText_iff hstart]
  exact forall₂_congr fun row hrow => forall₂_congr fun cell hcell =>
    valid_truncateCell_iff (h row hrow cell hcell) hpos

/-- The texts in a table are kept exactly if no cell is cut inside a character. -/
theorem kept_iff (h : ∀ row ∈ tb.cells, ∀ cell ∈ row, Valid cell.textContent)
    (colGap rowGap : Int) (hpos : 0 < maxColWidth) :
    tb.Kept colGap rowGap maxColWidth ↔ tb.CutClean maxColWidth := by
  refine ⟨fun hkept => (valid_text_iff h rowGap hpos).1 hkept.valid, fun hclean => ?_⟩
  refine ⟨(valid_text_iff h rowGap hpos).2 hclean, fun row hrow cell hcell hlong => ?_⟩
  have hsplit : Valid (cell.textContent.take (cutAt maxColWidth) ++
      cell.textContent.drop (cutAt maxColWidth)) := by
    rw [List.take_append_drop]
    exact h row hrow cell hcell
  obtain ⟨hfront, hback⟩ := (valid_append_iff (hclean row hrow cell hcell hlong)).1 hsplit
  refine ⟨cutAt maxColWidth, hfront, hback, ?_⟩
  rw [truncateCell_eq hpos hlong, dots]
  by_cases hroom : maxColWidth ≤ 3
  · rw [if_pos hroom, if_neg (by omega)]
  · rw [if_neg hroom, if_pos (by omega)]

end StyledTable

open StyledTable

/-- A long name that is cut between two characters, in one column with short ones. -/
theorem kept_cityTable : cityTable.Kept 2 0 24 := by
  refine (kept_iff ?_ 2 0 (by decide)).2 ?_
  · intro row hrow cell hcell
    have htexts : ∀ row ∈ cityTable.cells, ∀ cell ∈ row,
        ∃ s ∈ ["Hop", "City", "1.", "München", "2.", "3.", "東京 1234567890 1234567890"],
          cell.textContent = text s := by decide
    obtain ⟨s, -, hs⟩ := htexts row hrow cell hcell
    exact hs ▸ valid_text s
  · show ∀ row ∈ cityTable.cells, ∀ cell ∈ row, (cell.textContent.length : Int) > 24 →
      Starts (cell.textContent.drop (cutAt 24))
    decide

/-- The name of a network, with a character of two bytes at the cut. -/
def iasiTable : StyledTable := ⟨[[⟨[], text "Universitatea din Iași, RO"⟩]]⟩

/-- With the width that the traceroute uses. -/
theorem iasiTable_not_kept :
    (∀ row ∈ iasiTable.cells, ∀ cell ∈ row, Valid cell.textContent) ∧
    ¬Valid (iasiTable.getHumanReadableText 2 24 0) ∧ ¬iasiTable.Kept 2 0 24 := by
  have htext : ∀ row ∈ iasiTable.cells, ∀ cell ∈ row, Valid cell.textContent := by
    intro row hrow cell hcell
    rw [List.mem_singleton.1 hrow] at hcell
    rw [List.mem_singleton.1 hcell]
    exact valid_text _
  have hinvalid : ¬Valid (iasiTable.getHumanReadableText 2 24 0) := by
    rw [valid_text_iff htext 0 (by decide)]
    intro hclean
    exact absurd (hclean _ List.mem_cons_self _ List.mem_cons_self (by decide)) (by decide)
  exact ⟨htext, hinvalid, fun hkept => hinvalid hkept.valid⟩

end CloudPing.Table

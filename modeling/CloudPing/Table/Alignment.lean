import CloudPing.Table.StyledTable
import Mathlib.Data.List.Basic

/-!
# Tables are aligned

A cell that is written has as many runes as its column has bytes (`runeCount_fprintfLeft`), for it
has no more runes than bytes.  The cells of a row begin where a text may start, so their runes
add up (`runeCount_rowStart`), also behind a cell that is cut inside a character.

`fmt` takes no width above a million.  In a column that is wider no cell is padded, and it is
aligned only if its cells are equally long anyway.
-/

namespace CloudPing.Table

open Utf8

namespace StyledTable

variable {tb : StyledTable} {colGap maxColWidth : Int} {row : Row} {rows : List Row}
  {ws : List Nat} {n k m : Nat}

/-! ## The width of a column -/

theorem length_widen (idx : Nat) (cell : StyledCell) :
    (widen maxColWidth n ws idx cell).length = ws.length := by
  simp only [widen]
  split
  · exact List.length_set
  · rfl

theorem getD_widen_le (hk : k < n) (hlen : ws.length = n) (idx : Nat) (cell : StyledCell) :
    (widen maxColWidth n ws idx cell).getD k 0 ≤ m ↔
      ws.getD k 0 ≤ m ∧ (idx = k → limit maxColWidth cell.textContent.length ≤ m) := by
  simp only [widen]
  by_cases hidx : idx = k
  · subst hidx
    split
    next h =>
      have hset : (ws.set idx (limit maxColWidth cell.textContent.length)).getD idx 0 =
          limit maxColWidth cell.textContent.length := by
        rw [List.getD_eq_getElem?_getD, List.getElem?_set_self (by omega), Option.getD_some]
      rw [hset]
      constructor
      · exact fun hle => ⟨Nat.le_trans (Nat.le_of_lt h.2) hle, fun _ => hle⟩
      · exact fun hle => hle.2 rfl
    next h =>
      have hle : limit maxColWidth cell.textContent.length ≤ ws.getD idx 0 :=
        Nat.not_lt.1 fun hlt => h ⟨hk, hlt⟩
      exact ⟨fun h' => ⟨h', fun _ => Nat.le_trans hle h'⟩, fun h' => h'.1⟩
  · have hother : (if idx < n ∧ limit maxColWidth cell.textContent.length > ws.getD idx 0
          then ws.set idx (limit maxColWidth cell.textContent.length) else ws).getD k 0 =
        ws.getD k 0 := by
      split
      · rw [List.getD_eq_getElem?_getD, List.getElem?_set_ne hidx, List.getD_eq_getElem?_getD]
      · rfl
    rw [hother]
    exact (and_iff_left fun h => absurd h hidx).symm

theorem length_widenRow (idx : Nat) (row : Row) :
    (widenRow maxColWidth n ws idx row).length = ws.length := by
  induction row generalizing ws idx with
  | nil => rfl
  | cons cell row ih => rw [widenRow, ih, length_widen]

theorem getD_widenRow_le (hk : k < n) (hlen : ws.length = n) (idx : Nat) (row : Row) :
    (widenRow maxColWidth n ws idx row).getD k 0 ≤ m ↔
      ws.getD k 0 ≤ m ∧ ∀ i, idx + i = k →
        ∀ cell ∈ row[i]?, limit maxColWidth cell.textContent.length ≤ m := by
  induction row generalizing ws idx with
  | nil => exact (and_iff_left fun i _ cell hcell => by cases hcell).symm
  | cons cell row ih =>
    rw [widenRow, ih ((length_widen idx cell).trans hlen), getD_widen_le hk hlen, and_assoc]
    refine and_congr_right fun _ => ⟨fun h i hi c hc => ?_, fun h => ⟨fun hi => ?_, ?_⟩⟩
    · cases i with
      | zero =>
        cases hc
        exact h.1 hi
      | succ i => exact h.2 i (by omega) c hc
    · exact h 0 hi cell rfl
    · exact fun i hi c hc => h (i + 1) (by omega) c hc

/-- A column is as wide as its widest cell. -/
theorem getD_colWidths_le (hk : k < tb.numCols) :
    (tb.colWidths maxColWidth).getD k 0 ≤ m ↔
      ∀ row ∈ tb.cells, ∀ cell ∈ row[k]?, limit maxColWidth cell.textContent.length ≤ m := by
  have hrun : ∀ (rows : List Row) (ws : List Nat), ws.length = tb.numCols →
      ((rows.foldl (fun ws row => widenRow maxColWidth tb.numCols ws 0 row) ws).getD k 0 ≤ m ↔
        ws.getD k 0 ≤ m ∧
          ∀ row ∈ rows, ∀ cell ∈ row[k]?, limit maxColWidth cell.textContent.length ≤ m) := by
    intro rows
    induction rows with
    | nil => exact fun ws _ => (and_iff_left fun row hrow => absurd hrow List.not_mem_nil).symm
    | cons row rows ih =>
      intro ws hlen
      rw [List.foldl_cons, ih _ ((length_widenRow 0 row).trans hlen), getD_widenRow_le hk hlen,
        and_assoc, List.forall_mem_cons]
      refine and_congr_right fun _ => and_congr_left fun _ => ?_
      constructor
      · exact fun h => h k (Nat.zero_add k)
      · intro h i hi
        rw [Nat.zero_add] at hi
        exact hi ▸ h
  rw [colWidths, hrun _ _ List.length_replicate]
  refine and_iff_right ?_
  rw [List.getD_eq_getElem?_getD, List.getElem?_replicate_of_lt hk]
  exact Nat.zero_le m

/-! ## Cells -/

theorem starts_take {s : List UInt8} (h : Starts s) (i : Nat) : Starts (s.take i) := by
  cases s with
  | nil => rwa [List.take_nil]
  | cons x s =>
    cases i with
    | zero => exact starts_nil
    | succ i => exact starts_cons.2 (starts_cons.1 h)

theorem starts_truncateCell {s : List UInt8} (h : Starts s) :
    Starts (truncateCell maxColWidth s) := by
  rw [truncateCell]
  split
  · split
    · exact starts_take h _
    · exact (starts_take h _).append (by decide)
  · exact h

/-- A cell that is cut is as long as it counts. -/
theorem length_truncateCell (maxColWidth : Int) (s : List UInt8) :
    (truncateCell maxColWidth s).length = limit maxColWidth s.length := by
  have hdots : (text "...").length = 3 := by decide
  rw [truncateCell, limit]
  split
  next h =>
    split
    next => rw [List.length_take, Nat.min_eq_left (by omega)]
    next => rw [List.length_append, List.length_take, hdots, Nat.min_eq_left (by omega)]; omega
  next => rfl

/-- The cells of the table may all start a text. -/
def CellsStart (tb : StyledTable) : Prop :=
  ∀ row ∈ tb.cells, ∀ cell ∈ row, Starts cell.textContent

theorem starts_cellText (h : tb.CellsStart) (hrow : row ∈ tb.cells) (k : Nat) :
    Starts (cellText maxColWidth row k) := by
  rw [cellText]
  split
  next => exact starts_nil
  next cell hcell => exact starts_truncateCell (h row hrow cell (List.mem_of_getElem? hcell))

theorem starts_replicate_space (i : Nat) : Starts (List.replicate i 0x20) := by
  cases i with
  | zero => exact starts_nil
  | succ i => exact starts_cons.2 (by decide)

theorem spaces_ascii (i : Nat) : ∀ x ∈ List.replicate i (0x20 : UInt8), x < 0x80 := by
  intro x hx
  rw [List.eq_of_mem_replicate hx]
  decide

theorem runeCount_spaces (i : Nat) : runeCount (List.replicate i 0x20) = i := by
  rw [runeCount_ascii (spaces_ascii i), List.length_replicate]

theorem starts_fprintfLeft {s : List UInt8} (h : Starts s) (width : Nat) :
    Starts (fprintfLeft width s) := by
  rw [fprintfLeft]
  split
  · exact Starts.append (by decide) h
  · exact h.append (starts_replicate_space _)

/-- Up to the largest width a cell is padded to as many runes as its column is wide. -/
theorem runeCount_fprintfLeft {s : List UInt8} {width : Nat} (hs : s.length ≤ width) :
    width ≤ maxWidth → runeCount (fprintfLeft width s) = width := by
  intro hwidth
  have hle := runeCount_le s
  rw [fprintfLeft, if_neg (by omega), runeCount_append (starts_replicate_space _),
    runeCount_spaces]
  omega

theorem runeCount_fprintfLeft_of_lt {s : List UInt8} (h : Starts s) {width : Nat}
    (hwidth : maxWidth < width) : runeCount (fprintfLeft width s) = 12 + runeCount s := by
  have hbad : runeCount (text "%!(BADWIDTH)") = 12 := by decide
  rw [fprintfLeft, if_pos hwidth, runeCount_append h, hbad]

/-! ## Rows -/

/-- How many runes a row has in a column. -/
def runesIn (tb : StyledTable) (maxColWidth : Int) (row : Row) (colIdx : Nat) : Nat :=
  runeCount (fprintfLeft ((tb.colWidths maxColWidth).getD colIdx 0)
    (cellText maxColWidth row colIdx))

theorem starts_writeCell (h : tb.CellsStart) (hrow : row ∈ tb.cells) (k : Nat) :
    Starts (tb.writeCell colGap maxColWidth row k) := by
  rw [writeCell]
  refine (starts_fprintfLeft (starts_cellText h hrow k) _).append ?_
  split
  · exact starts_replicate_space _
  · exact starts_nil

/-- The gap behind a column. -/
def gapOf (tb : StyledTable) (colGap : Int) (colIdx : Nat) : Nat :=
  if (colIdx : Int) < tb.numCols - 1 ∧ colGap > 0 then colGap.toNat else 0

theorem runeCount_writeCell (row : Row) (k : Nat) :
    runeCount (tb.writeCell colGap maxColWidth row k) =
      tb.runesIn maxColWidth row k + tb.gapOf colGap k := by
  rw [writeCell, runesIn, gapOf]
  split
  · rw [runeCount_append (starts_replicate_space _), runeCount_spaces]
  · rw [List.append_nil, Nat.add_zero]

theorem rowStart_succ (row : Row) (k : Nat) :
    tb.rowStart colGap maxColWidth row (k + 1) =
      tb.rowStart colGap maxColWidth row k ++ tb.writeCell colGap maxColWidth row k := by
  rw [rowStart, List.range_succ, List.flatMap_append, List.flatMap_singleton]
  rfl

/-- The runes of the cells in front add up. -/
theorem runeCount_rowStart_succ (h : tb.CellsStart) (hrow : row ∈ tb.cells) (k : Nat) :
    runeCount (tb.rowStart colGap maxColWidth row (k + 1)) =
      runeCount (tb.rowStart colGap maxColWidth row k) +
        (tb.runesIn maxColWidth row k + tb.gapOf colGap k) := by
  rw [rowStart_succ, runeCount_append (starts_writeCell h hrow k), runeCount_writeCell]

/-- Two rows are in step up to a column exactly if they have equally many runes in each. -/
theorem rowStart_eq_iff (h : tb.CellsStart) {row' : Row} (hrow : row ∈ tb.cells)
    (hrow' : row' ∈ tb.cells) (n : Nat) :
    (∀ k ≤ n, runeCount (tb.rowStart colGap maxColWidth row k) =
        runeCount (tb.rowStart colGap maxColWidth row' k)) ↔
      ∀ k < n, tb.runesIn maxColWidth row k = tb.runesIn maxColWidth row' k := by
  constructor
  · intro hall k hk
    have hsucc := hall (k + 1) hk
    rw [runeCount_rowStart_succ h hrow, runeCount_rowStart_succ h hrow',
      hall k (Nat.le_of_lt hk)] at hsucc
    omega
  · intro hall k hk
    induction k with
    | zero => rfl
    | succ k ih =>
      rw [runeCount_rowStart_succ h hrow, runeCount_rowStart_succ h hrow',
        ih (Nat.le_of_lt hk), hall k hk]

/-! ## Columns -/

/-- No cell of the column counts for more than a million bytes. -/
def Fits (tb : StyledTable) (maxColWidth : Int) (colIdx : Nat) : Prop :=
  ∀ row ∈ tb.cells, ∀ cell ∈ row[colIdx]?,
    limit maxColWidth cell.textContent.length ≤ maxWidth

theorem length_cellText_le (hk : k < tb.numCols) (hrow : row ∈ tb.cells) :
    (cellText maxColWidth row k).length ≤ (tb.colWidths maxColWidth).getD k 0 := by
  rw [cellText]
  split
  next => exact Nat.zero_le _
  next cell hcell =>
    rw [length_truncateCell]
    exact (getD_colWidths_le hk).1 (Nat.le_refl _) row hrow cell hcell

theorem runesIn_of_fits (hk : k < tb.numCols) (hfits : tb.Fits maxColWidth k)
    (hrow : row ∈ tb.cells) :
    tb.runesIn maxColWidth row k = (tb.colWidths maxColWidth).getD k 0 :=
  runeCount_fprintfLeft (length_cellText_le hk hrow) ((getD_colWidths_le hk).2 hfits)

theorem runesIn_of_not_fits (h : tb.CellsStart) (hk : k < tb.numCols)
    (hfits : ¬tb.Fits maxColWidth k) (hrow : row ∈ tb.cells) :
    tb.runesIn maxColWidth row k = 12 + runeCount (cellText maxColWidth row k) :=
  runeCount_fprintfLeft_of_lt (starts_cellText h hrow k)
    (Nat.not_le.1 (mt (getD_colWidths_le hk).1 hfits))

/-! ## Lines -/

/-- Row `rowIdx` of the table, if it is written as a row. -/
def Written (tb : StyledTable) (rowIdx : Nat) (row : Row) : Prop :=
  tb.cells[rowIdx]? = some row ∧ ¬IsGap rowIdx row

theorem Written.mem {i : Nat} (h : tb.Written i row) : row ∈ tb.cells := List.mem_of_getElem? h.1

/-- The lines of the text have equally many runes, and the cells of a column begin behind equally
many. -/
structure Aligned (tb : StyledTable) (colGap rowGap maxColWidth : Int) : Prop where
  runes : ∀ i j row row', tb.Written i row → tb.Written j row' →
    ∀ l ∈ ((tb.getHumanReadableText colGap maxColWidth rowGap).splitOn 0x0A)[i]?,
    ∀ l' ∈ ((tb.getHumanReadableText colGap maxColWidth rowGap).splitOn 0x0A)[j]?,
      runeCount l = runeCount l'
  starts : ∀ i j row row', tb.Written i row → tb.Written j row' → ∀ k < tb.numCols,
    runeCount (tb.rowStart colGap maxColWidth row k) =
      runeCount (tb.rowStart colGap maxColWidth row' k)

/-- No cell of the table breaks its line. -/
def OneLine (tb : StyledTable) : Prop :=
  ∀ row ∈ tb.cells, ∀ cell ∈ row, 0x0A ∉ cell.textContent

theorem newline_not_mem_truncateCell {s : List UInt8} (h : 0x0A ∉ s) :
    0x0A ∉ truncateCell maxColWidth s := by
  rw [truncateCell]
  split
  · split
    · exact fun hin => h (List.mem_of_mem_take hin)
    · rw [List.mem_append]
      rintro (hin | hin)
      · exact h (List.mem_of_mem_take hin)
      · exact absurd hin (by decide)
  · exact h

theorem newline_not_mem_spaces (i : Nat) : (0x0A : UInt8) ∉ List.replicate i 0x20 := fun hin =>
  absurd (List.eq_of_mem_replicate hin) (by decide)

theorem newline_not_mem_writeCell (h : tb.OneLine) (hrow : row ∈ tb.cells) (k : Nat) :
    0x0A ∉ tb.writeCell colGap maxColWidth row k := by
  have hcell : 0x0A ∉ cellText maxColWidth row k := by
    rw [cellText]
    split
    next => exact List.not_mem_nil
    next cell hcell =>
      exact newline_not_mem_truncateCell (h row hrow cell (List.mem_of_getElem? hcell))
  rw [writeCell, fprintfLeft, List.mem_append]
  rintro (hin | hin)
  · split at hin
    · exact (List.mem_append.1 hin).elim (fun hin => absurd hin (by decide)) hcell
    · exact (List.mem_append.1 hin).elim hcell (newline_not_mem_spaces _)
  · split at hin
    · exact newline_not_mem_spaces _ hin
    · cases hin

theorem newline_not_mem_rowStart (h : tb.OneLine) (hrow : row ∈ tb.cells) (k : Nat) :
    0x0A ∉ tb.rowStart colGap maxColWidth row k := by
  intro hin
  obtain ⟨i, -, hin⟩ := List.mem_flatMap.1 hin
  exact newline_not_mem_writeCell h hrow i hin

/-- Each row is one line. -/
theorem line_writeRows (h : tb.OneLine) (hrows : ∀ row ∈ rows, row ∈ tb.cells) (rowIdx i : Nat)
    (hrow : rows[i]? = some row) (hgap : ¬IsGap (rowIdx + i) row) :
    ((tb.writeRows colGap maxColWidth rowIdx rows).splitOn 0x0A)[i]? =
      some (tb.rowStart colGap maxColWidth row tb.numCols) := by
  induction rows generalizing rowIdx i with
  | nil => cases hrow
  | cons first rows ih =>
    have hline : ∃ line, (0x0A : UInt8) ∉ line ∧
        (if IsGap rowIdx first then [0x0A] else tb.writeRow colGap maxColWidth first) =
          line ++ [0x0A] ∧
        (¬IsGap rowIdx first → line = tb.rowStart colGap maxColWidth first tb.numCols) := by
      split
      next hfirst => exact ⟨[], List.not_mem_nil, rfl, fun hno => absurd hfirst hno⟩
      next =>
        exact ⟨_, newline_not_mem_rowStart h (hrows first List.mem_cons_self) _, rfl, fun _ => rfl⟩
    obtain ⟨line, hnl, htext, hrest⟩ := hline
    rw [writeRows, htext, List.append_assoc, List.singleton_append,
      List.splitOn_append_cons_self_of_not_mem hnl]
    cases i with
    | zero =>
      cases hrow
      rw [List.getElem?_cons_zero, hrest hgap]
    | succ i =>
      rw [List.getElem?_cons_succ]
      refine ih (fun row hrow => hrows row (List.mem_cons_of_mem _ hrow)) (rowIdx + 1) i hrow ?_
      rwa [Nat.add_assoc, Nat.add_comm 1 i]

theorem le_numCols (hrow : row ∈ tb.cells) : row.length ≤ tb.numCols := by
  have hrun : ∀ (rows : List Row) (n : Nat),
      n ≤ rows.foldl (fun n row => if row.length > n then row.length else n) n ∧
        ∀ row ∈ rows, row.length ≤
          rows.foldl (fun n row => if row.length > n then row.length else n) n := by
    intro rows
    induction rows with
    | nil => exact fun n => ⟨Nat.le_refl n, fun row hrow => absurd hrow List.not_mem_nil⟩
    | cons first rows ih =>
      intro n
      rw [List.foldl_cons, List.forall_mem_cons]
      obtain ⟨hle, hrows⟩ := ih (if first.length > n then first.length else n)
      have hmax : n ≤ (if first.length > n then first.length else n) ∧
          first.length ≤ if first.length > n then first.length else n := by
        split <;> omega
      exact ⟨Nat.le_trans hmax.1 hle, Nat.le_trans hmax.2 hle, hrows⟩
  exact (hrun tb.cells 0).2 row hrow

/-- Where there is no column, the first row is the only one. -/
theorem Written.eq_zero {i : Nat} (h : tb.Written i row) (hcols : tb.numCols = 0) : i = 0 := by
  have hlen := le_numCols h.mem
  by_contra hi
  exact h.2 ⟨Nat.pos_of_ne_zero hi, by omega⟩

/-- The line of a row. -/
theorem line_eq (h : tb.OneLine) {i : Nat} (hrow : tb.Written i row) (hcols : tb.numCols ≠ 0)
    (rowGap : Int) :
    ((tb.getHumanReadableText colGap maxColWidth rowGap).splitOn 0x0A)[i]? =
      some (tb.rowStart colGap maxColWidth row tb.numCols) := by
  have hlen : tb.cells.length ≠ 0 := fun hnil => by
    have hmem := hrow.mem
    rw [List.length_eq_zero_iff.1 hnil] at hmem
    cases hmem
  rw [getHumanReadableText, if_neg hlen, if_neg hcols]
  exact line_writeRows h (fun row hrow => hrow) 0 i hrow.1 ((Nat.zero_add i).symm ▸ hrow.2)

/-- The text is aligned exactly if the rows have equally many runes in each column. -/
theorem aligned_iff_runesIn (hstart : tb.CellsStart) (hline : tb.OneLine) (rowGap : Int) :
    tb.Aligned colGap rowGap maxColWidth ↔
      ∀ i j row row', tb.Written i row → tb.Written j row' → ∀ k < tb.numCols,
        tb.runesIn maxColWidth row k = tb.runesIn maxColWidth row' k := by
  constructor
  · rintro ⟨hrunes, hstarts⟩ i j row row' hrow hrow'
    refine (@rowStart_eq_iff tb colGap _ _ hstart _ hrow.mem hrow'.mem tb.numCols).1 ?_
    intro k hk
    rcases Nat.lt_or_eq_of_le hk with hlt | rfl
    · exact hstarts i j row row' hrow hrow' k hlt
    · by_cases hcols : tb.numCols = 0
      · rw [hcols]
        rfl
      · exact hrunes i j row row' hrow hrow' _ (line_eq hline hrow hcols rowGap) _
          (line_eq hline hrow' hcols rowGap)
  · intro h
    have hall := fun i j row row' hrow hrow' =>
      (@rowStart_eq_iff tb colGap _ _ hstart _ (Written.mem hrow) (Written.mem hrow')
        tb.numCols).2 (h i j row row' hrow hrow')
    refine ⟨fun i j row row' hrow hrow' l hl l' hl' => ?_, fun i j row row' hrow hrow' k hk =>
      hall i j row row' hrow hrow' k (Nat.le_of_lt hk)⟩
    by_cases hcols : tb.numCols = 0
    · rw [hrow.eq_zero hcols] at hl
      rw [hrow'.eq_zero hcols] at hl'
      rw [Option.some.inj (hl.symm.trans hl')]
    · rw [line_eq hline hrow hcols] at hl
      rw [line_eq hline hrow' hcols] at hl'
      cases hl
      cases hl'
      exact hall i j row row' hrow hrow' _ (Nat.le_refl _)

/-! ## When it is aligned -/

/-- The cells of a column count equally many runes, also those that are not there. -/
def Even (tb : StyledTable) (maxColWidth : Int) (colIdx : Nat) : Prop :=
  ∀ i j row row', tb.Written i row → tb.Written j row' →
    runeCount (cellText maxColWidth row colIdx) = runeCount (cellText maxColWidth row' colIdx)

theorem cellsStart_of_valid (h : ∀ row ∈ tb.cells, ∀ cell ∈ row,
    Valid cell.textContent ∧ 0x0A ∉ cell.textContent) : tb.CellsStart :=
  fun row hrow cell hcell => (h row hrow cell hcell).1.starts

theorem oneLine_of_valid (h : ∀ row ∈ tb.cells, ∀ cell ∈ row,
    Valid cell.textContent ∧ 0x0A ∉ cell.textContent) : tb.OneLine :=
  fun row hrow cell hcell => (h row hrow cell hcell).2

theorem fits_or_even_of_aligned (hstart : tb.CellsStart) (hline : tb.OneLine) {rowGap : Int}
    (h : tb.Aligned colGap rowGap maxColWidth) (hk : k < tb.numCols) :
    tb.Fits maxColWidth k ∨ tb.Even maxColWidth k := by
  refine or_iff_not_imp_left.2 fun hfits i j row row' hrow hrow' => ?_
  have hrunes := (aligned_iff_runesIn hstart hline rowGap).1 h i j row row' hrow hrow' k hk
  rw [runesIn_of_not_fits hstart hk hfits hrow.mem,
    runesIn_of_not_fits hstart hk hfits hrow'.mem] at hrunes
  omega

/-- A table of texts is aligned exactly if every column is at most a million bytes wide, or has
cells of equally many runes. -/
theorem aligned_iff (h : ∀ row ∈ tb.cells, ∀ cell ∈ row,
      Valid cell.textContent ∧ 0x0A ∉ cell.textContent) (colGap rowGap maxColWidth : Int) :
    tb.Aligned colGap rowGap maxColWidth ↔
      ∀ k < tb.numCols, tb.Fits maxColWidth k ∨ tb.Even maxColWidth k := by
  have hstart := cellsStart_of_valid h
  have hline := oneLine_of_valid h
  refine ⟨fun haligned k hk => fits_or_even_of_aligned hstart hline haligned hk, fun hall => ?_⟩
  refine (aligned_iff_runesIn hstart hline rowGap).2 fun i j row row' hrow hrow' k hk => ?_
  by_cases hfits : tb.Fits maxColWidth k
  · rw [runesIn_of_fits hk hfits hrow.mem, runesIn_of_fits hk hfits hrow'.mem]
  · have heven := (hall k hk).resolve_left hfits i j row row' hrow hrow'
    rw [runesIn_of_not_fits hstart hk hfits hrow.mem,
      runesIn_of_not_fits hstart hk hfits hrow'.mem, heven]

/-- A limit of at most a million makes every column fit. -/
theorem fits_of_maxColWidth (hpos : 0 < maxColWidth) (hle : maxColWidth ≤ maxWidth) (k : Nat) :
    tb.Fits maxColWidth k := by
  intro row _ cell _
  rw [limit]
  split <;> omega

end StyledTable

open StyledTable

/-- The bytes of characters are a text. -/
theorem valid_text (s : String) : Valid (text s) := ⟨s.toList, rfl⟩

/-- Cells of one, of two and of three bytes a character, one that is cut, and a gap. -/
def cityTable : StyledTable :=
  ⟨[[⟨[], text "Hop"⟩, ⟨[], text "City"⟩], [], [⟨[], text "1."⟩, ⟨[], text "München"⟩],
    [⟨[], text "2."⟩], [⟨[], text "3."⟩, ⟨[], text "東京 1234567890 1234567890"⟩]]⟩

theorem aligned_cityTable : cityTable.Aligned 2 0 24 := by
  refine (aligned_iff ?_ 2 0 24).2 fun k _ => Or.inl (fits_of_maxColWidth (by decide) (by decide) k)
  intro row hrow cell hcell
  have htexts : ∀ row ∈ cityTable.cells, ∀ cell ∈ row,
      (∃ s ∈ ["Hop", "City", "1.", "München", "2.", "3.", "東京 1234567890 1234567890"],
        cell.textContent = text s) ∧ 0x0A ∉ cell.textContent := by decide
  obtain ⟨⟨s, -, hs⟩, hnl⟩ := htexts row hrow cell hcell
  exact ⟨hs ▸ valid_text s, hnl⟩

/-- A text of so many letters. -/
def letters (n : Nat) : List UInt8 := List.replicate n 0x61

theorem letters_ascii (n : Nat) : ∀ x ∈ letters n, x < 0x80 := by
  intro x hx
  rw [List.eq_of_mem_replicate hx]
  decide

theorem runeCount_letters (n : Nat) : runeCount (letters n) = n := by
  rw [runeCount_ascii (letters_ascii n), letters, List.length_replicate]

/-- A cell of letters over a cell of one. -/
def wideTable (n : Nat) : StyledTable := ⟨[[⟨[], letters n⟩], [⟨[], letters 1⟩]]⟩

theorem texts_wideTable (n : Nat) : ∀ row ∈ (wideTable n).cells, ∀ cell ∈ row,
    Valid cell.textContent ∧ 0x0A ∉ cell.textContent := by
  have hcell : ∀ m, Valid (letters m) ∧ 0x0A ∉ letters m := fun m =>
    ⟨valid_ascii (letters_ascii m), fun hin => absurd (List.eq_of_mem_replicate hin) (by decide)⟩
  intro row hrow cell hin
  rcases List.mem_cons.1 hrow with rfl | hrow
  · rw [List.mem_singleton.1 hin]
    exact hcell n
  · rw [List.mem_singleton.1 hrow] at hin
    rw [List.mem_singleton.1 hin]
    exact hcell 1

/-- A million and one letters are one too many. -/
theorem wideTable_not_aligned :
    (∀ row ∈ (wideTable 1000001).cells, ∀ cell ∈ row,
      Valid cell.textContent ∧ 0x0A ∉ cell.textContent) ∧
    ¬(wideTable 1000001).Aligned 2 0 0 := by
  have htexts := texts_wideTable 1000001
  refine ⟨htexts, fun h => ?_⟩
  generalize hn : (1000001 : Nat) = n at h htexts
  have hlong : maxWidth < n := by
    rw [← hn]
    decide
  rcases fits_or_even_of_aligned (k := 0) (cellsStart_of_valid htexts) (oneLine_of_valid htexts) h
    Nat.zero_lt_one with hfits | heven
  · have hle := hfits _ List.mem_cons_self _ rfl
    rw [limit, if_neg fun hpos => absurd hpos.1 (by decide), letters, List.length_replicate] at hle
    omega
  · have hwhole : ∀ s, truncateCell 0 s = s := fun s => if_neg fun hpos => absurd hpos.1 (by decide)
    have hrunes := heven 0 1 _ _ ⟨rfl, fun hgap => absurd hgap.1 (by decide)⟩
      ⟨rfl, fun hgap => absurd hgap.2 (by decide)⟩
    simp only [cellText, List.getElem?_cons_zero, hwhole, runeCount_letters] at hrunes
    omega

end CloudPing.Table

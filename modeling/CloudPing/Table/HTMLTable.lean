import CloudPing.Html.Text
import CloudPing.Table.StyledTable
import Mathlib.Data.List.Basic

/-!
# Tables as HTML

`escapeHTML` replaces one byte after the other.  The ampersand comes first, and none of the others
stands in what is written for it, so that in the end each byte is replaced once
(`escapeHTML_eq`).  A cell is then a tag that its style determines, the escaped text, and a tag
(`writeHTMLCell_append`): its text ends at the next `<`, and no text has tags of its own.
-/

namespace CloudPing.Table

open Utf8

/-- `strings.ReplaceAll` of one byte. -/
def replaceAll (s : List UInt8) (old : UInt8) (new : List UInt8) : List UInt8 :=
  s.flatMap fun b => if b = old then new else [b]

def escapeHTML (s : List UInt8) : List UInt8 :=
  let s := replaceAll s 0x26 (text "&amp;")
  let s := replaceAll s 0x3C (text "&lt;")
  let s := replaceAll s 0x3E (text "&gt;")
  let s := replaceAll s 0x22 (text "&quot;")
  let s := replaceAll s 0x27 (text "&#39;")
  s

/-- The five replacements make an entity of each of the five bytes. -/
theorem escapeHTML_eq (s : List UInt8) : escapeHTML s = Html.escape s := by
  have hbyte : ∀ n : Fin 256, escapeHTML [UInt8.ofNat n.val] = Html.entity (UInt8.ofNat n.val) := by
    decide +kernel
  have hall := Html.forall_byte (P := fun b => escapeHTML [b] = Html.entity b) hbyte
  rw [Html.escape, ← funext hall]
  simp [escapeHTML, replaceAll, List.flatMap_assoc]

namespace StyledTable

def writeHTMLCell (rowIdx : Nat) (cell : StyledCell) : List UInt8 :=
  let escapedContent := escapeHTML cell.textContent
  let tag := if rowIdx = 0 then text "th" else text "td"
  if cell.style ≠ [] then
    text "<" ++ tag ++ text " style=\"border:1px solid;text-align:left;" ++ cell.style ++
      text "\">" ++ escapedContent ++ text "</" ++ tag ++ text ">"
  else
    text "<" ++ tag ++ text " style=\"border:1px solid;text-align:left\">" ++ escapedContent ++
      text "</" ++ tag ++ text ">"

def writeHTMLRows : Nat → List Row → List UInt8
  | _, [] => []
  | rowIdx, row :: rows =>
    (if row.length = 0 then []
      else text "<tr>" ++ row.flatMap (writeHTMLCell rowIdx) ++ text "</tr>") ++
      writeHTMLRows (rowIdx + 1) rows

def getReadableHTMLTable (tb : StyledTable) : List UInt8 :=
  if tb.cells.length = 0 then text "<table></table>"
  else
    text "<table border=\"1\" style=\"border-collapse: collapse;\">" ++
      writeHTMLRows 0 tb.cells ++ text "</table>"

/-! ## The tags of a table -/

/-- The styles, cell by cell. -/
def shape (tb : StyledTable) : List (List (List UInt8)) := tb.cells.map (·.map StyledCell.style)

/-- No style ends the attribute it stands in. -/
def Unquoted (tb : StyledTable) : Prop := ∀ row ∈ tb.cells, ∀ cell ∈ row, 0x22 ∉ cell.style

instance (tb : StyledTable) : Decidable tb.Unquoted :=
  inferInstanceAs (Decidable (∀ row ∈ tb.cells, ∀ cell ∈ row, 0x22 ∉ cell.style))

def tagName (rowIdx : Nat) : List UInt8 := if rowIdx = 0 then text "th" else text "td"

/-- The value of the attribute of a cell. -/
def inlineStyle (style : List UInt8) : List UInt8 :=
  text "border:1px solid;text-align:left" ++ if style = [] then [] else 0x3B :: style

def openTag (rowIdx : Nat) (style : List UInt8) : List UInt8 :=
  tagName rowIdx ++ text " style=" ++ 0x22 :: inlineStyle style ++ [0x22]

def closeTag (rowIdx : Nat) : List UInt8 := 0x2F :: tagName rowIdx

def rowTags (rowIdx : Nat) (styles : List (List UInt8)) : List (List UInt8) :=
  if styles = [] then []
  else text "tr" :: styles.flatMap (fun style => [openTag rowIdx style, closeTag rowIdx]) ++
    [text "/tr"]

def rowsTags : Nat → List (List (List UInt8)) → List (List UInt8)
  | _, [] => []
  | rowIdx, styles :: rows => rowTags rowIdx styles ++ rowsTags (rowIdx + 1) rows

/-- Which styles have a quote is seen from the shape. -/
theorem Unquoted.of_shape {tb tb' : StyledTable} (h : tb.Unquoted) (hshape : tb.shape = tb'.shape) :
    tb'.Unquoted := by
  have hiff : ∀ tb : StyledTable, tb.Unquoted ↔ ∀ styles ∈ tb.shape, ∀ style ∈ styles,
      0x22 ∉ style := fun tb => by simp only [Unquoted, shape, List.forall_mem_map]
  rw [hiff, ← hshape]
  exact (hiff tb).1 h

variable {tb tb' : StyledTable} {row row' : Row} {rows rows' : List Row} {cell cell' : StyledCell}
  {rest rest' : List UInt8}

/-- A cell begins with its tag, and its text ends before the next one. -/
theorem writeHTMLCell_append (rowIdx : Nat) (cell : StyledCell) (rest : List UInt8) :
    writeHTMLCell rowIdx cell ++ rest =
      0x3C :: (openTag rowIdx cell.style ++ 0x3E :: (Html.escape cell.textContent ++
        0x3C :: (closeTag rowIdx ++ 0x3E :: rest))) := by
  have hstyled : text " style=\"border:1px solid;text-align:left;" =
      text " style=" ++ 0x22 :: text "border:1px solid;text-align:left" ++ [0x3B] := by decide
  have hplain : text " style=\"border:1px solid;text-align:left\">" =
      text " style=" ++ 0x22 :: text "border:1px solid;text-align:left" ++ [0x22, 0x3E] := by decide
  have hlt : text "<" = [0x3C] := by decide
  have hend : text "\">" = [0x22, 0x3E] := by decide
  have hclose : text "</" = [0x3C, 0x2F] := by decide
  have hgt : text ">" = [0x3E] := by decide
  by_cases hnil : cell.style = []
  · simp only [writeHTMLCell, openTag, closeTag, tagName, inlineStyle, escapeHTML_eq, hnil, ne_eq,
      not_true_eq_false, if_false, if_true, hplain, hlt, hclose, hgt]
    simp
  · simp only [writeHTMLCell, openTag, closeTag, tagName, inlineStyle, escapeHTML_eq, hnil, ne_eq,
      not_false_eq_true, if_false, if_true, hstyled, hlt, hend, hclose, hgt]
    simp

/-! ### What is read of it -/

/-- The cell is determined by what is written, as soon as its style is known. -/
theorem writeHTMLCell_inj {rowIdx : Nat} (hstyle : cell.style = cell'.style)
    (h : writeHTMLCell rowIdx cell ++ rest = writeHTMLCell rowIdx cell' ++ rest') :
    cell = cell' ∧ rest = rest' := by
  rw [writeHTMLCell_append, writeHTMLCell_append, hstyle] at h
  have htext := (List.cons.inj (List.append_cancel_left (List.cons.inj h).2)).2
  obtain ⟨hcontent, hrest⟩ := Html.escape_append_inj htext
  refine ⟨?_, (List.cons.inj (List.append_cancel_left hrest)).2⟩
  obtain ⟨style, content⟩ := cell
  obtain ⟨style', content'⟩ := cell'
  exact congrArg₂ StyledCell.mk hstyle hcontent

theorem cells_inj {rowIdx : Nat} (hstyles : row.map StyledCell.style = row'.map StyledCell.style)
    (h : row.flatMap (writeHTMLCell rowIdx) ++ rest =
      row'.flatMap (writeHTMLCell rowIdx) ++ rest') : row = row' ∧ rest = rest' := by
  induction row generalizing row' with
  | nil =>
    cases row' with
    | nil => exact ⟨rfl, h⟩
    | cons cell' row' => cases hstyles
  | cons cell row ih =>
    cases row' with
    | nil => cases hstyles
    | cons cell' row' =>
      obtain ⟨hstyle, hrow⟩ := List.cons.inj hstyles
      rw [List.flatMap_cons, List.flatMap_cons, List.append_assoc, List.append_assoc] at h
      obtain ⟨rfl, htail⟩ := writeHTMLCell_inj hstyle h
      obtain ⟨rfl, hrest⟩ := ih hrow htail
      exact ⟨rfl, hrest⟩

theorem writeHTMLRows_inj {rowIdx : Nat}
    (hshape : rows.map (·.map StyledCell.style) = rows'.map (·.map StyledCell.style))
    (h : writeHTMLRows rowIdx rows ++ rest = writeHTMLRows rowIdx rows' ++ rest) :
    rows = rows' := by
  induction rows generalizing rows' rowIdx with
  | nil =>
    cases rows' with
    | nil => rfl
    | cons row' rows' => cases hshape
  | cons row rows ih =>
    cases rows' with
    | nil => cases hshape
    | cons row' rows' =>
      obtain ⟨hstyles, htail⟩ := List.cons.inj hshape
      have hlen : row.length = row'.length := by
        simpa only [List.length_map] using congrArg List.length hstyles
      rw [writeHTMLRows, writeHTMLRows, hlen] at h
      by_cases hzero : row'.length = 0
      · rw [if_pos hzero, if_pos hzero] at h
        rw [ih htail h, List.eq_nil_of_length_eq_zero hzero,
          List.eq_nil_of_length_eq_zero (hlen.trans hzero)]
      · rw [if_neg hzero, if_neg hzero] at h
        simp only [List.append_assoc] at h
        obtain ⟨rfl, hrest⟩ := cells_inj hstyles (List.append_cancel_left h)
        rw [ih htail (List.append_cancel_left hrest)]

/-- Different texts are written differently. -/
theorem getReadableHTMLTable_inj (hshape : tb.shape = tb'.shape)
    (h : tb.getReadableHTMLTable = tb'.getReadableHTMLTable) : tb = tb' := by
  obtain ⟨rows⟩ := tb
  obtain ⟨rows'⟩ := tb'
  have hlen : rows.length = rows'.length := by
    simpa only [shape, List.length_map] using congrArg List.length hshape
  simp only [getReadableHTMLTable, hlen] at h
  split at h
  next hzero =>
    rw [List.eq_nil_of_length_eq_zero hzero, List.eq_nil_of_length_eq_zero (hlen.trans hzero)]
  next =>
    rw [List.append_assoc, List.append_assoc] at h
    exact congrArg StyledTable.mk (writeHTMLRows_inj hshape (List.append_cancel_left h))

/-! ### The tags -/

theorem tags_writeHTMLCell {rowIdx : Nat} (h : 0x22 ∉ cell.style) :
    Html.tags (writeHTMLCell rowIdx cell ++ rest) =
      openTag rowIdx cell.style :: closeTag rowIdx :: Html.tags rest := by
  have hname : ∀ b ∈ tagName rowIdx, b ≠ 0x3E ∧ b ≠ 0x22 ∧ b ≠ 0x27 := by
    rw [tagName]
    split <;> decide
  have hkey : ∀ b ∈ text " style=", b ≠ 0x3E ∧ b ≠ 0x22 ∧ b ≠ 0x27 := by decide
  have hslash : ∀ b ∈ closeTag rowIdx, b ≠ 0x3E ∧ b ≠ 0x22 ∧ b ≠ 0x27 :=
    List.forall_mem_cons.2 ⟨by decide, hname⟩
  have hvalue : 0x22 ∉ inlineStyle cell.style := by
    rw [inlineStyle, List.mem_append, not_or]
    refine ⟨by decide, ?_⟩
    split
    · exact List.not_mem_nil
    · exact List.not_mem_cons_of_ne_of_not_mem (by decide) h
  have hfront : ∀ back, Html.tagsIn .tag [] (openTag rowIdx cell.style ++ back) =
      Html.tagsIn .tag (openTag rowIdx cell.style) back := by
    intro back
    have hq := Html.tagsIn_quoted hvalue (tagName rowIdx ++ text " style=") back
    rw [openTag, List.append_assoc, List.append_assoc, List.append_assoc, Html.tagsIn_plain hname,
      Html.tagsIn_plain hkey, List.nil_append]
    simpa using hq
  rw [writeHTMLCell_append, Html.tags_open, hfront, Html.tagsIn_close,
    Html.tagsIn_text (Html.not_mem_escape (by decide) _), Html.tags_open,
    Html.tagsIn_plain hslash, Html.tagsIn_close, List.nil_append]

theorem tags_cells {rowIdx : Nat} (h : ∀ cell ∈ row, 0x22 ∉ cell.style) :
    Html.tags (row.flatMap (writeHTMLCell rowIdx) ++ rest) =
      (row.map StyledCell.style).flatMap (fun style => [openTag rowIdx style, closeTag rowIdx]) ++
        Html.tags rest := by
  induction row with
  | nil => rfl
  | cons cell row ih =>
    obtain ⟨hcell, hrow⟩ := List.forall_mem_cons.1 h
    rw [List.flatMap_cons, List.append_assoc, tags_writeHTMLCell hcell, ih hrow]
    rfl

theorem tags_writeHTMLRows {rowIdx : Nat} (h : ∀ row ∈ rows, ∀ cell ∈ row, 0x22 ∉ cell.style) :
    Html.tags (writeHTMLRows rowIdx rows ++ rest) =
      rowsTags rowIdx (rows.map (·.map StyledCell.style)) ++ Html.tags rest := by
  have hopen : ∀ back, Html.tags (text "<tr>" ++ back) = text "tr" :: Html.tags back :=
    fun back => rfl
  have hclose : ∀ back, Html.tags (text "</tr>" ++ back) = text "/tr" :: Html.tags back :=
    fun back => rfl
  induction rows generalizing rowIdx with
  | nil => rfl
  | cons row rows ih =>
    obtain ⟨hrow, hrows⟩ := List.forall_mem_cons.1 h
    rw [writeHTMLRows, List.map_cons, rowsTags, rowTags, List.append_assoc]
    by_cases hzero : row.length = 0
    · rw [if_pos hzero, List.eq_nil_of_length_eq_zero hzero]
      exact ih hrows
    · have hne : row.map StyledCell.style ≠ [] :=
        fun hnil => hzero (by rw [List.map_eq_nil_iff.1 hnil]; rfl)
      rw [if_neg hzero, if_neg hne, List.append_assoc, List.append_assoc, hopen, tags_cells hrow,
        hclose, ih hrows]
      simp

set_option maxRecDepth 1000 in
/-- The tags come from the styles alone. -/
theorem tags_getReadableHTMLTable (h : tb.Unquoted) :
    Html.tags tb.getReadableHTMLTable =
      (if tb.shape = [] then [text "table", text "/table"]
        else text "table border=\"1\" style=\"border-collapse: collapse;\"" ::
          rowsTags 0 tb.shape ++ [text "/table"]) := by
  have hopen : ∀ back,
      Html.tags (text "<table border=\"1\" style=\"border-collapse: collapse;\">" ++ back) =
        text "table border=\"1\" style=\"border-collapse: collapse;\"" :: Html.tags back :=
    fun back => rfl
  obtain ⟨rows⟩ := tb
  cases rows with
  | nil => rfl
  | cons row rows =>
    have hlen : (StyledTable.mk (row :: rows)).cells.length ≠ 0 := Nat.succ_ne_zero _
    have hne : (StyledTable.mk (row :: rows)).shape ≠ [] := List.cons_ne_nil _ _
    rw [getReadableHTMLTable, if_neg hlen, if_neg hne, List.append_assoc, hopen,
      tags_writeHTMLRows h]
    rfl

end StyledTable

/-! ## Texts in a table -/

/-- A text is written without the bytes of markup and is read back; tables of one shape that differ
in their texts are written differently, and with the same tags. -/
theorem StyledTable.html_lossless :
    (∀ s, (∀ b ∈ Html.markup, b ∉ escapeHTML s) ∧ ¬Html.BareAmpersand (escapeHTML s) ∧
        Html.decode (escapeHTML s) = s) ∧
      ∀ tb tb' : StyledTable, tb.Unquoted → tb.shape = tb'.shape →
        (tb ≠ tb' → tb.getReadableHTMLTable ≠ tb'.getReadableHTMLTable) ∧
          Html.tags tb.getReadableHTMLTable = Html.tags tb'.getReadableHTMLTable := by
  refine ⟨fun s => ?_, fun tb tb' hquote hshape => ⟨fun hne heq => ?_, ?_⟩⟩
  · rw [escapeHTML_eq]
    exact ⟨fun b hb => Html.not_mem_escape hb s, Html.not_bareAmpersand_escape s,
      Html.decode_escape s⟩
  · exact hne (getReadableHTMLTable_inj hshape heq)
  · rw [tags_getReadableHTMLTable hquote, tags_getReadableHTMLTable (hquote.of_shape hshape),
      hshape]

/-- A header, a gap, and a cell in red. -/
def hopTable (name : String) : StyledTable :=
  ⟨[[⟨[], text "Hop"⟩, ⟨[], text "Name"⟩], [],
    [⟨[], text "1."⟩, ⟨text "color:red", text name⟩]]⟩

/-- Names that look like the end of a cell, and like an entity. -/
theorem hopTable_lossless :
    (hopTable "</td><td>a&b").getReadableHTMLTable ≠ (hopTable "&lt;").getReadableHTMLTable ∧
      Html.tags (hopTable "</td><td>a&b").getReadableHTMLTable =
        Html.tags (hopTable "&lt;").getReadableHTMLTable := by
  have hne : hopTable "</td><td>a&b" ≠ hopTable "&lt;" := by
    intro heq
    have htext := congrArg (fun tb => tb.cells.flatten.map fun cell => cell.textContent.length) heq
    revert htext
    decide
  obtain ⟨hdiff, htags⟩ :=
    StyledTable.html_lossless.2 (hopTable "</td><td>a&b") (hopTable "&lt;") (by decide) rfl
  exact ⟨hdiff hne, htags⟩

end CloudPing.Table

import CloudPing.Ecma.TransformStream
import CloudPing.Wire.Splitter
import Mathlib.Data.List.Basic

/-!
# The line tokenizer of the browser

A string is its code units.  `LineTokenizer` keeps in its buffer what stands behind the last
newline.  The loop of `transform` gives the lines of the buffer and of the chunk behind it
(`splitBuffer_eq`), and so the tokenizer follows `Splitter.lines` (`lineTokenizer_follows`).

A carriage return is taken off when the line is complete, and not before: it may come at the end
of one chunk, and its newline at the beginning of the next.
-/

namespace CloudPing.Web

open Wire Ecma

abbrev CodeUnits := List UInt16

structure TokenObject where
  content : CodeUnits

def newline : UInt16 := 0x0A

def carriageReturn : UInt16 := 0x0D

def cleanLine (line : CodeUnits) : CodeUnits :=
  if line.getLast? = some carriageReturn then line.dropLast else line

/-- A newline that is found is the first one. -/
theorem eq_append_of_idxOf? {buffer : CodeUnits} {newlineIndex : Nat}
    (h : buffer.idxOf? newline = some newlineIndex) :
    newline ∉ buffer.take newlineIndex ∧
      buffer = buffer.take newlineIndex ++ newline :: buffer.drop (newlineIndex + 1) := by
  obtain ⟨hlt, hget, hbefore⟩ := List.idxOf?_eq_some_iff.1 h
  constructor
  · intro hin
    obtain ⟨j, hj, hjget⟩ := List.mem_take_iff_getElem.1 hin
    exact hbefore j (Nat.lt_of_lt_of_le hj (Nat.min_le_left _ _)) hjget
  · rw [← hget, List.getElem_cons_drop hlt, List.take_append_drop]

/-- The loop of `transform`: the lines of the buffer, and what is left in it. -/
def splitBuffer (buffer : CodeUnits) : List TokenObject × CodeUnits :=
  match hnl : buffer.idxOf? newline with
  | none => ([], buffer)
  | some newlineIndex =>
    have : (buffer.drop (newlineIndex + 1)).length < buffer.length := by
      rw [List.length_drop]
      exact Nat.sub_lt_of_pos_le (Nat.succ_pos _) (List.idxOf?_eq_some_iff.1 hnl).1
    let tail := splitBuffer (buffer.drop (newlineIndex + 1))
    (⟨cleanLine (buffer.take newlineIndex)⟩ :: tail.1, tail.2)
  termination_by buffer.length

def lineTokenizer : Transformer Empty CodeUnits CodeUnits TokenObject where
  start := []
  transform buffer chunk :=
    let split := splitBuffer (buffer ++ chunk)
    (split.1, .ok split.2)
  flush buffer := (if buffer ≠ [] then [⟨cleanLine buffer⟩] else [], .ok ())

theorem splitBuffer_eq (buffer : CodeUnits) :
    splitBuffer buffer = ((completeLines newline buffer).map fun line => ⟨cleanLine line⟩,
      unterminated newline buffer) := by
  fun_induction splitBuffer buffer with
  | case1 buffer hnl =>
    have hnot := List.idxOf?_eq_none_iff.1 hnl
    rw [completeLines_of_not_mem hnot, unterminated_of_not_mem hnot]
    rfl
  | case2 buffer newlineIndex hnl hlt tail ih =>
    obtain ⟨hnot, hbuffer⟩ := eq_append_of_idxOf? hnl
    have htail : tail = _ := ih
    rw [htail]
    conv_rhs => rw [hbuffer, completeLines_line hnot, unterminated_line hnot]
    rfl

theorem lineTokenizer_follows : lineTokenizer.Follows (Splitter.lines newline)
    (fun line => TokenObject.mk (cleanLine line)) id id fun _ => True where
  good_start := trivial
  held_start := rfl
  step buffer chunk _ := by
    refine ⟨unterminated newline (buffer ++ chunk), ?_, rfl, trivial⟩
    change ((splitBuffer (buffer ++ chunk)).1, Except.ok (splitBuffer (buffer ++ chunk)).2) = _
    rw [splitBuffer_eq]
    rfl

/-- The tokens are the lines of the text, however it was cut. -/
theorem lineTokenizer_run (chunks : List CodeUnits) :
    lineTokenizer.run chunks =
      ((linesOf newline chunks.flatten).map fun line => ⟨cleanLine line⟩, .ok ()) := by
  obtain ⟨buffer, hfeed, hbuffer, -⟩ := lineTokenizer_follows.feed_eq chunks
  rw [List.map_id] at hfeed
  have hheld : buffer = unterminated newline chunks.flatten := hbuffer
  rw [Transformer.run, hfeed]
  simp only [lineTokenizer, linesOf, List.map_append, hheld]
  by_cases hnil : unterminated newline chunks.flatten = []
  · simp only [hnil, ne_eq, not_true_eq_false, if_false, if_true]
    rfl
  · simp only [hnil, ne_eq, not_false_eq_true, if_false, if_true]
    rfl

end CloudPing.Web

import Mathlib.Data.List.Basic
import Mathlib.Data.List.Induction

/-!
# Texts that are split as they arrive

A splitter says what items are complete in a text, and what is left of the text behind them.  It
may be applied piece by piece: the items of two pieces are those of the first one, and those of
what it leaves with the second one.

A text is split into lines at a separator (`Splitter.lines`), or into words of a fixed size
(`Splitter.words`).
-/

namespace Wire

universe u v

structure Splitter (α : Type u) (β : Type v) where
  items : List α → List β
  rest : List α → List α
  items_nil : items [] = []
  rest_nil : rest [] = []
  items_append : ∀ s t, items (s ++ t) = items s ++ items (rest s ++ t)
  rest_append : ∀ s t, rest (s ++ t) = rest (rest s ++ t)

namespace Splitter

variable {α : Type u} {β : Type v} (p : Splitter α β)

theorem items_rest (s : List α) : p.items (p.rest s) = [] := by
  have h := p.items_append s []
  rw [List.append_nil, List.append_nil] at h
  exact List.append_cancel_left (h.symm.trans (List.append_nil _).symm)

theorem rest_rest (s : List α) : p.rest (p.rest s) = p.rest s := by
  have h := p.rest_append s []
  rw [List.append_nil, List.append_nil] at h
  exact h.symm

end Splitter

/-! ## Lines -/

section Lines

variable {α : Type u} [DecidableEq α] {sep : α}

/-- The lines of a text that are terminated. -/
def completeLines (sep : α) (s : List α) : List (List α) := (s.splitOn sep).dropLast

/-- What stands behind the last separator. -/
def unterminated (sep : α) (s : List α) : List α := (s.splitOn sep).getLast (s.splitOn_ne_nil sep)

/-- The lines of a text that has ended: the last one may have no separator. -/
def linesOf (sep : α) (s : List α) : List (List α) :=
  completeLines sep s ++ if unterminated sep s = [] then [] else [unterminated sep s]

/-- Whatever follows a text stands behind its last separator. -/
theorem exists_splitOn_append (sep : α) (s : List α) : ∃ lines last, sep ∉ last ∧
    ∀ t, (s ++ t).splitOn sep = lines ++ (last ++ t).splitOn sep := by
  induction s using List.reverseRecOn with
  | nil => exact ⟨[], [], List.not_mem_nil, fun t => rfl⟩
  | append_singleton s x ih =>
    obtain ⟨lines, last, hlast, hsplit⟩ := ih
    by_cases hx : x = sep
    · subst hx
      refine ⟨lines ++ [last], [], List.not_mem_nil, fun t => ?_⟩
      rw [List.append_assoc, List.singleton_append, hsplit,
        List.splitOn_append_cons_self_of_not_mem hlast, List.append_assoc]
      rfl
    · refine ⟨lines, last ++ [x], ?_, fun t => ?_⟩
      · rw [List.mem_append, List.mem_singleton]
        exact fun h => h.elim hlast (Ne.symm hx)
      · rw [List.append_assoc, hsplit, List.append_assoc]

theorem splitOn_append (s t : List α) :
    (s ++ t).splitOn sep = completeLines sep s ++ (unterminated sep s ++ t).splitOn sep := by
  obtain ⟨lines, last, hlast, hsplit⟩ := exists_splitOn_append sep s
  have hs : s.splitOn sep = lines ++ [last] := by
    have h := hsplit []
    rwa [List.append_nil, List.append_nil, List.splitOn_eq_singleton hlast] at h
  have hrest : unterminated sep s = last := by
    simp only [unterminated, hs]
    exact List.getLast_append_singleton _
  rw [hrest, completeLines, hs, List.dropLast_concat, hsplit]

theorem completeLines_of_not_mem {s : List α} (h : sep ∉ s) : completeLines sep s = [] := by
  rw [completeLines, List.splitOn_eq_singleton h]
  rfl

theorem unterminated_of_not_mem {s : List α} (h : sep ∉ s) : unterminated sep s = s := by
  simp only [unterminated, List.splitOn_eq_singleton h]
  rfl

theorem completeLines_line {line : List α} (h : sep ∉ line) (s : List α) :
    completeLines sep (line ++ sep :: s) = line :: completeLines sep s := by
  rw [completeLines, List.splitOn_append_cons_self_of_not_mem h,
    List.dropLast_cons_of_ne_nil (List.splitOn_ne_nil sep s)]
  rfl

theorem unterminated_line {line : List α} (h : sep ∉ line) (s : List α) :
    unterminated sep (line ++ sep :: s) = unterminated sep s := by
  simp only [unterminated, List.splitOn_append_cons_self_of_not_mem h]
  exact List.getLast_cons (List.splitOn_ne_nil sep s)

/-- Lines that all have their separator. -/
theorem splitOn_terminated {lines : List (List α)} (h : ∀ line ∈ lines, sep ∉ line) :
    completeLines sep (lines.flatMap (· ++ [sep])) = lines ∧
      unterminated sep (lines.flatMap (· ++ [sep])) = [] := by
  induction lines with
  | nil =>
    exact ⟨completeLines_of_not_mem List.not_mem_nil, unterminated_of_not_mem List.not_mem_nil⟩
  | cons line lines ih =>
    have hline := h line List.mem_cons_self
    obtain ⟨hlines, hrest⟩ := ih fun l hl => h l (List.mem_cons_of_mem _ hl)
    rw [List.flatMap_cons, List.append_assoc, List.singleton_append, completeLines_line hline,
      unterminated_line hline, hlines]
    exact ⟨rfl, hrest⟩

def Splitter.lines (sep : α) : Splitter α (List α) where
  items := completeLines sep
  rest := unterminated sep
  items_nil := completeLines_of_not_mem List.not_mem_nil
  rest_nil := unterminated_of_not_mem List.not_mem_nil
  items_append s t := by
    rw [completeLines, splitOn_append,
      List.dropLast_append_of_ne_nil (List.splitOn_ne_nil sep _)]
    rfl
  rest_append s t := by
    simp only [unterminated, splitOn_append s t]
    exact List.getLast_append_of_ne_nil _ (List.splitOn_ne_nil sep _)

end Lines

/-! ## Words -/

/-- The number that bytes are, the most significant one first. -/
def bigEndian (bytes : List UInt8) : Nat := bytes.foldl (fun n b => n * 256 + b.toNat) 0

/-- The bytes of a word. -/
def wordAt (size : Nat) (s : List UInt8) (k : Nat) : List UInt8 := (s.drop (k * size)).take size

/-- The words of a text, of so many bytes each. -/
def wordsOf (size : Nat) (s : List UInt8) : List Nat :=
  (List.range (s.length / size)).map fun k => bigEndian (wordAt size s k)

/-- What stands behind the last word. -/
def partialWord (size : Nat) (s : List UInt8) : List UInt8 := s.drop (s.length / size * size)

theorem length_partialWord (size : Nat) (s : List UInt8) :
    (partialWord size s).length = s.length % size := by
  rw [partialWord, List.length_drop, Nat.mod_eq_sub_div_mul]

theorem wordsOf_of_lt {size : Nat} {s : List UInt8} (h : s.length < size) :
    wordsOf size s = [] := by
  rw [wordsOf, Nat.div_eq_of_lt h]
  rfl

theorem partialWord_of_lt {size : Nat} {s : List UInt8} (h : s.length < size) :
    partialWord size s = s := by
  rw [partialWord, Nat.div_eq_of_lt h, Nat.zero_mul, List.drop_zero]

section Words

variable {size : Nat} (s t : List UInt8)

/-- Behind the words of a text the bytes of what follows are counted from its last one on. -/
theorem drop_words_append (n : Nat) :
    (s ++ t).drop (s.length / size * size + n) = (partialWord size s ++ t).drop n := by
  rw [← List.drop_drop, List.drop_append_of_le_length (Nat.div_mul_le_self _ _), partialWord]

theorem length_append_div (h : 0 < size) :
    (s ++ t).length / size = s.length / size + (partialWord size s ++ t).length / size := by
  rw [List.length_append, List.length_append, length_partialWord, ← Nat.mul_add_div h]
  congr 1
  have hdiv := Nat.div_add_mod s.length size
  omega

theorem wordAt_append_left {k : Nat} (hk : k < s.length / size) :
    wordAt size (s ++ t) k = wordAt size s k := by
  have hle : (k + 1) * size ≤ s.length :=
    Nat.le_trans (Nat.mul_le_mul_right size hk) (Nat.div_mul_le_self _ _)
  rw [Nat.succ_mul] at hle
  rw [wordAt, wordAt, List.drop_append_of_le_length (by omega),
    List.take_append_of_le_length (by rw [List.length_drop]; omega)]

theorem wordAt_append_right (k : Nat) :
    wordAt size (s ++ t) (s.length / size + k) = wordAt size (partialWord size s ++ t) k := by
  rw [wordAt, wordAt, Nat.add_mul, drop_words_append]

end Words

def Splitter.words (size : Nat) (h : 0 < size) : Splitter UInt8 Nat where
  items := wordsOf size
  rest := partialWord size
  items_nil := wordsOf_of_lt h
  rest_nil := partialWord_of_lt h
  items_append s t := by
    rw [wordsOf, length_append_div s t h, List.range_add, List.map_append, List.map_map]
    congr 1
    · refine List.map_congr_left fun k hk => ?_
      rw [wordAt_append_left s t (List.mem_range.1 hk)]
    · refine List.map_congr_left fun k _ => ?_
      rw [Function.comp_apply, wordAt_append_right]
  rest_append s t := by
    rw [partialWord, length_append_div s t h, Nat.add_mul, drop_words_append]
    rfl

end Wire

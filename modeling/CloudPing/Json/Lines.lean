import CloudPing.Json.Value
import CloudPing.Utf8.Decode
import CloudPing.Wire.LineScanner

/-!
# Values in lines

The text of a value has no line break in it (`not_break_of_mem_text`), so values may be written
one in each line, and a reader of lines has the text of each (`allLines_lines`).

A value nests no deeper than its text is long.  A reader without a bound on the nesting is one with
the length of the text for a bound (`parseAny`), and it reads every value back
(`parseAny_text`).
-/

namespace Json

/-- A character that ends a line. -/
def isBreak (c : Char) : Bool := c = '\n' ∨ c = '\r'

theorem isBreak_of_inWord {c : Char} (h : inWord c = true) : isBreak c = false := by
  rw [Bool.eq_false_iff]
  intro hb
  rcases of_decide_eq_true hb with rfl | rfl
  · revert h
    decide
  · revert h
    decide

theorem isBreak_of_all {cs : List Char} (h : (cs.all fun c => !isBreak c) = true) {c : Char}
    (hc : c ∈ cs) : isBreak c = false := by
  simpa using List.all_eq_true.1 h c hc

theorem isBreak_digitChar {n : Nat} (h : n < 16) : isBreak n.digitChar = false := by
  revert n
  decide

/-- A character of a string is written without a line break. -/
theorem isBreak_of_mem_escapeChar {c d : Char} (h : d ∈ escapeChar c) : isBreak d = false := by
  rw [escapeChar] at h
  split at h
  next e he =>
    have hmem : e ∈ ['"', '\\', 'b', 'f', 'n', 'r', 't'] := by
      unfold shortEscape at he
      grind
    rcases List.mem_pair.1 h with rfl | rfl
    · decide
    · exact isBreak_of_all (by decide) hmem
  next he =>
    split at h
    next =>
      simp only [unicodeEscape, List.mem_cons, List.not_mem_nil, or_false] at h
      rcases h with rfl | rfl | rfl | rfl | rfl | rfl
      · decide
      · decide
      all_goals exact isBreak_digitChar (Nat.mod_lt _ (by decide))
    next =>
      rw [List.mem_singleton] at h
      subst h
      rw [Bool.eq_false_iff]
      intro hb
      rcases of_decide_eq_true hb with rfl | rfl
      · revert he
        decide
      · revert he
        decide

theorem isBreak_of_mem_token {tok : Token} (hv : tok.Valid) {c : Char} (h : c ∈ tok.text) :
    isBreak c = false := by
  cases tok with
  | num lit => exact isBreak_of_inWord (all_inWord_of_isNumber hv c h)
  | str s =>
    rw [Token.text, List.mem_cons, List.mem_append, List.mem_singleton] at h
    rcases h with rfl | h | rfl
    · decide
    · obtain ⟨c', -, hc⟩ := List.mem_flatMap.1 h
      exact isBreak_of_mem_escapeChar hc
    · decide
  | bool b => exact isBreak_of_all (by cases b <;> decide) h
  | _ => exact isBreak_of_all (by decide) h

/-- The text of a value has no line break. -/
theorem not_break_of_mem_text {v : Value} (hv : v.Valid) {c : Char} (h : c ∈ v.text) :
    isBreak c = false := by
  obtain ⟨tok, htok, hc⟩ := List.mem_flatMap.1 h
  exact isBreak_of_mem_token (hv tok htok) hc

/-! ## Lines of bytes -/

/-- What an encoder writes for a value. -/
def Value.line (v : Value) : List UInt8 := Utf8.encode (v.text ++ ['\n'])

section Lines

variable {v : Value}

theorem ne_break_of_mem_text (hv : v.Valid) {c : Char} (h : c ∈ v.text) : c ≠ '\n' ∧ c ≠ '\r' := by
  have hb := not_break_of_mem_text hv h
  constructor
  · rintro rfl
    cases hb
  · rintro rfl
    cases hb

theorem line_eq (v : Value) : v.line = Utf8.encode v.text ++ [Wire.newline] := by
  rw [Value.line, Utf8.encode, List.flatMap_append]
  rfl

theorem newline_notMem_text (hv : v.Valid) : Wire.newline ∉ Utf8.encode v.text := by
  intro hmem
  obtain ⟨c, hc, heq⟩ := Utf8.mem_of_mem_encode hmem (by decide)
  exact (ne_break_of_mem_text hv hc).1 (Char.toNat_inj.1 heq.symm)

/-- The text of a value does not end in a carriage return. -/
theorem dropCR_text (hv : v.Valid) : Wire.dropCR (Utf8.encode v.text) = Utf8.encode v.text := by
  rw [Wire.dropCR]
  split_ifs with hlast
  · obtain ⟨c, hc, heq⟩ := Utf8.mem_of_mem_encode (List.mem_of_getLast? hlast) (by decide)
    exact absurd (Char.toNat_inj.1 heq.symm) (ne_break_of_mem_text hv hc).2
  · rfl

/-- A reader of lines has the text of each value. -/
theorem allLines_lines {vs : List Value} (hvs : ∀ v ∈ vs, v.Valid) :
    (Wire.allLines (vs.flatMap Value.line)).map Wire.dropCR =
      vs.map fun v => Utf8.encode v.text := by
  have hlines : vs.flatMap Value.line = Wire.unlines (vs.map fun v => Utf8.encode v.text) := by
    rw [Wire.unlines, List.flatMap_map]
    exact List.flatMap_congr fun v _ => line_eq v
  have hnl : ∀ line ∈ vs.map fun v => Utf8.encode v.text, Wire.newline ∉ line := by
    intro line hline
    obtain ⟨v, hv, rfl⟩ := List.mem_map.1 hline
    exact newline_notMem_text (hvs v hv)
  have hall := Wire.allLines_unlines hnl []
  have hnil : Wire.allLines [] = [] := rfl
  rw [List.append_nil, hnil, List.append_nil] at hall
  rw [hlines, hall, List.map_map]
  exact List.map_congr_left fun v hv => dropCR_text (hvs v hv)

end Lines

/-! ## Reading without a bound -/

mutual

/-- A value nests no deeper than it has tokens. -/
theorem depth_le_tokens : ∀ v : Value, v.depth ≤ v.tokens.length
  | .null | .bool _ | .num _ | .str _ => Nat.zero_le _
  | .arr vs => by
    rw [Value.depth, Value.tokens, List.length_cons]
    exact Nat.succ_le_succ (depth_le_elemTokens vs)
  | .obj ms => by
    rw [Value.depth, Value.tokens, List.length_cons]
    exact Nat.succ_le_succ (depth_le_memberTokens ms)

theorem depth_le_elemTokens : ∀ vs : List Value, elemsDepth vs ≤ (elemTokens vs).length
  | [] => Nat.zero_le _
  | v :: vs => by
    have hv := depth_le_tokens v
    have hvs := depth_le_moreElemTokens vs
    rw [elemsDepth, elemTokens, List.length_append]
    omega

theorem depth_le_moreElemTokens : ∀ vs : List Value, elemsDepth vs ≤ (moreElemTokens vs).length
  | [] => Nat.zero_le _
  | v :: vs => by
    have hv := depth_le_tokens v
    have hvs := depth_le_moreElemTokens vs
    rw [elemsDepth, moreElemTokens, List.length_cons, List.length_append]
    omega

theorem depth_le_memberTokens : ∀ ms : List (String × Value),
    membersDepth ms ≤ (memberTokens ms).length
  | [] => Nat.zero_le _
  | (k, v) :: ms => by
    have hv := depth_le_tokens v
    have hms := depth_le_moreMemberTokens ms
    rw [membersDepth, memberTokens, List.length_cons, List.length_cons, List.length_append]
    omega

theorem depth_le_moreMemberTokens : ∀ ms : List (String × Value),
    membersDepth ms ≤ (moreMemberTokens ms).length
  | [] => Nat.zero_le _
  | (k, v) :: ms => by
    have hv := depth_le_tokens v
    have hms := depth_le_moreMemberTokens ms
    rw [membersDepth, moreMemberTokens, List.length_cons, List.length_cons, List.length_cons,
      List.length_append]
    omega

end

theorem length_text_pos {tok : Token} (hv : tok.Valid) : 1 ≤ tok.text.length := by
  cases tok with
  | num lit =>
    rw [Token.text]
    cases hl : lit.toList with
    | nil =>
      rw [Token.Valid, hl] at hv
      cases hv
    | cons c cs => exact Nat.succ_le_succ (Nat.zero_le _)
  | bool b => cases b <;> decide
  | str s =>
    rw [Token.text, List.length_cons]
    exact Nat.succ_le_succ (Nat.zero_le _)
  | _ => decide

theorem depth_le_text {v : Value} (hv : v.Valid) : v.depth ≤ v.text.length := by
  have hall : ∀ toks : List Token, (∀ tok ∈ toks, tok.Valid) →
      toks.length ≤ (toks.flatMap Token.text).length := by
    intro toks
    induction toks with
    | nil => exact fun _ => Nat.zero_le _
    | cons tok toks ih =>
      intro htoks
      have hpos := length_text_pos (htoks tok List.mem_cons_self)
      have htail := ih fun t ht => htoks t (List.mem_cons_of_mem _ ht)
      rw [List.flatMap_cons, List.length_cons, List.length_append]
      omega
  exact (depth_le_tokens v).trans (hall v.tokens hv)

/-- The value of a text, however deep it nests. -/
def parseAny (cs : List Char) : Option Value := parse cs.length cs

theorem parseAny_text {v : Value} (hv : v.Valid) : parseAny v.text = some v :=
  parse_text ⟨hv, depth_le_text hv⟩

end Json

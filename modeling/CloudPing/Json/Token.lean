import CloudPing.Wire.Decimal
import Mathlib.Data.List.Chain
import Mathlib.Data.List.TakeWhile

/-!
# JSON text as tokens

A text is read one character at a time by a machine whose modes are the places inside a
token.  Between tokens it skips white space.  A word, that is `null`, a Boolean or a number,
goes up to the first character that cannot be in one.  A string is decoded as it is read.
Half of a surrogate pair waits for the other half and becomes the replacement character
when that does not follow.

Numbers are kept as literals, since what a literal means depends on the type it is read for.

Tokens written one behind another are read again (`lex_texts`), if no two of them are words
without a token between them.
-/

namespace Json

inductive Token where
  | lbrace | rbrace | lbracket | rbracket | comma | colon
  | null
  | bool (b : Bool)
  | num (lit : String)
  | str (s : String)
  deriving DecidableEq, Repr

/-! ## Number literals -/

/-- An exponent, or nothing. -/
def isExponent : List Char → Bool
  | [] => true
  | e :: cs =>
    (e == 'e' || e == 'E') &&
      match cs with
      | [] => false
      | c :: ds => (c.isDigit || (c == '+' || c == '-') && ds != []) && ds.all Char.isDigit

/-- A fraction and an exponent, or either, or nothing. -/
def isFraction : List Char → Bool
  | '.' :: c :: ds => c.isDigit && isExponent (ds.dropWhile Char.isDigit)
  | cs => isExponent cs

/-- A literal without a sign.  The first of several digits is not zero. -/
def isMagnitude : List Char → Bool
  | [] => false
  | c :: cs =>
    if c = '0' then isFraction cs
    else c.isDigit && isFraction (cs.dropWhile Char.isDigit)

def isNumber : List Char → Bool
  | '-' :: cs => isMagnitude cs
  | cs => isMagnitude cs

/-! ## Writing strings -/

/-- The letter that stands behind a backslash for a character. -/
def shortEscape (c : Char) : Option Char :=
  if c = '"' then some '"'
  else if c = '\\' then some '\\'
  else if c = '\x08' then some 'b'
  else if c = '\x0c' then some 'f'
  else if c = '\n' then some 'n'
  else if c = '\r' then some 'r'
  else if c = '\t' then some 't'
  else none

/-- Characters that are written as a number: the control characters, those that mean
something in HTML, and the two line separators. -/
def needsUnicode (c : Char) : Bool :=
  c.toNat < 0x20 ∨ c ∈ ['<', '>', '&', '\u2028', '\u2029']

/-- A number below `2 ^ 16` as four hexadecimal digits. -/
def unicodeEscape (n : Nat) : List Char :=
  ['\\', 'u', (n / 0x1000 % 0x10).digitChar, (n / 0x100 % 0x10).digitChar,
    (n / 0x10 % 0x10).digitChar, (n % 0x10).digitChar]

def escapeChar (c : Char) : List Char :=
  match shortEscape c with
  | some e => ['\\', e]
  | none => if needsUnicode c then unicodeEscape c.toNat else [c]

/-- What a token is in a text. -/
def Token.text : Token → List Char
  | .lbrace => ['{']
  | .rbrace => ['}']
  | .lbracket => ['[']
  | .rbracket => [']']
  | .comma => [',']
  | .colon => [':']
  | .null => ['n', 'u', 'l', 'l']
  | .bool true => ['t', 'r', 'u', 'e']
  | .bool false => ['f', 'a', 'l', 's', 'e']
  | .num lit => lit.toList
  | .str s => '"' :: (s.toList.flatMap escapeChar ++ ['"'])

/-! ## The machine -/

/-- Where in a token the machine is, with what it read of the token, the last first. -/
inductive Mode where
  | between
  | word (read : List Char)
  /-- In a string, with the high half of a surrogate pair if that came last. -/
  | quoted (read : List Char) (high : Option Nat)
  /-- Behind a backslash. -/
  | escaped (read : List Char) (high : Option Nat)
  /-- In the digits of a code unit, with their value and their number. -/
  | hex (read : List Char) (high : Option Nat) (n k : Nat)
  deriving DecidableEq, Repr

def isSpace (c : Char) : Bool := c ∈ [' ', '\t', '\r', '\n']

/-- The token of a single character. -/
def punctuation (c : Char) : Option Token :=
  if c = '{' then some .lbrace
  else if c = '}' then some .rbrace
  else if c = '[' then some .lbracket
  else if c = ']' then some .rbracket
  else if c = ',' then some .comma
  else if c = ':' then some .colon
  else none

/-- The character goes on with a word. -/
def inWord (c : Char) : Bool := !isSpace c && c != '"' && (punctuation c).isNone

/-- The token of a word. -/
def wordToken (cs : List Char) : Option Token :=
  if cs = Token.null.text then some .null
  else if cs = (Token.bool true).text then some (.bool true)
  else if cs = (Token.bool false).text then some (.bool false)
  else if isNumber cs then some (.num (String.ofList cs))
  else none

/-- The character behind a backslash, of those that are not `u`. -/
def shortUnescape (e : Char) : Option Char :=
  if e = '"' then some '"'
  else if e = '\\' then some '\\'
  else if e = '/' then some '/'
  else if e = 'b' then some '\x08'
  else if e = 'f' then some '\x0c'
  else if e = 'n' then some '\n'
  else if e = 'r' then some '\r'
  else if e = 't' then some '\t'
  else none

/-- What was read, with the replacement character for half of a pair that waits. -/
def flush (read : List Char) (high : Option Nat) : List Char :=
  if high.isSome then '\ufffd' :: read else read

/-- Behind a UTF-16 code unit. -/
def codeUnit (read : List Char) (high : Option Nat) (n : Nat) : Mode :=
  if 0xd800 ≤ n ∧ n < 0xdc00 then .quoted (flush read high) (some n)
  else if 0xdc00 ≤ n ∧ n < 0xe000 then
    match high with
    | some h => .quoted (Char.ofNat (0x10000 + (h - 0xd800) * 0x400 + (n - 0xdc00)) :: read) none
    | none => .quoted ('\ufffd' :: read) none
  else .quoted (Char.ofNat n :: flush read high) none

/-- A character between tokens. -/
def start (c : Char) : Mode × List Token :=
  if isSpace c then (.between, [])
  else if c = '"' then (.quoted [] none, [])
  else
    match punctuation c with
    | some tok => (.between, [tok])
    | none => (.word [c], [])

/-- The mode behind a character, and the tokens that end before or with it. -/
def step : Mode → Char → Option (Mode × List Token)
  | .between, c => some (start c)
  | .word read, c =>
    if inWord c then some (.word (c :: read), [])
    else (wordToken read.reverse).map fun tok => ((start c).1, tok :: (start c).2)
  | .quoted read high, c =>
    if c = '"' then some (.between, [.str (String.ofList (flush read high).reverse)])
    else if c = '\\' then some (.escaped read high, [])
    else if c.toNat < 0x20 then none
    else some (.quoted (c :: flush read high) none, [])
  | .escaped read high, c =>
    if c = 'u' then some (.hex read high 0 0, [])
    else (shortUnescape c).map fun c' => (.quoted (c' :: flush read high) none, [])
  | .hex read high n k, c =>
    (Wire.hexValue c).map fun d =>
      (if k = 3 then codeUnit read high (n * 0x10 + d) else .hex read high (n * 0x10 + d) (k + 1),
        [])

/-- The last token of a text that ends in the mode. -/
def finish : Mode → Option (List Token)
  | .between => some []
  | .word read => (wordToken read.reverse).map ([·])
  | .quoted _ _ | .escaped _ _ | .hex _ _ _ _ => none

def lexFrom : Mode → List Char → Option (List Token)
  | m, [] => finish m
  | m, c :: cs => (step m c).bind fun r => (lexFrom r.1 cs).map (r.2 ++ ·)

/-- The tokens of a text. -/
def lex (cs : List Char) : Option (List Token) := lexFrom .between cs

/-! ## Words -/

theorem inWord_of_isDigit {c : Char} (h : c.isDigit = true) : inWord c = true := by
  have hne : ∀ d : Char, d.isDigit = false → c ≠ d := by
    intro d hd hcd
    rw [hcd, hd] at h
    cases h
  simp [inWord, isSpace, punctuation, hne ' ' rfl, hne '\t' rfl, hne '\r' rfl, hne '\n' rfl,
    hne '"' rfl, hne '{' rfl, hne '}' rfl, hne '[' rfl, hne ']' rfl, hne ',' rfl, hne ':' rfl]

theorem start_of_inWord {c : Char} (h : inWord c = true) : start c = (.word [c], []) := by
  simp only [inWord, Bool.and_eq_true, Bool.not_eq_true', bne_iff_ne, ne_eq,
    Option.isNone_iff_eq_none] at h
  simp [start, h.1.1, h.1.2, h.2]

/-- Digits are in a word, and so is what is left behind them. -/
theorem all_inWord_of_dropWhile {cs : List Char}
    (h : ∀ c ∈ cs.dropWhile Char.isDigit, inWord c = true) : ∀ c ∈ cs, inWord c = true := by
  intro c hc
  rw [← List.takeWhile_append_dropWhile (p := Char.isDigit) (l := cs), List.mem_append] at hc
  exact hc.elim (fun ht => inWord_of_isDigit (List.mem_takeWhile_imp ht)) (h c)

theorem all_inWord_of_isExponent {cs : List Char} (h : isExponent cs = true) :
    ∀ c ∈ cs, inWord c = true := by
  cases cs with
  | nil => simp
  | cons e cs =>
    cases cs with
    | nil => simp [isExponent] at h
    | cons s ds =>
      simp only [isExponent, Bool.and_eq_true, Bool.or_eq_true, beq_iff_eq, List.all_eq_true] at h
      obtain ⟨he, hs, hds⟩ := h
      simp only [List.forall_mem_cons]
      refine ⟨?_, ?_, fun c hc => inWord_of_isDigit (hds c hc)⟩
      · rcases he with rfl | rfl <;> decide
      · rcases hs with hs | ⟨rfl | rfl, _⟩
        · exact inWord_of_isDigit hs
        · decide
        · decide

theorem all_inWord_of_isFraction {cs : List Char} (h : isFraction cs = true) :
    ∀ c ∈ cs, inWord c = true := by
  unfold isFraction at h
  split at h
  · rw [Bool.and_eq_true] at h
    simp only [List.forall_mem_cons]
    exact ⟨by decide, inWord_of_isDigit h.1,
      all_inWord_of_dropWhile (all_inWord_of_isExponent h.2)⟩
  · exact all_inWord_of_isExponent h

theorem all_inWord_of_isMagnitude {cs : List Char} (h : isMagnitude cs = true) :
    ∀ c ∈ cs, inWord c = true := by
  cases cs with
  | nil => simp
  | cons c cs =>
    rw [isMagnitude] at h
    simp only [List.forall_mem_cons]
    split at h
    · next hc =>
      subst hc
      exact ⟨by decide, all_inWord_of_isFraction h⟩
    · rw [Bool.and_eq_true] at h
      exact ⟨inWord_of_isDigit h.1, all_inWord_of_dropWhile (all_inWord_of_isFraction h.2)⟩

/-- A number literal is a word. -/
theorem all_inWord_of_isNumber {cs : List Char} (h : isNumber cs = true) :
    ∀ c ∈ cs, inWord c = true := by
  unfold isNumber at h
  split at h
  · simp only [List.forall_mem_cons]
    exact ⟨by decide, all_inWord_of_isMagnitude h⟩
  · exact all_inWord_of_isMagnitude h

/-- What an integer is written as is a number literal. -/
theorem isNumber_decimal (n : Int) : isNumber (Wire.decimal n) = true := by
  have hm : ∀ m : Nat, isMagnitude (Nat.toDigits 10 m) = true := by
    intro m
    cases hd : Nat.toDigits 10 m with
    | nil => exact absurd hd Nat.toDigits_ne_nil
    | cons c cs =>
      have hdig : ∀ c' ∈ c :: cs, c'.isDigit = true := by
        intro c' hc'
        rw [← hd] at hc'
        exact Wire.isDigit_of_mem_toDigits hc'
      rw [isMagnitude]
      split
      · next hc =>
        subst hc
        rw [Wire.toDigits_eq_zero_cons hd]
        rfl
      · have hdrop : cs.dropWhile Char.isDigit = [] :=
          List.dropWhile_eq_nil_iff.2 fun c' hc' => hdig c' (List.mem_cons_of_mem _ hc')
        rw [hdig c List.mem_cons_self, hdrop]
        rfl
  obtain ⟨m, h | h⟩ := Wire.decimal_cases n
  · rw [h]
    have hne : ∀ cs, Nat.toDigits 10 m ≠ '-' :: cs := by
      intro cs hcs
      have := Wire.isDigit_of_mem_toDigits (n := m) (c := '-') (by rw [hcs]; simp)
      exact absurd this (by decide)
    unfold isNumber
    split
    · next cs hcs => exact absurd hcs (hne cs)
    · exact hm m
  · rw [h]
    exact hm m

/-! ## Lexing what was written -/

@[simp] theorem lexFrom_cons (m : Mode) (c : Char) (cs : List Char) :
    lexFrom m (c :: cs) = (step m c).bind fun r => (lexFrom r.1 cs).map (r.2 ++ ·) := rfl

/-- A character that gives no token only changes the mode. -/
theorem lexFrom_of_step {m m' : Mode} {c : Char} (h : step m c = some (m', [])) (cs : List Char) :
    lexFrom m (c :: cs) = lexFrom m' cs := by
  rw [lexFrom_cons, h, Option.bind_some]
  exact congrFun Option.map_id _

/-- No word goes on in the text. -/
def Delimited (rest : List Char) : Prop := ∀ c ∈ rest.head?, inWord c = false

theorem lexFrom_word (read w rest : List Char) (hw : ∀ c ∈ w, inWord c = true) :
    lexFrom (.word read) (w ++ rest) = lexFrom (.word (w.reverse ++ read)) rest := by
  induction w generalizing read with
  | nil => rfl
  | cons c w ih =>
    have hc : step (.word read) c = some (.word (c :: read), []) := by
      rw [step, if_pos (hw c List.mem_cons_self)]
    rw [List.cons_append, lexFrom_of_step hc, ih _ fun c' hc' => hw c' (List.mem_cons_of_mem _ hc'),
      List.reverse_cons, List.append_assoc, List.singleton_append]

/-- Where a word ends its token is known. -/
theorem lexFrom_word_end (read : List Char) {rest : List Char} (hr : Delimited rest) :
    lexFrom (.word read) rest =
      (wordToken read.reverse).bind fun tok => (lexFrom .between rest).map (tok :: ·) := by
  cases rest with
  | nil =>
    show (wordToken read.reverse).map ([·]) = _
    cases wordToken read.reverse <;> rfl
  | cons c cs =>
    have hc : inWord c = false := hr c rfl
    have hb : step .between c = some (start c) := rfl
    have hw : step (.word read) c =
        (wordToken read.reverse).map fun tok => ((start c).1, tok :: (start c).2) := by
      rw [step, if_neg (by simp [hc])]
    rw [lexFrom_cons, lexFrom_cons, hw, hb]
    cases wordToken read.reverse with
    | none => rfl
    | some tok => simp [Function.comp_def]

theorem lex_word {w rest : List Char} {tok : Token} (hw : ∀ c ∈ w, inWord c = true)
    (htok : wordToken w = some tok) (hne : w ≠ []) (hr : Delimited rest) :
    lexFrom .between (w ++ rest) = (lexFrom .between rest).map (tok :: ·) := by
  cases w with
  | nil => exact absurd rfl hne
  | cons c w =>
    have hc : step .between c = some (.word [c], []) := by
      rw [step, start_of_inWord (hw c List.mem_cons_self)]
    have hrev : (w.reverse ++ [c]).reverse = c :: w := by simp
    rw [List.cons_append, lexFrom_of_step hc,
      lexFrom_word [c] w rest fun c' hc' => hw c' (List.mem_cons_of_mem _ hc'),
      lexFrom_word_end _ hr, hrev, htok, Option.bind_some]

/-- The letter behind the backslash is read as the character it stands for. -/
theorem shortUnescape_of_shortEscape {c e : Char} (h : shortEscape c = some e) :
    shortUnescape e = some c ∧ e ≠ 'u' := by
  unfold shortEscape at h
  split_ifs at h with h₁ h₂ h₃ h₄ h₅ h₆ h₇
  all_goals
    obtain rfl := Option.some.inj h
    subst_vars
    decide

theorem ne_of_shortEscape {c : Char} (h : shortEscape c = none) : c ≠ '"' ∧ c ≠ '\\' := by
  constructor
  · rintro rfl
    exact absurd h (by decide)
  · rintro rfl
    exact absurd h (by decide)

/-- Four digits are read as the code unit they were written for. -/
theorem lexFrom_unicodeEscape {n : Nat} (hn : n < 0x10000) (read rest : List Char) :
    lexFrom (.quoted read none) (unicodeEscape n ++ rest) =
      lexFrom (codeUnit read none n) rest := by
  have h₀ : step (.quoted read none) '\\' = some (.escaped read none, []) := rfl
  have h₁ : step (.escaped read none) 'u' = some (.hex read none 0 0, []) := rfl
  have hd : ∀ v k d : Nat, d < 16 → k < 3 →
      step (.hex read none v k) d.digitChar = some (.hex read none (v * 0x10 + d) (k + 1), []) := by
    intro v k d hlt hk
    rw [step, Wire.hexValue_digitChar hlt, Option.map_some, if_neg (by omega)]
  have hl : ∀ v d : Nat, d < 16 →
      step (.hex read none v 3) d.digitChar = some (codeUnit read none (v * 0x10 + d), []) := by
    intro v d hlt
    rw [step, Wire.hexValue_digitChar hlt, Option.map_some, if_pos rfl]
  have hval : (((0 * 0x10 + n / 0x1000 % 0x10) * 0x10 + n / 0x100 % 0x10) * 0x10 +
      n / 0x10 % 0x10) * 0x10 + n % 0x10 = n := by omega
  simp only [unicodeEscape, List.cons_append, List.nil_append]
  rw [lexFrom_of_step h₀, lexFrom_of_step h₁, lexFrom_of_step (hd _ _ _ (by omega) (by omega)),
    lexFrom_of_step (hd _ _ _ (by omega) (by omega)),
    lexFrom_of_step (hd _ _ _ (by omega) (by omega)), lexFrom_of_step (hl _ _ (by omega)), hval]

theorem lexFrom_escapeChar (c : Char) (read rest : List Char) :
    lexFrom (.quoted read none) (escapeChar c ++ rest) = lexFrom (.quoted (c :: read) none) rest := by
  unfold escapeChar
  cases he : shortEscape c with
  | some e =>
    obtain ⟨hu, hne⟩ := shortUnescape_of_shortEscape he
    have h₀ : step (.quoted read none) '\\' = some (.escaped read none, []) := rfl
    have h₁ : step (.escaped read none) e = some (.quoted (c :: read) none, []) := by
      rw [step, if_neg hne, hu]
      rfl
    simp only [List.cons_append, List.nil_append]
    rw [lexFrom_of_step h₀, lexFrom_of_step h₁]
  | none =>
    obtain ⟨hq, hb⟩ := ne_of_shortEscape he
    by_cases hu : needsUnicode c = true
    · -- Every character that is written as a number is below the surrogates.
      have hlt : c.toNat < 0xd800 := by
        simp only [needsUnicode, List.mem_cons, List.not_mem_nil, or_false, decide_eq_true_eq] at hu
        rcases hu with hu | rfl | rfl | rfl | rfl | rfl
        · omega
        all_goals decide
      simp only [hu, if_true]
      rw [lexFrom_unicodeEscape (by omega), codeUnit, if_neg (by omega), if_neg (by omega),
        Char.ofNat_toNat]
      rfl
    · have hctl : ¬ c.toNat < 0x20 := by
        intro hlt
        exact hu (by simp [needsUnicode, hlt])
      have h₀ : step (.quoted read none) c = some (.quoted (c :: read) none, []) := by
        rw [step, if_neg hq, if_neg hb, if_neg hctl]
        rfl
      simp only [hu]
      exact lexFrom_of_step h₀ rest

theorem lexFrom_flatMap_escapeChar (s read rest : List Char) :
    lexFrom (.quoted read none) (s.flatMap escapeChar ++ rest) =
      lexFrom (.quoted (s.reverse ++ read) none) rest := by
  induction s generalizing read with
  | nil => rfl
  | cons c s ih =>
    rw [List.flatMap_cons, List.append_assoc, lexFrom_escapeChar, ih, List.reverse_cons,
      List.append_assoc, List.singleton_append]

theorem lex_str (s : String) (rest : List Char) :
    lexFrom .between ((Token.str s).text ++ rest) =
      (lexFrom .between rest).map (Token.str s :: ·) := by
  have h₀ : step .between '"' = some (.quoted [] none, []) := rfl
  have h₁ : step (.quoted s.toList.reverse none) '"' = some (.between, [.str s]) := by
    rw [step, if_pos rfl]
    simp [flush]
  simp only [Token.text, List.cons_append, List.append_assoc]
  rw [lexFrom_of_step h₀, lexFrom_flatMap_escapeChar, List.append_nil, List.nil_append,
    lexFrom_cons, h₁]
  rfl

/-! ## Tokens behind tokens -/

/-- The literal of a number is one. -/
def Token.Valid : Token → Prop
  | .num lit => isNumber lit.toList = true
  | _ => True

def Token.isWord : Token → Bool
  | .null | .bool _ | .num _ => true
  | _ => false

theorem wordToken_of_isNumber {lit : String} (h : isNumber lit.toList = true) :
    wordToken lit.toList = some (.num lit) := by
  have hne : ∀ w, isNumber w = false → lit.toList ≠ w := by
    intro w hw hlit
    rw [hlit, hw] at h
    cases h
  rw [wordToken, if_neg (hne _ (by decide)), if_neg (hne _ (by decide)),
    if_neg (hne _ (by decide)), if_pos h, String.ofList_toList]

/-- A token at the start of a text is read, if no word runs into another. -/
theorem lexFrom_text {tok : Token} (hv : tok.Valid) {rest : List Char}
    (hr : tok.isWord = true → Delimited rest) :
    lexFrom .between (tok.text ++ rest) = (lexFrom .between rest).map (tok :: ·) := by
  cases tok with
  | null => exact lex_word (List.all_eq_true.1 (by decide)) (by decide) (by decide) (hr rfl)
  | bool b =>
    cases b <;>
      exact lex_word (List.all_eq_true.1 (by decide)) (by decide) (by decide) (hr rfl)
  | num lit =>
    have hne : lit.toList ≠ [] := by
      intro hnil
      rw [Token.Valid, hnil] at hv
      exact absurd hv (by decide)
    exact lex_word (all_inWord_of_isNumber hv) (wordToken_of_isNumber hv) hne (hr rfl)
  | str s => exact lex_str s rest
  | lbrace | rbrace | lbracket | rbracket | comma | colon => rfl

/-- No two words stand together. -/
def Separated (toks : List Token) : Prop :=
  toks.IsChain fun a b => a.isWord = true → b.isWord = false

theorem delimited_text {tok : Token} (h : tok.isWord = false) (rest : List Char) :
    Delimited (tok.text ++ rest) := by
  intro c hc
  cases tok with
  | null | bool _ | num _ => cases h
  | str s =>
    obtain rfl := Option.some.inj hc
    decide
  | lbrace | rbrace | lbracket | rbracket | comma | colon =>
    obtain rfl := Option.some.inj hc
    decide

/-- The tokens of what tokens are written as. -/
theorem lex_texts {toks : List Token} (hv : ∀ tok ∈ toks, tok.Valid) (hs : Separated toks) :
    lex (toks.flatMap Token.text) = some toks := by
  induction toks with
  | nil => rfl
  | cons tok toks ih =>
    have hd : tok.isWord = true → Delimited (toks.flatMap Token.text) := by
      intro hw
      cases toks with
      | nil =>
        intro c hc
        cases hc
      | cons tok' toks' => exact delimited_text ((List.isChain_cons_cons.1 hs).1 hw) _
    rw [lex, List.flatMap_cons, lexFrom_text (hv tok List.mem_cons_self) hd]
    have := ih (fun t ht => hv t (List.mem_cons_of_mem _ ht)) hs.tail
    rw [lex] at this
    rw [this]
    rfl

end Json

import CloudPing.Utils.Addr
import CloudPing.Wire.Decimal
import CloudPing.Wire.Result
import Mathlib.Data.List.DropRight
import Mathlib.Dynamics.PeriodicPts.Defs

/-!
# Numbers, truth values and lists in strings

What the parsers of the requests use of `strconv` and `strings`, and `ParseInts`.

The loop over a range adds up machine integers.  It ends when the index is past the end.  An
index comes again after at most `2 ^ 64` steps, so a loop that has gone on for so long goes
on for ever (`countUp_eq_none_iff`).
-/

namespace CloudPing.Utils

open Wire (bind_eq_ok mapError_eq_ok)

/-! ## Numbers and truth values -/

/-- `strconv.NumError`. -/
structure NumError where
  func : String
  num : String
  err : Wire.NumErr
  deriving DecidableEq, Repr

/-- `strconv.Itoa`. -/
def itoa (n : Int64) : String := String.ofList (Wire.decimal n.toInt)

/-- `strconv.Atoi`. -/
def atoi (s : String) : Except NumError Int64 :=
  (Wire.parseInt64 s.toList).mapError fun err => ⟨"Atoi", s, err⟩

/-- `strconv.FormatBool`. -/
def formatBool (b : Bool) : String := if b then "true" else "false"

/-- `strconv.ParseBool`. -/
def parseBool (s : String) : Except NumError Bool :=
  if s ∈ ["1", "t", "T", "true", "TRUE", "True"] then .ok true
  else if s ∈ ["0", "f", "F", "false", "FALSE", "False"] then .ok false
  else .error ⟨"ParseBool", s, .syntax_⟩

@[simp] theorem atoi_itoa (n : Int64) : atoi (itoa n) = .ok n := by
  rw [atoi, itoa, String.toList_ofList, Wire.parseInt64_decimal]
  rfl

@[simp] theorem parseBool_formatBool (b : Bool) : parseBool (formatBool b) = .ok b := by
  cases b <;> rfl

theorem toInt_nonneg_of_atoi {s : String} {n : Int64} (hd : ∀ c ∈ s.toList, c.isDigit = true)
    (h : atoi s = .ok n) : 0 ≤ n.toInt :=
  Wire.toInt_nonneg_of_digits hd (mapError_eq_ok.1 h)

theorem itoa_ne_empty (n : Int64) : itoa n ≠ "" := by
  intro h
  have := congrArg String.toList h
  rw [itoa, String.toList_ofList] at this
  exact Wire.decimal_ne_nil _ this

theorem formatBool_ne_empty (b : Bool) : formatBool b ≠ "" := by
  cases b <;> decide

theorem mem_itoa {n : Int64} {c : Char} (h : c ∈ (itoa n).toList) : c.isDigit = true ∨ c = '-' := by
  rw [itoa, String.toList_ofList] at h
  exact Wire.mem_decimal h

/-! ## Lists -/

/-- `strings.Join` with commas. -/
def joinCommas (l : List String) : String := ",".intercalate l

theorem splitChars_eq_splitOn (sep : Char) (cs : List Char) : splitChars sep cs = cs.splitOn sep := by
  induction cs with
  | nil => rfl
  | cons c cs ih =>
    rw [splitChars, ih, List.splitOn_cons_eq_if_modifyHead]
    cases hs : cs.splitOn sep with
    | nil => exact absurd hs (List.splitOn_ne_nil sep cs)
    | cons seg segs => simp

theorem split_joinCommas {l : List String} (hne : l ≠ []) (h : ∀ s ∈ l, ',' ∉ s.toList) :
    split (joinCommas l) ',' = l := by
  have hl : (l.map String.toList).map String.ofList = l := by
    simp [List.map_map, Function.comp_def]
  rw [split, joinCommas, splitChars_eq_splitOn, String.toList_intercalate]
  rw [show ",".toList = [','] from rfl, List.splitOn_intercalate]
  · exact hl
  · intro cs hcs
    obtain ⟨s, hs, rfl⟩ := List.mem_map.1 hcs
    exact h s hs
  · simpa using hne

/-- The separator is in no segment. -/
theorem not_mem_of_mem_splitChars {sep : Char} {cs seg : List Char}
    (h : seg ∈ splitChars sep cs) : sep ∉ seg := by
  induction cs generalizing seg with
  | nil =>
    rw [splitChars, List.mem_singleton] at h
    subst h
    exact List.not_mem_nil
  | cons c cs ih =>
    rw [splitChars] at h
    split at h
    · rcases List.mem_cons.1 h with rfl | h
      · exact List.not_mem_nil
      · exact ih h
    · next hc =>
      cases hs : splitChars sep cs with
      | nil =>
        rw [hs, List.mem_singleton] at h
        subst h
        simpa using Ne.symm hc
      | cons seg' segs =>
        rw [hs] at h ih
        rcases List.mem_cons.1 h with rfl | h
        · rw [List.mem_cons, not_or]
          exact ⟨Ne.symm hc, ih List.mem_cons_self⟩
        · exact ih (List.mem_cons_of_mem _ h)

theorem toList_trimSpace (s : String) :
    (trimSpace s).toList = (s.toList.dropWhile isSpace).rdropWhile isSpace := by
  rw [trimSpace, String.toList_ofList]
  rfl

theorem mem_of_mem_trimSpace {s : String} {c : Char} (h : c ∈ (trimSpace s).toList) :
    c ∈ s.toList := by
  rw [toList_trimSpace] at h
  exact (List.dropWhile_sublist _).mem ((List.rdropWhile_prefix _ _).mem h)

/-- What is trimmed has nothing more to trim. -/
theorem trimSpace_trimSpace (s : String) : trimSpace (trimSpace s) = trimSpace s := by
  apply String.toList_inj.1
  rw [toList_trimSpace (trimSpace s), toList_trimSpace]
  have hpre := List.rdropWhile_prefix isSpace (s.toList.dropWhile isSpace)
  generalize hm : s.toList.dropWhile isSpace = m at hpre ⊢
  have hdrop : (m.rdropWhile isSpace).dropWhile isSpace = m.rdropWhile isSpace := by
    cases ht : m.rdropWhile isSpace with
    | nil => rfl
    | cons c cs =>
      rw [ht] at hpre
      obtain ⟨rest, hrest⟩ := hpre
      -- The first character is the one trimming on the left stopped at.
      have hidem : m.dropWhile isSpace = m := by rw [← hm, List.dropWhile_idempotent]
      rw [← hrest, List.cons_append, List.dropWhile_cons] at hidem
      rw [List.dropWhile_cons]
      split at hidem
      · have := congrArg List.length hidem
        have hle := (List.dropWhile_sublist isSpace (l := cs ++ rest)).length_le
        rw [List.length_cons] at this
        omega
      · next hc => rw [if_neg hc]
  rw [hdrop, List.rdropWhile_idempotent]

theorem dropWhile_isSpace_eq_self {cs : List Char} (h : ∀ c ∈ cs, isSpace c = false) :
    cs.dropWhile isSpace = cs := by
  cases cs with
  | nil => rfl
  | cons c cs => rw [List.dropWhile_cons, if_neg (by simp [h c List.mem_cons_self])]

theorem trimSpace_eq_self {s : String} (h : ∀ c ∈ s.toList, isSpace c = false) :
    trimSpace s = s := by
  apply String.toList_inj.1
  rw [toList_trimSpace, dropWhile_isSpace_eq_self h, List.rdropWhile,
    dropWhile_isSpace_eq_self fun c hc => h c (List.mem_reverse.1 hc), List.reverse_reverse]

/-! ## The regular expressions -/

/-- What is behind the word. -/
def behind (word cs : List Char) : Option (List Char) :=
  if word.isPrefixOf cs then some (cs.drop word.length) else none

/-- `(\d+)`: the digits and what is behind them. -/
def digits (cs : List Char) : Option (String × List Char) :=
  if cs.takeWhile Char.isDigit = [] then none
  else some (String.ofList (cs.takeWhile Char.isDigit), cs.dropWhile Char.isDigit)

/-- `\s*`. -/
def skipSpace (cs : List Char) : List Char :=
  cs.dropWhile fun c => c ∈ ['\t', '\n', '\x0c', '\r', ' ']

/-- `range\((\d+);\s*(\d+)`, with which both patterns of `ParseInts` begin. -/
def rangeBounds (cs : List Char) : Option (String × String × List Char) := do
  let cs ← behind "range(".toList cs
  let (start, cs) ← digits cs
  let cs ← behind [';'] cs
  let (end_, cs) ← digits (skipSpace cs)
  some (start, end_, cs)

/-- The first pattern, which takes the whole string. -/
def rangePattern (s : String) : Option (String × String) := do
  let (start, end_, cs) ← rangeBounds s.toList
  if cs = [')'] then some (start, end_) else none

/-- The second pattern, which leaves open what comes behind it. -/
def rangeStepPattern (s : String) : Option (String × String × String) := do
  let (start, end_, cs) ← rangeBounds s.toList
  let cs ← behind [';'] cs
  let (step, cs) ← digits (skipSpace cs)
  let _ ← behind [')'] cs
  some (start, end_, step)

theorem behind_append (word cs : List Char) : behind word (word ++ cs) = some cs := by
  rw [behind, if_pos (by simp), List.drop_left]

theorem digits_append {ds rest : List Char} (hne : ds ≠ []) (hd : ∀ c ∈ ds, c.isDigit = true)
    (hrest : ∀ c ∈ rest.head?, c.isDigit = false) :
    digits (ds ++ rest) = some (String.ofList ds, rest) := by
  have htake : rest.takeWhile Char.isDigit = [] := by
    cases rest with
    | nil => rfl
    | cons c rest => rw [List.takeWhile_cons, hrest c rfl]; rfl
  have hdrop : rest.dropWhile Char.isDigit = rest := by
    cases rest with
    | nil => rfl
    | cons c rest => rw [List.dropWhile_cons, hrest c rfl]; rfl
  rw [digits, List.takeWhile_append_of_pos hd, List.dropWhile_append_of_pos hd, htake, hdrop,
    List.append_nil, if_neg hne]

theorem isDigit_of_digits {cs rest : List Char} {s : String} (h : digits cs = some (s, rest)) :
    ∀ c ∈ s.toList, c.isDigit = true := by
  rw [digits] at h
  split at h
  · cases h
  · obtain ⟨rfl, _⟩ := Prod.mk.inj (Option.some.inj h)
    intro c hc
    rw [String.toList_ofList] at hc
    exact List.mem_takeWhile_imp hc

/-! ## `ParseInts` -/

/-- Why `ParseInts` returns no numbers. -/
inductive ParseIntsError where
  | num (err : NumError)
  | noResults
  /-- The loop over a range does not end, so the function does not return. -/
  | endless
  deriving DecidableEq, Repr

/-- The loop `for i := start; i <= end; i += step`, if it ends in the steps. -/
def countUp (end_ step : Int64) : Nat → Int64 → Option (List Int64)
  | 0, _ => none
  | fuel + 1, i => if i ≤ end_ then (countUp end_ step fuel (i + step)).map (i :: ·) else some []

/-- The numbers of a range. -/
def rangeInts (start end_ step : Int64) : Except ParseIntsError (List Int64) :=
  match countUp end_ step (2 ^ 64) start with
  | some results => .ok results
  | none => .error .endless

/-- The numbers of the segments that are not empty. -/
def atois : List String → Except NumError (List Int64)
  | [] => .ok []
  | seg :: segs =>
    if trimSpace seg = "" then atois segs
    else do
      let num ← atoi (trimSpace seg)
      let results ← atois segs
      return num :: results

/-- A list that must not be empty. -/
def someResults (results : List Int64) : Except ParseIntsError (List Int64) :=
  if results = [] then .error .noResults else .ok results

def parseInts (s : String) : Except ParseIntsError (List Int64) :=
  match rangePattern s, rangeStepPattern s with
  | some (start, end_), _ => do
    let start ← (atoi start).mapError .num
    let end_ ← (atoi end_).mapError .num
    rangeInts start end_ 1 >>= someResults
  | none, some (start, end_, step) => do
    let start ← (atoi start).mapError .num
    let end_ ← (atoi end_).mapError .num
    let step ← (atoi step).mapError .num
    rangeInts start end_ step >>= someResults
  | none, none => (atois (split s ',')).mapError .num >>= someResults

/-! ## The loop over a range -/

/-- The loop runs out of steps exactly if the index stays up to the end for all of them. -/
theorem countUp_eq_none {end_ step : Int64} {fuel : Nat} {i : Int64} :
    countUp end_ step fuel i = none ↔ ∀ k < fuel, (· + step)^[k] i ≤ end_ := by
  induction fuel generalizing i with
  | zero => simp [countUp]
  | succ fuel ih =>
    rw [countUp]
    split
    · next hi =>
      rw [Option.map_eq_none_iff, ih]
      constructor
      · intro h k hk
        cases k with
        | zero => exact hi
        | succ k => exact h k (by omega)
      · intro h k hk
        exact h (k + 1) (by omega)
    · next hi =>
      refine iff_of_false (by simp) fun h => hi (h 0 (by omega))

theorem iterate_add (step i : Int64) (k : Nat) :
    (· + step)^[k] i = i + Int64.ofNat k * step := by
  induction k with
  | zero => simp
  | succ k ih =>
    rw [Function.iterate_succ_apply', ih, Int64.ofNat_add, Int64.add_mul, ← Int64.add_assoc]
    simp

/-- The index comes again. -/
theorem isPeriodicPt_add (step i : Int64) : Function.IsPeriodicPt (· + step) (2 ^ 64) i := by
  rw [Function.IsPeriodicPt, Function.IsFixedPt, iterate_add]
  rw [show Int64.ofNat (2 ^ 64) = 0 from rfl, Int64.zero_mul, Int64.add_zero]

/-- A loop that is still running after `2 ^ 64` steps does not end. -/
theorem countUp_eq_none_iff {end_ step i : Int64} :
    countUp end_ step (2 ^ 64) i = none ↔ ∀ k, (· + step)^[k] i ≤ end_ := by
  rw [countUp_eq_none]
  constructor
  · intro h k
    rw [← (isPeriodicPt_add step i).iterate_mod_apply]
    exact h _ (Nat.mod_lt _ (by decide))
  · intro h k _
    exact h k

/-! ## Lists of numbers -/

theorem ne_nil_of_someResults {l results : List Int64} (h : someResults l = .ok results) :
    results ≠ [] := by
  rw [someResults] at h
  split at h
  · cases h
  · next hne =>
    cases h
    exact hne

/-- There is a number in what `ParseInts` returns. -/
theorem ne_nil_of_parseInts {s : String} {results : List Int64}
    (h : parseInts s = .ok results) : results ≠ [] := by
  unfold parseInts at h
  split at h
  · obtain ⟨start, _, h⟩ := bind_eq_ok.1 h
    obtain ⟨end_, _, h⟩ := bind_eq_ok.1 h
    obtain ⟨results', _, h⟩ := bind_eq_ok.1 h
    exact ne_nil_of_someResults h
  · obtain ⟨start, _, h⟩ := bind_eq_ok.1 h
    obtain ⟨end_, _, h⟩ := bind_eq_ok.1 h
    obtain ⟨step, _, h⟩ := bind_eq_ok.1 h
    obtain ⟨results', _, h⟩ := bind_eq_ok.1 h
    exact ne_nil_of_someResults h
  · obtain ⟨results', _, h⟩ := bind_eq_ok.1 h
    exact ne_nil_of_someResults h

theorem not_isSpace_of_isDigit {c : Char} (hd : c.isDigit = true) : isSpace c = false := by
  rw [Char.isDigit, Bool.and_eq_true, decide_eq_true_eq, decide_eq_true_eq] at hd
  rw [isSpace, decide_eq_false_iff_not]
  rintro (hm | ⟨hlo, -⟩)
  · simp only [List.mem_cons, List.not_mem_nil, or_false] at hm
    rcases hm with rfl | rfl | rfl | rfl | rfl | rfl | rfl | rfl | rfl | rfl | rfl | rfl | rfl |
      rfl <;>
      exact absurd hd (by decide)
  · exact absurd (UInt32.le_trans hlo hd.2) (by decide)

theorem not_isSpace_of_mem_itoa {n : Int64} {c : Char} (h : c ∈ (itoa n).toList) :
    isSpace c = false := by
  rcases mem_itoa h with hd | rfl
  · exact not_isSpace_of_isDigit hd
  · decide

theorem not_comma_mem_itoa (n : Int64) : ',' ∉ (itoa n).toList := by
  intro h
  rcases mem_itoa h with h | h
  · exact absurd h (by decide)
  · exact absurd h (by decide)

theorem atois_map_itoa (l : List Int64) : atois (l.map itoa) = .ok l := by
  induction l with
  | nil => rfl
  | cons n l ih =>
    have ht : trimSpace (itoa n) = itoa n :=
      trimSpace_eq_self fun c hc => not_isSpace_of_mem_itoa hc
    rw [List.map_cons, atois, ht, if_neg (itoa_ne_empty n), atoi_itoa, ih]
    rfl

/-- The first character of a list of numbers is in a number. -/
theorem head_joinCommas {l : List Int64} (hne : l ≠ []) :
    ∃ c cs, (joinCommas (l.map itoa)).toList = c :: cs ∧ (c.isDigit = true ∨ c = '-') := by
  cases l with
  | nil => exact absurd rfl hne
  | cons n l =>
    cases hd : (itoa n).toList with
    | nil => exact absurd (String.toList_inj.1 (hd.trans String.toList_empty.symm)) (itoa_ne_empty n)
    | cons c cs =>
      have hc : c.isDigit = true ∨ c = '-' := mem_itoa (n := n) (by rw [hd]; exact List.mem_cons_self)
      cases l with
      | nil => exact ⟨c, cs, by rw [joinCommas, List.map_cons, List.map_nil,
          String.intercalate_singleton, hd], hc⟩
      | cons n' l =>
        refine ⟨c, cs ++ ("," ++ joinCommas ((n' :: l).map itoa)).toList, ?_, hc⟩
        rw [joinCommas, List.map_cons, List.map_cons, String.intercalate_cons_cons,
          String.append_assoc, String.toList_append, hd]
        rfl

/-- A word that starts with a letter is not at the start of a list of numbers. -/
theorem behind_joinCommas {l : List Int64} (hne : l ≠ []) {w : Char} (ws : List Char)
    (hw : w.isDigit = false) (hm : w ≠ '-') :
    behind (w :: ws) (joinCommas (l.map itoa)).toList = none := by
  obtain ⟨c, cs, hcs, hc⟩ := head_joinCommas hne
  have hwc : w ≠ c := by
    rintro rfl
    exact hc.elim (fun h => absurd (hw.symm.trans h) (by decide)) hm
  rw [hcs, behind, if_neg]
  simp [List.isPrefixOf, hwc]

/-- What a list of numbers is written as is read. -/
theorem parseInts_joinCommas {l : List Int64} (hne : l ≠ []) :
    parseInts (joinCommas (l.map itoa)) = .ok l := by
  have hb : rangeBounds (joinCommas (l.map itoa)).toList = none := by
    rw [rangeBounds]
    exact congrArg (· >>= _) (behind_joinCommas hne "ange(".toList rfl (by decide))
  have h₁ : rangePattern (joinCommas (l.map itoa)) = none := by rw [rangePattern, hb]; rfl
  have h₂ : rangeStepPattern (joinCommas (l.map itoa)) = none := by rw [rangeStepPattern, hb]; rfl
  have hs : split (joinCommas (l.map itoa)) ',' = l.map itoa := by
    refine split_joinCommas (by simpa using hne) fun s hs => ?_
    obtain ⟨n, _, rfl⟩ := List.mem_map.1 hs
    exact not_comma_mem_itoa n
  rw [parseInts, h₁, h₂, hs]
  simp only [atois_map_itoa]
  show someResults l = .ok l
  rw [someResults, if_neg hne]

end CloudPing.Utils

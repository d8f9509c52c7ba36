import CloudPing.Utils.RangeLoop

/-!
# The grammar of TTLs

A list of numbers is written as integers between commas, or as a range with or without a
step.  `Denotes` says which texts are such a list and of which numbers.

`ParseInts` reads a range with two regular expressions.  The second one, for a range with a
step, does not ask for the end of the text.  And the loop over a range asks neither for a step
that is not zero nor for an index that fits.  Between commas, it goes on behind an item that is
blank.  `Regular` leaves out the texts that come to these places, and `correct_iff` says that
exactly the other ones are read as they are meant.
-/

namespace CloudPing.Utils

open Wire

/-! ## The grammar -/

/-- The white space of a regular expression. -/
def Spaces (cs : List Char) : Prop := ∀ c ∈ cs, c ∈ ['\t', '\n', '\x0c', '\r', ' ']

/-- A range of natural numbers that fit, with its step, and the text behind it. -/
inductive RangeText (cs : List Char) : Nat → Nat → Nat → List Char → Prop where
  | plain {a sp b : List Char} {m n : Nat} :
      cs = "range(".toList ++ (a ++ ';' :: (sp ++ b ++ [')'])) → Spaces sp →
        Digits a m → Digits b n → m < 2 ^ 63 → n < 2 ^ 63 → RangeText cs m n 1 []
  | step {a sp b sp' c tail : List Char} {m n d : Nat} :
      cs = "range(".toList ++
          (a ++ ';' :: (sp ++ b ++ ';' :: (sp' ++ c ++ ')' :: tail))) →
        Spaces sp → Spaces sp' → Digits a m → Digits b n → Digits c d →
          m < 2 ^ 63 → n < 2 ^ 63 → d < 2 ^ 63 → RangeText cs m n d tail

/-- The numbers from `m` to `n` in steps of `d`. -/
def numbers (m n d : Nat) : List Int :=
  (List.range ((n - m) / d + 1)).map fun k => ((m + d * k : Nat) : Int)

/-- An integer between optional spaces. -/
inductive Item (cs : List Char) (z : Int) : Prop where
  | mk {before text behind : List Char} :
      cs = before ++ text ++ behind → (∀ c ∈ before, isSpace c = true) →
        (∀ c ∈ behind, isSpace c = true) → IntText text z → Item cs z

/-- Spaces alone. -/
def Blank (cs : List Char) : Prop := ∀ c ∈ cs, isSpace c = true

/-- The numbers that a text denotes. -/
inductive Denotes (cs : List Char) : List Int → Prop where
  | list {zs : List Int} : List.Forall₂ Item (cs.splitOn ',') zs → Denotes cs zs
  | range {m n d : Nat} :
      RangeText cs m n d [] → 1 ≤ d → m ≤ n → Denotes cs (numbers m n d)

/-- `ParseInts` returns the numbers that a text denotes, and an error if there are none. -/
structure Correct (s : String) : Prop where
  numbers : ∀ zs, Denotes s.toList zs ↔ ∃ l, parseInts s = .ok l ∧ l.map Int64.toInt = zs
  returns : parseInts s ≠ .error .endless

/-- There is no blank item among integers. -/
def RegularList (cs : List Char) : Prop :=
  (∀ item ∈ cs.splitOn ',', Blank item ∨ ∃ z, Item item z) →
    (∃ item ∈ cs.splitOn ',', ∃ z, Item item z) → ∀ item ∈ cs.splitOn ',', ¬Blank item

/-- A range that is not empty has a step and nothing behind it, and the first index past its
end fits. -/
def RegularRange (cs : List Char) : Prop :=
  ∀ m n d tail, RangeText cs m n d tail → m ≤ n →
    1 ≤ d ∧ tail = [] ∧ m + ((n - m) / d + 1) * d < 2 ^ 63

/-- What `ParseInts` reads as it is meant. -/
structure Regular (cs : List Char) : Prop where
  range : RegularRange cs
  list : RegularList cs

/-! ## Matching -/

theorem behind_eq_some {word cs rest : List Char} :
    behind word cs = some rest ↔ cs = word ++ rest := by
  rw [behind]
  constructor
  · intro h
    split at h
    · next hpre =>
      obtain ⟨t, rfl⟩ := List.isPrefixOf_iff_prefix.1 hpre
      rw [List.drop_left] at h
      rw [Option.some.inj h]
    · cases h
  · rintro rfl
    rw [if_pos (List.isPrefixOf_iff_prefix.2 (List.prefix_append _ _)), List.drop_left]

theorem digits_eq_some {cs rest : List Char} {s : String} :
    digits cs = some (s, rest) ↔
      cs = s.toList ++ rest ∧ s.toList ≠ [] ∧ (∀ c ∈ s.toList, c.isDigit = true) ∧
        ∀ c ∈ rest.head?, c.isDigit = false := by
  constructor
  · intro h
    have hd := isDigit_of_digits h
    rw [digits] at h
    split at h
    · cases h
    · next hne =>
      obtain ⟨rfl, rfl⟩ := Prod.mk.inj (Option.some.inj h)
      rw [String.toList_ofList] at hd ⊢
      refine ⟨List.takeWhile_append_dropWhile.symm, hne, hd, fun c hc => ?_⟩
      have hnot := List.head?_dropWhile_not Char.isDigit cs
      rw [Option.mem_def.1 hc] at hnot
      exact hnot
  · rintro ⟨rfl, hne, hd, hrest⟩
    rw [digits_append hne hd hrest, String.ofList_toList]

/-- A string of digits. -/
def IsDigits (s : String) : Prop := s.toList ≠ [] ∧ ∀ c ∈ s.toList, c.isDigit = true

theorem not_space_of_isDigit {c : Char} (h : c.isDigit = true) :
    c ∉ ['\t', '\n', '\x0c', '\r', ' '] := by
  intro hmem
  simp only [List.mem_cons, List.not_mem_nil, or_false] at hmem
  rcases hmem with rfl | rfl | rfl | rfl | rfl <;> exact absurd h (by decide)

theorem digits_skipSpace_eq_some {cs rest : List Char} {s : String} :
    digits (skipSpace cs) = some (s, rest) ↔
      ∃ sp, cs = sp ++ s.toList ++ rest ∧ Spaces sp ∧ IsDigits s ∧
        ∀ c ∈ rest.head?, c.isDigit = false := by
  rw [digits_eq_some]
  constructor
  · rintro ⟨hcs, hne, hd, hrest⟩
    refine ⟨cs.takeWhile fun c => c ∈ ['\t', '\n', '\x0c', '\r', ' '], ?_, fun c hc => ?_,
      ⟨hne, hd⟩, hrest⟩
    · rw [List.append_assoc, ← hcs]
      exact List.takeWhile_append_dropWhile.symm
    · have hspace := List.mem_takeWhile_imp hc
      exact of_decide_eq_true hspace
  · rintro ⟨sp, rfl, hsp, ⟨hne, hd⟩, hrest⟩
    refine ⟨?_, hne, hd, hrest⟩
    rw [skipSpace, List.append_assoc,
      List.dropWhile_append_of_pos fun c hc => decide_eq_true (hsp c hc)]
    cases hs : s.toList with
    | nil => exact absurd hs hne
    | cons c cs =>
      rw [hs] at hd
      have hc := not_space_of_isDigit (hd c List.mem_cons_self)
      rw [List.cons_append, List.dropWhile_cons_of_neg (by simpa using hc)]

theorem rangeBounds_eq_some {cs rest : List Char} {a b : String} :
    rangeBounds cs = some (a, b, rest) ↔
      ∃ sp, cs = "range(".toList ++ (a.toList ++ ';' :: (sp ++ b.toList ++ rest)) ∧ Spaces sp ∧
        IsDigits a ∧ IsDigits b ∧ ∀ c ∈ rest.head?, c.isDigit = false := by
  constructor
  · intro h
    simp only [rangeBounds, Option.bind_eq_bind, Option.bind_eq_some_iff] at h
    obtain ⟨cs₁, h₁, ⟨a', cs₂⟩, h₂, cs₃, h₃, ⟨b', cs₄⟩, h₄, h₅⟩ := h
    obtain ⟨rfl, hb⟩ := Prod.mk.inj (Option.some.inj h₅)
    obtain ⟨rfl, rfl⟩ := Prod.mk.inj hb
    obtain rfl := behind_eq_some.1 h₁
    obtain ⟨rfl, hne, hd, -⟩ := digits_eq_some.1 h₂
    obtain rfl := behind_eq_some.1 h₃
    obtain ⟨sp, rfl, hsp, hbd, hrest⟩ := digits_skipSpace_eq_some.1 h₄
    exact ⟨sp, rfl, hsp, ⟨hne, hd⟩, hbd, hrest⟩
  · rintro ⟨sp, rfl, hsp, ha, hb, hrest⟩
    have h₁ := behind_append "range(".toList (a.toList ++ ';' :: (sp ++ b.toList ++ rest))
    have h₂ : digits (a.toList ++ ';' :: (sp ++ b.toList ++ rest)) =
        some (a, ';' :: (sp ++ b.toList ++ rest)) := by
      refine digits_eq_some.2 ⟨rfl, ha.1, ha.2, fun c hc => ?_⟩
      obtain rfl := Option.some.inj hc
      rfl
    have h₃ : behind [';'] (';' :: (sp ++ b.toList ++ rest)) = some (sp ++ b.toList ++ rest) :=
      behind_append [';'] _
    have h₄ := digits_skipSpace_eq_some.2 ⟨sp, rfl, hsp, hb, hrest⟩
    simp only [rangeBounds, h₁, h₂, h₃, h₄, Option.bind_eq_bind, Option.bind_some]

theorem rangePattern_eq_some {s a b : String} :
    rangePattern s = some (a, b) ↔
      ∃ sp, s.toList = "range(".toList ++ (a.toList ++ ';' :: (sp ++ b.toList ++ [')'])) ∧
        Spaces sp ∧ IsDigits a ∧ IsDigits b := by
  constructor
  · intro h
    simp only [rangePattern, Option.bind_eq_bind, Option.bind_eq_some_iff] at h
    obtain ⟨⟨a', b', rest⟩, hbounds, h⟩ := h
    dsimp only at h
    split at h
    · next hrest =>
      obtain ⟨rfl, rfl⟩ := Prod.mk.inj (Option.some.inj h)
      obtain ⟨sp, hs, hsp, ha, hb, -⟩ := rangeBounds_eq_some.1 hbounds
      rw [hrest] at hs
      exact ⟨sp, hs, hsp, ha, hb⟩
    · cases h
  · rintro ⟨sp, hs, hsp, ha, hb⟩
    have hbounds : rangeBounds s.toList = some (a, b, [')']) := by
      refine rangeBounds_eq_some.2 ⟨sp, hs, hsp, ha, hb, fun c hc => ?_⟩
      obtain rfl := Option.some.inj hc
      rfl
    simp only [rangePattern, hbounds, Option.bind_eq_bind, Option.bind_some, if_true]

theorem rangeStepPattern_eq_some {s a b c : String} :
    rangeStepPattern s = some (a, b, c) ↔
      ∃ sp sp' tail, s.toList = "range(".toList ++ (a.toList ++ ';' ::
          (sp ++ b.toList ++ ';' :: (sp' ++ c.toList ++ ')' :: tail))) ∧
        Spaces sp ∧ Spaces sp' ∧ IsDigits a ∧ IsDigits b ∧ IsDigits c := by
  constructor
  · intro h
    simp only [rangeStepPattern, Option.bind_eq_bind, Option.bind_eq_some_iff] at h
    obtain ⟨⟨a', b', cs₁⟩, hbounds, cs₂, h₂, ⟨c', cs₃⟩, h₃, tail, h₄, h₅⟩ := h
    obtain ⟨rfl, hbc⟩ := Prod.mk.inj (Option.some.inj h₅)
    obtain ⟨rfl, rfl⟩ := Prod.mk.inj hbc
    obtain ⟨sp, hs, hsp, ha, hb, -⟩ := rangeBounds_eq_some.1 hbounds
    obtain rfl := behind_eq_some.1 h₂
    obtain ⟨sp', rfl, hsp', hc, -⟩ := digits_skipSpace_eq_some.1 h₃
    obtain rfl := behind_eq_some.1 h₄
    exact ⟨sp, sp', tail, hs, hsp, hsp', ha, hb, hc⟩
  · rintro ⟨sp, sp', tail, hs, hsp, hsp', ha, hb, hc⟩
    have hbounds : rangeBounds s.toList =
        some (a, b, ';' :: (sp' ++ c.toList ++ ')' :: tail)) := by
      refine rangeBounds_eq_some.2 ⟨sp, hs, hsp, ha, hb, fun c hc => ?_⟩
      obtain rfl := Option.some.inj hc
      rfl
    have h₂ : behind [';'] (';' :: (sp' ++ c.toList ++ ')' :: tail)) =
        some (sp' ++ c.toList ++ ')' :: tail) := behind_append [';'] _
    have h₃ : digits (skipSpace (sp' ++ c.toList ++ ')' :: tail)) = some (c, ')' :: tail) := by
      refine digits_skipSpace_eq_some.2 ⟨sp', rfl, hsp', hc, fun c hc => ?_⟩
      obtain rfl := Option.some.inj hc
      rfl
    have h₄ : behind [')'] (')' :: tail) = some tail := behind_append [')'] _
    simp only [rangeStepPattern, hbounds, h₂, h₃, h₄, Option.bind_eq_bind, Option.bind_some]

/-! ## The range of a text -/

section RangeText

variable {s : String} {m n d m' n' d' : Nat} {tail tail' : List Char} {l : RangeLoop}

theorem isDigits_ofList {cs : List Char} (h : Digits cs n) : IsDigits (String.ofList cs) := by
  rw [IsDigits, String.toList_ofList]
  exact ⟨h.ne_nil, h.digit⟩

theorem atoi_digits (hs : IsDigits s) {z : Int64} :
    atoi s = .ok z ↔ ∃ n, Digits s.toList n ∧ n < 2 ^ 63 ∧ z = Int64.ofNat n := by
  rw [atoi, mapError_eq_ok, parseInt64_of_digits hs.2, unsigned_eq_ok]
  refine exists_congr fun n => and_congr_right fun _ => ?_
  simp only [Bool.false_eq_true, false_and, or_false, if_false]
  refine and_congr_right fun hn => ?_
  rw [← Int64.toInt_inj, Int64.toInt_ofNat_of_lt hn]

/-- What a text of a range begins with, and what is behind its bounds. -/
theorem RangeText.bounds (h : RangeText s.toList m n d tail) :
    ∃ a b rest, rangeBounds s.toList = some (a, b, rest) ∧ Digits a.toList m ∧
      Digits b.toList n ∧
        (rest = [')'] ∧ d = 1 ∧ tail = [] ∨
          ∃ c, behind [';'] rest = some (rest.drop 1) ∧
            digits (skipSpace (rest.drop 1)) = some (c, ')' :: tail) ∧ Digits c.toList d) := by
  cases h with
  | @plain a sp b _ _ hs hsp ha hb =>
    have hal : (String.ofList a).toList = a := String.toList_ofList
    have hbl : (String.ofList b).toList = b := String.toList_ofList
    refine ⟨String.ofList a, String.ofList b, [')'], ?_, hal.symm ▸ ha, hbl.symm ▸ hb,
      Or.inl ⟨rfl, rfl, rfl⟩⟩
    refine rangeBounds_eq_some.2 ⟨sp, ?_, hsp, isDigits_ofList ha, isDigits_ofList hb, ?_⟩
    · rw [hal, hbl]
      exact hs
    · intro c hc
      obtain rfl := Option.some.inj hc
      rfl
  | @step a sp b sp' c _ _ _ _ hs hsp hsp' ha hb hc =>
    have hal : (String.ofList a).toList = a := String.toList_ofList
    have hbl : (String.ofList b).toList = b := String.toList_ofList
    have hcl : (String.ofList c).toList = c := String.toList_ofList
    refine ⟨String.ofList a, String.ofList b, ';' :: (sp' ++ c ++ ')' :: tail), ?_,
      hal.symm ▸ ha, hbl.symm ▸ hb,
      Or.inr ⟨String.ofList c, behind_append [';'] _, ?_, hcl.symm ▸ hc⟩⟩
    · refine rangeBounds_eq_some.2 ⟨sp, ?_, hsp, isDigits_ofList ha, isDigits_ofList hb, ?_⟩
      · rw [hal, hbl]
        exact hs
      · intro c hc
        obtain rfl := Option.some.inj hc
        rfl
    · refine digits_skipSpace_eq_some.2 ⟨sp', ?_, hsp', isDigits_ofList hc, ?_⟩
      · rw [hcl]
        rfl
      · intro c hc
        obtain rfl := Option.some.inj hc
        rfl

/-- A text is a range in one way at most. -/
theorem RangeText.unique (h : RangeText s.toList m n d tail)
    (h' : RangeText s.toList m' n' d' tail') : m = m' ∧ n = n' ∧ d = d' ∧ tail = tail' := by
  obtain ⟨a, b, rest, hbounds, ha, hb, hrest⟩ := h.bounds
  obtain ⟨a', b', rest', hbounds', ha', hb', hrest'⟩ := h'.bounds
  obtain ⟨rfl, hbr⟩ := Prod.mk.inj (Option.some.inj (hbounds.symm.trans hbounds'))
  obtain ⟨rfl, rfl⟩ := Prod.mk.inj hbr
  refine ⟨ha.value.symm.trans ha'.value, hb.value.symm.trans hb'.value, ?_⟩
  rcases hrest with ⟨rfl, rfl, rfl⟩ | ⟨c, hsemi, hdigits, hc⟩
  · rcases hrest' with ⟨-, rfl, rfl⟩ | ⟨c', hsemi', -, -⟩
    · exact ⟨rfl, rfl⟩
    · cases behind_eq_some.1 hsemi'
  · rcases hrest' with ⟨rfl, -, -⟩ | ⟨c', -, hdigits', hc'⟩
    · cases behind_eq_some.1 hsemi
    · obtain ⟨rfl, htail⟩ := Prod.mk.inj (Option.some.inj (hdigits.symm.trans hdigits'))
      exact ⟨hc.value.symm.trans hc'.value, (List.cons.inj htail).2⟩

/-! ## The loop of a range -/

theorem RangeText.lt (h : RangeText s.toList m n d tail) :
    m < 2 ^ 63 ∧ n < 2 ^ 63 ∧ d < 2 ^ 63 := by
  cases h with
  | plain _ _ _ _ hm hn => exact ⟨hm, hn, by decide⟩
  | step _ _ _ _ _ _ hm hn hd => exact ⟨hm, hn, hd⟩

theorem rangeLoop_of_rangeText (h : RangeText s.toList m n d tail) :
    rangeLoop s = some ⟨Int64.ofNat m, Int64.ofNat n, Int64.ofNat d⟩ := by
  obtain ⟨a, b, rest, hbounds, ha, hb, hrest⟩ := h.bounds
  obtain ⟨hm, hn, hd⟩ := h.lt
  have hstart : atoi a = .ok (Int64.ofNat m) :=
    (atoi_digits ⟨ha.ne_nil, ha.digit⟩).2 ⟨m, ha, hm, rfl⟩
  have hend : atoi b = .ok (Int64.ofNat n) :=
    (atoi_digits ⟨hb.ne_nil, hb.digit⟩).2 ⟨n, hb, hn, rfl⟩
  rcases hrest with ⟨rfl, rfl, rfl⟩ | ⟨c, hsemi, hdigits, hc⟩
  · have hp : rangePattern s = some (a, b) := by
      simp only [rangePattern, hbounds, Option.bind_eq_bind, Option.bind_some, if_true]
    simp only [rangeLoop, hp, hstart, hend]
    rfl
  · have hrest : rest ≠ [')'] := by
      rintro rfl
      cases behind_eq_some.1 hsemi
    have hp : rangePattern s = none := by
      simp only [rangePattern, hbounds, Option.bind_eq_bind, Option.bind_some, if_neg hrest]
    have hparen : behind [')'] (')' :: tail) = some tail := behind_append [')'] _
    have hq : rangeStepPattern s = some (a, b, c) := by
      simp only [rangeStepPattern, hbounds, hsemi, hdigits, hparen, Option.bind_eq_bind,
        Option.bind_some]
    have hstep : atoi c = .ok (Int64.ofNat d) :=
      (atoi_digits ⟨hc.ne_nil, hc.digit⟩).2 ⟨d, hc, hd, rfl⟩
    simp only [rangeLoop, hp, hq, hstart, hend, hstep]

theorem rangeText_of_rangeLoop (h : rangeLoop s = some l) :
    ∃ m n d tail, RangeText s.toList m n d tail := by
  rw [rangeLoop] at h
  split at h
  · next a b hp =>
    obtain ⟨sp, hs, hsp, ha, hb⟩ := rangePattern_eq_some.1 hp
    split at h
    · next hstart hend =>
      obtain ⟨m, hm, hm', -⟩ := (atoi_digits ha).1 hstart
      obtain ⟨n, hn, hn', -⟩ := (atoi_digits hb).1 hend
      exact ⟨m, n, 1, [], .plain hs hsp hm hn hm' hn'⟩
    · cases h
  · next a b c hp hq =>
    obtain ⟨sp, sp', tail, hs, hsp, hsp', ha, hb, hc⟩ := rangeStepPattern_eq_some.1 hq
    split at h
    · next hstart hend hstep =>
      obtain ⟨m, hm, hm', -⟩ := (atoi_digits ha).1 hstart
      obtain ⟨n, hn, hn', -⟩ := (atoi_digits hb).1 hend
      obtain ⟨d, hd, hd', -⟩ := (atoi_digits hc).1 hstep
      exact ⟨m, n, d, tail, .step hs hsp hsp' hm hn hd hm' hn' hd'⟩
    · cases h
  · cases h

theorem parseInts_of_rangeLoop (h : rangeLoop s = some l) :
    parseInts s = rangeInts l.start l.end_ l.step >>= someResults := by
  rw [rangeLoop] at h
  split at h
  · next a b hp =>
    split at h
    · next hstart hend =>
      obtain rfl := Option.some.inj h
      simp only [parseInts, hp, hstart, hend]
      rfl
    · cases h
  · next a b c hp hq =>
    split at h
    · next hstart hend hstep =>
      obtain rfl := Option.some.inj h
      simp only [parseInts, hp, hq, hstart, hend, hstep]
      rfl
    · cases h
  · cases h

theorem countUp_eq_some {end_ step : Int64} {fuel : Nat} {i : Int64} {results : List Int64} :
    countUp end_ step fuel i = some results ↔
      ∃ k < fuel, (∀ j < k, (· + step)^[j] i ≤ end_) ∧ end_ < (· + step)^[k] i ∧
        results = (List.range k).map fun j => (· + step)^[j] i := by
  induction fuel generalizing i results with
  | zero => exact iff_of_false (by rintro ⟨⟩) (by rintro ⟨k, hk, -⟩; omega)
  | succ fuel ih =>
    rw [countUp]
    split
    · next hi =>
      rw [Option.map_eq_some_iff]
      constructor
      · rintro ⟨results, h, rfl⟩
        obtain ⟨k, hk, hup, hpast, rfl⟩ := ih.1 h
        refine ⟨k + 1, by omega, fun j hj => ?_, hpast, ?_⟩
        · cases j with
          | zero => exact hi
          | succ j => exact hup j (by omega)
        · rw [List.range_succ_eq_map, List.map_cons, List.map_map]
          rfl
      · rintro ⟨k, hk, hup, hpast, rfl⟩
        cases k with
        | zero => exact absurd hi (Int64.not_le.2 hpast)
        | succ k =>
          refine ⟨_, ih.2 ⟨k, by omega, fun j hj => hup (j + 1) (by omega), hpast, rfl⟩, ?_⟩
          rw [List.range_succ_eq_map, List.map_cons, List.map_map]
          rfl
    · next hi =>
      constructor
      · intro h
        obtain rfl := Option.some.inj h
        exact ⟨0, by omega, fun j hj => absurd hj (Nat.not_lt_zero j), Int64.not_le.1 hi, rfl⟩
      · rintro ⟨k, hk, hup, hpast, rfl⟩
        cases k with
        | zero => rfl
        | succ k => exact absurd (hup 0 (by omega)) hi

/-- The index of a range is what it should be as long as that fits. -/
theorem toInt_index_of_lt {k : Nat} (hm : m < 2 ^ 63) (hd : d < 2 ^ 63) (hk : m + d * k < 2 ^ 63) :
    (RangeLoop.index ⟨Int64.ofNat m, Int64.ofNat n, Int64.ofNat d⟩ k).toInt =
      (m + d * k : Nat) := by
  rw [RangeLoop.toInt_index, Int64.toInt_ofNat_of_lt hm, Int64.toInt_ofNat_of_lt hd,
    show ((m : Int) + k * d) = (m + d * k : Nat) by push_cast; ring]
  exact Int.bmod_eq_of_le (by omega) (by omega)

/-- The first index past the end wraps around to a negative one if it does not fit. -/
theorem toInt_index_of_le {k : Nat} (hm : m < 2 ^ 63) (hd : d < 2 ^ 63)
    (hk : 2 ^ 63 ≤ m + d * k) (hk' : m + d * k < 2 ^ 64) :
    (RangeLoop.index ⟨Int64.ofNat m, Int64.ofNat n, Int64.ofNat d⟩ k).toInt < 0 := by
  rw [RangeLoop.toInt_index, Int64.toInt_ofNat_of_lt hm, Int64.toInt_ofNat_of_lt hd,
    show ((m : Int) + k * d) = (m + d * k : Nat) by push_cast; ring]
  have hwrap : (((m + d * k : Nat) : Int)).bmod (2 ^ 64) = (m + d * k : Nat) - 2 ^ 64 :=
    RangeLoop.bmod_eq_of_dvd (by omega) (by omega) ⟨-1, by ring⟩
  omega

theorem add_mul_le_iff (hmn : m ≤ n) (hd : 1 ≤ d) {k : Nat} :
    m + d * k ≤ n ↔ k < (n - m) / d + 1 := by
  rw [Nat.lt_succ_iff, Nat.le_div_iff_mul_le hd, Nat.mul_comm]
  omega

/-- The numbers of a range are returned exactly if there is a step and the first index past the
end fits. -/
theorem rangeInts_eq_numbers (hm : m < 2 ^ 63) (hn : n < 2 ^ 63) (hd : d < 2 ^ 63) (hmn : m ≤ n)
    (hd' : 1 ≤ d) :
    (∃ results, rangeInts (Int64.ofNat m) (Int64.ofNat n) (Int64.ofNat d) = .ok results ∧
        results.map Int64.toInt = numbers m n d) ↔
      m + ((n - m) / d + 1) * d < 2 ^ 63 := by
  have hindex : ∀ k, (· + Int64.ofNat d)^[k] (Int64.ofNat m) =
      RangeLoop.index ⟨Int64.ofNat m, Int64.ofNat n, Int64.ofNat d⟩ k := fun k => rfl
  have hupto : ∀ k < (n - m) / d + 1, m + d * k ≤ n := fun k => (add_mul_le_iff hmn hd').2
  have hpast : n < m + d * ((n - m) / d + 1) :=
    Nat.lt_of_not_le fun h => absurd ((add_mul_le_iff hmn hd').1 h) (Nat.lt_irrefl _)
  have hlast := hupto ((n - m) / d) (Nat.lt_succ_self _)
  rw [Nat.mul_comm ((n - m) / d + 1) d]
  constructor
  · rintro ⟨results, h, hnumbers⟩
    by_contra hfits
    rw [rangeInts] at h
    split at h
    · next hcount =>
      obtain rfl := Except.ok.inj h
      obtain ⟨k, -, -, hend, rfl⟩ := countUp_eq_some.1 hcount
      -- there are as many results as numbers, so the index past the last of them is past the end
      have hk : k = (n - m) / d + 1 := by
        have hlength := congrArg List.length hnumbers
        simpa [numbers] using hlength
      subst hk
      rw [hindex, Int64.lt_iff_toInt_lt, Int64.toInt_ofNat_of_lt hn] at hend
      have hneg := toInt_index_of_le (n := n) hm hd (Nat.le_of_not_lt hfits) (by
        rw [Nat.mul_succ]
        omega)
      omega
    · cases h
  · intro hfits
    have hcount : countUp (Int64.ofNat n) (Int64.ofNat d) (2 ^ 64) (Int64.ofNat m) =
        some ((List.range ((n - m) / d + 1)).map fun k =>
          (· + Int64.ofNat d)^[k] (Int64.ofNat m)) := by
      refine countUp_eq_some.2 ⟨(n - m) / d + 1, ?_, fun k hk => ?_, ?_, rfl⟩
      · have hle := Nat.div_le_self (n - m) d
        omega
      · have hkn := hupto k hk
        rw [hindex, Int64.le_iff_toInt_le, toInt_index_of_lt hm hd (by omega),
          Int64.toInt_ofNat_of_lt hn]
        omega
      · rw [hindex, Int64.lt_iff_toInt_lt, toInt_index_of_lt hm hd hfits,
          Int64.toInt_ofNat_of_lt hn]
        omega
    refine ⟨_, by rw [rangeInts, hcount], ?_⟩
    rw [List.map_map, numbers]
    refine List.map_congr_left fun k hk => ?_
    have hkn := hupto k (List.mem_range.1 hk)
    exact toInt_index_of_lt (n := n) hm hd (by omega)

end RangeText

/-! ## Items -/

section Items

variable {s : String} {z : Int} {zs : List Int} {cs : List Char}

instance : DecidablePred Blank := fun cs => inferInstanceAs (Decidable (∀ c ∈ cs, isSpace c = true))

theorem intText_ne_nil (h : IntText cs z) : cs ≠ [] := by
  cases h with
  | plain hd => exact hd.ne_nil
  | plus => exact List.cons_ne_nil _ _
  | minus => exact List.cons_ne_nil _ _

theorem mem_intText (h : IntText cs z) : ∀ c ∈ cs, c.isDigit = true ∨ c = '+' ∨ c = '-' := by
  cases h with
  | plain hd => exact fun c hc => Or.inl (hd.digit c hc)
  | plus hd =>
    intro c hc
    rcases List.mem_cons.1 hc with rfl | hc
    · exact Or.inr (Or.inl rfl)
    · exact Or.inl (hd.digit c hc)
  | minus hd =>
    intro c hc
    rcases List.mem_cons.1 hc with rfl | hc
    · exact Or.inr (Or.inr rfl)
    · exact Or.inl (hd.digit c hc)

theorem not_isSpace_of_mem_intText (h : IntText cs z) : ∀ c ∈ cs, isSpace c = false := by
  intro c hc
  rcases mem_intText h c hc with hd | rfl | rfl
  · exact not_isSpace_of_isDigit hd
  · decide
  · decide

theorem exists_toInt_eq (h : IntText cs z) : ∃ n : Int64, n.toInt = z := by
  refine ⟨Int64.ofInt z, ?_⟩
  cases h with
  | plain hd hn => exact Int64.toInt_ofInt_of_le (by omega) (by omega)
  | plus hd hn => exact Int64.toInt_ofInt_of_le (by omega) (by omega)
  | minus hd hn => exact Int64.toInt_ofInt_of_le (by omega) (by omega)

theorem exists_append_trimSpace (s : String) :
    ∃ before behind, s.toList = before ++ (trimSpace s).toList ++ behind ∧ Blank before ∧
      Blank behind := by
  rw [toList_trimSpace]
  refine ⟨s.toList.takeWhile isSpace, (s.toList.dropWhile isSpace).rtakeWhile isSpace, ?_,
    fun c hc => List.mem_takeWhile_imp hc, fun c hc => List.mem_rtakeWhile_imp hc⟩
  rw [List.append_assoc, List.rdropWhile, List.rtakeWhile, ← List.reverse_append,
    List.takeWhile_append_dropWhile, List.reverse_reverse, List.takeWhile_append_dropWhile]

theorem trimSpace_append {before text behind : List Char}
    (hs : s.toList = before ++ text ++ behind) (hbefore : Blank before) (hbehind : Blank behind)
    (htext : ∀ c ∈ text, isSpace c = false) : (trimSpace s).toList = text := by
  rw [toList_trimSpace, hs, List.append_assoc, List.dropWhile_append_of_pos hbefore]
  cases text with
  | nil =>
    rw [List.nil_append, List.dropWhile_eq_nil_iff.2 hbehind]
    rfl
  | cons c text =>
    rw [List.cons_append, List.dropWhile_cons_of_neg (by simp [htext c List.mem_cons_self]),
      ← List.cons_append, List.rdropWhile, List.reverse_append,
      List.dropWhile_append_of_pos fun c hc => hbehind c (List.mem_reverse.1 hc),
      dropWhile_isSpace_eq_self fun c' hc => htext c' (List.mem_reverse.1 hc), List.reverse_reverse]

theorem trimSpace_eq_empty : trimSpace s = "" ↔ Blank s.toList := by
  constructor
  · intro h
    obtain ⟨before, behind, hs, hbefore, hbehind⟩ := exists_append_trimSpace s
    rw [h, String.toList_empty, List.append_nil] at hs
    rw [hs]
    intro c hc
    exact (List.mem_append.1 hc).elim (hbefore c) (hbehind c)
  · intro h
    have hnone : ∀ b : Bool, ∀ c ∈ ([] : List Char), isSpace c = b :=
      fun _ _ hc => (List.not_mem_nil hc).elim
    have hs : s.toList = s.toList ++ [] ++ [] := by rw [List.append_nil, List.append_nil]
    exact String.toList_inj.1 (trimSpace_append hs h (hnone true) (hnone false))

theorem atoi_trimSpace {n : Int64} : atoi (trimSpace s) = .ok n ↔ Item s.toList n.toInt := by
  rw [atoi, mapError_eq_ok, parseInt64_eq_ok]
  constructor
  · intro h
    obtain ⟨before, behind, hs, hbefore, hbehind⟩ := exists_append_trimSpace s
    exact ⟨hs, hbefore, hbehind, h⟩
  · rintro ⟨hs, hbefore, hbehind, h⟩
    rwa [trimSpace_append hs hbefore hbehind (not_isSpace_of_mem_intText h)]

theorem Item.not_blank (h : Item cs z) : ¬Blank cs := by
  obtain ⟨rfl, -, -, h⟩ := h
  intro hblank
  obtain ⟨c, hc⟩ := List.exists_mem_of_ne_nil _ (intText_ne_nil h)
  have hspace := hblank c (List.mem_append_left _ (List.mem_append_right _ hc))
  rw [not_isSpace_of_mem_intText h c hc] at hspace
  cases hspace

theorem atois_eq_ok {segs : List String} {l : List Int64} :
    atois segs = .ok l ↔
      List.Forall₂ Item ((segs.map String.toList).filter fun cs => ¬Blank cs)
        (l.map Int64.toInt) := by
  induction segs generalizing l with
  | nil =>
    rw [List.map_nil, List.filter_nil, List.forall₂_nil_left_iff, List.map_eq_nil_iff]
    exact ⟨fun h => (Except.ok.inj h).symm, fun h => h ▸ rfl⟩
  | cons seg segs ih =>
    rw [atois, List.map_cons]
    split
    · next hseg =>
      rw [List.filter_cons_of_neg (by simpa using trimSpace_eq_empty.1 hseg)]
      exact ih
    · next hseg =>
      rw [List.filter_cons_of_pos (by simpa using mt trimSpace_eq_empty.2 hseg)]
      constructor
      · intro h
        obtain ⟨n, hn, h⟩ := bind_eq_ok.1 h
        obtain ⟨results, hresults, h⟩ := bind_eq_ok.1 h
        obtain rfl := Except.ok.inj h
        exact .cons (atoi_trimSpace.1 hn) (ih.1 hresults)
      · intro h
        cases l with
        | nil => cases h
        | cons n l =>
          obtain ⟨hn, hl⟩ := List.forall₂_cons.1 h
          rw [atoi_trimSpace.2 hn, ih.2 hl]
          rfl

theorem exists_results {css : List (List Char)} (h : List.Forall₂ Item css zs) :
    ∃ l : List Int64, l.map Int64.toInt = zs := by
  induction h with
  | nil => exact ⟨[], rfl⟩
  | cons hz _ ih =>
    obtain ⟨-, -, -, ht⟩ := hz
    obtain ⟨n, hn⟩ := exists_toInt_eq ht
    obtain ⟨l, hl⟩ := ih
    exact ⟨n :: l, by rw [List.map_cons, hn, hl]⟩

end Items

/-! ## Lists -/

section Lists

variable {s : String} {zs : List Int} {cs : List Char}

/-- The items that are not blank. -/
def items (cs : List Char) : List (List Char) := (cs.splitOn ',').filter fun item => ¬Blank item

theorem parseInts_of_list (hp : rangePattern s = none) (hq : rangeStepPattern s = none) :
    (∃ l, parseInts s = .ok l ∧ l.map Int64.toInt = zs) ↔
      List.Forall₂ Item (items s.toList) zs ∧ zs ≠ [] := by
  have hsegs : (split s ',').map String.toList = s.toList.splitOn ',' := by
    rw [split, splitChars_eq_splitOn, List.map_map]
    exact (List.map_congr_left fun cs _ => String.toList_ofList).trans (List.map_id _)
  have hok : ∀ l, parseInts s = .ok l ↔
      List.Forall₂ Item (items s.toList) (l.map Int64.toInt) ∧ l ≠ [] := by
    intro l
    rw [items, ← hsegs, ← atois_eq_ok]
    simp only [parseInts, hp, hq, bind_eq_ok, mapError_eq_ok]
    constructor
    · rintro ⟨results, hresults, h⟩
      have hne := ne_nil_of_someResults h
      rw [someResults] at h
      split at h
      · cases h
      · obtain rfl := Except.ok.inj h
        exact ⟨hresults, hne⟩
    · rintro ⟨hl, hne⟩
      exact ⟨l, hl, by rw [someResults, if_neg hne]⟩
  constructor
  · rintro ⟨l, hl, rfl⟩
    obtain ⟨hitems, hne⟩ := (hok l).1 hl
    exact ⟨hitems, mt List.map_eq_nil_iff.1 hne⟩
  · rintro ⟨hitems, hne⟩
    obtain ⟨l, rfl⟩ := exists_results hitems
    exact ⟨l, (hok l).2 ⟨hitems, mt List.map_eq_nil_iff.2 hne⟩, rfl⟩

theorem mem_items {item : List Char} :
    item ∈ items cs ↔ item ∈ cs.splitOn ',' ∧ ¬Blank item := by
  rw [items, List.mem_filter, decide_eq_true_iff]

theorem items_eq_splitOn (h : ∀ item ∈ cs.splitOn ',', ¬Blank item) : items cs = cs.splitOn ',' :=
  List.filter_eq_self.2 fun item hitem => decide_eq_true (h item hitem)

theorem exists_forall₂_item {css : List (List Char)} (h : ∀ item ∈ css, ∃ z, Item item z) :
    ∃ zs, List.Forall₂ Item css zs := by
  induction css with
  | nil => exact ⟨[], .nil⟩
  | cons item css ih =>
    obtain ⟨z, hz⟩ := h item List.mem_cons_self
    obtain ⟨zs, hzs⟩ := ih fun item' h' => h item' (List.mem_cons_of_mem _ h')
    exact ⟨z :: zs, .cons hz hzs⟩

theorem exists_item_of_forall₂ {css : List (List Char)} (h : List.Forall₂ Item css zs) :
    ∀ item ∈ css, ∃ z, Item item z := by
  induction h with
  | nil => exact fun _ hitem => (List.not_mem_nil hitem).elim
  | cons hz _ ih =>
    intro item hitem
    rcases List.mem_cons.1 hitem with rfl | hitem
    · exact ⟨_, hz⟩
    · exact ih item hitem

/-- The items that are not blank are all the items exactly if none is blank among integers. -/
theorem forall₂_items_iff :
    (∀ zs, List.Forall₂ Item (cs.splitOn ',') zs ↔
        List.Forall₂ Item (items cs) zs ∧ zs ≠ []) ↔ RegularList cs := by
  constructor
  · rintro h hall ⟨item, hitem, z, hz⟩ item' hitem'
    obtain ⟨zs, hzs⟩ : ∃ zs, List.Forall₂ Item (items cs) zs := by
      refine exists_forall₂_item fun item hitem => ?_
      obtain ⟨hmem, hblank⟩ := mem_items.1 hitem
      exact (hall item hmem).resolve_left hblank
    have hne : zs ≠ [] := by
      rintro rfl
      have hnil := List.forall₂_nil_right_iff.1 hzs
      have hmem := mem_items.2 ⟨hitem, hz.not_blank⟩
      rw [hnil] at hmem
      exact List.not_mem_nil hmem
    obtain ⟨z', hz'⟩ := exists_item_of_forall₂ ((h zs).2 ⟨hzs, hne⟩) item' hitem'
    exact hz'.not_blank
  · intro h zs
    constructor
    · intro hzs
      have hblank : ∀ item ∈ cs.splitOn ',', ¬Blank item := by
        intro item hitem
        obtain ⟨z, hz⟩ := exists_item_of_forall₂ hzs item hitem
        exact hz.not_blank
      rw [items_eq_splitOn hblank]
      refine ⟨hzs, ?_⟩
      rintro rfl
      exact List.splitOn_ne_nil ',' cs (List.forall₂_nil_right_iff.1 hzs)
    · rintro ⟨hzs, hne⟩
      have hitems := exists_item_of_forall₂ hzs
      have hall : ∀ item ∈ cs.splitOn ',', Blank item ∨ ∃ z, Item item z := by
        intro item hitem
        rw [or_iff_not_imp_left]
        exact fun hblank => hitems item (mem_items.2 ⟨hitem, hblank⟩)
      have hsome : ∃ item ∈ cs.splitOn ',', ∃ z, Item item z := by
        cases hi : items cs with
        | nil =>
          rw [hi, List.forall₂_nil_left_iff] at hzs
          exact absurd hzs hne
        | cons item rest =>
          have hmem : item ∈ items cs := hi ▸ List.mem_cons_self
          exact ⟨item, (mem_items.1 hmem).1, hitems item hmem⟩
      rwa [items_eq_splitOn (h hall hsome)] at hzs

/-- A text that begins with a letter is no list. -/
theorem exists_not_item (cs : List Char) :
    ∃ item ∈ ('r' :: cs).splitOn ',', ¬Blank item ∧ ∀ z, ¬Item item z := by
  rw [List.splitOn_cons_eq_if_modifyHead]
  cases hs : cs.splitOn ',' with
  | nil => exact absurd hs (List.splitOn_ne_nil ',' cs)
  | cons seg segs =>
    refine ⟨'r' :: seg, by simp, fun hblank => ?_, fun z hz => ?_⟩
    · exact absurd (hblank 'r' List.mem_cons_self) (by decide)
    · obtain ⟨h, hbefore, hbehind, ht⟩ := hz
      have hmem : 'r' ∈ 'r' :: seg := List.mem_cons_self
      rw [h, List.mem_append, List.mem_append] at hmem
      rcases hmem with (hr | hr) | hr
      · exact absurd (hbefore _ hr) (by decide)
      · exact absurd (mem_intText ht _ hr) (by decide)
      · exact absurd (hbehind _ hr) (by decide)

end Lists

/-! ## What is read as it is meant -/

section Correct

variable {s : String} {cs : List Char} {zs : List Int} {m n d : Nat} {tail : List Char}

theorem exists_not_item_of_bounds {p : String × String × List Char} (h : rangeBounds cs = some p) :
    ∃ item ∈ cs.splitOn ',', ¬Blank item ∧ ∀ z, ¬Item item z := by
  obtain ⟨sp, rfl, -⟩ := rangeBounds_eq_some.1 h
  exact exists_not_item _

theorem not_list_of_bounds {p : String × String × List Char} (h : rangeBounds cs = some p) :
    ¬List.Forall₂ Item (cs.splitOn ',') zs := by
  obtain ⟨item, hitem, -, hnot⟩ := exists_not_item_of_bounds h
  intro hzs
  obtain ⟨z, hz⟩ := exists_item_of_forall₂ hzs item hitem
  exact hnot z hz

theorem regularList_of_bounds {p : String × String × List Char} (h : rangeBounds cs = some p) :
    RegularList cs := by
  obtain ⟨item, hitem, hblank, hnot⟩ := exists_not_item_of_bounds h
  intro hall
  rcases hall item hitem with hb | ⟨z, hz⟩
  · exact absurd hb hblank
  · exact absurd hz (hnot z)

theorem denotes_of_rangeText (h : RangeText s.toList m n d tail) :
    Denotes s.toList zs ↔ tail = [] ∧ 1 ≤ d ∧ m ≤ n ∧ zs = numbers m n d := by
  constructor
  · rintro (hzs | ⟨h', hd, hmn⟩)
    · obtain ⟨a, b, rest, hbounds, -⟩ := h.bounds
      exact absurd hzs (not_list_of_bounds hbounds)
    · obtain ⟨rfl, rfl, rfl, rfl⟩ := h.unique h'
      exact ⟨rfl, hd, hmn, rfl⟩
  · rintro ⟨rfl, hd, hmn, rfl⟩
    exact .range h hd hmn

theorem someResults_eq_ok {results l : List Int64} :
    someResults results = .ok l ↔ results = l ∧ l ≠ [] := by
  rw [someResults]
  split
  · next hnil =>
    subst hnil
    exact iff_of_false (by rintro ⟨⟩) (by rintro ⟨rfl, hne⟩; exact hne rfl)
  · next hne => exact ⟨fun h => Except.ok.inj h ▸ ⟨rfl, hne⟩, fun h => h.1 ▸ rfl⟩

/-- A range whose end is before its start has no numbers. -/
theorem parseInts_of_lt (h : RangeText s.toList m n d tail) (hmn : n < m) :
    parseInts s = .error .noResults := by
  obtain ⟨hm, hn, -⟩ := h.lt
  have hcount : countUp (Int64.ofNat n) (Int64.ofNat d) (2 ^ 64) (Int64.ofNat m) = some [] := by
    refine countUp_eq_some.2 ⟨0, by decide, fun j hj => absurd hj (Nat.not_lt_zero j), ?_, rfl⟩
    rw [Function.iterate_zero_apply, Int64.lt_iff_toInt_lt, Int64.toInt_ofNat_of_lt hm,
      Int64.toInt_ofNat_of_lt hn]
    omega
  rw [parseInts_of_rangeLoop (rangeLoop_of_rangeText h), rangeInts, hcount]
  rfl

/-- A range whose end is not before its start has numbers, if its loop ends. -/
theorem exists_results_of_le (h : RangeText s.toList m n d tail) (hmn : m ≤ n)
    (hends : parseInts s ≠ .error .endless) : ∃ l, parseInts s = .ok l ∧
      rangeInts (Int64.ofNat m) (Int64.ofNat n) (Int64.ofNat d) = .ok l := by
  obtain ⟨hm, hn, -⟩ := h.lt
  rw [parseInts_of_rangeLoop (rangeLoop_of_rangeText h)] at hends ⊢
  rw [rangeInts] at hends ⊢
  split at hends
  · next results hcount =>
    refine ⟨results, someResults_eq_ok.2 ⟨rfl, ?_⟩, rfl⟩
    rintro rfl
    obtain ⟨k, -, -, hpast, hnil⟩ := countUp_eq_some.1 hcount
    have hk : k = 0 := by simpa using hnil
    subst hk
    rw [Function.iterate_zero_apply, Int64.lt_iff_toInt_lt, Int64.toInt_ofNat_of_lt hm,
      Int64.toInt_ofNat_of_lt hn] at hpast
    omega
  · exact absurd rfl hends

/-- Steps of zero do not come past the end. -/
theorem one_le_of_returns (h : RangeText s.toList m n d tail) (hmn : m ≤ n)
    (hends : parseInts s ≠ .error .endless) : 1 ≤ d := by
  obtain ⟨hm, hn, hd⟩ := h.lt
  by_contra hzero
  obtain rfl : d = 0 := by omega
  refine hends ((parseInts_eq_endless s).2 ⟨_, rangeLoop_of_rangeText h, ?_⟩)
  rintro ⟨k, hk⟩
  rw [Int64.lt_iff_toInt_lt, toInt_index_of_lt hm hd (by omega), Int64.toInt_ofNat_of_lt hn] at hk
  omega

theorem correct_of_rangeText (h : RangeText s.toList m n d tail) :
    Correct s ↔ (m ≤ n → 1 ≤ d ∧ tail = [] ∧ m + ((n - m) / d + 1) * d < 2 ^ 63) := by
  obtain ⟨hm, hn, hd⟩ := h.lt
  constructor
  · intro hc hmn
    have hd' := one_le_of_returns h hmn hc.returns
    obtain ⟨l, hl, hresults⟩ := exists_results_of_le h hmn hc.returns
    obtain ⟨htail, -, -, hnumbers⟩ := (denotes_of_rangeText h).1 ((hc.numbers _).2 ⟨l, hl, rfl⟩)
    exact ⟨hd', htail, (rangeInts_eq_numbers hm hn hd hmn hd').1 ⟨l, hresults, hnumbers⟩⟩
  · intro hregular
    rcases Nat.lt_or_ge n m with hlt | hmn
    · have herr := parseInts_of_lt h hlt
      refine ⟨fun zs => iff_of_false ?_ ?_, ?_⟩
      · intro hzs
        obtain ⟨-, -, hmn, -⟩ := (denotes_of_rangeText h).1 hzs
        omega
      · rintro ⟨l, hl, -⟩
        rw [herr] at hl
        cases hl
      · rw [herr]
        rintro ⟨⟩
    · obtain ⟨hd', rfl, hfits⟩ := hregular hmn
      obtain ⟨l, hresults, hnumbers⟩ := (rangeInts_eq_numbers hm hn hd hmn hd').2 hfits
      have hne : l ≠ [] := by
        rintro rfl
        simp [numbers] at hnumbers
      have hl : parseInts s = .ok l := by
        rw [parseInts_of_rangeLoop (rangeLoop_of_rangeText h)]
        exact bind_eq_ok.2 ⟨l, hresults, someResults_eq_ok.2 ⟨rfl, hne⟩⟩
      refine ⟨fun zs => ?_, by rw [hl]; rintro ⟨⟩⟩
      rw [denotes_of_rangeText h]
      constructor
      · rintro ⟨-, -, -, rfl⟩
        exact ⟨l, hl, hnumbers⟩
      · rintro ⟨l', hl', rfl⟩
        obtain rfl := Except.ok.inj (hl.symm.trans hl')
        exact ⟨rfl, hd', hmn, hnumbers⟩

theorem regularRange_of_rangeText (h : RangeText s.toList m n d tail) :
    RegularRange s.toList ↔
      (m ≤ n → 1 ≤ d ∧ tail = [] ∧ m + ((n - m) / d + 1) * d < 2 ^ 63) := by
  constructor
  · exact fun hr => hr m n d tail h
  · intro hr m' n' d' tail' h'
    obtain ⟨rfl, rfl, rfl, rfl⟩ := h.unique h'
    exact hr

theorem bounds_of_rangePattern {p : String × String} (h : rangePattern s = some p) :
    ∃ q, rangeBounds s.toList = some q := by
  rw [rangePattern, Option.bind_eq_bind, Option.bind_eq_some_iff] at h
  obtain ⟨q, hq, -⟩ := h
  exact ⟨q, hq⟩

theorem bounds_of_rangeStepPattern {p : String × String × String}
    (h : rangeStepPattern s = some p) : ∃ q, rangeBounds s.toList = some q := by
  rw [rangeStepPattern, Option.bind_eq_bind, Option.bind_eq_some_iff] at h
  obtain ⟨q, hq, -⟩ := h
  exact ⟨q, hq⟩

/-- A text that looks like a range but has a number that does not fit is an error. -/
theorem error_of_pattern {p : String × String} (hp : rangePattern s = some p)
    (hloop : rangeLoop s = none) : ∃ err, parseInts s = .error (.num err) := by
  simp only [rangeLoop, hp] at hloop
  simp only [parseInts, hp]
  cases hstart : atoi p.1 with
  | error err => exact ⟨err, rfl⟩
  | ok start =>
    cases hend : atoi p.2 with
    | error err => exact ⟨err, rfl⟩
    | ok end_ =>
      simp only [hstart, hend] at hloop
      cases hloop

theorem error_of_stepPattern {q : String × String × String} (hp : rangePattern s = none)
    (hq : rangeStepPattern s = some q) (hloop : rangeLoop s = none) :
    ∃ err, parseInts s = .error (.num err) := by
  simp only [rangeLoop, hp, hq] at hloop
  simp only [parseInts, hp, hq]
  cases hstart : atoi q.1 with
  | error err => exact ⟨err, rfl⟩
  | ok start =>
    cases hend : atoi q.2.1 with
    | error err => exact ⟨err, rfl⟩
    | ok end_ =>
      cases hstep : atoi q.2.2 with
      | error err => exact ⟨err, rfl⟩
      | ok step =>
        simp only [hstart, hend, hstep] at hloop
        cases hloop

theorem denotes_of_not_rangeText (h : ∀ m n d tail, ¬RangeText cs m n d tail) :
    Denotes cs zs ↔ List.Forall₂ Item (cs.splitOn ',') zs := by
  constructor
  · rintro (hzs | ⟨hr, -, -⟩)
    · exact hzs
    · exact absurd hr (h _ _ _ _)
  · exact .list

theorem correct_of_error {p : String × String × List Char} {err : NumError}
    (h : ∀ m n d tail, ¬RangeText s.toList m n d tail) (hbounds : rangeBounds s.toList = some p)
    (herr : parseInts s = .error (.num err)) : Correct s := by
  refine ⟨fun zs => iff_of_false ?_ ?_, ?_⟩
  · rw [denotes_of_not_rangeText h]
    exact not_list_of_bounds hbounds
  · rintro ⟨l, hl, -⟩
    rw [herr] at hl
    cases hl
  · rw [herr]
    rintro ⟨⟩

/-- Exactly the regular texts are read as they are meant. -/
theorem correct_iff (s : String) : Correct s ↔ Regular s.toList := by
  cases hloop : rangeLoop s with
  | some l =>
    obtain ⟨m, n, d, tail, h⟩ := rangeText_of_rangeLoop hloop
    obtain ⟨a, b, rest, hbounds, -⟩ := h.bounds
    rw [correct_of_rangeText h, ← regularRange_of_rangeText h]
    exact ⟨fun hr => ⟨hr, regularList_of_bounds hbounds⟩, fun hr => hr.range⟩
  | none =>
    have h : ∀ m n d tail, ¬RangeText s.toList m n d tail := by
      intro m n d tail hr
      rw [rangeLoop_of_rangeText hr] at hloop
      cases hloop
    have hrange : RegularRange s.toList := fun m n d tail hr => absurd hr (h m n d tail)
    cases hp : rangePattern s with
    | some p =>
      obtain ⟨q, hbounds⟩ := bounds_of_rangePattern hp
      obtain ⟨err, herr⟩ := error_of_pattern hp hloop
      exact iff_of_true (correct_of_error h hbounds herr) ⟨hrange, regularList_of_bounds hbounds⟩
    | none =>
      cases hq : rangeStepPattern s with
      | some q =>
        obtain ⟨q', hbounds⟩ := bounds_of_rangeStepPattern hq
        obtain ⟨err, herr⟩ := error_of_stepPattern hp hq hloop
        exact iff_of_true (correct_of_error h hbounds herr) ⟨hrange, regularList_of_bounds hbounds⟩
      | none =>
        have hends : parseInts s ≠ .error .endless := by
          intro hendless
          obtain ⟨l, hl, -⟩ := (parseInts_eq_endless s).1 hendless
          rw [hloop] at hl
          cases hl
        have hlist : (∀ zs, Denotes s.toList zs ↔
            ∃ l, parseInts s = .ok l ∧ l.map Int64.toInt = zs) ↔ RegularList s.toList := by
          rw [← forall₂_items_iff]
          refine forall_congr' fun zs => ?_
          rw [denotes_of_not_rangeText h, parseInts_of_list hp hq]
        exact ⟨fun hc => ⟨hrange, hlist.1 hc.numbers⟩, fun hr => ⟨hlist.2 hr.list, hends⟩⟩

/-- What is behind a range with a step is not read. -/
theorem trailing_text_accepted :
    parseInts "range(1;5;2)junk" = .ok [1, 3, 5] ∧ ¬Correct "range(1;5;2)junk" := by
  have hone : Digits ['1'] 1 := .single rfl
  have htwo : Digits ['2'] 2 := .single rfl
  have hfive : Digits ['5'] 5 := .single rfl
  have hnone : Spaces [] := fun _ hc => (List.not_mem_nil hc).elim
  have h : RangeText "range(1;5;2)junk".toList 1 5 2 "junk".toList :=
    .step rfl hnone hnone hone hfive htwo (by decide) (by decide) (by decide)
  refine ⟨by decide +kernel, ?_⟩
  rw [correct_of_rangeText h]
  intro hregular
  exact absurd (hregular (by decide)).2.1 (by decide)

end Correct

end CloudPing.Utils

import CloudPing.Wire.Query

/-!
# Search parameters

The parameters of a URL are pairs of a name and a value in the order in which they were added, and
a name may have more than one value.  They are written like the values of a query, with other bytes
that stand for themselves.

A reader of queries sees of what is written the values of each name, in their order
(`all_parse_text`).
-/

namespace Ecma

open Wire

/-! ## Escaping -/

/-- The byte stands for itself. -/
def isFormSafe (b : UInt8) : Bool :=
  (Char.ofNat b.toNat).isAlphanum || Char.ofNat b.toNat ∈ ['*', '-', '.', '_']

def formByte (b : UInt8) : List Char :=
  if b = 0x20 then ['+']
  else if isFormSafe b then [Char.ofNat b.toNat]
  else ['%', (b.toNat / 0x10).digitChar.toUpper, (b.toNat % 0x10).digitChar.toUpper]

def formText (s : String) : List Char := s.toByteArray.data.toList.flatMap formByte

theorem of_isFormSafe {b : UInt8} (h : isFormSafe b = true) :
    Char.ofNat b.toNat ≠ '%' ∧ Char.ofNat b.toNat ≠ '+' ∧
      String.utf8EncodeChar (Char.ofNat b.toNat) = [b] := by
  have hall : ∀ b : Fin 256, isFormSafe (UInt8.ofNat b.val) = true →
      Char.ofNat b.val ≠ '%' ∧ Char.ofNat b.val ≠ '+' ∧
        String.utf8EncodeChar (Char.ofNat b.val) = [UInt8.ofNat b.val] := by
    decide +kernel
  have := hall ⟨b.toNat, b.toNat_lt⟩
  rw [UInt8.ofNat_toNat] at this
  exact this h

theorem unescapeFrom_formByte (b : UInt8) (rest : List Char) :
    unescapeFrom .plain (formByte b ++ rest) = (unescapeFrom .plain rest).map (b :: ·) := by
  rw [formByte]
  split_ifs with h₁ h₂
  · subst h₁
    rfl
  · obtain ⟨hp, hplus, henc⟩ := of_isFormSafe h₂
    rw [List.singleton_append, unescapeFrom, if_neg hp, if_neg hplus, henc]
    rfl
  · have hb := b.toNat_lt
    have hv : b.toNat / 0x10 * 0x10 + b.toNat % 0x10 = b.toNat := by omega
    simp only [List.cons_append, List.nil_append]
    rw [unescapeFrom, if_pos rfl, unescapeFrom, hexValue_toUpper (by omega), Option.bind_some,
      unescapeFrom, hexValue_toUpper (by omega), Option.bind_some, hv, UInt8.ofNat_toNat]

theorem unescape_formText (s : String) : unescape (formText s) = some s := by
  have hbytes : ∀ bs : List UInt8, unescapeFrom .plain (bs.flatMap formByte) = some bs := by
    intro bs
    induction bs with
    | nil => rfl
    | cons b bs ih => rw [List.flatMap_cons, unescapeFrom_formByte, ih, Option.map_some]
  rw [unescape, formText, hbytes, Option.bind_some]
  show String.fromUTF8? s.toByteArray = some s
  rw [String.fromUTF8?, dif_pos s.isValidUTF8]
  rfl

/-- What separates the parts of a query is escaped. -/
theorem notMem_formText {s : String} {c : Char} (hc : c = '&' ∨ c = '=' ∨ c = ';') :
    c ∉ formText s := by
  have hall : ∀ b : Fin 256, '&' ∉ formByte (UInt8.ofNat b.val) ∧
      '=' ∉ formByte (UInt8.ofNat b.val) ∧ ';' ∉ formByte (UInt8.ofNat b.val) := by
    decide +kernel
  intro h
  obtain ⟨b, -, hb⟩ := List.mem_flatMap.1 h
  obtain ⟨h₁, h₂, h₃⟩ := hall ⟨b.toNat, b.toNat_lt⟩
  rw [UInt8.ofNat_toNat] at h₁ h₂ h₃
  rcases hc with rfl | rfl | rfl
  · exact h₁ hb
  · exact h₂ hb
  · exact h₃ hb

/-! ## Parameters -/

structure URLSearchParams where
  pairs : List (String × String) := []

namespace URLSearchParams

variable (params : URLSearchParams) (name value : String)

def append : URLSearchParams := ⟨params.pairs ++ [(name, value)]⟩

/-- The first value of the name is replaced, and the others are taken out. -/
def set : URLSearchParams :=
  match params.pairs.findIdx? fun p => p.1 = name with
  | none => params.append name value
  | some i =>
    ⟨params.pairs.take i ++ (name, value) ::
      (params.pairs.drop (i + 1)).filter fun p => p.1 ≠ name⟩

/-- The values of a name. -/
def getAll : List String := (params.pairs.filter fun p => p.1 = name).map Prod.snd

/-- `toString`. -/
def text : List Char :=
  ['&'].intercalate (params.pairs.map fun p => formText p.1 ++ '=' :: formText p.2)

/-- A parameter that is set if there is a value. -/
def setOption (value : Option String) : URLSearchParams :=
  match value with
  | some value => params.set name value
  | none => params

/-- A value for each of a list. -/
def appendAll (values : List String) : URLSearchParams :=
  values.foldl (fun params value => params.append name value) params

variable {params name value} {k : String}

@[simp] theorem getAll_empty : ({} : URLSearchParams).getAll k = [] := rfl

@[simp] theorem getAll_append : (params.append name value).getAll k =
    if k = name then params.getAll k ++ [value] else params.getAll k := by
  simp only [getAll, append, List.filter_append, List.map_append]
  by_cases hk : k = name
  · rw [if_pos hk, List.filter_cons_of_pos (by simpa using hk.symm)]
    rfl
  · rw [if_neg hk, List.filter_cons_of_neg (by simpa using Ne.symm hk)]
    exact List.append_nil _

@[simp] theorem getAll_set : (params.set name value).getAll k =
    if k = name then [value] else params.getAll k := by
  rw [set]
  split
  next hnone =>
    rw [getAll_append]
    split_ifs with hk
    · subst hk
      have hall := List.findIdx?_eq_none_iff.1 hnone
      have hnil : params.pairs.filter (fun p => p.1 = k) = [] :=
        List.filter_eq_nil_iff.2 fun p hp => by simpa using hall p hp
      rw [getAll, hnil]
      rfl
    · rfl
  next i hsome =>
    obtain ⟨hlt, hat, hbefore⟩ := List.findIdx?_eq_some_iff_getElem.1 hsome
    have hname : (params.pairs[i]).1 = name := of_decide_eq_true hat
    have htake : ∀ p ∈ params.pairs.take i, p.1 ≠ name := by
      intro p hp
      obtain ⟨j, hj, rfl⟩ := List.mem_take_iff_getElem.1 hp
      simpa using hbefore j (by omega)
    have hsplit : params.pairs =
        params.pairs.take i ++ params.pairs[i] :: params.pairs.drop (i + 1) := by
      rw [List.getElem_cons_drop hlt, List.take_append_drop]
    by_cases hk : k = name
    · subst hk
      have hnil : (params.pairs.take i).filter (fun p => p.1 = k) = [] :=
        List.filter_eq_nil_iff.2 fun p hp => by simpa using htake p hp
      have hnil' : ((params.pairs.drop (i + 1)).filter fun p => p.1 ≠ k).filter
          (fun p => p.1 = k) = [] :=
        List.filter_eq_nil_iff.2 fun p hp => by simpa using List.of_mem_filter hp
      rw [if_pos rfl, getAll, List.filter_append, hnil, List.filter_cons_of_pos (by simp), hnil']
      rfl
    · have hdrop : ((params.pairs.drop (i + 1)).filter fun p => p.1 ≠ name).filter
          (fun p => p.1 = k) = (params.pairs.drop (i + 1)).filter fun p => p.1 = k := by
        rw [List.filter_filter]
        refine List.filter_congr fun p _ => ?_
        by_cases hp : p.1 = k
        · simp [hp, hk]
        · simp [hp]
      rw [if_neg hk, getAll, getAll]
      conv_rhs => rw [hsplit]
      rw [List.filter_append, List.filter_append, List.filter_cons_of_neg (by simpa using Ne.symm hk),
        List.filter_cons_of_neg (by rw [hname]; simpa using Ne.symm hk), hdrop]

@[simp] theorem getAll_setOption {value : Option String} : (params.setOption name value).getAll k =
    if k = name ∧ value.isSome then value.toList else params.getAll k := by
  cases value with
  | none => simp [setOption]
  | some value => simp [setOption]

@[simp] theorem getAll_appendAll {values : List String} :
    (params.appendAll name values).getAll k =
      if k = name then params.getAll k ++ values else params.getAll k := by
  rw [appendAll]
  induction values generalizing params with
  | nil => simp
  | cons value values ih =>
    rw [List.foldl_cons, ih, getAll_append]
    split <;> simp

/-! ## Reading -/

theorem parsePair_formText (p : String × String) :
    Values.parsePair (formText p.1 ++ '=' :: formText p.2) = some p := by
  have hne : ∀ c ∈ formText p.1, (decide (c ≠ '=')) = true := by
    intro c hc
    refine decide_eq_true ?_
    rintro rfl
    exact notMem_formText (.inr (.inl rfl)) hc
  have hsemi : ¬ (formText p.1 ++ '=' :: formText p.2 = [] ∨
      ';' ∈ formText p.1 ++ '=' :: formText p.2) := by
    rw [List.mem_append, List.mem_cons]
    rintro (h | h | h | h)
    · exact absurd h (List.append_ne_nil_of_right_ne_nil _ (List.cons_ne_nil _ _))
    · exact notMem_formText (.inr (.inr rfl)) h
    · exact absurd h (by decide)
    · exact notMem_formText (.inr (.inr rfl)) h
  have htake : (formText p.1 ++ '=' :: formText p.2).takeWhile (· ≠ '=') = formText p.1 := by
    rw [List.takeWhile_append_of_pos hne, List.takeWhile_cons, if_neg (by decide), List.append_nil]
  have hdrop : ((formText p.1 ++ '=' :: formText p.2).dropWhile (· ≠ '=')).drop 1 =
      formText p.2 := by
    rw [List.dropWhile_append_of_pos hne, List.dropWhile_cons, if_neg (by decide)]
    rfl
  rw [Values.parsePair, if_neg hsemi, htake, hdrop, unescape_formText, unescape_formText]
  rfl

theorem all_foldl_add (ps : List (String × String)) (vals : Values) :
    (ps.foldl (fun vals p => vals.add p.1 p.2) vals).all k =
      vals.all k ++ (ps.filter fun p => p.1 = k).map Prod.snd := by
  induction ps generalizing vals with
  | nil => exact (List.append_nil _).symm
  | cons p ps ih =>
    rw [List.foldl_cons, ih, Values.all_add]
    by_cases hk : k = p.1
    · rw [if_pos hk, List.filter_cons_of_pos (by simpa using hk.symm), List.append_assoc]
      rfl
    · rw [if_neg hk, List.filter_cons_of_neg (by simpa using Ne.symm hk)]

/-- The values of a name are read. -/
theorem all_parse_text (params : URLSearchParams) (k : String) :
    (Values.parse params.text).all k = params.getAll k := by
  have hpairs : (params.text.splitOn '&').filterMap Values.parsePair = params.pairs := by
    rw [text]
    by_cases hnil : params.pairs = []
    · rw [hnil]
      rfl
    · rw [List.splitOn_intercalate]
      · rw [List.filterMap_map]
        have hread : Values.parsePair ∘ (fun p : String × String =>
            formText p.1 ++ '=' :: formText p.2) = some := funext parsePair_formText
        rw [hread, List.filterMap_some]
      · intro seg hseg
        obtain ⟨p, -, rfl⟩ := List.mem_map.1 hseg
        rw [List.mem_append, List.mem_cons]
        rintro (h | h | h)
        · exact notMem_formText (.inl rfl) h
        · exact absurd h (by decide)
        · exact notMem_formText (.inl rfl) h
      · simpa using hnil
  rw [Values.parse, hpairs, all_foldl_add]
  rfl

end URLSearchParams

end Ecma

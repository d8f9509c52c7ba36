import CloudPing.Wire.Decimal
import CloudPing.Wire.SortedMap

/-!
# Query strings

The values of a query are a map from keys to lists of texts, and no key is without a value.
The query is a list of pairs with `&` between them.  A key and a value stand there as
bytes, of which most are escaped.  A pair that is no escaped text is left out: one with a
bad escape, as in `net/url`, and one whose bytes are no UTF-8, which `net/url` keeps.

What the values are encoded as is parsed to the values (`parse_encode`).
-/

namespace Wire

/-! ## Escaping -/

/-- The byte stands for itself. -/
def isUnreserved (b : UInt8) : Bool :=
  (Char.ofNat b.toNat).isAlphanum || Char.ofNat b.toNat ∈ ['-', '_', '.', '~']

def escapeByte (b : UInt8) : List Char :=
  if b = 0x20 then ['+']
  else if isUnreserved b then [Char.ofNat b.toNat]
  else ['%', (b.toNat / 0x10).digitChar.toUpper, (b.toNat % 0x10).digitChar.toUpper]

def escape (s : String) : List Char := s.toByteArray.data.toList.flatMap escapeByte

/-- Where in an escaped byte a reader is. -/
inductive EscapeMode where
  | plain
  | percent
  /-- Behind the first digit. -/
  | digit (hi : Nat)

/-- The bytes of an escaped text. -/
def unescapeFrom : EscapeMode → List Char → Option (List UInt8)
  | .plain, [] => some []
  | .plain, c :: cs =>
    if c = '%' then unescapeFrom .percent cs
    else if c = '+' then (unescapeFrom .plain cs).map (0x20 :: ·)
    else (unescapeFrom .plain cs).map (String.utf8EncodeChar c ++ ·)
  | .percent, c :: cs => (hexValue c).bind fun hi => unescapeFrom (.digit hi) cs
  | .digit hi, c :: cs =>
    (hexValue c).bind fun lo => (unescapeFrom .plain cs).map (UInt8.ofNat (hi * 0x10 + lo) :: ·)
  | _, [] => none

/-- The text of an escaped one.  A text is of characters here, and bytes that are no UTF-8 are
none; the source has them in its strings as they are. -/
def unescape (cs : List Char) : Option String :=
  (unescapeFrom .plain cs).bind fun bs => String.fromUTF8? ⟨bs.toArray⟩

theorem hexValue_toUpper {d : Nat} (h : d < 16) : hexValue d.digitChar.toUpper = some d := by
  have hall : ∀ d : Fin 16, hexValue d.val.digitChar.toUpper = some d.val := by decide
  exact hall ⟨d, h⟩

/-- A byte that stands for itself is an ASCII character that means nothing else. -/
theorem of_isUnreserved {b : UInt8} (h : isUnreserved b = true) :
    Char.ofNat b.toNat ≠ '%' ∧ Char.ofNat b.toNat ≠ '+' ∧
      String.utf8EncodeChar (Char.ofNat b.toNat) = [b] := by
  have hall : ∀ b : Fin 256, isUnreserved (UInt8.ofNat b.val) = true →
      Char.ofNat b.val ≠ '%' ∧ Char.ofNat b.val ≠ '+' ∧
        String.utf8EncodeChar (Char.ofNat b.val) = [UInt8.ofNat b.val] := by
    decide +kernel
  have := hall ⟨b.toNat, b.toNat_lt⟩
  rw [UInt8.ofNat_toNat] at this
  exact this h

theorem unescapeFrom_escapeByte (b : UInt8) (rest : List Char) :
    unescapeFrom .plain (escapeByte b ++ rest) = (unescapeFrom .plain rest).map (b :: ·) := by
  rw [escapeByte]
  split_ifs with h₁ h₂
  · subst h₁
    rfl
  · obtain ⟨hp, hplus, henc⟩ := of_isUnreserved h₂
    rw [List.singleton_append, unescapeFrom, if_neg hp, if_neg hplus, henc]
    rfl
  · have hb := b.toNat_lt
    have hv : b.toNat / 0x10 * 0x10 + b.toNat % 0x10 = b.toNat := by omega
    simp only [List.cons_append, List.nil_append]
    rw [unescapeFrom, if_pos rfl, unescapeFrom, hexValue_toUpper (by omega), Option.bind_some,
      unescapeFrom, hexValue_toUpper (by omega), Option.bind_some, hv, UInt8.ofNat_toNat]

theorem unescapeFrom_flatMap (bs : List UInt8) :
    unescapeFrom .plain (bs.flatMap escapeByte) = some bs := by
  induction bs with
  | nil => rfl
  | cons b bs ih => rw [List.flatMap_cons, unescapeFrom_escapeByte, ih, Option.map_some]

theorem unescape_escape (s : String) : unescape (escape s) = some s := by
  rw [unescape, escape, unescapeFrom_flatMap, Option.bind_some]
  show String.fromUTF8? s.toByteArray = some s
  rw [String.fromUTF8?, dif_pos s.isValidUTF8]
  rfl

/-- What separates the parts of a query is escaped. -/
theorem not_mem_escape {s : String} {c : Char} (hc : c = '&' ∨ c = '=' ∨ c = ';') :
    c ∉ escape s := by
  have hall : ∀ b : Fin 256, '&' ∉ escapeByte (UInt8.ofNat b.val) ∧
      '=' ∉ escapeByte (UInt8.ofNat b.val) ∧ ';' ∉ escapeByte (UInt8.ofNat b.val) := by
    decide +kernel
  intro h
  obtain ⟨b, _, hb⟩ := List.mem_flatMap.1 h
  obtain ⟨h₁, h₂, h₃⟩ := hall ⟨b.toNat, b.toNat_lt⟩
  rw [UInt8.ofNat_toNat] at h₁ h₂ h₃
  rcases hc with rfl | rfl | rfl
  · exact h₁ hb
  · exact h₂ hb
  · exact h₃ hb

/-! ## Values -/

/-- The values of each key, in the order in which they were added. -/
@[ext] structure Values where
  entries : List (String × List String)
  canonical : Canonical entries
  nonempty : ∀ e ∈ entries, e.2 ≠ []

namespace Values

/-- The values of a key. -/
def all (vals : Values) (key : String) : List String := (vals.entries.lookup key).getD []

/-- The first value of a key. -/
def get (vals : Values) (key : String) : String := (vals.all key).headD ""

def empty : Values := ⟨[], List.Pairwise.nil, fun _ h => absurd h List.not_mem_nil⟩

/-- Values for a key in the place of those it had. -/
def put (vals : Values) (key : String) (values : List String) (h : values ≠ []) : Values where
  entries := insertKey key values vals.entries
  canonical := canonical_insertKey vals.canonical
  nonempty e he := by
    rcases mem_insertKey he with rfl | he
    · exact h
    · exact vals.nonempty e he

def add (vals : Values) (key value : String) : Values :=
  vals.put key (vals.all key ++ [value]) (by simp)

def set (vals : Values) (key value : String) : Values := vals.put key [value] (by simp)

theorem all_put (vals : Values) (key : String) (values : List String) (h : values ≠ [])
    (k : String) : (vals.put key values h).all k = if k = key then values else vals.all k := by
  rw [all, put, lookup_insertKey]
  split <;> rfl

@[simp] theorem all_add (vals : Values) (key value k : String) :
    (vals.add key value).all k = if k = key then vals.all k ++ [value] else vals.all k := by
  rw [add, all_put]
  split
  · next h => rw [h]
  · rfl

@[simp] theorem all_set (vals : Values) (key value k : String) :
    (vals.set key value).all k = if k = key then [value] else vals.all k :=
  all_put vals key [value] _ k

/-- The value for a key, if there is one. -/
def addOption (vals : Values) (key : String) (value : Option String) : Values :=
  match value with
  | some value => vals.add key value
  | none => vals

/-- The only value for a key, if there is one. -/
def setOption (vals : Values) (key : String) (value : Option String) : Values :=
  match value with
  | some value => vals.set key value
  | none => vals

def addAll (vals : Values) (key : String) (values : List String) : Values :=
  values.foldl (fun vals value => vals.add key value) vals

@[simp] theorem all_addOption (vals : Values) (key : String) (value : Option String) (k : String) :
    (vals.addOption key value).all k = if k = key then vals.all k ++ value.toList else vals.all k := by
  cases value <;> simp [addOption]

@[simp] theorem all_setOption_of_ne (vals : Values) {key : String} (value : Option String)
    {k : String} (h : k ≠ key) : (vals.setOption key value).all k = vals.all k := by
  cases value with
  | none => rfl
  | some value => rw [setOption, all_set, if_neg h]

@[simp] theorem all_addAll (vals : Values) (key : String) (values : List String) (k : String) :
    (vals.addAll key values).all k = if k = key then vals.all k ++ values else vals.all k := by
  induction values generalizing vals with
  | nil => simp [addAll]
  | cons value values ih =>
    show ((vals.add key value).addAll key values).all k = _
    rw [ih, all_add]
    split <;> simp

/-! ## Encoding values -/

/-- A pair for each value, in the order of the keys. -/
def pairs (vals : Values) : List (String × String) :=
  vals.entries.flatMap fun e => e.2.map fun value => (e.1, value)

def encodePair (p : String × String) : List Char := escape p.1 ++ '=' :: escape p.2

def encode (vals : Values) : List Char := ['&'].intercalate (vals.pairs.map encodePair)

/-- The key and the value of a segment of a query, if both are texts. -/
def parsePair (seg : List Char) : Option (String × String) :=
  if seg = [] ∨ ';' ∈ seg then none
  else do
    let key ← unescape (seg.takeWhile (· ≠ '='))
    let value ← unescape ((seg.dropWhile (· ≠ '=')).drop 1)
    some (key, value)

def parse (query : List Char) : Values :=
  ((query.splitOn '&').filterMap parsePair).foldl (fun vals p => vals.add p.1 p.2) empty

theorem parsePair_encodePair (p : String × String) : parsePair (encodePair p) = some p := by
  have hne : ∀ c ∈ escape p.1, (decide (c ≠ '=')) = true := by
    intro c hc
    simp only [decide_eq_true_eq]
    rintro rfl
    exact not_mem_escape (.inr (.inl rfl)) hc
  have hsemi : ¬ (encodePair p = [] ∨ ';' ∈ encodePair p) := by
    rw [encodePair, List.mem_append, List.mem_cons]
    rintro (h | h | h | h)
    · exact absurd h (List.append_ne_nil_of_right_ne_nil _ (List.cons_ne_nil _ _))
    · exact not_mem_escape (.inr (.inr rfl)) h
    · exact absurd h (by decide)
    · exact not_mem_escape (.inr (.inr rfl)) h
  have htake : (encodePair p).takeWhile (· ≠ '=') = escape p.1 := by
    rw [encodePair, List.takeWhile_append_of_pos hne, List.takeWhile_cons, if_neg (by decide),
      List.append_nil]
  have hdrop : ((encodePair p).dropWhile (· ≠ '=')).drop 1 = escape p.2 := by
    rw [encodePair, List.dropWhile_append_of_pos hne, List.dropWhile_cons, if_neg (by decide)]
    rfl
  rw [parsePair, if_neg hsemi, htake, hdrop, unescape_escape, unescape_escape]
  rfl

theorem not_mem_encodePair (p : String × String) : '&' ∉ encodePair p := by
  rw [encodePair, List.mem_append, List.mem_cons]
  rintro (h | h | h)
  · exact not_mem_escape (.inl rfl) h
  · exact absurd h (by decide)
  · exact not_mem_escape (.inl rfl) h

/-- The pairs are read. -/
theorem filterMap_parsePair (ps : List (String × String)) :
    ((['&'].intercalate (ps.map encodePair)).splitOn '&').filterMap parsePair = ps := by
  by_cases h : ps = []
  · subst h
    rfl
  · rw [List.splitOn_intercalate]
    · rw [List.filterMap_map]
      have : parsePair ∘ encodePair = some := funext parsePair_encodePair
      rw [this, List.filterMap_some]
    · intro seg hseg
      obtain ⟨p, _, rfl⟩ := List.mem_map.1 hseg
      exact not_mem_encodePair p
    · simpa using h

theorem lookup_concat {k : String} {values : List String} {d : List (String × List String)}
    (hlt : ∀ e ∈ d, e.1 < k) : (d ++ [(k, values)]).lookup k = some values := by
  induction d with
  | nil => simp
  | cons e d ih =>
    rw [List.cons_append, lookup_cons_eq_if, if_neg (hlt e List.mem_cons_self).ne',
      ih fun e' he' => hlt e' (List.mem_cons_of_mem _ he')]

theorem lookup_of_lt {k : String} {d : List (String × List String)} (hlt : ∀ e ∈ d, e.1 < k) :
    d.lookup k = none := by
  induction d with
  | nil => rfl
  | cons e d ih =>
    rw [lookup_cons_eq_if, if_neg (hlt e List.mem_cons_self).ne',
      ih fun e' he' => hlt e' (List.mem_cons_of_mem _ he')]

/-- More values for the last key. -/
theorem foldl_add_last {k : String} {d : List (String × List String)} (hlt : ∀ e ∈ d, e.1 < k)
    (more : List String) {vals : Values} {values : List String}
    (hv : vals.entries = d ++ [(k, values)]) :
    ((more.map fun value => (k, value)).foldl (fun vals p => vals.add p.1 p.2) vals).entries =
      d ++ [(k, values ++ more)] := by
  induction more generalizing vals values with
  | nil => simpa using hv
  | cons value more ih =>
    have hadd : (vals.add k value).entries = d ++ [(k, values ++ [value])] := by
      show insertKey k (vals.all k ++ [value]) vals.entries = _
      rw [all, hv, lookup_concat hlt, Option.getD_some, insertKey_concat hlt]
    rw [List.map_cons, List.foldl_cons, ih hadd, List.append_assoc, List.singleton_append]

/-- The values of one key after another. -/
theorem foldl_add_pairs {es d : List (String × List String)} (hc : Canonical (d ++ es))
    (hne : ∀ e ∈ es, e.2 ≠ []) {vals : Values} (hv : vals.entries = d) :
    ((es.flatMap fun e => e.2.map fun value => (e.1, value)).foldl
      (fun vals p => vals.add p.1 p.2) vals).entries = d ++ es := by
  induction es generalizing d vals with
  | nil => simpa using hv
  | cons e es ih =>
    obtain ⟨k, values⟩ := e
    have hlt : ∀ e' ∈ d, e'.1 < k := fun e' he' =>
      (List.pairwise_append.1 hc).2.2 e' he' (k, values) List.mem_cons_self
    cases values with
    | nil => exact absurd rfl (hne _ List.mem_cons_self)
    | cons value values =>
      have hadd : (vals.add k value).entries = d ++ [(k, [value])] := by
        show insertKey k (vals.all k ++ [value]) vals.entries = _
        rw [all, hv, lookup_of_lt hlt, insertKey_of_lt hlt]
        rfl
      rw [List.flatMap_cons, List.foldl_append, List.map_cons, List.foldl_cons]
      rw [ih (by rwa [List.append_assoc, List.singleton_append])
        (fun e' he' => hne e' (List.mem_cons_of_mem _ he')) (foldl_add_last hlt values hadd),
        List.append_assoc, List.singleton_append]
      rfl

/-- The values of a query are those it was encoded from. -/
theorem parse_encode (vals : Values) : parse vals.encode = vals := by
  ext1
  rw [parse, encode, filterMap_parsePair]
  exact foldl_add_pairs (d := []) vals.canonical vals.nonempty rfl

end Values

end Wire

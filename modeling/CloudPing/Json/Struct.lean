import CloudPing.Json.Value
import CloudPing.Wire.SortedMap

/-!
# Values and variables

A decoder puts a value into a variable that already holds something, and what was there
matters: `null` leaves a string or a number as it is, a second array for one field is put
into the slice that the first one left behind, and a second object adds to the map.  A
field takes the values of all the members whose key is its name up to case.

A map is the list of its entries in the order of the keys, which is also how it is written.
-/

namespace Json

open Wire (Canonical insertKey insertKey_of_lt canonical_insertKey)

variable {α β : Type*}

/-! ## Decoders -/

/-- A decoder takes what the variable holds and the value, and fails if the value is of
another type. -/
abbrev Decoder (α : Type*) := α → Value → Option α

def intoString : Decoder String
  | old, .null => some old
  | _, .str s => some s
  | _, _ => none

def intoInt64 : Decoder Int64
  | old, .null => some old
  | _, .num lit => (Wire.parseInt64 lit.toList).toOption
  | _, _ => none

/-- A pointer.  A new variable holds the zero value. -/
def intoPointer (into : Decoder α) (zero : α) : Decoder (Option α)
  | _, .null => some none
  | old, v => (into (old.getD zero) v).map some

/-- The elements of an array in a slice with the given elements in its memory. -/
def intoElems : List String → List Value → Option (List String)
  | _, [] => some []
  | memory, v :: vs => do
    let s ← intoString (memory.headD "") v
    let rest ← intoElems memory.tail vs
    some (s :: rest)

/-- A slice of strings: its elements, and what is left behind them in its memory. -/
def intoStrings : Decoder (List String × List String)
  | _, .null => some ([], [])
  | _, .arr [] => some ([], [])
  | (elems, left), .arr vs =>
    (intoElems (elems ++ left) vs).map fun new => (new, (elems ++ left).drop vs.length)
  | _, _ => none

/-- A map from strings to slices of strings.  Each entry is decoded into a new variable. -/
def intoMap : Decoder (List (String × List String))
  | _, .null => some []
  | old, .obj ms =>
    ms.foldlM (fun h m => (intoStrings ([], []) m.2).map fun r => insertKey m.1 r.1 h) old
  | _, _ => none

/-! ## Fields -/

/-- A character without its case, for the characters that some ASCII letter is equal to
up to case. -/
def foldRune (c : Char) : Char :=
  if 'a' ≤ c ∧ c ≤ 'z' then c.toUpper
  else if c = '\u017f' then 'S'
  else if c = '\u212a' then 'K'
  else c

def foldName (s : String) : List Char := s.toList.map foldRune

/-- The values for a field, in the order of the text. -/
def valuesOf (name : String) (ms : List (String × Value)) : List Value :=
  (ms.filter fun m => foldName m.1 = foldName name).map Prod.snd

/-- A field, from all its values. -/
def intoField (into : Decoder α) (name : String) (zero : α) (ms : List (String × Value)) :
    Option α :=
  (valuesOf name ms).foldlM into zero

/-- A member that is left out if there is no value. -/
def member (name : String) (v : Option Value) : List (String × Value) :=
  v.toList.map fun v => (name, v)

/-- A string that is left out if it is empty. -/
def omitEmpty (s : String) : Option Value := if s = "" then none else some (.str s)

/-- A slice of strings.  There is nothing in a slice that is nil. -/
def ofStrings (l : List String) : Value := if l = [] then .null else .arr (l.map .str)

/-- A map, which is left out if it is empty. -/
def ofMap (h : List (String × List String)) : Option Value :=
  if h = [] then none else some (.obj (h.map fun e => (e.1, ofStrings e.2)))

/-! ## Values of a field -/

@[simp] theorem valuesOf_nil (name : String) : valuesOf name [] = [] := rfl

@[simp] theorem valuesOf_cons (name k : String) (v : Value) (ms : List (String × Value)) :
    valuesOf name ((k, v) :: ms) =
      if foldName k = foldName name then v :: valuesOf name ms else valuesOf name ms := by
  rw [valuesOf, List.filter_cons]
  split
  · next h =>
    rw [if_pos (by simpa using h)]
    rfl
  · next h =>
    rw [if_neg (by simpa using h)]
    rfl

@[simp] theorem valuesOf_append (name : String) (ms ms' : List (String × Value)) :
    valuesOf name (ms ++ ms') = valuesOf name ms ++ valuesOf name ms' := by
  simp [valuesOf]

@[simp] theorem valuesOf_member (name k : String) (v : Option Value) :
    valuesOf name (member k v) = if foldName k = foldName name then v.toList else [] := by
  cases v with
  | none => simp [member]
  | some v => simp [member]

/-! ## What is written fits -/

variable {maxDepth : Nat}

@[simp] theorem forall_mem_member {name : String} {v : Option Value} {p : String × Value → Prop} :
    (∀ m ∈ member name v, p m) ↔ ∀ v' ∈ v, p (name, v') := by
  cases v <;> simp [member]

theorem fits_omitEmpty (s : String) : ∀ v ∈ omitEmpty s, v.Fits maxDepth := by
  intro v hv
  rw [omitEmpty] at hv
  split at hv
  · cases hv
  · obtain rfl := Option.some.inj hv
    exact fits_str s

@[simp] theorem fits_ofStrings (l : List String) : (ofStrings l).Fits (maxDepth + 1) := by
  rw [ofStrings]
  split
  · exact fits_null
  · refine fits_arr fun v hv => ?_
    obtain ⟨s, _, rfl⟩ := List.mem_map.1 hv
    exact fits_str s

theorem fits_ofMap (h : List (String × List String)) :
    ∀ v ∈ ofMap h, v.Fits (maxDepth + 2) := by
  intro v hv
  rw [ofMap] at hv
  split at hv
  · cases hv
  · obtain rfl := Option.some.inj hv
    refine fits_obj fun m hm => ?_
    obtain ⟨e, _, rfl⟩ := List.mem_map.1 hm
    exact fits_ofStrings e.2

/-! ## Decoding what was written -/

theorem intoField_of_none {into : Decoder α} {name : String} {zero : α}
    {ms : List (String × Value)} (h : valuesOf name ms = []) :
    intoField into name zero ms = some zero := by
  rw [intoField, h]
  rfl

theorem intoField_of_single {into : Decoder α} {name : String} {zero : α}
    {ms : List (String × Value)} {v : Value} (h : valuesOf name ms = [v]) :
    intoField into name zero ms = into zero v := by
  rw [intoField, h]
  show (into zero v >>= some) = into zero v
  exact bind_pure _

/-- A string that is left out when it is empty. -/
theorem intoField_omitEmpty (name : String) (ms : List (String × Value)) (s : String)
    (h : valuesOf name ms = (omitEmpty s).toList) : intoField intoString name "" ms = some s := by
  rw [omitEmpty] at h
  split at h
  · next hs =>
    subst hs
    exact intoField_of_none h
  · exact intoField_of_single h

/-- A pointer that is left out when it is nil. -/
theorem intoField_pointer {into : Decoder α} {zero : α} {name : String}
    {ms : List (String × Value)} {o : Option α} (enc : α → Value)
    (henc : ∀ a, into zero (enc a) = some a)
    (hnull : ∀ a, enc a ≠ .null) (h : valuesOf name ms = (o.map enc).toList) :
    intoField (intoPointer into zero) name none ms = some o := by
  cases o with
  | none => exact intoField_of_none h
  | some a =>
    rw [intoField_of_single h]
    have ha := henc a
    unfold intoPointer
    split
    · next heq => exact absurd heq (hnull a)
    · rw [Option.getD_none, ha, Option.map_some]

theorem intoInt64_int (old n : Int64) : intoInt64 old (.int n.toInt) = some n := by
  rw [Value.int, intoInt64, String.toList_ofList, Wire.parseInt64_decimal]
  rfl

theorem intoField_string (name : String) (ms : List (String × Value)) (s : String)
    (h : valuesOf name ms = [.str s]) : intoField intoString name "" ms = some s :=
  intoField_of_single h

theorem intoField_stringPointer (name : String) (ms : List (String × Value)) (o : Option String)
    (h : valuesOf name ms = (o.map .str).toList) :
    intoField (intoPointer intoString "") name none ms = some o :=
  intoField_pointer Value.str (fun _ => rfl) (fun _ hs => nomatch hs) h

theorem intoField_int64Pointer (name : String) (ms : List (String × Value)) (o : Option Int64)
    (h : valuesOf name ms = (o.map fun n => .int n.toInt).toList) :
    intoField (intoPointer intoInt64 0) name none ms = some o :=
  intoField_pointer (fun n => .int n.toInt) (intoInt64_int 0) (fun _ hn => nomatch hn) h

theorem intoElems_map_str (memory l : List String) : intoElems memory (l.map .str) = some l := by
  induction l generalizing memory with
  | nil => rfl
  | cons s l ih =>
    rw [List.map_cons, intoElems, ih]
    rfl

theorem intoStrings_ofStrings (l : List String) :
    intoStrings ([], []) (ofStrings l) = some (l, []) := by
  cases l with
  | nil => rfl
  | cons s l =>
    show (intoElems [] ((s :: l).map .str)).map _ = _
    rw [intoElems_map_str]
    rfl

theorem intoField_strings (name : String) (ms : List (String × Value)) (l : List String)
    (h : valuesOf name ms = [ofStrings l]) :
    intoField intoStrings name ([], []) ms = some (l, []) := by
  rw [intoField_of_single h, intoStrings_ofStrings]

/-- The entries of a map come back in their order. -/
theorem foldlM_insertKey {h d : List (String × List String)} (hc : Canonical (d ++ h)) :
    (h.map fun e => (e.1, ofStrings e.2)).foldlM
      (fun h m => (intoStrings ([], []) m.2).map fun r => insertKey m.1 r.1 h) d =
      some (d ++ h) := by
  induction h generalizing d with
  | nil => simp
  | cons e h ih =>
    have hlt : ∀ e' ∈ d, e'.1 < e.1 := by
      intro e' he'
      exact (List.pairwise_append.1 hc).2.2 e' he' e List.mem_cons_self
    rw [List.map_cons, List.foldlM_cons, intoStrings_ofStrings, Option.map_some, insertKey_of_lt hlt]
    have := @ih (d ++ [e]) (by rwa [List.append_assoc, List.singleton_append])
    rw [List.append_assoc, List.singleton_append] at this
    exact this

theorem intoField_map (name : String) (ms : List (String × Value))
    {h : List (String × List String)} (hc : Canonical h) (hv : valuesOf name ms = (ofMap h).toList) :
    intoField intoMap name [] ms = some h := by
  rw [ofMap] at hv
  split at hv
  · next hnil =>
    subst hnil
    exact intoField_of_none hv
  · rw [intoField_of_single hv]
    exact foldlM_insertKey (d := []) hc

/-! ## What is decoded is canonical -/

theorem canonical_intoMap {old h : List (String × List String)} {v : Value} (hc : Canonical old)
    (hv : intoMap old v = some h) : Canonical h := by
  unfold intoMap at hv
  split at hv
  · cases hv
    exact List.Pairwise.nil
  · next ms =>
    induction ms generalizing old with
    | nil =>
      obtain rfl := Option.some.inj hv
      exact hc
    | cons m ms ih =>
      rw [List.foldlM_cons] at hv
      obtain ⟨h', hm, hv⟩ := Option.bind_eq_some_iff.1 hv
      obtain ⟨r, _, rfl⟩ := Option.map_eq_some_iff.1 hm
      exact ih (canonical_insertKey hc) hv
  · cases hv

theorem canonical_intoField {name : String} {ms : List (String × Value)}
    {h : List (String × List String)} (hv : intoField intoMap name [] ms = some h) :
    Canonical h := by
  have hfold : ∀ (vs : List Value) (old : List (String × List String)), Canonical old →
      vs.foldlM intoMap old = some h → Canonical h := by
    intro vs
    induction vs with
    | nil =>
      intro old hc hv
      obtain rfl := Option.some.inj hv
      exact hc
    | cons v vs ih =>
      intro old hc hv
      rw [List.foldlM_cons] at hv
      obtain ⟨h', hm, hv⟩ := Option.bind_eq_some_iff.1 hv
      exact ih h' (canonical_intoMap hc hm) hv
  exact hfold _ [] List.Pairwise.nil hv

end Json

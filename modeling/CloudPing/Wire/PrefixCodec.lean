import Mathlib.Logic.Equiv.Basic

/-!
# Self-delimiting texts

A *prefix codec* writes a value as characters that say themselves where they end, so that a
value is read back whatever follows it (`decode_encode`).  Codecs compose: the pair, the
sum and the list of what has a codec have one, and so has every retract of it.
-/

namespace Wire

/-- Writing, reading, and that what is written is read back. -/
structure PrefixCodec (α : Type*) where
  encode : α → List Char
  /-- The value at the start of a text, and the rest of the text. -/
  decode : List Char → Option (α × List Char)
  decode_encode : ∀ a rest, decode (encode a ++ rest) = some (a, rest)

namespace PrefixCodec

variable {α β : Type*}

/-- A single character. -/
def char : PrefixCodec Char where
  encode c := [c]
  decode
    | [] => none
    | c :: rest => some (c, rest)
  decode_encode _ _ := rfl

/-! ## Numbers -/

def encodeNat (n : Nat) : List Char := List.replicate n '1' ++ ['.']

def decodeNat : List Char → Option (Nat × List Char)
  | [] => none
  | c :: rest => if c = '.' then some (0, rest) else (decodeNat rest).map fun r => (r.1 + 1, r.2)

theorem decodeNat_encodeNat (n : Nat) (rest : List Char) :
    decodeNat (encodeNat n ++ rest) = some (n, rest) := by
  induction n with
  | zero => rfl
  | succ n ih =>
    show decodeNat ('1' :: (encodeNat n ++ rest)) = _
    rw [decodeNat, if_neg (by decide), ih]
    rfl

/-- A number in unary. -/
def nat : PrefixCodec Nat := ⟨encodeNat, decodeNat, decodeNat_encodeNat⟩

/-! ## Composition -/

/-- One value behind another. -/
def prod (c : PrefixCodec α) (d : PrefixCodec β) : PrefixCodec (α × β) where
  encode p := c.encode p.1 ++ d.encode p.2
  decode t := (c.decode t).bind fun r => (d.decode r.2).map fun r' => ((r.1, r'.1), r'.2)
  decode_encode p rest := by
    rw [List.append_assoc, c.decode_encode, Option.bind_some, d.decode_encode]
    rfl

/-- A value of one of two types, with a character that tells which. -/
def sum (c : PrefixCodec α) (d : PrefixCodec β) : PrefixCodec (α ⊕ β) where
  encode
    | .inl a => 'l' :: c.encode a
    | .inr b => 'r' :: d.encode b
  decode
    | [] => none
    | t :: rest =>
      if t = 'l' then (c.decode rest).map fun r => (.inl r.1, r.2)
      else (d.decode rest).map fun r => (.inr r.1, r.2)
  decode_encode s rest := by
    cases s with
    | inl a =>
      show (c.decode (c.encode a ++ rest)).map _ = _
      rw [c.decode_encode]
      rfl
    | inr b =>
      show (d.decode (d.encode b ++ rest)).map _ = _
      rw [d.decode_encode]
      rfl

/-- What can be written as a value that has a codec. -/
def retract (c : PrefixCodec β) (f : α → β) (g : β → α) (h : ∀ a, g (f a) = a) :
    PrefixCodec α where
  encode a := c.encode (f a)
  decode t := (c.decode t).map fun r => (g r.1, r.2)
  decode_encode a rest := by
    rw [c.decode_encode, Option.map_some, h]

/-! ## Lists -/

/-- `n` values, one behind another. -/
def decodeMany (c : PrefixCodec α) : Nat → List Char → Option (List α × List Char)
  | 0, t => some ([], t)
  | n + 1, t =>
    (c.decode t).bind fun r => (decodeMany c n r.2).map fun r' => (r.1 :: r'.1, r'.2)

theorem decodeMany_flatMap (c : PrefixCodec α) (l : List α) (rest : List Char) :
    decodeMany c l.length (l.flatMap c.encode ++ rest) = some (l, rest) := by
  induction l with
  | nil => rfl
  | cons a l ih =>
    rw [List.length_cons, decodeMany, List.flatMap_cons, List.append_assoc, c.decode_encode,
      Option.bind_some, ih]
    rfl

/-- A list, with its length in front. -/
def list (c : PrefixCodec α) : PrefixCodec (List α) where
  encode l := encodeNat l.length ++ l.flatMap c.encode
  decode t := (decodeNat t).bind fun r => decodeMany c r.1 r.2
  decode_encode l rest := by
    rw [List.append_assoc, decodeNat_encodeNat, Option.bind_some, decodeMany_flatMap]

/-! ## Texts and integers -/

def string : PrefixCodec String :=
  (list char).retract String.toList String.ofList fun _ => String.ofList_toList

/-- The absolute value, left for a number that is not negative. -/
def splitSign (n : Int) : Nat ⊕ Nat := if 0 ≤ n then .inl n.toNat else .inr (-n).toNat

def joinSign : Nat ⊕ Nat → Int
  | .inl n => n
  | .inr n => -n

theorem joinSign_splitSign (n : Int) : joinSign (splitSign n) = n := by
  rw [splitSign]
  split
  next h => exact Int.toNat_of_nonneg h
  next h =>
    show -((-n).toNat : Int) = n
    omega

def int : PrefixCodec Int := (sum nat nat).retract splitSign joinSign joinSign_splitSign

/-- A text is read in full. -/
def ofString (c : PrefixCodec α) (s : String) : Option α :=
  match c.decode s.toList with
  | some (a, []) => some a
  | _ => none

theorem ofString_encode (c : PrefixCodec α) (a : α) :
    c.ofString (String.ofList (c.encode a)) = some a := by
  have h := c.decode_encode a []
  rw [List.append_nil] at h
  rw [ofString, String.toList_ofList, h]

end PrefixCodec

end Wire

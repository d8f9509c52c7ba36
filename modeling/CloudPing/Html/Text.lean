import Mathlib.Data.List.Basic

/-!
# Text and tags of HTML

*Entities.*  Five bytes have a name.  A text in which each of them is replaced by its entity has
no byte that ends a text or an attribute, and no ampersand that is not the beginning of an
entity, and is read back (`decode_escape`).

*Tags.*  A reader of HTML is in a text, in a tag, or in one of the two kinds of quoted attribute
values.  What it takes for tags is `tags`.  A text without `<` adds none (`tagsIn_text`).
-/

namespace Html

/-! ## Entities -/

/-- `&amp;`, `&lt;`, `&gt;`, `&quot;` and `&#39;`. -/
def entities : List (UInt8 × List UInt8) :=
  [(0x26, [0x26, 0x61, 0x6D, 0x70, 0x3B]), (0x3C, [0x26, 0x6C, 0x74, 0x3B]),
    (0x3E, [0x26, 0x67, 0x74, 0x3B]), (0x22, [0x26, 0x71, 0x75, 0x6F, 0x74, 0x3B]),
    (0x27, [0x26, 0x23, 0x33, 0x39, 0x3B])]

/-- How a byte stands in a text. -/
def entity (b : UInt8) : List UInt8 := (entities.lookup b).getD [b]

def escape (s : List UInt8) : List UInt8 := s.flatMap entity

/-- The entity at the beginning of the bytes, with the byte it stands for. -/
def entityAt (bs : List UInt8) : Option (UInt8 × List UInt8) :=
  entities.find? fun e => e.2.isPrefixOf bs

/-- What the bytes behind the next `skip` ones stand for. -/
def decodeFrom : Nat → List UInt8 → List UInt8
  | _, [] => []
  | skip + 1, _ :: rest => decodeFrom skip rest
  | 0, b :: rest =>
    match entityAt (b :: rest) with
    | some e => e.1 :: decodeFrom (e.2.length - 1) rest
    | none => b :: decodeFrom 0 rest

/-- What a text stands for, with its entities. -/
def decode (bs : List UInt8) : List UInt8 := decodeFrom 0 bs

/-- An ampersand that begins no entity. -/
def BareAmpersand (bs : List UInt8) : Prop :=
  ∃ front back, bs = front ++ 0x26 :: back ∧ entityAt (0x26 :: back) = none

/-- The bytes of markup, beside the ampersand. -/
def markup : List UInt8 := [0x3C, 0x3E, 0x22, 0x27]

theorem forall_byte {P : UInt8 → Prop} (h : ∀ n : Fin 256, P (UInt8.ofNat n.val)) (b : UInt8) :
    P b := by
  have hb := h ⟨b.toNat, b.toNat_lt⟩
  rwa [UInt8.ofNat_toNat] at hb

/-- Each byte is one of the five, or stands for itself. -/
theorem entity_cases (b : UInt8) :
    (b, entity b) ∈ entities ∨ entity b = [b] ∧ b ≠ 0x26 ∧ b ∉ markup := by
  have hall : ∀ n : Fin 256, (UInt8.ofNat n.val, entity (UInt8.ofNat n.val)) ∈ entities ∨
      entity (UInt8.ofNat n.val) = [UInt8.ofNat n.val] ∧ UInt8.ofNat n.val ≠ 0x26 ∧
        UInt8.ofNat n.val ∉ markup := by decide +kernel
  exact forall_byte (P := fun b => (b, entity b) ∈ entities ∨
    entity b = [b] ∧ b ≠ 0x26 ∧ b ∉ markup) hall b

theorem escape_cons (b : UInt8) (s : List UInt8) : escape (b :: s) = entity b ++ escape s :=
  List.flatMap_cons

theorem not_mem_escape {x : UInt8} (hx : x ∈ markup) (s : List UInt8) : x ∉ escape s := by
  have hnone : ∀ e ∈ entities, ∀ y ∈ markup, y ∉ e.2 := by simp [entities, markup]
  intro hin
  obtain ⟨b, -, hin⟩ := List.mem_flatMap.1 hin
  rcases entity_cases b with he | ⟨he, -, hb⟩
  · exact hnone _ he x hx hin
  · rw [he, List.mem_singleton] at hin
    exact hb (hin ▸ hx)

/-- An entity is found where it stands. -/
theorem entityAt_append {e : UInt8 × List UInt8} (he : e ∈ entities) (rest : List UInt8) :
    entityAt (e.2 ++ rest) = some e := by
  simp only [entities, List.mem_cons, List.not_mem_nil, or_false] at he
  rcases he with rfl | rfl | rfl | rfl | rfl <;> rfl

theorem entityAt_of_ne {b : UInt8} (hb : b ≠ 0x26) (rest : List UInt8) :
    entityAt (b :: rest) = none := by
  simp [entityAt, entities, List.isPrefixOf, hb.symm]

theorem decodeFrom_append (a rest : List UInt8) :
    decodeFrom a.length (a ++ rest) = decode rest := by
  induction a with
  | nil => rfl
  | cons b a ih => exact ih

/-- A byte is read back. -/
theorem decode_entity_append (b : UInt8) (rest : List UInt8) :
    decode (entity b ++ rest) = b :: decode rest := by
  rcases entity_cases b with he | ⟨he, hb, -⟩
  · have hat := entityAt_append he rest
    have hne : ∀ e ∈ entities, e.2 ≠ [] := by decide
    obtain ⟨x, a, ha⟩ := List.exists_cons_of_ne_nil (hne _ he)
    dsimp only at ha hat
    rw [ha] at hat ⊢
    rw [decode, List.cons_append, decodeFrom, ← List.cons_append, hat]
    exact congrArg (b :: ·) (decodeFrom_append a rest)
  · rw [he, List.singleton_append, decode, decodeFrom, entityAt_of_ne hb]
    rfl

theorem decode_escape (s : List UInt8) : decode (escape s) = s := by
  induction s with
  | nil => rfl
  | cons b s ih => rw [escape_cons, decode_entity_append, ih]

/-- In a piece that stands for a byte an ampersand comes first. -/
theorem eq_nil_of_entity {b : UInt8} {front back : List UInt8}
    (h : entity b = front ++ 0x26 :: back) : front = [] ∧ (b, entity b) ∈ entities := by
  have htail : ∀ e ∈ entities, 0x26 ∉ e.2.tail := by decide
  cases front with
  | nil =>
    refine ⟨rfl, (entity_cases b).resolve_right fun hb => ?_⟩
    rw [hb.1, List.nil_append, List.cons.injEq] at h
    exact hb.2.1 h.1
  | cons x front =>
    exfalso
    rcases entity_cases b with he | ⟨he, -, -⟩
    · refine htail _ he ?_
      dsimp only
      rw [h]
      exact List.mem_append_right _ List.mem_cons_self
    · rw [he, List.cons_append, List.cons.injEq] at h
      exact absurd h.2.symm (List.append_ne_nil_of_right_ne_nil _ (List.cons_ne_nil _ _))

/-- Every ampersand of an escaped text begins an entity. -/
theorem not_bareAmpersand_escape (s : List UInt8) : ¬BareAmpersand (escape s) := by
  rintro ⟨front, back, hsplit, hnone⟩
  induction s generalizing front with
  | nil => exact absurd hsplit.symm (List.append_ne_nil_of_right_ne_nil _ (List.cons_ne_nil _ _))
  | cons b s ih =>
    rw [escape_cons] at hsplit
    rcases List.append_eq_append_iff.1 hsplit with ⟨front', -, hrest⟩ | ⟨piece, he, hrest⟩
    · exact ih front' hrest
    · cases piece with
      | nil => exact ih [] hrest.symm
      | cons x piece =>
        rw [List.cons_append, List.cons.injEq] at hrest
        obtain ⟨rfl, rfl⟩ := hrest
        obtain ⟨rfl, hin⟩ := eq_nil_of_entity he
        have hat := entityAt_append hin (escape s)
        dsimp only at hat
        rw [he, List.nil_append, List.cons_append, hnone] at hat
        cases hat

/-- Where a text ends is seen from the next `<`. -/
theorem escape_append_inj {s t back back' : List UInt8}
    (h : escape s ++ 0x3C :: back = escape t ++ 0x3C :: back') : s = t ∧ back = back' := by
  have hshort : ∀ {s t mid back back' : List UInt8}, escape t = escape s ++ mid →
      0x3C :: back = mid ++ 0x3C :: back' → mid = [] := by
    intro s t mid back back' ht hmid
    cases mid with
    | nil => rfl
    | cons b mid =>
      rw [List.cons_append, List.cons.injEq] at hmid
      refine absurd ?_ (not_mem_escape (x := 0x3C) (by decide) t)
      rw [ht, ← hmid.1]
      exact List.mem_append_right _ List.mem_cons_self
  have hend : escape s = escape t := by
    rcases List.append_eq_append_iff.1 h with ⟨mid, ht, hmid⟩ | ⟨mid, hs, hmid⟩
    · rw [ht, hshort ht hmid, List.append_nil]
    · rw [hs, hshort hs hmid, List.append_nil]
  rw [hend] at h
  refine ⟨?_, (List.cons.inj (List.append_cancel_left h)).2⟩
  rw [← decode_escape s, hend, decode_escape]

/-! ## Tags -/

/-- Where a reader is. -/
inductive Mode where
  | text
  | tag
  | doubleQuoted
  | singleQuoted

/-- The tags that are read, where `read` is what is read of a tag so far. -/
def tagsIn : Mode → List UInt8 → List UInt8 → List (List UInt8)
  | _, _, [] => []
  | .text, _, b :: rest => if b = 0x3C then tagsIn .tag [] rest else tagsIn .text [] rest
  | .tag, read, b :: rest =>
    if b = 0x3E then read :: tagsIn .text [] rest
    else if b = 0x22 then tagsIn .doubleQuoted (read ++ [b]) rest
    else if b = 0x27 then tagsIn .singleQuoted (read ++ [b]) rest
    else tagsIn .tag (read ++ [b]) rest
  | .doubleQuoted, read, b :: rest =>
    tagsIn (if b = 0x22 then .tag else .doubleQuoted) (read ++ [b]) rest
  | .singleQuoted, read, b :: rest =>
    tagsIn (if b = 0x27 then .tag else .singleQuoted) (read ++ [b]) rest

def tags (bs : List UInt8) : List (List UInt8) := tagsIn .text [] bs

/-- A text without `<` has no tags. -/
theorem tagsIn_text {s : List UInt8} (h : 0x3C ∉ s) (rest : List UInt8) :
    tags (s ++ rest) = tags rest := by
  induction s with
  | nil => rfl
  | cons b s ih =>
    rw [List.mem_cons, not_or] at h
    rw [tags, List.cons_append, tagsIn, if_neg (Ne.symm h.1)]
    exact ih h.2

/-- The part of a tag outside of quotes. -/
theorem tagsIn_plain {a : List UInt8} (h : ∀ b ∈ a, b ≠ 0x3E ∧ b ≠ 0x22 ∧ b ≠ 0x27)
    (read rest : List UInt8) : tagsIn .tag read (a ++ rest) = tagsIn .tag (read ++ a) rest := by
  induction a generalizing read with
  | nil => rw [List.append_nil, List.nil_append]
  | cons b a ih =>
    obtain ⟨h₁, h₂, h₃⟩ := h b List.mem_cons_self
    rw [List.cons_append, tagsIn, if_neg h₁, if_neg h₂, if_neg h₃,
      ih fun x hx => h x (List.mem_cons_of_mem _ hx), List.append_assoc, List.singleton_append]

/-- A value in double quotes, with the quotes. -/
theorem tagsIn_quoted {value : List UInt8} (h : 0x22 ∉ value) (read rest : List UInt8) :
    tagsIn .tag read (0x22 :: value ++ 0x22 :: rest) =
      tagsIn .tag (read ++ 0x22 :: value ++ [0x22]) rest := by
  have hvalue : ∀ read', tagsIn .doubleQuoted read' (value ++ 0x22 :: rest) =
      tagsIn .tag (read' ++ value ++ [0x22]) rest := by
    induction value with
    | nil => exact fun read' => by rw [List.append_nil]; rfl
    | cons b value ih =>
      intro read'
      rw [List.mem_cons, not_or] at h
      rw [List.cons_append, tagsIn, if_neg (Ne.symm h.1), ih h.2]
      simp
  rw [List.cons_append, tagsIn, if_neg (by decide), if_pos rfl, hvalue]
  simp

/-- The end of a tag. -/
theorem tagsIn_close (read rest : List UInt8) :
    tagsIn .tag read (0x3E :: rest) = read :: tags rest := rfl

theorem tags_open (rest : List UInt8) : tags (0x3C :: rest) = tagsIn .tag [] rest := rfl

end Html

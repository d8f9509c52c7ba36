import Mathlib.Data.List.Pairwise
import Mathlib.Tactic.Common

/-!
# Ordered trees

A tree holds items under a strict weak order.  Two items neither of which is less than the
other count as the same: a tree holds at most one of them, and an item that is inserted takes
the place of the one that was there (`get_replaceOrInsert`).

`OrderedTree` is what a package of trees promises of its operations.  The lists in ascending
order keep the promise (`SortedList`), so what is shown of every package is shown of one.

`descend` hands the items to an iterator from the greatest to the least, until the iterator
returns false.  With an iterator that stops at its first find, this finds the greatest item
on which there is something to find (`descend_eq_some_iff`).
-/

namespace Btree

universe u

/-- What a tree can hold. -/
class Item (α : Type*) where
  less : α → α → Bool
  irrefl : ∀ a, less a a = false
  trans : ∀ {a b c}, less a b = true → less b c = true → less a c = true
  /-- What is less than an item is less than another, or the other is less than that item. -/
  split : ∀ {a b} c, less a b = true → less a c = true ∨ less c b = true

open Item

section Order

variable {α : Type*} [Item α]

/-- Neither is less than the other. -/
def same (a b : α) : Bool := !less a b && !less b a

theorem asymm {a b : α} (h : less a b = true) : less b a = false := by
  by_contra hba
  have haa := trans h (eq_true_of_ne_false hba)
  rw [Item.irrefl] at haa
  cases haa

theorem same_iff {a b : α} : same a b = true ↔ less a b = false ∧ less b a = false := by
  simp [same]

theorem same_refl (a : α) : same a a = true := same_iff.2 ⟨Item.irrefl a, Item.irrefl a⟩

theorem same_comm (a b : α) : same a b = same b a := Bool.and_comm ..

theorem same_eq_false_of_less {a b : α} (h : less a b = true) : same a b = false := by
  rw [same, h]
  rfl

/-- The same items are less than the same others. -/
theorem less_congr_left {a b : α} (h : same a b = true) (c : α) : less a c = less b c := by
  obtain ⟨hab, hba⟩ := same_iff.1 h
  refine Bool.eq_iff_iff.2 ⟨fun hac => ?_, fun hbc => ?_⟩
  · exact (split b hac).resolve_left (by rw [hab]; decide)
  · exact (split a hbc).resolve_left (by rw [hba]; decide)

theorem less_congr_right {a b : α} (h : same a b = true) (c : α) : less c a = less c b := by
  obtain ⟨hab, hba⟩ := same_iff.1 h
  refine Bool.eq_iff_iff.2 ⟨fun hca => ?_, fun hcb => ?_⟩
  · exact (split b hca).resolve_right (by rw [hba]; decide)
  · exact (split a hcb).resolve_right (by rw [hab]; decide)

theorem same_congr_left {a b : α} (h : same a b = true) (c : α) : same c a = same c b := by
  rw [same, same, less_congr_left h, less_congr_right h]

end Order

/-! ## Trees -/

/-- Call the iterator on one item after the other, until it returns false. -/
def iterate {α σ : Type*} (iterator : σ → α → σ × Bool) : σ → List α → σ
  | s, [] => s
  | s, x :: xs =>
    match iterator s x with
    | (s', true) => iterate iterator s' xs
    | (s', false) => s'

/-- The trees of a package and their operations.  What a tree holds is said by `items`, and
what an operation does by what it does to them. -/
class OrderedTree (BTree : (α : Type u) → [Item α] → Type u) where
  /-- `btree.New`. -/
  new {α : Type u} [Item α] : BTree α
  clone {α : Type u} [Item α] : BTree α → BTree α
  /-- The item of the tree that is the same as the key. -/
  get {α : Type u} [Item α] : BTree α → α → Option α
  replaceOrInsert {α : Type u} [Item α] : BTree α → α → BTree α
  /-- `Descend`, over what the iterator changes. -/
  descend {α σ : Type u} [Item α] : BTree α → (σ → α → σ × Bool) → σ → σ
  items {α : Type u} [Item α] : BTree α → List α
  sorted {α : Type u} [Item α] (t : BTree α) : (items t).Pairwise (less · · = true)
  items_new {α : Type u} [Item α] : items (new : BTree α) = []
  items_clone {α : Type u} [Item α] (t : BTree α) : items (clone t) = items t
  get_eq_some_iff {α : Type u} [Item α] {t : BTree α} {key x : α} :
    get t key = some x ↔ x ∈ items t ∧ same key x = true
  mem_replaceOrInsert {α : Type u} [Item α] {t : BTree α} {x y : α} :
    y ∈ items (replaceOrInsert t x) ↔ y = x ∨ y ∈ items t ∧ same x y = false
  descend_eq {α σ : Type u} [Item α] (t : BTree α) (iterator : σ → α → σ × Bool) (s : σ) :
    descend t iterator s = iterate iterator s (items t).reverse

namespace OrderedTree

attribute [simp] items_new items_clone

variable {BTree : (α : Type u) → [Item α] → Type u} [OrderedTree BTree] {α : Type u} [Item α]
  {t : BTree α} {key x : α}

def has (t : BTree α) (key : α) : Bool := (get t key).isSome

@[simp] theorem get_new : get (new : BTree α) key = none := by
  refine Option.eq_none_iff_forall_ne_some.2 fun x hx => ?_
  have hmem := (get_eq_some_iff.1 hx).1
  rw [items_new] at hmem
  cases hmem

@[simp] theorem get_clone : get (clone t) key = get t key :=
  Option.ext fun x => by rw [get_eq_some_iff, get_eq_some_iff, items_clone]

theorem mem_of_get (h : get t key = some x) : x ∈ items t := (get_eq_some_iff.1 h).1

theorem same_of_get (h : get t key = some x) : same key x = true := (get_eq_some_iff.1 h).2

/-- An item that is in the tree is found there. -/
theorem get_of_mem (h : x ∈ items t) (hk : same key x = true) : get t key = some x :=
  get_eq_some_iff.2 ⟨h, hk⟩

theorem get_replaceOrInsert (t : BTree α) (x key : α) :
    get (replaceOrInsert t x) key = if same key x then some x else get t key := by
  ext y
  rw [get_eq_some_iff, mem_replaceOrInsert]
  split
  next hx =>
    rw [Option.some.injEq]
    constructor
    · rintro ⟨rfl | ⟨_, hxy⟩, hy⟩
      · rfl
      · -- `x` and `y` are the same as the key, so they are the same
        rw [same_comm, ← same_congr_left hx, same_comm, hy] at hxy
        cases hxy
    · rintro rfl
      exact ⟨Or.inl rfl, hx⟩
  next hx =>
    rw [get_eq_some_iff]
    constructor
    · rintro ⟨rfl | ⟨hy, _⟩, hk⟩
      · exact absurd hk hx
      · exact ⟨hy, hk⟩
    · rintro ⟨hy, hk⟩
      refine ⟨Or.inr ⟨hy, ?_⟩, hk⟩
      by_contra hxy
      rw [same_congr_left (eq_true_of_ne_false hxy), hk] at hx
      exact hx rfl

end OrderedTree

/-! ## The greatest item with something to find -/

section Descend

variable {α β : Type u} (f : α → Option β)

/-- The iterator that looks for something on each item and stops where it finds it. -/
def seek (s : Option β) (x : α) : Option β × Bool :=
  match f x with
  | some b => (some b, false)
  | none => (s, true)

theorem iterate_seek (l : List α) : iterate (seek f) none l = l.findSome? f := by
  induction l with
  | nil => rfl
  | cons x xs ih =>
    rw [iterate, List.findSome?_cons]
    cases hx : f x with
    | none =>
      simp only [seek, hx]
      exact ih
    | some b => simp only [seek, hx]

variable [Item α]

theorem findSome?_reverse_eq_some_iff {l : List α} (hl : l.Pairwise (less · · = true)) {b : β} :
    l.reverse.findSome? f = some b ↔
      ∃ x ∈ l, f x = some b ∧ ∀ y ∈ l, less x y = true → f y = none := by
  induction l with
  | nil => simp
  | cons x xs ih =>
    obtain ⟨hx, hxs⟩ := List.pairwise_cons.1 hl
    rw [List.reverse_cons, List.findSome?_append, Option.or_eq_some_iff, ih hxs]
    constructor
    · rintro (⟨z, hz, hb, hmax⟩ | ⟨hnone, hb⟩)
      · refine ⟨z, List.mem_cons_of_mem _ hz, hb, fun y hy hzy => ?_⟩
        rcases List.mem_cons.1 hy with rfl | hy
        · rw [asymm (hx z hz)] at hzy
          cases hzy
        · exact hmax y hy hzy
      · refine ⟨x, List.mem_cons_self, by simpa using hb, fun y hy hxy => ?_⟩
        rcases List.mem_cons.1 hy with rfl | hy
        · rw [Item.irrefl] at hxy
          cases hxy
        · exact List.findSome?_eq_none_iff.1 hnone y (List.mem_reverse.2 hy)
    · rintro ⟨z, hz, hb, hmax⟩
      rcases List.mem_cons.1 hz with rfl | hz
      · refine Or.inr ⟨List.findSome?_eq_none_iff.2 fun y hy => ?_, by simpa using hb⟩
        have hy := List.mem_reverse.1 hy
        exact hmax y (List.mem_cons_of_mem _ hy) (hx y hy)
      · exact Or.inl ⟨z, hz, hb, fun y hy => hmax y (List.mem_cons_of_mem _ hy)⟩

variable {BTree : (α : Type u) → [Item α] → Type u} [OrderedTree BTree]

open OrderedTree

theorem descend_eq_some_iff (t : BTree α) {b : β} :
    descend t (seek f) none = some b ↔
      ∃ x ∈ items t, f x = some b ∧ ∀ y ∈ items t, less x y = true → f y = none := by
  rw [descend_eq, iterate_seek, findSome?_reverse_eq_some_iff f (sorted t)]

theorem descend_eq_none_iff (t : BTree α) :
    descend t (seek f) none = none ↔ ∀ x ∈ items t, f x = none := by
  rw [descend_eq, iterate_seek, List.findSome?_eq_none_iff]
  simp only [List.mem_reverse]

end Descend

/-! ## Lists in ascending order -/

section SortedList

variable {α : Type u} [Item α]

/-- An item in its place, or in the place of the same one. -/
def insertItem (x : α) : List α → List α
  | [] => [x]
  | y :: ys =>
    if less y x then y :: insertItem x ys
    else if less x y then x :: y :: ys
    else x :: ys

theorem mem_insertItem {x z : α} {l : List α} (hl : l.Pairwise (less · · = true)) :
    z ∈ insertItem x l ↔ z = x ∨ z ∈ l ∧ same x z = false := by
  induction l with
  | nil => simp [insertItem]
  | cons y ys ih =>
    obtain ⟨hy, hys⟩ := List.pairwise_cons.1 hl
    rw [insertItem]
    split_ifs with hyx hxy
    · have hxy : same x y = false := (same_comm x y).trans (same_eq_false_of_less hyx)
      rw [List.mem_cons, ih hys, List.mem_cons, or_and_right, or_left_comm]
      exact or_congr_right (or_congr_left (by rw [and_iff_left_of_imp (by rintro rfl; exact hxy)]))
    · -- all of the list is above `x`
      have hall : ∀ z ∈ y :: ys, same x z = false := fun z hz =>
        same_eq_false_of_less <| (List.mem_cons.1 hz).elim (fun h => h ▸ hxy)
          fun hz => trans hxy (hy z hz)
      rw [List.mem_cons, and_iff_left_of_imp (hall z)]
    · have hsame : same x y = true := same_iff.2 ⟨by simpa using hxy, by simpa using hyx⟩
      have hall : ∀ z ∈ ys, same x z = false := fun z hz =>
        same_eq_false_of_less ((less_congr_left hsame z).trans (hy z hz))
      rw [List.mem_cons, List.mem_cons, or_and_right, and_iff_left_of_imp (hall z)]
      refine or_congr_right (or_iff_right ?_).symm
      rintro ⟨rfl, h⟩
      rw [hsame] at h
      cases h

theorem sorted_insertItem {x : α} {l : List α} (hl : l.Pairwise (less · · = true)) :
    (insertItem x l).Pairwise (less · · = true) := by
  induction l with
  | nil => exact List.pairwise_singleton _ _
  | cons y ys ih =>
    obtain ⟨hy, hys⟩ := List.pairwise_cons.1 hl
    rw [insertItem]
    split_ifs with hyx hxy
    · refine List.pairwise_cons.2 ⟨fun z hz => ?_, ih hys⟩
      rcases (mem_insertItem hys).1 hz with rfl | ⟨hz, _⟩
      · exact hyx
      · exact hy z hz
    · refine List.pairwise_cons.2 ⟨fun z hz => ?_, hl⟩
      rcases List.mem_cons.1 hz with rfl | hz
      · exact hxy
      · exact trans hxy (hy z hz)
    · refine List.pairwise_cons.2 ⟨fun z hz => ?_, hys⟩
      have hsame : same x y = true := same_iff.2 ⟨by simpa using hxy, by simpa using hyx⟩
      rw [less_congr_left hsame]
      exact hy z hz

theorem find?_same_eq_some_iff {key x : α} {l : List α} (hl : l.Pairwise (less · · = true)) :
    l.find? (same key) = some x ↔ x ∈ l ∧ same key x = true := by
  refine ⟨fun h => ⟨List.mem_of_find?_eq_some h, List.find?_some h⟩, ?_⟩
  rintro ⟨hx, hk⟩
  induction l with
  | nil => cases hx
  | cons y ys ih =>
    obtain ⟨hy, hys⟩ := List.pairwise_cons.1 hl
    rcases List.mem_cons.1 hx with rfl | hx
    · rw [List.find?_cons, hk]
    · -- `y` is less than `x`, so it is not the one that is looked for
      have hky : same key y = false := by
        rw [same_comm, same_congr_left hk]
        exact same_eq_false_of_less (hy x hx)
      rw [List.find?_cons, hky]
      exact ih hys hx

/-- The tree that is the list of its items. -/
structure SortedList (α : Type u) [Item α] where
  items : List α
  sorted : items.Pairwise (less · · = true)

instance : OrderedTree SortedList where
  new := ⟨[], List.Pairwise.nil⟩
  clone t := t
  get t key := t.items.find? (same key)
  replaceOrInsert t x := ⟨insertItem x t.items, sorted_insertItem t.sorted⟩
  descend t iterator s := iterate iterator s t.items.reverse
  items := SortedList.items
  sorted := SortedList.sorted
  items_new := rfl
  items_clone _ := rfl
  get_eq_some_iff {_ _ t _ _} := find?_same_eq_some_iff t.sorted
  mem_replaceOrInsert {_ _ t _ _} := mem_insertItem t.sorted
  descend_eq _ _ _ := rfl

end SortedList

end Btree

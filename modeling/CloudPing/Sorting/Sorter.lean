import Mathlib.Data.List.Basic
import Mathlib.Data.List.Forall2
import Mathlib.Data.List.Nodup
import Mathlib.Data.List.Perm.Basic
import Mathlib.Order.Lattice

/-!
# Sorting with a comparison

A *sorter* permutes a list, and where the comparison is a weak order on the elements it puts
them in that order.  Nothing more is said: it may or may not be stable, and what it does with
another comparison is its own affair.

Where the comparison is that of keys, and no two elements have one key, all sorters do the same
(`sort_eq_sort`), and what they return is the only such list (`sort_eq_of_perm`).
-/

namespace Sorting

universe u

/-- The comparison is a weak order on the elements of the list. -/
structure WeakOrder {α : Type u} (less : α → α → Bool) (l : List α) : Prop where
  asymm : ∀ a ∈ l, ∀ b ∈ l, less a b = true → less b a = false
  trans : ∀ a ∈ l, ∀ b ∈ l, ∀ c ∈ l, less b a = false → less c b = false → less c a = false

structure Sorter where
  sort : {α : Type u} → (α → α → Bool) → List α → List α
  perm : ∀ {α : Type u} (less : α → α → Bool) (l : List α), (sort less l).Perm l
  sorted : ∀ {α : Type u} (less : α → α → Bool) (l : List α), WeakOrder less l →
    (sort less l).Pairwise fun a b => less b a = false

variable {α : Type u} {ι : Type*} [LinearOrder ι] {less less' : α → α → Bool} {key : α → ι}
  {l l' : List α}

/-- The comparison of two elements is that of their keys. -/
def ByKey (less : α → α → Bool) (key : α → ι) (l : List α) : Prop :=
  ∀ a ∈ l, ∀ b ∈ l, less a b = decide (key a < key b)

theorem ByKey.weakOrder (h : ByKey less key l) : WeakOrder less l where
  asymm := by
    intro a ha b hb hlt
    rw [h a ha b hb, decide_eq_true_eq] at hlt
    rw [h b hb a ha, decide_eq_false_iff_not]
    exact lt_asymm hlt
  trans := by
    intro a ha b hb c hc hab hbc
    rw [h b hb a ha, decide_eq_false_iff_not, not_lt] at hab
    rw [h c hc b hb, decide_eq_false_iff_not, not_lt] at hbc
    rw [h c hc a ha, decide_eq_false_iff_not, not_lt]
    exact le_trans hab hbc

theorem ByKey.perm (h : ByKey less key l) (hp : l'.Perm l) : ByKey less key l' :=
  fun a ha b hb => h a (hp.mem_iff.1 ha) b (hp.mem_iff.1 hb)

namespace Sorter

/-- Sorting with a comparison that yields a number, which is negative for "less". -/
def sortBy (S : Sorter.{u}) (compare : α → α → Int) (l : List α) : List α :=
  S.sort (fun a b => compare a b < 0) l

variable {S S' : Sorter.{u}}

@[simp] theorem mem_sort {a : α} : a ∈ S.sort less l ↔ a ∈ l := (S.perm less l).mem_iff

theorem nodup_sort (h : l.Nodup) : (S.sort less l).Nodup := (S.perm less l).nodup_iff.2 h

theorem pairwise_sort (h : ByKey less key l) :
    (S.sort less l).Pairwise fun a b => key a ≤ key b := by
  refine (S.sorted less l h.weakOrder).imp_of_mem ?_
  intro a b ha hb hba
  rw [h b (mem_sort.1 hb) a (mem_sort.1 ha), decide_eq_false_iff_not, not_lt] at hba
  exact hba

/-- A list in the order of its keys is the sorted one. -/
theorem sort_eq_of_perm (h : ByKey less key l) (hinj : ∀ a ∈ l, ∀ b ∈ l, key a = key b → a = b)
    (hp : l'.Perm l) (hl' : l'.Pairwise fun a b => key a ≤ key b) : S.sort less l = l' := by
  refine List.Perm.eq_of_pairwise ?_ (pairwise_sort h) hl' ((S.perm less l).trans hp.symm)
  intro a b ha hb hab hba
  exact hinj a (mem_sort.1 ha) b (hp.mem_iff.1 hb) (le_antisymm hab hba)

theorem sort_eq_sort (h : ByKey less key l) (h' : ByKey less' key l')
    (hinj : ∀ a ∈ l, ∀ b ∈ l, key a = key b → a = b) (hp : l'.Perm l) :
    S.sort less l = S'.sort less' l' :=
  sort_eq_of_perm h hinj ((S'.perm less' l').trans hp) (pairwise_sort h')

end Sorter

/-! ## Merge sort -/

/-- The elements with the proof that they are in the list, where the comparison is an order. -/
def mergeSort {α : Type u} (less : α → α → Bool) (l : List α) : List α :=
  (l.attach.mergeSort fun a b => !less b.1 a.1).map Subtype.val

/-- There is a sorter. -/
def merge : Sorter.{u} where
  sort := mergeSort
  perm less l := by
    have hp := (List.mergeSort_perm l.attach fun a b => !less b.1 a.1).map Subtype.val
    rwa [List.attach_map_subtype_val] at hp
  sorted less l h := by
    rw [mergeSort, List.pairwise_map]
    have hs := @List.pairwise_mergeSort {a // a ∈ l} (fun a b => !less b.1 a.1) ?_ ?_ l.attach
    · refine hs.imp ?_
      intro a b hab
      rwa [Bool.not_eq_true'] at hab
    · intro a b c hab hbc
      rw [Bool.not_eq_true'] at hab hbc ⊢
      exact h.trans a.1 a.2 b.1 b.2 c.1 c.2 hab hbc
    · intro a b
      cases hab : less a.1 b.1 with
      | false => simp
      | true => simp [h.asymm a.1 a.2 b.1 b.2 hab]

/-! ## Lists that are related element by element -/

section Related

variable {β : Type u} {R : α → β → Prop} {less' : β → β → Bool} {key' : β → ι} {l' : List β}
  {S S' : Sorter.{u}}

omit [LinearOrder ι] in
theorem injOn_of_nodup (h : (l.map key).Nodup) : ∀ a ∈ l, ∀ b ∈ l, key a = key b → a = b :=
  fun _ ha _ hb hab => List.inj_on_of_nodup_map h ha hb hab

omit [LinearOrder ι] in
theorem map_key_eq (hR : List.Forall₂ R l l') (hkey : ∀ a b, R a b → key a = key' b) :
    l.map key = l'.map key' := by
  induction hR with
  | nil => rfl
  | cons hab _ ih => rw [List.map_cons, List.map_cons, hkey _ _ hab, ih]

/-- Related lists are still related when they are sorted, each with its own sorter. -/
theorem forall₂_sort (hR : List.Forall₂ R l l') (hkey : ∀ a b, R a b → key a = key' b)
    (h : ByKey less key l) (h' : ByKey less' key' l') (hnodup : (l.map key).Nodup) :
    List.Forall₂ R (S.sort less l) (S'.sort less' l') := by
  obtain ⟨hlen, hzip⟩ := List.forall₂_iff_zip.1 hR
  -- The pairs are sorted by their keys, and each component is then the sorted list.
  let pairs := merge.sort (fun p q : α × β => decide (key p.1 < key q.1)) (l.zip l')
  have hperm : pairs.Perm (l.zip l') := merge.perm _ _
  have hpairs : ∀ p ∈ pairs, R p.1 p.2 := fun p hp => hzip (hperm.mem_iff.1 hp)
  have hkeys : ByKey (fun p q : α × β => decide (key p.1 < key q.1)) (fun p => key p.1)
      (l.zip l') := fun _ _ _ _ => rfl
  have hsorted : pairs.Pairwise fun p q => key p.1 ≤ key q.1 := Sorter.pairwise_sort hkeys
  have hfst : S.sort less l = pairs.map Prod.fst := by
    refine Sorter.sort_eq_of_perm h (injOn_of_nodup hnodup) ?_ (List.pairwise_map.2 hsorted)
    have hp := hperm.map Prod.fst
    rwa [List.map_fst_zip (Nat.le_of_eq hlen)] at hp
  have hsnd : S'.sort less' l' = pairs.map Prod.snd := by
    have hnodup' : (l'.map key').Nodup := by rwa [← map_key_eq hR hkey]
    refine Sorter.sort_eq_of_perm h' (injOn_of_nodup hnodup') ?_ ?_
    · have hp := hperm.map Prod.snd
      rwa [List.map_snd_zip (Nat.le_of_eq hlen.symm)] at hp
    · refine List.pairwise_map.2 (hsorted.imp_of_mem ?_)
      intro p q hp hq hpq
      rwa [← hkey _ _ (hpairs p hp), ← hkey _ _ (hpairs q hq)]
  rw [hfst, hsnd, List.forall₂_map_left_iff, List.forall₂_map_right_iff, List.forall₂_same]
  exact hpairs

end Related

end Sorting

import Mathlib.Data.List.Pairwise
import Mathlib.Tactic.Common

/-!
# Merging intervals

Closed intervals of natural numbers.  `merge` goes through a list of them in the order of
their first numbers and joins each to the one before where no number lies between the two.

What comes out covers the numbers that were covered (`covers_merge`), and between any two of
its intervals there is a number that is not (`apart_merge`).  So an interval all of whose
numbers are covered lies in one of them (`within_iff_covers`).
-/

namespace Interval

/-- The numbers from `first` to `last`, none if `last` is smaller. -/
structure Range where
  first : Nat
  last : Nat
  deriving DecidableEq, Repr

namespace Range

/-- The number is in the interval. -/
def Has (r : Range) (x : Nat) : Prop := r.first ≤ x ∧ x ≤ r.last

instance (r : Range) (x : Nat) : Decidable (r.Has x) := inferInstanceAs (Decidable (_ ∧ _))

/-- No number lies between the end of `r` and the start of `rhs`. -/
def meets (r rhs : Range) : Bool := decide (rhs.first ≤ r.last + 1)

/-- The least interval with both. -/
def union (r rhs : Range) : Range := ⟨min r.first rhs.first, max r.last rhs.last⟩

/-- The first interval lies in the second. -/
def within (a r : Range) : Bool := decide (r.first ≤ a.first ∧ a.last ≤ r.last)

theorem has_union {r rhs : Range} (hle : r.first ≤ rhs.first) (hm : r.meets rhs = true) (x : Nat) :
    (r.union rhs).Has x ↔ r.Has x ∨ rhs.Has x := by
  have hm := of_decide_eq_true hm
  simp only [union, Has]
  omega

end Range

/-- Some interval of the list has the number. -/
def Covers (rs : List Range) (x : Nat) : Prop := ∃ r ∈ rs, r.Has x

theorem covers_cons {r : Range} {rs : List Range} {x : Nat} :
    Covers (r :: rs) x ↔ r.Has x ∨ Covers rs x := by
  simp [Covers]

/-- The intervals in the order of their first numbers. -/
def Sorted (rs : List Range) : Prop := rs.Pairwise fun r r' => r.first ≤ r'.first

/-- Join what meets, from the left. -/
def merge : Range → List Range → List Range
  | cur, [] => [cur]
  | cur, r :: rs => if cur.meets r then merge (cur.union r) rs else cur :: merge r rs

theorem sorted_union {cur r : Range} {rs : List Range} (h : Sorted (cur :: r :: rs)) :
    Sorted (cur.union r :: rs) := by
  obtain ⟨hcur, hrest⟩ := List.pairwise_cons.1 h
  refine List.pairwise_cons.2 ⟨fun r' hr' => ?_, (List.pairwise_cons.1 hrest).2⟩
  exact Nat.le_trans (Nat.min_le_left _ _) (hcur r' (List.mem_cons_of_mem _ hr'))

theorem covers_merge {cur : Range} {rs : List Range} (h : Sorted (cur :: rs)) (x : Nat) :
    Covers (merge cur rs) x ↔ Covers (cur :: rs) x := by
  induction rs generalizing cur with
  | nil => rfl
  | cons r rs ih =>
    have hle : cur.first ≤ r.first := (List.pairwise_cons.1 h).1 r List.mem_cons_self
    rw [merge]
    split
    next hm =>
      rw [ih (sorted_union h), covers_cons, covers_cons, covers_cons, Range.has_union hle hm,
        or_assoc]
    next =>
      rw [covers_cons, ih (List.pairwise_cons.1 h).2, covers_cons (r := cur)]

/-- What comes out starts no earlier than the first interval. -/
theorem first_le_of_mem_merge {cur r : Range} {rs : List Range} (h : Sorted (cur :: rs))
    (hr : r ∈ merge cur rs) : cur.first ≤ r.first := by
  induction rs generalizing cur with
  | nil => exact Nat.le_of_eq (congrArg Range.first (List.mem_singleton.1 hr).symm)
  | cons r' rs ih =>
    have hle : cur.first ≤ r'.first := (List.pairwise_cons.1 h).1 r' List.mem_cons_self
    rw [merge] at hr
    split at hr
    next =>
      have hfirst := ih (sorted_union h) hr
      rwa [Range.union, Nat.min_eq_left hle] at hfirst
    next =>
      rcases List.mem_cons.1 hr with rfl | hr
      · exact Nat.le_refl _
      · exact Nat.le_trans hle (ih (List.pairwise_cons.1 h).2 hr)

/-- A number that is not covered lies between any two of the intervals. -/
theorem apart_merge {cur : Range} {rs : List Range} (h : Sorted (cur :: rs)) :
    (merge cur rs).Pairwise fun r r' => r.last + 1 < r'.first := by
  induction rs generalizing cur with
  | nil => exact List.pairwise_singleton _ _
  | cons r rs ih =>
    have hrest : Sorted (r :: rs) := (List.pairwise_cons.1 h).2
    rw [merge]
    split
    next => exact ih (sorted_union h)
    next hm =>
      have hgap : cur.last + 1 < r.first := by
        have hno := of_decide_eq_false (Bool.eq_false_iff.2 hm)
        omega
      refine List.pairwise_cons.2 ⟨fun r' hr' => ?_, ih hrest⟩
      exact Nat.lt_of_lt_of_le hgap (first_le_of_mem_merge hrest hr')

theorem eq_or_apart {α : Type*} {R : α → α → Prop} {l : List α} (h : l.Pairwise R) {a b : α}
    (ha : a ∈ l) (hb : b ∈ l) : a = b ∨ R a b ∨ R b a := by
  induction l with
  | nil => cases ha
  | cons c l ih =>
    obtain ⟨hc, hl⟩ := List.pairwise_cons.1 h
    rcases List.mem_cons.1 ha with rfl | ha'
    · rcases List.mem_cons.1 hb with rfl | hb'
      · exact Or.inl rfl
      · exact Or.inr (Or.inl (hc b hb'))
    · rcases List.mem_cons.1 hb with rfl | hb'
      · exact Or.inr (Or.inr (hc a ha'))
      · exact ih hl ha' hb'

/-- In intervals with gaps between them, an interval of covered numbers lies in one. -/
theorem within_iff_covers {rs : List Range} {a : Range} (ha : a.first ≤ a.last)
    (h : rs.Pairwise fun r r' => r.last + 1 < r'.first) :
    rs.any a.within = true ↔ ∀ x, a.Has x → Covers rs x := by
  rw [List.any_eq_true]
  constructor
  · rintro ⟨r, hr, hw⟩ x hx
    have hw := of_decide_eq_true hw
    exact ⟨r, hr, Nat.le_trans hw.1 hx.1, Nat.le_trans hx.2 hw.2⟩
  · intro hall
    obtain ⟨r, hr, hfirst⟩ := hall a.first ⟨Nat.le_refl _, ha⟩
    refine ⟨r, hr, decide_eq_true ⟨hfirst.1, ?_⟩⟩
    by_contra hlast
    -- the number behind the end of `r` would be in an interval that is apart from `r`
    obtain ⟨r', hr', hnext⟩ := hall (r.last + 1) ⟨by have := hfirst.2; omega, by omega⟩
    have happ := eq_or_apart h hr hr'
    have hf := hfirst.2
    have hn := hnext.1
    have hl := hnext.2
    rcases happ with rfl | hlt | hlt
    · omega
    · omega
    · have hff := hfirst.1
      omega

end Interval

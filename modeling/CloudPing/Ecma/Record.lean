import Mathlib.Data.List.Basic

/-!
# Records

An object whose keys are strings, as far as it is read by key.  It is never changed in place: a
spread makes a new one.
-/

namespace Ecma

abbrev Record (α : Type) := String → Option α

namespace Record

variable {α : Type} {r : Record α} {k k' : String} {v : α}

def empty : Record α := fun _ => none

/-- `{ ...r, [k]: v }`. -/
def set (r : Record α) (k : String) (v : α) : Record α := fun k' => if k' = k then some v else r k'

@[simp] theorem set_same : r.set k v k = some v := if_pos rfl

@[simp] theorem set_of_ne (h : k' ≠ k) : r.set k v k' = r k' := if_neg h

/-- The value of a key that is there, changed. -/
def modify (r : Record α) (k : String) (f : α → α) : Record α :=
  match r k with
  | none => r
  | some cur => r.set k (f cur)

theorem modify_same (f : α → α) : r.modify k f k = (r k).map f := by
  rw [modify]
  cases h : r k with
  | none => exact h
  | some cur => exact set_same

theorem modify_of_ne (f : α → α) (h : k' ≠ k) : r.modify k f k' = r k' := by
  rw [modify]
  cases r k with
  | none => rfl
  | some cur => exact set_of_ne h

/-- The same value for each of the keys. -/
def fromKeys (keys : List String) (v : α) : Record α := keys.foldl (fun r k => r.set k v) empty

theorem foldl_set (keys : List String) (v : α) (r : Record α) (k : String) :
    keys.foldl (fun r k => r.set k v) r k = if k ∈ keys then some v else r k := by
  induction keys generalizing r with
  | nil => rfl
  | cons k' keys ih =>
    rw [List.foldl_cons, ih]
    by_cases hin : k ∈ keys
    · rw [if_pos hin, if_pos (List.mem_cons_of_mem _ hin)]
    · rw [if_neg hin]
      by_cases heq : k = k'
      · rw [heq, set_same, if_pos List.mem_cons_self]
      · rw [set_of_ne heq, if_neg fun h => (List.mem_cons.1 h).elim heq hin]

theorem fromKeys_apply (keys : List String) (v : α) (k : String) :
    fromKeys keys v k = if k ∈ keys then some v else none := foldl_set keys v empty k

/-- Each of the keys that is there, changed.  Twice is no more than once. -/
theorem foldl_modify {f : α → α} (hf : ∀ v, f (f v) = f v) (keys : List String) (r : Record α)
    (k : String) :
    keys.foldl (fun r k => r.modify k f) r k = if k ∈ keys then (r k).map f else r k := by
  induction keys generalizing r with
  | nil => rfl
  | cons k' keys ih =>
    rw [List.foldl_cons, ih]
    by_cases heq : k = k'
    · subst heq
      rw [modify_same, if_pos List.mem_cons_self, Option.map_map]
      split
      · exact congrArg (fun g => (r k).map g) (funext hf)
      · rfl
    · have hmem : k ∈ k' :: keys ↔ k ∈ keys := List.mem_cons.trans (or_iff_right heq)
      rw [modify_of_ne f heq]
      simp only [hmem]

end Record

end Ecma

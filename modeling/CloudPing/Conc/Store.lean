import Mathlib.Data.List.AList

/-!
# Counting in a keyed store

A store is a finite map, here an association list with distinct keys.  `Store.count p`
is the number of stored values with `p`, whatever the order they are kept in.  The lemmas
say how one insertion or one deletion moves that number.
-/

namespace Conc

/-- A finite map from `κ` to `β`. -/
abbrev Store (κ β : Type*) := AList (fun _ : κ => β)

namespace Store

variable {κ β : Type*} [DecidableEq κ] {p : β → Bool} {k k' : κ} {b : β} {s : Store κ β}

/-- The number of stored values with `p`. -/
def count (p : β → Bool) (s : Store κ β) : Nat := s.entries.countP fun e => p e.2

/-- One if the value has `p`, and zero otherwise. -/
def weight (p : β → Bool) (b : β) : Nat := if p b then 1 else 0

theorem weight_of_true (h : p b = true) : weight p b = 1 := if_pos h

theorem weight_of_false (h : p b = false) : weight p b = 0 := by simp [weight, h]

theorem mem_of_lookup (h : s.lookup k = some b) : k ∈ s :=
  AList.lookup_isSome.1 (by rw [h]; rfl)

theorem erase_of_lookup_none (h : s.lookup k = none) : s.erase k = s := by
  apply AList.ext
  exact List.kerase_of_notMem_keys (AList.lookup_eq_none.1 h)

/-- Deleting a stored key takes its value out of the count. -/
theorem count_erase (h : s.lookup k = some b) :
    count p s = count p (s.erase k) + weight p b := by
  obtain ⟨c, l₁, l₂, _, hs, he⟩ := List.exists_of_kerase (mem_of_lookup h)
  have hc : c = b := by
    have hmem : (⟨k, c⟩ : Sigma fun _ : κ => β) ∈ s.entries := by rw [hs]; simp
    have hl : s.lookup k = some c := AList.mem_lookup_iff.2 hmem
    rw [h] at hl
    exact (Option.some.inj hl).symm
  subst hc
  have her : (s.erase k).entries = l₁ ++ l₂ := he
  simp only [count, her, hs, List.countP_append, List.countP_cons, weight]
  omega

/-- Inserting puts the new value over what is left without the key. -/
theorem count_insert (k : κ) (b : β) (s : Store κ β) :
    count p (s.insert k b) = count p (s.erase k) + weight p b := by
  simp only [count, AList.entries_insert, List.countP_cons, weight]
  rfl

/-- Inserting a fresh key adds its value to the count. -/
theorem count_insert_fresh (h : s.lookup k = none) :
    count p (s.insert k b) = count p s + weight p b := by
  rw [count_insert, erase_of_lookup_none h]

/-- Replacing the value of a stored key. -/
theorem count_replace (b' : β) (h : s.lookup k = some b) :
    count p (s.insert k b') + weight p b = count p s + weight p b' := by
  rw [count_insert, count_erase h]
  omega

theorem count_pos (h : s.lookup k = some b) (hp : p b = true) : 0 < count p s := by
  rw [count_erase h, weight_of_true hp]
  omega

theorem count_eq_zero_iff :
    count p s = 0 ↔ ∀ k b, s.lookup k = some b → p b = false := by
  constructor
  · intro h k b hl
    by_contra hp
    exact absurd (count_pos hl (by simpa using hp)) (by omega)
  · intro h
    refine List.countP_eq_zero.2 fun e he => ?_
    have hl : s.lookup e.1 = some e.2 := AList.mem_lookup_iff.2 he
    simp [h e.1 e.2 hl]

theorem lookup_insert_eq (k k' : κ) (b : β) (s : Store κ β) :
    (s.insert k b).lookup k' = if k' = k then some b else s.lookup k' := by
  split
  next h => subst h; exact AList.lookup_insert s
  next h => exact AList.lookup_insert_ne h

theorem lookup_erase_eq (k k' : κ) (s : Store κ β) :
    (s.erase k).lookup k' = if k' = k then none else s.lookup k' := by
  split
  next h => subst h; exact AList.lookup_erase k' s
  next h => exact AList.lookup_erase_ne h

/-- What is found after an insertion is the new value, or was there before. -/
theorem lookup_insert_eq_some {b' : β} (h : (s.insert k b).lookup k' = some b') :
    (k' = k ∧ b' = b) ∨ (k' ≠ k ∧ s.lookup k' = some b') := by
  rw [lookup_insert_eq] at h
  split at h
  next hk => exact .inl ⟨hk, (Option.some.inj h).symm⟩
  next hk => exact .inr ⟨hk, h⟩

theorem lookup_erase_eq_some (h : (s.erase k).lookup k' = some b) :
    k' ≠ k ∧ s.lookup k' = some b := by
  rw [lookup_erase_eq] at h
  split at h
  next => cases h
  next hk => exact ⟨hk, h⟩

end Store

end Conc

import Mathlib.Data.List.Basic
import Mathlib.Data.List.Nodup

/-!
# Maps in the order of insertion

An ECMAScript `Map` lists its keys in the order in which they were first set.  Setting a key that
is there leaves it in its place.
-/

namespace Ecma

variable {α β : Type*}

structure OrderedMap (α β : Type*) where
  entries : List (α × β)
  nodup : (entries.map Prod.fst).Nodup

namespace OrderedMap

def empty : OrderedMap α β := ⟨[], List.nodup_nil⟩

def keys (m : OrderedMap α β) : List α := m.entries.map Prod.fst

theorem nodup_keys (m : OrderedMap α β) : m.keys.Nodup := m.nodup

variable [DecidableEq α] {m : OrderedMap α β} {k k' : α} {v : β}

def get (m : OrderedMap α β) (k : α) : Option β := m.entries.lookup k

/-- The entries with another value for a key. -/
def replaced (k : α) (v : β) (entries : List (α × β)) : List (α × β) :=
  entries.map fun e => if e.1 = k then (k, v) else e

theorem map_fst_replaced (k : α) (v : β) (entries : List (α × β)) :
    (replaced k v entries).map Prod.fst = entries.map Prod.fst := by
  rw [replaced, List.map_map]
  refine List.map_congr_left fun e _ => ?_
  rw [Function.comp_apply]
  split
  · next h => exact h.symm
  · rfl

def set (m : OrderedMap α β) (k : α) (v : β) : OrderedMap α β :=
  if h : k ∈ m.keys then
    ⟨replaced k v m.entries, by rw [map_fst_replaced]; exact m.nodup⟩
  else
    ⟨m.entries ++ [(k, v)], by
      rw [List.map_append, List.map_singleton]
      exact m.nodup.append (List.nodup_singleton k) (List.disjoint_singleton.2 h)⟩

/-- The entries whose keys are kept. -/
def filter (p : α → Bool) (m : OrderedMap α β) : OrderedMap α β :=
  ⟨m.entries.filter fun e => p e.1, (List.filter_sublist.map Prod.fst).nodup m.nodup⟩

/-! ## What is read -/

theorem mem_keys_iff : k ∈ m.keys ↔ (m.get k).isSome = true := by
  rw [Option.isSome_iff_ne_none, get, Ne, List.lookup_eq_none_iff]
  constructor
  · intro hk hall
    obtain ⟨e, he, rfl⟩ := List.mem_map.1 hk
    have hne := hall e he
    rw [bne_self_eq_false] at hne
    cases hne
  · intro h
    by_contra hk
    refine h fun e he => ?_
    rw [bne_iff_ne]
    rintro rfl
    exact hk (List.mem_map_of_mem he)

theorem lookup_cons (k a : α) (b : β) (entries : List (α × β)) :
    ((a, b) :: entries).lookup k = if k = a then some b else entries.lookup k := by
  rw [List.lookup_cons]
  split
  · next h => rw [if_pos (beq_iff_eq.1 h)]
  · next h => rw [if_neg (beq_eq_false_iff_ne.1 h)]

theorem lookup_replaced (entries : List (α × β)) :
    (replaced k v entries).lookup k' =
      if k' = k then (entries.lookup k').map fun _ => v else entries.lookup k' := by
  induction entries with
  | nil => split <;> rfl
  | cons e entries ih =>
    obtain ⟨a, b⟩ := e
    rw [replaced, List.map_cons, ← replaced, lookup_cons]
    by_cases hak : a = k
    · subst hak
      rw [if_pos rfl, lookup_cons, ih]
      by_cases hk : k' = a
      · rw [if_pos hk, if_pos hk, if_pos hk]
        rfl
      · rw [if_neg hk, if_neg hk, if_neg hk, if_neg hk]
    · rw [if_neg hak, lookup_cons, ih]
      by_cases hka : k' = a
      · subst hka
        rw [if_pos rfl, if_neg hak, if_pos rfl]
      · rw [if_neg hka, if_neg hka]

theorem get_set : (m.set k v).get k' = if k' = k then some v else m.get k' := by
  rw [set]
  split
  · next hk =>
    rw [get, lookup_replaced]
    split
    · next heq =>
      subst heq
      obtain ⟨old, hold⟩ := Option.isSome_iff_exists.1 (mem_keys_iff.1 hk)
      rw [get] at hold
      rw [hold]
      rfl
    · rfl
  · next hk =>
    rw [get, List.lookup_append]
    have hnone : m.get k = none := by
      rw [mem_keys_iff] at hk
      exact Option.not_isSome_iff_eq_none.1 hk
    split
    · next heq =>
      subst heq
      rw [get] at hnone
      rw [hnone]
      simp
    · next hne =>
      rw [get]
      rw [lookup_cons, if_neg hne]
      exact Option.or_none

theorem lookup_filter (p : α → Bool) (entries : List (α × β)) :
    (entries.filter fun e => p e.1).lookup k = if p k then entries.lookup k else none := by
  induction entries with
  | nil => split <;> rfl
  | cons e entries ih =>
    obtain ⟨a, b⟩ := e
    rw [List.filter_cons, lookup_cons]
    by_cases hk : k = a
    · subst hk
      by_cases hp : p k = true
      · rw [if_pos hp, lookup_cons, if_pos rfl, if_pos rfl, if_pos hp]
      · rw [if_neg hp, ih, if_neg hp, if_neg hp]
    · by_cases hp : p a = true
      · rw [if_pos hp, lookup_cons, if_neg hk, if_neg hk, ih]
      · rw [if_neg hp, if_neg hk, ih]

theorem get_filter (p : α → Bool) : (m.filter p).get k = if p k then m.get k else none :=
  lookup_filter p m.entries

end OrderedMap

end Ecma

import Mathlib.Data.String.Basic

/-!
# Maps as sorted lists

A map whose keys are strings is the list of its entries in the order of the keys, so that
one map is one list.  An entry goes into its place (`insertKey`), in the place of an older
one with the same key.
-/

namespace Wire

variable {α : Type*}

/-- The keys of the entries increase. -/
def Canonical (h : List (String × α)) : Prop := h.Pairwise fun e e' => e.1 < e'.1

/-- An entry in its place. -/
def insertKey (k : String) (a : α) : List (String × α) → List (String × α)
  | [] => [(k, a)]
  | (k', a') :: rest =>
    if k < k' then (k, a) :: (k', a') :: rest
    else if k = k' then (k, a) :: rest
    else (k', a') :: insertKey k a rest

theorem lookup_cons_eq_if (k' : String) (e : String × α) (h : List (String × α)) :
    (e :: h).lookup k' = if k' = e.1 then some e.2 else h.lookup k' := by
  rw [List.lookup_cons]
  split
  · next hk => rw [if_pos (beq_iff_eq.1 hk)]
  · next hk => rw [if_neg (beq_eq_false_iff_ne.1 hk)]

theorem lookup_insertKey (k k' : String) (a : α) (h : List (String × α)) :
    (insertKey k a h).lookup k' = if k' = k then some a else h.lookup k' := by
  induction h with
  | nil => exact lookup_cons_eq_if k' (k, a) []
  | cons e h ih =>
    by_cases h₁ : k < e.1
    · rw [insertKey, if_pos h₁, lookup_cons_eq_if]
    · by_cases h₂ : k = e.1
      · rw [insertKey, if_neg h₁, if_pos h₂, lookup_cons_eq_if, lookup_cons_eq_if, ← h₂]
        split <;> rfl
      · rw [insertKey, if_neg h₁, if_neg h₂, lookup_cons_eq_if, lookup_cons_eq_if, ih]
        by_cases h₃ : k' = k
        · rw [if_neg fun he => h₂ (h₃.symm.trans he), if_pos h₃, if_pos h₃]
        · rw [if_neg h₃, if_neg h₃]

theorem mem_insertKey {k : String} {a : α} {h : List (String × α)} {e : String × α}
    (he : e ∈ insertKey k a h) : e = (k, a) ∨ e ∈ h := by
  induction h with
  | nil => exact Or.inl (List.mem_singleton.1 he)
  | cons e' h ih =>
    rw [insertKey] at he
    split_ifs at he
    · exact List.mem_cons.1 he
    · exact (List.mem_cons.1 he).imp_right (List.mem_cons_of_mem _)
    · rcases List.mem_cons.1 he with rfl | he
      · exact Or.inr List.mem_cons_self
      · exact (ih he).imp_right (List.mem_cons_of_mem _)

theorem canonical_insertKey {k : String} {a : α} {h : List (String × α)} (hc : Canonical h) :
    Canonical (insertKey k a h) := by
  induction h with
  | nil => exact List.pairwise_singleton _ _
  | cons e h ih =>
    obtain ⟨hlt, hc'⟩ := List.pairwise_cons.1 hc
    rw [insertKey]
    split_ifs with h₁ h₂
    · refine List.pairwise_cons.2 ⟨fun e' he' => ?_, hc⟩
      rcases List.mem_cons.1 he' with rfl | he'
      · exact h₁
      · exact h₁.trans (hlt e' he')
    · refine List.pairwise_cons.2 ⟨fun e' he' => ?_, hc'⟩
      rw [h₂]
      exact hlt e' he'
    · refine List.pairwise_cons.2 ⟨fun e' he' => ?_, ih hc'⟩
      rcases mem_insertKey he' with rfl | he'
      · exact lt_of_le_of_ne (not_lt.1 h₁) (Ne.symm h₂)
      · exact hlt e' he'

/-- An entry behind all the others. -/
theorem insertKey_of_lt {k : String} {a : α} {h : List (String × α)} (hlt : ∀ e ∈ h, e.1 < k) :
    insertKey k a h = h ++ [(k, a)] := by
  induction h with
  | nil => rfl
  | cons e h ih =>
    have he := hlt e List.mem_cons_self
    rw [insertKey, if_neg he.asymm, if_neg he.ne',
      ih fun e' he' => hlt e' (List.mem_cons_of_mem _ he')]
    rfl

/-- The last entry is the one that is replaced. -/
theorem insertKey_concat {k : String} {a a' : α} {h : List (String × α)}
    (hlt : ∀ e ∈ h, e.1 < k) : insertKey k a (h ++ [(k, a')]) = h ++ [(k, a)] := by
  induction h with
  | nil => simp [insertKey]
  | cons e h ih =>
    have he := hlt e List.mem_cons_self
    rw [List.cons_append, insertKey, if_neg he.asymm, if_neg he.ne',
      ih fun e' he' => hlt e' (List.mem_cons_of_mem _ he')]
    rfl

end Wire

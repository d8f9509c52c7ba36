import Mathlib.Algebra.BigOperators.Group.Finset.Basic
import CloudPing.Conc.System

/-!
# Systems that come to an end

A system *settles* if no run goes on for ever and a run that cannot go on ended where it
should.  A number that every step makes smaller shows the first (`settles_of_rank`).  For a
family of components that number is a sum, which one component moves by its own difference
(`sum_update`).

A system that settles only in runs that meet a policy is first restricted to it
(`System.restrict`).
-/

namespace Conc

/-- Replacing one component moves a sum by the difference of that component. -/
theorem sum_update {ι β : Type*} [Fintype ι] [DecidableEq ι] (f : ι → β) (i : ι) (b : β)
    (w : β → Nat) :
    ∑ j, w (Function.update f i b j) + w (f i) = ∑ j, w (f j) + w b := by
  have hrest : ∑ j ∈ Finset.univ.erase i, w (Function.update f i b j) =
      ∑ j ∈ Finset.univ.erase i, w (f j) :=
    Finset.sum_congr rfl fun j hj => by rw [Function.update_of_ne (Finset.ne_of_mem_erase hj)]
  rw [← Finset.add_sum_erase _ (fun j => w (Function.update f i b j)) (Finset.mem_univ i),
    ← Finset.add_sum_erase _ (fun j => w (f j)) (Finset.mem_univ i), hrest, Function.update_self]
  omega

namespace System

variable {σ α : Type*} {M : System σ α}

/-- No run goes on for ever, and where a run cannot go on it is final. -/
structure Settles (M : System σ α) (Final : σ → Prop) : Prop where
  finite : ∀ s, M.Reachable .any s → Acc (fun t s => M.Next .any s t) s
  final : ∀ s, M.Reachable .any s → (∀ a, M.step s a = none) → Final s

theorem settles_of_rank {Final : σ → Prop} (rank : σ → Nat)
    (hrank : ∀ s a t, M.Reachable .any s → M.step s a = some t → rank t < rank s)
    (hfinal : ∀ s, M.Reachable .any s → (∀ a, M.step s a = none) → Final s) :
    M.Settles Final := by
  refine ⟨fun s hs => ?_, hfinal⟩
  induction hr : rank s using Nat.strongRecOn generalizing s with
  | ind r ih =>
    refine Acc.intro s fun t ⟨a, ha, hst⟩ => ?_
    exact ih (rank t) (hr ▸ hrank s a t hs hst) t (Reach.tail hs ha hst) rfl

/-! ## Restriction -/

/-- The system without the steps that do not meet the policy. -/
def restrict (M : System σ α) (ok : Policy σ α) [∀ s a, Decidable (ok s a)] : System σ α where
  init := M.init
  step s a := if ok s a then M.step s a else none

variable {ok : Policy σ α} [∀ s a, Decidable (ok s a)] {s t : σ}

theorem restrict_eq_some {a : α} (h : (M.restrict ok).step s a = some t) :
    ok s a ∧ M.step s a = some t := by
  simp only [restrict] at h
  split at h
  next hok => exact ⟨hok, h⟩
  next => cases h

/-- The runs of a restriction are the runs that meet the policy. -/
theorem Reachable.of_restrict (h : (M.restrict ok).Reachable .any s) : M.Reachable ok s := by
  refine h.invariant Reach.refl fun s a t hr _ hst => ?_
  obtain ⟨hok, hst⟩ := restrict_eq_some hst
  exact Reach.tail hr hok hst

end System

end Conc

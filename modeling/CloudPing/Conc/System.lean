import Mathlib.Logic.Relation

/-!
# Guarded transition systems

A *system* is an initial state and a guarded step function: `step s a` is the state
after the action `a`, or `none` where `a` is not enabled.  An action names the goroutine
that moves and every choice it makes, so one action sequence is one interleaving.

A *policy* restricts the actions of a run by the state they are taken in.
`M.Reachable ok s` says that a run whose steps all meet `ok` ends in `s`.  The policy
that allows everything is `Policy.any`.

`M.Guards ok Safe` is the shape in which a policy is the exact condition of a safety
property: runs that meet `ok` stay in `Safe`, and after any step that does not meet it
some continuation leaves `Safe`.
-/

namespace Conc

/-- A system given by its initial state and a guarded step function. -/
structure System (σ : Type*) (α : Type*) where
  /-- The state runs start in. -/
  init : σ
  /-- The state after an action, `none` where the action is not enabled. -/
  step : σ → α → Option σ

/-- A condition on an action and the state it is taken in. -/
abbrev Policy (σ : Type*) (α : Type*) := σ → α → Prop

/-- The policy that allows every action. -/
def Policy.any {σ α : Type*} : Policy σ α := fun _ _ => True

instance {σ α : Type*} (s : σ) (a : α) : Decidable (Policy.any s a) := isTrue trivial

namespace System

variable {σ α : Type*} (M : System σ α)

/-! ## Reachability -/

/-- One step that meets the policy. -/
def Next (ok : Policy σ α) (s t : σ) : Prop := ∃ a, ok s a ∧ M.step s a = some t

/-- Some run whose steps meet the policy leads from `s` to `t`. -/
def Reach (ok : Policy σ α) (s t : σ) : Prop := Relation.ReflTransGen (M.Next ok) s t

/-- Some run whose steps meet the policy leads from the initial state to `s`. -/
def Reachable (ok : Policy σ α) (s : σ) : Prop := M.Reach ok M.init s

variable {M} {ok ok' : Policy σ α} {s t u : σ}

theorem Reach.refl : M.Reach ok s s := Relation.ReflTransGen.refl

theorem Reach.tail {a : α} (h : M.Reach ok s t) (hok : ok t a) (hs : M.step t a = some u) :
    M.Reach ok s u :=
  Relation.ReflTransGen.tail h ⟨a, hok, hs⟩

theorem Reach.head {a : α} (hs : M.step s a = some t) (hok : ok s a) (h : M.Reach ok t u) :
    M.Reach ok s u :=
  Relation.ReflTransGen.head ⟨a, hok, hs⟩ h

theorem Reach.trans (h : M.Reach ok s t) (h' : M.Reach ok t u) : M.Reach ok s u :=
  Relation.ReflTransGen.trans h h'

/-- A weaker policy reaches no less. -/
theorem Reach.mono (hok : ∀ s a, ok s a → ok' s a) (h : M.Reach ok s t) : M.Reach ok' s t :=
  Relation.ReflTransGen.mono (fun _ _ ⟨a, ha, hs⟩ => ⟨a, hok _ a ha, hs⟩) _ _ h

theorem Reachable.init : M.Reachable ok M.init := Reach.refl

theorem Reachable.any (h : M.Reachable ok s) : M.Reachable Policy.any s :=
  Reach.mono (fun _ _ _ => trivial) h

/-! ## Invariants -/

/-- What every step keeps, every run keeps. -/
theorem Reach.induct {I : σ → Prop} (h : M.Reach ok s t) (hs : I s)
    (hstep : ∀ s a t, I s → ok s a → M.step s a = some t → I t) : I t := by
  induction h with
  | refl => exact hs
  | tail _ hn ih =>
    obtain ⟨a, ha, hst⟩ := hn
    exact hstep _ a _ ih ha hst

/-- The invariant rule: what holds initially and is kept by every step that meets the
policy holds in every state a run that meets the policy reaches. -/
theorem Reachable.invariant {I : σ → Prop} (h : M.Reachable ok s) (hinit : I M.init)
    (hstep : ∀ s a t, I s → ok s a → M.step s a = some t → I t) : I s :=
  Reach.induct h hinit hstep

/-- The invariant rule with a second invariant that is already known to hold. -/
theorem Reachable.invariant_with {J I : σ → Prop} (h : M.Reachable ok s)
    (hJ : ∀ s, M.Reachable ok s → J s) (hinit : I M.init)
    (hstep : ∀ s a t, J s → I s → ok s a → M.step s a = some t → I t) : I s := by
  have both : M.Reachable ok s ∧ I s := by
    refine Reachable.invariant (I := fun s => M.Reachable ok s ∧ I s) h ⟨.refl, hinit⟩ ?_
    intro s a t ⟨hr, hi⟩ ha hst
    exact ⟨Reach.tail hr ha hst, hstep s a t (hJ s hr) hi ha hst⟩
  exact both.2

/-- A run meets a policy if an invariant of it says so at each step. -/
theorem Reachable.meets {J : σ → Prop} (h : M.Reachable ok s) (hinit : J M.init)
    (hstep : ∀ s a t, J s → ok s a → M.step s a = some t → ok' s a ∧ J t) :
    M.Reachable ok' s := by
  have both : M.Reachable ok' s ∧ J s := by
    refine Reachable.invariant (I := fun s => M.Reachable ok' s ∧ J s) h ⟨.refl, hinit⟩ ?_
    intro s a t ⟨hr, hj⟩ ha hst
    obtain ⟨ha', hj'⟩ := hstep s a t hj ha hst
    exact ⟨Reach.tail hr ha' hst, hj'⟩
  exact both.1

/-! ## Replay -/

variable (M) in
/-- Replay a list of actions and check the policy at each; `none` where an action is not
enabled or does not meet the policy. -/
def replay (ok : Policy σ α) [∀ s a, Decidable (ok s a)] : σ → List α → Option σ
  | s, [] => some s
  | s, a :: as => if ok s a then (M.step s a).bind (fun t => replay ok t as) else none

/-- What a replay ends in is reached by a run that meets the policy. -/
theorem reach_of_replay [∀ s a, Decidable (ok s a)] :
    ∀ {s : σ} (as : List α), M.replay ok s as = some t → M.Reach ok s t
  | s, [], h => by
      simp only [replay, Option.some.injEq] at h
      exact h ▸ Reach.refl
  | s, a :: as, h => by
      simp only [replay] at h
      split at h
      next hok =>
        obtain ⟨s', hs', h'⟩ := Option.bind_eq_some_iff.1 h
        exact Reach.head hs' hok (reach_of_replay as h')
      next => cases h

theorem replay_any_cons (s : σ) (a : α) (as : List α) :
    M.replay .any s (a :: as) = (M.step s a).bind fun t => M.replay .any t as := by
  rw [replay, if_pos (show Policy.any s a from trivial)]

/-- A replay that ends in a state with `p` witnesses a reachable state with `p`. -/
theorem exists_of_replay (M : System σ α) (ok : Policy σ α) [∀ s a, Decidable (ok s a)]
    (p : σ → Bool) (as : List α) (h : (M.replay ok M.init as).any p = true) :
    ∃ s, M.Reachable ok s ∧ p s = true := by
  cases hr : M.replay ok M.init as with
  | none => rw [hr] at h; cases h
  | some s =>
    rw [hr] at h
    exact ⟨s, reach_of_replay as hr, h⟩

/-! ## Counting steps -/

variable (M) in
/-- The system that counts the actions with `p` as it goes. -/
def tally (p : α → Bool) : System (σ × Nat) α where
  init := (M.init, 0)
  step s a := (M.step s.1 a).map fun t => (t, if p a then s.2 + 1 else s.2)

theorem tally_eq_some {p : α → Bool} {x y : σ × Nat} {a : α}
    (h : (M.tally p).step x a = some y) :
    M.step x.1 a = some y.1 ∧ y.2 = if p a then x.2 + 1 else x.2 := by
  obtain ⟨t, ht, rfl⟩ := Option.map_eq_some_iff.1 h
  exact ⟨ht, rfl⟩

/-! ## Exact conditions -/

variable (M) in
/-- `ok` is the exact condition of `Safe`: no run that meets `ok` leaves `Safe`, and from
the state after a step that does not meet it, steps that do meet it can leave `Safe`. -/
structure Guards (ok : Policy σ α) (Safe : σ → Prop) : Prop where
  /-- Runs that meet the policy are safe. -/
  safe : ∀ s, M.Reachable ok s → Safe s
  /-- A step that does not meet the policy opens a way to an unsafe state. -/
  tight : ∀ s a t, M.Reachable ok s → M.step s a = some t → ¬ ok s a →
    ∃ u, M.Reach ok t u ∧ ¬ Safe u

/-- The next step of a run meets the condition just if the run can be trusted to go on. -/
theorem Guards.ok_iff {Safe : σ → Prop} {a : α} (h : M.Guards ok Safe) (hr : M.Reachable ok s)
    (hst : M.step s a = some t) : ok s a ↔ ∀ u, M.Reach ok t u → Safe u := by
  constructor
  · intro hok u hu
    exact h.safe u ((Reach.tail hr hok hst).trans hu)
  · intro hsafe
    refine Classical.byContradiction fun hno => ?_
    obtain ⟨u, hu, hunsafe⟩ := h.tight s a t hr hst hno
    exact hunsafe (hsafe u hu)

end System

end Conc

import Mathlib.Algebra.Order.Group.Defs
import Mathlib.Data.List.Infix

/-!
# Logs pruned to a sliding window

A *log* lists the times at which something was admitted, oldest first.  `within W t log`
counts the entries in the closed interval `[t - W, t]`, and `Limited W n log` says that no
such interval holds more than `n`.

A limiter keeps only a pruned log.  `Keeps W kept log` relates the two: `kept` is a final
part of `log`, and each entry before it is more than `W` older than some entry of `kept`.
At any time at or after the newest entry the two therefore have the same entries in the
window (`Keeps.recent_eq`), and admitting one more entry keeps the relation
(`Keeps.concat`).
-/

namespace Conc

namespace SlidingLog

variable {T : Type*} [AddCommGroup T] [LinearOrder T]
variable {W now t : T} {log kept : List T} {n : Nat}

/-- The entries of the log in the closed interval `[t - W, t]`, counted. -/
def within (W t : T) (log : List T) : Nat := log.countP fun x => t - W ≤ x ∧ x ≤ t

/-- No closed interval of length `W` holds more than `n` entries. -/
def Limited (W : T) (n : Nat) (log : List T) : Prop := ∀ t, within W t log ≤ n

/-- The entries that are not older than `W`. -/
def recent (W now : T) (log : List T) : List T := log.filter fun x => now - W ≤ x

/-- `kept` is `log` without a first part that is out of the window of a kept entry. -/
def Keeps (W : T) (kept log : List T) : Prop :=
  ∃ old, log = old ++ kept ∧ ∀ x ∈ old, ∃ y ∈ kept, x < y - W

/-! ## Counting in a window -/

theorem within_append (W t : T) (l₁ l₂ : List T) :
    within W t (l₁ ++ l₂) = within W t l₁ + within W t l₂ := List.countP_append

theorem within_singleton (W t x : T) :
    within W t [x] = if t - W ≤ x ∧ x ≤ t then 1 else 0 := by
  simp [within, List.countP_singleton]

theorem within_le_of_infix {l : List T} (h : l <:+: log) : within W t l ≤ within W t log :=
  h.sublist.countP_le

/-- Where no entry is later than `now`, the window that ends at `now` holds the recent
entries. -/
theorem within_eq_length_recent (h : ∀ x ∈ log, x ≤ now) :
    within W now log = (recent W now log).length := by
  rw [within, recent, ← List.countP_eq_length_filter]
  refine List.countP_congr fun x hx => ?_
  simp [h x hx]

theorem Limited.nil : Limited W n ([] : List T) := fun _ => Nat.zero_le _

/-- One more entry, at or after all others, where the window that ends at it has room. -/
theorem Limited.concat [IsOrderedAddMonoid T] (h : Limited W n log)
    (hle : ∀ x ∈ log, x ≤ now) (hroom : within W now log < n) :
    Limited W n (log ++ [now]) := by
  intro t
  rw [within_append, within_singleton]
  split
  next hin =>
    -- the window ends at or after `now`, so it has no entry the window of `now` has not
    have hmono : within W t log ≤ within W now log := by
      refine List.countP_mono_left fun x hx hw => ?_
      simp only [decide_eq_true_eq] at hw ⊢
      exact ⟨(sub_le_sub_right hin.2 W).trans hw.1, hle x hx⟩
    omega
  next => exact h t

/-! ## Pruning -/

/-- In an ordered log the recent entries are those from the first recent one on. -/
theorem drop_findIdx?_eq_recent {i : Nat} (hs : log.Pairwise (· ≤ ·))
    (h : log.findIdx? (fun x => !decide (x < now - W)) = some i) :
    log.drop i = recent W now log := by
  induction log generalizing i with
  | nil => simp at h
  | cons x log ih =>
    rw [List.pairwise_cons] at hs
    rw [List.findIdx?_cons] at h
    split at h
    next hx =>
      cases h
      have hx : now - W ≤ x := by simpa using hx
      have hall : ∀ y ∈ x :: log, decide (now - W ≤ y) = true := by
        intro y hy
        rcases List.mem_cons.1 hy with rfl | hy
        · simpa using hx
        · simpa using hx.trans (hs.1 y hy)
      rw [List.drop_zero, recent, List.filter_eq_self.2 hall]
    next hx =>
      have hx : ¬ now - W ≤ x := by simpa using hx
      obtain ⟨j, hj, rfl⟩ := Option.map_eq_some_iff.1 h
      rw [List.drop_succ_cons, ih hs.2 hj, recent, recent]
      rw [List.filter_cons_of_neg (by simpa only [decide_eq_true_eq] using hx)]

theorem recent_eq_nil_of_findIdx? (h : log.findIdx? (fun x => !decide (x < now - W)) = none) :
    recent W now log = [] := by
  refine List.filter_eq_nil_iff.2 fun x hx => ?_
  have := List.findIdx?_eq_none_iff.1 h x hx
  simpa using this

/-- An ordered log is a part out of the window followed by its recent entries. -/
theorem exists_append_recent (W now : T) (hs : log.Pairwise (· ≤ ·)) :
    ∃ dropped, log = dropped ++ recent W now log ∧ ∀ x ∈ dropped, x < now - W := by
  cases h : log.findIdx? (fun x => !decide (x < now - W)) with
  | none =>
    refine ⟨log, ?_, fun x hx => ?_⟩
    · rw [recent_eq_nil_of_findIdx? h, List.append_nil]
    · simpa using List.findIdx?_eq_none_iff.1 h x hx
  | some i =>
    refine ⟨log.take i, ?_, fun x hx => ?_⟩
    · rw [← drop_findIdx?_eq_recent hs h, List.take_append_drop]
    · obtain ⟨_, _, hbefore⟩ := List.findIdx?_eq_some_iff_getElem.1 h
      obtain ⟨j, hj, rfl⟩ := List.mem_take_iff_getElem.1 hx
      simpa using hbefore j (by omega)

/-! ## What a pruned log keeps -/

theorem Keeps.nil : Keeps W ([] : List T) [] := ⟨[], rfl, by simp⟩

theorem Keeps.suffix (h : Keeps W kept log) : kept <:+ log := by
  obtain ⟨old, rfl, _⟩ := h
  exact List.suffix_append old kept

section

variable [IsOrderedAddMonoid T]

/-- No entry is later than `now` if no kept one is. -/
theorem Keeps.le (hW : 0 ≤ W) (h : Keeps W kept log) (hle : ∀ x ∈ kept, x ≤ now) :
    ∀ x ∈ log, x ≤ now := by
  obtain ⟨old, rfl, hold⟩ := h
  intro x hx
  rcases List.mem_append.1 hx with hx | hx
  · obtain ⟨y, hy, hxy⟩ := hold x hx
    exact (hxy.le.trans (sub_le_self y hW)).trans (hle y hy)
  · exact hle x hx

/-- The kept entries and the whole log agree on what is recent. -/
theorem Keeps.recent_eq (h : Keeps W kept log) (hle : ∀ x ∈ kept, x ≤ now) :
    recent W now log = recent W now kept := by
  obtain ⟨old, rfl, hold⟩ := h
  rw [recent, recent, List.filter_append, List.filter_eq_nil_iff.2, List.nil_append]
  intro x hx
  obtain ⟨y, hy, hxy⟩ := hold x hx
  have hlt : x < now - W := hxy.trans_le (sub_le_sub_right (hle y hy) W)
  simp only [decide_eq_true_eq, not_le]
  exact hlt

/-- Pruning the kept entries at `now` and adding `now` keeps the relation. -/
theorem Keeps.concat (hs : kept.Pairwise (· ≤ ·)) (h : Keeps W kept log)
    (hle : ∀ x ∈ kept, x ≤ now) : Keeps W (recent W now kept ++ [now]) (log ++ [now]) := by
  obtain ⟨old, rfl, hold⟩ := h
  obtain ⟨dropped, hdrop, hlt⟩ := exists_append_recent W now hs
  refine ⟨old ++ dropped, ?_, fun x hx => ⟨now, by simp, ?_⟩⟩
  · nth_rewrite 1 [hdrop]
    simp only [List.append_assoc]
  · rcases List.mem_append.1 hx with hx | hx
    · obtain ⟨y, hy, hxy⟩ := hold x hx
      exact hxy.trans_le (sub_le_sub_right (hle y hy) W)
    · exact hlt x hx

end

end SlidingLog

end Conc

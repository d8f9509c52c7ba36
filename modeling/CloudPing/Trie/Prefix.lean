import Mathlib.Data.List.Basic
import Mathlib.Data.Set.Finite.Lemmas
import Mathlib.Data.Set.Finite.List

/-!
# Prefixes of numbers and levels of a trie

A number of `w` bits is read from its most significant bit.  Two numbers *agree* on `n` bits
if they start with the same `n` bits, and a *segment* is what lies between two places.

A trie whose levels are at fixed places keeps a key of `len` bits at the deepest level that
is not beyond `len` (`depth`), where a lookup compares only the bits up to that level.  A
lookup prefers what it finds further down (`select`).  It comes to the entries that agree
with the number up to their level, those of the deepest such level (`select_eq`).
-/

namespace Trie

/-! ## Agreement -/

/-- The first `n` of `w` bits are the same. -/
def Agree (w n a b : Nat) : Prop := a / 2 ^ (w - n) = b / 2 ^ (w - n)

instance (w n a b : Nat) : Decidable (Agree w n a b) :=
  inferInstanceAs (Decidable (a / 2 ^ (w - n) = b / 2 ^ (w - n)))

/-- The `n` bits behind the first `off`. -/
def bitField (w a off n : Nat) : Nat := a / 2 ^ (w - off - n) % 2 ^ n

variable {w n m s a b : Nat}

theorem agree_zero (ha : a < 2 ^ w) (hb : b < 2 ^ w) : Agree w 0 a b := by
  rw [Agree, Nat.sub_zero, Nat.div_eq_of_lt ha, Nat.div_eq_of_lt hb]

theorem div_pow_of_le (hnm : m ≤ n) (hnw : n ≤ w) (a : Nat) :
    a / 2 ^ (w - m) = a / 2 ^ (w - n) / 2 ^ (n - m) := by
  rw [Nat.div_div_eq_div_mul, ← Nat.pow_add]
  congr 2
  omega

theorem Agree.mono (h : Agree w n a b) (hmn : m ≤ n) (hnw : n ≤ w) : Agree w m a b := by
  rw [Agree, div_pow_of_le hmn hnw a, div_pow_of_le hmn hnw b, h]

/-- To agree further is to agree on the next segment as well. -/
theorem agree_add_iff (h : n + s ≤ w) :
    Agree w (n + s) a b ↔ Agree w n a b ∧ bitField w a n s = bitField w b n s := by
  have hsub : w - n - s = w - (n + s) := by omega
  constructor
  · intro hagree
    refine ⟨hagree.mono (Nat.le_add_right n s) h, ?_⟩
    rw [bitField, bitField, hsub, hagree]
  · rintro ⟨hagree, hseg⟩
    rw [Agree, div_pow_of_le (Nat.le_add_right n s) h a,
      div_pow_of_le (Nat.le_add_right n s) h b, Nat.add_sub_cancel_left] at hagree
    rw [bitField, bitField, hsub] at hseg
    rw [Agree, ← Nat.div_add_mod (a / 2 ^ (w - (n + s))) (2 ^ s), hagree, hseg,
      Nat.div_add_mod]

/-- The number with a single one behind `n` zeros agrees with zero so far and no further. -/
theorem agree_single_iff (h : n < w) (hm : m ≤ w) :
    Agree w m (2 ^ (w - (n + 1))) 0 ↔ m ≤ n := by
  rw [Agree, Nat.zero_div]
  constructor
  · intro hdiv
    by_contra hlt
    have hle : 2 ^ (w - m) ≤ 2 ^ (w - (n + 1)) := Nat.pow_le_pow_right (by decide) (by omega)
    have hpos := Nat.div_pos hle (Nat.two_pow_pos _)
    omega
  · intro hle
    exact Nat.div_eq_of_lt (Nat.pow_lt_pow_right (by decide) (by omega))

/-! ## Levels -/

/-- The places of the levels, from `e` on, for the lengths of the segments between them. -/
def bounds : List Nat → Nat → List Nat
  | [], e => [e]
  | s :: segs, e => e :: bounds segs (e + s)

/-- The level at which a key of `len` bits is kept. -/
def depth : List Nat → Nat → Nat → Nat
  | [], e, _ => e
  | s :: segs, e, len => if len < e + s then e else depth segs (e + s) len

theorem le_of_mem_bounds {segs : List Nat} {e x : Nat} (h : x ∈ bounds segs e) : e ≤ x := by
  induction segs generalizing e with
  | nil => exact Nat.le_of_eq (List.mem_singleton.1 h).symm
  | cons s segs ih =>
    rcases List.mem_cons.1 h with rfl | h
    · exact Nat.le_refl x
    · exact Nat.le_trans (Nat.le_add_right e s) (ih h)

theorem depth_mem_bounds (segs : List Nat) (e len : Nat) : depth segs e len ∈ bounds segs e := by
  induction segs generalizing e with
  | nil => exact List.mem_singleton.2 rfl
  | cons s segs ih =>
    rw [depth, bounds]
    split
    next => exact List.mem_cons_self
    next => exact List.mem_cons_of_mem _ (ih (e + s))

theorem le_depth (segs : List Nat) (e len : Nat) : e ≤ depth segs e len :=
  le_of_mem_bounds (depth_mem_bounds segs e len)

theorem depth_le {segs : List Nat} {e len : Nat} (h : e ≤ len) : depth segs e len ≤ len := by
  induction segs generalizing e with
  | nil => exact h
  | cons s segs ih =>
    rw [depth]
    split
    next => exact h
    next hle => exact ih (Nat.le_of_not_lt hle)

/-- No level beyond that of a key is within its length. -/
theorem le_depth_of_mem {segs : List Nat} {e len x : Nat} (h : x ∈ bounds segs e)
    (hx : x ≤ len) : x ≤ depth segs e len := by
  induction segs generalizing e with
  | nil => exact Nat.le_of_eq (List.mem_singleton.1 h)
  | cons s segs ih =>
    rw [depth]
    rcases List.mem_cons.1 h with rfl | h
    · split
      next => exact Nat.le_refl x
      next => exact Nat.le_trans (Nat.le_add_right x s) (le_depth segs (x + s) len)
    · have hle := le_of_mem_bounds h
      rw [if_neg (by omega)]
      exact ih h

/-- A key is kept at its own length exactly if there is a level. -/
theorem depth_eq_self_iff {segs : List Nat} {e len : Nat} (h : e ≤ len) :
    depth segs e len = len ↔ len ∈ bounds segs e := by
  constructor
  · intro heq
    rw [← heq]
    exact depth_mem_bounds segs e _
  · intro hmem
    exact Nat.le_antisymm (depth_le h) (le_depth_of_mem hmem (Nat.le_refl len))

/-! ## Lookup -/

section Select

variable {ρ : Type*} (w : Nat) (len key : ρ → Nat) (a : Nat)

/-- An entry goes below the next level, and the segment there is that of the number. -/
def Below (e s : Nat) (r : ρ) : Prop :=
  e + s ≤ len r ∧ bitField w (key r) e s = bitField w a e s

instance (e s : Nat) (r : ρ) : Decidable (Below w len key a e s r) :=
  inferInstanceAs (Decidable (_ ∧ _))

/-- The entries a lookup comes to: what it finds below the next level, and else what is kept
above it. -/
def select : List Nat → Nat → List ρ → List ρ
  | [], _, rs => rs
  | s :: segs, e, rs =>
    let found := select segs (e + s) (rs.filter fun r => Below w len key a e s r)
    if found = [] then rs.filter fun r => len r < e + s else found

/-- The entry agrees with the number up to its level, and no other such entry is kept
further down. -/
def Deepest (segs : List Nat) (e : Nat) (rs : List ρ) (r : ρ) : Prop :=
  Agree w (depth segs e (len r)) (key r) a ∧
    ∀ r' ∈ rs, Agree w (depth segs e (len r')) (key r') a →
      depth segs e (len r') ≤ depth segs e (len r)

instance (segs : List Nat) (e : Nat) (rs : List ρ) (r : ρ) :
    Decidable (Deepest w len key a segs e rs r) :=
  inferInstanceAs (Decidable (_ ∧ _))

variable {w : Nat} {len key : ρ → Nat} {a : Nat} {segs : List Nat} {e s : Nat} {rs : List ρ}

/-- If entries agree up to their level, one of them is deepest. -/
theorem exists_deepest (h : ∃ r ∈ rs, Agree w (depth segs e (len r)) (key r) a) :
    ∃ r ∈ rs, Deepest w len key a segs e rs r := by
  have hfin : {r | r ∈ rs ∧ Agree w (depth segs e (len r)) (key r) a}.Finite :=
    (List.finite_toSet rs).subset fun r hr => hr.1
  obtain ⟨r₀, hr₀, hagree₀⟩ := h
  obtain ⟨r, ⟨hr, hagree⟩, hmax⟩ :=
    Set.exists_max_image _ (fun r => depth segs e (len r)) hfin ⟨r₀, hr₀, hagree₀⟩
  exact ⟨r, hr, hagree, fun r' hr' hagree' => hmax r' ⟨hr', hagree'⟩⟩

/-- What goes below a level and agrees up to its own has the segment of the number there. -/
theorem agree_depth_cons_iff {r : ρ} (hw : len r ≤ w)
    (hlen : e + s ≤ len r) :
    Agree w (depth (s :: segs) e (len r)) (key r) a ↔
      Below w len key a e s r ∧ Agree w (depth segs (e + s) (len r)) (key r) a := by
  have hdepth : depth (s :: segs) e (len r) = depth segs (e + s) (len r) := by
    rw [depth, if_neg (Nat.not_lt.2 hlen)]
  have hle : depth segs (e + s) (len r) ≤ w := Nat.le_trans (depth_le hlen) hw
  rw [hdepth]
  constructor
  · intro hagree
    have hnext := hagree.mono (le_depth segs (e + s) (len r)) hle
    exact ⟨⟨hlen, ((agree_add_iff (Nat.le_trans hlen hw)).1 hnext).2⟩, hagree⟩
  · exact And.right

/-- A lookup comes to the deepest entries that agree up to their level. -/
theorem select_eq (hsegs : ∀ s ∈ segs, 0 < s)
    (hrs : ∀ r ∈ rs, Agree w e (key r) a ∧ e ≤ len r ∧ len r ≤ w) :
    select w len key a segs e rs = rs.filter fun r => Deepest w len key a segs e rs r := by
  induction segs generalizing e rs with
  | nil =>
    rw [select, List.filter_eq_self.2]
    intro r hr
    exact decide_eq_true ⟨(hrs r hr).1, fun _ _ _ => Nat.le_refl e⟩
  | cons s segs ih =>
    have hpos : 0 < s := hsegs s List.mem_cons_self
    have habove : ∀ r ∈ rs, len r < e + s → depth (s :: segs) e (len r) = e := fun r _ h => by
      rw [depth, if_pos h]
    have hbelow : ∀ r ∈ rs, e + s ≤ len r →
        depth (s :: segs) e (len r) = depth segs (e + s) (len r) := fun r _ h => by
      rw [depth, if_neg (Nat.not_lt.2 h)]
    have hiff : ∀ r ∈ rs, e + s ≤ len r → (Agree w (depth (s :: segs) e (len r)) (key r) a ↔
        Below w len key a e s r ∧ Agree w (depth segs (e + s) (len r)) (key r) a) :=
      fun r hr h => agree_depth_cons_iff (hrs r hr).2.2 h
    have hmem : ∀ r, r ∈ rs.filter (fun r => Below w len key a e s r) ↔
        r ∈ rs ∧ Below w len key a e s r := fun r => by simp
    have hfound := @ih (e + s) (rs.filter fun r => Below w len key a e s r)
      (fun s hs => hsegs s (List.mem_cons_of_mem _ hs)) fun r hr => by
        obtain ⟨hr, hb⟩ := (hmem r).1 hr
        exact ⟨(agree_add_iff (Nat.le_trans hb.1 (hrs r hr).2.2)).2 ⟨(hrs r hr).1, hb.2⟩,
          hb.1, (hrs r hr).2.2⟩
    rw [select]
    split
    next hnil =>
      -- nothing below agrees, so all that is kept here is deepest
      have hnone : ∀ r ∈ rs, e + s ≤ len r →
          ¬ Agree w (depth (s :: segs) e (len r)) (key r) a := by
        intro r hr hlen hagree
        obtain ⟨hb, hagree⟩ := (hiff r hr hlen).1 hagree
        obtain ⟨r', hr', hdeepest⟩ := exists_deepest ⟨r, (hmem r).2 ⟨hr, hb⟩, hagree⟩
        have hin : r' ∈ select w len key a segs (e + s)
            (rs.filter fun r => Below w len key a e s r) := by
          rw [hfound]
          exact List.mem_filter.2 ⟨hr', decide_eq_true hdeepest⟩
        rw [hnil] at hin
        cases hin
      refine List.filter_congr fun r hr => decide_eq_decide.2 ⟨fun hlt => ?_, fun hdeepest => ?_⟩
      · refine ⟨by rw [habove r hr hlt]; exact (hrs r hr).1, fun r' hr' hagree' => ?_⟩
        have hlt' : len r' < e + s := Nat.lt_of_not_le fun hle => hnone r' hr' hle hagree'
        rw [habove r hr hlt, habove r' hr' hlt']
      · exact Nat.lt_of_not_le fun hle => hnone r hr hle hdeepest.1
    next hne =>
      obtain ⟨r₀, hr₀⟩ := List.exists_mem_of_ne_nil _ hne
      rw [hfound] at hr₀ ⊢
      obtain ⟨hr₀, hdeepest₀⟩ := List.mem_filter.1 hr₀
      obtain ⟨hr₀, hb₀⟩ := (hmem r₀).1 hr₀
      have hagree₀ := (hiff r₀ hr₀ hb₀.1).2 ⟨hb₀, (of_decide_eq_true hdeepest₀).1⟩
      rw [List.filter_filter]
      refine List.filter_congr fun r hr => ?_
      rw [← Bool.decide_and, decide_eq_decide]
      constructor
      · rintro ⟨hdeepest, hb⟩
        refine ⟨(hiff r hr hb.1).2 ⟨hb, hdeepest.1⟩, fun r' hr' hagree' => ?_⟩
        rw [hbelow r hr hb.1]
        rcases Nat.lt_or_ge (len r') (e + s) with hlt' | hle'
        · rw [habove r' hr' hlt']
          exact Nat.le_trans (Nat.le_add_right e s) (le_depth segs (e + s) (len r))
        · obtain ⟨hb', hagree'⟩ := (hiff r' hr' hle').1 hagree'
          rw [hbelow r' hr' hle']
          exact hdeepest.2 r' ((hmem r').2 ⟨hr', hb'⟩) hagree'
      · intro hdeepest
        have hlen : e + s ≤ len r := by
          refine Nat.le_of_not_lt fun hlt => ?_
          have hle := hdeepest.2 r₀ hr₀ hagree₀
          rw [habove r hr hlt, hbelow r₀ hr₀ hb₀.1] at hle
          have := le_depth segs (e + s) (len r₀)
          omega
        obtain ⟨hb, hagree⟩ := (hiff r hr hlen).1 hdeepest.1
        refine ⟨⟨hagree, fun r' hr' hagree' => ?_⟩, hb⟩
        obtain ⟨hr', hb'⟩ := (hmem r').1 hr'
        have hle := hdeepest.2 r' hr' ((hiff r' hr' hb'.1).2 ⟨hb', hagree'⟩)
        rwa [hbelow r hr hlen, hbelow r' hr' hb'.1] at hle

end Select

end Trie

import Mathlib.Algebra.Order.Ring.Int
import Mathlib.Data.List.Infix
import Mathlib.Logic.Function.Basic

/-!
# Streams of values

A stream of values is written one value after the other, each with a newline behind it
(`frame`).  A scanner looks at the text read so far.  It skips newlines, and then it finds
that the value goes on, that a value ends and the text goes on behind it, or that there is
no value.

`ValueStream` has the laws of such a format.  The first five say what a scanner does at the
start of a value.  The last one, `scan_infix`, is about text that starts anywhere, as a
reader sees it that lost a part of the stream: the value it finds has an encoding that is
no longer than the text it took.  `weight`, the number of bytes that are not newlines,
measures how much of a stream a reader has used.
-/

namespace Wire

/-- The byte `\n`. -/
abbrev newline : UInt8 := 10

/-- What a scanner finds at the start of a text. -/
inductive Scan (M : Type*) where
  /-- The text ends before the value does. -/
  | incomplete
  | value (m : M) (rest : List UInt8)
  | invalid

/-- The bytes that are not newlines, counted. -/
def weight (l : List UInt8) : Nat := l.countP fun c => c ≠ newline

/-- Values one after the other, with a newline behind each. -/
def frameWith {M : Type*} (encode : M → List UInt8) (xs : List M) : List UInt8 :=
  xs.flatMap fun x => encode x ++ [newline]

/-- A format for streams of values. -/
structure ValueStream (M : Type*) where
  encode : M → List UInt8
  scan : List UInt8 → Scan M
  newline_notMem : ∀ x, newline ∉ encode x
  scan_nil : scan [] = .incomplete
  scan_newline : ∀ l, scan (newline :: l) = scan l
  scan_encode : ∀ x rest, scan (encode x ++ rest) = .value x rest
  scan_prefix : ∀ x p, p <+: encode x → p ≠ encode x → scan p = .incomplete
  /-- A value found anywhere in a stream is not longer than the text it was found in. -/
  scan_infix : ∀ xs l y rest, l <:+: frameWith encode xs → scan l = .value y rest →
    (encode y).length + weight rest ≤ weight l

namespace ValueStream

variable {M : Type*} (v : ValueStream M) {x : M} {xs : List M} {l : List UInt8}

def frame (xs : List M) : List UInt8 := frameWith v.encode xs

/-- Only newlines. -/
def Blank (l : List UInt8) : Prop := ∀ c ∈ l, c = newline

theorem frame_nil : v.frame [] = [] := rfl

theorem frame_cons (x : M) (xs : List M) :
    v.frame (x :: xs) = v.encode x ++ newline :: v.frame xs := by
  simp [frame, frameWith]

theorem weight_append (l₁ l₂ : List UInt8) : weight (l₁ ++ l₂) = weight l₁ + weight l₂ :=
  List.countP_append

theorem weight_eq_zero : weight l = 0 ↔ Blank l := by
  simp [weight, List.countP_eq_zero, Blank]

theorem weight_encode (x : M) : weight (v.encode x) = (v.encode x).length := by
  refine List.countP_eq_length.2 fun c hc => ?_
  simp only [ne_eq, decide_not, Bool.not_eq_eq_eq_not, Bool.not_true, decide_eq_false_iff_not]
  rintro rfl
  exact v.newline_notMem x hc

/-- The weight of a stream is that of its values. -/
theorem weight_frame (xs : List M) :
    weight (v.frame xs) = (xs.map fun x => (v.encode x).length).sum := by
  induction xs with
  | nil => rfl
  | cons x xs ih =>
    have hnl : weight (newline :: v.frame xs) = weight (v.frame xs) :=
      List.countP_cons_of_neg (by decide)
    rw [frame_cons, weight_append, weight_encode, hnl, ih, List.map_cons, List.sum_cons]

theorem encode_ne_nil (x : M) : v.encode x ≠ [] := by
  intro h
  have hscan := v.scan_encode x []
  rw [h, List.nil_append, v.scan_nil] at hscan
  cases hscan

/-! ## Scanning behind newlines -/

theorem scan_blank_append {pre : List UInt8} (hpre : Blank pre) (l : List UInt8) :
    v.scan (pre ++ l) = v.scan l := by
  induction pre with
  | nil => rfl
  | cons c pre ih =>
    have hc : c = newline := hpre c List.mem_cons_self
    subst hc
    rw [List.cons_append, v.scan_newline, ih fun c hc => hpre c (List.mem_cons_of_mem _ hc)]

theorem scan_blank (hl : Blank l) : v.scan l = .incomplete := by
  have h := v.scan_blank_append hl []
  rwa [List.append_nil, v.scan_nil] at h

/-- A text that is a part of what is to come: the value is complete in it, or it is not and
the scanner asks for more. -/
theorem scan_of_prefix {pre rest : List UInt8} (hpre : Blank pre)
    (h : l ++ rest = pre ++ v.frame (x :: xs)) :
    (∃ surplus, l = pre ++ v.encode x ++ surplus ∧ surplus ++ rest = newline :: v.frame xs ∧
        v.scan l = .value x surplus) ∨
      (l.length < (pre ++ v.encode x).length ∧ v.scan l = .incomplete) := by
  rw [frame_cons, ← List.append_assoc] at h
  have hl : l <+: pre ++ v.encode x ++ newline :: v.frame xs := ⟨rest, h⟩
  have hx : pre ++ v.encode x <+: pre ++ v.encode x ++ newline :: v.frame xs :=
    List.prefix_append _ _
  rcases Nat.lt_or_ge l.length (pre ++ v.encode x).length with hlt | hge
  · refine .inr ⟨hlt, ?_⟩
    have hpart : l <+: pre ++ v.encode x := List.prefix_of_prefix_length_le hl hx hlt.le
    rcases List.prefix_or_prefix_of_prefix hpart (List.prefix_append pre (v.encode x)) with
      hle | ⟨p, rfl⟩
    · exact v.scan_blank fun c hc => hpre c (hle.subset hc)
    · rw [v.scan_blank_append hpre]
      refine v.scan_prefix x p ((List.prefix_append_right_inj pre).1 hpart) ?_
      rintro rfl
      exact Nat.lt_irrefl _ hlt
  · obtain ⟨surplus, rfl⟩ : pre ++ v.encode x <+: l :=
      List.prefix_of_prefix_length_le hx hl hge
    refine .inl ⟨surplus, rfl, ?_, ?_⟩
    · rw [List.append_assoc] at h
      exact List.append_cancel_left h
    · rw [List.append_assoc, v.scan_blank_append hpre, v.scan_encode]

end ValueStream

/-! ## Numbered values

The least format.  A value is its number, in unary between braces.
-/

namespace Numbered

def lbrace : UInt8 := 123
def rbrace : UInt8 := 125
def one : UInt8 := 49

variable {M : Type*} (code : M → Nat)

def encode (x : M) : List UInt8 := lbrace :: (List.replicate (code x) one ++ [rbrace])

/-- Behind the opening brace and `n` ones. -/
noncomputable def scanOnes (n : Nat) : List UInt8 → Scan M
  | [] => .incomplete
  | c :: l =>
    if c = one then scanOnes (n + 1) l
    else if c = rbrace then
      match Function.partialInv code n with
      | some x => .value x l
      | none => .invalid
    else .invalid

noncomputable def scan : List UInt8 → Scan M
  | [] => .incomplete
  | c :: l => if c = newline then scan l else if c = lbrace then scanOnes code 0 l else .invalid

variable {code} {n k : Nat} {l : List UInt8}

theorem scanOnes_replicate (n k : Nat) (l : List UInt8) :
    scanOnes code n (List.replicate k one ++ l) = scanOnes code (n + k) l := by
  induction k generalizing n with
  | zero => rfl
  | succ k ih =>
    rw [List.replicate_succ, List.cons_append, scanOnes, if_pos rfl, ih, Nat.add_right_comm]
    rfl

theorem scanOnes_code (hcode : code.Injective) (x : M) (rest : List UInt8) :
    scanOnes code (code x) (rbrace :: rest) = .value x rest := by
  rw [scanOnes, if_neg (by decide), if_pos rfl, Function.partialInv_left hcode]

/-- What is found behind the brace is as long as its text. -/
theorem weight_scanOnes {y : M} {rest : List UInt8} (hcode : code.Injective)
    (h : scanOnes code n l = .value y rest) : code y + 1 + weight rest = n + weight l := by
  induction l generalizing n with
  | nil => cases h
  | cons c l ih =>
    rw [scanOnes] at h
    split at h
    next hc =>
      have hw : weight (c :: l) = weight l + 1 := List.countP_cons_of_pos (by rw [hc]; decide)
      have := ih h
      omega
    next hc =>
      split at h
      next hc' =>
        have hw : weight (c :: l) = weight l + 1 := List.countP_cons_of_pos (by rw [hc']; decide)
        split at h
        next x hx =>
          obtain ⟨rfl, rfl⟩ := Scan.value.inj h
          have hn : code x = n := (hcode.isPartialInv x n).1 hx
          omega
        next => cases h
      next => cases h

theorem weight_scan {y : M} {rest : List UInt8} (hcode : code.Injective)
    (h : scan code l = .value y rest) : (encode code y).length + weight rest = weight l := by
  induction l with
  | nil => cases h
  | cons c l ih =>
    rw [scan] at h
    split at h
    next hc =>
      have hw : weight (c :: l) = weight l := List.countP_cons_of_neg (by rw [hc]; decide)
      rw [hw]
      exact ih h
    next hc =>
      split at h
      next hc' =>
        have hw : weight (c :: l) = weight l + 1 := List.countP_cons_of_pos (by rw [hc']; decide)
        have := weight_scanOnes hcode h
        simp only [encode, List.length_cons, List.length_append, List.length_replicate,
          List.length_nil]
        omega
      next => cases h

/-- The format where a value is its number. -/
noncomputable def stream (code : M → Nat) (hcode : code.Injective) : ValueStream M where
  encode := encode code
  scan := scan code
  newline_notMem x := by
    simp only [encode, List.mem_cons, List.mem_append, List.mem_replicate, List.not_mem_nil]
    rintro (h | ⟨_, h⟩ | h | h) <;> revert h <;> decide
  scan_nil := rfl
  scan_newline l := by rw [scan, if_pos rfl]
  scan_encode x rest := by
    rw [encode, List.cons_append, scan, if_neg (by decide), if_pos rfl, List.append_assoc,
      scanOnes_replicate, Nat.zero_add]
    exact scanOnes_code hcode x rest
  scan_prefix x p hp hne := by
    cases p with
    | nil => rfl
    | cons c p =>
      obtain ⟨rfl, hones⟩ := List.cons_prefix_cons.1 hp
      rcases List.prefix_concat_iff.1 hones with rfl | hones
      · exact absurd rfl hne
      · obtain ⟨_, hones⟩ := List.prefix_replicate_iff.1 hones
        rw [scan, if_neg (by decide), if_pos rfl, hones, ← List.append_nil (List.replicate _ _),
          scanOnes_replicate]
        rfl
  scan_infix _ l y rest _ h := (weight_scan hcode h).le

end Numbered

end Wire

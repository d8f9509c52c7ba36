import CloudPing.Wire.LineScanner

/-!
# Relaying the lines of a text

A `LineLoop` reads the lines of a text and sends events for them.  It returns at a line whose
events say so, at an error of the scanner that it sees inside the loop, or when a context is
done; and it may look at the error of the scanner once more, behind the loop.

`Delivered` is what such a loop is for: the events of the lines, in order, and one more event
with an error if the reading ended before the text did.  A scanner that has no line left says
nothing of its error inside the loop, so a loop that does not look behind it is silent about
a line that is too long, and about a read that fails between two lines.  Inside the loop the
first line that comes with an error is dropped, and all the complete lines behind it.
`delivered_iff` says exactly when the loop does what it is for.
-/

namespace Wire

variable {E : Type} {α : Type}

/-! ## What a loop is for -/

/-- The events of some lines, where `none` is a line that cannot be relayed, and an error if
what was read is not complete. -/
inductive Relayed (events : List UInt8 → Option (List E)) (isError : E → Prop) (complete : Prop) :
    List (List UInt8) → List E → Prop where
  | complete : complete → Relayed events isError complete [] []
  | broken {e : E} : ¬complete → isError e → Relayed events isError complete [] [e]
  | unreadable {line : List UInt8} {lines : List (List UInt8)} {e : E} :
      events line = none → isError e → Relayed events isError complete (line :: lines) [e]
  | line {line : List UInt8} {lines : List (List UInt8)} {evs out : List E} :
      events line = some evs → Relayed events isError complete lines out →
        Relayed events isError complete (line :: lines) (evs ++ out)

/-- What is seen until a context is done, by the number of times it is found not done. -/
def seen (checks : Option Nat) (l : List α) : List α :=
  match checks with
  | none => l
  | some n => l.take n

/-- The events of the lines that are seen, which are all there is if all are seen at the end of
the text. -/
def DeliveredLines (events : List UInt8 → Option (List E)) (isError : E → Prop) (eof : Prop)
    (checks : Option Nat) (lines : List (List UInt8)) (out : List E) : Prop :=
  Relayed events isError (eof ∧ seen checks lines = lines) ((seen checks lines).map dropCR) out

/-- The events of a text as it was read until the context was done. -/
def Delivered (events : List UInt8 → Option (List E)) (isError : E → Prop) (r : Reading)
    (checks : Option Nat) (out : List E) : Prop :=
  DeliveredLines events isError (r.stop = .eof) checks r.textLines out

@[simp] theorem seen_nil (checks : Option Nat) : seen checks ([] : List α) = [] := by
  cases checks <;> simp [seen]

@[simp] theorem seen_zero (l : List α) : seen (some 0) l = [] := rfl

theorem seen_cons {checks : Option Nat} (h : checks ≠ some 0) (a : α) (l : List α) :
    seen checks (a :: l) = a :: seen (checks.map (· - 1)) l := by
  match checks with
  | none => rfl
  | some 0 => exact absurd rfl h
  | some (n + 1) => rfl

section Relayed

variable {events : List UInt8 → Option (List E)} {isError : E → Prop} {complete : Prop}
  {line : List UInt8} {lines : List (List UInt8)} {evs out : List E} {e : E}

theorem relayed_line (h : events line = some evs) :
    Relayed events isError complete (line :: lines) (evs ++ out) ↔
      Relayed events isError complete lines out := by
  constructor
  · intro hr
    generalize hl : line :: lines = l, ho : evs ++ out = o at hr
    cases hr with
    | complete => cases hl
    | broken => cases hl
    | unreadable hnone =>
      obtain ⟨rfl, rfl⟩ := List.cons.inj hl
      rw [h] at hnone
      cases hnone
    | line hevs hr =>
      obtain ⟨rfl, rfl⟩ := List.cons.inj hl
      rw [h] at hevs
      obtain rfl := Option.some.inj hevs
      rwa [List.append_cancel_left ho]
  · exact .line h

/-- Nothing at all is complete if what was read was. -/
theorem complete_of_relayed_nil (h : Relayed events isError complete lines []) : complete := by
  generalize ho : ([] : List E) = o at h
  induction h with
  | complete hc => exact hc
  | broken => cases ho
  | unreadable => cases ho
  | line _ _ ih => exact ih (List.append_eq_nil_iff.1 ho.symm).2.symm

/-- All the lines of a complete text, if each of them can be relayed. -/
theorem eq_flatMap_of_relayed (h : Relayed events isError complete lines out) (hc : complete)
    (hl : ∀ line ∈ lines, events line ≠ none) :
    out = lines.flatMap fun line => (events line).getD [] := by
  induction h with
  | complete => rfl
  | broken hb => exact absurd hc hb
  | unreadable hnone => exact absurd hnone (hl _ List.mem_cons_self)
  | line hevs _ ih =>
    rw [List.flatMap_cons, hevs, Option.getD_some, ih fun line hline =>
      hl line (List.mem_cons_of_mem _ hline)]

/-- Lines without an event, until one that cannot be relayed. -/
def Silent (events : List UInt8 → Option (List E)) : List (List UInt8) → Prop
  | [] => True
  | line :: lines => events line = none ∨ events line = some [] ∧ Silent events lines

/-- An error stands for a text that is not complete only if its lines have no events. -/
theorem relayed_error (hc : ¬complete) (he : isError e) :
    Relayed events isError complete lines [e] ↔ Silent events lines := by
  induction lines with
  | nil => exact iff_of_true (.broken hc he) trivial
  | cons line lines ih =>
    rw [Silent]
    cases hevs : events line with
    | none => exact iff_of_true (.unreadable hevs he) (Or.inl rfl)
    | some evs =>
      cases evs with
      | nil =>
        have hline : Relayed events isError complete (line :: lines) [e] ↔
            Relayed events isError complete lines [e] := relayed_line hevs
        rw [hline, ih]
        simp
      | cons ev evs =>
        refine iff_of_false (fun hr => ?_) (by simp)
        generalize ho : [e] = o at hr
        cases hr with
        | unreadable hnone =>
          rw [hevs] at hnone
          cases hnone
        | line hsome hr =>
          rw [hevs] at hsome
          obtain rfl := Option.some.inj hsome
          obtain ⟨-, hnil⟩ := List.cons.inj ho
          rw [(List.append_eq_nil_iff.1 hnil.symm).2] at hr
          exact hc (complete_of_relayed_nil hr)

end Relayed

/-! ## The loop -/

/-- A loop over the lines of a text. -/
structure LineLoop (E : Type) where
  /-- The events of a line, and whether the loop goes on. -/
  line : List UInt8 → List E × Bool
  scanError : String → E
  /-- Whether the error of the scanner is looked at behind the loop. -/
  checksEnd : Bool := false

namespace LineLoop

def run (l : LineLoop E) :
    Option Nat → List (List UInt8 × Option ReadErr) → ReadErr → List E
  | _, [], stop => if l.checksEnd then stop.err.toList.map l.scanError else []
  | checks, (line, err) :: toks, stop =>
    if checks = some 0 then []
    else
      match err.bind ReadErr.err with
      | some text => [l.scanError text]
      | none =>
        if (l.line line).2 then (l.line line).1 ++ l.run (checks.map (· - 1)) toks stop
        else (l.line line).1

/-- The events of a loop over the lines that a scanner gives of a source. -/
def relay (l : LineLoop E) (checks : Option Nat) (src : Source) : List E :=
  let toks := (LineScanner.mk {} none src).tokens
  l.run checks toks.1 toks.2

/-- The events of a line, if the loop goes on after it. -/
def events (l : LineLoop E) (line : List UInt8) : Option (List E) :=
  if (l.line line).2 then some (l.line line).1 else none

/-- The errors of a loop: that of the scanner, and that of a line at which it returns. -/
structure Reports (l : LineLoop E) (isError : E → Prop) : Prop where
  scanError : ∀ text, isError (l.scanError text)
  line : ∀ line, (l.line line).2 = false → ∃ e, isError e ∧ (l.line line).1 = [e]

/-- The loop comes through some lines, or returns at one of them with its error. -/
def Through (l : LineLoop E) (behind : Option Nat → Prop) :
    Option Nat → List (List UInt8) → Prop
  | checks, [] => behind checks
  | checks, line :: lines =>
    checks ≠ some 0 ∧
      (l.events line = none ∨ l.Through behind (checks.map (· - 1)) lines)

section Through

variable {l : LineLoop E} {isError : E → Prop} {behind : Option Nat → Prop}
  {checks : Option Nat}

theorem events_of_true {line : List UInt8} (h : (l.line line).2 = true) :
    l.events line = some (l.line line).1 := by
  rw [events, if_pos h]

theorem events_of_false {line : List UInt8} (h : (l.line line).2 = false) :
    l.events line = none := by
  rw [events, h]
  rfl

/-- A loop delivers lines that come without an error if it comes through them, and delivers what
is behind them. -/
theorem deliveredLines_append (hl : l.Reports isError) {err : Option ReadErr}
    (herr : err.bind ReadErr.err = none) {toks : List (List UInt8 × Option ReadErr)}
    {stop : ReadErr} {rest : List (List UInt8)} {eof : Prop}
    (hend : ∀ checks, DeliveredLines l.events isError eof checks rest (l.run checks toks stop) ↔
      behind checks) (checks : Option Nat) (lines : List (List UInt8)) :
    DeliveredLines l.events isError eof checks (lines ++ rest)
        (l.run checks (lines.map (fun line => (dropCR line, err)) ++ toks) stop) ↔
      l.Through behind checks (lines.map dropCR) := by
  induction lines generalizing checks with
  | nil => exact hend checks
  | cons line lines ih =>
    rw [List.map_cons, List.map_cons, List.cons_append, List.cons_append, Through, run,
      DeliveredLines]
    by_cases hc : checks = some 0
    · subst hc
      refine iff_of_false (fun h => ?_) (fun h => h.1 rfl)
      rw [if_pos rfl, seen_zero] at h
      cases (complete_of_relayed_nil h).2
    · rw [if_neg hc, seen_cons hc, List.map_cons]
      simp only [herr, List.cons.injEq, true_and]
      cases hline : (l.line (dropCR line)).2 with
      | true =>
        rw [if_pos rfl, relayed_line (events_of_true hline), events_of_true hline]
        refine (ih (checks.map (· - 1))).trans ?_
        simp [hc]
      | false =>
        obtain ⟨e, he, hevs⟩ := hl.line _ hline
        rw [if_neg Bool.false_ne_true, hevs]
        have hnone := events_of_false hline
        exact iff_of_true (.unreadable hnone he) ⟨hc, Or.inl hnone⟩

end Through

/-- What the loop does once there is an error.  At the end of the text it sees the last lines. -/
def Reported (l : LineLoop E) (r : Reading) (checks : Option Nat) : Prop :=
  match r.stop with
  | .eof => l.Through (fun _ => True) checks ((allLines r.rest).map dropCR)
  | .tooLong => l.checksEnd = true
  | .failed _ =>
    if r.rest = [] then l.checksEnd = true
    else checks ≠ some 0 ∧ Silent l.events ((seen checks (splitLines r.rest).1).map dropCR)

theorem allLines_ne_nil {s : List UInt8} (h : s ≠ []) : allLines s ≠ [] := by
  intro hnil
  obtain ⟨hlines, htail⟩ := List.append_eq_nil_iff.1 hnil
  have htext := unlines_splitLines s
  split at htail
  · next h2 =>
    rw [hlines, h2] at htext
    exact h htext.symm
  · cases htail

variable {l : LineLoop E} {isError : E → Prop} {checks : Option Nat}

/-- Without a line to come, an error is reported if the loop looks behind. -/
theorem delivered_nil (hl : l.Reports isError) {stop : ReadErr} {text : String}
    (hstop : stop.err = some text) {eof : Prop} (heof : ¬eof) :
    DeliveredLines l.events isError eof checks [] (l.run checks [] stop) ↔
      l.checksEnd = true := by
  rw [DeliveredLines, seen_nil, run, hstop]
  cases l.checksEnd with
  | true => exact iff_of_true (.broken (fun h => heof h.1) (hl.scanError text)) rfl
  | false => exact iff_of_false (fun h => heof (complete_of_relayed_nil h).1) Bool.false_ne_true

/-- The first line that comes with an error is dropped, with all those behind it. -/
theorem delivered_failed (hl : l.Reports isError) {stop : ReadErr} {text : String}
    (hstop : stop.err = some text) {eof : Prop} (heof : ¬eof)
    {late : List (List UInt8)} (hlate : late ≠ []) (lines : List (List UInt8)) :
    DeliveredLines l.events isError eof checks lines
        (l.run checks (late.map fun line => (dropCR line, some stop)) stop) ↔
      checks ≠ some 0 ∧ Silent l.events ((seen checks lines).map dropCR) := by
  cases late with
  | nil => exact absurd rfl hlate
  | cons line late =>
    have hbind : (some stop).bind ReadErr.err = some text := hstop
    rw [List.map_cons, run, DeliveredLines]
    simp only [hbind]
    by_cases hc : checks = some 0
    · rw [if_pos hc]
      exact iff_of_false (fun h => heof (complete_of_relayed_nil h).1) fun h => h.1 hc
    · rw [if_neg hc, relayed_error (fun h => heof h.1) (hl.scanError text)]
      exact (and_iff_right hc).symm

theorem delivered_late (hl : l.Reports isError) (r : Reading) (hr : r.Bounded)
    (checks : Option Nat) :
    DeliveredLines l.events isError (r.stop = .eof) checks
        (if r.stop = .eof then allLines r.rest else (splitLines r.rest).1)
        (l.run checks (r.late.map fun line => (dropCR line, some r.stop)) r.stop) ↔
      l.Reported r checks := by
  rw [Reported, Reading.late]
  cases hstop : r.stop with
  | eof =>
    have hend : ∀ checks, DeliveredLines l.events isError (ReadErr.eof = .eof) checks []
        (l.run checks [] .eof) ↔ True := by
      intro checks
      rw [DeliveredLines, seen_nil, run]
      refine iff_of_true ?_ trivial
      split <;> exact .complete ⟨rfl, rfl⟩
    have happ : DeliveredLines l.events isError (ReadErr.eof = .eof) checks
        (allLines r.rest ++ [])
        (l.run checks ((allLines r.rest).map (fun line => (dropCR line, some .eof)) ++ []) .eof) ↔
          l.Through (fun _ => True) checks ((allLines r.rest).map dropCR) :=
      deliveredLines_append hl rfl hend checks (allLines r.rest)
    rw [List.append_nil, List.append_nil] at happ
    exact happ
  | tooLong =>
    have hrest : (splitLines r.rest).1 = [] := by
      rw [splitLines_of_notMem (hr.full hstop).1]
    rw [if_neg (by rintro ⟨⟩), if_pos rfl, hrest]
    exact delivered_nil hl rfl (by rintro ⟨⟩)
  | failed text =>
    rw [if_neg (by rintro ⟨⟩), if_neg (by rintro ⟨⟩)]
    dsimp only
    split
    · next hnil =>
      rw [hnil]
      exact delivered_nil hl rfl (by rintro ⟨⟩)
    · next hne => exact delivered_failed hl rfl (by rintro ⟨⟩) (allLines_ne_nil hne) _

/-- A loop does what it is for exactly if it comes through the lines before the last read, or
returns at one of them, and what it does then reports the error. -/
theorem delivered_iff (hl : l.Reports isError) (checks : Option Nat) (src : Source) :
    Delivered l.events isError src.reading checks (l.relay checks src) ↔
      l.Through (l.Reported src.reading) checks (src.reading.lines.map dropCR) := by
  rw [Delivered, src.textLines_reading, relay, LineScanner.tokens_eq]
  exact deliveredLines_append hl rfl (delivered_late hl src.reading src.bounded_reading) checks
    src.reading.lines

/-! ### Loops without a context, and loops that never return at a line -/

theorem through_none {behind : Option Nat → Prop} (lines : List (List UInt8)) :
    l.Through behind none lines ↔ (∃ line ∈ lines, l.events line = none) ∨ behind none := by
  induction lines with
  | nil => simp [Through]
  | cons line lines ih =>
    rw [Through, Option.map_none, ih, List.exists_mem_cons_iff, or_assoc]
    exact and_iff_right (by rintro ⟨⟩)

/-- The context is found not done so many times. -/
def Lasts (checks : Option Nat) (n : Nat) : Prop := ∀ k, checks = some k → n ≤ k

theorem lasts_zero (checks : Option Nat) : Lasts checks 0 := fun _ _ => Nat.zero_le _

theorem lasts_add {checks : Option Nat} {n m : Nat} :
    Lasts checks (n + m) ↔ Lasts checks n ∧ Lasts (checks.map (· - n)) m := by
  cases checks with
  | none => simp [Lasts]
  | some k =>
    simp only [Lasts, Option.map_some, Option.some.injEq, forall_eq']
    omega

theorem lasts_one {checks : Option Nat} : Lasts checks 1 ↔ checks ≠ some 0 := by
  match checks with
  | none => simp [Lasts]
  | some 0 => simp [Lasts]
  | some (k + 1) => simp [Lasts]

theorem through_readable (hall : ∀ line, l.events line ≠ none) {behind : Option Nat → Prop}
    (checks : Option Nat) (lines : List (List UInt8)) :
    l.Through behind checks lines ↔
      Lasts checks lines.length ∧ behind (checks.map (· - lines.length)) := by
  induction lines generalizing checks with
  | nil =>
    have hmap : checks.map (· - 0) = checks := by cases checks <;> rfl
    rw [Through, List.length_nil, hmap]
    exact (and_iff_right (lasts_zero checks)).symm
  | cons line lines ih =>
    have hmap : (checks.map (· - 1)).map (· - lines.length) =
        checks.map (· - (line :: lines).length) := by
      rw [Option.map_map, List.length_cons]
      congr 1
      funext k
      simp only [Function.comp]
      omega
    rw [Through, ih, or_iff_right (hall line), hmap, ← and_assoc, ← lasts_one, ← lasts_add,
      List.length_cons, Nat.add_comm]

theorem silent_readable {events : List UInt8 → Option (List E)}
    (hall : ∀ line, events line ≠ none) (lines : List (List UInt8)) :
    Silent events lines ↔ ∀ line ∈ lines, events line = some [] := by
  induction lines with
  | nil => simp [Silent]
  | cons line lines ih => rw [Silent, or_iff_right (hall line), ih, List.forall_mem_cons]

theorem silent_head {events : List UInt8 → Option (List E)}
    (hne : ∀ line, events line ≠ some []) (lines : List (List UInt8)) :
    Silent events lines ↔ ∀ line ∈ lines.head?, events line = none := by
  cases lines with
  | nil => simp [Silent]
  | cons line lines => simp [Silent, hne line]

/-- What a loop that never returns at a line needs: a context that lasts, and an error that it
sees, without a line in the way that has events. -/
def Completes (l : LineLoop E) (r : Reading) (checks : Option Nat) : Prop :=
  match r.stop with
  | .eof => Lasts checks r.textLines.length
  | .tooLong => Lasts checks r.lines.length ∧ l.checksEnd = true
  | .failed _ =>
    if r.rest = [] then Lasts checks r.lines.length ∧ l.checksEnd = true
    else Lasts checks (r.lines.length + 1) ∧
      ∀ line ∈ seen (checks.map (· - r.lines.length)) (splitLines r.rest).1,
        (l.line (dropCR line)).1 = []

theorem completes_iff (hall : ∀ line, (l.line line).2 = true) (src : Source)
    (checks : Option Nat) :
    Lasts checks src.reading.lines.length ∧
        l.Reported src.reading (checks.map (· - src.reading.lines.length)) ↔
      l.Completes src.reading checks := by
  have hevents : ∀ line, l.events line = some (l.line line).1 := fun line =>
    events_of_true (hall line)
  have hread : ∀ line, l.events line ≠ none := by
    intro line
    rw [hevents]
    rintro ⟨⟩
  have hlines := src.textLines_reading
  rw [Reported, Completes]
  cases hstop : src.reading.stop with
  | eof =>
    rw [hstop, if_pos rfl] at hlines
    dsimp only
    rw [through_readable hread, and_iff_left trivial, List.length_map, ← lasts_add, hlines,
      List.length_append]
  | tooLong => exact Iff.rfl
  | failed text =>
    dsimp only
    split
    · exact Iff.rfl
    · rw [silent_readable hread, ← and_assoc, ← lasts_one, ← lasts_add]
      simp only [List.forall_mem_map, hevents, Option.some.injEq]

/-- A loop that never returns at a line. -/
theorem delivered_iff_completes (hl : l.Reports isError) (hall : ∀ line, (l.line line).2 = true)
    (checks : Option Nat) (src : Source) :
    Delivered l.events isError src.reading checks (l.relay checks src) ↔
      l.Completes src.reading checks := by
  have hread : ∀ line, l.events line ≠ none := by
    intro line
    rw [events_of_true (hall line)]
    rintro ⟨⟩
  rw [delivered_iff hl, through_readable hread, List.length_map, completes_iff hall]

end LineLoop

end Wire

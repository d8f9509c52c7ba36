import CloudPing.Handler.ConnHandler

/-!
# The idle timer at shutdown

The first deferred call of a handler sets `gcTimer` to nil while goroutines of the
connection still run.  A goroutine that has handled a message then calls `Reset` on nil,
and the process ends.  The connection is closed only after that, and a goroutine can hold
messages it has read before.

`settled` is the exact condition under which this does not happen.
-/

namespace CloudPing.Handler

open Conc

namespace HandlerRun

variable {h : ConnHandler} {s t : HandlerRun} {a : HandlerAction}

/-- No `Reset` was called on nil. -/
def TimerSafe (s : HandlerRun) : Prop := s.panic ≠ some .nilTimer

/-- Some goroutine is about to reset the timer. -/
def aboutToReset (s : HandlerRun) : Bool := s.readers.any (· = .resetting)

/-- The handler leaves its select when no goroutine is about to reset the timer, and after
that no message is handled without an error. -/
def settled : Policy HandlerRun HandlerAction := fun s a =>
  match a with
  | .takeTimer | .takeErr | .meetErr _ => s.aboutToReset = false
  | .handled _ none => s.main = .select
  | _ => True

instance : ∀ s a, Decidable (settled s a) := fun s a =>
  match a with
  | .takeTimer | .takeErr | .meetErr _ => inferInstanceAs (Decidable (s.aboutToReset = false))
  | .handled _ none => inferInstanceAs (Decidable (s.main = .select))
  | .timerFires | .stopTimer | .closeConn | .accept | .acceptErr _ | .read _ | .drop _
  | .readEnd _ | .readErr _ _ | .handled _ (some _) | .reset _ | .sendErr _ => isTrue trivial

theorem settled_leaves (ha : a.leaves = true) (hok : settled s a) : s.aboutToReset = false := by
  cases a with
  | takeTimer | takeErr | meetErr src => exact hok
  | _ => cases ha

theorem aboutToReset_iff : s.aboutToReset = true ↔ ∃ i : Nat, s.readers[i]? = some .resetting := by
  rw [aboutToReset, List.any_eq_true]
  constructor
  · rintro ⟨pc, hpc, he⟩
    obtain ⟨i, hi⟩ := List.mem_iff_getElem?.1 hpc
    exact ⟨i, by rw [hi, of_decide_eq_true he]⟩
  · rintro ⟨i, hi⟩
    exact ⟨.resetting, List.mem_of_getElem? hi, rfl⟩

/-! ## The condition is enough -/

/-- `gcTimer` is nil once the first deferred call has run, and not before. -/
def Timed (s : HandlerRun) : Prop :=
  s.gcTimer.isSome = true ↔ s.main = .select ∨ s.main = .stopping

theorem Timed.move (hs : s.Timed) (hm : Move s a t) : t.Timed := by
  cases hm with
  | left ha hm hm' hg =>
    have hsome := hs.2 (Or.inl hm)
    exact ⟨fun _ => Or.inr hm', fun _ => hg.trans hsome⟩
  | stopped hm => simp [Timed]
  | closed hm =>
    have hno : ¬ s.gcTimer.isSome = true := fun hg => by simpa [hm] using hs.1 hg
    exact ⟨fun hg => absurd hg hno, by rintro (he | he) <;> cases he⟩
  | went hm hg => rw [Timed, hg, hm]; exact hs
  | handled => exact hs
  | wasReset =>
    unfold resetTimer
    split
    next b hg =>
      rw [Timed, hg] at hs
      exact hs
    next => exact hs

theorem timed {ok : Policy HandlerRun HandlerAction} (hr : (system h).Reachable ok s) : s.Timed :=
  hr.invariant (by simp [Timed, system, start]) fun _ _ _ hs _ hst => hs.move (step_move hst)

/-- Once the handler has left its select, no goroutine is about to reset the timer. -/
structure Quiet (s : HandlerRun) : Prop where
  quiet : s.main ≠ .select → ∀ pc ∈ s.readers, pc ≠ .resetting
  safe : s.TimerSafe

theorem Quiet.move (hs : s.Quiet) (ht : s.Timed) (hok : settled s a) (hm : Move s a t) :
    t.Quiet := by
  cases hm with
  | left ha hm hm' hg hr hp =>
    have hno := settled_leaves ha hok
    refine ⟨fun _ pc hpc => ?_, by rw [TimerSafe, hp]; exact hs.safe⟩
    rcases hr pc hpc with hpc | hne
    · rintro rfl
      have hyes : s.aboutToReset = true := List.any_eq_true.2 ⟨_, hpc, rfl⟩
      rw [hno] at hyes
      cases hyes
    · exact hne
  | stopped hm => exact ⟨fun _ => hs.quiet (by simp [hm]), hs.safe⟩
  | closed hm => exact ⟨fun _ => hs.quiet (by simp [hm]), hs.safe⟩
  | went hm hg hr hp =>
    refine ⟨fun hne pc hpc => ?_, by rw [TimerSafe, hp]; exact hs.safe⟩
    rw [hm] at hne
    exact (hr pc hpc).elim (hs.quiet hne pc) id
  | handled hi => exact ⟨fun hne => absurd hok hne, hs.safe⟩
  | @wasReset i hi =>
    -- somebody resets, so the handler is at its select and the timer is there
    have hsel : s.main = .select := by
      by_contra hne
      exact hs.quiet hne _ (List.mem_of_getElem? hi) rfl
    obtain ⟨b, hg⟩ := Option.isSome_iff_exists.1 (ht.2 (Or.inl hsel))
    rw [resetTimer, hg]
    exact ⟨fun hne => absurd hsel hne, hs.safe⟩

theorem quiet (hr : (system h).Reachable settled s) : s.Quiet := by
  refine hr.invariant_with (fun _ hr => timed hr) ⟨fun hne => absurd rfl hne, ?_⟩
    fun _ _ _ ht hs hok hst => hs.move ht hok (step_move hst)
  show (if h.timeout = 0 then some HandlerPanic.timeoutNotSet else none) ≠ some .nilTimer
  split <;> simp

/-! ## The condition is needed -/

/-- With `gcTimer` nil, a goroutine about to reset it panics. -/
theorem panics_of_nil {i : Nat} (hal : s.panic = none) (hi : s.readers[i]? = some .resetting)
    (hg : s.gcTimer = none) : ∃ u, (system h).Reach settled s u ∧ ¬ u.TimerSafe := by
  have hst : (system h).step s (.reset i) = some { s with panic := some .nilTimer } := by
    simp [system, step, stepReader, resetTimer, hal, hi, hg]
  exact ⟨_, .head hst trivial .refl, fun hs => hs rfl⟩

/-- When the handler has left its select, it does not wait for a goroutine that is about to
reset the timer. -/
theorem panics (ht : s.Timed) {i : Nat} (hal : s.panic = none)
    (hi : s.readers[i]? = some .resetting) (hm : s.main ≠ .select) :
    ∃ u, (system h).Reach settled s u ∧ ¬ u.TimerSafe := by
  by_cases hstop : s.main = .stopping
  · have hst : (system h).step s .stopTimer =
        some { s with main := .closing, gcTimer := none } := by
      simp [system, step, stepMain, hal, hstop]
    obtain ⟨u, hu, hno⟩ := panics_of_nil (h := h)
      (s := { s with main := .closing, gcTimer := none }) hal hi rfl
    exact ⟨u, .head hst trivial hu, hno⟩
  · refine panics_of_nil hal hi ?_
    rw [← Option.not_isSome_iff_eq_none]
    intro hg
    exact (ht.1 hg).elim hm hstop

/-- A goroutine that is about to reset the timer still is when the handler leaves. -/
theorem leaves_keeps {i : Nat} (ha : a.leaves = true) (hi : s.readers[i]? = some .resetting)
    (hst : s.step h a = some t) :
    t.panic = none ∧ t.readers[i]? = some .resetting ∧ t.main = .stopping := by
  have hal := alive_of_step hst
  cases a with
  | takeTimer =>
    have hst' : s.stepMain .takeTimer = some t := by simpa [step, hal] using hst
    obtain ⟨_, ht⟩ := Option.ite_none_right_eq_some.1 hst'
    cases ht
    exact ⟨hal, hi, rfl⟩
  | takeErr =>
    have hst' : s.stepMain .takeErr = some t := by simpa [step, hal] using hst
    obtain ⟨_, ht⟩ := Option.ite_none_right_eq_some.1 hst'
    obtain ⟨_, _, rfl⟩ := Option.map_eq_some_iff.1 ht
    exact ⟨hal, hi, rfl⟩
  | meetErr src =>
    have hst' : s.stepMain (.meetErr src) = some t := by simpa [step, hal] using hst
    obtain ⟨_, ht⟩ := Option.ite_none_right_eq_some.1 hst'
    obtain ⟨err, he, rfl⟩ := Option.map_eq_some_iff.1 ht
    refine ⟨(errSent_panic s src).trans hal, ?_, rfl⟩
    cases src with
    | acceptor => exact hi
    | reader j =>
      -- the sender is another goroutine
      have hne : j ≠ i := by
        rintro rfl
        simp [pendingErr, hi] at he
      exact (List.getElem?_set_ne hne).trans hi
  | _ => cases ha

/-! ## The promise -/

/-- `settled` is the exact condition under which no `Reset` is called on nil, for every
handler of the two kinds. -/
theorem settled_guards (h : ConnHandler) : (system h).Guards settled TimerSafe where
  safe := fun s hr => (quiet hr).safe
  tight := by
    intro s a t hr hst hno
    have hst : s.step h a = some t := hst
    have htt := (timed hr).move (step_move hst)
    cases a with
    | takeTimer | takeErr | meetErr src =>
      obtain ⟨i, hi⟩ := aboutToReset_iff.1 (eq_true_of_ne_false hno)
      obtain ⟨hal, hi', hm⟩ := leaves_keeps rfl hi hst
      exact panics htt hal hi' (by rw [hm]; simp)
    | handled i err =>
      cases err with
      | some err => exact absurd trivial hno
      | none =>
        have hal := alive_of_step hst
        have hst' : s.stepReader h (.handled i none) = some t := by simpa [step, hal] using hst
        obtain ⟨hi, ht⟩ := Option.ite_none_right_eq_some.1 hst'
        cases ht
        obtain ⟨hlt, _⟩ := List.getElem?_eq_some_iff.1 hi
        exact panics htt hal (List.getElem?_set_self hlt) hno
    | _ => exact absurd trivial hno

/-- An idle agent's message is handled while the timer fires, over QUIC and over a
WebSocket. -/
theorem reset_nil :
    (¬ ∀ s, (system (QUICHandler 60)).Reachable Policy.any s → s.TimerSafe) ∧
      ¬ ∀ s, (system (WebsocketHandler 60)).Reachable Policy.any s → s.TimerSafe := by
  refine ⟨fun hs => ?_, fun hs => ?_⟩
  · obtain ⟨s, hr, hp⟩ := System.exists_of_replay (system (QUICHandler 60)) Policy.any
      (fun s => s.panic = some .nilTimer)
      [.accept, .read 0, .timerFires, .takeTimer, .handled 0 none, .stopTimer, .reset 0]
      (by decide +kernel)
    exact hs s hr (of_decide_eq_true hp)
  · obtain ⟨s, hr, hp⟩ := System.exists_of_replay (system (WebsocketHandler 60)) Policy.any
      (fun s => s.panic = some .nilTimer)
      [.read 0, .timerFires, .takeTimer, .handled 0 none, .stopTimer, .reset 0]
      (by decide +kernel)
    exact hs s hr (of_decide_eq_true hp)

end HandlerRun

end CloudPing.Handler

import CloudPing.Httpprobe.SendRequest

/-!
# The logger is closed

The goroutine of `sendRequest` closes the event channel when it ends.  A dial that was
started for a round trip can outlive it: the client gives up after its timeout, the round
trip ends with an error, and the dial still has its result to log.  Its `Log` is then a
send on a closed channel.

`dialsReturned` is the exact condition under which this does not happen.
-/

namespace CloudPing.Httpprobe

open Conc

namespace ProbeRun

variable {probe : HTTPProbe} {s t : ProbeRun} {a : ProbeAction}

/-- No `Log` sends on the closed channel, and none waits at its send when the channel is
closed. -/
structure LogSafe (s : ProbeRun) : Prop where
  alive : s.panic ≠ some .sendOnClosed
  noLog : s.evClosed = true → ∀ pc ∈ s.dials, pc.atLog = false

/-- The logger is closed only when every dial has returned. -/
def dialsReturned : Policy ProbeRun ProbeAction := fun s a =>
  match a with
  | .closeLogger => ∀ pc ∈ s.dials, pc = .returned
  | _ => True

instance : ∀ s a, Decidable (dialsReturned s a) := fun s a =>
  match a with
  | .closeLogger => inferInstanceAs (Decidable (∀ pc ∈ s.dials, pc = .returned))
  | .getTransport _ | .newRequest _ | .send _ | .startDial _ _ | .roundTripOk _ | .roundTripErr _
  | .redirect | .doErr _ | .doOk | .readErr | .readBody _ | .log | .passErr | .closeErr
  | .lookup _ _ | .dialed .. | .dialLog _ | .forward | .evClosed | .errClosed => isTrue trivial

/-! ## The condition is enough -/

/-- The channel is closed by the deferred call, and then no dial is left. -/
structure Drained (s : ProbeRun) : Prop where
  closed : s.evClosed = true → s.main.closed = true
  dials : s.evClosed = true → ∀ pc ∈ s.dials, pc = .returned
  alive : s.panic ≠ some .sendOnClosed

namespace Drained

theorem start : Drained start where
  closed := by intro h; cases h
  dials := by intro h; cases h
  alive := by simp [ProbeRun.start]

/-- While `sendRequest` is before its deferred calls, the channel is open. -/
theorem open_of (h : s.Drained) (hm : s.main.closed = false) : s.evClosed = false := by
  cases he : s.evClosed with
  | false => rfl
  | true =>
    rw [h.closed he] at hm
    cases hm

theorem move (h : s.Drained) (hok : dialsReturned s a) (hm : Move s a t) : t.Drained := by
  cases hm with
  | went hm hm' hd he hp =>
    have ho := h.open_of hm
    refine ⟨fun hc => ?_, fun hc => ?_, ?_⟩
    · rw [he, ho] at hc; cases hc
    · rw [he, ho] at hc; cases hc
    · rcases hp with hp | hp
      · rw [hp]; exact h.alive
      · exact hp
  | started hm =>
    have ho := h.open_of (by rw [hm]; rfl)
    refine ⟨fun hc => ?_, fun hc => ?_, h.alive⟩
    · rw [show s.evClosed = true from hc] at ho; cases ho
    · rw [show s.evClosed = true from hc] at ho; cases ho
  | closedLogger => exact ⟨fun _ => rfl, fun _ => hok, h.alive⟩
  | closedErr => exact ⟨fun _ => rfl, h.dials, h.alive⟩
  | dialed hi hne hm hd he hp =>
    -- a dial is left, so the channel is open
    have ho : s.evClosed ≠ true := fun hc => hne (h.dials hc _ (List.mem_of_getElem? hi))
    refine ⟨fun hc => ?_, fun hc => ?_, by rw [hp]; exact h.alive⟩
    · exact absurd (he ▸ hc) ho
    · exact absurd (he ▸ hc) ho
  | read hm hd he hp =>
    exact ⟨by rw [he, hm]; exact h.closed, by rw [he, hd]; exact h.dials, by rw [hp]; exact h.alive⟩
  | panicked hc hl =>
    rcases hl with hl | ⟨pc, hpc, hl⟩
    · rw [h.closed hc] at hl
      cases hl
    · rw [h.dials hc pc hpc] at hl
      cases hl

theorem logSafe (h : s.Drained) : s.LogSafe where
  alive := h.alive
  noLog := fun hc pc hpc => by rw [h.dials hc pc hpc]; rfl

end Drained

theorem drained (h : (system probe).Reachable dialsReturned s) : s.Drained :=
  h.invariant Drained.start fun _ _ _ hs hok hst => hs.move hok (step_move hst)

/-! ## The condition is needed -/

/-- A dial that goes on logs once more. -/
theorem logs_again {i : Nat} {pc : DialPC} (hal : s.panic = none) (hc : s.evClosed = true)
    (hi : s.dials[i]? = some pc) (hne : pc ≠ .returned) :
    ∃ u, (system probe).Reach dialsReturned s u ∧ ¬ u.LogSafe := by
  have here {s : ProbeRun} {pc : DialPC} (hc : s.evClosed = true) (hi : s.dials[i]? = some pc)
      (hl : pc.atLog = true) : ¬ s.LogSafe := fun hs => by
    rw [hs.noLog hc pc (List.mem_of_getElem? hi)] at hl
    cases hl
  obtain ⟨hlt, _⟩ := List.getElem?_eq_some_iff.1 hi
  cases pc with
  | lookingUp network addr =>
    have hst : (system probe).step s (.lookup i (.splitError "")) =
        some { s with dials := s.dials.set i (.finishing (splitError addr "")) } := by
      simp [system, step, stepDial, hal, hi, lookup]
    exact ⟨_, .head hst trivial .refl, here hc (List.getElem?_set_self hlt) rfl⟩
  | dialing network addr =>
    have hst : (system probe).step s (.dialed i (some "") "" "") =
        some { s with dials := s.dials.set i (.finishing (dialError "")) } := by
      simp [system, step, stepDial, hal, hi, finish]
    exact ⟨_, .head hst trivial .refl, here hc (List.getElem?_set_self hlt) rfl⟩
  | returned => exact absurd rfl hne
  | _ => exact ⟨s, .refl, here hc hi rfl⟩

/-! ## The promise -/

/-- `dialsReturned` is the exact condition under which no `Log` meets the closed channel. -/
theorem dialsReturned_guards (probe : HTTPProbe) :
    (system probe).Guards dialsReturned LogSafe where
  safe := fun s h => (drained h).logSafe
  tight := by
    intro s a t _ hst hno
    have hst : s.step probe a = some t := hst
    have hal := alive_of_step hst
    cases a with
    | closeLogger =>
      have hst' : s.stepMain probe .closeLogger = some t := by simpa [step, hal] using hst
      obtain ⟨_, ht⟩ := Option.ite_none_right_eq_some.1 hst'
      cases ht
      obtain ⟨pc, hpc, hne⟩ := not_forall₂.1 hno
      obtain ⟨i, hi⟩ := List.mem_iff_getElem?.1 hpc
      exact logs_again hal rfl hi hne
    | _ => exact absurd trivial hno

/-- A probe with the defaults. -/
def sampleProbe : HTTPProbe := ⟨none, none, none, none⟩

def sampleRequest : Request := ⟨"GET", "http://192.0.2.1/", "/", "HTTP/1.1", []⟩

/-- One event is logged by the goroutine of `sendRequest`, and read. -/
def logOne : List ProbeAction := [.log, .forward]

/-- The dial of a target that does not answer outlives the client's timeout. -/
theorem log_on_closed :
    ¬ ∀ s, (system sampleProbe).Reachable Policy.any s → s.LogSafe := by
  intro h
  obtain ⟨s, hr, hp⟩ := System.exists_of_replay (system sampleProbe) Policy.any
    (fun s => s.panic = some .sendOnClosed)
    (([.getTransport none, .newRequest true, .send sampleRequest] : List ProbeAction) ++
      logOne ++ logOne ++ logOne ++ logOne ++
      ([.startDial "tcp" "192.0.2.1:80", .dialLog 0, .forward,
        .lookup 0 (.ips "192.0.2.1" ["192.0.2.1"] "192.0.2.1:80"), .dialLog 0, .forward,
        .dialLog 0, .forward, .roundTripErr "context deadline exceeded", .passErr, .forward,
        .closeLogger, .dialed 0 (some "i/o timeout") "" "", .dialLog 0] : List ProbeAction))
    (by decide +kernel)
  exact (h s hr).alive (of_decide_eq_true hp)

end ProbeRun

end CloudPing.Httpprobe

import Mathlib.Logic.Basic

/-!
# Consumers of a stream

`processMRTStream` and `processIPQueryStream` go through a stream in the same way: they wait for
its promise, take a reader, and read until the end.  They differ in what they make of the state
(`Consumer`).

Before each change they ask whether the stream has been aborted, and if so leave the state as it
is.  A rejection with an `AbortError` leaves it as it is in any case (`Outcome`).
-/

namespace CloudPing.Web

variable {M V : Type}

/-- What is made of the state: if there is no reader, at the end, for a value, if a read or what is
done with a value throws, and if the promise is rejected. -/
structure Consumer (M V : Type) where
  noReader : M → M
  done : M → M
  value : V → M → M
  readError : String → M → M
  rejected : String → M → M

inductive StreamPhase where
  | fetching
  /-- The first `then` has returned a reader, or null. -/
  | opened (hasReader : Bool)
  | reading
  | ended
  deriving DecidableEq

inductive StreamEvent (V : Type) where
  | opened
  | started
  | value (value : V)
  | done
  | readError (message : String)
  | rejected (name message : String)

/-- What the stream failed with. -/
def StreamEvent.failure : StreamEvent V → Option String
  | .readError message => some message
  | .rejected _ message => some message
  | _ => none

namespace Consumer

/-- One turn of the consumer. -/
def step (c : Consumer M V) (alive : Bool) :
    StreamPhase → StreamEvent V → M → Option (StreamPhase × M)
  | .fetching, .opened, m => some (.opened alive, m)
  | .fetching, .rejected name message, m =>
    if name = "AbortError" then some (.ended, m)
    else some (.ended, if alive then c.rejected message m else m)
  | .opened true, .started, m => some (.reading, m)
  | .opened false, .started, m => some (.ended, if alive then c.noReader m else m)
  | .reading, .value value, m =>
    if alive then some (.reading, c.value value m) else some (.ended, m)
  | .reading, .done, m => some (.ended, if alive then c.done m else m)
  | .reading, .readError message, m => some (.ended, if alive then c.readError message m else m)
  | _, _, _ => none

/-- What a turn makes of the state. -/
inductive Outcome (c : Consumer M V) : Bool → StreamPhase → StreamEvent V → M → StreamPhase → M →
    Prop where
  | aborted {phase phase' : StreamPhase} {ev : StreamEvent V} {m : M} :
      Outcome c false phase ev m phase' m
  | opened {m : M} : Outcome c true .fetching .opened m (.opened true) m
  | started {m : M} : Outcome c true (.opened true) .started m .reading m
  | value {value : V} {m : M} :
      Outcome c true .reading (.value value) m .reading (c.value value m)
  | noReader {m : M} : Outcome c true (.opened false) .started m .ended (c.noReader m)
  | done {m : M} : Outcome c true .reading .done m .ended (c.done m)
  | readError {message : String} {m : M} :
      Outcome c true .reading (.readError message) m .ended (c.readError message m)
  | rejected {name message : String} {m : M} (hname : name ≠ "AbortError") :
      Outcome c true .fetching (.rejected name message) m .ended (c.rejected message m)
  | abortError {message : String} {m : M} :
      Outcome c true .fetching (.rejected "AbortError" message) m .ended m

variable {c : Consumer M V} {alive : Bool} {phase phase' : StreamPhase} {ev : StreamEvent V}
  {m m' : M}

theorem step_outcome (h : c.step alive phase ev m = some (phase', m')) :
    phase ≠ .ended ∧ Outcome c alive phase ev m phase' m' := by
  cases phase with
  | fetching =>
    refine ⟨nofun, ?_⟩
    cases ev with
    | opened =>
      cases h
      cases alive with
      | true => exact .opened
      | false => exact .aborted
    | rejected name message =>
      rw [step] at h
      split at h
      next hname =>
        cases h
        subst hname
        cases alive with
        | true => exact .abortError
        | false => exact .aborted
      next hname =>
        cases h
        cases alive with
        | true => exact .rejected hname
        | false => exact .aborted
    | _ => cases h
  | opened hasReader =>
    refine ⟨nofun, ?_⟩
    cases ev with
    | started =>
      cases hasReader <;> cases h <;> cases alive
      · exact .aborted
      · exact .noReader
      · exact .aborted
      · exact .started
    | _ => cases hasReader <;> cases h
  | reading =>
    refine ⟨nofun, ?_⟩
    cases ev with
    | value value =>
      cases alive <;> cases h
      · exact .aborted
      · exact .value
    | done =>
      cases h
      cases alive with
      | true => exact .done
      | false => exact .aborted
    | readError message =>
      cases h
      cases alive with
      | true => exact .readError
      | false => exact .aborted
    | _ => cases h
  | ended => cases ev <;> cases h

theorem step_abortError {message : String}
    (h : c.step alive phase (.rejected "AbortError" message) m = some (phase', m')) :
    phase' = .ended ∧ m' = m := by
  cases phase with
  | fetching =>
    rw [step, if_pos rfl] at h
    cases h
    exact ⟨rfl, rfl⟩
  | opened hasReader => cases hasReader <;> cases h
  | _ => cases h

end Consumer

end CloudPing.Web

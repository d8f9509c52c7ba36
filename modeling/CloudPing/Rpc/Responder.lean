import CloudPing.Conc.Chan
import CloudPing.Conc.System
import Mathlib.Data.List.Basic

/-!
# The responder is shut down

`ServeRPC` takes task messages from a queue and starts a goroutine for each.  The goroutine passes
the updates of its handler on to `taskUpdatesCh`.  One goroutine receives there, and publishes.

When `ServeRPC` returns, by `Shutdown` or an error, it closes `taskUpdatesChCloser`.  The update
goroutine sees that at its `select`, and closes `taskUpdatesCh`, of which it is the receiver.
Nothing waits for the task goroutines: one that is at its send then, or comes to it later, panics.

`tasksReturned` is the exact condition under which this does not happen.

A task update without its message ends the program in the log line before the send, and so has no
step here.
-/

namespace CloudPing.Rpc

open Conc

/-! ## Updates -/

/-- `amqp.Delivery`. -/
structure Delivery where
  replyTo : String
  correlationId : String

/-- `amqp.Publishing`. -/
structure Publishing where
  contentType : String
  correlationId : String
  body : List UInt8

structure TaskUpdate where
  taskMsg : Option Delivery
  err : Option String := none
  envelope : Option Publishing := none

/-- What is published of an update, with its routing key. -/
def TaskUpdate.reply (taskUpdate : TaskUpdate) : Option (String × Publishing) :=
  if taskUpdate.err.isSome then none
  else
    match taskUpdate.envelope with
    | some envelope => taskUpdate.taskMsg.map fun taskMsg => (taskMsg.replyTo, envelope)
    | none => taskUpdate.taskMsg.map fun taskMsg =>
      (taskMsg.replyTo, ⟨"application/octet-stream", taskMsg.correlationId, []⟩)

/-! ## The goroutines -/

/-- Where the goroutine of `ServeRPC` is.  Its deferred calls begin with that of
`close(taskUpdatesChCloser)`. -/
inductive ServePC where
  | setup
  | serving
  | returned
  deriving DecidableEq

inductive UpdaterPC where
  | selecting
  | publishing (taskUpdate : TaskUpdate)
  | returned

/-- Where a task goroutine is: it waits for its handler, or is at its send. -/
inductive TaskPC where
  | handling (taskMsg : Delivery)
  | sending (taskMsg : Delivery) (taskUpdate : TaskUpdate)
  | returned

def TaskPC.atSend : TaskPC → Bool
  | .sending .. => true
  | _ => false

structure ResponderRun where
  /-- Set by `Shutdown`, which then closes `closeCh`. -/
  closed : Bool := false
  serve : ServePC := .setup
  taskUpdatesChClosed : Bool := false
  closerClosed : Bool := false
  updater : UpdaterPC := .selecting
  tasks : List TaskPC := []
  published : List (String × Publishing) := []
  /-- A send on the closed channel has ended the program. -/
  panicked : Bool := false

inductive ResponderAction where
  | shutdown
  | setupErr
  | consume
  | closeCh
  | taskMsg (taskMsg : Delivery)
  | update (i : Nat) (taskUpdate : TaskUpdate)
  | handled (i : Nat)
  | send (i : Nat)
  | publish
  | closer

namespace ResponderRun

def start : ResponderRun := {}

/-- A task goroutine meets the update goroutine, or the closed channel. -/
def sendUpdate (s : ResponderRun) (i : Nat) (taskMsg : Delivery) (taskUpdate : TaskUpdate) :
    Option ResponderRun :=
  if s.taskUpdatesChClosed then some { s with panicked := true }
  else
    match s.updater with
    | .selecting =>
      some { s with tasks := s.tasks.set i (.handling taskMsg), updater := .publishing taskUpdate }
    | _ => none

def stepTask (s : ResponderRun) : ResponderAction → Option ResponderRun
  | .update i taskUpdate =>
    match s.tasks[i]? with
    | some (.handling taskMsg) =>
      if taskUpdate.taskMsg.isSome then
        some { s with tasks := s.tasks.set i (.sending taskMsg taskUpdate) }
      else none
    | _ => none
  | .handled i =>
    match s.tasks[i]? with
    | some (.handling _) => some { s with tasks := s.tasks.set i .returned }
    | _ => none
  | .send i =>
    match s.tasks[i]? with
    | some (.sending taskMsg taskUpdate) => s.sendUpdate i taskMsg taskUpdate
    | _ => none
  | _ => none

def stepServe (s : ResponderRun) : ResponderAction → Option ResponderRun
  | .shutdown => if s.closed then none else some { s with closed := true }
  | .setupErr =>
    if s.serve = .setup then some { s with serve := .returned, closerClosed := true } else none
  | .consume => if s.serve = .setup then some { s with serve := .serving } else none
  | .closeCh =>
    if s.serve = .serving ∧ s.closed = true then
      some { s with serve := .returned, closerClosed := true }
    else none
  | .taskMsg taskMsg =>
    if s.serve = .serving then some { s with tasks := s.tasks ++ [.handling taskMsg] } else none
  | .publish =>
    match s.updater with
    | .publishing taskUpdate =>
      some { s with updater := .selecting, published := s.published ++ taskUpdate.reply.toList }
    | _ => none
  | .closer =>
    match s.updater with
    | .selecting =>
      if s.closerClosed then some { s with updater := .returned, taskUpdatesChClosed := true }
      else none
    | _ => none
  | _ => none

def step (s : ResponderRun) (a : ResponderAction) : Option ResponderRun :=
  if s.panicked then none
  else
    match a with
    | .update .. | .handled _ | .send _ => s.stepTask a
    | .shutdown | .setupErr | .consume | .closeCh | .taskMsg _ | .publish | .closer => s.stepServe a

def system : System ResponderRun ResponderAction := ⟨start, step⟩

/-! ## The promise and the condition -/

/-- No task goroutine sends on the closed channel, and none is at its send when it is closed. -/
structure SendSafe (s : ResponderRun) : Prop where
  alive : s.panicked = false
  noSend : s.taskUpdatesChClosed = true → ∀ pc ∈ s.tasks, pc.atSend = false

/-- The channel is closed only when every task goroutine has returned. -/
def tasksReturned : Policy ResponderRun ResponderAction := fun s a =>
  match a with
  | .closer => ∀ pc ∈ s.tasks, pc = .returned
  | _ => True

/-! ## What a step does -/

variable {s t : ResponderRun} {a : ResponderAction}

inductive Move (s : ResponderRun) : ResponderAction → ResponderRun → Prop where
  /-- `ServeRPC` goes on, or `Shutdown` is called. -/
  | served {a : ResponderAction} {t : ResponderRun}
      (hserve : s.serve ≠ .returned ∨ t.serve = s.serve)
      (hcloser : t.closerClosed = s.closerClosed ∨ t.closerClosed = true ∧ t.serve = .returned)
      (htasks : t.tasks = s.tasks) (hclosed : t.taskUpdatesChClosed = s.taskUpdatesChClosed)
      (hpanicked : t.panicked = s.panicked) : Move s a t
  | started {taskMsg : Delivery} (hserve : s.serve = .serving) :
      Move s (.taskMsg taskMsg) { s with tasks := s.tasks ++ [.handling taskMsg] }
  /-- A task goroutine goes on. -/
  | went {a : ResponderAction} {t : ResponderRun} {i : Nat} {pc pc' : TaskPC}
      (hi : s.tasks[i]? = some pc) (hpc : pc ≠ .returned) (hserve : t.serve = s.serve)
      (hcloser : t.closerClosed = s.closerClosed) (htasks : t.tasks = s.tasks.set i pc')
      (hclosed : t.taskUpdatesChClosed = s.taskUpdatesChClosed)
      (hpanicked : t.panicked = s.panicked) : Move s a t
  | sentOnClosed {i : Nat} {taskMsg : Delivery} {taskUpdate : TaskUpdate}
      (hi : s.tasks[i]? = some (.sending taskMsg taskUpdate)) (hc : s.taskUpdatesChClosed = true) :
      Move s (.send i) { s with panicked := true }
  | closed (hcloser : s.closerClosed = true) :
      Move s .closer { s with updater := .returned, taskUpdatesChClosed := true }

theorem alive_of_step (h : s.step a = some t) : s.panicked = false := by
  unfold step at h
  split at h
  next => cases h
  next hp => exact Bool.eq_false_iff.2 hp

theorem stepServe_move (h : s.stepServe a = some t) : Move s a t := by
  cases a with
  | shutdown =>
    obtain ⟨_, h⟩ := Option.ite_none_left_eq_some.1 h
    cases h
    exact .served (.inr rfl) (.inl rfl) rfl rfl rfl
  | setupErr =>
    obtain ⟨hsetup, h⟩ := Option.ite_none_right_eq_some.1 h
    cases h
    exact .served (.inl (by rw [hsetup]; decide)) (.inr ⟨rfl, rfl⟩) rfl rfl rfl
  | consume =>
    obtain ⟨hsetup, h⟩ := Option.ite_none_right_eq_some.1 h
    cases h
    exact .served (.inl (by rw [hsetup]; decide)) (.inl rfl) rfl rfl rfl
  | closeCh =>
    obtain ⟨⟨hserving, _⟩, h⟩ := Option.ite_none_right_eq_some.1 h
    cases h
    exact .served (.inl (by rw [hserving]; decide)) (.inr ⟨rfl, rfl⟩) rfl rfl rfl
  | taskMsg taskMsg =>
    obtain ⟨hserving, h⟩ := Option.ite_none_right_eq_some.1 h
    cases h
    exact .started hserving
  | publish =>
    simp only [stepServe] at h
    split at h
    next => cases h; exact .served (.inr rfl) (.inl rfl) rfl rfl rfl
    next => cases h
  | closer =>
    simp only [stepServe] at h
    split at h
    next =>
      obtain ⟨hcloser, h⟩ := Option.ite_none_right_eq_some.1 h
      cases h
      exact .closed hcloser
    next => cases h
  | _ => cases h

theorem stepTask_move (h : s.stepTask a = some t) : Move s a t := by
  cases a with
  | update i taskUpdate =>
    simp only [stepTask] at h
    split at h
    next taskMsg hi =>
      obtain ⟨_, h⟩ := Option.ite_none_right_eq_some.1 h
      cases h
      exact .went hi (fun he => by cases he) rfl rfl rfl rfl rfl
    next => cases h
  | handled i =>
    simp only [stepTask] at h
    split at h
    next taskMsg hi => cases h; exact .went hi (fun he => by cases he) rfl rfl rfl rfl rfl
    next => cases h
  | send i =>
    simp only [stepTask] at h
    split at h
    next taskMsg taskUpdate hi =>
      rw [sendUpdate] at h
      split at h
      next hc => cases h; exact .sentOnClosed hi hc
      next =>
        split at h
        next => cases h; exact .went hi (fun he => by cases he) rfl rfl rfl rfl rfl
        next => cases h
    next => cases h
  | _ => cases h

theorem step_move (h : s.step a = some t) : Move s a t := by
  have hp := alive_of_step h
  cases a with
  | update | handled | send => exact stepTask_move (by simpa [step, hp] using h)
  | _ => exact stepServe_move (by simpa [step, hp] using h)

/-! ## The condition is enough -/

/-- The channel is closed after `ServeRPC` has returned, and then no task goroutine is left. -/
structure Drained (s : ResponderRun) : Prop where
  closer : s.closerClosed = true → s.serve = .returned
  closed : s.taskUpdatesChClosed = true → s.closerClosed = true
  tasks : s.taskUpdatesChClosed = true → ∀ pc ∈ s.tasks, pc = .returned
  alive : s.panicked = false

namespace Drained

theorem start : Drained start := ⟨nofun, nofun, nofun, rfl⟩

theorem move (h : s.Drained) (hok : tasksReturned s a) (hm : Move s a t) : t.Drained := by
  cases hm with
  | served hserve hcloser htasks hclosed hpanicked =>
    refine ⟨fun hc => ?_, fun hc => ?_, ?_, hpanicked.trans h.alive⟩
    · rcases hcloser with hcloser | ⟨-, hreturned⟩
      · have hreturned := h.closer (hcloser ▸ hc)
        exact (hserve.resolve_left (not_not.2 hreturned)).trans hreturned
      · exact hreturned
    · rcases hcloser with hcloser | ⟨hcloser, -⟩
      · exact hcloser.trans (h.closed (hclosed ▸ hc))
      · exact hcloser
    · rw [hclosed, htasks]
      exact h.tasks
  | started hserve =>
    have hopen : s.taskUpdatesChClosed ≠ true := fun hc => by
      have hreturned := h.closer (h.closed hc)
      rw [hserve] at hreturned
      cases hreturned
    exact ⟨h.closer, h.closed, fun hc => absurd hc hopen, h.alive⟩
  | went hi hpc hserve hcloser htasks hclosed hpanicked =>
    -- a task goroutine is left, so the channel is open
    have hopen : s.taskUpdatesChClosed ≠ true :=
      fun hc => hpc (h.tasks hc _ (List.mem_of_getElem? hi))
    refine ⟨?_, fun hc => absurd (hclosed ▸ hc) hopen, fun hc => absurd (hclosed ▸ hc) hopen,
      hpanicked.trans h.alive⟩
    rw [hcloser, hserve]
    exact h.closer
  | sentOnClosed hi hc => cases h.tasks hc _ (List.mem_of_getElem? hi)
  | closed hcloser => exact ⟨h.closer, fun _ => hcloser, fun _ => hok, h.alive⟩

theorem sendSafe (h : s.Drained) : s.SendSafe where
  alive := h.alive
  noSend := fun hc pc hpc => by rw [h.tasks hc pc hpc]; rfl

end Drained

theorem drained (h : system.Reachable tasksReturned s) : s.Drained :=
  h.invariant Drained.start fun _ _ _ hs hok hst => hs.move hok (step_move hst)

/-! ## The condition is needed -/

/-- A task goroutine that is left gets one more update from its handler. -/
theorem sends_again {i : Nat} {pc : TaskPC} (hal : s.panicked = false)
    (hc : s.taskUpdatesChClosed = true) (hi : s.tasks[i]? = some pc) (hpc : pc ≠ .returned) :
    ∃ u, system.Reach tasksReturned s u ∧ ¬u.SendSafe := by
  cases pc with
  | returned => exact absurd rfl hpc
  | sending taskMsg taskUpdate =>
    refine ⟨s, .refl, fun hsafe => ?_⟩
    cases hsafe.noSend hc _ (List.mem_of_getElem? hi)
  | handling taskMsg =>
    have hst : system.step s (.update i ⟨some taskMsg, none, none⟩) =
        some { s with tasks := s.tasks.set i (.sending taskMsg ⟨some taskMsg, none, none⟩) } := by
      simp [system, step, stepTask, hal, hi]
    obtain ⟨hlt, _⟩ := List.getElem?_eq_some_iff.1 hi
    refine ⟨_, .head hst trivial .refl, fun hsafe => ?_⟩
    cases hsafe.noSend hc _ (List.mem_of_getElem? (List.getElem?_set_self hlt))

theorem tasksReturned_guards : system.Guards tasksReturned SendSafe where
  safe := fun s h => (drained h).sendSafe
  tight := by
    intro s a t _ hst hno
    have hal := alive_of_step hst
    cases a with
    | closer =>
      have hserve : s.stepServe .closer = some t := by simpa [system, step, hal] using hst
      simp only [stepServe] at hserve
      split at hserve
      next =>
        obtain ⟨_, ht⟩ := Option.ite_none_right_eq_some.1 hserve
        cases ht
        obtain ⟨pc, hpc, hne⟩ := not_forall₂.1 hno
        obtain ⟨i, hi⟩ := List.mem_iff_getElem?.1 hpc
        exact sends_again hal rfl hi hne
      next => cases hserve
    | _ => exact absurd trivial hno

/-- `tasksReturned` is the exact condition under which no task goroutine meets the closed
channel: a run that has met it is safe, and stays so after the next step just if that meets it. -/
theorem tasksReturned_exact (h : system.Reachable tasksReturned s) :
    s.SendSafe ∧ ∀ a t, system.step s a = some t →
      (tasksReturned s a ↔ ∀ u, system.Reach tasksReturned t u → u.SendSafe) :=
  ⟨tasksReturned_guards.safe s h, fun _ _ hst => tasksReturned_guards.ok_iff h hst⟩

def pingTask : Delivery := ⟨"amq.gen-reply", "1"⟩

/-- A ping is running, and `ServeRPC` has returned. -/
def pinging : ResponderRun where
  closed := true
  serve := .returned
  closerClosed := true
  tasks := [.handling pingTask]

/-- The channel is closed. -/
def pingLeft : ResponderRun := { pinging with updater := .returned, taskUpdatesChClosed := true }

theorem tasksReturned_exact_pinging :
    pinging.SendSafe ∧ ¬∀ u, system.Reach tasksReturned pingLeft u → u.SendSafe := by
  have hconsume : system.Reachable tasksReturned { serve := .serving } :=
    .tail .refl (a := .consume) trivial rfl
  have htask : system.Reachable tasksReturned
      { serve := .serving, tasks := [.handling pingTask] } :=
    hconsume.tail (a := .taskMsg pingTask) trivial rfl
  have hshutdown : system.Reachable tasksReturned
      { closed := true, serve := .serving, tasks := [.handling pingTask] } :=
    htask.tail (a := .shutdown) trivial rfl
  have hreturned : system.Reachable tasksReturned pinging :=
    hshutdown.tail (a := .closeCh) trivial rfl
  obtain ⟨hsafe, hexact⟩ := tasksReturned_exact hreturned
  refine ⟨hsafe, fun hall => ?_⟩
  cases (hexact .closer pingLeft rfl).2 hall _ List.mem_cons_self

/-- `Shutdown` while a ping is running, whose handler has one more update. -/
theorem send_on_closed : ¬∀ s, system.Reachable Policy.any s → s.SendSafe := by
  intro h
  obtain ⟨s, hr, hp⟩ := System.exists_of_replay system Policy.any (fun s => s.panicked)
    [.consume, .taskMsg pingTask, .update 0 ⟨some pingTask, none, none⟩, .send 0, .publish,
      .shutdown, .closeCh, .closer, .update 0 ⟨some pingTask, none, none⟩, .send 0]
    (by decide)
  rw [(h s hr).alive] at hp
  cases hp

end ResponderRun

end CloudPing.Rpc

import CloudPing.Conc.Chan
import CloudPing.Conc.System

/-!
# The handler of an agent connection

`QUICHandler.Handle` and `WebsocketHandler.ServeHTTP` have one structure.  The handler
makes an idle timer and starts goroutines that read messages.  Each handles a message and
then resets the timer.  The handler waits for the timer or for an error, and its deferred
calls then set the variable `gcTimer` to nil and close the connection, in this order.

The two differ in how many goroutines read and in what an error does.  Over QUIC an
accepting goroutine starts one reader per stream, and an error of one message ends its
reader.  Over a WebSocket there is one reader, which logs such an error and goes on.

What a message does to the registry is not part of the model: a step says only whether it
was handled without an error.
-/

namespace CloudPing.Handler

open Conc

/-- What `Handle` and `ServeHTTP` do differently. -/
structure ConnHandler where
  timeout : Int
  /-- The capacity of `connErrCh`. -/
  errCap : Nat
  /-- Readers are streams that an accepting goroutine starts; each has an end. -/
  streams : Bool
  /-- A message that fails ends its reader. -/
  errorEnds : Bool
  /-- Some messages are not for the handler and are dropped. -/
  untyped : Bool

def QUICHandler (timeout : Int) : ConnHandler where
  timeout := timeout
  errCap := 1
  streams := true
  errorEnds := true
  untyped := false

def WebsocketHandler (timeout : Int) : ConnHandler where
  timeout := timeout
  errCap := 0
  streams := false
  errorEnds := false
  untyped := true

/-- Where the handler is. -/
inductive HandlerPC where
  | select
  /-- Before the first deferred call, which stops the timer and sets `gcTimer` to nil. -/
  | stopping
  /-- Before the second deferred call, which closes the connection. -/
  | closing
  | returned
  deriving DecidableEq, Repr

/-- Where a goroutine of the connection is. -/
inductive ReaderPC where
  /-- It waits for a message, or for a stream to accept. -/
  | reading
  | handling
  /-- The message was handled, `gcTimer.Reset` is next. -/
  | resetting
  /-- At the send on `connErrCh`. -/
  | failing (err : String)
  | returned
  deriving DecidableEq, Repr

/-- What ends the process. -/
inductive HandlerPanic where
  | timeoutNotSet
  | nilTimer
  deriving DecidableEq, Repr

/-- The goroutines of one connection. -/
structure HandlerRun where
  main : HandlerPC
  /-- `gcTimer`: nil, or a timer that has fired or not. -/
  gcTimer : Option Bool
  connErrCh : Chan String
  acceptor : ReaderPC
  readers : List ReaderPC
  connClosed : Bool
  panic : Option HandlerPanic

/-- A goroutine that can send an error. -/
inductive ErrSource where
  | acceptor
  | reader (i : Nat)
  deriving DecidableEq, Repr

inductive HandlerAction where
  | timerFires
  | takeTimer
  | takeErr
  | meetErr (src : ErrSource)
  | stopTimer
  | closeConn
  | accept
  | acceptErr (err : String)
  | read (i : Nat)
  | drop (i : Nat)
  | readEnd (i : Nat)
  | readErr (i : Nat) (err : String)
  | handled (i : Nat) (err : Option String)
  | reset (i : Nat)
  | sendErr (src : ErrSource)

/-- The handler leaves its select. -/
def HandlerAction.leaves : HandlerAction → Bool
  | .takeTimer | .takeErr | .meetErr _ => true
  | _ => false

namespace HandlerRun

/-- The handler is at its select. -/
def start (h : ConnHandler) : HandlerRun where
  main := .select
  gcTimer := some false
  connErrCh := .make h.errCap
  acceptor := if h.streams then .reading else .returned
  readers := if h.streams then [] else [.reading]
  connClosed := false
  panic := if h.timeout = 0 then some .timeoutNotSet else none

def reader (s : HandlerRun) (i : Nat) (pc : ReaderPC) : HandlerRun :=
  { s with readers := s.readers.set i pc }

/-- The error a goroutine is about to send. -/
def pendingErr (s : HandlerRun) (src : ErrSource) : Option String :=
  let pc :=
    match src with
    | .acceptor => some s.acceptor
    | .reader i => s.readers[i]?
  match pc with
  | some (.failing err) => some err
  | _ => none

/-- The goroutine has sent its error, and returns. -/
def errSent (s : HandlerRun) : ErrSource → HandlerRun
  | .acceptor => { s with acceptor := .returned }
  | .reader i => s.reader i .returned

/-! ## The handler -/

def stepMain (s : HandlerRun) : HandlerAction → Option HandlerRun
  | .timerFires => if s.gcTimer = some false then some { s with gcTimer := some true } else none
  | .takeTimer =>
    if s.main = .select ∧ s.gcTimer = some true then
      some { s with main := .stopping, gcTimer := some false }
    else none
  | .takeErr =>
    if s.main = .select then
      s.connErrCh.recv.map fun (_, c) => { s with connErrCh := c, main := .stopping }
    else none
  | .meetErr src =>
    if s.main = .select ∧ s.connErrCh.canMeet = true then
      (s.pendingErr src).map fun _ => { s.errSent src with main := .stopping }
    else none
  | .stopTimer =>
    if s.main = .stopping then some { s with main := .closing, gcTimer := none } else none
  | .closeConn =>
    if s.main = .closing then some { s with main := .returned, connClosed := true } else none
  | _ => none

/-! ## The goroutines of the connection -/

/-- `gcTimer.Reset`, which panics when `gcTimer` is nil. -/
def resetTimer (s : HandlerRun) (i : Nat) : HandlerRun :=
  match s.gcTimer with
  | some _ => { s.reader i .reading with gcTimer := some false }
  | none => { s with panic := some .nilTimer }

def stepReader (h : ConnHandler) (s : HandlerRun) : HandlerAction → Option HandlerRun
  | .accept =>
    if s.acceptor = .reading ∧ s.connClosed = false then
      some { s with readers := s.readers ++ [.reading] }
    else none
  | .acceptErr err =>
    if s.acceptor = .reading then some { s with acceptor := .failing err } else none
  | .read i => if s.readers[i]? = some .reading then some (s.reader i .handling) else none
  | .drop i => if s.readers[i]? = some .reading ∧ h.untyped = true then some s else none
  | .readEnd i =>
    if s.readers[i]? = some .reading ∧ h.streams = true then some (s.reader i .returned) else none
  | .readErr i err =>
    if s.readers[i]? = some .reading then some (s.reader i (.failing err)) else none
  | .handled i none =>
    if s.readers[i]? = some .handling then some (s.reader i .resetting) else none
  | .handled i (some err) =>
    if s.readers[i]? = some .handling then
      some (s.reader i (if h.errorEnds then .failing err else .reading))
    else none
  | .reset i => if s.readers[i]? = some .resetting then some (s.resetTimer i) else none
  | .sendErr src =>
    match s.pendingErr src with
    | some err =>
      match s.connErrCh.send err with
      | .sent c => some { s.errSent src with connErrCh := c }
      | _ => none
    | none => none
  | _ => none

def step (h : ConnHandler) (s : HandlerRun) (a : HandlerAction) : Option HandlerRun :=
  if s.panic.isSome then none
  else
    match a with
    | .timerFires | .takeTimer | .takeErr | .meetErr _ | .stopTimer | .closeConn => s.stepMain a
    | .accept | .acceptErr _ | .read _ | .drop _ | .readEnd _ | .readErr _ _ | .handled _ _
    | .reset _ | .sendErr _ => s.stepReader h a

/-- All runs of one connection. -/
def system (h : ConnHandler) : System HandlerRun HandlerAction := ⟨start h, step h⟩

/-! ## What a step can do -/

/-- The effects of the actions on the handler, its timer and the goroutines that are about
to reset it. -/
inductive Move (s : HandlerRun) : HandlerAction → HandlerRun → Prop where
  /-- The handler leaves its select. -/
  | left {a : HandlerAction} {t : HandlerRun} (ha : a.leaves = true) (hm : s.main = .select)
      (hm' : t.main = .stopping) (hg : t.gcTimer.isSome = s.gcTimer.isSome)
      (hr : ∀ pc ∈ t.readers, pc ∈ s.readers ∨ pc ≠ .resetting) (hp : t.panic = s.panic) :
      Move s a t
  | stopped (hm : s.main = .stopping) :
      Move s .stopTimer { s with main := .closing, gcTimer := none }
  | closed (hm : s.main = .closing) :
      Move s .closeConn { s with main := .returned, connClosed := true }
  /-- The timer fires, or a goroutine goes on without a message that it handled. -/
  | went {a : HandlerAction} {t : HandlerRun} (hm : t.main = s.main)
      (hg : t.gcTimer.isSome = s.gcTimer.isSome)
      (hr : ∀ pc ∈ t.readers, pc ∈ s.readers ∨ pc ≠ .resetting) (hp : t.panic = s.panic) :
      Move s a t
  | handled {i : Nat} (hi : s.readers[i]? = some .handling) :
      Move s (.handled i none) (s.reader i .resetting)
  | wasReset {i : Nat} (hi : s.readers[i]? = some .resetting) :
      Move s (.reset i) (s.resetTimer i)

variable {h : ConnHandler} {s t : HandlerRun} {a : HandlerAction}

/-- One goroutine goes on. -/
theorem mem_reader {i : Nat} {pc pc' : ReaderPC} (hpc : pc' ∈ (s.reader i pc).readers) :
    pc' ∈ s.readers ∨ pc' = pc := List.mem_or_eq_of_mem_set hpc

theorem mem_errSent {src : ErrSource} {pc : ReaderPC} (hpc : pc ∈ (s.errSent src).readers) :
    pc ∈ s.readers ∨ pc ≠ .resetting := by
  cases src with
  | acceptor => exact Or.inl hpc
  | reader i => exact (mem_reader hpc).imp id (by rintro rfl; simp)

theorem reader_went {i : Nat} {pc : ReaderPC} (hne : pc ≠ .resetting) :
    Move s a (s.reader i pc) :=
  .went rfl rfl (fun _ hpc => (mem_reader hpc).imp id (by rintro rfl; exact hne)) rfl

theorem errSent_main (s : HandlerRun) (src : ErrSource) : (s.errSent src).main = s.main := by
  cases src <;> rfl

theorem errSent_gcTimer (s : HandlerRun) (src : ErrSource) :
    (s.errSent src).gcTimer = s.gcTimer := by
  cases src <;> rfl

theorem errSent_panic (s : HandlerRun) (src : ErrSource) : (s.errSent src).panic = s.panic := by
  cases src <;> rfl

theorem stepMain_move (hst : s.stepMain a = some t) : Move s a t := by
  cases a with
  | timerFires =>
    obtain ⟨hg, hst⟩ := Option.ite_none_right_eq_some.1 hst
    cases hst
    exact .went rfl (by rw [hg]; rfl) (fun _ hpc => Or.inl hpc) rfl
  | takeTimer =>
    obtain ⟨⟨hm, hg⟩, hst⟩ := Option.ite_none_right_eq_some.1 hst
    cases hst
    exact .left rfl hm rfl (by rw [hg]; rfl) (fun _ hpc => Or.inl hpc) rfl
  | takeErr =>
    obtain ⟨hm, hst⟩ := Option.ite_none_right_eq_some.1 hst
    obtain ⟨⟨err, c⟩, _, rfl⟩ := Option.map_eq_some_iff.1 hst
    exact .left rfl hm rfl rfl (fun _ hpc => Or.inl hpc) rfl
  | meetErr src =>
    obtain ⟨⟨hm, _⟩, hst⟩ := Option.ite_none_right_eq_some.1 hst
    obtain ⟨err, _, rfl⟩ := Option.map_eq_some_iff.1 hst
    exact .left rfl hm rfl (by rw [← errSent_gcTimer s src]) (fun _ hpc => mem_errSent hpc)
      (errSent_panic s src)
  | stopTimer =>
    obtain ⟨hm, hst⟩ := Option.ite_none_right_eq_some.1 hst
    cases hst
    exact .stopped hm
  | closeConn =>
    obtain ⟨hm, hst⟩ := Option.ite_none_right_eq_some.1 hst
    cases hst
    exact .closed hm
  | _ => cases hst

theorem stepReader_move (hst : s.stepReader h a = some t) : Move s a t := by
  cases a with
  | accept =>
    obtain ⟨_, hst⟩ := Option.ite_none_right_eq_some.1 hst
    cases hst
    refine .went rfl rfl (fun pc hpc => ?_) rfl
    exact (List.mem_append.1 hpc).imp id (fun hpc => by rw [List.mem_singleton.1 hpc]; simp)
  | acceptErr err =>
    obtain ⟨_, hst⟩ := Option.ite_none_right_eq_some.1 hst
    cases hst
    exact .went rfl rfl (fun _ hpc => Or.inl hpc) rfl
  | read i | readEnd i | readErr i err =>
    obtain ⟨_, hst⟩ := Option.ite_none_right_eq_some.1 hst
    cases hst
    exact reader_went (by simp)
  | drop i =>
    obtain ⟨_, hst⟩ := Option.ite_none_right_eq_some.1 hst
    cases hst
    exact .went rfl rfl (fun _ hpc => Or.inl hpc) rfl
  | handled i err =>
    cases err with
    | none =>
      obtain ⟨hi, hst⟩ := Option.ite_none_right_eq_some.1 hst
      cases hst
      exact .handled hi
    | some err =>
      obtain ⟨_, hst⟩ := Option.ite_none_right_eq_some.1 hst
      cases hst
      exact reader_went (by split <;> simp)
  | reset i =>
    obtain ⟨hi, hst⟩ := Option.ite_none_right_eq_some.1 hst
    cases hst
    exact .wasReset hi
  | sendErr src =>
    simp only [stepReader] at hst
    split at hst
    next =>
      split at hst
      next =>
        cases hst
        exact .went (errSent_main s src) (by rw [← errSent_gcTimer s src])
          (fun _ hpc => mem_errSent hpc) (errSent_panic s src)
      next => cases hst
    next => cases hst
  | _ => cases hst

/-- Every step is one of the moves. -/
theorem step_move (hst : s.step h a = some t) : Move s a t := by
  unfold step at hst
  split at hst
  next => cases hst
  next =>
    split at hst
    all_goals
      first
      | exact stepMain_move hst
      | exact stepReader_move hst

/-- A run that has panicked takes no step. -/
theorem alive_of_step (hst : s.step h a = some t) : s.panic = none := by
  unfold step at hst
  split at hst
  next => cases hst
  next hp => simpa using hp

end HandlerRun

end CloudPing.Handler

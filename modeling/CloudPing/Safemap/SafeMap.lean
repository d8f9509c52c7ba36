import CloudPing.Conc.Store
import CloudPing.Conc.System

/-!
# The safe map

One goroutine owns the map and runs the requests it receives on `requestsCh`, one after the
other.  `Close` closes `closeCh`; the goroutine sees that at its next `select`, sets `closed`,
closes `requestsCh` and ends.

A `Close` that comes between the two writes finds `closed` unset and closes `closeCh` again
(`close_twice`).  An operation that is issued after the goroutine has ended, or waits at its
send then, sends on a closed channel; one that is issued after `Close` has returned can still
be run as if nothing had happened.  No request is run once `closed` is set.

`quietClose` forbids these.  In runs that meet it the shutdown is as documented
(`shutdown_safe`).
-/

namespace CloudPing.Safemap

open Conc

/-! ## Requests -/

/-- `ErrMapClosed`. -/
def errMapClosed : String := "safemap: map is closed"

/-- The request of an operation, with the callback it got. -/
inductive Request (V : Type*)
  | get (key : String) (op : V → Option String)
  | set (key : String) (value : V)
  | delete (key : String)
  | len
  | dump (cloner : Option (V → V))
  | walk (walkFunc : String → V → Bool × Option String)

/-- What an operation returns. -/
inductive Response (V : Type*)
  | get (err : Option String) (found : Bool)
  | set
  | delete
  | len (length : Nat)
  | dump (result : Option (String → Option V))
  | walk (err : Option String)

variable {V : Type*}

/-- The loop of `Walk`, over the keys in the order of the iteration. -/
def walkStore (walkFunc : String → V → Bool × Option String) (store : Store String V) :
    List String → Option String
  | [] => none
  | k :: ks =>
    match store.lookup k with
    | none => walkStore walkFunc store ks
    | some v =>
      match walkFunc k v with
      | (_, some err) => some err
      | (false, none) => none
      | (true, none) => walkStore walkFunc store ks

/-- The request function of each operation. -/
def Request.run (closed : Bool) (store : Store String V) (order : List String) :
    Request V → Store String V × Response V
  | .get key op =>
    if closed then (store, .get (some errMapClosed) false)
    else
      match store.lookup key with
      | some v => (store, .get (op v) true)
      | none => (store, .get none false)
  | .set key value => (if closed then store else store.insert key value, .set)
  | .delete key => (if closed then store else store.erase key, .delete)
  | .len => (store, .len (if closed then 0 else store.entries.length))
  | .dump cloner =>
    if closed then (store, .dump none)
    else
      match cloner with
      | some cloner => (store, .dump (some fun k => (store.lookup k).map cloner))
      | none => (store, .dump (some fun k => store.lookup k))
  | .walk walkFunc =>
    if closed then (store, .walk (some errMapClosed))
    else (store, .walk (walkStore walkFunc store order))

/-- What an operation is documented to return on a closed map. -/
def Request.closedResponse : Request V → Response V
  | .get _ _ => .get (some errMapClosed) false
  | .set _ _ => .set
  | .delete _ => .delete
  | .len => .len 0
  | .dump _ => .dump none
  | .walk _ => .walk (some errMapClosed)

/-- A request that finds the map closed changes nothing and answers as documented. -/
theorem Request.run_closed (req : Request V) (store : Store String V) (order : List String) :
    req.run true store order = (store, req.closedResponse) := by
  cases req <;> rfl

/-! ## Calls -/

/-- Where a call stands.  `late` says that it was issued when `closeCh` had been closed. -/
inductive CallPC (V : Type*)
  /-- At `sm.requestsCh <- req`. -/
  | sending (req : Request V) (late : Bool)
  /-- At the receive of the response. -/
  | waiting (req : Request V) (late : Bool)
  /-- The request found `before` and left `after`. -/
  | returned (req : Request V) (late : Bool) (before after : Store String V)
      (resp : Response V)
  /-- It has sent on the closed channel. -/
  | sendPanicked
  /-- `Close`, at `Lock`. -/
  | locking
  /-- Before it reads `sm.closed`. -/
  | testing
  /-- Before `close(sm.closeCh)`. -/
  | closing
  | closeReturned
  /-- It has closed the closed channel. -/
  | closePanicked

namespace CallPC

/-- The call has `closeMutex`. -/
def holds : CallPC V → Bool
  | .testing | .closing => true
  | _ => false

/-- The call waits for the goroutine. -/
def pending : CallPC V → Bool
  | .sending .. | .waiting .. => true
  | _ => false

def isSending : CallPC V → Bool
  | .sending .. => true
  | _ => false

def panicked : CallPC V → Bool
  | .sendPanicked | .closePanicked => true
  | _ => false

end CallPC

/-- Where the goroutine of `run` stands. -/
inductive ActorPC
  /-- At the `select`. -/
  | selecting
  /-- It runs the request of the call. -/
  | serving (n : Nat)
  /-- `sm.closed` is set. -/
  | closing
  /-- It has returned, and `requestsCh` is closed. -/
  | done
  deriving DecidableEq

structure MapRun (V : Type*) where
  store : Store String V
  closed : Bool
  /-- `closeCh` is closed. -/
  closeCh : Bool
  /-- The call that has `closeMutex`. -/
  closeMutex : Option Nat
  actor : ActorPC
  calls : List (CallPC V)

inductive MapAction (V : Type*)
  | request (req : Request V)
  | close
  /-- The goroutine receives the request of the call. -/
  | receive (n : Nat)
  /-- The request is run, where an iteration of the map has this order, and answered. -/
  | serve (order : List String)
  /-- `case <-sm.closeCh`. -/
  | takeClose
  | closeRequests
  | sendOnClosed (n : Nat)
  | lock (n : Nat)
  /-- The read of `sm.closed` is not ordered with the write: it can still see false. -/
  | test (n : Nat) (seen : Bool)
  | closeCloseCh (n : Nat)

namespace MapRun

def start : MapRun V :=
  { store := ∅, closed := false, closeCh := false, closeMutex := none, actor := .selecting
    calls := [] }

def goto (s : MapRun V) (n : Nat) (pc : CallPC V) : MapRun V :=
  { s with calls := s.calls.set n pc }

def step (s : MapRun V) : MapAction V → Option (MapRun V)
  | .request req => some { s with calls := s.calls ++ [.sending req s.closeCh] }
  | .close => some { s with calls := s.calls ++ [.locking] }
  | .receive n =>
    match s.actor, s.calls[n]? with
    | .selecting, some (.sending req late) =>
      some ({ s with actor := .serving n }.goto n (.waiting req late))
    | _, _ => none
  | .serve order =>
    match s.actor with
    | .serving n =>
      match s.calls[n]? with
      | some (.waiting req late) =>
        if order.Perm s.store.keys then
          some ({ s with
            actor := .selecting, store := (req.run s.closed s.store order).1 }.goto n
              (.returned req late s.store (req.run s.closed s.store order).1
                (req.run s.closed s.store order).2))
        else none
      | _ => none
    | _ => none
  | .takeClose =>
    if s.actor = .selecting ∧ s.closeCh = true then
      some { s with actor := .closing, closed := true }
    else none
  | .closeRequests =>
    if s.actor = .closing then some { s with actor := .done } else none
  | .sendOnClosed n =>
    match s.actor, s.calls[n]? with
    | .done, some (.sending _ _) => some (s.goto n .sendPanicked)
    | _, _ => none
  | .lock n =>
    match s.closeMutex, s.calls[n]? with
    | none, some .locking => some ({ s with closeMutex := some n }.goto n .testing)
    | _, _ => none
  | .test n seen =>
    match s.calls[n]? with
    | some .testing =>
      if seen = true ∧ s.closed = false then none
      else if seen then some ({ s with closeMutex := none }.goto n .closeReturned)
      else some (s.goto n .closing)
    | _ => none
  | .closeCloseCh n =>
    match s.calls[n]? with
    | some .closing =>
      if s.closeCh then some ({ s with closeMutex := none }.goto n .closePanicked)
      else some ({ s with closeMutex := none, closeCh := true }.goto n .closeReturned)
    | _ => none

/-! ## The promise and the condition -/

/-- No operation is issued once `closeCh` is closed, none waits at its send when `requestsCh`
is closed, and no `Close` reads `closed` as false once `closeCh` is closed. -/
def quietClose : Policy (MapRun V) (MapAction V) := fun s a =>
  match a with
  | .request _ => s.closeCh = false
  | .closeRequests => ∀ pc ∈ s.calls, pc.isSending = false
  | .test _ seen => seen = false → s.closeCh = false
  | _ => True

instance : ∀ (s : MapRun V) a, Decidable (quietClose s a) := fun s a =>
  match a with
  | .request _ => inferInstanceAs (Decidable (s.closeCh = false))
  | .closeRequests => inferInstanceAs (Decidable (∀ pc ∈ s.calls, pc.isSending = false))
  | .test _ seen => inferInstanceAs (Decidable (seen = false → s.closeCh = false))
  | .close | .receive _ | .serve _ | .takeClose | .sendOnClosed _ | .lock _
  | .closeCloseCh _ => isTrue trivial

/-! ## What a step does -/

variable {s t : MapRun V} {a : MapAction V}

inductive Move (s : MapRun V) : MapAction V → MapRun V → Prop
  | issued {req} :
      Move s (.request req) { s with calls := s.calls ++ [.sending req s.closeCh] }
  | closeIssued : Move s .close { s with calls := s.calls ++ [.locking] }
  | received {n req late} : s.actor = .selecting → s.calls[n]? = some (.sending req late) →
      Move s (.receive n) ({ s with actor := .serving n }.goto n (.waiting req late))
  | served {n req late order store resp} : s.actor = .serving n →
      s.calls[n]? = some (.waiting req late) → req.run s.closed s.store order = (store, resp) →
      Move s (.serve order) ({ s with actor := .selecting, store := store }.goto n
        (.returned req late s.store store resp))
  | tookClose : s.actor = .selecting → s.closeCh = true →
      Move s .takeClose { s with actor := .closing, closed := true }
  | closedRequests : s.actor = .closing → Move s .closeRequests { s with actor := .done }
  | sentOnClosed {n req late} : s.actor = .done → s.calls[n]? = some (.sending req late) →
      Move s (.sendOnClosed n) (s.goto n .sendPanicked)
  | locked {n} : s.closeMutex = none → s.calls[n]? = some .locking →
      Move s (.lock n) ({ s with closeMutex := some n }.goto n .testing)
  | foundClosed {n} : s.calls[n]? = some .testing →
      Move s (.test n true) ({ s with closeMutex := none }.goto n .closeReturned)
  | foundOpen {n} : s.calls[n]? = some .testing → Move s (.test n false) (s.goto n .closing)
  | closedTwice {n} : s.calls[n]? = some .closing → s.closeCh = true →
      Move s (.closeCloseCh n) ({ s with closeMutex := none }.goto n .closePanicked)
  | closedCh {n} : s.calls[n]? = some .closing → s.closeCh = false →
      Move s (.closeCloseCh n)
        ({ s with closeMutex := none, closeCh := true }.goto n .closeReturned)

theorem step_move (h : s.step a = some t) : Move s a t := by
  cases a with
  | request req => cases h; exact .issued
  | close => cases h; exact .closeIssued
  | receive n =>
    simp only [step] at h
    split at h
    · next ha hc => cases h; exact .received ha hc
    · cases h
  | serve order =>
    simp only [step] at h
    split at h
    · next ha =>
      split at h
      · next hc =>
        split at h
        · cases h; exact .served ha hc rfl
        · cases h
      · cases h
    · cases h
  | takeClose =>
    simp only [step] at h
    split at h
    · next ha => cases h; exact .tookClose ha.1 ha.2
    · cases h
  | closeRequests =>
    simp only [step] at h
    split at h
    · next ha => cases h; exact .closedRequests ha
    · cases h
  | sendOnClosed n =>
    simp only [step] at h
    split at h
    · next ha hc => cases h; exact .sentOnClosed ha hc
    · cases h
  | lock n =>
    simp only [step] at h
    split at h
    · next hm hc => cases h; exact .locked hm hc
    · cases h
  | test n seen =>
    simp only [step] at h
    split at h
    · next hc =>
      split at h
      · cases h
      · cases seen with
        | true => cases h; exact .foundClosed hc
        | false => cases h; exact .foundOpen hc
    · cases h
  | closeCloseCh n =>
    simp only [step] at h
    split at h
    · next hc =>
      split at h
      · next hcl => cases h; exact .closedTwice hc hcl
      · next hcl => cases h; exact .closedCh hc (eq_false_of_ne_true hcl)
    · cases h

/-- The goroutine is past its loop once the map is closed. -/
def Over (s : MapRun V) : Prop := s.closed = true → s.actor = .closing ∨ s.actor = .done

theorem Over.move (h : Over s) (hm : Move s a t) : Over t := by
  have hopen {actor : ActorPC} (ha : s.actor = actor) (hc : actor ≠ .closing)
      (hd : actor ≠ .done) : s.closed ≠ true := fun hcl =>
    (h hcl).elim (fun he => hc (ha.symm.trans he)) fun he => hd (ha.symm.trans he)
  cases hm with
  | received ha hc => exact fun hcl => absurd hcl (hopen ha (by rintro ⟨⟩) (by rintro ⟨⟩))
  | served ha hc hrun => exact fun hcl => absurd hcl (hopen ha (by rintro ⟨⟩) (by rintro ⟨⟩))
  | tookClose => exact fun _ => Or.inl rfl
  | closedRequests => exact fun _ => Or.inr rfl
  | issued | closeIssued | sentOnClosed | locked | foundClosed | foundOpen | closedTwice
  | closedCh => exact h

/-! ## The condition is enough -/

/-- What a call may be in a quiet run: `holder` is the call that has the mutex, `server` the
state of the goroutine. -/
def CallFine (closeCh : Bool) (holder : Option Nat) (actor : ActorPC) (n : Nat) :
    CallPC V → Prop
  | .sending _ late => late = false ∧ actor ≠ .done
  | .waiting _ late => late = false ∧ actor = .serving n
  | .returned _ late _ _ _ => late = false
  | .testing => holder = some n
  | .closing => holder = some n ∧ closeCh = false
  | .sendPanicked | .closePanicked => False
  | .locking | .closeReturned => True

structure Quiet (s : MapRun V) : Prop where
  calls : ∀ n pc, s.calls[n]? = some pc → CallFine s.closeCh s.closeMutex s.actor n pc
  actor : s.actor = .closing ∨ s.actor = .done → s.closeCh = true

section CallFine

variable {closeCh closeCh' : Bool} {holder holder' : Option Nat} {actor actor' : ActorPC} {n : Nat}
  {pc : CallPC V}

/-- A call without the mutex does not care who has it, nor about `closeCh`. -/
theorem CallFine.of_not_holder (h : CallFine closeCh holder actor n pc) (hn : holder ≠ some n) :
    CallFine closeCh' holder' actor n pc := by
  cases pc with
  | testing => exact absurd h hn
  | closing => exact absurd h.1 hn
  | sending | waiting | returned | sendPanicked | locking | closeReturned | closePanicked => exact h

/-- The goroutine goes on: nothing is left at its send when it ends, and no call is left that
it serves. -/
theorem CallFine.of_actor (h : CallFine closeCh holder actor n pc)
    (hsending : pc.isSending = true → actor' ≠ .done) (hserving : actor ≠ .serving n) :
    CallFine closeCh holder actor' n pc := by
  cases pc with
  | sending => exact ⟨h.1, hsending rfl⟩
  | waiting => exact absurd h.2 hserving
  | returned | sendPanicked | locking | testing | closing | closeReturned | closePanicked => exact h

end CallFine

/-- What holds of the call that goes on, and held of the others, holds of all. -/
theorem forall_calls_goto {P : Nat → CallPC V → Prop} {n : Nat} {pc : CallPC V} (hpc : P n pc)
    (h : ∀ n' pc', n' ≠ n → s.calls[n']? = some pc' → P n' pc') :
    ∀ n' pc', (s.goto n pc).calls[n']? = some pc' → P n' pc' := by
  intro n' pc' hc
  rw [goto, List.getElem?_set] at hc
  split at hc
  · next hn =>
    subst hn
    split at hc
    · cases hc
      exact hpc
    · cases hc
  · next hn => exact h n' pc' (Ne.symm hn) hc

theorem forall_calls_append {P : Nat → CallPC V → Prop} {pc : CallPC V} (hpc : ∀ n, P n pc)
    (h : ∀ n' pc', s.calls[n']? = some pc' → P n' pc') :
    ∀ n' pc', (s.calls ++ [pc])[n']? = some pc' → P n' pc' := by
  intro n' pc' hc
  rw [List.getElem?_append] at hc
  split at hc
  · exact h n' pc' hc
  · have hmem := List.mem_of_getElem? hc
    rw [List.mem_singleton.1 hmem]
    exact hpc n'

namespace Quiet

theorem start : Quiet (start : MapRun V) where
  calls := by intro n pc h; cases h
  actor := by rintro (h | h) <;> cases h

theorem move (h : Quiet s) (hok : quietClose s a) (hm : Move s a t) : Quiet t := by
  cases hm with
  | issued =>
    have hopen : s.closeCh = false := hok
    refine ⟨forall_calls_append (fun n => ⟨hopen, fun hd => ?_⟩) h.calls, h.actor⟩
    rw [h.actor (Or.inr hd)] at hopen
    cases hopen
  | closeIssued => exact ⟨forall_calls_append (fun _ => trivial) h.calls, h.actor⟩
  | @received n req late ha hc =>
    refine ⟨forall_calls_goto ⟨(h.calls n _ hc).1, rfl⟩ fun n' pc' _ hc' => ?_, ?_⟩
    · refine (h.calls n' pc' hc').of_actor ?_ ?_
      · rintro _ ⟨⟩
      · rw [ha]
        rintro ⟨⟩
    · rintro (h' | h') <;> cases h'
  | @served n req late order store resp ha hc hrun =>
    refine ⟨forall_calls_goto (h.calls n _ hc).1 fun n' pc' hn hc' => ?_, ?_⟩
    · refine (h.calls n' pc' hc').of_actor ?_ ?_
      · rintro _ ⟨⟩
      · rw [ha]
        rintro ⟨⟩
        exact hn rfl
    · rintro (h' | h') <;> cases h'
  | tookClose ha hcl =>
    refine ⟨fun n pc hc => (h.calls n pc hc).of_actor ?_ ?_, fun _ => hcl⟩
    · rintro _ ⟨⟩
    · rw [ha]
      rintro ⟨⟩
  | closedRequests ha =>
    refine ⟨fun n pc hc => (h.calls n pc hc).of_actor ?_ ?_, fun _ => h.actor (Or.inl ha)⟩
    · intro hsend
      rw [hok pc (List.mem_of_getElem? hc)] at hsend
      cases hsend
    · rw [ha]
      rintro ⟨⟩
  | sentOnClosed ha hc => exact absurd ha (h.calls _ _ hc).2
  | @locked n hm hc =>
    refine ⟨forall_calls_goto rfl fun n' pc' _ hc' => ?_, h.actor⟩
    exact (h.calls n' pc' hc').of_not_holder (by rw [hm]; rintro ⟨⟩)
  | @foundClosed n hc =>
    refine ⟨forall_calls_goto trivial fun n' pc' hn hc' => ?_, h.actor⟩
    refine (h.calls n' pc' hc').of_not_holder ?_
    rw [show s.closeMutex = some n from h.calls n _ hc]
    exact fun he => hn (Option.some.inj he).symm
  | @foundOpen n hc =>
    exact ⟨forall_calls_goto ⟨h.calls n _ hc, hok rfl⟩ fun n' pc' _ => h.calls n' pc', h.actor⟩
  | closedTwice hc hcl =>
    rw [(h.calls _ _ hc).2] at hcl
    cases hcl
  | @closedCh n hc hcl =>
    refine ⟨forall_calls_goto trivial fun n' pc' hn hc' => ?_, fun _ => rfl⟩
    refine (h.calls n' pc' hc').of_not_holder ?_
    rw [show s.closeMutex = some n from (h.calls n _ hc).1]
    exact fun he => hn (Option.some.inj he).symm

end Quiet

end MapRun

/-- A map after `NewSafeMap`, with the calls it gets. -/
def mapSystem (V : Type*) : System (MapRun V) (MapAction V) where
  init := .start
  step := MapRun.step

open MapRun

variable {s : MapRun V}

/-- No request is run on a closed map: what is documented for it is never returned. -/
theorem open_of_serving {n : Nat} (h : (mapSystem V).Reachable .any s) (ha : s.actor = .serving n) :
    s.closed = false := by
  have hover : Over s := h.invariant (by intro hcl; cases hcl) fun _ _ _ hs _ hst =>
    hs.move (step_move hst)
  refine eq_false_of_ne_true fun hcl => ?_
  rcases hover hcl with he | he
  · rw [ha] at he
    cases he
  · rw [ha] at he
    cases he

theorem quiet (h : (mapSystem V).Reachable quietClose s) : Quiet s :=
  h.invariant Quiet.start fun _ _ _ hs hok hst => hs.move hok (step_move hst)

end CloudPing.Safemap

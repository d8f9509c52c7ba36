import CloudPing.Conc.System
import Mathlib.Algebra.Order.Ring.Int
import Mathlib.Data.List.Nodup
import Mathlib.Logic.Function.Basic

/-!
# The token pool and its limiters

The goroutine of `MemoryBasedRateLimitPool.Run` owns the tokens and the listeners.  A call of
`Consume` or `WaitForRefresh` gets a channel from it, passes its request on that channel, and
the goroutine runs the request.  At a tick the goroutine gives every key its tokens back and
closes the listeners.  The stretch of a run between two ticks is an *epoch*.

A pipeline of `GetIO` takes an item, consumes a token for its key, waits for a refresh and
consumes again as long as there was none, and passes the item on.  Any number of pipelines and
of other callers share one pool; they are the clients, by number.

The events of a run (`trace`, newest first) are what the results speak about; no step reads
them.

*Tokens.*  In each epoch the calls of `Consume` for a key that succeed are the first
`NumTokensPerKey` ones (`Spent`).

*Listeners.*  A listener is closed by the tick that ends its epoch, and by no other (`Heard`).

*Pipelines.*  What a pipeline took is what it has passed on and what it has in hand, in order,
and between taking an item and passing it on it has consumed a token for the key of the item
(`Relayed`).
-/

namespace CloudPing.Ratelimit.TokenPool

open Conc

/-! ## Calls and clients -/

inductive PoolCall
  | consume (key : String)
  | waitForRefresh
  deriving DecidableEq

/-- Where a call of the pool stands. -/
inductive CallPC
  /-- At `<-pool.serviceChan`. -/
  | requesting
  /-- At `serviceCh <- serviceRequest`. -/
  | submitting
  /-- At the receives of the result. -/
  | awaiting
  /-- At `<-listener`. -/
  | listening (listener : Nat)
  deriving DecidableEq

/-- Who makes a call: a caller of the pool, or a pipeline with an item in hand. -/
inductive Caller (I : Type*)
  | direct
  | pipeline (val : I) (key : String)

inductive ClientPC (I : Type*)
  /-- Not in a call. -/
  | idle
  /-- A pipeline, at its `select`. -/
  | selecting
  | inCall (caller : Caller I) (call : PoolCall) (pc : CallPC)
  /-- A pipeline, at `outC <- val`. -/
  | sending (val : I)
  /-- A pipeline that has closed `outC`. -/
  | returned
  /-- It has called `log.Fatal`. -/
  | fatal (val : I)

/-- What a client does next, when `Consume` has returned. -/
def Caller.consumed {I : Type*} (ok : Bool) : Caller I → ClientPC I
  | .direct => .idle
  | .pipeline val key =>
    if ok then .sending val else .inCall (.pipeline val key) .waitForRefresh .requesting

/-- What a client does next, when `WaitForRefresh` has returned. -/
def Caller.refreshed {I : Type*} : Caller I → ClientPC I
  | .direct => .idle
  | .pipeline val key => .inCall (.pipeline val key) (.consume key) .requesting

/-- Where the goroutine of the pool stands. -/
inductive ActorPC
  | selecting
  /-- At `<-serviceSubChan`. -/
  | receiving (c : Nat)
  /-- It has the request. -/
  | serving (c : Nat)
  /-- It has returned, and `serviceChan` is closed. -/
  | closed
  deriving DecidableEq

inductive PoolEvent (I : Type*)
  /-- A `Consume` was run in this epoch. -/
  | consumed (epoch c : Nat) (key : String) (ok : Bool)
  | registered (epoch listener : Nat)
  /-- The tick that ends this epoch closes the listener. -/
  | closed (epoch listener : Nat)
  | took (c : Nat) (val : I)
  | forwarded (c : Nat) (val : I)

/-- A `Consume` for the key in the epoch. -/
def PoolEvent.isConsume {I : Type*} (epoch : Nat) (key : String) : PoolEvent I → Bool
  | .consumed epoch' _ key' _ => epoch' = epoch ∧ key' = key
  | _ => false

/-- One that succeeds. -/
def PoolEvent.isGrant {I : Type*} (epoch : Nat) (key : String) : PoolEvent I → Bool
  | .consumed epoch' _ key' ok => (epoch' = epoch ∧ key' = key) ∧ ok = true
  | _ => false

/-- The listener is closed by the tick that ends the epoch. -/
def PoolEvent.isClose {I : Type*} (epoch listener : Nat) : PoolEvent I → Bool
  | .closed epoch' listener' => epoch' = epoch ∧ listener' = listener
  | _ => false

def PoolEvent.isRegister {I : Type*} : PoolEvent I → Bool
  | .registered _ _ => true
  | _ => false

structure PoolRun (I : Type*) where
  tokensMap : String → Option Int
  listeners : List Nat
  nextListener : Nat
  /-- The listeners that are closed channels. -/
  closed : List Nat
  actor : ActorPC
  clients : Nat → ClientPC I
  exited : Option String
  epoch : Nat
  trace : List (PoolEvent I)

inductive PoolAction (I : Type*)
  /-- A caller calls the pool. -/
  | call (c : Nat) (call : PoolCall)
  /-- `GetIO`. -/
  | newPipeline (c : Nat)
  /-- The pipeline receives an item from `inC`. -/
  | take (c : Nat) (val : I)
  | closeIn (c : Nat)
  | ctxDone (c : Nat)
  | accept (c : Nat)
  /-- The call finds `serviceChan` closed. -/
  | refuse (c : Nat)
  | submit (c : Nat)
  | serve
  /-- The call finds its listener closed. -/
  | wake (c : Nat)
  /-- The item is received from `outC`. -/
  | forward (c : Nat)
  | tick
  /-- The context of the pool is done. -/
  | stop

/-- `doConsume`: the number of tokens left. -/
def doConsume (numTokensPerKey : Nat) (tokensMap : String → Option Int) (key : String) : Int :=
  (tokensMap key).getD numTokensPerKey - 1

namespace PoolRun

variable {I : Type*}

/-- After `Run`, with `pool.refresh()` done. -/
def start : PoolRun I :=
  { tokensMap := fun _ => none, listeners := [], nextListener := 0, closed := []
    actor := .selecting, clients := fun _ => .idle, exited := none, epoch := 0, trace := [] }

def goto (s : PoolRun I) (c : Nat) (pc : ClientPC I) : PoolRun I :=
  { s with clients := Function.update s.clients c pc }

def log (s : PoolRun I) (ev : PoolEvent I) : PoolRun I := { s with trace := ev :: s.trace }

/-- `log.Fatal`, with an item in hand. -/
def die (s : PoolRun I) (c : Nat) (val : I) (msg : String) : PoolRun I :=
  { s with exited := some msg }.goto c (.fatal val)

/-- `refresh`, and the close of the listeners. -/
def tick (s : PoolRun I) : PoolRun I :=
  { s with
    tokensMap := fun _ => none, listeners := [], closed := s.listeners ++ s.closed
    epoch := s.epoch + 1, trace := s.listeners.map (.closed s.epoch) ++ s.trace }

/-- `serviceRequest.Func(ctx)`, and the client goes on with the result. -/
def serve (numTokensPerKey : Nat) (s : PoolRun I) (c : Nat) (caller : Caller I) :
    PoolCall → PoolRun I
  | .consume key =>
    ({ s with
        actor := .selecting
        tokensMap := Function.update s.tokensMap key
          (some (doConsume numTokensPerKey s.tokensMap key)) }.log
      (.consumed s.epoch c key (0 ≤ doConsume numTokensPerKey s.tokensMap key))).goto c
      (caller.consumed (0 ≤ doConsume numTokensPerKey s.tokensMap key))
  | .waitForRefresh =>
    ({ s with
        actor := .selecting, listeners := s.listeners ++ [s.nextListener]
        nextListener := s.nextListener + 1 }.log (.registered s.epoch s.nextListener)).goto c
      (.inCall caller .waitForRefresh (.listening s.nextListener))

def step (getKey : Nat → I → Except String String) (numTokensPerKey : Nat) (s : PoolRun I)
    (a : PoolAction I) : Option (PoolRun I) :=
  if s.exited.isSome then none
  else
    match a with
    | .call c call =>
      match s.clients c with
      | .idle => some (s.goto c (.inCall .direct call .requesting))
      | _ => none
    | .newPipeline c =>
      match s.clients c with
      | .idle => some (s.goto c .selecting)
      | _ => none
    | .take c val =>
      match s.clients c with
      | .selecting =>
        match getKey c val with
        | .ok key =>
          some ((s.log (.took c val)).goto c
            (.inCall (.pipeline val key) (.consume key) .requesting))
        | .error err => some ((s.log (.took c val)).die c val ("failed to get key: " ++ err))
      | _ => none
    | .closeIn c | .ctxDone c =>
      match s.clients c with
      | .selecting => some (s.goto c .returned)
      | _ => none
    | .accept c =>
      match s.actor, s.clients c with
      | .selecting, .inCall caller call .requesting =>
        some ({ s with actor := .receiving c }.goto c (.inCall caller call .submitting))
      | _, _ => none
    | .refuse c =>
      match s.actor, s.clients c with
      | .closed, .inCall .direct _ .requesting => some (s.goto c .idle)
      | .closed, .inCall (.pipeline val _) _ .requesting =>
        some (s.die c val ("rate limiter pool error: " ++ "context canceled"))
      | _, _ => none
    | .submit c =>
      match s.actor, s.clients c with
      | .receiving c', .inCall caller call .submitting =>
        if c' = c then
          some ({ s with actor := .serving c }.goto c (.inCall caller call .awaiting))
        else none
      | _, _ => none
    | .serve =>
      match s.actor with
      | .serving c =>
        match s.clients c with
        | .inCall caller call .awaiting => some (s.serve numTokensPerKey c caller call)
        | _ => none
      | _ => none
    | .wake c =>
      match s.clients c with
      | .inCall caller _ (.listening listener) =>
        if listener ∈ s.closed then some (s.goto c caller.refreshed) else none
      | _ => none
    | .forward c =>
      match s.clients c with
      | .sending val => some ((s.log (.forwarded c val)).goto c .selecting)
      | _ => none
    | .tick =>
      match s.actor with
      | .selecting => some s.tick
      | _ => none
    | .stop =>
      match s.actor with
      | .selecting => some { s with actor := .closed }
      | _ => none

end PoolRun

/-- A pool after `Run`, with its clients; `getKey c` is the `KeyFunc` of the pipeline `c`. -/
def poolSystem {I : Type*} (getKey : Nat → I → Except String String) (numTokensPerKey : Nat) :
    System (PoolRun I) (PoolAction I) where
  init := .start
  step := PoolRun.step getKey numTokensPerKey

/-! ## What a step does -/

namespace PoolRun

variable {I : Type*} {getKey : Nat → I → Except String String} {numTokensPerKey : Nat}
  {s t : PoolRun I} {a : PoolAction I}

inductive Move (getKey : Nat → I → Except String String) (numTokensPerKey : Nat)
    (s : PoolRun I) : PoolRun I → Prop
  | called {c call} : s.clients c = .idle →
      Move getKey numTokensPerKey s (s.goto c (.inCall .direct call .requesting))
  | opened {c} : s.clients c = .idle → Move getKey numTokensPerKey s (s.goto c .selecting)
  | took {c val key} : s.clients c = .selecting → getKey c val = .ok key →
      Move getKey numTokensPerKey s ((s.log (.took c val)).goto c
        (.inCall (.pipeline val key) (.consume key) .requesting))
  | keyless {c val msg} : s.clients c = .selecting →
      Move getKey numTokensPerKey s ((s.log (.took c val)).die c val msg)
  | left {c} : s.clients c = .selecting → Move getKey numTokensPerKey s (s.goto c .returned)
  | accepted {c caller call} : s.actor = .selecting →
      s.clients c = .inCall caller call .requesting →
      Move getKey numTokensPerKey s
        ({ s with actor := .receiving c }.goto c (.inCall caller call .submitting))
  | refused {c call} : s.clients c = .inCall .direct call .requesting →
      Move getKey numTokensPerKey s (s.goto c .idle)
  | died {c val key call msg} : s.clients c = .inCall (.pipeline val key) call .requesting →
      Move getKey numTokensPerKey s (s.die c val msg)
  | submitted {c caller call} : s.actor = .receiving c →
      s.clients c = .inCall caller call .submitting →
      Move getKey numTokensPerKey s
        ({ s with actor := .serving c }.goto c (.inCall caller call .awaiting))
  | served {c caller call} : s.actor = .serving c →
      s.clients c = .inCall caller call .awaiting →
      Move getKey numTokensPerKey s (s.serve numTokensPerKey c caller call)
  | woken {c caller call listener} : s.clients c = .inCall caller call (.listening listener) →
      Move getKey numTokensPerKey s (s.goto c caller.refreshed)
  | forwarded {c val} : s.clients c = .sending val →
      Move getKey numTokensPerKey s ((s.log (.forwarded c val)).goto c .selecting)
  | ticked : s.actor = .selecting → Move getKey numTokensPerKey s s.tick
  | stopped : s.actor = .selecting →
      Move getKey numTokensPerKey s { s with actor := .closed }

theorem step_move (h : s.step getKey numTokensPerKey a = some t) :
    Move getKey numTokensPerKey s t := by
  rw [step.eq_def] at h
  split at h
  · cases h
  · cases a with
    | call c call =>
      simp only at h
      split at h
      · next hc => cases h; exact .called hc
      · cases h
    | newPipeline c =>
      simp only at h
      split at h
      · next hc => cases h; exact .opened hc
      · cases h
    | take c val =>
      simp only at h
      split at h
      · next hc =>
        split at h
        · next hk => cases h; exact .took hc hk
        · cases h; exact .keyless hc
      · cases h
    | closeIn c | ctxDone c =>
      simp only at h
      split at h
      · next hc => cases h; exact .left hc
      · cases h
    | accept c =>
      simp only at h
      split at h
      · next ha hc => cases h; exact .accepted ha hc
      · cases h
    | refuse c =>
      simp only at h
      split at h
      · next hc => cases h; exact .refused hc
      · next hc => cases h; exact .died hc
      · cases h
    | submit c =>
      simp only at h
      split at h
      · next ha hc =>
        split at h
        · next he => cases h; exact .submitted (he ▸ ha) hc
        · cases h
      · cases h
    | serve =>
      simp only at h
      split at h
      · next ha =>
        split at h
        · next hc => cases h; exact .served ha hc
        · cases h
      · cases h
    | wake c =>
      simp only at h
      split at h
      · next hc =>
        split at h
        · cases h; exact .woken hc
        · cases h
      · cases h
    | forward c =>
      simp only at h
      split at h
      · next hc => cases h; exact .forwarded hc
      · cases h
    | tick =>
      simp only at h
      split at h
      · next ha => cases h; exact .ticked ha
      · cases h
    | stop =>
      simp only at h
      split at h
      · next ha => cases h; exact .stopped ha
      · cases h

@[simp] theorem goto_clients_self (s : PoolRun I) (c : Nat) (pc : ClientPC I) :
    (s.goto c pc).clients c = pc := Function.update_self ..

theorem goto_clients_ne {c c' : Nat} (h : c' ≠ c) (s : PoolRun I) (pc : ClientPC I) :
    (s.goto c pc).clients c' = s.clients c' := Function.update_of_ne h ..

/-! ## Tokens -/

/-- The number of calls of `Consume` for the key in the epoch. -/
def numConsumes (epoch : Nat) (key : String) (tr : List (PoolEvent I)) : Nat :=
  tr.countP (PoolEvent.isConsume epoch key)

def numGrants (epoch : Nat) (key : String) (tr : List (PoolEvent I)) : Nat :=
  tr.countP (PoolEvent.isGrant epoch key)

/-- The tokens that are left make up for the calls of this epoch, and in every epoch the first
calls succeed. -/
structure Spent (numTokensPerKey : Nat) (s : PoolRun I) : Prop where
  tokens : ∀ key, (s.tokensMap key).getD numTokensPerKey =
    (numTokensPerKey : Int) - numConsumes s.epoch key s.trace
  fresh : ∀ epoch key, s.epoch < epoch → numConsumes epoch key s.trace = 0
  granted : ∀ epoch key,
    numGrants epoch key s.trace = min (numConsumes epoch key s.trace) numTokensPerKey

namespace Spent

theorem start : Spent numTokensPerKey (start : PoolRun I) where
  tokens := fun key => by simp [PoolRun.start, numConsumes]
  fresh := fun epoch key _ => rfl
  granted := fun epoch key => by simp [PoolRun.start, numConsumes, numGrants]

/-- Only the tokens, the epoch and the events matter. -/
theorem congr (h : Spent numTokensPerKey s) (htokens : t.tokensMap = s.tokensMap)
    (hepoch : t.epoch = s.epoch) (htrace : t.trace = s.trace) : Spent numTokensPerKey t := by
  refine ⟨?_, ?_, ?_⟩
  · rw [htokens, hepoch, htrace]
    exact h.tokens
  · rw [hepoch, htrace]
    exact h.fresh
  · rw [htrace]
    exact h.granted

/-- Events of another kind do not count. -/
theorem append (h : Spent numTokensPerKey s) (later : List (PoolEvent I))
    (hl : ∀ ev ∈ later, ∀ epoch key,
      ev.isConsume epoch key = false ∧ ev.isGrant epoch key = false) :
    Spent numTokensPerKey { s with trace := later ++ s.trace } := by
  have hconsume (epoch : Nat) (key : String) :
      numConsumes epoch key (later ++ s.trace) = numConsumes epoch key s.trace := by
    rw [numConsumes, List.countP_append, List.countP_eq_zero.2, Nat.zero_add, numConsumes]
    intro ev hev
    rw [(hl ev hev epoch key).1]
    decide
  have hgrant (epoch : Nat) (key : String) :
      numGrants epoch key (later ++ s.trace) = numGrants epoch key s.trace := by
    rw [numGrants, List.countP_append, List.countP_eq_zero.2, Nat.zero_add, numGrants]
    intro ev hev
    rw [(hl ev hev epoch key).2]
    decide
  refine ⟨fun key => ?_, fun epoch key hlt => ?_, fun epoch key => ?_⟩
  · rw [hconsume]
    exact h.tokens key
  · rw [hconsume]
    exact h.fresh epoch key hlt
  · rw [hconsume, hgrant]
    exact h.granted epoch key

/-- A `Consume` takes the next token, if there is one. -/
theorem consume (h : Spent numTokensPerKey s) (c : Nat) (key : String) :
    Spent numTokensPerKey ({ s with
      tokensMap := Function.update s.tokensMap key
        (some (doConsume numTokensPerKey s.tokensMap key)) }.log
      (.consumed s.epoch c key (0 ≤ doConsume numTokensPerKey s.tokensMap key))) := by
  have hleft : doConsume numTokensPerKey s.tokensMap key =
      (numTokensPerKey : Int) - numConsumes s.epoch key s.trace - 1 := by
    rw [doConsume, h.tokens key]
  have hconsumes (epoch : Nat) (key' : String) :
      numConsumes epoch key'
        (.consumed s.epoch c key (0 ≤ doConsume numTokensPerKey s.tokensMap key) :: s.trace) =
      numConsumes epoch key' s.trace + if s.epoch = epoch ∧ key = key' then 1 else 0 := by
    rw [numConsumes, List.countP_cons, numConsumes]
    simp [PoolEvent.isConsume]
  have hgrants (epoch : Nat) (key' : String) :
      numGrants epoch key'
        (.consumed s.epoch c key (0 ≤ doConsume numTokensPerKey s.tokensMap key) :: s.trace) =
      numGrants epoch key' s.trace +
        if (s.epoch = epoch ∧ key = key') ∧ 0 ≤ doConsume numTokensPerKey s.tokensMap key
        then 1 else 0 := by
    rw [numGrants, List.countP_cons, numGrants]
    simp [PoolEvent.isGrant]
  refine ⟨fun key' => ?_, fun epoch key' hlt => ?_, fun epoch key' => ?_⟩
  · refine Eq.trans ?_ (congrArg _ (congrArg _ (hconsumes s.epoch key').symm))
    by_cases hk : key' = key
    · subst hk
      simp only [log, Function.update_self, Option.getD_some, hleft, and_self, if_true]
      omega
    · simp only [log, Function.update_of_ne hk, true_and, if_neg (Ne.symm hk), Nat.add_zero]
      exact h.tokens key'
  · refine (hconsumes epoch key').trans ?_
    have hne : ¬(s.epoch = epoch ∧ key = key') := fun hh => absurd hh.1 (Nat.ne_of_lt hlt)
    rw [if_neg hne]
    exact h.fresh epoch key' hlt
  · have hold := h.granted epoch key'
    refine (hgrants epoch key').trans (Eq.trans ?_ (congrArg (min · _) (hconsumes epoch key').symm))
    by_cases hek : s.epoch = epoch ∧ key = key'
    · obtain ⟨rfl, rfl⟩ := hek
      simp only [hleft, and_self, true_and, if_true]
      split <;> omega
    · rw [if_neg fun hh => hek hh.1, if_neg hek]
      exact hold

/-- A tick begins an epoch in which nothing has been consumed. -/
theorem tick (h : Spent numTokensPerKey s) : Spent numTokensPerKey s.tick := by
  have hl : Spent numTokensPerKey
      { s with trace := s.listeners.map (.closed s.epoch) ++ s.trace } := by
    refine h.append _ fun ev hev epoch key => ?_
    obtain ⟨listener, _, rfl⟩ := List.mem_map.1 hev
    exact ⟨rfl, rfl⟩
  refine ⟨fun key => ?_, fun epoch key hlt => hl.fresh epoch key (Nat.lt_of_succ_lt hlt),
    hl.granted⟩
  have hnone : numConsumes (s.epoch + 1) key s.tick.trace = 0 :=
    hl.fresh (s.epoch + 1) key (Nat.lt_succ_self _)
  show (numTokensPerKey : Int) = _ - (numConsumes (s.epoch + 1) key s.tick.trace : Int)
  rw [hnone]
  exact (sub_zero _).symm

theorem move (h : Spent numTokensPerKey s) (hm : Move getKey numTokensPerKey s t) :
    Spent numTokensPerKey t := by
  cases hm with
  | called | opened | left | accepted | refused | died | submitted | woken | stopped =>
    exact h.congr rfl rfl rfl
  | took | keyless | forwarded =>
    exact (h.append [_] (by simp [PoolEvent.isConsume, PoolEvent.isGrant])).congr rfl rfl rfl
  | @served c caller call ha hc =>
    cases call with
    | consume key => exact (h.consume c key).congr rfl rfl rfl
    | waitForRefresh =>
      exact (h.append [_] (by simp [PoolEvent.isConsume, PoolEvent.isGrant])).congr rfl rfl rfl
  | ticked => exact h.tick

end Spent

/-! ## Listeners -/

/-- How often the tick that ends the epoch has closed the listener. -/
def numCloses (epoch listener : Nat) (tr : List (PoolEvent I)) : Nat :=
  tr.countP (PoolEvent.isClose epoch listener)

theorem numCloses_map (epoch epoch' listener : Nat) (l : List Nat) :
    numCloses epoch' listener (l.map (PoolEvent.closed (I := I) epoch)) =
      if epoch' = epoch then l.count listener else 0 := by
  rw [numCloses, List.countP_map]
  split
  · next he =>
    subst he
    refine List.countP_congr fun x _ => ?_
    simp [PoolEvent.isClose]
  · next he =>
    refine List.countP_eq_zero.2 fun x _ => ?_
    simp [PoolEvent.isClose, Ne.symm he]

/-- A listener that was registered is closed when its epoch is over, once, and by the tick that
ends it. -/
structure Heard (s : PoolRun I) : Prop where
  listeners : ∀ listener, listener ∈ s.listeners ↔ .registered s.epoch listener ∈ s.trace
  nodup : s.listeners.Nodup
  old : ∀ epoch listener, .registered epoch listener ∈ s.trace →
    epoch ≤ s.epoch ∧ listener < s.nextListener
  unique : ∀ epoch epoch' listener, .registered epoch listener ∈ s.trace →
    .registered epoch' listener ∈ s.trace → epoch = epoch'
  closes : ∀ epoch listener, .registered epoch listener ∈ s.trace → ∀ epoch',
    numCloses epoch' listener s.trace = if epoch' = epoch ∧ epoch < s.epoch then 1 else 0
  unborn : ∀ epoch listener, s.nextListener ≤ listener → numCloses epoch listener s.trace = 0

namespace Heard

theorem start : Heard (start : PoolRun I) where
  listeners := fun listener => by simp [PoolRun.start]
  nodup := List.nodup_nil
  old := by intro epoch listener h; cases h
  unique := by intro epoch epoch' listener h; cases h
  closes := by intro epoch listener h; cases h
  unborn := fun _ _ _ => rfl

theorem congr (h : Heard s) (hlisteners : t.listeners = s.listeners)
    (hnext : t.nextListener = s.nextListener) (hepoch : t.epoch = s.epoch)
    (htrace : t.trace = s.trace) : Heard t := by
  constructor
  · rw [hlisteners, hepoch, htrace]
    exact h.listeners
  · rw [hlisteners]
    exact h.nodup
  · rw [hnext, hepoch, htrace]
    exact h.old
  · rw [htrace]
    exact h.unique
  · rw [hepoch, htrace]
    exact h.closes
  · rw [hnext, htrace]
    exact h.unborn

/-- Events of another kind do not count. -/
theorem cons (h : Heard s) {ev : PoolEvent I} (hr : ev.isRegister = false)
    (hc : ∀ epoch listener, ev.isClose epoch listener = false) : Heard (s.log ev) := by
  have hmem (epoch listener : Nat) : .registered epoch listener ∈ (s.log ev).trace ↔
      .registered epoch listener ∈ s.trace := by
    refine ⟨fun hm => (List.mem_cons.1 hm).resolve_left ?_, List.mem_cons_of_mem _⟩
    rintro rfl
    cases hr
  have hcloses (epoch listener : Nat) : numCloses epoch listener (s.log ev).trace =
      numCloses epoch listener s.trace :=
    List.countP_cons_of_neg (by rw [hc]; decide)
  constructor
  · intro listener
    rw [hmem]
    exact h.listeners listener
  · exact h.nodup
  · intro epoch listener hm
    exact h.old epoch listener ((hmem ..).1 hm)
  · intro epoch epoch' listener hm hm'
    exact h.unique epoch epoch' listener ((hmem ..).1 hm) ((hmem ..).1 hm')
  · intro epoch listener hm epoch'
    rw [hcloses]
    exact h.closes epoch listener ((hmem ..).1 hm) epoch'
  · intro epoch listener hle
    rw [hcloses]
    exact h.unborn epoch listener hle

/-- A new listener is registered. -/
theorem register (h : Heard s) : Heard ({ s with
    listeners := s.listeners ++ [s.nextListener], nextListener := s.nextListener + 1 }.log
      (.registered s.epoch s.nextListener)) := by
  have hcloses (epoch listener : Nat) :
      numCloses epoch listener (.registered s.epoch s.nextListener :: s.trace) =
        numCloses epoch listener s.trace :=
    List.countP_cons_of_neg (by simp [PoolEvent.isClose])
  have hnew (epoch : Nat) : .registered epoch s.nextListener ∉ s.trace := fun hm =>
    Nat.lt_irrefl _ (h.old epoch s.nextListener hm).2
  have hmem {epoch listener : Nat}
      (hm : .registered epoch listener ∈ PoolEvent.registered s.epoch s.nextListener :: s.trace) :
      (epoch = s.epoch ∧ listener = s.nextListener) ∨ .registered epoch listener ∈ s.trace :=
    (List.mem_cons.1 hm).imp_left fun he => by cases he; exact ⟨rfl, rfl⟩
  constructor
  · intro listener
    have hold := h.listeners listener
    constructor
    · intro hl
      rcases List.mem_append.1 hl with hl | hl
      · exact List.mem_cons_of_mem _ (hold.1 hl)
      · rw [List.mem_singleton.1 hl]
        exact List.mem_cons_self
    · intro hl
      rcases hmem hl with ⟨_, rfl⟩ | hl
      · exact List.mem_append_right _ (List.mem_singleton_self _)
      · exact List.mem_append_left _ (hold.2 hl)
  · refine h.nodup.append (List.nodup_singleton _) (List.disjoint_singleton.2 fun hin => ?_)
    exact hnew s.epoch ((h.listeners _).1 hin)
  · intro epoch listener hm
    rcases hmem hm with ⟨rfl, rfl⟩ | hm
    · exact ⟨le_rfl, Nat.lt_succ_self _⟩
    · exact ⟨(h.old epoch listener hm).1, Nat.lt_succ_of_lt (h.old epoch listener hm).2⟩
  · intro epoch epoch' listener hm hm'
    rcases hmem hm with ⟨rfl, rfl⟩ | hm
    · rcases hmem hm' with ⟨rfl, _⟩ | hm'
      · rfl
      · exact absurd hm' (hnew epoch')
    · rcases hmem hm' with ⟨rfl, rfl⟩ | hm'
      · exact absurd hm (hnew epoch)
      · exact h.unique epoch epoch' listener hm hm'
  · intro epoch listener hm epoch'
    refine (hcloses epoch' listener).trans ?_
    rcases hmem hm with ⟨rfl, rfl⟩ | hm
    · rw [h.unborn epoch' s.nextListener le_rfl, if_neg fun hh => Nat.lt_irrefl _ hh.2]
    · exact h.closes epoch listener hm epoch'
  · intro epoch listener hle
    exact (hcloses epoch listener).trans (h.unborn epoch listener (Nat.le_of_succ_le hle))

/-- A tick closes the listeners of its epoch. -/
theorem tick (h : Heard s) : Heard s.tick := by
  have hmem (epoch listener : Nat) : .registered epoch listener ∈ s.tick.trace ↔
      .registered epoch listener ∈ s.trace := by
    refine ⟨fun hm => (List.mem_append.1 hm).resolve_left fun hm => ?_,
      List.mem_append_right _⟩
    obtain ⟨_, _, he⟩ := List.mem_map.1 hm
    cases he
  have hcloses (epoch listener : Nat) : numCloses epoch listener s.tick.trace =
      (if epoch = s.epoch then s.listeners.count listener else 0) +
        numCloses epoch listener s.trace := by
    rw [← numCloses_map]
    exact List.countP_append
  constructor
  · intro listener
    rw [hmem]
    refine ⟨by rintro ⟨⟩, fun hm => ?_⟩
    exact absurd (h.old _ _ hm).1 (Nat.not_succ_le_self _)
  · exact List.nodup_nil
  · intro epoch listener hm
    have hold := h.old epoch listener ((hmem ..).1 hm)
    exact ⟨Nat.le_succ_of_le hold.1, hold.2⟩
  · intro epoch epoch' listener hm hm'
    exact h.unique epoch epoch' listener ((hmem ..).1 hm) ((hmem ..).1 hm')
  · intro epoch listener hm epoch'
    have hm := (hmem ..).1 hm
    rw [hcloses, h.closes epoch listener hm epoch']
    have hle := (h.old epoch listener hm).1
    have hcount : s.listeners.count listener = if epoch = s.epoch then 1 else 0 := by
      by_cases he : epoch = s.epoch
      · subst he
        rw [if_pos rfl]
        exact List.count_eq_one_of_mem h.nodup ((h.listeners listener).2 hm)
      · rw [if_neg he]
        refine List.count_eq_zero.2 fun hl => he ?_
        exact h.unique _ _ listener hm ((h.listeners listener).1 hl)
    show _ = if epoch' = epoch ∧ epoch < s.epoch + 1 then 1 else 0
    rw [hcount]
    split_ifs <;> omega
  · intro epoch listener hle
    rw [hcloses, h.unborn epoch listener hle]
    have hnone : s.listeners.count listener = 0 := by
      refine List.count_eq_zero.2 fun hl => ?_
      exact absurd (h.old _ _ ((h.listeners listener).1 hl)).2 (Nat.not_lt.2 hle)
    rw [hnone, ite_self]

theorem move (h : Heard s) (hm : Move getKey numTokensPerKey s t) : Heard t := by
  cases hm with
  | called | opened | left | accepted | refused | died | submitted | woken | stopped =>
    exact h.congr rfl rfl rfl rfl
  | took | keyless | forwarded => exact (h.cons rfl fun _ _ => rfl).congr rfl rfl rfl rfl
  | @served c caller call ha hc =>
    cases call with
    | consume key =>
      have hlog : Heard (s.log (.consumed s.epoch c key
          (0 ≤ doConsume numTokensPerKey s.tokensMap key))) := h.cons rfl fun _ _ => rfl
      exact hlog.congr rfl rfl rfl rfl
    | waitForRefresh => exact h.register.congr rfl rfl rfl rfl
  | ticked => exact h.tick

end Heard

theorem spent (h : (poolSystem getKey numTokensPerKey).Reachable .any s) :
    Spent numTokensPerKey s :=
  h.invariant Spent.start fun _ _ _ hs _ hst => hs.move (step_move hst)

theorem heard (h : (poolSystem getKey numTokensPerKey).Reachable .any s) : Heard s :=
  h.invariant Heard.start fun _ _ _ hs _ hst => hs.move (step_move hst)

end PoolRun

end CloudPing.Ratelimit.TokenPool

import CloudPing.Conc.System
import Mathlib.Logic.Function.Basic

/-!
# Conversations

A handler of the bot registers the canceller of its context under the key of its message
(`CheckIn`); the callback of a button takes the conversation over (`CutIn`): it loads the
context under the key, calls its canceller, and stores a context with its own canceller.  The
three are separate steps on a `sync.Map`.

Two things can go wrong.  The callback of the cancel button of a probe stores a nil canceller,
and the next `CutIn` calls it (`cancel_twice`).  And a `Store` can displace a context that no
`CutIn` has loaded: its handler then goes on.

`loadedFirst` forbids just these two.  In runs that meet it a conversation has one live handler
(`one_live_handler`).
-/

namespace CloudPing.Bot

open Conc

/-! ## Keys and contexts -/

structure ConversationKey where
  chatId : Int
  msgId : Int

/-- `(*ConversationKey).String`. -/
def ConversationKey.string : Option ConversationKey → String
  | none => ""
  | some cvKey => "chatId=" ++ toString cvKey.chatId ++ ":msgId=" ++ toString cvKey.msgId

structure MessageRecord (C : Type*) where
  dateTime : Int
  content : String
  initialCommand : Option C

/-- The canceller of a handler, by the number of its call. -/
abbrev CancelFunc := Nat

structure ConversationContext (C : Type*) where
  canceller : Option CancelFunc
  messages : List (MessageRecord C)

/-- The handlers that check in. -/
inductive CommandHandler
  | handleProbe
  | handlePing
  | handleTraceroute
  deriving DecidableEq

/-- The callbacks that cut in. -/
inductive QueryCallback
  | handlePingQueryCallback
  | handleTraceQueryCallback
  | handleProbeCancelQueryCallback
  deriving DecidableEq

/-- The canceller the callback of this call passes. -/
def QueryCallback.canceller (n : Nat) : QueryCallback → Option CancelFunc
  | .handlePingQueryCallback | .handleTraceQueryCallback => some n
  | .handleProbeCancelQueryCallback => none

/-- The canceller the handler of this call passes. -/
def CommandHandler.canceller (n : Nat) : CommandHandler → Option CancelFunc
  | .handleProbe | .handlePing | .handleTraceroute => some n

/-! ## Calls -/

/-- Where a call of `CheckIn` or `CutIn` stands. -/
inductive ConvPC (C : Type*)
  | notCalled
  /-- `CheckIn`, before `Store`. -/
  | checkingIn (key : String) (convCtx : ConversationContext C)
  | checkedIn
  /-- `CutIn`, before `Load`. -/
  | loading (key : String) (canceller : Option CancelFunc)
  /-- Before `convCtx.Cancaller()`. -/
  | cancelling (key : String) (canceller : Option CancelFunc) (convCtx : ConversationContext C)
  /-- Before `Store`. -/
  | replacing (key : String) (newConvCtx : ConversationContext C)
  | cutIn (result : Except String (List (MessageRecord C)))

def ConvPC.finished {C : Type*} : ConvPC C → Bool
  | .notCalled | .checkedIn | .cutIn _ => true
  | .checkingIn .. | .loading .. | .cancelling .. | .replacing .. => false

/-- The key a call is about to load. -/
def ConvPC.loadingKey {C : Type*} : ConvPC C → Option String
  | .loading key _ => some key
  | _ => none

/-- The canceller a call is about to call. -/
def ConvPC.cancels {C : Type*} : ConvPC C → Option CancelFunc
  | .cancelling _ _ convCtx => convCtx.canceller
  | _ => none

/-- What a call is about to store, and where. -/
def ConvPC.storing {C : Type*} : ConvPC C → Option (String × ConversationContext C)
  | .checkingIn key convCtx => some (key, convCtx)
  | .replacing key newConvCtx => some (key, newConvCtx)
  | _ => none

theorem ConvPC.cancels_of_storing {C : Type*} {pc : ConvPC C} {p : String × ConversationContext C}
    (h : pc.storing = some p) : pc.cancels = none := by
  cases pc with
  | cancelling => cases h
  | notCalled | checkingIn | checkedIn | loading | replacing | cutIn => rfl

theorem ConvPC.cancels_of_finished {C : Type*} {pc : ConvPC C} (h : pc.finished = true) :
    pc.cancels = none := by
  cases pc with
  | cancelling => cases h
  | notCalled | checkingIn | checkedIn | loading | replacing | cutIn => rfl

inductive ConvEvent
  /-- The context of a canceller is stored under the key. -/
  | stored (key : String) (canceller : CancelFunc)
  /-- The call has loaded the context of this canceller. -/
  | loaded (n : Nat) (canceller : CancelFunc)
  | invoked (canceller : CancelFunc)
  deriving DecidableEq

def ConvEvent.isLoadOf (f : CancelFunc) : ConvEvent → Bool
  | .loaded _ f' => f' == f
  | _ => false

theorem ConvEvent.eq_of_isLoadOf {f : CancelFunc} {ev : ConvEvent} (h : ev.isLoadOf f = true) :
    ∃ n, ev = .loaded n f := by
  cases ev with
  | loaded n f' => exact ⟨n, by rw [beq_iff_eq.1 h]⟩
  | stored | invoked => cases h

structure ConvRun (C : Type*) where
  store : String → Option (ConversationContext C)
  calls : Nat → ConvPC C
  /-- A nil canceller was called. -/
  panicked : Bool
  /-- What has happened, newest first; no step reads it. -/
  trace : List ConvEvent

inductive ConvAction (C : Type*)
  | checkIn (n : Nat) (handler : CommandHandler) (key : Option ConversationKey)
      (initialMessage : MessageRecord C)
  | cutIn (n : Nat) (callback : QueryCallback) (key : Option ConversationKey)
  | load (n : Nat)
  | cancel (n : Nat)
  | store (n : Nat)

/-- `ErrNonExistConversation`. -/
def errNonExistConversation : String := "Conversation doesn't exist"

namespace ConvRun

variable {C : Type*}

def start : ConvRun C :=
  { store := fun _ => none, calls := fun _ => .notCalled, panicked := false, trace := [] }

def goto (s : ConvRun C) (n : Nat) (pc : ConvPC C) : ConvRun C :=
  { s with calls := Function.update s.calls n pc }

/-- Log an event about a canceller, if there is one. -/
def log (s : ConvRun C) (ev : CancelFunc → ConvEvent) (canceller : Option CancelFunc) :
    ConvRun C :=
  { s with trace := (canceller.map ev).toList ++ s.trace }

/-- `convMng.store.Store`. -/
def put (s : ConvRun C) (key : String) (convCtx : ConversationContext C) : ConvRun C :=
  { s with store := Function.update s.store key (some convCtx) }.log (.stored key)
    convCtx.canceller

def step (s : ConvRun C) (a : ConvAction C) : Option (ConvRun C) :=
  if s.panicked then none
  else
    match a with
    | .checkIn n handler key initialMessage =>
      match s.calls n with
      | .notCalled =>
        some (s.goto n
          (.checkingIn (ConversationKey.string key) ⟨handler.canceller n, [initialMessage]⟩))
      | _ => none
    | .cutIn n callback key =>
      match s.calls n with
      | .notCalled => some (s.goto n (.loading (ConversationKey.string key) (callback.canceller n)))
      | _ => none
    | .load n =>
      match s.calls n with
      | .loading key canceller =>
        match s.store key with
        | some convCtx =>
          some ((s.log (.loaded n) convCtx.canceller).goto n (.cancelling key canceller convCtx))
        | none => some (s.goto n (.cutIn (.error errNonExistConversation)))
      | _ => none
    | .cancel n =>
      match s.calls n with
      | .cancelling key canceller convCtx =>
        match convCtx.canceller with
        | some f =>
          some ((s.log .invoked (some f)).goto n (.replacing key ⟨canceller, convCtx.messages⟩))
        | none => some { s with panicked := true }
      | _ => none
    | .store n =>
      match s.calls n with
      | .checkingIn key convCtx => some ((s.put key convCtx).goto n .checkedIn)
      | .replacing key newConvCtx =>
        some ((s.put key newConvCtx).goto n (.cutIn (.ok newConvCtx.messages)))
      | _ => none

/-- Every call has returned. -/
def Finished (s : ConvRun C) : Prop := ∀ n, (s.calls n).finished = true

/-- The canceller of the context under the key. -/
def current (s : ConvRun C) (key : String) : Option CancelFunc :=
  (s.store key).bind ConversationContext.canceller

/-! ## The promise and the condition -/

/-- No call calls a nil canceller, and once all calls have returned every canceller that was
registered for a key has been called, but for the one stored there. -/
structure OneLiveHandler (s : ConvRun C) : Prop where
  alive : s.panicked = false
  called : s.Finished → ∀ key f, .stored key f ∈ s.trace →
    .invoked f ∈ s.trace ∨ s.current key = some f

/-- A `CutIn` loads no context with a nil canceller, and no `Store` displaces a context with a
canceller that no call has loaded. -/
def loadedFirst : Policy (ConvRun C) (ConvAction C) := fun s a =>
  match a with
  | .load n =>
    ∀ key ∈ (s.calls n).loadingKey, ∀ convCtx ∈ s.store key, convCtx.canceller.isSome = true
  | .store n =>
    ∀ p ∈ (s.calls n).storing, ∀ f ∈ s.current p.1, ∃ ev ∈ s.trace, ev.isLoadOf f = true
  | _ => True

instance : ∀ (s : ConvRun C) a, Decidable (loadedFirst s a) := fun s a =>
  match a with
  | .load n => inferInstanceAs (Decidable (∀ key ∈ (s.calls n).loadingKey, _))
  | .store n => inferInstanceAs (Decidable (∀ p ∈ (s.calls n).storing, _))
  | .checkIn .. | .cutIn .. | .cancel _ => isTrue trivial

/-! ## What a step does -/

variable {s t : ConvRun C} {a : ConvAction C}

@[simp] theorem goto_calls_self (s : ConvRun C) (n : Nat) (pc : ConvPC C) :
    (s.goto n pc).calls n = pc := Function.update_self ..

theorem goto_calls_ne {n n' : Nat} (h : n' ≠ n) (s : ConvRun C) (pc : ConvPC C) :
    (s.goto n pc).calls n' = s.calls n' := Function.update_of_ne h ..

inductive Move (s : ConvRun C) : ConvAction C → ConvRun C → Prop
  /-- A call begins, or finds nothing under its key. -/
  | went {a n pc} : (s.calls n).cancels = none →
      (∀ key canceller convCtx, pc ≠ .cancelling key canceller convCtx) → Move s a (s.goto n pc)
  | loaded {n key canceller convCtx} : s.calls n = .loading key canceller →
      s.store key = some convCtx →
      Move s (.load n)
        ((s.log (.loaded n) convCtx.canceller).goto n (.cancelling key canceller convCtx))
  | cancelled {n key canceller convCtx f} : s.calls n = .cancelling key canceller convCtx →
      convCtx.canceller = some f →
      Move s (.cancel n)
        ((s.log .invoked (some f)).goto n (.replacing key ⟨canceller, convCtx.messages⟩))
  | panicked {n key canceller convCtx} : s.calls n = .cancelling key canceller convCtx →
      convCtx.canceller = none → Move s (.cancel n) { s with panicked := true }
  | stored {n key convCtx pc} : (s.calls n).storing = some (key, convCtx) →
      (∀ key canceller convCtx, pc ≠ .cancelling key canceller convCtx) →
      Move s (.store n) ((s.put key convCtx).goto n pc)

theorem step_move (h : s.step a = some t) : Move s a t := by
  rw [step.eq_def] at h
  split at h
  · cases h
  · cases a with
    | checkIn n handler key initialMessage =>
      simp only at h
      split at h
      · next hc => cases h; exact .went (by rw [hc]; rfl) (by rintro _ _ _ ⟨⟩)
      · cases h
    | cutIn n callback key =>
      simp only at h
      split at h
      · next hc => cases h; exact .went (by rw [hc]; rfl) (by rintro _ _ _ ⟨⟩)
      · cases h
    | load n =>
      simp only at h
      split at h
      · next hc =>
        split at h
        · next hs => cases h; exact .loaded hc hs
        · cases h; exact .went (by rw [hc]; rfl) (by rintro _ _ _ ⟨⟩)
      · cases h
    | cancel n =>
      simp only at h
      split at h
      · next hc =>
        split at h
        · next hf => cases h; exact .cancelled hc hf
        · next hf => cases h; exact .panicked hc hf
      · cases h
    | store n =>
      simp only at h
      split at h
      · next hc => cases h; exact .stored (by rw [hc]; rfl) (by rintro _ _ _ ⟨⟩)
      · next hc => cases h; exact .stored (by rw [hc]; rfl) (by rintro _ _ _ ⟨⟩)
      · cases h

/-! ## The condition is enough -/

/-- A canceller that was loaded has been called or is about to be; one that was stored is still
there or has been loaded. -/
structure Handed (s : ConvRun C) : Prop where
  alive : s.panicked = false
  nonNil : ∀ n key canceller convCtx, s.calls n = .cancelling key canceller convCtx →
    convCtx.canceller.isSome = true
  heard : ∀ n f, .loaded n f ∈ s.trace → .invoked f ∈ s.trace ∨ (s.calls n).cancels = some f
  kept : ∀ key f, .stored key f ∈ s.trace →
    s.current key = some f ∨ ∃ n, .loaded n f ∈ s.trace

namespace Handed

theorem start : Handed (start : ConvRun C) where
  alive := rfl
  nonNil := by intro n key canceller convCtx h; cases h
  heard := by intro n f h; cases h
  kept := by intro key f h; cases h

/-- One call goes on; the other calls and what they have loaded are as before. -/
theorem act (h : Handed s) {n : Nat} {pc : ConvPC C} (later : List ConvEvent)
    (hpc : ∀ key canceller convCtx, pc = .cancelling key canceller convCtx →
      convCtx.canceller.isSome = true)
    (hmine : ∀ n' f, .loaded n' f ∈ later → n' = n ∧ pc.cancels = some f)
    (hcalled : ∀ f, (s.calls n).cancels = some f →
      .invoked f ∈ later ++ s.trace ∨ pc.cancels = some f)
    {store : String → Option (ConversationContext C)}
    (hkept : ∀ key f, .stored key f ∈ later ++ s.trace →
      (store key).bind ConversationContext.canceller = some f ∨
        ∃ n, .loaded n f ∈ later ++ s.trace) :
    Handed ({ s with store := store, trace := later ++ s.trace }.goto n pc) := by
  refine ⟨h.alive, fun n' key canceller convCtx hc => ?_, fun n' f hmem => ?_, hkept⟩
  · by_cases hn : n' = n
    · subst hn
      rw [goto_calls_self] at hc
      exact hpc key canceller convCtx hc
    · rw [goto_calls_ne hn] at hc
      exact h.nonNil n' key canceller convCtx hc
  · rcases List.mem_append.1 hmem with hmem | hmem
    · obtain ⟨rfl, hcancels⟩ := hmine n' f hmem
      rw [goto_calls_self]
      exact Or.inr hcancels
    · have hheard := (h.heard n' f hmem).imp_left (List.mem_append_right later)
      by_cases hn : n' = n
      · subst hn
        rw [goto_calls_self]
        exact hheard.elim Or.inl (hcalled f)
      · rwa [goto_calls_ne hn]

theorem move (h : Handed s) (hok : loadedFirst s a) (hm : Move s a t) : Handed t := by
  cases hm with
  | @went _ n pc hc hpc =>
    refine h.act [] ?_ (by rintro _ _ ⟨⟩) ?_ h.kept
    · exact fun key canceller convCtx hp => absurd hp (hpc key canceller convCtx)
    · intro f hf
      rw [hc] at hf
      cases hf
  | @loaded n key canceller convCtx hc hs =>
    have hkey : (s.calls n).loadingKey = some key := by rw [hc]; rfl
    obtain ⟨f, hf⟩ := Option.isSome_iff_exists.1 (hok key hkey convCtx hs)
    rw [hf]
    refine h.act [.loaded n f] ?_ ?_ ?_ ?_
    · rintro _ _ _ ⟨⟩
      rw [hf]
      rfl
    · intro n' f' hmem
      cases List.mem_singleton.1 hmem
      exact ⟨rfl, hf⟩
    · intro f' hf'
      rw [hc] at hf'
      cases hf'
    · intro key' f' hmem
      refine (h.kept key' f' ?_).imp_right fun ⟨n', hn⟩ => ⟨n', List.mem_cons_of_mem _ hn⟩
      exact (List.mem_cons.1 hmem).resolve_left (by rintro ⟨⟩)
  | @cancelled n key canceller convCtx f hc hf =>
    refine h.act [.invoked f] (by rintro _ _ _ ⟨⟩) ?_ ?_ ?_
    · intro n' f' hmem
      cases List.mem_singleton.1 hmem
    · intro f' hf'
      rw [hc, ConvPC.cancels, hf] at hf'
      cases hf'
      exact Or.inl List.mem_cons_self
    · intro key' f' hmem
      refine (h.kept key' f' ?_).imp_right fun ⟨n', hn⟩ => ⟨n', List.mem_cons_of_mem _ hn⟩
      exact (List.mem_cons.1 hmem).resolve_left (by rintro ⟨⟩)
  | panicked hc hnil =>
    exact absurd (h.nonNil _ _ _ _ hc) (by rw [hnil]; decide)
  | @stored n key convCtx pc hc hpc =>
    refine h.act (convCtx.canceller.map (.stored key)).toList ?_ ?_ ?_ ?_
    · exact fun key canceller convCtx hp => absurd hp (hpc key canceller convCtx)
    · intro n' f' hmem
      obtain ⟨f, _, hev⟩ := Option.map_eq_some_iff.1 (Option.mem_toList.1 hmem)
      cases hev
    · intro f' hf'
      rw [ConvPC.cancels_of_storing hc] at hf'
      cases hf'
    · intro key' f' hmem
      rcases List.mem_append.1 hmem with hmem | hmem
      · obtain ⟨f, hf, hev⟩ := Option.map_eq_some_iff.1 (Option.mem_toList.1 hmem)
        cases hev
        simp only [Function.update_self]
        exact Or.inl hf
      · have hold := h.kept key' f' hmem
        by_cases hk : key' = key
        · subst hk
          -- what is displaced has been loaded
          refine Or.inr (hold.elim (fun hcur => ?_) fun ⟨n', hn⟩ => ⟨n', ?_⟩)
          · obtain ⟨ev, hev, hload⟩ := hok _ hc f' hcur
            obtain ⟨n', rfl⟩ := ConvEvent.eq_of_isLoadOf hload
            exact ⟨n', List.mem_append_right _ hev⟩
          · exact List.mem_append_right _ hn
        · simp only [Function.update_of_ne hk]
          exact hold.imp_right fun ⟨n', hn⟩ => ⟨n', List.mem_append_right _ hn⟩

theorem oneLiveHandler (h : Handed s) : OneLiveHandler s where
  alive := h.alive
  called := by
    intro hfin key f hmem
    rcases h.kept key f hmem with hcur | ⟨n, hn⟩
    · exact Or.inr hcur
    · refine Or.inl ((h.heard n f hn).resolve_right ?_)
      rw [ConvPC.cancels_of_finished (hfin n)]
      rintro ⟨⟩

end Handed

end ConvRun

/-- A conversation manager with the calls of the handlers of the bot. -/
def conversationSystem (C : Type*) : System (ConvRun C) (ConvAction C) where
  init := .start
  step := ConvRun.step

open ConvRun

variable {C : Type*} {s : ConvRun C}

theorem handed (h : (conversationSystem C).Reachable loadedFirst s) : Handed s :=
  h.invariant Handed.start fun _ _ _ hs hok hst => hs.move hok (step_move hst)

/-- In a run in which no nil canceller is loaded and every context is loaded before it is
displaced, a conversation has one live handler. -/
theorem one_live_handler (s : ConvRun C) (h : (conversationSystem C).Reachable loadedFirst s) :
    OneLiveHandler s :=
  (handed h).oneLiveHandler

/-- The message of the samples. -/
def sampleKey : Option ConversationKey := some ⟨-100, 7⟩

/-- A ping, a press of one of its buttons, and then another. -/
theorem one_live_handler_pressed :
    ∃ s, (conversationSystem Unit).Reachable loadedFirst s ∧
      s.current (ConversationKey.string sampleKey) = some 2 ∧ OneLiveHandler s := by
  obtain ⟨s, hr, hp⟩ := System.exists_of_replay (conversationSystem Unit) loadedFirst
    (fun s => s.current (ConversationKey.string sampleKey) = some 2)
    [.checkIn 0 .handlePing sampleKey ⟨0, "/ping example.com", none⟩, .store 0,
      .cutIn 1 .handlePingQueryCallback sampleKey, .load 1, .cancel 1, .store 1,
      .cutIn 2 .handlePingQueryCallback sampleKey, .load 2, .cancel 2, .store 2] (by decide)
  exact ⟨s, hr, of_decide_eq_true hp, one_live_handler s hr⟩

/-- The cancel button of a probe, pressed twice. -/
theorem cancel_twice : ¬∀ s, (conversationSystem Unit).Reachable .any s → OneLiveHandler s := by
  intro h
  obtain ⟨s, hr, hp⟩ := System.exists_of_replay (conversationSystem Unit) .any
    (fun s => s.panicked)
    [.checkIn 0 .handleProbe sampleKey ⟨0, "/probe 192.0.2.0/24", none⟩, .store 0,
      .cutIn 1 .handleProbeCancelQueryCallback sampleKey, .load 1, .cancel 1, .store 1,
      .cutIn 2 .handleProbeCancelQueryCallback sampleKey, .load 2, .cancel 2] (by decide)
  rw [(h s hr).alive] at hp
  cases hp

end CloudPing.Bot

import CloudPing.Conc.System
import CloudPing.Tcping.Tracker

/-!
# The TCP pinger

`TCPSYNPinger.Ping` runs, for each target, a *main* loop that sends a SYN packet at each
tick and outputs each event of the tracker; a *receiving* goroutine that passes replies to
the tracker; and the tracker's goroutine.  Each packet has a goroutine that waits for its
timer or its reply, and one that calls `handleTimeout` after the timer.

`EventC` and `serviceChan` are unbuffered.  The tracker sends an event inside the function
of `handleTimeout` or `MarkReceived`, and the main loop is the only reader of `EventC`.
The main loop calls `MarkSent`, inside `Send`, and waits there until the tracker is free.

The consumer keeps reading: a send on `evCh` never waits for long.
-/

namespace CloudPing.Pinger

open Conc Tcping

/-- What `Ping` reads of its pinger for one target. -/
structure SYNConfig where
  dstIP : IP
  dstPort : Int
  timeout : Duration
  totalPkts : Option Int
  /-- The number of ticks that can be on their way: one in the ticker's channel, and more
  in the goroutines of the rate limiter. -/
  tickBuffer : Nat
  /-- The ticks go through a rate limiter. -/
  throttled : Bool

/-- The receipt of a packet from the given address and port, before it is marked sent. -/
def SYNConfig.receipt (config : SYNConfig) (srcIP : IP) (srcPort : UInt16) :
    TCPSYNSentReceipt where
  seq := 0
  srcIP := srcIP
  srcPort := srcPort.toNat
  request := ⟨config.dstIP, config.dstPort, config.timeout⟩

/-- What the filter goroutine asks for. -/
def SYNConfig.requirements (config : SYNConfig) : FilterRequirements where
  syn := some true
  ack := some true
  srcPort := some config.dstPort

/-- Where the main loop is. -/
inductive SYNMainPC where
  | select
  /-- In `Send`, before `MarkSent`. -/
  | preparing
  /-- In `MarkSent`, at the receive on `serviceChan`. -/
  | markingSent (key : Key) (receipt : TCPSYNSentReceipt)
  /-- In `Send`, after `MarkSent`. -/
  | writing (key : Key) (seq : Int)
  /-- At the send of an error on `evCh`. -/
  | failing (err : String)
  /-- At the send of an event on `evCh`. -/
  | outputting (ev : TrackerEvent)
  /-- In the deferred receive on `allConfirmedCh`. -/
  | confirming
  | returned
  deriving DecidableEq, Repr

/-- Who waits for the function that the tracker executes. -/
inductive Caller where
  | receiver
  | timer
  deriving DecidableEq, Repr

/-- Where the goroutine of `Tracker.Run` is. -/
inductive ServicePC where
  | select
  /-- In the function of `handleTimeout` or `MarkReceived`, at the send on `EventC`. -/
  | emitting (ev : TrackerEvent) (caller : Caller)
  | returned
  deriving DecidableEq, Repr

/-- Where the receiving goroutine is. -/
inductive SYNReceiverPC where
  | select
  /-- In `MarkReceived`, at the receive on `serviceChan`. -/
  | marking (pkgInfo : PacketInfo)
  /-- In `MarkReceived`, until its function has returned. -/
  | served
  | returned
  deriving DecidableEq, Repr

/-- The goroutines of one target. -/
structure SYNRun where
  tk : Tracker
  actor : ServicePC
  main : SYNMainPC
  rx : SYNReceiverPC
  ctxDone : Bool
  /-- The ticks on their way to the main loop. -/
  ticks : Nat
  /-- The ticker was not stopped. -/
  ticking : Bool
  allConfirmed : Bool
  /-- The packets whose goroutine waits for its timer or its reply. -/
  armed : List Key
  /-- The packets with a value in `ReceivedC`. -/
  answered : List Key
  /-- The packets whose goroutine has still to call `handleTimeout`. -/
  expired : List Key
  panicked : Bool
  output : List (Except String TrackerEvent)

inductive SYNAction where
  | cancel
  | tickerFires
  | tick
  | tickClosed
  | ctxDone
  | sendErr (err : String)
  | prepare (srcIP : IP) (srcPort : UInt16)
  | markSent
  | write (err : Option String)
  | takeEvent
  | eventsClosed
  | output
  | confirm
  | reply (pkgInfo : PacketInfo)
  | filteredClosed
  | rxCtxDone
  | markReceived
  | timerFires (key : Key)
  | reset (key : Key)
  | handleTimeout (key : Key)
  | exit

namespace SYNRun

/-- The goroutines have started. -/
def start : SYNRun where
  tk := NewTracker {}
  actor := .select
  main := .select
  rx := .select
  ctxDone := false
  ticks := 0
  ticking := true
  allConfirmed := false
  armed := []
  answered := []
  expired := []
  panicked := false
  output := []

def panic (s : SYNRun) : SYNRun := { s with panicked := true }

/-! ## The main loop -/

/-- `evCh <- PingEvent{Data: event}`, and the test for the last packet. -/
def outputEvent (config : SYNConfig) (s : SYNRun) (ev : TrackerEvent) : SYNRun :=
  if config.totalPkts = some (ev.details.seq + 1) then
    -- a second `close` would panic, but there is no way back into the loop
    { s with main := .confirming, allConfirmed := true, output := s.output ++ [.ok ev] }
  else { s with main := .select, output := s.output ++ [.ok ev] }

/-- The end of `Send`: the goroutine of the packet starts, and the ticker is stopped after
the last packet. -/
def sent (config : SYNConfig) (s : SYNRun) (key : Key) (seq : Int) : SYNRun :=
  let s := { s with main := .select, armed := s.armed ++ [key] }
  if config.totalPkts = some (seq + 1) then
    { s with ticking := false, ticks := if config.throttled then s.ticks else 0 }
  else s

/-- `Send` up to `MarkSent`: the source address and port are found. -/
def prepare (s : SYNRun) (receipt : TCPSYNSentReceipt) : SYNRun :=
  match receipt.key with
  | some key => { s with main := .markingSent key receipt }
  | none => s.panic

def stepMain (config : SYNConfig) (s : SYNRun) : SYNAction → Option SYNRun
  | .tickerFires =>
    if s.ticking then some { s with ticks := min (s.ticks + 1) config.tickBuffer } else none
  | .tick =>
    if s.main = .select ∧ 0 < s.ticks then
      some { s with ticks := s.ticks - 1, main := .preparing }
    else none
  | .tickClosed =>
    if s.main = .select ∧ config.throttled = true ∧ s.ctxDone = true then
      some { s with main := .confirming }
    else none
  | .ctxDone =>
    if s.main = .select ∧ s.ctxDone = true then some { s with main := .confirming } else none
  | .sendErr err => if s.main = .preparing then some { s with main := .failing err } else none
  | .prepare srcIP srcPort =>
    if s.main = .preparing then some (s.prepare (config.receipt srcIP srcPort)) else none
  | .markSent =>
    match s.main, s.actor with
    | .markingSent key receipt, .select =>
      match s.tk.markSent key receipt with
      | some tk => some { s with tk := tk, main := .writing key s.tk.counter }
      | none => some s.panic
    | .markingSent key receipt, .returned => some { s with main := .writing key receipt.seq }
    | _, _ => none
  | .write err =>
    match s.main, err with
    | .writing key seq, none => some (s.sent config key seq)
    | .writing _ _, some err => some { s with main := .failing err }
    | _, _ => none
  | .takeEvent =>
    match s.main, s.actor with
    | .select, .emitting ev caller =>
      some
        { s with
          main := .outputting ev
          actor := .select
          rx := if caller = .receiver then .select else s.rx }
    | _, _ => none
  | .eventsClosed =>
    if s.main = .select ∧ s.actor = .returned then some { s with main := .confirming } else none
  | .output =>
    match s.main with
    | .outputting ev => some (s.outputEvent config ev)
    | .failing err => some { s with main := .confirming, output := s.output ++ [.error err] }
    | _ => none
  | .confirm =>
    if s.main = .confirming ∧ s.allConfirmed = true then some { s with main := .returned } else none
  | _ => none

/-! ## The receiving goroutine -/

def stepReceiver (config : SYNConfig) (s : SYNRun) : SYNAction → Option SYNRun
  | .reply pkgInfo =>
    if s.rx = .select ∧ config.requirements.passes pkgInfo = true then
      some { s with rx := .marking pkgInfo }
    else none
  | .filteredClosed => if s.rx = .select then some { s with rx := .returned } else none
  | .rxCtxDone =>
    if s.rx = .select ∧ s.ctxDone = true then some { s with rx := .returned } else none
  | .markReceived =>
    match s.rx, s.actor with
    | .marking pkgInfo, .select =>
      match pkgInfo.key with
      | none => some s.panic
      | some key =>
        match s.tk.markReceived key pkgInfo with
        | none => some s.panic
        | some (some ev, tk) =>
          some
            { s with
              tk := tk
              actor := .emitting ev .receiver
              rx := .served
              answered := s.answered ++ [key] }
        | some (none, tk) => some { s with tk := tk, rx := .select }
    | .marking _, .returned => some { s with rx := .select }
    | _, _ => none
  | _ => none

/-! ## The goroutines of the packets, and the tracker's -/

def stepTimers (s : SYNRun) : SYNAction → Option SYNRun
  | .timerFires key =>
    if key ∈ s.armed then
      some { s with armed := s.armed.erase key, expired := s.expired ++ [key] }
    else none
  | .reset key =>
    if key ∈ s.armed ∧ key ∈ s.answered then
      some { s with armed := s.armed.erase key, answered := s.answered.erase key }
    else none
  | .handleTimeout key =>
    if key ∈ s.expired then
      match s.actor with
      | .select =>
        match s.tk.handleTimeout key with
        | none => some s.panic
        | some (some ev, tk) =>
          some
            { s with
              tk := tk
              actor := .emitting ev .timer
              expired := s.expired.erase key }
        | some (none, tk) => some { s with tk := tk, expired := s.expired.erase key }
      | .emitting _ _ => none
      | .returned => some { s with expired := s.expired.erase key }
    else none
  | .cancel => if s.ctxDone then none else some { s with ctxDone := true }
  | .exit =>
    if s.actor = .select ∧ s.ctxDone = true then some { s with actor := .returned } else none
  | _ => none

@[simp] theorem outputEvent_tk (config : SYNConfig) (s : SYNRun) (ev : TrackerEvent) :
    (s.outputEvent config ev).tk = s.tk := by unfold outputEvent; split <;> rfl

@[simp] theorem outputEvent_actor (config : SYNConfig) (s : SYNRun) (ev : TrackerEvent) :
    (s.outputEvent config ev).actor = s.actor := by unfold outputEvent; split <;> rfl

@[simp] theorem outputEvent_ctxDone (config : SYNConfig) (s : SYNRun) (ev : TrackerEvent) :
    (s.outputEvent config ev).ctxDone = s.ctxDone := by unfold outputEvent; split <;> rfl

theorem outputEvent_main (config : SYNConfig) (s : SYNRun) (ev : TrackerEvent) :
    (s.outputEvent config ev).main = .confirming ∨ (s.outputEvent config ev).main = .select := by
  unfold outputEvent
  split
  next => exact Or.inl rfl
  next => exact Or.inr rfl

@[simp] theorem sent_tk (config : SYNConfig) (s : SYNRun) (key : Key) (seq : Int) :
    (s.sent config key seq).tk = s.tk := by simp only [sent]; split <;> rfl

@[simp] theorem sent_actor (config : SYNConfig) (s : SYNRun) (key : Key) (seq : Int) :
    (s.sent config key seq).actor = s.actor := by simp only [sent]; split <;> rfl

@[simp] theorem sent_main (config : SYNConfig) (s : SYNRun) (key : Key) (seq : Int) :
    (s.sent config key seq).main = .select := by simp only [sent]; split <;> rfl

@[simp] theorem sent_ctxDone (config : SYNConfig) (s : SYNRun) (key : Key) (seq : Int) :
    (s.sent config key seq).ctxDone = s.ctxDone := by simp only [sent]; split <;> rfl

def step (config : SYNConfig) (s : SYNRun) (a : SYNAction) : Option SYNRun :=
  if s.panicked then none
  else
    match a with
    | .tickerFires | .tick | .tickClosed | .ctxDone | .sendErr _ | .prepare _ _ | .markSent
    | .write _ | .takeEvent | .eventsClosed | .output | .confirm => s.stepMain config a
    | .reply _ | .filteredClosed | .rxCtxDone | .markReceived => s.stepReceiver config a
    | .timerFires _ | .reset _ | .handleTimeout _ | .cancel | .exit => s.stepTimers a

/-- All runs for one target. -/
def system (config : SYNConfig) : System SYNRun SYNAction := ⟨start, step config⟩

/-! ## What a step can do -/

/-- The effects of the actions, each with what holds when it happens. -/
inductive Move (config : SYNConfig) (s : SYNRun) : SYNAction → SYNRun → Prop where
  | ticked {n : Nat} (ht : s.ticking = true) : Move config s .tickerFires { s with ticks := n }
  | tookTick (hm : s.main = .select) (ht : 0 < s.ticks) :
      Move config s .tick { s with ticks := s.ticks - 1, main := .preparing }
  | ended {a : SYNAction} (hm : s.main = .select) : Move config s a { s with main := .confirming }
  | failed {err : String} (hm : s.main = .preparing) :
      Move config s (.sendErr err) { s with main := .failing err }
  | prepared {srcIP : IP} {srcPort : UInt16} {key : Key} (hm : s.main = .preparing)
      (hk : (config.receipt srcIP srcPort).key = some key) :
      Move config s (.prepare srcIP srcPort)
        { s with main := .markingSent key (config.receipt srcIP srcPort) }
  | markedSent {key : Key} {receipt : TCPSYNSentReceipt} {tk : Tracker}
      (hm : s.main = .markingSent key receipt) (ha : s.actor = .select)
      (ht : s.tk.markSent key receipt = some tk) :
      Move config s .markSent { s with tk := tk, main := .writing key s.tk.counter }
  | unmarked {key : Key} {receipt : TCPSYNSentReceipt} (hm : s.main = .markingSent key receipt)
      (ha : s.actor = .returned) :
      Move config s .markSent { s with main := .writing key receipt.seq }
  | wrote {key : Key} {seq : Int} (hm : s.main = .writing key seq) :
      Move config s (.write none) (s.sent config key seq)
  | notWritten {key : Key} {seq : Int} {err : String} (hm : s.main = .writing key seq) :
      Move config s (.write (some err)) { s with main := .failing err }
  | tookEvent {ev : TrackerEvent} {caller : Caller} {rx : SYNReceiverPC} (hm : s.main = .select)
      (ha : s.actor = .emitting ev caller) :
      Move config s .takeEvent { s with main := .outputting ev, actor := .select, rx := rx }
  | outputted {ev : TrackerEvent} (hm : s.main = .outputting ev) :
      Move config s .output (s.outputEvent config ev)
  | reported {err : String} (hm : s.main = .failing err) :
      Move config s .output { s with main := .confirming, output := s.output ++ [.error err] }
  | confirmed (hm : s.main = .confirming) (hc : s.allConfirmed = true) :
      Move config s .confirm { s with main := .returned }
  | received {a : SYNAction} {rx : SYNReceiverPC} : Move config s a { s with rx := rx }
  | markedReceived {pkgInfo : PacketInfo} {key : Key} {ev : TrackerEvent} {tk : Tracker}
      (hr : s.rx = .marking pkgInfo) (ha : s.actor = .select) (hk : pkgInfo.key = some key)
      (ht : s.tk.markReceived key pkgInfo = some (some ev, tk)) :
      Move config s .markReceived
        { s with
          tk := tk, actor := .emitting ev .receiver, rx := .served
          answered := s.answered ++ [key] }
  | unknown {pkgInfo : PacketInfo} {key : Key} {tk : Tracker}
      (hr : s.rx = .marking pkgInfo) (ha : s.actor = .select) (hk : pkgInfo.key = some key)
      (ht : s.tk.markReceived key pkgInfo = some (none, tk)) :
      Move config s .markReceived { s with tk := tk, rx := .select }
  | fired {key : Key} (hk : key ∈ s.armed) :
      Move config s (.timerFires key)
        { s with armed := s.armed.erase key, expired := s.expired ++ [key] }
  | wasReset {key : Key} (hk : key ∈ s.armed) (ha : key ∈ s.answered) :
      Move config s (.reset key)
        { s with armed := s.armed.erase key, answered := s.answered.erase key }
  | timedOut {key : Key} {ev : TrackerEvent} {tk : Tracker} (hk : key ∈ s.expired)
      (ha : s.actor = .select) (ht : s.tk.handleTimeout key = some (some ev, tk)) :
      Move config s (.handleTimeout key)
        { s with
          tk := tk, actor := .emitting ev .timer, expired := s.expired.erase key }
  | stale {key : Key} {tk : Tracker} (hk : key ∈ s.expired) (ha : s.actor = .select)
      (ht : s.tk.handleTimeout key = some (none, tk)) :
      Move config s (.handleTimeout key) { s with tk := tk, expired := s.expired.erase key }
  | lapsed {key : Key} (hk : key ∈ s.expired) (ha : s.actor = .returned) :
      Move config s (.handleTimeout key) { s with expired := s.expired.erase key }
  | cancelled : Move config s .cancel { s with ctxDone := true }
  | exited (ha : s.actor = .select) (hc : s.ctxDone = true) :
      Move config s .exit { s with actor := .returned }
  | panicked {a : SYNAction} {t : SYNRun} (ht : t.panicked = true) (hp : t.main = s.main)
      (hp' : t.actor = s.actor) (hp'' : t.tk = s.tk) (hc : t.ctxDone = s.ctxDone) :
      Move config s a t

variable {config : SYNConfig} {s t : SYNRun} {a : SYNAction}

theorem prepare_move {srcIP : IP} {srcPort : UInt16} (hm : s.main = .preparing) :
    Move config s (.prepare srcIP srcPort) (s.prepare (config.receipt srcIP srcPort)) := by
  unfold prepare
  split
  next hk => exact .prepared hm hk
  next => exact .panicked rfl rfl rfl rfl rfl

theorem stepMain_move (h : s.stepMain config a = some t) : Move config s a t := by
  unfold stepMain at h
  split at h
  next =>
    obtain ⟨ht, h⟩ := Option.ite_none_right_eq_some.1 h
    cases h
    exact .ticked ht
  next =>
    obtain ⟨⟨hm, ht⟩, h⟩ := Option.ite_none_right_eq_some.1 h
    cases h
    exact .tookTick hm ht
  next =>
    obtain ⟨⟨hm, _⟩, h⟩ := Option.ite_none_right_eq_some.1 h
    cases h
    exact .ended hm
  next =>
    obtain ⟨⟨hm, _⟩, h⟩ := Option.ite_none_right_eq_some.1 h
    cases h
    exact .ended hm
  next =>
    obtain ⟨hm, h⟩ := Option.ite_none_right_eq_some.1 h
    cases h
    exact .failed hm
  next =>
    obtain ⟨hm, h⟩ := Option.ite_none_right_eq_some.1 h
    cases h
    exact prepare_move hm
  next =>
    split at h
    next hm ha =>
      split at h
      next ht => cases h; exact .markedSent hm ha ht
      next => cases h; exact .panicked rfl rfl rfl rfl rfl
    next hm ha => cases h; exact .unmarked hm ha
    next => cases h
  next =>
    split at h
    next hm => cases h; exact .wrote hm
    next hm => cases h; exact .notWritten hm
    next => cases h
  next =>
    split at h
    next hm ha => cases h; exact .tookEvent hm ha
    next => cases h
  next =>
    obtain ⟨⟨hm, _⟩, h⟩ := Option.ite_none_right_eq_some.1 h
    cases h
    exact .ended hm
  next =>
    split at h
    next hm => cases h; exact .outputted hm
    next hm => cases h; exact .reported hm
    next => cases h
  next =>
    obtain ⟨⟨hm, hc⟩, h⟩ := Option.ite_none_right_eq_some.1 h
    cases h
    exact .confirmed hm hc
  next => cases h

theorem stepReceiver_move (h : s.stepReceiver config a = some t) : Move config s a t := by
  unfold stepReceiver at h
  split at h
  next =>
    obtain ⟨_, h⟩ := Option.ite_none_right_eq_some.1 h
    cases h
    exact .received
  next =>
    obtain ⟨_, h⟩ := Option.ite_none_right_eq_some.1 h
    cases h
    exact .received
  next =>
    obtain ⟨_, h⟩ := Option.ite_none_right_eq_some.1 h
    cases h
    exact .received
  next =>
    split at h
    next pkgInfo hr ha =>
      split at h
      next => cases h; exact .panicked rfl rfl rfl rfl rfl
      next key hk =>
        split at h
        next => cases h; exact .panicked rfl rfl rfl rfl rfl
        next ht => cases h; exact .markedReceived hr ha hk ht
        next ht => cases h; exact .unknown hr ha hk ht
    next => cases h; exact .received
    next => cases h
  next => cases h

theorem stepTimers_move (h : s.stepTimers a = some t) : Move config s a t := by
  unfold stepTimers at h
  split at h
  next =>
    obtain ⟨hk, h⟩ := Option.ite_none_right_eq_some.1 h
    cases h
    exact .fired hk
  next =>
    obtain ⟨⟨hk, ha⟩, h⟩ := Option.ite_none_right_eq_some.1 h
    cases h
    exact .wasReset hk ha
  next =>
    obtain ⟨hk, h⟩ := Option.ite_none_right_eq_some.1 h
    split at h
    next ha =>
      split at h
      next => cases h; exact .panicked rfl rfl rfl rfl rfl
      next ht => cases h; exact .timedOut hk ha ht
      next ht => cases h; exact .stale hk ha ht
    next => cases h
    next ha => cases h; exact .lapsed hk ha
  next =>
    obtain ⟨_, h⟩ := Option.ite_none_left_eq_some.1 h
    cases h
    exact .cancelled
  next =>
    obtain ⟨⟨ha, hc⟩, h⟩ := Option.ite_none_right_eq_some.1 h
    cases h
    exact .exited ha hc
  next => cases h

/-- Every step is one of the moves. -/
theorem step_move (h : s.step config a = some t) : Move config s a t := by
  unfold step at h
  split at h
  next => cases h
  next =>
    split at h
    all_goals
      first
      | exact stepMain_move h
      | exact stepReceiver_move h
      | exact stepTimers_move h

/-- A run that has panicked takes no step. -/
theorem alive_of_step (h : s.step config a = some t) : s.panicked = false := by
  unfold step at h
  split at h
  next => cases h
  next hp => simpa using hp

/-- The main loop goes on while no goroutine has panicked. -/
theorem step_of_stepMain (hp : s.panicked = false) (h : s.stepMain config a = some t) :
    s.step config a = some t := by
  cases a with
  | tickerFires | tick | tickClosed | ctxDone | sendErr | prepare | markSent | write | takeEvent
  | eventsClosed | output | confirm =>
    simp only [step, hp, Bool.false_eq_true, if_false]
    exact h
  | _ => cases h

/-- A step that panics changes nothing else. -/
theorem eq_panic_of_step (h : s.step config a = some t) (ht : t.panicked = true) :
    t = s.panic := by
  have hal := alive_of_step h
  cases a <;>
    simp only [step, hal, Bool.false_eq_true, if_false, stepMain, stepReceiver, stepTimers] at h <;>
    grind [panic, outputEvent, sent, prepare]

/-! ## What the other goroutines leave as it is -/

theorem stepReceiver_frame (h : s.stepReceiver config a = some t) :
    t.main = s.main ∧ t.allConfirmed = s.allConfirmed := by
  cases a <;> simp only [stepReceiver] at h <;> grind [panic]

theorem stepTimers_frame (h : s.stepTimers a = some t) :
    t.main = s.main ∧ t.allConfirmed = s.allConfirmed := by
  cases a <;> simp only [stepTimers] at h <;> grind [panic]

end SYNRun

end CloudPing.Pinger

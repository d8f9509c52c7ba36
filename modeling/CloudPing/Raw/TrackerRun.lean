import CloudPing.Conc.Chan
import CloudPing.Conc.System
import CloudPing.Raw.Tracker
import CloudPing.Wire.Result

/-!
# The tracker's goroutines

`Run` starts one goroutine, the actor.  It selects between the end of the context, the
close of `closeCh` and a request to serve, and it executes a request to its end before it
selects again.  When it returns it closes `RecvEvC` and then `serviceChan`.

Other goroutines live outside the actor.  `MarkSent` starts one that waits for the timer
and then calls `handleTimeout`.  `MarkReceived` starts one that sends the event on
`RecvEvC` and one that calls `cleanupEntry` after a while.  A timeout event is sent by the
actor itself, inside the function it serves, and so the actor waits while the channel is
full.

The state keeps four histories: the sequence numbers marked sent, the ones counted in
`ackedSeq`, the events produced, and the events the consumer took.  No step reads them.

`Move` says once what an action can do.  The invariants of later modules are proved by
cases on it.
-/

namespace CloudPing.Raw

open Conc

structure ICMPTrackerConfig where
  packetTimeout : Duration
  timeoutChannelEventBufferSize : Nat

/-- Where the goroutine of `Run` is. -/
inductive ActorPC where
  | select
  /-- In the function of `handleTimeout`, at the send on `RecvEvC`. -/
  | emitting (seq : Int) (ev : ICMPTrackerEntry)
  | returned
  deriving DecidableEq, Repr

/-- The tracker with all its goroutines. -/
structure ICMPTrackerRun where
  it : ICMPTracker
  recvEvC : Chan ICMPTrackerEntry
  actor : ActorPC
  ctxDone : Bool
  /-- `ForgetAllAndClose` had its function served and has still to close `closeCh`. -/
  closing : Bool
  closeCh : Bool
  /-- Timers that run, by the sequence number of their entry. -/
  armed : List Int
  /-- Timers that fired and whose goroutine has still to call `handleTimeout`. -/
  expired : List Int
  cleanups : List Int
  /-- Events the goroutines of `MarkReceived` have still to send. -/
  deliveries : List ICMPTrackerEntry
  panicked : Bool
  sent : List Int
  acked : List Int
  events : List ICMPTrackerEntry
  taken : List ICMPTrackerEntry

/-- Which sender a receive on `RecvEvC` takes its value from. -/
inductive EventSource where
  | buffer
  | actor
  | delivery (i : Nat)
  deriving DecidableEq, Repr

/-- The steps of the tracker's goroutines and of its callers. -/
inductive TrackerAction where
  | cancel
  | markSent (seq ttl : Int) (dst : Option IPAddr) (now : Time)
  | markReceived (seq : Int) (raw : ICMPReceiveReply) (now sinceNs sinceMs : Time)
  | timerFires (seq : Int)
  | handleTimeout (seq : Int)
  | cleanupEntry (seq : Int)
  | emit
  | deliver (i : Nat)
  | take (src : EventSource)
  | forgetAllAndClose
  | closeCloseCh
  | exit

/-- The steps the tracker's own goroutines take, and the end of the context. -/
def TrackerAction.own : TrackerAction → Bool
  | .cancel | .timerFires _ | .handleTimeout _ | .cleanupEntry _ | .emit | .deliver _ | .exit => true
  | .markSent .. | .markReceived .. | .take _ | .forgetAllAndClose | .closeCloseCh => false

namespace ICMPTrackerRun

/-- `NewICMPTracker` and the start of `Run`. -/
def new (config : ICMPTrackerConfig) : ICMPTrackerRun where
  it := .new config.packetTimeout
  recvEvC := .make config.timeoutChannelEventBufferSize
  actor := .select
  ctxDone := false
  closing := false
  closeCh := false
  armed := []
  expired := []
  cleanups := []
  deliveries := []
  panicked := false
  sent := []
  acked := []
  events := []
  taken := []

/-! ## Service calls -/

/-- A service call waits while the actor is inside another function, has `fn` executed
when the actor selects, and fails once `serviceChan` is closed. -/
def serve (s : ICMPTrackerRun) (fn : Except String ICMPTrackerRun) :
    Option (Except String ICMPTrackerRun) :=
  match s.actor with
  | .select => some fn
  | .emitting _ _ => none
  | .returned => some (.error ICMPTracker.engineIsClosed)

def markSent (s : ICMPTrackerRun) (seq ttl : Int) (dst : Option IPAddr) (now : Time) :
    Option (Except String ICMPTrackerRun) :=
  s.serve <| (s.it.markSent seq ttl dst now).map fun it =>
    { s with it := it, armed := s.armed ++ [seq], sent := s.sent ++ [seq] }

/-- `ent.Timer.Stop()` for the stored entry, if its timer is set.  It has no effect on a
timer that has fired. -/
def stopTimer (s : ICMPTrackerRun) (seq : Int) : List Int :=
  if (s.it.store.lookup seq).any (·.timer) then s.armed.erase seq else s.armed

def markReceived (s : ICMPTrackerRun) (seq : Int) (raw : ICMPReceiveReply)
    (now sinceNs sinceMs : Time) : Option (Except String ICMPTrackerRun) :=
  s.serve <| (s.it.markReceived seq raw now sinceNs sinceMs).map fun
    | (_, none) => s
    | (it, some ev) =>
      { s with
        it := it
        armed := s.stopTimer seq
        cleanups := s.cleanups ++ [seq]
        deliveries := s.deliveries ++ [ev]
        acked := if it.ackedSeq = s.it.ackedSeq then s.acked else s.acked ++ [seq]
        events := s.events ++ [ev] }

/-- `GetUnAcked`, which yields zero once `serviceChan` is closed. -/
def getUnAcked (s : ICMPTrackerRun) : Option Nat :=
  match s.actor with
  | .select => some s.it.getUnAcked
  | .emitting _ _ => none
  | .returned => some 0

/-- `GetAckedSeq`, which yields zero once `serviceChan` is closed. -/
def getAckedSeq (s : ICMPTrackerRun) : Option Nat :=
  match s.actor with
  | .select => some s.it.getAckedSeq
  | .emitting _ _ => none
  | .returned => some 0

/-- The end of the function of `handleTimeout`, after the send. -/
def emitted (s : ICMPTrackerRun) (seq : Int) : ICMPTrackerRun :=
  { s with it := s.it.forget seq, actor := .select }

def handleTimeout (s : ICMPTrackerRun) (seq : Int) : Option (Except String ICMPTrackerRun) :=
  s.serve <| (s.it.handleTimeout seq).map fun
    | (it, none) => { s with it := it.forget seq }
    | (it, some ev) =>
      { s with
        it := it
        actor := .emitting seq ev
        acked := s.acked ++ [seq]
        events := s.events ++ [ev] }

def cleanupEntry (s : ICMPTrackerRun) (seq : Int) : Option (Except String ICMPTrackerRun) :=
  s.serve (.ok { s with it := s.it.forget seq })

/-- The loop of `ForgetAllAndClose` that stops the timers of all entries. -/
def stopTimers (s : ICMPTrackerRun) : List Int :=
  s.it.store.entries.foldl (fun armed e => if e.2.timer then armed.erase e.1 else armed) s.armed

/-- `ForgetAllAndClose` up to the end of its function.  The mutex keeps a second call out
until the first has closed `closeCh`. -/
def forgetAllAndClose (s : ICMPTrackerRun) : Option (Except String ICMPTrackerRun) :=
  if s.closing then none
  else if s.it.closed then some (.error "engine is already closed")
  else
    s.serve <| .ok
      { s with
        it := s.it.forgetAll
        armed := s.stopTimers
        closing := true }

/-! ## The event channel -/

/-- A receive on `RecvEvC`: from the buffer, or directly from a goroutine that sends. -/
def take (s : ICMPTrackerRun) : EventSource → Option (ICMPTrackerEntry × ICMPTrackerRun)
  | .buffer => s.recvEvC.recv.map fun (ev, c) =>
      (ev, { s with recvEvC := c, taken := s.taken ++ [ev] })
  | .actor =>
    match s.actor, s.recvEvC.canMeet with
    | .emitting seq ev, true => some (ev, { s.emitted seq with taken := s.taken ++ [ev] })
    | _, _ => none
  | .delivery i =>
    match s.deliveries[i]?, s.recvEvC.canMeet with
    | some ev, true =>
      some (ev, { s with deliveries := s.deliveries.eraseIdx i, taken := s.taken ++ [ev] })
    | _, _ => none

/-- The send of the timeout event into the buffer. -/
def emit (s : ICMPTrackerRun) : Option ICMPTrackerRun :=
  match s.actor with
  | .emitting seq ev =>
    match s.recvEvC.send ev with
    | .sent c => some { s.emitted seq with recvEvC := c }
    | .blocks => none
    | .panics => some { s with panicked := true }
  | _ => none

/-- The send of a reply event into the buffer, by its own goroutine. -/
def deliver (s : ICMPTrackerRun) (i : Nat) : Option ICMPTrackerRun :=
  match s.deliveries[i]? with
  | some ev =>
    match s.recvEvC.send ev with
    | .sent c => some { s with recvEvC := c, deliveries := s.deliveries.eraseIdx i }
    | .blocks => none
    | .panics => some { s with panicked := true }
  | none => none

/-- The actor leaves its loop and its deferred calls close the channels. -/
def exit (s : ICMPTrackerRun) : Option ICMPTrackerRun :=
  match s.actor, s.ctxDone || s.closeCh with
  | .select, true =>
    match s.recvEvC.close with
    | some c => some { s with recvEvC := c, actor := .returned }
    | none => some { s with panicked := true }
  | _, _ => none

/-! ## The system -/

/-- What a call leaves behind, with its error dropped. -/
def after (s : ICMPTrackerRun) : Except String ICMPTrackerRun → ICMPTrackerRun
  | .ok t => t
  | .error _ => s

def step (s : ICMPTrackerRun) (a : TrackerAction) : Option ICMPTrackerRun :=
  if s.panicked then none
  else
    match a with
    | .cancel => if s.ctxDone then none else some { s with ctxDone := true }
    | .markSent seq ttl dst now => (s.markSent seq ttl dst now).map s.after
    | .markReceived seq raw now sinceNs sinceMs =>
      (s.markReceived seq raw now sinceNs sinceMs).map s.after
    | .timerFires seq =>
      if seq ∈ s.armed then
        some { s with armed := s.armed.erase seq, expired := s.expired ++ [seq] }
      else none
    | .handleTimeout seq =>
      if seq ∈ s.expired then
        let s := { s with expired := s.expired.erase seq }
        (s.handleTimeout seq).map s.after
      else none
    | .cleanupEntry seq =>
      if seq ∈ s.cleanups then
        let s := { s with cleanups := s.cleanups.erase seq }
        (s.cleanupEntry seq).map s.after
      else none
    | .emit => s.emit
    | .deliver i => s.deliver i
    | .take src => (s.take src).map Prod.snd
    | .forgetAllAndClose => s.forgetAllAndClose.map s.after
    | .closeCloseCh =>
      if s.closing then some { s with closing := false, closeCh := true } else none
    | .exit => s.exit

/-- All runs of one tracker. -/
def system (config : ICMPTrackerConfig) : System ICMPTrackerRun TrackerAction :=
  ⟨new config, step⟩

theorem reach_step {config : ICMPTrackerConfig} {ok : Policy ICMPTrackerRun TrackerAction}
    {s t : ICMPTrackerRun} (a : TrackerAction) (h : s.step a = some t) (hok : ok s a) :
    (system config).Reach ok s t :=
  System.Reach.head (M := system config) (a := a) h hok .refl

/-! ## What a step can do -/

/-- The effects of the actions, each with what holds when it happens.  `refused` is a call
that failed or found nothing to do. -/
inductive Move (s : ICMPTrackerRun) : TrackerAction → ICMPTrackerRun → Prop where
  | refused {a : TrackerAction} : Move s a s
  | cancelled (hctx : s.ctxDone = false) : Move s .cancel { s with ctxDone := true }
  | sent {seq ttl : Int} {dst : Option IPAddr} {now : Time}
      (ha : s.actor = .select) (hc : s.it.closed = false) :
      Move s (.markSent seq ttl dst now)
        { s with
          it := { s.it with
            store := s.it.store.insert seq (ICMPTracker.sentEntry seq ttl dst now) }
          armed := s.armed ++ [seq]
          sent := s.sent ++ [seq] }
  | answered {seq : Int} {raw : ICMPReceiveReply} {now sinceNs sinceMs : Time}
      {ent : ICMPTrackerEntry}
      (ha : s.actor = .select) (hc : s.it.closed = false) (hl : s.it.store.lookup seq = some ent) :
      Move s (.markReceived seq raw now sinceNs sinceMs)
        { s with
          it := { s.it with
            store := s.it.store.insert seq (ent.addReply raw now sinceNs sinceMs)
            ackedSeq := if ent.raw.isEmpty then s.it.ackedSeq + 1 else s.it.ackedSeq }
          armed := s.stopTimer seq
          cleanups := s.cleanups ++ [seq]
          deliveries := s.deliveries ++ [(ent.addReply raw now sinceNs sinceMs).readonlyClone]
          acked := if ent.raw.isEmpty then s.acked ++ [seq] else s.acked
          events := s.events ++ [(ent.addReply raw now sinceNs sinceMs).readonlyClone] }
  | fired {seq : Int} (h : seq ∈ s.armed) :
      Move s (.timerFires seq)
        { s with armed := s.armed.erase seq, expired := s.expired ++ [seq] }
  | timedOut {seq : Int} {ent : ICMPTrackerEntry}
      (h : seq ∈ s.expired) (ha : s.actor = .select) (hc : s.it.closed = false)
      (hl : s.it.store.lookup seq = some ent) (ho : ent.outstanding = true) :
      Move s (.handleTimeout seq)
        { s with
          expired := s.expired.erase seq
          it := { s.it with ackedSeq := s.it.ackedSeq + 1 }
          actor := .emitting seq ent.readonlyClone
          acked := s.acked ++ [seq]
          events := s.events ++ [ent.readonlyClone] }
  | stale {seq : Int}
      (h : seq ∈ s.expired) (ha : s.actor = .select) (hc : s.it.closed = false)
      (hl : ∀ ent, s.it.store.lookup seq = some ent → ent.outstanding = false) :
      Move s (.handleTimeout seq)
        { s with expired := s.expired.erase seq, it := s.it.forget seq }
  | lapsed {seq : Int} (h : seq ∈ s.expired) :
      Move s (.handleTimeout seq) { s with expired := s.expired.erase seq }
  | cleaned {seq : Int} (h : seq ∈ s.cleanups) (ha : s.actor = .select) :
      Move s (.cleanupEntry seq)
        { s with cleanups := s.cleanups.erase seq, it := s.it.forget seq }
  | unclean {seq : Int} (h : seq ∈ s.cleanups) :
      Move s (.cleanupEntry seq) { s with cleanups := s.cleanups.erase seq }
  | emitted {seq : Int} {ev : ICMPTrackerEntry} {c : Chan ICMPTrackerEntry}
      (ha : s.actor = .emitting seq ev) (hc : s.recvEvC.send ev = .sent c) :
      Move s .emit { s.emitted seq with recvEvC := c }
  | delivered {i : Nat} {ev : ICMPTrackerEntry} {c : Chan ICMPTrackerEntry}
      (hi : s.deliveries[i]? = some ev) (hc : s.recvEvC.send ev = .sent c) :
      Move s (.deliver i) { s with recvEvC := c, deliveries := s.deliveries.eraseIdx i }
  | took {ev : ICMPTrackerEntry} {c : Chan ICMPTrackerEntry}
      (hc : s.recvEvC.recv = some (ev, c)) :
      Move s (.take .buffer) { s with recvEvC := c, taken := s.taken ++ [ev] }
  | metActor {seq : Int} {ev : ICMPTrackerEntry}
      (ha : s.actor = .emitting seq ev) (hc : s.recvEvC.canMeet = true) :
      Move s (.take .actor) { s.emitted seq with taken := s.taken ++ [ev] }
  | metDelivery {i : Nat} {ev : ICMPTrackerEntry}
      (hi : s.deliveries[i]? = some ev) (hc : s.recvEvC.canMeet = true) :
      Move s (.take (.delivery i))
        { s with deliveries := s.deliveries.eraseIdx i, taken := s.taken ++ [ev] }
  | forgot (ha : s.actor = .select) (hc : s.it.closed = false) :
      Move s .forgetAllAndClose
        { s with it := s.it.forgetAll, armed := s.stopTimers, closing := true }
  | closed (h : s.closing = true) :
      Move s .closeCloseCh { s with closing := false, closeCh := true }
  | exited {c : Chan ICMPTrackerEntry}
      (ha : s.actor = .select) (hx : s.ctxDone = true ∨ s.closeCh = true)
      (hc : s.recvEvC.close = some c) :
      Move s .exit { s with recvEvC := c, actor := .returned }
  | panicked {a : TrackerAction}
      (hc : s.recvEvC.closed = true) (hp : s.actor ≠ .returned ∨ s.deliveries ≠ []) :
      Move s a { s with panicked := true }

variable {s t : ICMPTrackerRun}

/-- A call that is served returned the error of a closed tracker or ran its function. -/
theorem serve_eq_some {fn r : Except String ICMPTrackerRun} (h : s.serve fn = some r) :
    (s.actor = .select ∧ r = fn) ∨ (s.actor = .returned ∧ r = .error ICMPTracker.engineIsClosed) := by
  unfold serve at h
  split at h
  next ha => cases h; exact Or.inl ⟨ha, rfl⟩
  next => cases h
  next ha => cases h; exact Or.inr ⟨ha, rfl⟩

/-- A function that is executed and succeeds. -/
theorem serve_map_ok {α : Type} {x : Except String α} {f : α → ICMPTrackerRun}
    (h : s.serve (x.map f) = some (.ok t)) : s.actor = .select ∧ ∃ b, x = .ok b ∧ f b = t := by
  rcases serve_eq_some h with ⟨ha, hr⟩ | ⟨_, hr⟩
  · exact ⟨ha, Wire.map_eq_ok.1 hr.symm⟩
  · cases hr

theorem markSent_move {q ttl : Int} {dst : Option IPAddr} {now : Time}
    (h : s.markSent q ttl dst now = some (.ok t)) : Move s (.markSent q ttl dst now) t := by
  obtain ⟨ha, it, hit, rfl⟩ := serve_map_ok h
  obtain ⟨hc, rfl⟩ := ICMPTracker.markSent_ok hit
  exact .sent ha hc

theorem markReceived_move {q : Int} {r : ICMPReceiveReply} {t₁ t₂ t₃ : Time}
    (h : s.markReceived q r t₁ t₂ t₃ = some (.ok t)) : Move s (.markReceived q r t₁ t₂ t₃) t := by
  obtain ⟨ha, ⟨it, oev⟩, hit, hf⟩ := serve_map_ok h
  obtain ⟨hc, ⟨_, _, rfl⟩ | ⟨ent, hl, rfl, rfl⟩⟩ := ICMPTracker.markReceived_ok hit
  · subst hf
    exact .refused
  · subst hf
    have hm : Move s (.markReceived q r t₁ t₂ t₃) _ := .answered ha hc hl
    cases hr : ent.raw.isEmpty <;> simpa [hr] using hm

theorem handleTimeout_move {q : Int} (hq : q ∈ s.expired)
    (h : ({ s with expired := s.expired.erase q } : ICMPTrackerRun).handleTimeout q = some (.ok t)) :
    Move s (.handleTimeout q) t := by
  obtain ⟨ha, ⟨it, oev⟩, hit, hf⟩ := serve_map_ok h
  obtain ⟨hc, ⟨rfl, rfl, hl⟩ | ⟨ent, hl, ho, rfl, rfl⟩⟩ := ICMPTracker.handleTimeout_ok hit
  · subst hf
    exact .stale hq ha hc hl
  · subst hf
    exact .timedOut hq ha hc hl ho

theorem cleanupEntry_move {q : Int} (hq : q ∈ s.cleanups)
    (h : ({ s with cleanups := s.cleanups.erase q } : ICMPTrackerRun).cleanupEntry q = some (.ok t)) :
    Move s (.cleanupEntry q) t := by
  rcases serve_eq_some h with ⟨ha, hr⟩ | ⟨_, hr⟩
  · cases hr
    exact .cleaned hq ha
  · cases hr

theorem take_move {src : EventSource} {ev : ICMPTrackerEntry} (h : s.take src = some (ev, t)) :
    Move s (.take src) t ∧ t.taken = s.taken ++ [ev] := by
  cases src with
  | buffer =>
    simp only [take, Option.map_eq_some_iff, Prod.mk.injEq] at h
    obtain ⟨⟨ev', c⟩, hc, rfl, rfl⟩ := h
    exact ⟨.took hc, rfl⟩
  | actor =>
    simp only [take] at h
    split at h
    next seq ev' ha hc =>
      cases h
      exact ⟨.metActor ha hc, rfl⟩
    next => cases h
  | delivery i =>
    simp only [take] at h
    split at h
    next ev' hi hc =>
      cases h
      exact ⟨.metDelivery hi hc, rfl⟩
    next => cases h

/-- A receive moves the event to the taken ones and counts nothing. -/
theorem take_frame {src : EventSource} {ev : ICMPTrackerEntry} (h : s.take src = some (ev, t)) :
    t.sent = s.sent ∧ t.acked = s.acked ∧ t.events = s.events ∧ t.it.closed = s.it.closed := by
  cases src with
  | buffer =>
    simp only [take, Option.map_eq_some_iff, Prod.mk.injEq] at h
    obtain ⟨⟨ev', c⟩, hc, rfl, rfl⟩ := h
    exact ⟨rfl, rfl, rfl, rfl⟩
  | actor | delivery =>
    simp only [take] at h
    split at h
    next => cases h; exact ⟨rfl, rfl, rfl, rfl⟩
    next => cases h

/-- An answered `GetUnAcked` is the count, or zero from a tracker that has returned. -/
theorem getUnAcked_eq_some {n : Nat} (h : s.getUnAcked = some n) :
    (s.actor = .select ∧ n = s.it.getUnAcked) ∨ (s.actor = .returned ∧ n = 0) := by
  unfold getUnAcked at h
  split at h
  next ha => cases h; exact Or.inl ⟨ha, rfl⟩
  next => cases h
  next ha => cases h; exact Or.inr ⟨ha, rfl⟩

/-- An answered `GetAckedSeq` is the counter, or zero from a tracker that has returned. -/
theorem getAckedSeq_eq_some {n : Nat} (h : s.getAckedSeq = some n) :
    (s.actor = .select ∧ n = s.it.getAckedSeq) ∨ (s.actor = .returned ∧ n = 0) := by
  unfold getAckedSeq at h
  split at h
  next ha => cases h; exact Or.inl ⟨ha, rfl⟩
  next => cases h
  next ha => cases h; exact Or.inr ⟨ha, rfl⟩

theorem emit_move (h : s.emit = some t) : Move s .emit t := by
  unfold emit at h
  split at h
  next seq ev ha =>
    split at h
    next c hc => cases h; exact .emitted ha hc
    next => cases h
    next hc =>
      cases h
      exact .panicked (Chan.send_eq_panics.1 hc) (Or.inl (by rw [ha]; simp))
  next => cases h

theorem deliver_move {i : Nat} (h : s.deliver i = some t) : Move s (.deliver i) t := by
  unfold deliver at h
  split at h
  next ev hi =>
    split at h
    next c hc => cases h; exact .delivered hi hc
    next => cases h
    next hc =>
      cases h
      refine .panicked (Chan.send_eq_panics.1 hc) (Or.inr ?_)
      exact List.ne_nil_of_mem (List.mem_of_getElem? hi)
  next => cases h

theorem exit_move (h : s.exit = some t) : Move s .exit t := by
  unfold exit at h
  split at h
  next ha hx =>
    split at h
    next c hc =>
      cases h
      exact .exited ha (by simpa using hx) hc
    next hc =>
      cases h
      refine .panicked ?_ (Or.inl (by rw [ha]; simp))
      by_contra hcl
      simp [Chan.close, hcl] at hc
  next => cases h

theorem forgetAllAndClose_move (h : s.forgetAllAndClose = some (.ok t)) :
    Move s .forgetAllAndClose t := by
  unfold forgetAllAndClose at h
  split at h
  next => cases h
  next =>
    split at h
    next => cases h
    next hc =>
      rcases serve_eq_some h with ⟨ha, hr⟩ | ⟨_, hr⟩
      · cases hr
        exact .forgot ha (by simpa using hc)
      · cases hr

/-- Every step is one of the moves. -/
theorem step_move {a : TrackerAction} (h : s.step a = some t) : Move s a t := by
  unfold step at h
  split at h
  next => cases h
  next =>
    cases a with
    | cancel =>
      simp only [Option.ite_none_left_eq_some, Option.some.injEq] at h
      obtain ⟨hc, rfl⟩ := h
      exact .cancelled (by simpa using hc)
    | markSent seq ttl dst now =>
      obtain ⟨r, hr, rfl⟩ := Option.map_eq_some_iff.1 h
      cases r with
      | error e => exact .refused
      | ok t => exact markSent_move hr
    | markReceived seq raw now sinceNs sinceMs =>
      obtain ⟨r, hr, rfl⟩ := Option.map_eq_some_iff.1 h
      cases r with
      | error e => exact .refused
      | ok t => exact markReceived_move hr
    | timerFires seq =>
      simp only [Option.ite_none_right_eq_some, Option.some.injEq] at h
      obtain ⟨hq, rfl⟩ := h
      exact .fired hq
    | handleTimeout seq =>
      simp only [Option.ite_none_right_eq_some] at h
      obtain ⟨hq, h⟩ := h
      obtain ⟨r, hr, rfl⟩ := Option.map_eq_some_iff.1 h
      cases r with
      | error e => exact .lapsed hq
      | ok t => exact handleTimeout_move hq hr
    | cleanupEntry seq =>
      simp only [Option.ite_none_right_eq_some] at h
      obtain ⟨hq, h⟩ := h
      obtain ⟨r, hr, rfl⟩ := Option.map_eq_some_iff.1 h
      cases r with
      | error e => exact .unclean hq
      | ok t => exact cleanupEntry_move hq hr
    | emit => exact emit_move h
    | deliver i => exact deliver_move h
    | take src =>
      obtain ⟨⟨ev, t⟩, ht, rfl⟩ := Option.map_eq_some_iff.1 h
      exact (take_move ht).1
    | forgetAllAndClose =>
      obtain ⟨r, hr, rfl⟩ := Option.map_eq_some_iff.1 h
      cases r with
      | error e => exact .refused
      | ok t => exact forgetAllAndClose_move hr
    | closeCloseCh =>
      simp only [Option.ite_none_right_eq_some, Option.some.injEq] at h
      obtain ⟨hc, rfl⟩ := h
      exact .closed hc
    | exit => exact exit_move h

/-- A step that is not a `MarkSent` leaves what was sent as it is. -/
theorem Move.sent_eq {a : TrackerAction} (hm : Move s a t)
    (ha : ∀ q ttl dst now, a ≠ .markSent q ttl dst now) : t.sent = s.sent := by
  cases hm with
  | sent => exact absurd rfl (ha _ _ _ _)
  | _ => rfl

/-- What the tracker does by itself marks nothing sent. -/
theorem Move.sent_of_own {a : TrackerAction} (hm : Move s a t) (ha : a.own = true) :
    t.sent = s.sent := by
  refine hm.sent_eq fun q ttl dst now he => ?_
  subst he
  cases ha

/-- A step that is not a receive leaves what was taken as it is. -/
theorem Move.taken_eq {a : TrackerAction} (hm : Move s a t) (ha : ∀ src, a ≠ .take src) :
    t.taken = s.taken := by
  cases hm with
  | took | metActor | metDelivery => exact absurd rfl (ha _)
  | _ => rfl

theorem Move.actor_returned {a : TrackerAction} (hm : Move s a t) (h : s.actor = .returned) :
    t.actor = .returned := by
  cases hm with
  | timedOut _ ha | emitted ha | metActor ha => rw [h] at ha; cases ha
  | exited => rfl
  | _ => exact h

theorem Move.it_closed {a : TrackerAction} (hm : Move s a t) (ha : a ≠ .forgetAllAndClose) :
    t.it.closed = s.it.closed := by
  cases hm with
  | forgot => exact absurd rfl ha
  | _ => rfl

theorem Move.ctxDone {a : TrackerAction} (hm : Move s a t) (h : s.ctxDone = true) :
    t.ctxDone = true := by
  cases hm with
  | cancelled => rfl
  | _ => exact h

/-! ## The life of the channels -/

/-- The event channel is closed by the return of the actor, and by nothing else. -/
structure Lifecycle (s : ICMPTrackerRun) : Prop where
  closedIff : s.recvEvC.closed = true ↔ s.actor = .returned
  returned : s.actor = .returned → s.ctxDone = true ∨ s.it.closed = true
  closeCh : s.closing = true ∨ s.closeCh = true → s.it.closed = true

namespace Lifecycle

theorem new (config : ICMPTrackerConfig) : Lifecycle (.new config) where
  closedIff := by constructor <;> (intro h; cases h)
  returned := by intro h; cases h
  closeCh := by rintro (h | h) <;> cases h

theorem open_of (h : s.Lifecycle) (ha : s.actor ≠ .returned) : s.recvEvC.closed = false := by
  cases hc : s.recvEvC.closed with
  | false => rfl
  | true => exact absurd (h.closedIff.1 hc) ha

/-- The actor leaves the function of `handleTimeout`. -/
theorem emitted (h : s.Lifecycle) {q : Int} {ev : ICMPTrackerEntry}
    (ha : s.actor = .emitting q ev) : Lifecycle (s.emitted q) := by
  have ho : s.recvEvC.closed = false := h.open_of (by rw [ha]; simp)
  refine { h with closedIff := ?_, returned := fun hr => by cases hr }
  show s.recvEvC.closed = true ↔ ActorPC.select = .returned
  simp [ho]

theorem move {a : TrackerAction} (h : s.Lifecycle) (hm : Move s a t) : t.Lifecycle := by
  cases hm with
  | refused => exact h
  | cancelled => exact { h with returned := fun _ => Or.inl rfl }
  | sent => exact { h with }
  | answered => exact { h with }
  | fired => exact { h with }
  | timedOut hq ha =>
    have ho : s.recvEvC.closed = false := h.open_of (by rw [ha]; simp)
    exact { h with closedIff := by simp [ho], returned := fun hr => by cases hr }
  | stale => exact { h with }
  | lapsed => exact { h with }
  | cleaned => exact { h with }
  | unclean => exact { h with }
  | emitted ha hc =>
    obtain ⟨_, _, _, _, ho⟩ := Chan.send_eq_sent hc
    exact { h.emitted ha with closedIff := by simp [ho, ICMPTrackerRun.emitted] }
  | delivered hi hc =>
    obtain ⟨hcl, _, _, _, ho⟩ := Chan.send_eq_sent hc
    exact { h with closedIff := by simp [ho, ← h.closedIff, hcl] }
  | took hc =>
    obtain ⟨_, _, ho⟩ := Chan.recv_eq_some hc
    exact { h with closedIff := by rw [ho]; exact h.closedIff }
  | metActor ha => exact { h.emitted ha with }
  | metDelivery => exact { h with }
  | forgot => exact { h with returned := fun _ => Or.inr rfl, closeCh := fun _ => rfl }
  | closed hc => exact { h with closeCh := fun _ => h.closeCh (Or.inl hc) }
  | exited ha hx hc =>
    obtain ⟨_, _, _, ho⟩ := Chan.close_eq_some hc
    exact
      { h with
        closedIff := by simp [ho]
        returned := fun _ => hx.imp id fun hx => h.closeCh (Or.inr hx) }
  | panicked => exact { h with }

/-- The actor leaves its loop in order. -/
theorem exit (h : s.Lifecycle) (hst : s.exit = some t) :
    t.actor = .returned ∧ t.panicked = s.panicked := by
  unfold ICMPTrackerRun.exit at hst
  split at hst
  next ha _ =>
    have ho : s.recvEvC.closed = false := h.open_of (by rw [ha]; simp)
    simp only [Chan.close, ho, Bool.false_eq_true, if_false] at hst
    cases hst
    exact ⟨rfl, rfl⟩
  next => cases hst

end Lifecycle

theorem lifecycle {config : ICMPTrackerConfig} {ok : Policy ICMPTrackerRun TrackerAction}
    (h : (system config).Reachable ok s) : s.Lifecycle :=
  h.invariant (Lifecycle.new config) fun _ _ _ hs _ hst => hs.move (step_move hst)

end ICMPTrackerRun

end CloudPing.Raw

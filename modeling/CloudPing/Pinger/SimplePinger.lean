import CloudPing.Pinger.TTLGenerator
import CloudPing.Raw.TrackerEvents
import CloudPing.Raw.Transceiver

/-!
# The ICMP and UDP pinger

`SimplePinger.Ping` runs three goroutines for one target, next to those of its tracker.
The *event* goroutine reads `RecvEvC`, outputs each event, and after a pause puts one
control signal on `ctrlSignals`.  The *sending* goroutine takes the control signals and
sends one packet for each.  It is also the one that takes the replies from the
transceiver.  The *transceiver* loop is `GetIO`, the same for both families: it passes
replies on `outC` and takes packets from `inC`, and both channels are unbuffered.

The sockets, the resolvers and the clock are the environment's.  An action says what they
did: which reply arrived, whether a write succeeded, whether the IP information was found.
`transceiver.Run`, whose packets nobody reads, appears by its error channel only.  No rate
limiter is set, so the sending goroutine writes to the transceiver directly.
-/

namespace CloudPing.Pinger

open Conc Raw

/-! ## The state -/

/-- What `Ping` reads of its request for one target. -/
structure PingConfig where
  tracker : ICMPTrackerConfig
  totalPkts : Option Int
  ttl : TTLGenerator
  dst : IPAddr
  payload : List UInt8
  nexthopMTU : Int
  /-- Whether an IP information adapter is set, whose lookup can fail. -/
  ipInfo : Bool

/-- `SendControl`.  `PMTU` is `none` or a pointer to the event goroutine's variable. -/
structure SendControl where
  seq : Int
  ttl : Int
  pmtu : Bool
  deriving DecidableEq, Repr

/-- Where the event goroutine is. -/
inductive EventPC where
  | select
  | handling (ev : ICMPTrackerEntry)
  /-- At the send on the output channel, with the event's data (`nil` if the lookup failed). -/
  | outputting (data : Option ICMPTrackerEntry) (nextTTL : Int)
  | askingUnAcked (nextTTL : Int)
  | askingAckedSeq (nextTTL : Int)
  | pausing (nextTTL : Int)
  | signalling (nextTTL : Int)
  | returned
  deriving DecidableEq, Repr

/-- Where the sending goroutine is. -/
inductive SenderPC where
  | select
  | markingReceived (rx : ICMPReceiveReply)
  | markingSent (ctrl : SendControl)
  /-- At the send on `inC`. -/
  | sending (ctrl : SendControl)
  | forgetting
  | closing
  | returned
  deriving DecidableEq, Repr

/-- The goroutines of one target. -/
structure PingRun where
  trk : ICMPTrackerRun
  ev : EventPC
  snd : SenderPC
  io : TransceiverLoop
  ctrlSignals : Chan SendControl
  numPktsSent : Int
  pmtu : Int
  ttl : TTLGenerator
  /-- What was sent on the output channel. -/
  output : List (Option ICMPTrackerEntry)
  /-- The packets handed to the transceiver. -/
  wire : List ICMPSendRequest
  panicked : Bool

inductive PingAction where
  | tracker (a : TrackerAction)
  | evCtxDone
  | evClosed
  | evTake (src : EventSource)
  | resolve (found : Bool)
  | output
  | getUnAcked
  | getAckedSeq
  | pause
  | signal
  | sndCtxDone
  | takeReply
  | outCClosed
  | takeErr
  | takeRunErr
  | takeSignal
  | signalsClosed
  | markReceived (now sinceNs sinceMs : Time)
  | markSent (now : Time)
  | send (err : Option String)
  | forgetAllAndClose
  | closeCloseCh
  | reply (rx : ICMPReceiveReply)
  | ioCtxDone
  /-- The socket failed, or its channel of packets ended. -/
  | ioStop (err : Option String)

namespace PingRun

/-- The start of the goroutines: the first control signal is already on its channel. -/
def start (config : PingConfig) : PingRun where
  trk := .new config.tracker
  ev := .select
  snd := .select
  io := .start
  ctrlSignals := ⟨1, [⟨1, config.ttl.get, false⟩], false, Nat.le_refl 1⟩
  numPktsSent := 0
  pmtu := config.nexthopMTU
  ttl := config.ttl.forward
  output := []
  wire := []
  panicked := false

/-! ## The event goroutine -/

/-- The event goroutine returns, and closes `ctrlSignals`. -/
def evReturn (s : PingRun) : Option PingRun :=
  s.ctrlSignals.close.map fun c => { s with ev := .returned, ctrlSignals := c }

/-- From the event to the send on the output channel.  A reply of the last hop restarts an
automatic TTL and the path MTU; a reply that sets an MTU makes the next packet repeat its
TTL; any other event moves the TTL forward. -/
def handle (config : PingConfig) (s : PingRun) (ev : ICMPTrackerEntry) (found : Bool) : PingRun :=
  let restart := ev.foundLastHop && s.ttl.isAuto
  let ttl := if restart then s.ttl.reset else s.ttl
  let pmtu := if restart then config.nexthopMTU else s.pmtu
  let wrappedEV := if found then some ev else none
  match wrappedEV.bind ICMPTrackerEntry.getPMTU with
  | some setMTUTo =>
    if ev.ttl > 1 then
      { s with
        ttl := ttl, pmtu := setMTUTo
        ev := .outputting (some { ev with ttl := ev.ttl - 1 }) ev.ttl }
    else { s with ttl := ttl, pmtu := setMTUTo, ev := .outputting wrappedEV ttl.get }
  | none => { s with ttl := ttl.forward, pmtu := pmtu, ev := .outputting wrappedEV ttl.get }

def stepEvent (config : PingConfig) (s : PingRun) : PingAction → Option PingRun
  | .evCtxDone => if s.ev = .select ∧ s.trk.ctxDone = true then s.evReturn else none
  | .evClosed => if s.ev = .select ∧ s.trk.recvEvC.drained = true then s.evReturn else none
  | .evTake src =>
    if s.ev = .select then
      (s.trk.take src).map fun (ev, trk) => { s with trk := trk, ev := .handling ev }
    else none
  | .resolve found =>
    match s.ev with
    | .handling ev => if found || config.ipInfo then some (s.handle config ev found) else none
    | _ => none
  | .output =>
    match s.ev with
    | .outputting data nextTTL =>
      some
        { s with
          output := s.output ++ [data]
          numPktsSent := s.numPktsSent + 1
          ev := if config.totalPkts.isSome then .askingUnAcked nextTTL else .pausing nextTTL }
    | _ => none
  | .getUnAcked =>
    match s.ev, s.trk.getUnAcked with
    | .askingUnAcked nextTTL, some n =>
      some { s with ev := if n = 0 then .askingAckedSeq nextTTL else .pausing nextTTL }
    | _, _ => none
  | .getAckedSeq =>
    match s.ev, s.trk.getAckedSeq with
    | .askingAckedSeq nextTTL, some n =>
      if config.totalPkts = some (n : Int) then s.evReturn
      else some { s with ev := .pausing nextTTL }
    | _, _ => none
  | .pause =>
    match s.ev with
    | .pausing nextTTL => some { s with ev := .signalling nextTTL }
    | _ => none
  | .signal =>
    match s.ev with
    | .signalling nextTTL =>
      match s.ctrlSignals.send ⟨s.numPktsSent + 1, nextTTL, true⟩ with
      | .sent c => some { s with ctrlSignals := c, ev := .select }
      | .blocks => none
      | .panics => some { s with panicked := true }
    | _ => none
  | _ => none

/-! ## The sending goroutine -/

/-- The packet of a control signal, with the path MTU the pointer points to now. -/
def request (config : PingConfig) (s : PingRun) (ctrl : SendControl) : ICMPSendRequest where
  dst := config.dst
  seq := ctrl.seq
  ttl := ctrl.ttl
  data := config.payload
  pmtu := if ctrl.pmtu then some s.pmtu else none
  nexthopMTU := config.nexthopMTU

/-- The sending goroutine goes on after a call of the tracker, or returns on its error. -/
def proceed (s : PingRun) (pc : SenderPC) : Except String ICMPTrackerRun → PingRun
  | .ok trk => { s with trk := trk, snd := pc }
  | .error _ => { s with snd := .returned }

def stepSender (config : PingConfig) (s : PingRun) : PingAction → Option PingRun
  | .sndCtxDone =>
    if s.snd = .select ∧ s.trk.ctxDone = true then some { s with snd := .returned } else none
  | .takeReply =>
    match s.snd with
    | .select => s.io.pass.map fun (rx, io) => { s with io := io, snd := .markingReceived rx }
    | _ => none
  | .outCClosed =>
    if s.snd = .select ∧ s.io.pc = .returned then some { s with snd := .returned } else none
  | .takeErr =>
    if s.snd = .select then
      s.io.errC.recv.map fun (_, c) => { s with io := { s.io with errC := c }, snd := .returned }
    else none
  | .takeRunErr => if s.snd = .select then some { s with snd := .forgetting } else none
  | .takeSignal =>
    if s.snd = .select then
      s.ctrlSignals.recv.map fun (ctrl, c) => { s with ctrlSignals := c, snd := .markingSent ctrl }
    else none
  | .signalsClosed =>
    if s.snd = .select ∧ s.ctrlSignals.drained = true then some { s with snd := .returned } else none
  | .markReceived now sinceNs sinceMs =>
    match s.snd with
    | .markingReceived rx =>
      (s.trk.markReceived rx.seq rx now sinceNs sinceMs).map (s.proceed .select)
    | _ => none
  | .markSent now =>
    match s.snd with
    | .markingSent ctrl =>
      (s.trk.markSent ctrl.seq ctrl.ttl (some config.dst) now).map (s.proceed (.sending ctrl))
    | _ => none
  | .send err =>
    match s.snd with
    | .sending ctrl =>
      (s.io.write err).map fun io =>
        { s with io := io, snd := .select, wire := s.wire ++ [s.request config ctrl] }
    | _ => none
  | .forgetAllAndClose =>
    match s.snd with
    | .forgetting => s.trk.forgetAllAndClose.map (s.proceed .closing)
    | _ => none
  | .closeCloseCh =>
    match s.snd with
    | .closing =>
      if s.trk.closing then
        some { s with trk := { s.trk with closing := false, closeCh := true }, snd := .returned }
      else none
    | _ => none
  | _ => none

/-! ## The loop of the transceiver -/

def stepTransceiver (s : PingRun) : PingAction → Option PingRun
  | .reply rx => (s.io.reply rx).map fun io => { s with io := io }
  | .ioCtxDone =>
    if s.trk.ctxDone then (s.io.stop none).map fun io => { s with io := io } else none
  | .ioStop err => (s.io.stop err).map fun io => { s with io := io }
  | _ => none

def step (config : PingConfig) (s : PingRun) (a : PingAction) : Option PingRun :=
  if s.panicked || s.trk.panicked then none
  else
    match a with
    | .tracker a =>
      if a.own then (s.trk.step a).map fun trk => { s with trk := trk } else none
    | .evCtxDone | .evClosed | .evTake _ | .resolve _ | .output | .getUnAcked | .getAckedSeq
    | .pause | .signal => s.stepEvent config a
    | .sndCtxDone | .takeReply | .outCClosed | .takeErr | .takeRunErr | .takeSignal
    | .signalsClosed | .markReceived .. | .markSent _ | .send _ | .forgetAllAndClose
    | .closeCloseCh => s.stepSender config a
    | .reply _ | .ioCtxDone | .ioStop _ => s.stepTransceiver a

/-- All runs for one target. -/
def system (config : PingConfig) : System PingRun PingAction := ⟨start config, step config⟩

/-! ## What a step can do -/

end PingRun

/-- The sending goroutine can return from its select, or on the error of a tracker call. -/
def SenderPC.canLeave : SenderPC → Bool
  | .select | .markingReceived _ | .markingSent _ | .forgetting => true
  | .sending _ | .closing | .returned => false

namespace PingRun

/-- The effects of the actions, each with what holds when it happens. -/
inductive Move (config : PingConfig) (s : PingRun) : PingAction → PingRun → Prop where
  | tracker {a : TrackerAction} {trk : ICMPTrackerRun}
      (hi : a.own = true) (hm : s.trk.step a = some trk) :
      Move config s (.tracker a) { s with trk := trk }
  | stopped {a : PingAction} {c : Chan SendControl}
      (he : s.ev = .select) (hw : s.trk.ctxDone = true ∨ s.trk.recvEvC.drained = true)
      (hc : s.ctrlSignals.close = some c) :
      Move config s a { s with ev := .returned, ctrlSignals := c }
  | finished {nextTTL : Int} {n : Nat} {c : Chan SendControl}
      (he : s.ev = .askingAckedSeq nextTTL) (hn : s.trk.getAckedSeq = some n)
      (ht : config.totalPkts = some (n : Int)) (hc : s.ctrlSignals.close = some c) :
      Move config s .getAckedSeq { s with ev := .returned, ctrlSignals := c }
  | tookEvent {src : EventSource} {ev : ICMPTrackerEntry} {trk : ICMPTrackerRun}
      (he : s.ev = .select) (ht : s.trk.take src = some (ev, trk)) :
      Move config s (.evTake src) { s with trk := trk, ev := .handling ev }
  | handled {ev : ICMPTrackerEntry} {found : Bool} {ttl : TTLGenerator} {pmtu nextTTL : Int}
      {data : Option ICMPTrackerEntry} (he : s.ev = .handling ev) :
      Move config s (.resolve found)
        { s with ttl := ttl, pmtu := pmtu, ev := .outputting data nextTTL }
  | outputted {data : Option ICMPTrackerEntry} {nextTTL : Int}
      (he : s.ev = .outputting data nextTTL) :
      Move config s .output
        { s with
          output := s.output ++ [data]
          numPktsSent := s.numPktsSent + 1
          ev := if config.totalPkts.isSome then .askingUnAcked nextTTL else .pausing nextTTL }
  | asked {nextTTL : Int} {n : Nat}
      (he : s.ev = .askingUnAcked nextTTL) (hn : s.trk.getUnAcked = some n) :
      Move config s .getUnAcked
        { s with ev := if n = 0 then .askingAckedSeq nextTTL else .pausing nextTTL }
  | unfinished {nextTTL : Int} {n : Nat}
      (he : s.ev = .askingAckedSeq nextTTL) (hn : s.trk.getAckedSeq = some n)
      (ht : config.totalPkts ≠ some (n : Int)) :
      Move config s .getAckedSeq { s with ev := .pausing nextTTL }
  | paused {nextTTL : Int} (he : s.ev = .pausing nextTTL) :
      Move config s .pause { s with ev := .signalling nextTTL }
  | signalled {nextTTL : Int} {c : Chan SendControl} (he : s.ev = .signalling nextTTL)
      (hc : s.ctrlSignals.send ⟨s.numPktsSent + 1, nextTTL, true⟩ = .sent c) :
      Move config s .signal { s with ctrlSignals := c, ev := .select }
  | crashed {nextTTL : Int} (he : s.ev = .signalling nextTTL) (hc : s.ctrlSignals.closed = true) :
      Move config s .signal { s with panicked := true }
  | left {a : PingAction} (hs : s.snd.canLeave = true) :
      Move config s a { s with snd := .returned }
  | tookErr {err : String} {c : Chan String} (hs : s.snd = .select)
      (hc : s.io.errC.recv = some (err, c)) :
      Move config s .takeErr { s with io := { s.io with errC := c }, snd := .returned }
  | tookRunErr (hs : s.snd = .select) : Move config s .takeRunErr { s with snd := .forgetting }
  | tookReply {rx : ICMPReceiveReply} {io : TransceiverLoop} (hs : s.snd = .select)
      (hi : s.io.pass = some (rx, io)) :
      Move config s .takeReply { s with io := io, snd := .markingReceived rx }
  | tookSignal {ctrl : SendControl} {c : Chan SendControl} (hs : s.snd = .select)
      (hc : s.ctrlSignals.recv = some (ctrl, c)) :
      Move config s .takeSignal { s with ctrlSignals := c, snd := .markingSent ctrl }
  | markedReceived {rx : ICMPReceiveReply} {now sinceNs sinceMs : Time} {trk : ICMPTrackerRun}
      (hs : s.snd = .markingReceived rx)
      (hm : s.trk.markReceived rx.seq rx now sinceNs sinceMs = some (.ok trk)) :
      Move config s (.markReceived now sinceNs sinceMs) { s with trk := trk, snd := .select }
  | markedSent {ctrl : SendControl} {now : Time} {trk : ICMPTrackerRun}
      (hs : s.snd = .markingSent ctrl)
      (hm : s.trk.markSent ctrl.seq ctrl.ttl (some config.dst) now = some (.ok trk)) :
      Move config s (.markSent now) { s with trk := trk, snd := .sending ctrl }
  | wrote {ctrl : SendControl} {err : Option String} {io : TransceiverLoop}
      (hs : s.snd = .sending ctrl) (hi : s.io.write err = some io) :
      Move config s (.send err)
        { s with io := io, snd := .select, wire := s.wire ++ [s.request config ctrl] }
  | forgot {trk : ICMPTrackerRun} (hs : s.snd = .forgetting)
      (hm : s.trk.forgetAllAndClose = some (.ok trk)) :
      Move config s .forgetAllAndClose { s with trk := trk, snd := .closing }
  | closedCh (hs : s.snd = .closing) (hc : s.trk.closing = true) :
      Move config s .closeCloseCh
        { s with trk := { s.trk with closing := false, closeCh := true }, snd := .returned }
  | replied {rx : ICMPReceiveReply} {io : TransceiverLoop} (hi : s.io.reply rx = some io) :
      Move config s (.reply rx) { s with io := io }
  | ioStopped {a : PingAction} {err : Option String} {io : TransceiverLoop}
      (hi : s.io.stop err = some io) : Move config s a { s with io := io }

variable {config : PingConfig} {s t : PingRun} {a : PingAction}

theorem handle_eq (config : PingConfig) (s : PingRun) (ev : ICMPTrackerEntry) (found : Bool) :
    ∃ ttl pmtu data nextTTL, s.handle config ev found =
      { s with ttl := ttl, pmtu := pmtu, ev := .outputting data nextTTL } := by
  unfold handle
  dsimp only
  split
  · split <;> exact ⟨_, _, _, _, rfl⟩
  · exact ⟨_, _, _, _, rfl⟩

theorem evReturn_eq_some (h : s.evReturn = some t) :
    ∃ c, s.ctrlSignals.close = some c ∧ t = { s with ev := .returned, ctrlSignals := c } := by
  obtain ⟨c, hc, rfl⟩ := Option.map_eq_some_iff.1 h
  exact ⟨c, hc, rfl⟩

theorem stepEvent_move (h : s.stepEvent config a = some t) : Move config s a t := by
  unfold stepEvent at h
  split at h
  next =>
    obtain ⟨⟨he, hw⟩, h⟩ := Option.ite_none_right_eq_some.1 h
    obtain ⟨c, hc, rfl⟩ := evReturn_eq_some h
    exact .stopped he (Or.inl hw) hc
  next =>
    obtain ⟨⟨he, hw⟩, h⟩ := Option.ite_none_right_eq_some.1 h
    obtain ⟨c, hc, rfl⟩ := evReturn_eq_some h
    exact .stopped he (Or.inr hw) hc
  next =>
    obtain ⟨he, h⟩ := Option.ite_none_right_eq_some.1 h
    obtain ⟨⟨ev, trk⟩, ht, rfl⟩ := Option.map_eq_some_iff.1 h
    exact .tookEvent he ht
  next found =>
    split at h
    next ev he =>
      obtain ⟨_, h⟩ := Option.ite_none_right_eq_some.1 h
      obtain ⟨ttl, pmtu, data, nextTTL, heq⟩ := handle_eq config s ev found
      rw [heq] at h
      cases h
      exact .handled he
    next => cases h
  next =>
    split at h
    next he => cases h; exact .outputted he
    next => cases h
  next =>
    split at h
    next he hn => cases h; exact .asked he hn
    next => cases h
  next =>
    split at h
    next he hn =>
      split at h
      next ht =>
        obtain ⟨c, hc, rfl⟩ := evReturn_eq_some h
        exact .finished he hn ht hc
      next ht => cases h; exact .unfinished he hn ht
    next => cases h
  next =>
    split at h
    next he => cases h; exact .paused he
    next => cases h
  next =>
    split at h
    next he =>
      split at h
      next hc => cases h; exact .signalled he hc
      next => cases h
      next hc => cases h; exact .crashed he (Chan.send_eq_panics.1 hc)
    next => cases h
  next => cases h

theorem stepSender_move (h : s.stepSender config a = some t) : Move config s a t := by
  unfold stepSender at h
  split at h
  next =>
    obtain ⟨⟨hs, _⟩, h⟩ := Option.ite_none_right_eq_some.1 h
    cases h
    exact .left (by rw [hs]; rfl)
  next =>
    split at h
    next hs =>
      obtain ⟨⟨rx, io⟩, hi, rfl⟩ := Option.map_eq_some_iff.1 h
      exact .tookReply hs hi
    next => cases h
  next =>
    obtain ⟨⟨hs, _⟩, h⟩ := Option.ite_none_right_eq_some.1 h
    cases h
    exact .left (by rw [hs]; rfl)
  next =>
    obtain ⟨hs, h⟩ := Option.ite_none_right_eq_some.1 h
    obtain ⟨⟨err, c⟩, hc, rfl⟩ := Option.map_eq_some_iff.1 h
    exact .tookErr hs hc
  next =>
    obtain ⟨hs, h⟩ := Option.ite_none_right_eq_some.1 h
    cases h
    exact .tookRunErr hs
  next =>
    obtain ⟨hs, h⟩ := Option.ite_none_right_eq_some.1 h
    obtain ⟨⟨ctrl, c⟩, hc, rfl⟩ := Option.map_eq_some_iff.1 h
    exact .tookSignal hs hc
  next =>
    obtain ⟨⟨hs, _⟩, h⟩ := Option.ite_none_right_eq_some.1 h
    cases h
    exact .left (by rw [hs]; rfl)
  next =>
    split at h
    next hs =>
      obtain ⟨r, hr, rfl⟩ := Option.map_eq_some_iff.1 h
      cases r with
      | error e => exact .left (by rw [hs]; rfl)
      | ok trk => exact .markedReceived hs hr
    next => cases h
  next =>
    split at h
    next hs =>
      obtain ⟨r, hr, rfl⟩ := Option.map_eq_some_iff.1 h
      cases r with
      | error e => exact .left (by rw [hs]; rfl)
      | ok trk => exact .markedSent hs hr
    next => cases h
  next =>
    split at h
    next hs =>
      obtain ⟨io, hi, rfl⟩ := Option.map_eq_some_iff.1 h
      exact .wrote hs hi
    next => cases h
  next =>
    split at h
    next hs =>
      obtain ⟨r, hr, rfl⟩ := Option.map_eq_some_iff.1 h
      cases r with
      | error e => exact .left (by rw [hs]; rfl)
      | ok trk => exact .forgot hs hr
    next => cases h
  next =>
    split at h
    next hs =>
      obtain ⟨hc, h⟩ := Option.ite_none_right_eq_some.1 h
      cases h
      exact .closedCh hs hc
    next => cases h
  next => cases h

theorem stepTransceiver_move (h : s.stepTransceiver a = some t) : Move config s a t := by
  unfold stepTransceiver at h
  split at h
  next =>
    obtain ⟨io, hi, rfl⟩ := Option.map_eq_some_iff.1 h
    exact .replied hi
  next =>
    obtain ⟨_, h⟩ := Option.ite_none_right_eq_some.1 h
    obtain ⟨io, hi, rfl⟩ := Option.map_eq_some_iff.1 h
    exact .ioStopped hi
  next =>
    obtain ⟨io, hi, rfl⟩ := Option.map_eq_some_iff.1 h
    exact .ioStopped hi
  next => cases h

/-- Every step is one of the moves. -/
theorem step_move (h : s.step config a = some t) : Move config s a t := by
  unfold step at h
  split at h
  next => cases h
  next =>
    split at h
    next =>
      obtain ⟨hi, h⟩ := Option.ite_none_right_eq_some.1 h
      obtain ⟨trk, ht, rfl⟩ := Option.map_eq_some_iff.1 h
      exact .tracker hi ht
    all_goals
      first
      | exact stepEvent_move h
      | exact stepSender_move h
      | exact stepTransceiver_move h

theorem handle_of_step {ev : ICMPTrackerEntry} {found : Bool}
    (h : s.step config (.resolve found) = some t) (hev : s.ev = .handling ev) :
    t = s.handle config ev found := by
  unfold step at h
  split at h
  · cases h
  · simp only [stepEvent, hev] at h
    split at h
    · exact (Option.some.inj h).symm
    · cases h

end PingRun

end CloudPing.Pinger

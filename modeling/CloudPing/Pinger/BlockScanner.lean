import CloudPing.Pinger.TTLGenerator
import CloudPing.Raw.TrackerEvents
import CloudPing.Raw.Transceiver

/-!
# The block scanner

`pingCIDR` probes every address of a network once.  Next to the goroutines of its tracker
it runs four: the *main* loop, which marks each packet sent, adds it to the in-flight
group and passes it to the transceiver; the *receiving* goroutine, which passes replies to
the tracker; the *drain* goroutine, which outputs each tracker event on `ch` and takes it
out of the group; and the transceiver loop.

When the main loop ends, its deferred calls wait until the group is empty or the context
is done, then close `ch`, then wait for the other goroutines.

The in-flight group is a `sync.WaitGroup`: a counter whose `Done` at zero panics.
-/

namespace CloudPing.Pinger

open Conc Raw

/-- What `pingCIDR` reads of its scanner for one network. -/
structure ScanConfig where
  tracker : ICMPTrackerConfig
  /-- The addresses of the network, as `GetMemberAddresses32` emits them. -/
  addresses : List IP
  ttl : TTLGenerator

/-- The result for one address.  The peer's text form is left out. -/
structure IPProbeEvent where
  rtt : Int
  peer : Option IPAddr
  deriving DecidableEq, Repr

/-- `newProbeEvent`: the round trip time of the last reply, `-1` for a timeout. -/
def newProbeEvent (ev : ICMPTrackerEntry) : IPProbeEvent where
  rtt :=
    match ev.receivedAt.getLast? with
    | some tRx => Duration.milliseconds (tRx - ev.sentAt)
    | none => -1
  peer := ev.originDstAddr

/-- Where the main loop is. -/
inductive ScanPC where
  | setup
  /-- At the send of an error on `ch`. -/
  | rejecting (err : String)
  | select
  | markingSent (dst : IP) (nextTTL : Int)
  /-- `MarkSent` returned, `inFlightPktWg.Add(1)` is next. -/
  | adding (req : ICMPSendRequest)
  /-- At the send on `inC`. -/
  | sending (req : ICMPSendRequest)
  | sleeping
  /-- In the first deferred call. -/
  | waiting
  /-- Before `close(ch)`. -/
  | closing
  | closed
  deriving DecidableEq, Repr

/-- Where the drain goroutine is. -/
inductive DrainPC where
  | receiving
  /-- At the send on `ch`. -/
  | forwarding (ev : ICMPTrackerEntry)
  /-- The event was output, `inFlightPktWg.Done()` is next. -/
  | settling (seq : Int)
  | returned
  deriving DecidableEq, Repr

/-- Where the receiving goroutine is. -/
inductive ReceiverPC where
  | select
  | markingReceived (rx : ICMPReceiveReply)
  | returned
  deriving DecidableEq, Repr

/-- The goroutines of one network. -/
structure ScanRun where
  trk : ICMPTrackerRun
  main : ScanPC
  drain : DrainPC
  rx : ReceiverPC
  io : TransceiverLoop
  /-- The addresses still to come on `addressesCh`. -/
  addresses : List IP
  ttl : TTLGenerator
  numPktsSent : Int
  inFlight : Nat
  /-- The goroutine that waits for the group has closed `done`. -/
  done : Bool
  chClosed : Bool
  panicked : Bool
  /-- The sequence numbers of the events output on `ch`. -/
  forwarded : List Int
  output : List (Except String IPProbeEvent)

inductive ScanAction where
  | tracker (a : TrackerAction)
  | reject (err : String)
  | sendErr
  | launch
  | ctxDone
  | address
  | addressesDone
  | markSent (now : Time)
  | add
  | send (err : Option String)
  | wake
  | wgZero
  | waitDone
  | waitCtxDone
  | close
  | drainTake (src : EventSource)
  | drainClosed
  | forward
  | drainCtxDone
  | settle
  | rxCtxDone
  | takeReply
  | outCClosed
  | takeErr
  | markReceived (now sinceNs sinceMs : Time)
  | reply (rx : ICMPReceiveReply)
  | ioCtxDone
  | ioStop (err : Option String)

namespace ScanRun

/-- The tracker runs; the network has still to be checked. -/
def start (config : ScanConfig) : ScanRun where
  trk := .new config.tracker
  main := .setup
  drain := .returned
  rx := .returned
  io := { TransceiverLoop.start with pc := .returned }
  addresses := config.addresses
  ttl := config.ttl
  numPktsSent := 0
  inFlight := 0
  done := false
  chClosed := false
  panicked := false
  forwarded := []
  output := []

/-- A send on `ch` that meets its reader, or panics because `ch` is closed. -/
def sendCh (s : ScanRun) (ev : Except String IPProbeEvent) (next : ScanRun) : ScanRun :=
  if s.chClosed then { s with panicked := true } else { next with output := s.output ++ [ev] }

/-- The packet for the next address. -/
def request (s : ScanRun) (dst : IP) (nextTTL : Int) : ICMPSendRequest where
  dst := ⟨dst, ""⟩
  seq := s.numPktsSent + 1
  ttl := nextTTL
  data := []
  pmtu := none
  nexthopMTU := 0

/-! ## The main loop -/

def stepMain (s : ScanRun) : ScanAction → Option ScanRun
  | .reject err => if s.main = .setup then some { s with main := .rejecting err } else none
  | .sendErr =>
    match s.main with
    | .rejecting err => some (s.sendCh (.error err) { s with main := .waiting })
    | _ => none
  | .launch =>
    if s.main = .setup then
      some { s with main := .select, drain := .receiving, rx := .select, io := .start }
    else none
  | .ctxDone =>
    match s.main with
    | .select | .sending _ => if s.trk.ctxDone then some { s with main := .waiting } else none
    | _ => none
  | .address =>
    match s.main, s.addresses with
    | .select, dst :: rest =>
      some
        { s with
          main := .markingSent dst s.ttl.get, ttl := s.ttl.forward, addresses := rest }
    | _, _ => none
  | .addressesDone =>
    if s.main = .select ∧ (s.addresses = [] ∨ s.trk.ctxDone = true) then
      some { s with main := .waiting }
    else none
  | .markSent now =>
    match s.main with
    | .markingSent dst nextTTL =>
      let req := s.request dst nextTTL
      (s.trk.markSent req.seq req.ttl (some req.dst) now).map fun
        | .ok trk => { s with trk := trk, main := .adding req }
        | .error _ => { s with main := .waiting }
    | _ => none
  | .add =>
    match s.main with
    | .adding req => some { s with inFlight := s.inFlight + 1, main := .sending req }
    | _ => none
  | .send err =>
    match s.main with
    | .sending _ =>
      (s.io.write err).map fun io =>
        { s with io := io, numPktsSent := s.numPktsSent + 1, main := .sleeping }
    | _ => none
  | .wake => if s.main = .sleeping then some { s with main := .select } else none
  | .wgZero => if s.inFlight = 0 ∧ s.main = .waiting then some { s with done := true } else none
  | .waitDone =>
    if s.main = .waiting ∧ s.done = true then some { s with main := .closing } else none
  | .waitCtxDone =>
    if s.main = .waiting ∧ s.trk.ctxDone = true then some { s with main := .closing } else none
  | .close =>
    if s.main = .closing then some { s with main := .closed, chClosed := true } else none
  | _ => none

/-! ## The drain goroutine -/

def stepDrain (s : ScanRun) : ScanAction → Option ScanRun
  | .drainTake src =>
    if s.drain = .receiving then
      (s.trk.take src).map fun (ev, trk) => { s with trk := trk, drain := .forwarding ev }
    else none
  | .drainClosed =>
    if s.drain = .receiving ∧ s.trk.recvEvC.drained = true then some { s with drain := .returned }
    else none
  | .forward =>
    match s.drain with
    | .forwarding ev =>
      some (s.sendCh (.ok (newProbeEvent ev))
        { s with drain := .settling ev.seq, forwarded := s.forwarded ++ [ev.seq] })
    | _ => none
  | .drainCtxDone =>
    match s.drain with
    | .forwarding _ => if s.trk.ctxDone then some { s with drain := .returned } else none
    | _ => none
  | .settle =>
    match s.drain, s.inFlight with
    | .settling _, n + 1 => some { s with inFlight := n, drain := .receiving }
    | .settling _, 0 => some { s with panicked := true }
    | _, _ => none
  | _ => none

/-! ## The receiving goroutine and the transceiver -/

def stepReceiver (s : ScanRun) : ScanAction → Option ScanRun
  | .rxCtxDone =>
    if s.rx = .select ∧ s.trk.ctxDone = true then some { s with rx := .returned } else none
  | .takeReply =>
    if s.rx = .select then
      s.io.pass.map fun (rx, io) => { s with io := io, rx := .markingReceived rx }
    else none
  | .outCClosed =>
    if s.rx = .select ∧ s.io.pc = .returned then some { s with rx := .returned } else none
  | .takeErr =>
    if s.rx = .select then
      s.io.errC.recv.map fun (_, c) => { s with io := { s.io with errC := c }, rx := .returned }
    else none
  | .markReceived now sinceNs sinceMs =>
    match s.rx with
    | .markingReceived rx =>
      (s.trk.markReceived rx.seq rx now sinceNs sinceMs).map fun
        | .ok trk => { s with trk := trk, rx := .select }
        | .error _ => { s with rx := .returned }
    | _ => none
  | .reply rx => (s.io.reply rx).map fun io => { s with io := io }
  | .ioCtxDone =>
    if s.trk.ctxDone then (s.io.stop none).map fun io => { s with io := io } else none
  | .ioStop err => (s.io.stop err).map fun io => { s with io := io }
  | _ => none

def step (s : ScanRun) (a : ScanAction) : Option ScanRun :=
  if s.panicked || s.trk.panicked then none
  else
    match a with
    | .tracker a => if a.own then (s.trk.step a).map fun trk => { s with trk := trk } else none
    | .reject _ | .sendErr | .launch | .ctxDone | .address | .addressesDone | .markSent _ | .add
    | .send _ | .wake | .wgZero | .waitDone | .waitCtxDone | .close => s.stepMain a
    | .drainTake _ | .drainClosed | .forward | .drainCtxDone | .settle => s.stepDrain a
    | .rxCtxDone | .takeReply | .outCClosed | .takeErr | .markReceived .. | .reply _ | .ioCtxDone
    | .ioStop _ => s.stepReceiver a

/-- All runs for one network. -/
def system (config : ScanConfig) : System ScanRun ScanAction := ⟨start config, step⟩

/-! ## What a step can do -/

end ScanRun

/-- The main loop can end here: in its select, on the error of `MarkSent`, or in the select
around the send on `inC`. -/
def ScanPC.canEnd : ScanPC → Bool
  | .select | .markingSent _ _ | .sending _ => true
  | _ => false

namespace ScanRun

/-- The effects of the actions, each with what holds when it happens. -/
inductive Move (s : ScanRun) : ScanAction → ScanRun → Prop where
  | tracker {a : TrackerAction} {trk : ICMPTrackerRun}
      (hi : a.own = true) (hm : s.trk.step a = some trk) :
      Move s (.tracker a) { s with trk := trk }
  | rejected {err : String} (hm : s.main = .setup) :
      Move s (.reject err) { s with main := .rejecting err }
  | sentErr {err : String} (hm : s.main = .rejecting err) (hc : s.chClosed = false) :
      Move s .sendErr { s with main := .waiting, output := s.output ++ [.error err] }
  | launched (hm : s.main = .setup) :
      Move s .launch { s with main := .select, drain := .receiving, rx := .select, io := .start }
  | ended {a : ScanAction} (hm : s.main.canEnd = true) : Move s a { s with main := .waiting }
  | tookAddress {dst : IP} {rest : List IP} (hm : s.main = .select)
      (hd : s.addresses = dst :: rest) :
      Move s .address
        { s with main := .markingSent dst s.ttl.get, ttl := s.ttl.forward, addresses := rest }
  | markedSent {dst : IP} {nextTTL : Int} {now : Time} {trk : ICMPTrackerRun}
      (hm : s.main = .markingSent dst nextTTL)
      (hr : s.trk.markSent (s.numPktsSent + 1) nextTTL (some ⟨dst, ""⟩) now = some (.ok trk)) :
      Move s (.markSent now) { s with trk := trk, main := .adding (s.request dst nextTTL) }
  | added {req : ICMPSendRequest} (hm : s.main = .adding req) :
      Move s .add { s with inFlight := s.inFlight + 1, main := .sending req }
  | passed {req : ICMPSendRequest} {err : Option String} {io : TransceiverLoop}
      (hm : s.main = .sending req) (hi : s.io.write err = some io) :
      Move s (.send err) { s with io := io, numPktsSent := s.numPktsSent + 1, main := .sleeping }
  | woke (hm : s.main = .sleeping) : Move s .wake { s with main := .select }
  | zero (hm : s.main = .waiting) (hz : s.inFlight = 0) : Move s .wgZero { s with done := true }
  | settledAll (hm : s.main = .waiting) (hd : s.done = true) :
      Move s .waitDone { s with main := .closing }
  | gaveUp (hm : s.main = .waiting) (hc : s.trk.ctxDone = true) :
      Move s .waitCtxDone { s with main := .closing }
  | closed (hm : s.main = .closing) : Move s .close { s with main := .closed, chClosed := true }
  | drainTook {src : EventSource} {ev : ICMPTrackerEntry} {trk : ICMPTrackerRun}
      (hd : s.drain = .receiving) (ht : s.trk.take src = some (ev, trk)) :
      Move s (.drainTake src) { s with trk := trk, drain := .forwarding ev }
  | drainLeft {a : ScanAction} (hd : s.drain = .receiving ∨ ∃ ev, s.drain = .forwarding ev) :
      Move s a { s with drain := .returned }
  | forwarded {ev : ICMPTrackerEntry} (hd : s.drain = .forwarding ev) (hc : s.chClosed = false) :
      Move s .forward
        { s with
          drain := .settling ev.seq
          forwarded := s.forwarded ++ [ev.seq]
          output := s.output ++ [.ok (newProbeEvent ev)] }
  | settled {seq : Int} {n : Nat} (hd : s.drain = .settling seq) (hn : s.inFlight = n + 1) :
      Move s .settle { s with inFlight := n, drain := .receiving }
  | rxLeft {a : ScanAction} : Move s a { s with rx := .returned }
  | tookErr {err : String} {c : Chan String} (hi : s.io.errC.recv = some (err, c)) :
      Move s .takeErr { s with io := { s.io with errC := c }, rx := .returned }
  | tookReply {rx : ICMPReceiveReply} {io : TransceiverLoop} (hr : s.rx = .select)
      (hi : s.io.pass = some (rx, io)) :
      Move s .takeReply { s with io := io, rx := .markingReceived rx }
  | markedReceived {rx : ICMPReceiveReply} {now sinceNs sinceMs : Time} {trk : ICMPTrackerRun}
      (hr : s.rx = .markingReceived rx)
      (hm : s.trk.markReceived rx.seq rx now sinceNs sinceMs = some (.ok trk)) :
      Move s (.markReceived now sinceNs sinceMs) { s with trk := trk, rx := .select }
  | replied {rx : ICMPReceiveReply} {io : TransceiverLoop} (hi : s.io.reply rx = some io) :
      Move s (.reply rx) { s with io := io }
  | ioStopped {a : ScanAction} {err : Option String} {io : TransceiverLoop}
      (hi : s.io.stop err = some io) : Move s a { s with io := io }
  | sendPanicked {a : ScanAction} (hc : s.chClosed = true)
      (hs : (∃ err, s.main = .rejecting err) ∨ (a = .forward ∧ ∃ ev, s.drain = .forwarding ev)) :
      Move s a { s with panicked := true }
  | donePanicked {seq : Int} (hd : s.drain = .settling seq) (hz : s.inFlight = 0) :
      Move s .settle { s with panicked := true }

variable {config : ScanConfig} {s t : ScanRun} {a : ScanAction}

theorem stepMain_move (h : s.stepMain a = some t) : Move s a t := by
  unfold stepMain at h
  split at h
  next =>
    obtain ⟨hm, h⟩ := Option.ite_none_right_eq_some.1 h
    cases h
    exact .rejected hm
  next =>
    split at h
    next err hm =>
      simp only [sendCh, Option.some.injEq] at h
      split at h
      next hc => subst h; exact .sendPanicked hc (Or.inl ⟨err, hm⟩)
      next hc => subst h; exact .sentErr hm (by simpa using hc)
    next => cases h
  next =>
    obtain ⟨hm, h⟩ := Option.ite_none_right_eq_some.1 h
    cases h
    exact .launched hm
  next =>
    split at h
    next hm =>
      obtain ⟨_, h⟩ := Option.ite_none_right_eq_some.1 h
      cases h
      exact .ended (by rw [hm]; rfl)
    next hm =>
      obtain ⟨_, h⟩ := Option.ite_none_right_eq_some.1 h
      cases h
      exact .ended (by rw [hm]; rfl)
    next => cases h
  next =>
    split at h
    next hm hd => cases h; exact .tookAddress hm hd
    next => cases h
  next =>
    obtain ⟨⟨hm, _⟩, h⟩ := Option.ite_none_right_eq_some.1 h
    cases h
    exact .ended (by rw [hm]; rfl)
  next =>
    split at h
    next hm =>
      obtain ⟨r, hr, rfl⟩ := Option.map_eq_some_iff.1 h
      cases r with
      | error e => exact .ended (by rw [hm]; rfl)
      | ok trk => exact .markedSent hm hr
    next => cases h
  next =>
    split at h
    next hm => cases h; exact .added hm
    next => cases h
  next =>
    split at h
    next hm =>
      obtain ⟨io, hi, rfl⟩ := Option.map_eq_some_iff.1 h
      exact .passed hm hi
    next => cases h
  next =>
    obtain ⟨hm, h⟩ := Option.ite_none_right_eq_some.1 h
    cases h
    exact .woke hm
  next =>
    obtain ⟨⟨hz, hm⟩, h⟩ := Option.ite_none_right_eq_some.1 h
    cases h
    exact .zero hm hz
  next =>
    obtain ⟨⟨hm, hd⟩, h⟩ := Option.ite_none_right_eq_some.1 h
    cases h
    exact .settledAll hm hd
  next =>
    obtain ⟨⟨hm, hc⟩, h⟩ := Option.ite_none_right_eq_some.1 h
    cases h
    exact .gaveUp hm hc
  next =>
    obtain ⟨hm, h⟩ := Option.ite_none_right_eq_some.1 h
    cases h
    exact .closed hm
  next => cases h

theorem stepDrain_move (h : s.stepDrain a = some t) : Move s a t := by
  unfold stepDrain at h
  split at h
  next =>
    obtain ⟨hd, h⟩ := Option.ite_none_right_eq_some.1 h
    obtain ⟨⟨ev, trk⟩, ht, rfl⟩ := Option.map_eq_some_iff.1 h
    exact .drainTook hd ht
  next =>
    obtain ⟨⟨hd, _⟩, h⟩ := Option.ite_none_right_eq_some.1 h
    cases h
    exact .drainLeft (Or.inl hd)
  next =>
    split at h
    next ev hd =>
      simp only [sendCh, Option.some.injEq] at h
      split at h
      next hc => subst h; exact .sendPanicked hc (Or.inr ⟨rfl, ev, hd⟩)
      next hc => subst h; exact .forwarded hd (by simpa using hc)
    next => cases h
  next =>
    split at h
    next ev hd =>
      obtain ⟨_, h⟩ := Option.ite_none_right_eq_some.1 h
      cases h
      exact .drainLeft (Or.inr ⟨ev, hd⟩)
    next => cases h
  next =>
    split at h
    next hd hn => cases h; exact .settled hd hn
    next hd hn => cases h; exact .donePanicked hd hn
    next => cases h
  next => cases h

theorem stepReceiver_move (h : s.stepReceiver a = some t) : Move s a t := by
  unfold stepReceiver at h
  split at h
  next =>
    obtain ⟨_, h⟩ := Option.ite_none_right_eq_some.1 h
    cases h
    exact .rxLeft
  next =>
    obtain ⟨hr, h⟩ := Option.ite_none_right_eq_some.1 h
    obtain ⟨⟨rx, io⟩, hi, rfl⟩ := Option.map_eq_some_iff.1 h
    exact .tookReply hr hi
  next =>
    obtain ⟨_, h⟩ := Option.ite_none_right_eq_some.1 h
    cases h
    exact .rxLeft
  next =>
    obtain ⟨_, h⟩ := Option.ite_none_right_eq_some.1 h
    obtain ⟨⟨err, c⟩, hi, rfl⟩ := Option.map_eq_some_iff.1 h
    exact .tookErr hi
  next =>
    split at h
    next hr =>
      obtain ⟨r, hm, rfl⟩ := Option.map_eq_some_iff.1 h
      cases r with
      | error e => exact .rxLeft
      | ok trk => exact .markedReceived hr hm
    next => cases h
  next =>
    obtain ⟨io, hi, rfl⟩ := Option.map_eq_some_iff.1 h
    exact .replied hi
  next =>
    obtain ⟨_, h⟩ := Option.ite_none_right_eq_some.1 h
    obtain ⟨io, hi, rfl⟩ := Option.map_eq_some_iff.1 h
    exact .ioStopped hi
  next =>
    obtain ⟨io, hi, rfl⟩ := Option.map_eq_some_iff.1 h
    exact .ioStopped hi
  next => cases h

/-- Every step is one of the moves. -/
theorem step_move (h : s.step a = some t) : Move s a t := by
  unfold step at h
  split at h
  next => cases h
  next =>
    split at h
    next =>
      obtain ⟨hi, h⟩ := Option.ite_none_right_eq_some.1 h
      obtain ⟨trk, ht, rfl⟩ := Option.map_eq_some_iff.1 h
      exact .tracker hi ht
    all_goals
      first
      | exact stepMain_move h
      | exact stepDrain_move h
      | exact stepReceiver_move h

end ScanRun

end CloudPing.Pinger

import CloudPing.Conc.Chan
import CloudPing.Conc.Store
import CloudPing.Conc.System

/-!
# Merging the events of many pingers

`StartMultiplePings` starts a goroutine for each pinger, which reads the channel of the
pinger and sends what it reads on one channel that all share.  A last goroutine waits for
all of them and closes that channel.  A pinger of `WithMetadata` stands behind a channel of
its own: a goroutine reads the channel of the pinger and passes each event on with the
metadata written into it.  Without metadata the channel of the pinger is read as it is.

The *lane* of a pinger is the pinger itself, which produces its events and closes its
channel, the goroutine that adds the metadata, and the goroutine that merges.  All channels
but that of the pinger are unbuffered, so an event passes where two goroutines meet.  The
consumer keeps reading.

An event is a value here: the map of one event is not that of another one.
-/

namespace CloudPing.Handler

open Conc

/-! ## Events -/

/-- `PingEvent`, where a nil map is `none`. -/
structure PingEvent (D : Type) where
  data : Option D := none
  metadata : Option (Store String String) := none
  error : Option String := none
  err : Option String := none

variable {D : Type}

/-- The body of the loop of `withMetadataPinger.Ping`. -/
def wrapEvent (metadata : Store String String) (ev : PingEvent D) : PingEvent D :=
  { ev with
    metadata := some (metadata.entries.foldl (fun m e => m.insert e.1 e.2)
      (ev.metadata.getD ∅)) }

/-- A `withMetadataPinger`, with the events that its origin produces and the capacity of the
channel of its origin. -/
structure WithMetadataPinger (D : Type) where
  events : List (PingEvent D)
  cap : Nat
  metadata : Option (Store String String)

/-- An event as the pinger gives it on. -/
def WithMetadataPinger.wrapped (p : WithMetadataPinger D) (ev : PingEvent D) : PingEvent D :=
  match p.metadata with
  | none => ev
  | some metadata => wrapEvent metadata ev

/-! ## One lane -/

/-- Where the origin is. -/
inductive OriginPC where
  /-- `Ping` was not called. -/
  | idle
  | sending
  | closed
  deriving DecidableEq, Repr

/-- Where the goroutine of `withMetadataPinger.Ping` is. -/
inductive ForwarderPC (D : Type) where
  | absent
  /-- Before it calls `Ping` of the origin. -/
  | starting
  | receiving
  | sending (ev : PingEvent D)
  /-- At the deferred close of its channel. -/
  | closing
  | returned

/-- Where the goroutine of `StartMultiplePings` for the pinger is. -/
inductive MergerPC (D : Type) where
  | absent
  /-- Before it calls `Ping`. -/
  | starting
  | receiving
  | sending (ev : PingEvent D)
  /-- At the deferred `wg.Done`. -/
  | exiting
  | returned

structure Lane (D : Type) where
  origin : OriginPC
  /-- The events the origin has still to send. -/
  todo : List (PingEvent D)
  chan : Chan (PingEvent D)
  forwarder : ForwarderPC D
  merger : MergerPC D

inductive LaneAction where
  /-- The merging goroutine calls `Ping`. -/
  | begin
  /-- The forwarding goroutine calls `Ping` of the origin. -/
  | call
  | produce
  /-- The origin meets the reader of its channel. -/
  | meet
  | closeOrigin
  | take
  | drained
  /-- The forwarding goroutine meets the merging one. -/
  | pass
  | closeWrapped
  | wrappedClosed
  deriving DecidableEq, Repr

namespace Lane

/-- Before anything started. -/
def start (p : WithMetadataPinger D) : Lane D := ⟨.idle, p.events, Chan.make p.cap, .absent, .absent⟩

/-- The merging goroutine goes to a place. -/
def setMerger (lane : Lane D) (merger : MergerPC D) : Lane D := { lane with merger := merger }

/-- The reader of the origin's channel gets an event. -/
def accept (p : WithMetadataPinger D) (lane : Lane D) (ev : PingEvent D) : Option (Lane D) :=
  match p.metadata, lane.forwarder, lane.merger with
  | some metadata, .receiving, _ => some { lane with forwarder := .sending (wrapEvent metadata ev) }
  | none, _, .receiving => some { lane with merger := .sending ev }
  | _, _, _ => none

/-- The reader of the origin's channel leaves its loop. -/
def leave (p : WithMetadataPinger D) (lane : Lane D) : Option (Lane D) :=
  match p.metadata, lane.forwarder, lane.merger with
  | some _, .receiving, _ => some { lane with forwarder := .closing }
  | none, _, .receiving => some { lane with merger := .exiting }
  | _, _, _ => none

def step (p : WithMetadataPinger D) (lane : Lane D) : LaneAction → Option (Lane D)
  | .begin =>
    match lane.merger, p.metadata with
    | .starting, none => some { lane with merger := .receiving, origin := .sending }
    | .starting, some _ => some { lane with merger := .receiving, forwarder := .starting }
    | _, _ => none
  | .call =>
    match lane.forwarder with
    | .starting => some { lane with forwarder := .receiving, origin := .sending }
    | _ => none
  | .produce =>
    match lane.origin, lane.todo with
    | .sending, ev :: todo =>
      match lane.chan.send ev with
      | .sent chan => some { lane with todo := todo, chan := chan }
      | _ => none
    | _, _ => none
  | .meet =>
    match lane.origin, lane.todo with
    | .sending, ev :: todo =>
      if lane.chan.canMeet then accept p { lane with todo := todo } ev else none
    | _, _ => none
  | .closeOrigin =>
    match lane.origin, lane.todo with
    | .sending, [] => lane.chan.close.map fun chan => { lane with origin := .closed, chan := chan }
    | _, _ => none
  | .take => lane.chan.recv.bind fun (ev, chan) => accept p { lane with chan := chan } ev
  | .drained => if lane.chan.drained then leave p lane else none
  | .pass =>
    match lane.forwarder, lane.merger with
    | .sending ev, .receiving => some { lane with forwarder := .receiving, merger := .sending ev }
    | _, _ => none
  | .closeWrapped =>
    match lane.forwarder with
    | .closing => some { lane with forwarder := .returned }
    | _ => none
  | .wrappedClosed =>
    match lane.forwarder, lane.merger with
    | .returned, .receiving => some { lane with merger := .exiting }
    | _, _ => none

end Lane

/-! ## All lanes -/

/-- Where the goroutine of `StartMultiplePings` itself is. -/
inductive MergeMainPC where
  /-- Before the goroutine of this pinger is started. -/
  | starting (i : Nat)
  /-- In `wg.Wait`. -/
  | waiting
  /-- At the deferred close of `eventCh`. -/
  | closing
  | returned
  deriving DecidableEq, Repr

structure MergeState (D : Type) (n : Nat) where
  main : MergeMainPC
  /-- The counter of the wait group. -/
  wg : Nat
  lanes : Fin n → Lane D
  /-- `eventCh` is closed. -/
  closed : Bool
  /-- What the consumer received, with the lane it came from. -/
  out : List (Fin n × PingEvent D)
  panicked : Bool

inductive MergeAction (n : Nat) where
  | startLane
  | wait
  | closeEvents
  | lane (i : Fin n) (a : LaneAction)
  /-- The merging goroutine meets the consumer. -/
  | deliver (i : Fin n)
  | wgDone (i : Fin n)
  deriving DecidableEq, Repr

namespace MergeState

variable {n : Nat}

def start (pingers : Fin n → WithMetadataPinger D) : MergeState D n where
  main := if n = 0 then .closing else .starting 0
  wg := 0
  lanes i := Lane.start (pingers i)
  closed := false
  out := []
  panicked := false

def setLane (s : MergeState D n) (i : Fin n) (lane : Lane D) : MergeState D n :=
  { s with lanes := Function.update s.lanes i lane }

def step (pingers : Fin n → WithMetadataPinger D) (s : MergeState D n) :
    MergeAction n → Option (MergeState D n)
  | .startLane =>
    match s.main with
    | .starting i =>
      if h : i < n then
        let lane := (s.lanes ⟨i, h⟩).setMerger .starting
        some { s.setLane ⟨i, h⟩ lane with
          wg := s.wg + 1
          main := if i + 1 < n then .starting (i + 1) else .waiting }
      else none
    | _ => none
  | .wait =>
    match s.main with
    | .waiting => if s.wg = 0 then some { s with main := .closing } else none
    | _ => none
  | .closeEvents =>
    match s.main with
    | .closing =>
      -- a second close panics
      if s.closed then some { s with panicked := true }
      else some { s with main := .returned, closed := true }
    | _ => none
  | .lane i a => ((s.lanes i).step (pingers i) a).map fun lane => s.setLane i lane
  | .deliver i =>
    match (s.lanes i).merger with
    | .sending ev =>
      -- a send on a closed channel panics
      if s.closed then some { s with panicked := true }
      else
        some { s.setLane i ((s.lanes i).setMerger .receiving) with
          out := s.out ++ [(i, ev)] }
    | _ => none
  | .wgDone i =>
    match (s.lanes i).merger with
    | .exiting =>
      some { s.setLane i ((s.lanes i).setMerger .returned) with wg := s.wg - 1 }
    | _ => none

end MergeState

/-- `StartMultiplePings` over a list of pingers, and its consumer. -/
def startMultiplePings {n : Nat} (pingers : Fin n → WithMetadataPinger D) :
    System (MergeState D n) (MergeAction n) where
  init := .start pingers
  step := MergeState.step pingers

end CloudPing.Handler

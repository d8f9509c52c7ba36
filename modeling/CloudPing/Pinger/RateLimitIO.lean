import CloudPing.Pinger.TimeoutWait

/-!
# The pinger behind a rate limiter

With a rate limiter, `rateLimitIO` puts three goroutines between the sending goroutine and
the transceiver.  The first takes packets from `wrappedInC` and passes them to the limiter,
the limiter holds one until there is a token for it, and the third passes it to `inC`.  All
the channels are unbuffered, so each goroutine holds one packet.

`ThrottledPing` is the pinger with or without them.  A packet is kept as its control signal:
the path MTU it points to is read when the packet is written.
-/

namespace CloudPing.Pinger

open Conc Raw

/-- Where the goroutine of the rate limiter is. -/
inductive LimiterPC where
  | select
  /-- It consumes a token, or waits for the pool to be refreshed. -/
  | consuming (ctrl : SendControl)
  /-- At the send on its output channel. -/
  | passing (ctrl : SendControl)
  | returned
  deriving DecidableEq, Repr

/-- The goroutines of `rateLimitIO`. -/
structure RateLink where
  /-- The packet taken from `wrappedInC`. -/
  wrapped : Option SendControl
  limiter : LimiterPC
  /-- The packet to pass to `inC`. -/
  forwarding : Option SendControl
  deriving DecidableEq, Repr

/-- The goroutines of one target, and those of its rate limiter if there is one. -/
structure ThrottledPing where
  run : PingRun
  link : Option RateLink

inductive ThrottledAction where
  | ping (a : PingAction)
  | wrap
  | feed
  | granted
  | release
  | forward (err : Option String)
  | limiterCtxDone

/-- The sending goroutine passes a packet to the transceiver. -/
def PingAction.isSend : PingAction → Bool
  | .send _ => true
  | _ => false

namespace ThrottledPing

def start (config : PingConfig) (limited : Bool) : ThrottledPing where
  run := .start config
  link := if limited then some ⟨none, .select, none⟩ else none

/-- The steps of the rate limiter's goroutines. -/
def stepLink (config : PingConfig) (s : ThrottledPing) (link : RateLink) :
    ThrottledAction → Option ThrottledPing
  | .ping _ => none
  | .wrap =>
    match s.run.snd, link.wrapped with
    | .sending ctrl, none =>
      some ⟨{ s.run with snd := .select }, some { link with wrapped := some ctrl }⟩
    | _, _ => none
  | .feed =>
    match link.wrapped, link.limiter with
    | some ctrl, .select =>
      some { s with link := some { link with wrapped := none, limiter := .consuming ctrl } }
    | _, _ => none
  | .granted =>
    match link.limiter with
    | .consuming ctrl => some { s with link := some { link with limiter := .passing ctrl } }
    | _ => none
  | .release =>
    match link.limiter, link.forwarding with
    | .passing ctrl, none =>
      some { s with link := some { link with limiter := .select, forwarding := some ctrl } }
    | _, _ => none
  | .forward err =>
    match link.forwarding with
    | some ctrl =>
      (s.run.io.write err).map fun io =>
        ⟨{ s.run with io := io, wire := s.run.wire ++ [s.run.request config ctrl] },
          some { link with forwarding := none }⟩
    | none => none
  | .limiterCtxDone =>
    if link.limiter = .select ∧ s.run.trk.ctxDone = true then
      some { s with link := some { link with limiter := .returned } }
    else none

def step (config : PingConfig) (s : ThrottledPing) (a : ThrottledAction) : Option ThrottledPing :=
  match a, s.link with
  | .ping a, none => (s.run.step config a).map fun run => { s with run := run }
  | .ping a, some _ =>
    if a.isSend then none else (s.run.step config a).map fun run => { s with run := run }
  | _, none => none
  | a, some link => if s.run.panicked || s.run.trk.panicked then none else s.stepLink config link a

/-- All runs for one target. -/
def system (config : PingConfig) (limited : Bool) : System ThrottledPing ThrottledAction :=
  ⟨start config limited, step config⟩

/-! ## What a step can do -/

/-- The effects of the actions, each with what holds when it happens. -/
inductive Move (config : PingConfig) (s : ThrottledPing) : ThrottledAction → ThrottledPing → Prop where
  | ping {a : PingAction} {run : PingRun} (hl : a.isSend = true → s.link = none)
      (hr : s.run.step config a = some run) : Move config s (.ping a) { s with run := run }
  | wrapped {link : RateLink} {ctrl : SendControl} (hl : s.link = some link)
      (hs : s.run.snd = .sending ctrl) (hw : link.wrapped = none) :
      Move config s .wrap ⟨{ s.run with snd := .select }, some { link with wrapped := some ctrl }⟩
  | fed {link : RateLink} {ctrl : SendControl} (hl : s.link = some link)
      (hw : link.wrapped = some ctrl) (hp : link.limiter = .select) :
      Move config s .feed
        { s with link := some { link with wrapped := none, limiter := .consuming ctrl } }
  | granted {link : RateLink} {ctrl : SendControl} (hl : s.link = some link)
      (hp : link.limiter = .consuming ctrl) :
      Move config s .granted { s with link := some { link with limiter := .passing ctrl } }
  | released {link : RateLink} {ctrl : SendControl} (hl : s.link = some link)
      (hp : link.limiter = .passing ctrl) (hf : link.forwarding = none) :
      Move config s .release
        { s with link := some { link with limiter := .select, forwarding := some ctrl } }
  | forwarded {link : RateLink} {ctrl : SendControl} {err : Option String} {io : TransceiverLoop}
      (hl : s.link = some link) (hf : link.forwarding = some ctrl)
      (hi : s.run.io.write err = some io) :
      Move config s (.forward err)
        ⟨{ s.run with io := io, wire := s.run.wire ++ [s.run.request config ctrl] },
          some { link with forwarding := none }⟩
  | limiterLeft {link : RateLink} (hl : s.link = some link) (hp : link.limiter = .select)
      (hc : s.run.trk.ctxDone = true) :
      Move config s .limiterCtxDone { s with link := some { link with limiter := .returned } }

variable {config : PingConfig} {s t : ThrottledPing} {a : ThrottledAction} {link : RateLink}

theorem stepLink_move (hl : s.link = some link) (h : s.stepLink config link a = some t) :
    Move config s a t := by
  unfold stepLink at h
  split at h
  next => cases h
  next =>
    split at h
    next hs hw => cases h; exact .wrapped hl hs hw
    next => cases h
  next =>
    split at h
    next hw hp => cases h; exact .fed hl hw hp
    next => cases h
  next =>
    split at h
    next hp => cases h; exact .granted hl hp
    next => cases h
  next =>
    split at h
    next hp hf => cases h; exact .released hl hp hf
    next => cases h
  next =>
    split at h
    next hf =>
      obtain ⟨io, hi, rfl⟩ := Option.map_eq_some_iff.1 h
      exact .forwarded hl hf hi
    next => cases h
  next =>
    obtain ⟨⟨hp, hc⟩, h⟩ := Option.ite_none_right_eq_some.1 h
    cases h
    exact .limiterLeft hl hp hc

/-- Every step is one of the moves. -/
theorem step_move (h : s.step config a = some t) : Move config s a t := by
  unfold step at h
  split at h
  next hl =>
    obtain ⟨run, hr, rfl⟩ := Option.map_eq_some_iff.1 h
    exact .ping (fun _ => hl) hr
  next =>
    obtain ⟨hs, h⟩ := Option.ite_none_left_eq_some.1 h
    obtain ⟨run, hr, rfl⟩ := Option.map_eq_some_iff.1 h
    exact .ping (fun hs' => absurd hs' hs) hr
  next => cases h
  next hl =>
    obtain ⟨_, h⟩ := Option.ite_none_left_eq_some.1 h
    exact stepLink_move hl h

end ThrottledPing

end CloudPing.Pinger

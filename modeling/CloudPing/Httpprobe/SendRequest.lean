import CloudPing.Conc.System
import CloudPing.Httpprobe.Events

/-!
# One HTTP probe

`sendRequest` runs one goroutine, which makes the transport and calls the client.  It logs
as it goes, and so do the dials, which `net/http` runs in goroutines of its own.  A dial is
started for a round trip and may go on after the round trip has ended, above all when the
client gave up waiting for it.  `HTTPProbe.Do` runs the *reader* of the two channels.

All three channels are unbuffered: `Log` waits until the reader takes its event.  When
`sendRequest` ends, its deferred calls close the event channel and then the error channel.
-/

namespace CloudPing.Httpprobe

open Conc

/-- What `sendRequest` reads of its probe, next to the address. -/
structure HTTPProbe where
  proto : Option String
  sizeLimit : Option Int
  ipPref : Option String
  numHeadersFieldsLimit : Option Int

def acceptableHTTPProtos : List String := ["http/1.1", "http/2", "http/3"]

/-- What the goroutine of `sendRequest` does next, before its deferred calls. -/
inductive SendPhase where
  | preparing
  /-- The transport is there, the request is not. -/
  | creating
  /-- In `client.Do`, before a call of `RoundTrip`. -/
  | requesting
  /-- In the round trip of the underlying transport. -/
  | roundTrip
  /-- In `client.Do`, after a call of `RoundTrip`. -/
  | responded
  | reading (bodyBytesRead : Int)
  /-- At the send on `errChan`. -/
  | failing (err : String)
  /-- Before `logger.Close()`. -/
  | closingLogger
  deriving DecidableEq, Repr

/-- Where the goroutine of `sendRequest` is. -/
inductive SendPC where
  | doing (phase : SendPhase)
  /-- In `Log`, with the rest of what is logged before the next phase. -/
  | logging (ev : TransportEvent) (rest : List TransportEvent) (next : SendPhase)
  /-- Before `close(errChan)`. -/
  | closingErr
  | returned
  deriving DecidableEq, Repr

/-- Log the events, then go on. -/
def SendPC.logAll : List TransportEvent → SendPhase → SendPC
  | [], next => .doing next
  | ev :: rest, next => .logging ev rest next

/-- Where the goroutine of a dial is. -/
inductive DialPC where
  /-- In the first `Log` of `doDNSLookup`. -/
  | starting (network addr : String)
  /-- In `doDNSLookup`, after that. -/
  | lookingUp (network addr : String)
  /-- In the `Log` of the resolved address. -/
  | resolved (network addr usedAddr : String) (ev : TransportEvent)
  /-- In the `Log` before the dial. -/
  | announcing (network addr resolvedAddr : String)
  | dialing (network addr : String)
  /-- In the last `Log`, of the connection or an error. -/
  | finishing (ev : TransportEvent)
  | returned
  deriving DecidableEq, Repr

/-- The event channel is closed. -/
def SendPC.closed : SendPC → Bool
  | .closingErr | .returned => true
  | _ => false

@[simp] theorem SendPC.closed_logAll (evs : List TransportEvent) (next : SendPhase) :
    (logAll evs next).closed = false := by
  cases evs <;> rfl

/-- The dial is in `Log`. -/
def DialPC.atLog : DialPC → Bool
  | .starting _ _ | .resolved .. | .announcing _ _ _ | .finishing _ => true
  | .lookingUp _ _ | .dialing _ _ | .returned => false

/-- The event a dial has to log. -/
def DialPC.pending (prefUsed : String) : DialPC → Option TransportEvent
  | .starting network addr => some (lookupStarted network addr prefUsed)
  | .resolved _ _ _ ev => some ev
  | .announcing network addr resolvedAddr => some (dialStarted network addr resolvedAddr)
  | .finishing ev => some ev
  | .lookingUp _ _ | .dialing _ _ | .returned => none

theorem DialPC.atLog_of_pending {pc : DialPC} {prefUsed : String} {ev : TransportEvent}
    (h : pc.pending prefUsed = some ev) : pc.atLog = true := by
  cases pc with
  | lookingUp | dialing | returned => cases h
  | _ => rfl

/-- Where a dial is after its `Log`. -/
def DialPC.logged : DialPC → DialPC
  | .starting network addr => .lookingUp network addr
  | .resolved network addr usedAddr _ => .announcing network addr usedAddr
  | .announcing network addr _ => .dialing network addr
  | .finishing _ => .returned
  | .lookingUp network addr => .lookingUp network addr
  | .dialing network addr => .dialing network addr
  | .returned => .returned

/-- Where the goroutine of `HTTPProbe.Do` is. -/
inductive ProbeReaderPC where
  | select
  /-- At the send on `outEVChan`. -/
  | forwarding (ev : Except String TransportEvent)
  | returned
  deriving DecidableEq, Repr

/-- What ends the process. -/
inductive ProbePanic where
  | invalidProto
  | nilRequest
  | sendOnClosed
  deriving DecidableEq, Repr

/-- The goroutines of one probe. -/
structure ProbeRun where
  main : SendPC
  dials : List DialPC
  reader : ProbeReaderPC
  evClosed : Bool
  errClosed : Bool
  panic : Option ProbePanic
  output : List (Except String TransportEvent)

/-- What a host lookup yields. -/
inductive LookupResult where
  | splitError (err : String)
  | lookupError (host err : String)
  | ips (host : String) (ips : List String) (joinHostPort : String)
  deriving DecidableEq, Repr

inductive ProbeAction where
  | getTransport (err : Option String)
  | newRequest (valid : Bool)
  | send (req : Request)
  | startDial (network addr : String)
  | roundTripOk (resp : Response)
  | roundTripErr (err : String)
  | redirect
  | doErr (err : String)
  | doOk
  | readErr
  | readBody (buf : List UInt8)
  | log
  | passErr
  | closeLogger
  | closeErr
  | lookup (i : Nat) (r : LookupResult)
  | dialed (i : Nat) (err : Option String) (remoteAddr localAddr : String)
  | dialLog (i : Nat)
  | forward
  | evClosed
  | errClosed

namespace ProbeRun

def start : ProbeRun where
  main := .doing .preparing
  dials := []
  reader := .select
  evClosed := false
  errClosed := false
  panic := none
  output := []

/-- `Log` meets the reader, or panics on the closed channel. -/
def logTo (s : ProbeRun) (ev : TransportEvent) (next : ProbeRun) : Option ProbeRun :=
  if s.evClosed then some { s with panic := some .sendOnClosed }
  else if s.reader = .select then some { next with reader := .forwarding (.ok ev) }
  else none

/-! ## The goroutine of `sendRequest` -/

/-- A part of the body was read. -/
def afterChunk (probe : HTTPProbe) (bodyBytesRead : Int) (buf : List UInt8) : SendPC :=
  let evs := chunkEvents probe.sizeLimit bodyBytesRead buf
  if truncated probe.sizeLimit bodyBytesRead then
    .logAll (evs ++ bodyEnd bodyBytesRead) .closingLogger
  else .logAll evs (.reading bodyBytesRead)

theorem closed_afterChunk (probe : HTTPProbe) (bodyBytesRead : Int) (buf : List UInt8) :
    (afterChunk probe bodyBytesRead buf).closed = false := by
  simp only [afterChunk]
  split
  next => exact SendPC.closed_logAll _ _
  next => exact SendPC.closed_logAll _ _

def stepMain (probe : HTTPProbe) (s : ProbeRun) : ProbeAction → Option ProbeRun
  | .getTransport err =>
    if s.main = .doing .preparing then
      if (probe.proto.getD "http/1.1") ∈ acceptableHTTPProtos then
        match err with
        | some err => some { s with main := .doing (.failing err) }
        | none => some { s with main := .doing .creating }
      else some { s with panic := some .invalidProto }
    else none
  | .newRequest valid =>
    if s.main = .doing .creating then
      if valid then some { s with main := .doing .requesting }
      else some { s with panic := some .nilRequest }
    else none
  | .send req =>
    if s.main = .doing .requesting then
      some { s with main := .logAll (requestEvents req) .roundTrip }
    else none
  | .startDial network addr =>
    if s.main = .doing .roundTrip then some { s with dials := s.dials ++ [.starting network addr] }
    else none
  | .roundTripOk resp =>
    if s.main = .doing .roundTrip then
      some { s with main := .logAll (responseEvents probe.numHeadersFieldsLimit resp) .responded }
    else none
  | .roundTripErr err =>
    if s.main = .doing .roundTrip then some { s with main := .doing (.failing err) } else none
  | .redirect =>
    if s.main = .doing .responded then some { s with main := .doing .requesting } else none
  | .doErr err =>
    if s.main = .doing .requesting ∨ s.main = .doing .responded then
      some { s with main := .doing (.failing err) }
    else none
  | .doOk =>
    if s.main = .doing .responded then
      some { s with main := .logging bodyStart [] (.reading 0) }
    else none
  | .readErr =>
    match s.main with
    | .doing (.reading bodyBytesRead) =>
      some { s with main := .logAll (bodyEnd bodyBytesRead) .closingLogger }
    | _ => none
  | .readBody buf =>
    match s.main with
    | .doing (.reading bodyBytesRead) =>
      if bufSize probe.sizeLimit bodyBytesRead ≤ 0 then
        some { s with main := .logAll (bodyEnd bodyBytesRead) .closingLogger }
      else if (buf.length : Int) ≤ bufSize probe.sizeLimit bodyBytesRead then
        some { s with main := afterChunk probe (bodyBytesRead + buf.length) buf }
      else none
    | _ => none
  | .log =>
    match s.main with
    | .logging ev rest next => s.logTo ev { s with main := .logAll rest next }
    | _ => none
  | .passErr =>
    match s.main, s.reader with
    | .doing (.failing err), .select =>
      some { s with main := .doing .closingLogger, reader := .forwarding (.error err) }
    | _, _ => none
  | .closeLogger =>
    if s.main = .doing .closingLogger then
      some { s with main := .closingErr, evClosed := true }
    else none
  | .closeErr =>
    if s.main = .closingErr then some { s with main := .returned, errClosed := true } else none
  | _ => none

/-! ## The dials and the reader -/

/-- The rest of `doDNSLookup` after its first `Log`. -/
def lookup (network addr : String) : LookupResult → DialPC
  | .splitError err => .finishing (splitError addr err)
  | .lookupError host err => .finishing (lookupError host err)
  | .ips host [] _ => .finishing (noIPError host)
  | .ips _ (usedIP :: ips) usedAddr =>
    .resolved network addr usedAddr
      (lookupCompleted network addr (usedIP :: ips) usedIP usedAddr)

/-- The connection is made, or not. -/
def finish (network addr : String) (err : Option String) (remoteAddr localAddr : String) :
    DialPC :=
  match err with
  | some err => .finishing (dialError err)
  | none => .finishing (dialCompleted network addr remoteAddr localAddr)

def stepDial (probe : HTTPProbe) (s : ProbeRun) : ProbeAction → Option ProbeRun
  | .lookup i r =>
    match s.dials[i]? with
    | some (.lookingUp network addr) => some { s with dials := s.dials.set i (lookup network addr r) }
    | _ => none
  | .dialed i err remoteAddr localAddr =>
    match s.dials[i]? with
    | some (.dialing network addr) =>
      some { s with dials := s.dials.set i (finish network addr err remoteAddr localAddr) }
    | _ => none
  | .dialLog i =>
    match s.dials[i]? with
    | some pc =>
      match pc.pending (probe.ipPref.getD "ip") with
      | some ev => s.logTo ev { s with dials := s.dials.set i pc.logged }
      | none => none
    | none => none
  | .forward =>
    match s.reader with
    | .forwarding ev => some { s with reader := .select, output := s.output ++ [ev] }
    | _ => none
  | .evClosed =>
    if s.reader = .select ∧ s.evClosed = true then some { s with reader := .returned } else none
  | .errClosed =>
    if s.reader = .select ∧ s.errClosed = true then some { s with reader := .returned } else none
  | _ => none

def step (probe : HTTPProbe) (s : ProbeRun) (a : ProbeAction) : Option ProbeRun :=
  if s.panic.isSome then none
  else
    match a with
    | .getTransport _ | .newRequest _ | .send _ | .startDial _ _ | .roundTripOk _
    | .roundTripErr _ | .redirect | .doErr _ | .doOk | .readErr | .readBody _ | .log | .passErr
    | .closeLogger | .closeErr => s.stepMain probe a
    | .lookup _ _ | .dialed .. | .dialLog _ | .forward | .evClosed | .errClosed => s.stepDial probe a

/-- All runs of one probe. -/
def system (probe : HTTPProbe) : System ProbeRun ProbeAction := ⟨start, step probe⟩

/-! ## What a step can do -/

/-- The effects of the actions on the event channel and on those that log. -/
inductive Move (s : ProbeRun) : ProbeAction → ProbeRun → Prop where
  /-- The goroutine of `sendRequest` goes on, before the deferred calls. -/
  | went {a : ProbeAction} {t : ProbeRun} (hm : s.main.closed = false)
      (hm' : t.main.closed = false) (hd : t.dials = s.dials) (he : t.evClosed = s.evClosed)
      (hp : t.panic = s.panic ∨ t.panic ≠ some .sendOnClosed) : Move s a t
  | started {network addr : String} (hm : s.main = .doing .roundTrip) :
      Move s (.startDial network addr) { s with dials := s.dials ++ [.starting network addr] }
  | closedLogger (hm : s.main = .doing .closingLogger) :
      Move s .closeLogger { s with main := .closingErr, evClosed := true }
  | closedErr (hm : s.main = .closingErr) :
      Move s .closeErr { s with main := .returned, errClosed := true }
  /-- A dial goes on. -/
  | dialed {a : ProbeAction} {t : ProbeRun} {i : Nat} {pc pc' : DialPC}
      (hi : s.dials[i]? = some pc) (hne : pc ≠ .returned) (hm : t.main = s.main)
      (hd : t.dials = s.dials.set i pc') (he : t.evClosed = s.evClosed) (hp : t.panic = s.panic) :
      Move s a t
  | read {a : ProbeAction} {t : ProbeRun} (hm : t.main = s.main) (hd : t.dials = s.dials)
      (he : t.evClosed = s.evClosed) (hp : t.panic = s.panic) : Move s a t
  /-- A `Log` on the closed channel. -/
  | panicked {a : ProbeAction} (hc : s.evClosed = true)
      (hl : s.main.closed = false ∨ ∃ pc ∈ s.dials, pc.atLog = true) :
      Move s a { s with panic := some .sendOnClosed }

variable {probe : HTTPProbe} {s t : ProbeRun} {a : ProbeAction}

theorem logTo_eq_some {ev : TransportEvent} {next : ProbeRun} (h : s.logTo ev next = some t) :
    (s.evClosed = true ∧ t = { s with panic := some .sendOnClosed }) ∨
      (s.reader = .select ∧ t = { next with reader := .forwarding (.ok ev) }) := by
  unfold logTo at h
  split at h
  next hc => cases h; exact Or.inl ⟨hc, rfl⟩
  next =>
    obtain ⟨hr, h⟩ := Option.ite_none_right_eq_some.1 h
    cases h
    exact Or.inr ⟨hr, rfl⟩

/-- The goroutine of `sendRequest` goes from one place to another. -/
theorem goes {main : SendPC} (hm : s.main.closed = false) (hm' : main.closed = false) :
    Move s a { s with main := main } :=
  .went hm hm' rfl rfl (Or.inl rfl)

theorem stepMain_move (h : s.stepMain probe a = some t) : Move s a t := by
  cases a with
  | getTransport err =>
    obtain ⟨hm, h⟩ := Option.ite_none_right_eq_some.1 h
    have hcl : s.main.closed = false := by rw [hm]; rfl
    split at h
    next =>
      cases err with
      | some err => cases h; exact goes hcl rfl
      | none => cases h; exact goes hcl rfl
    next => cases h; exact .went hcl hcl rfl rfl (Or.inr (by simp))
  | newRequest valid =>
    obtain ⟨hm, h⟩ := Option.ite_none_right_eq_some.1 h
    have hcl : s.main.closed = false := by rw [hm]; rfl
    split at h
    next => cases h; exact goes hcl rfl
    next => cases h; exact .went hcl hcl rfl rfl (Or.inr (by simp))
  | send req =>
    obtain ⟨hm, h⟩ := Option.ite_none_right_eq_some.1 h
    cases h
    exact goes (by rw [hm]; rfl) (SendPC.closed_logAll _ _)
  | startDial network addr =>
    obtain ⟨hm, h⟩ := Option.ite_none_right_eq_some.1 h
    cases h
    exact .started hm
  | roundTripOk resp =>
    obtain ⟨hm, h⟩ := Option.ite_none_right_eq_some.1 h
    cases h
    exact goes (by rw [hm]; rfl) (SendPC.closed_logAll _ _)
  | roundTripErr err | redirect | doOk =>
    obtain ⟨hm, h⟩ := Option.ite_none_right_eq_some.1 h
    cases h
    exact goes (by rw [hm]; rfl) rfl
  | doErr err =>
    obtain ⟨hm, h⟩ := Option.ite_none_right_eq_some.1 h
    cases h
    exact goes (by rcases hm with hm | hm <;> (rw [hm]; rfl)) rfl
  | readErr =>
    simp only [stepMain] at h
    split at h
    next hm => cases h; exact goes (by rw [hm]; rfl) (SendPC.closed_logAll _ _)
    next => cases h
  | readBody buf =>
    simp only [stepMain] at h
    split at h
    next hm =>
      have hcl : s.main.closed = false := by rw [hm]; rfl
      split at h
      next => cases h; exact goes hcl (SendPC.closed_logAll _ _)
      next =>
        obtain ⟨_, h⟩ := Option.ite_none_right_eq_some.1 h
        cases h
        exact goes hcl (closed_afterChunk _ _ _)
    next => cases h
  | log =>
    simp only [stepMain] at h
    split at h
    next ev rest next hm =>
      have hcl : s.main.closed = false := by rw [hm]; rfl
      rcases logTo_eq_some h with ⟨hc, rfl⟩ | ⟨_, rfl⟩
      · exact .panicked hc (Or.inl hcl)
      · exact .went hcl (SendPC.closed_logAll _ _) rfl rfl (Or.inl rfl)
    next => cases h
  | passErr =>
    simp only [stepMain] at h
    split at h
    next hm _ => cases h; exact .went (by rw [hm]; rfl) rfl rfl rfl (Or.inl rfl)
    next => cases h
  | closeLogger =>
    obtain ⟨hm, h⟩ := Option.ite_none_right_eq_some.1 h
    cases h
    exact .closedLogger hm
  | closeErr =>
    obtain ⟨hm, h⟩ := Option.ite_none_right_eq_some.1 h
    cases h
    exact .closedErr hm
  | _ => cases h

theorem stepDial_move (h : s.stepDial probe a = some t) : Move s a t := by
  cases a with
  | lookup i r =>
    simp only [stepDial] at h
    split at h
    next hi => cases h; exact .dialed hi (by simp) rfl rfl rfl rfl
    next => cases h
  | dialed i err remoteAddr localAddr =>
    simp only [stepDial] at h
    split at h
    next hi => cases h; exact .dialed hi (by simp) rfl rfl rfl rfl
    next => cases h
  | dialLog i =>
    simp only [stepDial] at h
    split at h
    next pc hi =>
      split at h
      next ev hp =>
        have hlog := DialPC.atLog_of_pending hp
        rcases logTo_eq_some h with ⟨hc, rfl⟩ | ⟨_, rfl⟩
        · exact .panicked hc (Or.inr ⟨pc, List.mem_of_getElem? hi, hlog⟩)
        · exact .dialed hi (by rintro rfl; cases hlog) rfl rfl rfl rfl
      next => cases h
    next => cases h
  | forward =>
    simp only [stepDial] at h
    split at h
    next => cases h; exact .read rfl rfl rfl rfl
    next => cases h
  | evClosed | errClosed =>
    obtain ⟨_, h⟩ := Option.ite_none_right_eq_some.1 h
    cases h
    exact .read rfl rfl rfl rfl
  | _ => cases h

/-- Every step is one of the moves. -/
theorem step_move (h : s.step probe a = some t) : Move s a t := by
  unfold step at h
  split at h
  next => cases h
  next =>
    split at h
    all_goals
      first
      | exact stepMain_move h
      | exact stepDial_move h

/-- A run that has panicked takes no step. -/
theorem alive_of_step (h : s.step probe a = some t) : s.panic = none := by
  unfold step at h
  split at h
  next => cases h
  next hp => simpa using hp

end ProbeRun

end CloudPing.Httpprobe

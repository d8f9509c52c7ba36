import CloudPing.Bot.ProbeHandler
import CloudPing.Handler.RemotePing
import CloudPing.Utils.IPNet

/-!
# The events of the bot

The bot gets its events from the hub, one in each line of a response.  `GetProbeEvents` goes on
behind a line that is no event, with an event that says so.  It returns without an event when
its context is done, and it does not look at the error of the scanner behind its loop.
`GetEvents`, which is the same loop but for the context, does look at it.

So `GetEvents` is silent about no error (`getEvents_delivered_iff`), and `GetProbeEvents` about
some (`events_relayed_iff`).
-/

namespace CloudPing.Bot

open CloudPing.Handler CloudPing.Pinger CloudPing.Utils Wire

variable {D : Type}

/-- `IPProbeEvent`, with the text of its address. -/
structure IPProbeEvent where
  rtt : Int
  peer : String

/-- The functions of `encoding/json` for the events. -/
structure EventCodec (D : Type) where
  unmarshalPingEvent : List UInt8 → Except String (PingEvent D)
  marshalData : D → Except String (List UInt8)
  unmarshalProbeEvent : List UInt8 → Except String IPProbeEvent

structure CloudPingEventsProvider where
  apiPrefix : String
  jwtToken : String

structure ProbeRequestDescriptor where
  fromNodeId : String
  /-- The text of the range. -/
  targetCIDR : String

def defaultProbeIntvMs : Int64 := 50

def defaultPktTimeoutMs : Int64 := 3000

/-- An event that is an error. -/
def errEvent (err : String) : ProbeEvent := { err := some err, ip := [], rttMs := 0 }

namespace CloudPingEventsProvider

variable (provider : CloudPingEventsProvider) (net : HTTPClient) (codec : EventCodec D)

def getAuthorizationHeader : String :=
  if provider.jwtToken ≠ "" then "bearer " ++ provider.jwtToken else ""

def probeRequest (request : ProbeRequestDescriptor) : SimplePingRequest where
  froms := [request.fromNodeId]
  targets := [request.targetCIDR]
  intvMilliseconds := defaultProbeIntvMs
  l4PacketType := some l4ProtoICMP
  pktTimeoutMilliseconds := defaultPktTimeoutMs

def getProbeURL (request : ProbeRequestDescriptor) : Except String String :=
  match net.withQuery (provider.apiPrefix ++ "/ping")
      (String.ofList (probeRequest request).toURLValues.encode) with
  | .error _ => .error "invalid request url"
  | .ok urlStr => .ok urlStr

/-- The header of a request. -/
def headers : List (String × String) :=
  if provider.getAuthorizationHeader ≠ "" then
    [("Authorization", provider.getAuthorizationHeader)]
  else []

/-- The body of the response to a request for a URL, or the error for which there is none. -/
def response (urlStr : Except String String) : Except String Source :=
  match urlStr with
  | .error err => .error ("can't get ping event stream URL: " ++ err)
  | .ok urlStr =>
    match net.newRequest urlStr with
    | .error err => .error ("failed to create request: " ++ err)
    | .ok () =>
      match net.doRequest none urlStr provider.headers with
      | .error err => .error ("failed to fetch ping events: " ++ err)
      | .ok (statusCode, body) =>
        if statusCode ≠ 200 then .error ("unexpected status code: " ++ toString statusCode)
        else .ok body

def convertToProbeEvent (pingEV : PingEvent D) : Except String ProbeEvent :=
  match pingEV.data with
  | none => .error "ping event data is nil"
  | some data =>
    match codec.marshalData data with
    | .error err => .error ("failed to marshal IPProbeEvent data: " ++ err)
    | .ok dataBytes =>
      match codec.unmarshalProbeEvent dataBytes with
      | .error err => .error ("failed to unmarshal IPProbeEvent data: " ++ err)
      | .ok rawProbeEV =>
        match parseIP rawProbeEV.peer with
        | none => .ok (errEvent ("invalid ip: " ++ rawProbeEV.peer))
        | some ip => .ok { ip, rttMs := rawProbeEV.rtt }

/-- The events of a line. -/
def probeEvents (line : List UInt8) : List ProbeEvent :=
  match codec.unmarshalPingEvent line with
  | .error err => [errEvent ("failed to parse ping event: " ++ err)]
  | .ok pingEVObj =>
    match pingEVObj.err, pingEVObj.error, pingEVObj.metadata with
    | some err, _, _ => [errEvent err]
    | none, some err, _ => [errEvent err]
    | none, none, none => []
    | none, none, some _ =>
      match convertToProbeEvent codec pingEVObj with
      | .error err => [errEvent err]
      | .ok probeEvent => [probeEvent]

/-- The loop over the lines of the body. -/
def probeLoop : LineLoop ProbeEvent where
  line line := (probeEvents codec line, true)
  scanError err := errEvent ("scanner error: " ++ err)

/-- `GetProbeEvents`, by the events it sends before it closes its channel.  The context is found
not done so many times as `checks` says. -/
def getProbeEvents (checks : Option Nat) (request : ProbeRequestDescriptor) : List ProbeEvent :=
  match provider.response net (provider.getProbeURL net request) with
  | .error err => [errEvent err]
  | .ok body => (probeLoop codec).relay checks body

section GetEvents

variable {B : Type} (convertPingEventToBotEvent : PingEvent D → Except String B)

/-- The events of a line in `GetEvents`, which skips those without a target. -/
def pingEvents (line : List UInt8) : List (Except String B) :=
  match codec.unmarshalPingEvent line with
  | .error err => [.error ("failed to parse ping event: " ++ err)]
  | .ok pingEVObj =>
    match pingEVObj.err, pingEVObj.error, pingEVObj.metadata with
    | some err, _, _ => [.error err]
    | none, some err, _ => [.error err]
    | none, none, none => []
    | none, none, some metadata =>
      if (metadata.lookup "target").getD "" = "" then []
      else [convertPingEventToBotEvent pingEVObj]

/-- The loop of `GetEvents` over the lines of a body. -/
def eventLoop : LineLoop (Except String B) where
  line line := (pingEvents codec convertPingEventToBotEvent line, true)
  scanError err := .error ("scanner error: " ++ err)
  checksEnd := true

end GetEvents

/-! ## Which errors are reported -/

/-- The cases in which `GetProbeEvents` relays a response: the context lasts, and the text has
ended, or the last read failed and has left a part of a line, and the lines before that part
have no events. -/
def Reports (checks : Option Nat) (r : Reading) : Prop :=
  match r.stop with
  | .eof => LineLoop.Lasts checks r.textLines.length
  | .tooLong => False
  | .failed _ => r.rest ≠ [] ∧ LineLoop.Lasts checks (r.lines.length + 1) ∧
    ∀ line ∈ seen (checks.map (· - r.lines.length)) (splitLines r.rest).1,
      probeEvents codec (dropCR line) = []

variable {codec}

theorem completes_probeLoop (checks : Option Nat) (r : Reading) :
    (probeLoop codec).Completes r checks ↔ Reports codec checks r := by
  rw [LineLoop.Completes, Reports]
  cases r.stop with
  | eof => exact Iff.rfl
  | tooLong => exact iff_of_false (fun h => Bool.false_ne_true h.2) id
  | failed text =>
    dsimp only
    split
    · next hnil => exact iff_of_false (fun h => Bool.false_ne_true h.2) fun h => h.1 hnil
    · next hne => exact (and_iff_right hne).symm

theorem events_probeLoop :
    (probeLoop codec).events = fun line => some (probeEvents codec line) :=
  funext fun _ => LineLoop.events_of_true rfl

theorem getProbeEvents_delivered_iff {provider : CloudPingEventsProvider} {net : HTTPClient}
    {request : ProbeRequestDescriptor} {body : Source} (checks : Option Nat)
    (h : provider.response net (provider.getProbeURL net request) = .ok body) :
    Delivered (fun line => some (probeEvents codec line)) (fun ev => ev.err.isSome) body.reading
        checks (provider.getProbeEvents net codec checks request) ↔
      Reports codec checks body.reading := by
  have hreports : (probeLoop codec).Reports fun ev => ev.err.isSome :=
    ⟨fun _ => rfl, fun _ hfalse => by cases hfalse⟩
  rw [getProbeEvents, h, ← events_probeLoop]
  dsimp only
  rw [LineLoop.delivered_iff_completes hreports (fun _ => rfl), completes_probeLoop]

/-- `GetEvents` relays every body but one whose last read failed and brought lines with it. -/
theorem eventLoop_delivered_iff {B : Type} {convert : PingEvent D → Except String B}
    (body : Source) :
    Delivered (fun line => some (pingEvents codec convert line)) (fun ev => ev.isOk = false)
        body.reading none ((eventLoop codec convert).relay none body) ↔
      ∀ text, body.reading.stop = .failed text →
        ∀ line ∈ (splitLines body.reading.rest).1, pingEvents codec convert (dropCR line) = [] := by
  have hreports : (eventLoop codec convert).Reports fun ev => ev.isOk = false :=
    ⟨fun _ => rfl, fun _ hfalse => by cases hfalse⟩
  have hevents : (eventLoop codec convert).events =
      fun line => some (pingEvents codec convert line) :=
    funext fun _ => LineLoop.events_of_true rfl
  rw [← hevents, LineLoop.delivered_iff_completes hreports (fun _ => rfl), LineLoop.Completes]
  cases body.reading.stop with
  | eof => exact iff_of_true (by rintro _ ⟨⟩) (by rintro _ ⟨⟩)
  | tooLong => exact iff_of_true ⟨by rintro _ ⟨⟩, rfl⟩ (by rintro _ ⟨⟩)
  | failed text =>
    have hlasts : ∀ n, LineLoop.Lasts none n := by rintro n _ ⟨⟩
    dsimp only
    split
    · next hnil =>
      rw [hnil]
      exact iff_of_true ⟨hlasts _, rfl⟩ fun _ _ _ hline => (List.not_mem_nil hline).elim
    · exact ⟨fun h _ _ => h.2, fun h => ⟨hlasts _, h text rfl⟩⟩

end CloudPingEventsProvider

/-- The relay of the events of an agent is complete exactly in the cases that the two loops
report, which never look at the scanner behind the loop. -/
theorem events_relayed_iff {net : HTTPClient} (unmarshal : List UInt8 → Except String (PingEvent D))
    (codec : EventCodec D) (sp : SimpleRemotePinger) (provider : CloudPingEventsProvider)
    (request : ProbeRequestDescriptor) (checks : Option Nat) {body body' : Source}
    (hping : sp.response net = .ok body)
    (hprobe : provider.response net (provider.getProbeURL net request) = .ok body') :
    (Delivered (SimpleRemotePinger.lineEvent unmarshal) (fun ev => ev.error.isSome) body.reading
        none (sp.ping net unmarshal) ↔ SimpleRemotePinger.Reports unmarshal body.reading) ∧
      (Delivered (fun line => some (CloudPingEventsProvider.probeEvents codec line))
          (fun ev => ev.err.isSome) body'.reading checks
          (provider.getProbeEvents net codec checks request) ↔
        CloudPingEventsProvider.Reports codec checks body'.reading) :=
  ⟨SimpleRemotePinger.ping_delivered_iff hping,
    CloudPingEventsProvider.getProbeEvents_delivered_iff checks hprobe⟩

/-! ### A response that breaks off between two lines -/

/-- The text `{}`. -/
def emptyLine : List UInt8 := [123, 125]

/-- An agent sends one event, which is empty, and is gone. -/
def brokenBody : Source where
  reads := [emptyLine ++ [newline]]
  failure := some "unexpected EOF"

def brokenNet : HTTPClient where
  withQuery url query := .ok (url ++ "?" ++ query)
  newRequest _ := .ok ()
  doRequest _ _ _ := .ok (200, brokenBody)

/-- The empty event is the only one. -/
def emptyEvent (line : List UInt8) : Except String (PingEvent Unit) :=
  if line = emptyLine then .ok {} else .error "unexpected end of JSON input"

def emptyCodec : EventCodec Unit where
  unmarshalPingEvent := emptyEvent
  marshalData _ := .ok emptyLine
  unmarshalProbeEvent _ := .ok ⟨0, ""⟩

def examplePinger : SimpleRemotePinger where
  nodeName := "us-lax1"
  endpoint := "https://192.0.2.1/simpleping"
  request := { intvMilliseconds := 1000, pktTimeoutMilliseconds := 3000 }
  extraRequestHeader := []
  quicClient := none
  agent := { connectedAt := 0 }

def exampleProvider : CloudPingEventsProvider := ⟨"https://hub/api", ""⟩

def exampleRequest : ProbeRequestDescriptor := ⟨"us-lax1", "192.0.2.0/28"⟩

theorem events_relayed_broken :
    examplePinger.response brokenNet = .ok brokenBody ∧
      (Delivered (SimpleRemotePinger.lineEvent emptyEvent) (fun ev => ev.error.isSome)
          brokenBody.reading none (examplePinger.ping brokenNet emptyEvent) ↔
        SimpleRemotePinger.Reports emptyEvent brokenBody.reading) :=
  ⟨rfl, (events_relayed_iff emptyEvent emptyCodec examplePinger exampleProvider exampleRequest none
    rfl rfl).1⟩

theorem reading_brokenBody :
    brokenBody.reading = ⟨[emptyLine], [], .failed "unexpected EOF"⟩ := by
  decide

/-- Neither loop says that the response broke off. -/
theorem broken_off_silently :
    ¬Delivered (SimpleRemotePinger.lineEvent emptyEvent) (fun ev => ev.error.isSome)
        brokenBody.reading none (examplePinger.ping brokenNet emptyEvent) ∧
      ¬Delivered (fun line => some (CloudPingEventsProvider.probeEvents emptyCodec line))
        (fun ev => ev.err.isSome) brokenBody.reading none
        (exampleProvider.getProbeEvents brokenNet emptyCodec none exampleRequest) := by
  constructor
  · rw [SimpleRemotePinger.ping_delivered_iff rfl, reading_brokenBody]
    rintro (⟨line, hline, hnone⟩ | ⟨hne, _⟩)
    · obtain rfl := List.mem_singleton.1 hline
      have hok : emptyEvent (dropCR emptyLine) = .ok {} := if_pos (by decide)
      rw [hok] at hnone
      cases hnone
    · exact hne rfl
  · rw [CloudPingEventsProvider.getProbeEvents_delivered_iff none rfl, reading_brokenBody]
    exact fun h => h.1 rfl

end CloudPing.Bot

import CloudPing.Handler.EventMerge
import CloudPing.Handler.PingTask
import CloudPing.Pinger.RequestCodec
import CloudPing.Wire.LineRelay

/-!
# Events of a remote agent

`SimpleRemotePinger.Ping` asks an agent and gives on the events of the response, which has one
in each line.  It returns at a line that is no event, and at an error of the scanner that it
sees inside its loop, each with an event that says so.  It does not look at the error of the
scanner behind the loop.

So a response is relayed as it should be exactly in the cases of `Reports`
(`ping_delivered_iff`).
-/

namespace CloudPing.Handler

open Wire

variable {D : Type}

/-- The client of `net/http`, with the functions of `net/url` that make its requests. -/
structure HTTPClient where
  /-- The text of a URL with another query. -/
  withQuery : String → String → Except String String
  newRequest : String → Except String Unit
  /-- The status and the body of the response.  The first argument is the client of the tunnel,
  if it is that one. -/
  doRequest : Option Nat → String → List (String × String) → Except String (Nat × Source)

/-- Bytes in an error text, with one character for each byte. -/
def byteText (bytes : List UInt8) : String :=
  String.ofList (bytes.map fun b => Char.ofNat b.toNat)

namespace SimpleRemotePinger

variable (net : HTTPClient) (unmarshal : List UInt8 → Except String (PingEvent D))
  (sp : SimpleRemotePinger)

/-- The URL without its query.  Through the tunnel the host does not matter. -/
def backendURL : String :=
  match sp.quicClient with
  | some _ => "http://localhost/simpleping"
  | none => sp.endpoint

/-- The body of the response, or the error for which there is none.  The status of the response
is not looked at. -/
def response : Except String Source :=
  match net.withQuery sp.backendURL (String.ofList sp.request.toURLValues.encode) with
  | .error err => .error ("Invalid backend URL: " ++ err)
  | .ok urlStr =>
    match net.newRequest urlStr with
    | .error err => .error ("Failed to create http request to backend: " ++ err)
    | .ok () =>
      match net.doRequest sp.quicClient urlStr sp.extraRequestHeader with
      | .error err => .error ("Failed to invoke http request to backend: " ++ err)
      | .ok (_, body) => .ok body

/-- The loop over the lines of the body. -/
def lineLoop : LineLoop (PingEvent D) where
  line line :=
    match unmarshal line with
    | .error err =>
      ([{ error := some ("Unable to unamrshal upstream JSON response: " ++ err ++
        ", content (start at nextline):\n" ++ byteText line ++ "\n") }], false)
    | .ok pingEVObj => ([pingEVObj], true)
  scanError err := { error := some ("Error while line-scaning upstream data: " ++ err) }

/-- `Ping`, by the events it sends before it closes its channel. -/
def ping : List (PingEvent D) :=
  match sp.response net with
  | .error err => [{ error := some err }]
  | .ok body => (lineLoop unmarshal).relay none body

/-- The event of a line. -/
def lineEvent (line : List UInt8) : Option (List (PingEvent D)) :=
  match unmarshal line with
  | .error _ => none
  | .ok pingEVObj => some [pingEVObj]

/-- The error in the end is reported: the text has ended, or the last read failed and has left
a part of a line, and no line before that part, or as the first such line one that is no
event. -/
def ReportsEnd (r : Reading) : Prop :=
  match r.stop with
  | .eof => True
  | .tooLong => False
  | .failed _ => r.rest ≠ [] ∧
    ∀ line ∈ (splitLines r.rest).1.head?, (unmarshal (dropCR line)).toOption = none

/-- The cases in which a response is relayed: a line before the last read is no event, or the
error in the end is reported. -/
def Reports (r : Reading) : Prop :=
  (∃ line ∈ r.lines, (unmarshal (dropCR line)).toOption = none) ∨ ReportsEnd unmarshal r

variable {unmarshal}

theorem events_lineLoop (line : List UInt8) :
    (lineLoop unmarshal).events line = lineEvent unmarshal line := by
  cases hu : unmarshal line with
  | error err => simp [LineLoop.events, lineEvent, lineLoop, hu]
  | ok ev => simp [LineLoop.events, lineEvent, lineLoop, hu]

theorem lineEvent_eq_none {line : List UInt8} :
    lineEvent unmarshal line = none ↔ (unmarshal line).toOption = none := by
  rw [lineEvent]
  cases unmarshal line with
  | error err => exact iff_of_true rfl rfl
  | ok ev => exact iff_of_false (by rintro ⟨⟩) (by rintro ⟨⟩)

theorem reports_lineLoop : (lineLoop unmarshal).Reports fun ev => ev.error.isSome where
  scanError _ := rfl
  line line h := by
    rw [lineLoop] at h ⊢
    dsimp only at h ⊢
    cases hu : unmarshal line with
    | error err => exact ⟨_, rfl, rfl⟩
    | ok ev => rw [hu] at h; cases h

theorem reported_lineLoop (r : Reading) :
    (lineLoop unmarshal).Reported r none ↔ ReportsEnd unmarshal r := by
  rw [LineLoop.Reported, ReportsEnd]
  cases r.stop with
  | eof => exact iff_of_true ((LineLoop.through_none _).2 (Or.inr trivial)) trivial
  | tooLong => exact iff_of_false Bool.false_ne_true id
  | failed text =>
    have hevents : (lineLoop unmarshal).events = lineEvent unmarshal := funext events_lineLoop
    have hne : ∀ line, lineEvent unmarshal line ≠ some [] := by
      intro line
      rw [lineEvent]
      cases unmarshal line with
      | error err => rintro ⟨⟩
      | ok ev => rintro ⟨⟩
    dsimp only
    split
    · next hnil => exact iff_of_false Bool.false_ne_true fun h => h.1 hnil
    · next hrest =>
      rw [hevents, LineLoop.silent_head hne, and_iff_right (by rintro ⟨⟩), and_iff_right hrest]
      simp only [seen, List.head?_map, Option.mem_def, Option.map_eq_some_iff,
        forall_exists_index, and_imp, forall_apply_eq_imp_iff₂, lineEvent_eq_none]

/-- The events of a response are relayed exactly in the cases of `Reports`. -/
theorem ping_delivered_iff {net : HTTPClient} {sp : SimpleRemotePinger} {body : Source}
    (h : sp.response net = .ok body) :
    Delivered (lineEvent unmarshal) (fun ev => ev.error.isSome) body.reading none
        (sp.ping net unmarshal) ↔
      Reports unmarshal body.reading := by
  have hevents : (lineLoop unmarshal).events = lineEvent unmarshal := funext events_lineLoop
  rw [ping, h, ← hevents]
  dsimp only
  rw [LineLoop.delivered_iff reports_lineLoop, LineLoop.through_none, reported_lineLoop, Reports]
  simp only [List.mem_map, exists_exists_and_eq_and, hevents, lineEvent_eq_none]

/-- A body that is read to its end is relayed, all its lines. -/
theorem ping_of_eof {net : HTTPClient} {sp : SimpleRemotePinger} {body : Source}
    (h : sp.response net = .ok body) (heof : body.reading.stop = .eof) :
    Relayed (lineEvent unmarshal) (fun ev => ev.error.isSome) True
      ((allLines body.text).map dropCR) (sp.ping net unmarshal) := by
  have hreports : Reports unmarshal body.reading := by
    rw [Reports, ReportsEnd, heof]
    exact Or.inr trivial
  have hdelivered := (ping_delivered_iff h).2 hreports
  rw [Delivered, DeliveredLines, Source.textLines_of_eof heof, heof] at hdelivered
  simpa only [seen, and_self] using hdelivered

end SimpleRemotePinger

end CloudPing.Handler

import CloudPing.Handler.RemotePing
import CloudPing.Json.Lines
import CloudPing.Pinger.TargetJSON

/-!
# Events in lines

The handler of an agent and that of the hub write each event as a line of JSON.  Both put the
error of an event, which has no member of its own, into `err`: the agent over what is there, the
hub only where nothing is.

What the data of an event is written as, and what becomes of it in a variable of type `any`, is
the matter of `AnyJSON`.  An event of an agent that is read from its line is the event with its
data carried over (`unmarshalEvent_text`), and the hub gives on exactly these events
(`ping_streamEvents`).
-/

namespace CloudPing.Handler

open Conc Json Wire CloudPing.Pinger

variable {D : Type}

/-- What `encoding/json` makes of the data of events. -/
structure AnyJSON (D : Type) where
  toValue : D → Value
  /-- A value that was read into a variable of type `any`. -/
  ofValue : Value → D
  /-- There is room for the event around the data. -/
  fits : ∀ d, (toValue d).Fits (maxNestingDepth - 1)
  notNull : ∀ d, toValue d ≠ .null

/-- Data that was written and read. -/
def AnyJSON.carried (any : AnyJSON D) (d : D) : D := any.ofValue (any.toValue d)

/-! ## Writing -/

/-- The entries of a map in the order of the keys. -/
def sortedEntries (m : Store String String) : List (String × String) :=
  (m.entries.map fun e => (e.1, e.2)).mergeSort fun a b => decide (a.1 ≤ b.1)

/-- A map, which is left out if it is empty. -/
def ofStringMap (m : Option (Store String String)) : Option Value :=
  if sortedEntries (m.getD ∅) = [] then none
  else some (.obj ((sortedEntries (m.getD ∅)).map fun e => (e.1, .str e.2)))

namespace PingEvent

variable (any : AnyJSON D) (ev : PingEvent D)

def members : List (String × Value) :=
  member "data" (ev.data.map any.toValue) ++ member "metadata" (ofStringMap ev.metadata) ++
    member "err" (ev.err.map .str)

/-- What `Encode` writes. -/
def line : List UInt8 := (Value.obj (ev.members any)).line

end PingEvent

/-- The event as an agent writes it. -/
def PingHandler.outgoing (ev : PingEvent D) : PingEvent D :=
  match ev.error with
  | some errStr => { ev with err := some errStr }
  | none => ev

/-- The loop over the events of the pinger, while nothing fails to be written. -/
def PingHandler.streamEvents (any : AnyJSON D) (evs : List (PingEvent D)) : List UInt8 :=
  evs.flatMap fun ev => (PingHandler.outgoing ev).line any

/-- The event as the hub writes it. -/
def PingTaskHandler.outgoing (ev : PingEvent D) : PingEvent D :=
  match ev.error, ev.err with
  | some evStr, none => { ev with err := some evStr }
  | _, _ => ev

/-- The loop over the events of all pingers, while nothing fails to be written. -/
def PingTaskHandler.streamEvents (any : AnyJSON D) (evs : List (PingEvent D)) : List UInt8 :=
  evs.flatMap fun ev => (PingTaskHandler.outgoing ev).line any

/-! ## Reading -/

def intoAny (any : AnyJSON D) : Decoder (Option D)
  | _, .null => some none
  | _, v => some (some (any.ofValue v))

/-- A map from strings to strings.  Each entry is decoded into a new variable. -/
def intoStringMap : Decoder (Option (Store String String))
  | _, .null => some none
  | old, .obj ms =>
    (ms.foldlM (fun m e => (intoString "" e.2).map fun v => m.insert e.1 v) (old.getD ∅)).map some
  | _, _ => none

/-- A value in a new variable. -/
def PingEvent.ofValue (any : AnyJSON D) : Value → Option (PingEvent D)
  | .null => some {}
  | .obj ms => do
    let data ← intoField (intoAny any) "data" none ms
    let metadata ← intoField intoStringMap "metadata" none ms
    let err ← intoField (intoPointer intoString "") "err" none ms
    some { data, metadata, err }
  | _ => none

/-- `json.Unmarshal` of a line into a new variable, with the text of its error. -/
def unmarshalEvent (any : AnyJSON D) (errText : List UInt8 → String) (line : List UInt8) :
    Except String (PingEvent D) :=
  match (parse maxNestingDepth (Utf8.decode line)).bind (PingEvent.ofValue any) with
  | some ev => .ok ev
  | none => .error (errText line)

/-! ## The text of an event -/

section Text

variable (any : AnyJSON D) (ev : PingEvent D)

theorem fits_ofStringMap (m : Option (Store String String)) :
    ∀ v ∈ ofStringMap m, v.Fits (maxNestingDepth - 1) := by
  intro v hv
  rw [ofStringMap] at hv
  split at hv
  · cases hv
  · obtain rfl := Option.some.inj hv
    have hstrs : (Value.obj ((sortedEntries (m.getD ∅)).map fun e => (e.1, .str e.2))).Fits 1 :=
      fits_obj fun e he => by
        obtain ⟨e', -, rfl⟩ := List.mem_map.1 he
        exact fits_str _
    exact hstrs.mono (by decide)

theorem fits_members : (Value.obj (ev.members any)).Fits maxNestingDepth := by
  change (Value.obj (ev.members any)).Fits (maxNestingDepth - 1 + 1)
  refine fits_obj ?_
  simp only [PingEvent.members, List.forall_mem_append, forall_mem_member]
  refine ⟨⟨?_, fits_ofStringMap ev.metadata⟩, ?_⟩
  · intro v hv
    obtain ⟨d, -, rfl⟩ := Option.mem_map.1 hv
    exact any.fits d
  · intro v hv
    obtain ⟨err, -, rfl⟩ := Option.mem_map.1 hv
    exact fits_str err

end Text

/-! ## From an agent to the hub -/

/-- An event that was written and read. -/
def PingEvent.carried (any : AnyJSON D) (ev : PingEvent D) : PingEvent D :=
  { data := ev.data.map any.carried, err := ev.err }

section Reading

variable {any : AnyJSON D} {ev : PingEvent D}

theorem ofValue_members (hmeta : ev.metadata = none) :
    PingEvent.ofValue any (.obj (ev.members any)) = some (ev.carried any) := by
  have hdata : intoField (intoAny any) "data" none (ev.members any) =
      some (ev.data.map any.carried) := by
    have hv : valuesOf "data" (ev.members any) = (ev.data.map any.toValue).toList := by
      simp +decide [PingEvent.members, hmeta]
    cases hd : ev.data with
    | none =>
      rw [hd] at hv
      exact intoField_of_none hv
    | some d =>
      rw [hd] at hv
      rw [intoField_of_single hv]
      have hne := any.notNull d
      unfold intoAny
      split
      · next heq => exact absurd heq hne
      · rfl
  have hmd : intoField intoStringMap "metadata" none (ev.members any) = some none := by
    refine intoField_of_none ?_
    simp +decide [PingEvent.members, hmeta, ofStringMap, sortedEntries]
  have herr := intoField_stringPointer "err" (ev.members any) ev.err
    (by simp +decide [PingEvent.members])
  simp only [PingEvent.ofValue, hdata, hmd, herr]
  rfl

/-- An event without metadata is read from the text of its line. -/
theorem unmarshalEvent_text (errText : List UInt8 → String) (hmeta : ev.metadata = none) :
    unmarshalEvent any errText (Utf8.encode (Value.obj (ev.members any)).text) =
      .ok (ev.carried any) := by
  rw [unmarshalEvent, Utf8.decode_encode, parse_text (fits_members any ev), Option.bind_some,
    ofValue_members hmeta]

end Reading

theorem PingHandler.outgoing_metadata (ev : PingEvent D) :
    (outgoing ev).metadata = ev.metadata := by
  rw [outgoing]
  split <;> rfl

/-- The lines of the body of an agent. -/
theorem PingHandler.streamEvents_eq (any : AnyJSON D) (evs : List (PingEvent D)) :
    streamEvents any evs =
      (evs.map fun ev => Value.obj ((outgoing ev).members any)).flatMap Value.line := by
  rw [streamEvents, List.flatMap_map]
  rfl

/-- A body of an agent that is read to its end: the hub gives on each event of it. -/
theorem ping_streamEvents {any : AnyJSON D} {errText : List UInt8 → String} {net : HTTPClient}
    {sp : SimpleRemotePinger} {body : Source} {evs : List (PingEvent D)}
    (h : sp.response net = .ok body) (htext : body.text = PingHandler.streamEvents any evs)
    (heof : body.reading.stop = .eof) (hmeta : ∀ ev ∈ evs, ev.metadata = none) :
    sp.ping net (unmarshalEvent any errText) =
      evs.map fun ev => (PingHandler.outgoing ev).carried any := by
  have hlines : (allLines body.text).map dropCR =
      evs.map fun ev => Utf8.encode (Value.obj ((PingHandler.outgoing ev).members any)).text := by
    rw [htext, PingHandler.streamEvents_eq, allLines_lines, List.map_map]
    · rfl
    · intro v hv
      obtain ⟨ev, -, rfl⟩ := List.mem_map.1 hv
      exact (fits_members any _).valid
  have hline : ∀ ev ∈ evs, SimpleRemotePinger.lineEvent (unmarshalEvent any errText)
      (Utf8.encode (Value.obj ((PingHandler.outgoing ev).members any)).text) =
        some [(PingHandler.outgoing ev).carried any] := by
    intro ev hev
    rw [SimpleRemotePinger.lineEvent, unmarshalEvent_text errText
      ((PingHandler.outgoing_metadata ev).trans (hmeta ev hev))]
  have hrelayed : Relayed (SimpleRemotePinger.lineEvent (unmarshalEvent any errText))
      (fun ev => ev.error.isSome) True ((allLines body.text).map dropCR)
      (sp.ping net (unmarshalEvent any errText)) := SimpleRemotePinger.ping_of_eof h heof
  rw [hlines] at hrelayed
  have hout := eq_flatMap_of_relayed hrelayed trivial ?_
  · rw [hout, List.flatMap_map, List.map_eq_flatMap]
    refine List.flatMap_congr fun ev hev => ?_
    rw [hline ev hev, Option.getD_some]
  · intro line hmem
    obtain ⟨ev, hev, rfl⟩ := List.mem_map.1 hmem
    rw [hline ev hev]
    exact Option.some_ne_none _

end CloudPing.Handler

import CloudPing.Tui.EventConverters
import CloudPing.Tui.PingMatrix
import Mathlib.Data.List.Dedup
import Mathlib.Data.List.Induction

/-!
# The ping matrix of a request

The handler writes a sample for each event and renders the matrix when there are no more.  It
looks at neither the error nor the timeout of an event.  An event without a reply has a round
trip time of zero, which is written over the value of its pair, or of the first pair if the event
names none.

So the table shows the last round trip time of each pair if every event is a reply for one of the
pairs (`run_shows`), and otherwise it may show a time that nobody measured.

The values are floating-point numbers, of which only the operations in `Float64` are used.
-/

namespace CloudPing.Tui

open Conc Pinger Raw Utils

variable {F V : Type}

/-- The operations on `float64`. -/
structure Float64 (V : Type) where
  ofInt : Int → V
  div : V → V → V
  le : V → V → Bool
  lt : V → V → Bool
  /-- `fmt.Sprintf` with the format `%.1f`. -/
  sprintf1 : V → String

/-! ## Rendering -/

structure StyledCell where
  style : String := ""
  textContent : String
  deriving DecidableEq

structure StyledTable where
  cells : List (List StyledCell)

/-- The text of a cell. -/
def StyledTable.text (t : StyledTable) (r c : Nat) : Option String :=
  ((t.cells[r]?).bind (·[c]?)).map (·.textContent)

structure PingMatrixRenderer (V : Type) where
  colorMap : Option (V → String) := none

namespace PingMatrixRenderer

variable (renderer : PingMatrixRenderer V) (fl : Float64 V)

def defaultColorFn (val : V) : String :=
  if fl.le (fl.ofInt 0) val && fl.lt val (fl.ofInt 100) then "#4caf50"
  else if fl.le (fl.ofInt 100) val && fl.lt val (fl.ofInt 250) then "#ff9800"
  else if fl.le (fl.ofInt 250) val then "#f44336"
  else "#9e9e9e"

def getColorFn : V → String := renderer.colorMap.getD (defaultColorFn fl)

/-- The cell of a value. -/
def valueCell : Option V → StyledCell
  | some val =>
    { style := "color: " ++ renderer.getColorFn fl val ++ ";", textContent := fl.sprintf1 val }
  | none => { textContent := "-" }

def render (mat : PingMatrix V) : StyledTable :=
  let headerRow : List StyledCell :=
    { textContent := "" } :: mat.sortedColNames.map fun colName => { textContent := colName }
  let dataRow (rowName : String) : List StyledCell :=
    { textContent := rowName } :: mat.sortedColNames.map fun colName =>
      renderer.valueCell fl (mat.getValue colName rowName)
  { cells := headerRow :: mat.sortedRowNames.map dataRow }

end PingMatrixRenderer

/-! ## The handler -/

structure PingRequestDescriptor where
  sources : List String
  destinations : List String
  preferV4 : Bool
  preferV6 : Bool
  traceroute : Bool
  count : Int
  resolver : String
  icmp : Bool
  udp : Bool
  tcp : Bool

/-- The order in which a map is ranged over. -/
structure MapOrder where
  order : List String → List String
  perm : ∀ s, (order s).Perm s

structure PingCMD where
  froms : List String
  destinations : List String
  preferV4 : Bool
  preferV6 : Bool
  orientation : PingMatrixOrientation
  customResolver : String
  icmp : Bool
  udp : Bool
  tcp : Bool

inductive PingResponse where
  | error (message : String) (status : Nat)
  /-- Nothing: the client did not wait. -/
  | gone
  | table (t : StyledTable)

/-- The value that is written for an event. -/
def PingEvent.sample (fl : Float64 V) (ev : PingEvent F) : V :=
  match ev.rttNs with
  | some ns => fl.div (fl.ofInt ns) (fl.ofInt 1000000)
  | none => fl.ofInt ev.rttMs

/-- One sample for each event. -/
def PingMatrix.writeEvents (fl : Float64 V) (mat : PingMatrix V) (evs : List (PingEvent F)) :
    PingMatrix V :=
  evs.foldl (fun mat ev => mat.writeSample ev.fromNode ev.toTarget (ev.sample fl)) mat

namespace PingCMD

variable (cmd : PingCMD) (mo : MapOrder) (fl : Float64 V)

/-- The sources, from the ids of all locations. -/
def sortedFrom (allLocs : List String) : List String :=
  let sortedFrom := sortStrings (if 0 < cmd.froms.length then cmd.froms else allLocs)
  -- `Dedup` collects the keys of a map
  if checkSortedStringsDup sortedFrom then mo.order sortedFrom.dedup else sortedFrom

/-- What is asked for.  The preference of IPv4 is written for both families. -/
def request (allLocs : List String) : PingRequestDescriptor where
  sources := cmd.sortedFrom mo allLocs
  destinations := sortStrings cmd.destinations
  preferV4 := cmd.preferV4
  preferV6 := cmd.preferV4
  traceroute := false
  count := 1
  resolver := cmd.customResolver
  icmp := cmd.icmp
  udp := cmd.udp
  tcp := cmd.tcp

/-- `Run`.  The context is done after so many events as `done` says. -/
def run (allLocs : Except String (List String))
    (getEvents : PingRequestDescriptor → List (PingEvent F)) (done : Option Nat) : PingResponse :=
  match allLocs with
  | .error _ => .error "Can't list all locations" 500
  | .ok allLocs =>
    if allLocs.length = 0 then .error "No locations available" 400
    else
      let request := cmd.request mo allLocs
      if checkSortedStringsDup request.destinations then .error "Duplicated Destinations" 400
      else
        match request.sources.find? (fun source => source ∉ allLocs) with
        | some source => .error ("From location not found: " ++ source) 400
        | none =>
          let evs := getEvents request
          match newPingMatrix request.sources request.destinations cmd.orientation with
          | .error err => .error ("Failed to initialize ping matrix: " ++ err) 400
          | .ok mat =>
            if done.any (· ≤ evs.length) then .gone
            else .table (PingMatrixRenderer.render {} fl (mat.writeEvents fl evs))

end PingCMD

/-! ## What the table shows -/

/-- The event is a reply, and not an error or a timeout. -/
def PingEvent.IsReply (ev : PingEvent F) : Prop := ev.err = "" ∧ ev.timeout = false

instance (ev : PingEvent F) : Decidable ev.IsReply := inferInstanceAs (Decidable (_ ∧ _))

/-- The round trip time of the last reply for a pair. -/
def lastRTT (fl : Float64 V) (evs : List (PingEvent F)) (source dest : String) : Option V :=
  ((evs.filter fun ev => ev.IsReply ∧ ev.fromNode = source ∧ ev.toTarget = dest).getLast?).map
    (PingEvent.sample fl)

/-- The text for a round trip time, if there is one. -/
def rttText (fl : Float64 V) (rtt : Option V) : String := (rtt.map fl.sprintf1).getD "-"

/-- The pair of source and destination that a row and a column are for. -/
def pairOf (orientation : PingMatrixOrientation) (rowName colName : String) : String × String :=
  match orientation with
  | .srcTgt => (rowName, colName)
  | _ => (colName, rowName)

/-- The table has a cell for each pair, and each cell shows the last round trip time of the pair
that its row and its column are for. -/
structure Shows (fl : Float64 V) (orientation : PingMatrixOrientation)
    (sources destinations : List String) (evs : List (PingEvent F)) (t : StyledTable) : Prop where
  covers : ∀ source ∈ sources, ∀ dest ∈ destinations, ∃ r c rowName colName,
    t.text (r + 1) 0 = some rowName ∧ t.text 0 (c + 1) = some colName ∧
      pairOf orientation rowName colName = (source, dest)
  cell : ∀ r c rowName colName, t.text (r + 1) 0 = some rowName → t.text 0 (c + 1) = some colName →
    t.text (r + 1) (c + 1) = some (rttText fl (lastRTT fl evs
      (pairOf orientation rowName colName).1 (pairOf orientation rowName colName).2))

section Render

variable {fl : Float64 V} {renderer : PingMatrixRenderer V} {mat : PingMatrix V} {r c : Nat}

theorem text_header (c : Nat) :
    (renderer.render fl mat).text 0 (c + 1) = mat.sortedColNames[c]? := by
  simp [PingMatrixRenderer.render, StyledTable.text, Option.map_map, Function.comp_def]

theorem text_row (r : Nat) : (renderer.render fl mat).text (r + 1) 0 = mat.sortedRowNames[r]? := by
  rw [StyledTable.text, PingMatrixRenderer.render, List.getElem?_cons_succ, List.getElem?_map]
  cases mat.sortedRowNames[r]? with
  | none => rfl
  | some rowName => rfl

theorem text_cell {rowName colName : String} (hr : mat.sortedRowNames[r]? = some rowName)
    (hc : mat.sortedColNames[c]? = some colName) :
    (renderer.render fl mat).text (r + 1) (c + 1) =
      some (rttText fl (mat.getValue colName rowName)) := by
  rw [StyledTable.text, PingMatrixRenderer.render, List.getElem?_cons_succ, List.getElem?_map, hr,
    Option.map_some, Option.bind_some, List.getElem?_cons_succ, List.getElem?_map, hc]
  cases hv : mat.getValue colName rowName with
  | none => simp [PingMatrixRenderer.valueCell, rttText, hv]
  | some val => simp [PingMatrixRenderer.valueCell, rttText, hv]

end Render

/-! ## Events that are replies -/

section Replies

variable {fl : Float64 V} {mat : PingMatrix V} {orientation : PingMatrixOrientation}
  {locs dests sources destinations : List String} {evs : List (PingEvent F)} {ev : PingEvent F}

theorem lastRTT_concat (evs : List (PingEvent F)) (hev : ev.IsReply) (source dest : String) :
    lastRTT fl (evs ++ [ev]) source dest =
      if source = ev.fromNode ∧ dest = ev.toTarget then some (ev.sample fl)
      else lastRTT fl evs source dest := by
  rw [lastRTT, List.filter_append]
  split_ifs with h
  · obtain ⟨rfl, rfl⟩ := h
    rw [List.filter_cons_of_pos (by simp [hev]), List.filter_nil, List.getLast?_concat]
    rfl
  · have hnot : ¬(ev.IsReply ∧ ev.fromNode = source ∧ ev.toTarget = dest) :=
      fun hall => h ⟨hall.2.1.symm, hall.2.2.symm⟩
    rw [List.filter_cons_of_neg (by simpa using hnot), List.filter_nil, List.append_nil]
    rfl

/-- The event of an entry is a reply if the entry has one. -/
theorem isReply_botEvent (itEnt : WrappedEV F) (metadata : Store String String) :
    (botEvent (some itEnt) metadata).IsReply ↔ itEnt.receivedAt ≠ [] := by
  obtain ⟨herr, _, _, _, htimeout, _⟩ := botEvent_frame itEnt metadata
  rw [PingEvent.IsReply, herr, htimeout, and_iff_right rfl, ← Bool.not_eq_true,
    List.isEmpty_iff]

/-- The event is a reply for one of the pairs. -/
structure Answers (sources dests : List String) (ev : PingEvent F) : Prop where
  reply : ev.IsReply
  source : ev.fromNode ∈ sources
  dest : ev.toTarget ∈ dests

/-- The matrix has the last round trip time of each pair. -/
def Agrees (fl : Float64 V) (locs dests : List String) (mat : PingMatrix V)
    (evs : List (PingEvent F)) : Prop :=
  ∀ source ∈ locs, ∀ dest ∈ dests, mat.valueOf source dest = lastRTT fl evs source dest

theorem Agrees.concat (hm : mat.Holds orientation locs dests) (h : Agrees fl locs dests mat evs)
    (hev : Answers locs dests ev) :
    Agrees fl locs dests (mat.writeSample ev.fromNode ev.toTarget (ev.sample fl))
      (evs ++ [ev]) := by
  intro source hs dest hd
  rw [PingMatrix.valueOf_writeSample hm, lastRTT_concat evs hev.reply]
  refine if_congr ⟨fun heq => PingMatrix.getIdx_inj hm hs hd hev.source hev.dest heq, ?_⟩ rfl
    (h source hs dest hd)
  rintro ⟨rfl, rfl⟩
  rfl

theorem writeEvents_eq (fl : Float64 V) (mat : PingMatrix V) (evs : List (PingEvent F)) :
    mat.writeEvents fl evs =
      mat.writeSamples (evs.map fun ev => (ev.fromNode, ev.toTarget, ev.sample fl)) := by
  rw [PingMatrix.writeEvents, PingMatrix.writeSamples, List.foldl_map]

/-- After every stream of replies the matrix has the last round trip times. -/
theorem agrees_writeEvents (hm : mat.Holds orientation locs dests)
    (h : Agrees fl locs dests mat ([] : List (PingEvent F)))
    (hevs : ∀ ev ∈ evs, Answers locs dests ev) :
    Agrees fl locs dests (mat.writeEvents fl evs) evs := by
  induction evs using List.reverseRecOn with
  | nil => exact h
  | append_singleton evs ev ih =>
    have hm' : (mat.writeEvents fl evs).Holds orientation locs dests := by
      rw [writeEvents_eq]
      exact holds_writeSamples hm _
    rw [PingMatrix.writeEvents, List.foldl_append]
    exact Agrees.concat hm' (ih fun e he => hevs e (List.mem_append_left _ he))
      (hevs ev (List.mem_append_right _ (List.mem_singleton.2 rfl)))

/-- `GetValue` by row and column. -/
theorem getValue_eq (hm : mat.Holds orientation locs dests) (rowName colName : String) :
    mat.getValue colName rowName = mat.valueOf (pairOf orientation rowName colName).1
      (pairOf orientation rowName colName).2 := by
  rw [PingMatrix.valueOf, hm.oriented]
  cases orientation <;> rfl

/-- A row and a column are for one of the pairs, and every pair has a row and a column. -/
theorem pairOf_mem (hm : mat.Holds orientation locs dests) {rowName colName : String}
    (hr : rowName ∈ mat.sortedRowNames) (hc : colName ∈ mat.sortedColNames) :
    (pairOf orientation rowName colName).1 ∈ locs ∧
      (pairOf orientation rowName colName).2 ∈ dests := by
  rcases hm.names with ⟨rfl, hcols, hrows⟩ | ⟨rfl, hcols, hrows⟩
  · exact ⟨hcols ▸ hc, hrows ▸ hr⟩
  · exact ⟨hrows ▸ hr, hcols ▸ hc⟩

theorem exists_pairOf (hm : mat.Holds orientation locs dests) {source dest : String}
    (hs : source ∈ locs) (hd : dest ∈ dests) : ∃ rowName ∈ mat.sortedRowNames,
      ∃ colName ∈ mat.sortedColNames, pairOf orientation rowName colName = (source, dest) := by
  rcases hm.names with ⟨rfl, hcols, hrows⟩ | ⟨rfl, hcols, hrows⟩
  · exact ⟨dest, hrows ▸ hd, source, hcols ▸ hs, rfl⟩
  · exact ⟨source, hrows ▸ hs, dest, hcols ▸ hd, rfl⟩

/-- What is rendered of a matrix that has the last round trip times. -/
theorem shows_render {renderer : PingMatrixRenderer V}
    (hm : mat.Holds orientation (sortStrings sources) (sortStrings destinations))
    (h : Agrees fl (sortStrings sources) (sortStrings destinations) mat evs) :
    Shows fl orientation sources destinations evs (renderer.render fl mat) where
  covers := by
    intro source hs dest hd
    obtain ⟨rowName, hrow, colName, hcol, hpair⟩ :=
      exists_pairOf hm (mem_sortStrings.2 hs) (mem_sortStrings.2 hd)
    obtain ⟨r, hr⟩ := List.mem_iff_getElem?.1 hrow
    obtain ⟨c, hc⟩ := List.mem_iff_getElem?.1 hcol
    exact ⟨r, c, rowName, colName, (text_row r).trans hr, (text_header c).trans hc, hpair⟩
  cell := by
    intro r c rowName colName hr hc
    rw [text_row] at hr
    rw [text_header] at hc
    obtain ⟨hs, hd⟩ := pairOf_mem hm (List.mem_of_getElem? hr) (List.mem_of_getElem? hc)
    rw [text_cell hr hc, getValue_eq hm, h _ hs _ hd]

end Replies

/-! ## The report -/

section Report

variable {mo : MapOrder} {fl : Float64 V} {allLocs : List String} {done : Option Nat}
  {t : StyledTable}

/-- The matrix behind a table. -/
theorem run_eq_table {cmd : PingCMD} {getEvents : PingRequestDescriptor → List (PingEvent F)}
    (h : cmd.run mo fl (.ok allLocs) getEvents done = .table t) :
    ∃ mat, newPingMatrix (cmd.request mo allLocs).sources (cmd.request mo allLocs).destinations
        cmd.orientation = .ok mat ∧
      t = PingMatrixRenderer.render {} fl
        (mat.writeEvents fl (getEvents (cmd.request mo allLocs))) := by
  simp only [PingCMD.run] at h
  split at h
  next => cases h
  next =>
    split at h
    next => cases h
    next =>
      split at h
      next => cases h
      next =>
        split at h
        next => cases h
        next mat hmat =>
          split at h
          next => cases h
          next =>
            cases h
            exact ⟨mat, hmat, rfl⟩

/-- The table shows the last round trip time of each pair, and nothing else, if every event is a
reply for one of the pairs. -/
theorem run_shows {cmd : PingCMD} {getEvents : PingRequestDescriptor → List (PingEvent F)}
    (h : cmd.run mo fl (.ok allLocs) getEvents done = .table t)
    (hevs : ∀ ev ∈ getEvents (cmd.request mo allLocs),
      Answers (cmd.request mo allLocs).sources (cmd.request mo allLocs).destinations ev) :
    Shows fl cmd.orientation (cmd.request mo allLocs).sources (cmd.request mo allLocs).destinations
      (getEvents (cmd.request mo allLocs)) t := by
  obtain ⟨mat, hmat, rfl⟩ := run_eq_table h
  have hm := holds_newPingMatrix hmat
  have hm' := holds_writeSamples hm ((getEvents (cmd.request mo allLocs)).map fun ev =>
    (ev.fromNode, ev.toTarget, ev.sample fl))
  rw [← writeEvents_eq] at hm'
  refine shows_render hm' (agrees_writeEvents hm ?_ ?_)
  · intro source _ dest _
    exact valueOf_newPingMatrix hmat source dest
  · intro ev hev
    obtain ⟨hreply, hs, hd⟩ := hevs ev hev
    exact ⟨hreply, mem_sortStrings.2 hs, mem_sortStrings.2 hd⟩

/-- Whole milliseconds and their tenths, in nanoseconds. -/
def exactMillis : Float64 Int where
  ofInt n := n * 1000000
  div a b := a / (b / 1000000)
  le a b := decide (a ≤ b)
  lt a b := decide (a < b)
  sprintf1 v := toString (v / 1000000) ++ "." ++ toString (v % 1000000 / 100000)

def sampleCMD : PingCMD where
  froms := []
  destinations := ["192.0.2.1"]
  preferV4 := false
  preferV6 := false
  orientation := .srcTgt
  customResolver := ""
  icmp := true
  udp := false
  tcp := false

/-- The entry of a packet, with the times of its replies. -/
def sampleEntry (rtts : List Int) : WrappedEV Nat where
  seq := 1
  ttl := 64
  originDstAddr := none
  rttNanoSecs := rtts
  rttMilliSecs := rtts.map (· / 1000000)
  sentAt := 0
  receivedAt := rtts
  timer := false
  raw := []

/-- The report on one event from the only location. -/
def sampleRun (ev : PingEvent Nat) : PingResponse :=
  sampleCMD.run ⟨id, fun s => .refl s⟩ exactMillis (.ok ["us-lax1"]) (fun _ => [ev]) none

def sampleTable (ev : PingEvent Nat) : StyledTable :=
  PingMatrixRenderer.render {} exactMillis ((PingMatrix.make .srcTgt ["us-lax1"] ["192.0.2.1"]
    ["192.0.2.1"] ["us-lax1"]).writeEvents exactMillis [ev])

theorem request_sampleCMD (mo : MapOrder) : (sampleCMD.request mo ["us-lax1"]).sources =
    ["us-lax1"] ∧ (sampleCMD.request mo ["us-lax1"]).destinations = ["192.0.2.1"] := by
  simp [PingCMD.request, PingCMD.sortedFrom, sampleCMD, sortStrings, checkSortedStringsDup]

theorem sampleRun_eq (ev : PingEvent Nat) : sampleRun ev = .table (sampleTable ev) := by
  simp [sampleRun, sampleTable, PingCMD.run, PingCMD.request, PingCMD.sortedFrom, sampleCMD,
    sortStrings, checkSortedStringsDup, newPingMatrix]

theorem run_shows_reply : ∃ t,
    sampleRun (botEvent (some (sampleEntry [10500000])) sampleMetadata) = .table t ∧
      Shows exactMillis .srcTgt ["us-lax1"] ["192.0.2.1"]
        [botEvent (some (sampleEntry [10500000])) sampleMetadata] t := by
  refine ⟨_, sampleRun_eq _, ?_⟩
  have h := run_shows (sampleRun_eq (botEvent (some (sampleEntry [10500000])) sampleMetadata)) ?_
  · rwa [(request_sampleCMD _).1, (request_sampleCMD _).2] at h
  · intro ev hev
    cases List.mem_singleton.1 hev
    rw [(request_sampleCMD _).1, (request_sampleCMD _).2]
    exact ⟨(isReply_botEvent _ _).2 (by decide), by decide, by decide⟩

/-- A time is shown where there was no reply. -/
theorem not_shows_sampleTable {ev : PingEvent Nat} (hev : ¬ev.IsReply)
    (htext : (sampleTable ev).text 1 1 = some "0.0") :
    ¬Shows exactMillis .srcTgt ["us-lax1"] ["192.0.2.1"] [ev] (sampleTable ev) := by
  intro hs
  have hcell := hs.cell 0 0 "us-lax1" "192.0.2.1" (text_row 0) (text_header 0)
  have hnone : ∀ source dest, lastRTT exactMillis [ev] source dest = none := by
    intro source dest
    rw [lastRTT, List.filter_cons_of_neg (by simp [hev])]
    rfl
  rw [hnone, htext, Option.some_inj] at hcell
  exact absurd hcell (by decide)

/-- A timeout is shown as a time, and so is an error that names no pair. -/
theorem timeout_shown :
    (∃ t, sampleRun (botEvent (some (sampleEntry [])) sampleMetadata) = .table t ∧
      t.text 1 1 = some "0.0" ∧ ¬Shows exactMillis .srcTgt ["us-lax1"] ["192.0.2.1"]
        [botEvent (some (sampleEntry [])) sampleMetadata] t) ∧
    ∃ t, sampleRun (sentEvent (.error "ping event data is nil")) = .table t ∧
      t.text 1 1 = some "0.0" ∧ ¬Shows exactMillis .srcTgt ["us-lax1"] ["192.0.2.1"]
        [(sentEvent (.error "ping event data is nil") : PingEvent Nat)] t := by
  have htimeout : (sampleTable (botEvent (some (sampleEntry [])) sampleMetadata)).text 1 1 =
    some "0.0" := by decide +kernel
  have herror : (sampleTable (sentEvent (.error "ping event data is nil"))).text 1 1 =
    some "0.0" := by decide +kernel
  have hnot : ¬(botEvent (some (sampleEntry [])) sampleMetadata).IsReply := by
    rw [isReply_botEvent]
    exact not_not_intro rfl
  exact ⟨⟨_, sampleRun_eq _, htimeout, not_shows_sampleTable hnot htimeout⟩,
    _, sampleRun_eq _, herror, not_shows_sampleTable (by decide) herror⟩

end Report

end CloudPing.Tui

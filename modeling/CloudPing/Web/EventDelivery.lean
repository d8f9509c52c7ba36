import CloudPing.Handler.EventLines
import CloudPing.Handler.MergeRun
import CloudPing.Web.JSONLines

/-!
# From the agents to the browser

An agent writes its events in lines.  The hub reads them, merges the events of all agents, writes
the names of the agent and the target into their metadata, and writes them in lines again.  The
browser decodes the text in pieces, cuts it into lines and parses each.

Whatever the schedule in the hub and wherever the text is cut on the way, the browser sees the
events of each agent in their order, and all of them once the hub has come to the end
(`events_reach_browser`): with their data, with the error of the agent, and with the metadata of
the hub.
-/

namespace CloudPing.Web

open Conc Ecma Handler Json
open Handler (PingEvent)

/-- What the browser shows of an event of an agent. -/
structure Shows {D : Type} (any : AnyJSON D) (metadata : Store String String) (ev : PingEvent D)
    (v : Value) : Prop where
  data : prop "data" v = ev.data.map fun d => any.toValue (any.carried d)
  err : prop "err" v = (ev.error.or ev.err).map .str
  metadata : ∀ k, (prop "metadata" v).bind (prop k) = (metadata.lookup k).map .str

/-! ## Members of an event -/

section Members

variable {D : Type} {any : AnyJSON D}

theorem prop_data (any : AnyJSON D) (ev : PingEvent D) :
    prop "data" (.obj (ev.members any)) = ev.data.map any.toValue := by
  rw [PingEvent.members]
  cases ev.data <;> cases ofStringMap ev.metadata <;> cases ev.err <;> simp +decide [prop, member]

theorem prop_metadata (any : AnyJSON D) (ev : PingEvent D) :
    prop "metadata" (.obj (ev.members any)) = ofStringMap ev.metadata := by
  rw [PingEvent.members]
  cases ev.data <;> cases ofStringMap ev.metadata <;> cases ev.err <;> simp +decide [prop, member]

theorem prop_err (any : AnyJSON D) (ev : PingEvent D) :
    prop "err" (.obj (ev.members any)) = ev.err.map .str := by
  rw [PingEvent.members]
  cases ev.data <;> cases ofStringMap ev.metadata <;> cases ev.err <;> simp +decide [prop, member]

/-- The properties of a map are its entries. -/
theorem prop_ofStringMap (m : Option (Store String String)) (k : String) :
    (ofStringMap m).bind (prop k) = ((m.getD ∅).lookup k).map .str := by
  have hperm : (sortedEntries (m.getD ∅)).Perm
      ((m.getD ∅).entries.map fun e => (e.1, e.2)) := List.mergeSort_perm _ _
  have hkeys : ((sortedEntries (m.getD ∅)).map fun e => (e.1, Value.str e.2)).map Prod.fst =
      (sortedEntries (m.getD ∅)).map Prod.fst := by
    rw [List.map_map]
    rfl
  have hfst : ((m.getD ∅).entries.map fun e => (e.1, e.2)).map Prod.fst = (m.getD ∅).keys := by
    rw [List.map_map]
    rfl
  have hnodup : ((sortedEntries (m.getD ∅)).map Prod.fst).Nodup := by
    rw [(hperm.map Prod.fst).nodup_iff, hfst]
    exact (m.getD ∅).keys_nodup
  have hprop : prop k (.obj ((sortedEntries (m.getD ∅)).map fun e => (e.1, .str e.2))) =
      ((m.getD ∅).lookup k).map .str := by
    cases hl : (m.getD ∅).lookup k with
    | none =>
      refine prop_of_notMem fun hmem => ?_
      rw [hkeys, (hperm.map Prod.fst).mem_iff, hfst] at hmem
      exact AList.lookup_eq_none.1 hl hmem
    | some v =>
      refine prop_of_mem (hkeys ▸ hnodup) (List.mem_map.2 ⟨(k, v), hperm.mem_iff.2 ?_, rfl⟩)
      have hmem : (⟨k, v⟩ : Sigma fun _ : String => String) ∈ (m.getD ∅).entries :=
        AList.mem_lookup_iff.1 hl
      exact List.mem_map_of_mem hmem
  rw [ofStringMap]
  split_ifs with hnil
  · rw [hnil] at hprop
    rw [← hprop]
    rfl
  · exact hprop

end Members

/-! ## All agents -/

section Agents

variable {D : Type} {n : Nat} {any : AnyJSON D} {errText : List UInt8 → String}

/-- The pinger of the hub for an agent. -/
def remotePinger (any : AnyJSON D) (errText : List UInt8 → String) (net : HTTPClient)
    (sp : SimpleRemotePinger) (metadata : Store String String) : WithMetadataPinger D :=
  { events := sp.ping net (unmarshalEvent any errText), cap := 0, metadata := some metadata }

/-- What the hub writes of an event shows the event of the agent. -/
theorem shows_of_labels {metadata : Store String String} {ev ev' : PingEvent D}
    (h : Labels (some metadata) ((PingHandler.outgoing ev).carried any) ev') :
    Shows any metadata ev (.obj ((PingTaskHandler.outgoing ev').members any)) := by
  have herror : ev'.error = none := h.error
  have hsame : PingTaskHandler.outgoing ev' = ev' := by
    rw [PingTaskHandler.outgoing, herror]
  have hdata : (PingHandler.outgoing ev).data = ev.data := by
    rw [PingHandler.outgoing]
    split <;> rfl
  have herr : (PingHandler.outgoing ev).err = ev.error.or ev.err := by
    rw [PingHandler.outgoing]
    cases ev.error <;> rfl
  rw [hsame]
  refine ⟨?_, ?_, fun k => ?_⟩
  · rw [prop_data, h.data, PingEvent.carried, hdata, Option.map_map]
    rfl
  · rw [prop_err, h.err, PingEvent.carried, herr]
  · have hlookup := h.metadata k
    rw [PingEvent.carried, Option.getD_some, Option.getD_none, AList.lookup_empty,
      Option.or_none] at hlookup
    rw [prop_metadata, prop_ofStringMap, hlookup]

/-- Whatever the schedule in the hub and wherever the text is cut on its way, the browser sees of
each agent a beginning of its events, in order, and all of them once the hub has come to the
end. -/
theorem events_reach_browser (net : HTTPClient) (sp : Fin n → SimpleRemotePinger)
    (metadata : Fin n → Store String String) (bodies : Fin n → Wire.Source)
    (evs : Fin n → List (PingEvent D)) {s : MergeState D n} {chunks : List CodeUnits}
    (hresponse : ∀ i, (sp i).response net = .ok (bodies i))
    (htext : ∀ i, (bodies i).text = PingHandler.streamEvents any (evs i))
    (heof : ∀ i, (bodies i).reading.stop = .eof)
    (hmeta : ∀ i, ∀ ev ∈ evs i, ev.metadata = none)
    (hs : (startMultiplePings fun i =>
      remotePinger any errText net (sp i) (metadata i)).Reachable .any s)
    (hchunks : chunks.flatten = codeUnits (Utf8.decode
      (PingTaskHandler.streamEvents any (s.out.map Prod.snd)))) :
    ∃ got : List (Fin n × Value), got.map Prod.snd = browserValues chunks ∧
      ∀ i, ∃ m, List.Forall₂ (Shows any (metadata i)) ((evs i).take m)
          ((got.filter fun x => x.1 = i).map Prod.snd) ∧
        (s.closed = true → m = (evs i).length) := by
  have hfaithful := (MergeState.merging_of_reachable hs).faithful
  have hevents : ∀ i, (sp i).ping net (unmarshalEvent any errText) =
      (evs i).map fun ev => (PingHandler.outgoing ev).carried any := fun i =>
    ping_streamEvents (hresponse i) (htext i) (heof i) (hmeta i)
  let value := fun ev : PingEvent D => Value.obj ((PingTaskHandler.outgoing ev).members any)
  refine ⟨s.out.map fun x => (x.1, value x.2), ?_, fun i => ⟨(s.delivered i).length, ?_, ?_⟩⟩
  · have hlines : PingTaskHandler.streamEvents any (s.out.map Prod.snd) =
        ((s.out.map Prod.snd).map value).flatMap Value.line := by
      rw [PingTaskHandler.streamEvents, List.flatMap_map value]
      rfl
    rw [hlines] at hchunks
    rw [browserValues_lines ?_ hchunks, List.map_map, List.map_map]
    · rfl
    · intro v hv
      obtain ⟨ev, -, rfl⟩ := List.mem_map.1 hv
      exact (fits_members any _).valid
  · have horder := hfaithful.order i
    rw [remotePinger, hevents, ← List.map_take, List.forall₂_map_left_iff] at horder
    rw [List.filter_map, List.map_map]
    have hlane : (s.out.filter ((fun x : Fin n × Value => decide (x.1 = i)) ∘
        fun x => (x.1, value x.2))).map (Prod.snd ∘ fun x => (x.1, value x.2)) =
          (s.delivered i).map value := by
      rw [MergeState.delivered, List.map_map]
      rfl
    rw [hlane, List.forall₂_map_right_iff]
    exact horder.imp fun ev ev' h => shows_of_labels h
  · intro hclosed
    have hlength := hfaithful.complete hclosed i
    rwa [remotePinger, hevents, List.length_map] at hlength

end Agents

/-! ## One agent with two events -/

def stringJSON : AnyJSON String where
  toValue := .str
  ofValue
    | .str s => s
    | _ => ""
  fits := fits_str
  notNull _ := nofun

def sampleEvents : List (PingEvent String) := [{ data := some "reply" }, { error := some "lost" }]

def sampleBody : Wire.Source := { last := PingHandler.streamEvents stringJSON sampleEvents }

def sampleNet : HTTPClient where
  withQuery url _ := .ok url
  newRequest _ := .ok ()
  doRequest _ _ _ := .ok (200, sampleBody)

def samplePinger : SimpleRemotePinger where
  nodeName := "hk-1"
  endpoint := "https://agent/simpleping"
  request := { intvMilliseconds := 1000, pktTimeoutMilliseconds := 3000 }
  extraRequestHeader := []
  quicClient := none
  agent := { connectedAt := 0 }

def sampleMetadata : Store String String := AList.insert "from" "hk-1" ∅

theorem sample_eof : sampleBody.reading.stop = .eof := by decide +kernel

theorem events_reach_browser_sample : ∃ s, (startMultiplePings fun _ : Fin 1 =>
      remotePinger stringJSON byteText sampleNet samplePinger sampleMetadata).Reachable .any s ∧
    s.closed = true ∧ s.out.length = 2 ∧
    ∃ got : List (Fin 1 × Value), got.map Prod.snd = browserValues [codeUnits (Utf8.decode
        (PingTaskHandler.streamEvents stringJSON (s.out.map Prod.snd)))] ∧
      ∀ i, ∃ m, List.Forall₂ (Shows stringJSON sampleMetadata) (sampleEvents.take m)
          ((got.filter fun x => x.1 = i).map Prod.snd) ∧
        (s.closed = true → m = sampleEvents.length) := by
  have hmeta : ∀ ev ∈ sampleEvents, ev.metadata = none := by decide
  have hevents : remotePinger stringJSON byteText sampleNet samplePinger sampleMetadata =
      ⟨sampleEvents.map fun ev => (PingHandler.outgoing ev).carried stringJSON, 0,
        some sampleMetadata⟩ := by
    rw [remotePinger, ping_streamEvents rfl rfl sample_eof hmeta]
  obtain ⟨s, hs, hend⟩ := System.exists_of_replay
    (startMultiplePings fun _ : Fin 1 => ⟨sampleEvents.map fun ev =>
      (PingHandler.outgoing ev).carried stringJSON, 0, some sampleMetadata⟩) .any
    (fun s => s.closed = true ∧ s.out.length = 2)
    [.startLane, .lane 0 .begin, .lane 0 .call, .lane 0 .meet, .lane 0 .pass, .deliver 0,
      .lane 0 .meet, .lane 0 .pass, .deliver 0, .lane 0 .closeOrigin, .lane 0 .drained,
      .lane 0 .closeWrapped, .lane 0 .wrappedClosed, .wgDone 0, .wait, .closeEvents]
    (by decide +kernel)
  obtain ⟨hclosed, hout⟩ := of_decide_eq_true hend
  rw [← hevents] at hs
  exact ⟨s, hs, hclosed, hout, events_reach_browser sampleNet (fun _ => samplePinger)
    (fun _ => sampleMetadata) (fun _ => sampleBody) (fun _ => sampleEvents) (fun _ => rfl)
    (fun _ => rfl) (fun _ => sample_eof) (fun _ => hmeta) hs (List.flatten_singleton)⟩

end CloudPing.Web

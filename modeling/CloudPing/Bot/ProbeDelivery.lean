import CloudPing.Bot.EventsSource
import CloudPing.Handler.AnyEvents
import CloudPing.Pinger.RequestTTL
import CloudPing.Pinger.ScanCoverage
import CloudPing.Utils.IPNetText
import CloudPing.Utils.OffsetInverse
import CloudPing.Web.EventDelivery

/-!
# From the scan to the picture

For `/probe` the bot asks the hub to ping a range, the hub asks the agent, and the agent scans it.
Each result becomes an event, whose data is an `IPProbeEvent` in the agent and a map of untyped
values in the hub and the bot, which writes the map and reads an `IPProbeEvent` again.

A scan that ends on its own, whose events are read to the end by the hub and the bot, is shown as
it was (`scan_reaches_picture`): the range in the request is the one that is scanned, every address
of it has the color of its result, and the caption counts the addresses that answered.
-/

namespace CloudPing.Bot

open CloudPing.Bitmap CloudPing.Handler CloudPing.Pinger CloudPing.Utils Conc Json Wire

variable {float : FloatText} {errText : List UInt8 → String}

/-! ## Probe events -/

theorem fits_probeResult (rtt : Int) (peer : String) :
    (Value.obj [("RTT", .int rtt), ("Peer", .str peer)]).Fits 2 :=
  fits_obj (by simp)

/-- The data of a result of a scan. -/
def probeData (ev : Pinger.IPProbeEvent) : AnyData :=
  ⟨.obj [("RTT", .int ev.rtt), ("Peer", .str (ev.peer.elim "" ipAddrString))],
    (fits_probeResult _ _).mono (by decide), rfl⟩

/-- The event of a result of a scan. -/
def scanEvent : Except String Pinger.IPProbeEvent → PingEvent AnyData
  | .ok ev => { data := some (probeData ev) }
  | .error err => { error := some err }

/-- A value in a new variable. -/
def IPProbeEvent.ofValue : Value → Option IPProbeEvent
  | .null => some ⟨0, ""⟩
  | .obj ms => do
    let rtt ← intoField intoInt64 "RTT" 0 ms
    let peer ← intoField intoString "Peer" "" ms
    some ⟨rtt.toInt, peer⟩
  | _ => none

/-- `encoding/json` in the bot. -/
def probeCodec (float : FloatText) (errText : List UInt8 → String) : EventCodec AnyData where
  unmarshalPingEvent := unmarshalEvent (anyJSON float) errText
  marshalData d := .ok (Utf8.encode d.val.text)
  unmarshalProbeEvent bytes :=
    match (parse maxNestingDepth (Utf8.decode bytes)).bind IPProbeEvent.ofValue with
    | some ev => .ok ev
    | none => .error (errText bytes)

/-- A number of milliseconds of a duration, which has 64 bits of nanoseconds, is a float64. -/
def IsFloat (rtt : Int) : Prop := rtt.natAbs ≤ 2 ^ 53

instance (rtt : Int) : Decidable (IsFloat rtt) := inferInstanceAs (Decidable (_ ≤ _))

/-- What the hub and the bot have of a result. -/
theorem untyped_probeData (ev : Pinger.IPProbeEvent) (h : IsFloat ev.rtt) :
    (probeData ev).val.untyped float =
      .obj [("Peer", .str (ev.peer.elim "" ipAddrString)), ("RTT", .int ev.rtt)] := by
  have hlt : "Peer" < "RTT" := String.lt_iff_toList_lt.2 (by decide)
  have hint : (Value.int ev.rtt).untyped float = .int ev.rtt := by
    rw [Value.int, Value.untyped, float.int h]
  rw [probeData, Value.untyped, untypedMembers, untypedMembers, untypedMembers, insertKey, insertKey,
    if_pos hlt, hint, Value.untyped]

theorem untyped_untyped_probeData (ev : Pinger.IPProbeEvent) (h : IsFloat ev.rtt) :
    ((probeData ev).val.untyped float).untyped float = (probeData ev).val.untyped float := by
  have hlt : ¬ "RTT" < "Peer" := (String.lt_iff_toList_lt.2 (by decide) : "Peer" < "RTT").asymm
  have hne : "RTT" ≠ "Peer" := by decide
  have hint : (Value.int ev.rtt).untyped float = .int ev.rtt := by
    rw [Value.int, Value.untyped, float.int h]
  rw [untyped_probeData ev h, Value.untyped, untypedMembers, untypedMembers, untypedMembers,
    insertKey, insertKey, if_neg hlt, if_neg hne, insertKey, hint, Value.untyped]

/-- The bot reads the round trip time and the text of the address. -/
theorem ofValue_untyped_probeData (ev : Pinger.IPProbeEvent) (h : IsFloat ev.rtt) :
    IPProbeEvent.ofValue ((probeData ev).val.untyped float) =
      some ⟨ev.rtt, ev.peer.elim "" ipAddrString⟩ := by
  have hrtt : (Int64.ofInt ev.rtt).toInt = ev.rtt := by
    rw [IsFloat] at h
    exact Int64.toInt_ofInt_of_le (by omega) (by omega)
  have hread := intoInt64_int 0 (Int64.ofInt ev.rtt)
  rw [hrtt] at hread
  rw [untyped_probeData ev h]
  have hR : intoField intoInt64 "RTT" 0
      [("Peer", .str (ev.peer.elim "" ipAddrString)), ("RTT", .int ev.rtt)] =
        some (Int64.ofInt ev.rtt) :=
    (intoField_of_single (by simp +decide)).trans hread
  have hP : intoField intoString "Peer" ""
      [("Peer", .str (ev.peer.elim "" ipAddrString)), ("RTT", .int ev.rtt)] =
        some (ev.peer.elim "" ipAddrString) :=
    intoField_string _ _ _ (by simp +decide)
  simp only [IPProbeEvent.ofValue, hR, hP, Option.bind_eq_bind, Option.bind_some, hrtt]

/-! ## The lines of the hub -/

/-- A body of the hub that is read to its end: the bot goes through its lines. -/
theorem getProbeEvents_streamEvents {provider : CloudPingEventsProvider} {net : HTTPClient}
    {request : ProbeRequestDescriptor} {body : Source} {evs : List (PingEvent AnyData)}
    (h : provider.response net (provider.getProbeURL net request) = .ok body)
    (htext : body.text = PingTaskHandler.streamEvents (anyJSON float) evs)
    (heof : body.reading.stop = .eof) :
    provider.getProbeEvents net (probeCodec float errText) none request =
      evs.flatMap fun ev => CloudPingEventsProvider.probeEvents (probeCodec float errText)
        (Utf8.encode (Value.obj ((PingTaskHandler.outgoing ev).members (anyJSON float))).text) := by
  have hlines := PingTaskHandler.lines_streamEvents (anyJSON float) evs
  rw [← htext] at hlines
  have hreports : CloudPingEventsProvider.Reports (probeCodec float errText) none body.reading := by
    rw [CloudPingEventsProvider.Reports, heof]
    rintro k ⟨⟩
  have hdelivered :=
    (CloudPingEventsProvider.getProbeEvents_delivered_iff none h).2 hreports
  rw [Delivered, DeliveredLines, Source.textLines_of_eof heof, heof] at hdelivered
  simp only [seen, and_self, hlines] at hdelivered
  rw [eq_flatMap_of_relayed hdelivered trivial fun line _ => Option.some_ne_none _,
    List.flatMap_map]
  rfl

/-! ## The events of the bot -/

/-- What the bot makes of a result. -/
structure Reflects (ev : Pinger.IPProbeEvent) (probe : ProbeEvent) : Prop where
  err : probe.err = none
  rttMs : probe.rttMs = ev.rtt
  ip : ∃ peer, ev.peer = some peer ∧ normal probe.ip = normal peer.ip

/-- The one event of the line that the hub writes of a result. -/
theorem probeEvents_of_labels {metadata : Store String String} {k v : String}
    (hmeta : metadata.lookup k = some v) {ev : Pinger.IPProbeEvent} (hrtt : IsFloat ev.rtt) {a : IP}
    (ha : a.length = 4 ∨ a.length = 16) (hpeer : ev.peer = some { ip := a })
    {ev' : PingEvent AnyData}
    (h : Labels (some metadata)
      ((PingHandler.outgoing (scanEvent (.ok ev))).carried (anyJSON float)) ev') :
    ∃ probe, CloudPingEventsProvider.probeEvents (probeCodec float errText)
        (Utf8.encode (Value.obj ((PingTaskHandler.outgoing ev').members (anyJSON float))).text) =
      [probe] ∧ Reflects ev probe := by
  have herror : ev'.error = none := h.error
  have herr : ev'.err = none := h.err
  have hsame : PingTaskHandler.outgoing ev' = ev' := by
    rw [PingTaskHandler.outgoing, herror]
  have hnonempty : sortedEntries (ev'.metadata.getD ∅) ≠ [] := by
    have hlookup := h.metadata k
    rw [Option.getD_some, hmeta, Option.some_or] at hlookup
    exact sortedEntries_ne_nil hlookup
  obtain ⟨m, hread, -⟩ := @unmarshalEvent_of_metadata float errText _ hnonempty
  obtain ⟨a', hparse, hnormal⟩ := parseIP_ipString ha
  rw [hsame]
  refine ⟨{ ip := a', rttMs := ev.rtt }, ?_, rfl, rfl, _, hpeer, hnormal⟩
  have hd : ev'.data.map (anyJSON float).carried =
      some ((anyJSON float).carried ((anyJSON float).carried (probeData ev))) := by
    rw [h.data]
    rfl
  have hconvert : CloudPingEventsProvider.convertToProbeEvent (probeCodec float errText)
      { data := ev'.data.map (anyJSON float).carried, metadata := some m, err := ev'.err } =
        .ok { ip := a', rttMs := ev.rtt } := by
    have hval : ((anyJSON float).carried ((anyJSON float).carried (probeData ev))).val =
        (probeData ev).val.untyped float := by
      rw [val_carried, val_carried, untyped_untyped_probeData ev hrtt]
    have hfits : ((probeData ev).val.untyped float).Fits maxNestingDepth :=
      (fits_untyped float (probeData ev).fits).mono (by decide)
    have hbytes : (probeCodec float errText).unmarshalProbeEvent
        (Utf8.encode ((probeData ev).val.untyped float).text) =
          .ok ⟨ev.rtt, ipAddrString { ip := a }⟩ := by
      simp only [probeCodec]
      rw [Utf8.decode_encode, parse_text hfits, Option.bind_some,
        ofValue_untyped_probeData ev hrtt, hpeer]
      rfl
    have hmarshal : ∀ d, (probeCodec float errText).marshalData d = .ok (Utf8.encode d.val.text) :=
      fun _ => rfl
    rw [CloudPingEventsProvider.convertToProbeEvent, hd]
    simp only [hmarshal, hval, hbytes, hparse]
  have hunmarshal : ∀ line, (probeCodec float errText).unmarshalPingEvent line =
      unmarshalEvent (anyJSON float) errText line := fun _ => rfl
  rw [CloudPingEventsProvider.probeEvents, hunmarshal, hread]
  simp only [herr] at hconvert ⊢
  rw [hconvert]

/-- What a response says, if it is read to its end. -/
def ReadToEnd (response : Except String Source) (text : List UInt8) : Prop :=
  ∃ body, response = .ok body ∧ body.text = text ∧ body.reading.stop = .eof

/-- The metadata of the one agent that is asked. -/
def probeMetadata (source target : String) : Store String String :=
  ((∅ : Store String String).insert TaskContext.metadataKeyFrom source).insert
    TaskContext.metadataKeyTarget target

/-- The bot has one event for each result. -/
theorem probeEvents_of_results {evs : List Pinger.IPProbeEvent}
    (hevs : ∀ ev ∈ evs, IsFloat ev.rtt ∧
      ∃ a : IP, ev.peer = some { ip := a } ∧ (a.length = 4 ∨ a.length = 16))
    {pinger : WithMetadataPinger AnyData} {metadata : Store String String}
    (hpinger : pinger.metadata = some metadata) {k v : String}
    (hmeta : metadata.lookup k = some v) :
    List.Forall₂ Reflects evs ((evs.map fun ev => pinger.wrapped
        ((PingHandler.outgoing (scanEvent (.ok ev))).carried (anyJSON float))).flatMap fun ev =>
      CloudPingEventsProvider.probeEvents (probeCodec float errText) (Utf8.encode
        (Value.obj ((PingTaskHandler.outgoing ev).members (anyJSON float))).text)) := by
  induction evs with
  | nil => exact .nil
  | cons ev evs ih =>
    obtain ⟨hrtt, a, hpeer, ha⟩ := hevs ev List.mem_cons_self
    have hlabel := labels_wrapped pinger
      ((PingHandler.outgoing (scanEvent (.ok ev))).carried (anyJSON float))
    rw [hpinger] at hlabel
    obtain ⟨probe, hprobe, hreflects⟩ :=
      @probeEvents_of_labels float errText _ _ _ hmeta _ hrtt _ ha hpeer _ hlabel
    rw [List.map_cons, List.flatMap_cons, hprobe]
    exact .cons hreflects (ih fun ev hev => hevs ev (List.mem_cons_of_mem _ hev))

/-! ## The caption -/

section Caption

/-- The addresses that count as reachable. -/
def reachables (shown : Shown) : Int :=
  shown.rttMs.zipIdx.foldl (fun n x => if x.1 < 0 ∧ x.2 < shown.probed then n - 1 else n)
    shown.probed

def captionText (cidr : IPNet) (source : String) (shown : Shown) : String :=
  "Scan report of " ++ ipNetString cidr ++ "\n" ++
    "Source: " ++ source ++ "\n" ++
    "Probed: " ++ toString shown.probed ++ " / " ++ toString (numSamples cidr) ++ "\n" ++
    "Reachable: " ++ toString (reachables shown) ++ " / " ++ toString shown.probed ++ "\n" ++
    if shown.probed = numSamples cidr then "" else "In progress ..."

/-- Whether there is a button to cancel the probe. -/
def hasCancelButton (cidr : IPNet) (shown : Shown) : Bool :=
  !decide (shown.probed = numSamples cidr)

theorem foldl_sub_one {α : Type} (p : α → Bool) (l : List α) (n : Int) :
    l.foldl (fun n x => if p x then n - 1 else n) n = n - l.countP p := by
  induction l generalizing n with
  | nil => simp
  | cons x l ih =>
    rw [List.foldl_cons, ih, List.countP_cons]
    split_ifs
    · push_cast
      omega
    · simp

/-- With an event for every place, those that are not negative are reachable. -/
theorem reachables_eq {shown : Shown} (h : shown.probed = shown.rttMs.length) :
    reachables shown = shown.rttMs.countP fun rtt => 0 ≤ rtt := by
  let negative : Int × Nat → Bool := fun x => decide (x.1 < 0 ∧ x.2 < shown.probed)
  have hcount : shown.rttMs.zipIdx.countP negative =
      shown.rttMs.countP fun rtt => ¬decide (0 ≤ rtt) = true := by
    calc shown.rttMs.zipIdx.countP negative
        = shown.rttMs.zipIdx.countP ((fun rtt => ¬decide (0 ≤ rtt) = true) ∘ Prod.fst) := by
          refine List.countP_congr fun x hx => ?_
          have hlt : x.2 < shown.rttMs.length := by
            simpa using List.snd_lt_add_of_mem_zipIdx hx
          simp [negative, h, hlt]
      _ = shown.rttMs.countP fun rtt => ¬decide (0 ≤ rtt) = true := by
          rw [← List.countP_map, List.zipIdx_map_fst]
  have hall := List.length_eq_countP_add_countP (l := shown.rttMs) fun rtt : Int => decide (0 ≤ rtt)
  have hfold := foldl_sub_one negative shown.rttMs.zipIdx shown.probed
  rw [hcount] at hfold
  have hreach : reachables shown = shown.rttMs.zipIdx.foldl
      (fun n x => if negative x then n - 1 else n) (shown.probed : Int) := by
    simp only [reachables, negative, decide_eq_true_eq]
  rw [hreach, hfold]
  omega

/-- With one event for each place the array has the latencies of the events. -/
theorem fill_perm {place : ProbeEvent → Nat} {zeros : List Int} {evs : List ProbeEvent}
    (h : (evs.map place).Perm (List.range zeros.length)) :
    (fill place zeros evs).Perm (evs.map ProbeEvent.rttMs) := by
  have hnodup : (evs.map place).Nodup := h.nodup_iff.2 List.nodup_range
  let value : Nat → Int := fun i => ((fill place zeros evs)[i]?).getD 0
  have hvalue : ∀ ev ∈ evs, value (place ev) = ev.rttMs := by
    intro ev hev
    have hlt : place ev < zeros.length := List.mem_range.1 (h.mem_iff.1 (List.mem_map_of_mem hev))
    simp only [value, getElem?_fill place zeros evs hlt]
    cases hf : evs.reverse.find? fun ev' => place ev' = place ev with
    | none =>
      have := List.find?_eq_none.1 hf ev (List.mem_reverse.2 hev)
      exact absurd (decide_eq_true rfl) this
    | some ev' =>
      have hmem := List.mem_reverse.1 (List.mem_of_find?_eq_some hf)
      have hsame : place ev' = place ev := by simpa using List.find?_some hf
      rw [List.inj_on_of_nodup_map hnodup hmem hev hsame]
      rfl
  have hfill : fill place zeros evs = (List.range zeros.length).map value := by
    refine List.ext_getElem (by simp [length_fill]) fun i hi _ => ?_
    simp [value, hi]
  have hvalues : (evs.map place).map value = evs.map ProbeEvent.rttMs := by
    rw [List.map_map]
    exact List.map_congr_left hvalue
  rw [hfill, ← hvalues]
  exact (h.map value).symm

/-- The places of events in place. -/
theorem InPlace.perm {n : IPNet} {evs : List ProbeEvent} (h : InPlace n evs) :
    (evs.map fun ev => offsetIn n ev.ip).Perm (List.range evs.length) := by
  have hsub : (evs.map fun ev => offsetIn n ev.ip) ⊆ List.range evs.length := by
    intro o ho
    obtain ⟨ev, hev, rfl⟩ := List.mem_map.1 ho
    exact List.mem_range.2 (h.first ev hev)
  exact (h.distinct.subperm hsub).perm_of_length_le (by simp)

/-- The caption when every address was probed. -/
theorem captionText_full {cidr : IPNet} {source : String} {shown : Shown} {reached : Nat}
    (hfull : shown.probed = numSamples cidr) (hreach : reachables shown = reached) :
    captionText cidr source shown =
      "Scan report of " ++ ipNetString cidr ++ "\n" ++
        "Source: " ++ source ++ "\n" ++
        "Probed: " ++ toString shown.probed ++ " / " ++ toString shown.probed ++ "\n" ++
        "Reachable: " ++ toString reached ++ " / " ++ toString shown.probed ++ "\n" := by
  have htext : toString (reachables shown) = toString reached := congrArg toString hreach
  unfold captionText
  rw [if_pos hfull, String.append_empty, htext, ← hfull]

end Caption

/-! ## The request -/

section Request

open CloudPingEventsProvider SimplePingRequest

variable {request : ProbeRequestDescriptor}

/-- The request as the hub reads it: the agent is told a TTL. -/
def probeForm (request : ProbeRequestDescriptor) : SimplePingRequest :=
  (probeRequest request).withTTL

/-- The hub reads the request of the bot. -/
theorem parse_probeRequest (hsource : IsEntry request.fromNodeId)
    (hcidr : IsEntry request.targetCIDR) :
    parseSimplePingRequest (Values.parse (probeRequest request).toURLValues.encode) =
      .ok (probeForm request) := by
  have hw : (probeRequest request).withTTL.WellFormed :=
    wellFormed_withTTL (fun t ht => List.mem_singleton.1 ht ▸ hcidr)
      (fun f hf => List.mem_singleton.1 hf ▸ hsource) (by rintro g ⟨⟩) (by rintro t ⟨⟩)
  have ha : (probeRequest request).withTTL.Accepted :=
    accepted_withTTL (by rintro g ⟨⟩) (by rintro t ⟨⟩)
  rw [parse_encode_withTTL hw ha rfl]
  rfl

/-- The agent reads what the hub made of the request. -/
theorem parse_derived_probeRequest (hsource : IsEntry request.fromNodeId)
    (hcidr : IsEntry request.targetCIDR) (handler : PingTaskHandler) :
    parseSimplePingRequest (Values.parse ((clampForm handler (probeForm request)).deriveAsPingRequest
        request.fromNodeId request.targetCIDR).toURLValues.encode) =
      .ok (clampForm handler (probeForm request)) := by
  have hrelayable := (relayable_of_parse (parse_probeRequest hsource hcidr)).withNumbers
    (clampForm handler (probeForm request)).intvMilliseconds
    (clampForm handler (probeForm request)).pktTimeoutMilliseconds
    (clampForm handler (probeForm request)).totalPkts
  exact (hrelayable.derived
    (.ping (List.mem_singleton.2 rfl) (List.mem_singleton.2 rfl))).parse_encode

/-- The request of the bot gets to the agent, whatever the hub clamps, with a target that is the
network. -/
structure RequestArrives (n : IPNet) (request : ProbeRequestDescriptor) : Prop where
  hub : parseSimplePingRequest (Values.parse (probeRequest request).toURLValues.encode) =
    .ok (probeForm request)
  agent : ∀ handler : PingTaskHandler,
    parseSimplePingRequest (Values.parse ((clampForm handler (probeForm request)).deriveAsPingRequest
        request.fromNodeId request.targetCIDR).toURLValues.encode) =
      .ok (clampForm handler (probeForm request))
  target : ∀ handler : PingTaskHandler, ∀ target ∈ (clampForm handler (probeForm request)).targets,
    ∃ ip, parseCIDR target = some (ip, n)

theorem requestArrives {n : IPNet} {ones : Nat} (hp : n.Parsed ones) (hn : n.Native)
    {source : String} (hsource : IsEntry source) :
    RequestArrives n ⟨source, ipNetString n⟩ := by
  have htext : IsEntry (ipNetString n) := by
    refine isEntry_of_all (fun he => ?_) (List.all_eq_true.2 fun c hc => ?_)
    · have hnil : (ipNetString n).toList = [] := by rw [he]; rfl
      rw [toList_ipNetString hp hn] at hnil
      exact List.append_ne_nil_of_right_ne_nil _ (List.cons_ne_nil _ _) hnil
    · rcases chars_of_ipNetString hp hn c hc with hc | rfl
      · have hcomma : c ≠ ',' := by
          rintro rfl
          exact absurd hc (by decide)
        rw [not_isSpace_of_isAddrChar hc]
        simpa using hcomma
      · decide
  exact ⟨parse_probeRequest hsource htext, parse_derived_probeRequest hsource htext,
    fun _ target htarget => List.mem_singleton.1 htarget ▸ parseCIDR_ipNetString hp hn⟩

end Request

/-! ## The picture of a full scan -/

/-- A scan of a network that ends on its own, in which each packet makes one event. -/
structure ScanEnds (n : IPNet) (m : MemberRun) (config : ScanConfig) (s : ScanRun) : Prop where
  members : (getMemberAddresses32 n).Reachable live m
  membersClosed : m.pc = .closed
  addresses : config.addresses = m.received
  reachable : (ScanRun.system config).Reachable ScanRun.onePerPacket s
  closed : s.main = .closed
  live : s.trk.ctxDone = false
  accepted : ¬ s.Refused
  measured : ∀ ev, .ok ev ∈ s.output → IsFloat ev.rtt

/-- The results of such a scan are those of the addresses of the network. -/
theorem ScanEnds.results {n : IPNet} {ones : Nat} (hp : n.Parsed ones) (hb : hostBits n ≤ 29)
    {m : MemberRun} {config : ScanConfig} {s : ScanRun} (h : ScanEnds n m config s) :
    ∃ (addrs : List IP) (evs : List Pinger.IPProbeEvent),
      EmitsMembers n (hostBits n) n.ip.length addrs ∧ s.output = evs.map .ok ∧
      (evs.map Pinger.IPProbeEvent.peer).Perm (addrs.map fun ip => some ⟨ip, ""⟩) := by
  have hbits := hostBits_eq hp
  obtain ⟨l, first, len, base, he⟩ := exists_enumerates hp.subnet (by omega)
  have hem := he.emits
  obtain ⟨evs, hout, hperm⟩ := ScanRun.scan_complete h.reachable h.closed h.live h.accepted
  rw [h.addresses, (hem.received m h.members).2 h.membersClosed] at hperm
  rw [Nat.mul_div_cancel_left _ (by decide : 0 < 8), ← hbits] at hem
  exact ⟨_, evs, hem, hout, hperm⟩

/-- An address with a reply. -/
def answered : Except String Pinger.IPProbeEvent → Bool
  | .ok ev => 0 ≤ ev.rtt
  | .error _ => false

/-- The picture and the caption show the results. -/
structure Pictured (cidr : IPNet) (source : String) (out : List (Except String Pinger.IPProbeEvent))
    (shown : Shown) (img : Image) : Prop where
  /-- Each address of the range has the color of a result for it. -/
  color : ∀ a, cidr.contains a = true → ∃ rtt b, .ok ⟨rtt, some ⟨b, ""⟩⟩ ∈ out ∧
    normal b = normal a ∧
      cell img (hostBits cidr) (offsetIn cidr a) = some (if 0 ≤ rtt then green else gray)
  caption : captionText cidr source shown =
    "Scan report of " ++ ipNetString cidr ++ "\n" ++
      "Source: " ++ source ++ "\n" ++
      "Probed: " ++ toString (2 ^ hostBits cidr) ++ " / " ++ toString (2 ^ hostBits cidr) ++ "\n" ++
      "Reachable: " ++ toString (out.countP answered) ++ " / " ++ toString (2 ^ hostBits cidr) ++
        "\n"
  cancel : hasCancelButton cidr shown = false

/-- The events of the handler in the order in which it took them. -/
def taken : List CollectStep → List ProbeEvent
  | [] => []
  | .offer :: steps => taken steps
  | .event ev :: steps => ev :: taken steps

theorem consumed_eq_taken {steps : List CollectStep} (h : ∀ ev ∈ taken steps, ev.err = none) :
    consumed steps = taken steps := by
  induction steps with
  | nil => rfl
  | cons step steps ih =>
    cases step with
    | offer => exact ih h
    | event ev =>
      have herr := h ev List.mem_cons_self
      rw [consumed, taken, herr, ih fun ev hev => h ev (List.mem_cons_of_mem _ hev)]
      rfl

/-- The addresses of the events are those of the results. -/
theorem addresses_of_reflects {evs : List Pinger.IPProbeEvent} {probes : List ProbeEvent}
    {addrs : List IP}
    (hperm : (evs.map Pinger.IPProbeEvent.peer).Perm (addrs.map fun ip => some ⟨ip, ""⟩))
    (h : List.Forall₂ Reflects evs probes) :
    (probes.map fun probe => normal probe.ip).Perm (addrs.map normal) := by
  let address : Option IPAddr → IP := fun peer => normal (peer.elim [] IPAddr.ip)
  have hsame : (probes.map fun probe => normal probe.ip) =
      (evs.map Pinger.IPProbeEvent.peer).map address := by
    clear hperm
    induction h with
    | nil => rfl
    | cons hr _ ih =>
      obtain ⟨peer, hpeer, hnormal⟩ := hr.ip
      rw [List.map_cons, List.map_cons, List.map_cons, ih, hpeer, hnormal]
      rfl
  have hmap : (addrs.map fun ip => some (⟨ip, ""⟩ : IPAddr)).map address = addrs.map normal := by
    rw [List.map_map]
    rfl
  rw [hsame, ← hmap]
  exact hperm.map address

/-- Events for the addresses of a network are in place. -/
theorem inPlace_of_addresses {n : IPNet} {ones bytes : Nat} (hp : n.Parsed ones)
    {addrs : List IP} (hem : EmitsMembers n (hostBits n) bytes addrs) {probes : List ProbeEvent}
    (h : (probes.map fun probe => normal probe.ip).Perm (addrs.map normal)) :
    (∀ probe ∈ probes, n.contains probe.ip = true) ∧ probes.length = 2 ^ hostBits n ∧
      InPlace n probes := by
  have hlength : probes.length = 2 ^ hostBits n := by
    rw [← hem.length, ← List.length_map (fun probe : ProbeEvent => normal probe.ip), h.length_eq,
      List.length_map]
  have hin : ∀ probe ∈ probes, n.contains probe.ip = true := by
    intro probe hprobe
    obtain ⟨b, hb, hbe⟩ := List.mem_map.1
      (h.mem_iff.1 (List.mem_map_of_mem (f := fun probe : ProbeEvent => normal probe.ip) hprobe))
    exact (hem.members probe.ip).2 ⟨b, hb, hbe⟩
  refine ⟨hin, hlength, ⟨?_, fun probe hprobe => ?_⟩⟩
  · rw [← nodup_normal_iff hp hin]
    exact h.nodup_iff.2 hem.nodup
  · rw [hlength, hostBits_eq hp]
    exact offsetIn_lt hp (hin probe hprobe)

theorem exists_of_reflects {evs : List Pinger.IPProbeEvent} {probes : List ProbeEvent}
    (h : List.Forall₂ Reflects evs probes) {probe : ProbeEvent} (hprobe : probe ∈ probes) :
    ∃ ev ∈ evs, Reflects ev probe := by
  induction h with
  | nil => cases hprobe
  | @cons ev _ evs _ hr _ ih =>
    rcases List.mem_cons.1 hprobe with rfl | hprobe
    · exact ⟨ev, List.mem_cons_self, hr⟩
    · obtain ⟨ev', hev', hr'⟩ := ih hprobe
      exact ⟨ev', List.mem_cons_of_mem _ hev', hr'⟩

theorem rttMs_of_reflects {evs : List Pinger.IPProbeEvent} {probes : List ProbeEvent}
    (h : List.Forall₂ Reflects evs probes) :
    probes.map ProbeEvent.rttMs = evs.map Pinger.IPProbeEvent.rtt := by
  induction h with
  | nil => rfl
  | cons hr _ ih => rw [List.map_cons, List.map_cons, ih, hr.rttMs]

/-- What is shown of events in place, one for each address. -/
theorem pictured_of_reflects {n : IPNet} {ones bytes : Nat} (hp : n.Parsed ones) (hn : n.Native)
    (hb : hostBits n ≤ 29) (source : String) {addrs : List IP} {evs : List Pinger.IPProbeEvent}
    (hem : EmitsMembers n (hostBits n) bytes addrs)
    (hperm : (evs.map Pinger.IPProbeEvent.peer).Perm (addrs.map fun ip => some ⟨ip, ""⟩))
    {steps : List CollectStep} (hrefl : List.Forall₂ Reflects evs (consumed steps)) :
    ∃ shown img, handleProbe n steps = some shown ∧
      renderProbeHeatmap shown.rttMs shown.probed n = .ok img ∧
        Pictured n source (evs.map .ok) shown img := by
  have haddr := addresses_of_reflects hperm hrefl
  obtain ⟨hin, hlength, hplace⟩ := inPlace_of_addresses hp hem haddr
  obtain ⟨shown, img, hshown, himg, htrue⟩ := (truthful_native_iff hp hn hb hin).2 hplace
  refine ⟨shown, img, hshown, himg, ?_⟩
  have hbits := hostBits_eq hp
  have hpow : 2 ^ hostBits n ≤ 2 ^ 29 := Nat.pow_le_pow_right (by decide) hb
  have hsamples : numSamples n = 2 ^ hostBits n := by
    rw [numSamples, Nat.shiftLeft_eq, Nat.one_mul, Nat.mod_eq_of_lt (by omega)]
  have hcollect := @collect_eq _ n steps fun ev hev =>
    ⟨getOffset_native hp hn (by omega) (hin ev hev),
      hsamples ▸ hbits ▸ offsetIn_lt hp (hin ev hev)⟩
  have heq := Option.some.inj (hshown.symm.trans hcollect)
  have hprobed : shown.probed = 2 ^ hostBits n := by rw [heq, hlength]
  refine ⟨fun a ha => ?_, ?_, ?_⟩
  · have hlt : offsetIn n a < (consumed steps).length := by
      rw [hlength, hbits]
      exact offsetIn_lt hp ha
    cases hl : lastEvent (consumed steps) a with
    | none => exact absurd ((hplace.mem_iff _).2 hlt) ((lastEvent_eq_none hp hin ha).1 hl)
    | some probe =>
      obtain ⟨hprobe, hnormal⟩ := lastEvent_mem hl
      obtain ⟨ev, hev, hr⟩ := exists_of_reflects hrefl hprobe
      obtain ⟨b, -, hpeer⟩ := List.mem_map.1 (hperm.mem_iff.1 (List.mem_map_of_mem hev))
      obtain ⟨peer, hpeer', hsame⟩ := hr.ip
      obtain rfl : ⟨b, ""⟩ = peer := Option.some.inj (hpeer.trans hpeer')
      refine ⟨ev.rtt, b, ?_, hsame.symm.trans hnormal, ?_⟩
      · rw [hpeer]
        exact List.mem_map_of_mem hev
      · rw [← hr.rttMs]
        split_ifs with hsign
        · exact (htrue.green a ha).2 ⟨probe, hl, hsign⟩
        · exact (htrue.gray a ha).2 ⟨probe, hl, Int.not_le.1 hsign⟩
  · have hzeros : (List.replicate (numSamples n) (0 : Int)).length = (consumed steps).length := by
      rw [List.length_replicate, hsamples, hlength]
    have hrtts : shown.rttMs.Perm (evs.map Pinger.IPProbeEvent.rtt) := by
      rw [heq, ← rttMs_of_reflects hrefl]
      exact fill_perm (hzeros ▸ hplace.perm)
    have hall : shown.probed = shown.rttMs.length := by
      rw [hprobed, hrtts.length_eq, List.length_map, hrefl.length_eq, hlength]
    have hreach : reachables shown = ((evs.map Except.ok).countP answered : Nat) := by
      rw [reachables_eq hall, hrtts.countP_eq, List.countP_map, List.countP_map]
      rfl
    have hcaption := @captionText_full n source _ _ (hprobed.trans hsamples.symm) hreach
    rwa [hprobed] at hcaption
  · rw [hasCancelButton, decide_eq_true (hprobed.trans hsamples.symm)]
    rfl

/-- A scan that ends on its own is pictured as it was. -/
theorem scan_reaches_picture {n : IPNet} {ones : Nat} (hp : n.Parsed ones) (hn : n.Native)
    (hb : hostBits n ≤ 29) {source : String} (hsource : IsEntry source)
    {m : MemberRun} {config : ScanConfig} {s : ScanRun} (hscan : ScanEnds n m config s)
    {net net' : HTTPClient} {sp : SimpleRemotePinger}
    (hagent : ReadToEnd (sp.response net)
      (PingHandler.streamEvents (anyJSON float) (s.output.map scanEvent)))
    {t : MergeState AnyData 1}
    (ht : (startMultiplePings fun _ => Web.remotePinger (anyJSON float) errText net sp
      (probeMetadata source (ipNetString n))).Reachable .any t)
    (hclosed : t.closed = true) {provider : CloudPingEventsProvider}
    (hhub : ReadToEnd
      (provider.response net' (provider.getProbeURL net' ⟨source, ipNetString n⟩))
      (PingTaskHandler.streamEvents (anyJSON float) (t.out.map Prod.snd)))
    {steps : List CollectStep}
    (hsteps : taken steps = provider.getProbeEvents net' (probeCodec float errText) none
      ⟨source, ipNetString n⟩) :
    RequestArrives n ⟨source, ipNetString n⟩ ∧
      ∃ shown img, handleProbe n steps = some shown ∧
        renderProbeHeatmap shown.rttMs shown.probed n = .ok img ∧
          Pictured n source s.output shown img := by
  refine ⟨requestArrives hp hn hsource, ?_⟩
  obtain ⟨addrs, evs, hem, hout, hperm⟩ := hscan.results hp hb
  obtain ⟨body, hresponse, htext, heof⟩ := hagent
  obtain ⟨body', hresponse', htext', heof'⟩ := hhub
  have hmeta : ∀ ev ∈ s.output.map scanEvent, ev.metadata = none := by
    intro ev hev
    obtain ⟨res, -, rfl⟩ := List.mem_map.1 hev
    cases res <;> rfl
  have hevs : ∀ ev ∈ evs, IsFloat ev.rtt ∧
      ∃ a : IP, ev.peer = some { ip := a } ∧ (a.length = 4 ∨ a.length = 16) := by
    intro ev hev
    obtain ⟨a, ha, hpeer⟩ := List.mem_map.1 (hperm.mem_iff.1 (List.mem_map_of_mem hev))
    exact ⟨hscan.measured ev (hout ▸ List.mem_map_of_mem hev), a, hpeer.symm,
      hem.bytes a ha ▸ hp.length⟩
  have htarget : (probeMetadata source (ipNetString n)).lookup TaskContext.metadataKeyTarget =
      some (ipNetString n) := AList.lookup_insert _
  let pinger := Web.remotePinger (anyJSON float) errText net sp
    (probeMetadata source (ipNetString n))
  have hmerged : t.out.map Prod.snd = evs.map fun ev => pinger.wrapped
      ((PingHandler.outgoing (scanEvent (.ok ev))).carried (anyJSON float)) := by
    have hevents : pinger.events =
        (s.output.map scanEvent).map fun ev => (PingHandler.outgoing ev).carried (anyJSON float) :=
      ping_streamEvents hresponse htext heof hmeta
    rw [merged_of_one ht hclosed, hevents, hout, List.map_map, List.map_map, List.map_map]
    rfl
  have hrefl := @probeEvents_of_results float errText _ hevs pinger _ rfl _ _ htarget
  rw [← hmerged, ← getProbeEvents_streamEvents hresponse' htext' heof', ← hsteps] at hrefl
  have herr : ∀ probe ∈ taken steps, probe.err = none := by
    intro probe hprobe
    obtain ⟨ev, -, hr⟩ := exists_of_reflects hrefl hprobe
    exact hr.err
  rw [← consumed_eq_taken herr] at hrefl
  rw [hout]
  exact pictured_of_reflects hp hn hb source hem hperm hrefl

/-! ### Two addresses, one of which answers -/

/-- The numbers here are integers. -/
def plainFloat : FloatText := ⟨id, id, fun _ => rfl⟩

def pairResults : List (Except String Pinger.IPProbeEvent) :=
  [.ok ⟨0, some ⟨[192, 0, 2, 0], ""⟩⟩, .ok ⟨-1, some ⟨[192, 0, 2, 1], ""⟩⟩]

def pairRequest : ProbeRequestDescriptor := ⟨"us-lax1", ipNetString ScanRun.pair⟩

def pairMetadata : Store String String :=
  probeMetadata pairRequest.fromNodeId pairRequest.targetCIDR

def pairEvents : List (PingEvent AnyData) := pairResults.map fun res =>
  (PingHandler.outgoing (scanEvent res)).carried (anyJSON plainFloat)

def pairPinger : WithMetadataPinger AnyData := ⟨pairEvents, 0, some pairMetadata⟩

def pairAgentBody : Source :=
  { last := PingHandler.streamEvents (anyJSON plainFloat) (pairResults.map scanEvent) }

/-- A line of the hub. -/
def pairLine (ev : PingEvent AnyData) : Value :=
  .obj [("data", (ev.data.map AnyData.val).getD .null),
    ("metadata", .obj [("from", .str "us-lax1"), ("target", .str "192.0.2.0/31")])]

def pairHubBody : Source := { last := pairEvents.flatMap fun ev => (pairLine ev).line }

/-- A client that gets one body. -/
def pairNet (body : Source) : HTTPClient where
  withQuery url query := .ok (url ++ "?" ++ query)
  newRequest _ := .ok ()
  doRequest _ _ _ := .ok (200, body)

/-- The events as the bot gets them. -/
def pairSteps : List CollectStep :=
  (exampleProvider.getProbeEvents (pairNet pairHubBody) (probeCodec plainFloat byteText) none
    pairRequest).map .event

theorem taken_map_event (evs : List ProbeEvent) : taken (evs.map .event) = evs := by
  induction evs with
  | nil => rfl
  | cons ev evs ih => rw [List.map_cons, taken, ih]

theorem streamEvents_pair : PingTaskHandler.streamEvents (anyJSON plainFloat)
    (pairEvents.map pairPinger.wrapped) = pairHubBody.last := by
  have hline : ∀ ev ∈ pairEvents, (PingTaskHandler.outgoing (pairPinger.wrapped ev)).line
      (anyJSON plainFloat) = (pairLine ev).line := by
    intro ev hev
    have hentries : ((pairPinger.wrapped ev).metadata.getD ∅).entries.map (fun e => (e.1, e.2)) =
        [("from", "us-lax1"), ("target", "192.0.2.0/31")] := by
      rcases List.mem_pair.1 hev with rfl | rfl <;> decide +kernel
    have hmeta : ofStringMap (pairPinger.wrapped ev).metadata =
        some (.obj [("from", .str "us-lax1"), ("target", .str "192.0.2.0/31")]) := by
      rw [ofStringMap, sortedEntries, hentries]
      simp [List.mergeSort, List.MergeSort.Internal.splitInTwo]
    have houtgoing : PingTaskHandler.outgoing (pairPinger.wrapped ev) = pairPinger.wrapped ev := by
      rcases List.mem_pair.1 hev with rfl | rfl <;> rfl
    rw [houtgoing, PingEvent.line, PingEvent.members, hmeta]
    rcases List.mem_pair.1 hev with rfl | rfl <;> rfl
  rw [PingTaskHandler.streamEvents, List.flatMap_map]
  exact List.flatMap_congr hline

theorem scan_reaches_picture_pair : ∃ s,
    (ScanRun.system ScanRun.sampleScan).Reachable ScanRun.onePerPacket s ∧
      RequestArrives ScanRun.pair pairRequest ∧
        ∃ shown img, handleProbe ScanRun.pair pairSteps = some shown ∧
          renderProbeHeatmap shown.rttMs shown.probed ScanRun.pair = .ok img ∧
            Pictured ScanRun.pair "us-lax1" s.output shown img := by
  obtain ⟨m, hm, hmp⟩ := System.exists_of_replay (getMemberAddresses32 ScanRun.pair) live
    (fun m => m.pc = .closed ∧ m.received = ScanRun.sampleScan.addresses)
    [.setup, .poll, .send, .poll, .send, .poll] (by decide +kernel)
  obtain ⟨s, hs, hsp⟩ := System.exists_of_replay (ScanRun.system ScanRun.sampleScan)
    ScanRun.onePerPacket
    (fun s => s.main = .closed ∧ s.trk.ctxDone = false ∧ s.trk.sent = [1, 2] ∧
      s.output = pairResults) ScanRun.pairActions (by decide +kernel)
  obtain ⟨hpc, hrec⟩ := of_decide_eq_true hmp
  obtain ⟨hmain, hlive, hsent, hout⟩ := of_decide_eq_true hsp
  have hscan : ScanEnds ScanRun.pair m ScanRun.sampleScan s :=
    { members := hm, membersClosed := hpc, addresses := hrec.symm, reachable := hs
      closed := hmain, live := hlive
      accepted := fun href => by rw [href.sent] at hsent; cases hsent
      measured := by
        intro ev hev
        rw [hout] at hev
        rcases List.mem_pair.1 hev with hev | hev <;> cases hev <;> decide }
  have hp : ScanRun.pair.Parsed 31 := ⟨Or.inl rfl, by decide, by decide, by decide⟩
  have hsource : IsEntry "us-lax1" := SimplePingRequest.isEntry_of_all (by decide) (by decide)
  have hagent : ReadToEnd (examplePinger.response (pairNet pairAgentBody))
      (PingHandler.streamEvents (anyJSON plainFloat) (s.output.map scanEvent)) :=
    ⟨pairAgentBody, rfl, by rw [hout]; rfl, by decide +kernel⟩
  have hevents : Web.remotePinger (anyJSON plainFloat) byteText (pairNet pairAgentBody)
      examplePinger pairMetadata = pairPinger := by
    rw [Web.remotePinger, @ping_streamEvents _ _ _ _ _ _ (pairResults.map scanEvent) rfl rfl
      (by decide +kernel) (by decide), List.map_map]
    rfl
  obtain ⟨t, ht, hclosed⟩ := System.exists_of_replay
    (startMultiplePings fun _ : Fin 1 => pairPinger) .any (fun t => t.closed)
    [.startLane, .lane 0 .begin, .lane 0 .call, .lane 0 .meet, .lane 0 .pass, .deliver 0,
      .lane 0 .meet, .lane 0 .pass, .deliver 0, .lane 0 .closeOrigin, .lane 0 .drained,
      .lane 0 .closeWrapped, .lane 0 .wrappedClosed, .wgDone 0, .wait, .closeEvents]
    (by decide +kernel)
  have hhub : ReadToEnd (exampleProvider.response (pairNet pairHubBody)
      (exampleProvider.getProbeURL (pairNet pairHubBody) pairRequest))
      (PingTaskHandler.streamEvents (anyJSON plainFloat) (t.out.map Prod.snd)) := by
    rw [merged_of_one ht hclosed]
    exact ⟨pairHubBody, rfl, streamEvents_pair.symm, by decide +kernel⟩
  rw [← hevents] at ht
  exact ⟨s, hs, scan_reaches_picture hp (Or.inl rfl) (by decide) hsource hscan hagent ht hclosed
    hhub (taken_map_event _)⟩

end CloudPing.Bot

import CloudPing.Pinger.OutputEvents
import CloudPing.Tui.PingEvent

/-!
# The two converters of an event

The bot takes the round trip time of an event from its last reply and all else from the first
one.  The browser does it the other way round.  So they agree on an event exactly if its first
and its last reply have the same time and look alike (`converters_agree_iff`), and then the time
is that of the reply that is shown.

A `ReplyView` is what an event shows of a reply.
-/

namespace CloudPing.Tui

open Conc Handler Pinger Raw Web

variable {F : Type}

/-! ## What an event shows -/

structure ReplyView (F : Type) where
  peer : String
  peerRDNS : String
  size : Int
  ttl : Int
  lastHop : Bool
  asn : String
  isp : String
  city : String
  countryAlpha2 : String
  exactLocation : Option (ExactLocation F)

/-- The text, or the other one if there is none. -/
def orText (s : String) (other : Option String) : String := if s = "" then other.getD s else s

def replyView (reply : WrappedReply F) : ReplyView F where
  peer := reply.peer
  peerRDNS := reply.peerRDNS.headD ""
  size := reply.size
  ttl := reply.ttl
  lastHop := reply.lastHop
  asn := orText ((reply.peerIPInfo.map (·.asn)).getD "") reply.peerASN
  isp := orText ((reply.peerIPInfo.map (·.isp)).getD "") reply.peerISP
  city := (reply.peerIPInfo.bind (·.city)).getD ""
  countryAlpha2 := (reply.peerIPInfo.bind (·.iso3166Alpha2)).getD ""
  exactLocation := (reply.peerIPInfo.bind (·.exactLocation)).orElse fun _ => reply.peerExactLocation

def botView (ev : PingEvent F) : ReplyView F where
  peer := ev.peer
  peerRDNS := ev.peerRDNS
  size := ev.ipPacketSize
  ttl := ev.ttl
  lastHop := ev.lastHop
  asn := ev.asn
  isp := ev.isp
  city := ev.city
  countryAlpha2 := ev.countryAlpha2
  exactLocation := ev.exactLocation

def traceView (ev : TraceEvent F) : ReplyView F where
  peer := ev.peer
  peerRDNS := ev.peerRDNS
  size := ev.ipPacketSize
  ttl := ev.ttl
  lastHop := ev.lastHop
  asn := ev.asn
  isp := ev.isp
  city := ev.city
  countryAlpha2 := ev.countryAlpha2
  exactLocation := ev.exactLocation

/-- The two events are the same. -/
structure Matches (botEV : PingEvent F) (ev : TraceEvent F) : Prop where
  err : botEV.err = ev.err
  seq : botEV.seq = ev.seq
  rttMs : botEV.rttMs = ev.rttMs
  timeout : botEV.timeout = ev.timeout
  originTTL : botEV.originTTL = ev.originTTL
  view : botView botEV = traceView ev

/-- The view is that of one of the replies, and the times are those of this reply. -/
def Measured (itEnt : WrappedEV F) (v : ReplyView F) (rttMs : Int) (rttNs : Option Int) : Prop :=
  ∃ (i : Nat) (reply : WrappedReply F), itEnt.raw[i]? = some reply ∧ v = replyView reply ∧
    itEnt.rttMilliSecs[i]? = some rttMs ∧ ∀ ns ∈ rttNs, itEnt.rttNanoSecs[i]? = some ns

/-! ## The events of the two -/

/-- The JSON of an event of an agent, with the metadata that the hub adds. -/
def jsonEvent (data : Option (WrappedEV F)) (metadata : Store String String) : RawPingEvent F where
  data := data.map .marshal
  metadata := some metadata

/-- What `GetEvents` sends for the event. -/
def botEvent (data : Option (WrappedEV F)) (metadata : Store String String) : PingEvent F :=
  sentEvent (convertPingEventToBotEvent (jsonEvent data metadata))

/-- Both make the same event of the JSON, with the right round trip time. -/
structure ConvertersAgree (data : Option (WrappedEV F)) (metadata : Store String String) :
    Prop where
  same : ∃ ev, TraceEvent.fromRaw (jsonEvent data metadata) = some ev ∧
    Matches (botEvent data metadata) ev
  bot : ∀ itEnt ∈ data, itEnt.raw ≠ [] →
    Measured itEnt (botView (botEvent data metadata)) (botEvent data metadata).rttMs
      (botEvent data metadata).rttNs
  browser : ∀ itEnt ∈ data, itEnt.raw ≠ [] →
    ∀ ev ∈ TraceEvent.fromRaw (jsonEvent data metadata),
      Measured itEnt (traceView ev) ev.rttMs none

/-- The first and the last reply look alike and took the same time. -/
structure SameEnds (itEnt : WrappedEV F) : Prop where
  view : itEnt.raw.head?.map replyView = itEnt.raw.getLast?.map replyView
  rttMs : itEnt.rttMilliSecs.head? = itEnt.rttMilliSecs.getLast?

/-! ## The bot -/

section Bot

variable {itEnt : WrappedEV F} {metadata : Store String String}

/-- Decoding gives back what is shown of a reply. -/
theorem replyView_icmpReply (reply : WrappedReply F) :
    replyView (icmpReply (.marshal reply)) = replyView reply := by
  cases hinfo : reply.peerIPInfo <;>
    simp [replyView, icmpReply, RawPingEventICMPReply.marshal, hinfo, basicIPInfo,
      RawBasicIPInfo.marshal]

theorem botView_withReply {botEV : PingEvent F} (h : botView botEV = botView {})
    (rawEntry : WrappedReply F) : botView (botEV.withReply rawEntry) = replyView rawEntry := by
  simp only [botView, ReplyView.mk.injEq] at h
  obtain ⟨-, hrdns, -, -, -, hasn, hisp, hcity, hcountry, hexact⟩ := h
  cases hinfo : rawEntry.peerIPInfo <;>
    simp [botView, PingEvent.withReply, replyView, orText, hinfo, hrdns, hasn, hisp, hcity,
      hcountry, hexact]

theorem botView_botEvent {first : WrappedReply F} (metadata : Store String String)
    (h : itEnt.raw.head? = some first) :
    botView (botEvent (some itEnt) metadata) = replyView first := by
  obtain ⟨rest, hrest⟩ := List.head?_eq_some_iff.1 h
  have hraw : (icmpEntry (.marshal itEnt)).raw =
      icmpReply (.marshal first) :: (rest.map .marshal).map icmpReply := by
    rw [icmpEntry, RawPingEventData.marshal, hrest]
    rfl
  rw [← replyView_icmpReply first]
  show botView (PingEvent.withEntry _ (icmpEntry (.marshal itEnt))) = _
  rw [PingEvent.withEntry, hraw]
  exact botView_withReply rfl _

/-- What the replies do not decide. -/
theorem botEvent_frame (itEnt : WrappedEV F) (metadata : Store String String) :
    (botEvent (some itEnt) metadata).err = "" ∧
      (botEvent (some itEnt) metadata).seq = itEnt.seq ∧
      (botEvent (some itEnt) metadata).rttMs = itEnt.rttMilliSecs.getLastD 0 ∧
      (botEvent (some itEnt) metadata).rttNs = itEnt.rttNanoSecs.getLast? ∧
      (botEvent (some itEnt) metadata).timeout = itEnt.receivedAt.isEmpty ∧
      (botEvent (some itEnt) metadata).originTTL = itEnt.ttl := by
  cases hraw : itEnt.raw <;>
    simp [botEvent, sentEvent, convertPingEventToBotEvent, jsonEvent, PingEvent.withEntry,
      PingEvent.withReply, icmpEntry, RawPingEventData.marshal, hraw]

end Bot

/-! ## The browser -/

section Browser

variable {itEnt : WrappedEV F} {metadata : Store String String}

theorem traceView_withReply {ev : TraceEvent F} (reply : WrappedReply F) :
    traceView (ev.withReply (.marshal reply)) = replyView reply := by
  cases hinfo : reply.peerIPInfo <;>
    simp [traceView, TraceEvent.withReply, replyView, orText, RawPingEventICMPReply.marshal,
      hinfo, RawBasicIPInfo.marshal]

theorem traceView_ofData {last : WrappedReply F} (h : itEnt.raw.getLast? = some last) :
    traceView (.ofData (.marshal itEnt)) = replyView last := by
  have hraw : ((RawPingEventData.marshal itEnt).raw.getD []).getLast? = some (.marshal last) := by
    show (itEnt.raw.map RawPingEventICMPReply.marshal).getLast? = _
    rw [List.getLast?_map, h]
    rfl
  rw [TraceEvent.ofData, hraw]
  exact traceView_withReply last

theorem ofData_frame (itEnt : WrappedEV F) :
    (TraceEvent.ofData (.marshal itEnt)).err = "" ∧
      (TraceEvent.ofData (.marshal itEnt)).seq = itEnt.seq ∧
      (TraceEvent.ofData (.marshal itEnt)).rttMs = itEnt.rttMilliSecs.headD 0 ∧
      (TraceEvent.ofData (.marshal itEnt)).timeout = itEnt.receivedAt.isEmpty ∧
      (TraceEvent.ofData (.marshal itEnt)).originTTL = itEnt.ttl := by
  cases hraw : itEnt.raw.getLast? <;>
    simp [TraceEvent.ofData, TraceEvent.withReply, RawPingEventData.marshal, hraw]

/-- An event with a target is not skipped. -/
theorem fromRaw_jsonEvent (data : Option (WrappedEV F))
    (ht : (metadata.lookup "target").getD "" ≠ "") :
    TraceEvent.fromRaw (jsonEvent data metadata) =
      some (data.elim (.fromError "ping event data is nil") fun itEnt =>
        .ofData (.marshal itEnt)) := by
  have htarget : ∃ target, TraceEvent.truthy (metadata.lookup "target") = some target := by
    cases hl : metadata.lookup "target" with
    | none =>
      rw [hl] at ht
      exact absurd rfl ht
    | some target =>
      rw [hl] at ht
      exact ⟨target, by simpa [TraceEvent.truthy] using ht⟩
  obtain ⟨target, htarget⟩ := htarget
  have hnone : TraceEvent.truthy none = none := rfl
  simp only [TraceEvent.fromRaw, jsonEvent, hnone, Option.bind_some, htarget]
  cases data <;> rfl

end Browser

/-! ## The condition -/

section Condition

variable {itEnt : WrappedEV F} {metadata : Store String String}

/-- There are as many times as replies. -/
theorem length_rtts (h : itEnt.plain.Even) :
    itEnt.rttMilliSecs.length = itEnt.raw.length ∧ itEnt.rttNanoSecs.length = itEnt.raw.length := by
  obtain ⟨hraw, hns, hms⟩ := h
  have hlen : itEnt.plain.raw.length = itEnt.raw.length := List.length_map _
  exact ⟨hms.trans (hraw.symm.trans hlen), hns.trans (hraw.symm.trans hlen)⟩

theorem matches_frame (hms : itEnt.rttMilliSecs.getLastD 0 = itEnt.rttMilliSecs.headD 0)
    (hview : botView (botEvent (some itEnt) metadata) = traceView (.ofData (.marshal itEnt))) :
    Matches (botEvent (some itEnt) metadata) (.ofData (.marshal itEnt)) := by
  obtain ⟨berr, bseq, brtt, -, btimeout, bttl⟩ := botEvent_frame itEnt metadata
  obtain ⟨terr, tseq, trtt, ttimeout, tttl⟩ := ofData_frame itEnt
  exact ⟨berr.trans terr.symm, bseq.trans tseq.symm, brtt.trans (hms.trans trtt.symm),
    btimeout.trans ttimeout.symm, bttl.trans tttl.symm, hview⟩

/-- Without replies there is nothing to differ. -/
theorem matches_of_nil (heven : itEnt.plain.Even) (h : itEnt.raw = []) :
    Matches (botEvent (some itEnt) metadata) (.ofData (.marshal itEnt)) := by
  have hms : itEnt.rttMilliSecs = [] := by
    rw [← List.length_eq_zero_iff, (length_rtts heven).1, h]
    rfl
  refine matches_frame (by rw [hms]; rfl) ?_
  simp [botView, traceView, botEvent, sentEvent, convertPingEventToBotEvent, jsonEvent,
    PingEvent.withEntry, icmpEntry, TraceEvent.ofData, RawPingEventData.marshal, h]

/-- The ends of the two lists of an answered packet. -/
theorem exists_ends (heven : itEnt.plain.Even) (hne : itEnt.raw ≠ []) :
    ∃ first last ms lastMs, itEnt.raw.head? = some first ∧ itEnt.raw.getLast? = some last ∧
      itEnt.rttMilliSecs.head? = some ms ∧ itEnt.rttMilliSecs.getLast? = some lastMs := by
  have hms : itEnt.rttMilliSecs ≠ [] := by
    rw [← List.length_pos_iff, (length_rtts heven).1]
    exact List.length_pos_iff.2 hne
  exact ⟨_, _, _, _, List.head?_eq_some_head hne, List.getLast?_eq_some_getLast hne,
    List.head?_eq_some_head hms, List.getLast?_eq_some_getLast hms⟩

theorem matches_iff (heven : itEnt.plain.Even) :
    Matches (botEvent (some itEnt) metadata) (.ofData (.marshal itEnt)) ↔ SameEnds itEnt := by
  by_cases hne : itEnt.raw = []
  · refine iff_of_true (matches_of_nil heven hne) ⟨by rw [hne]; rfl, ?_⟩
    have hlen := (length_rtts heven).1
    rw [hne, List.length_nil, List.length_eq_zero_iff] at hlen
    rw [hlen]
    rfl
  · obtain ⟨first, last, ms, lastMs, hfirst, hlast, hms, hlastMs⟩ := exists_ends heven hne
    have hbot := botView_botEvent metadata hfirst
    have hbrowser := traceView_ofData hlast
    have hbotMs : itEnt.rttMilliSecs.getLastD 0 = lastMs := by
      rw [List.getLastD_eq_getLast?, hlastMs, Option.getD_some]
    have hbrowserMs : itEnt.rttMilliSecs.headD 0 = ms := by
      rw [List.headD_eq_head?_getD, hms, Option.getD_some]
    constructor
    · intro h
      refine ⟨?_, ?_⟩
      · rw [hfirst, hlast, Option.map_some, Option.map_some, ← hbot, ← hbrowser, h.view]
      · have hrtt := h.rttMs
        rw [(botEvent_frame itEnt metadata).2.2.1, (ofData_frame itEnt).2.2.1, hbotMs,
          hbrowserMs] at hrtt
        rw [hms, hlastMs, hrtt]
    · intro h
      have hview := h.view
      have hrtt := h.rttMs
      rw [hfirst, hlast] at hview
      rw [hms, hlastMs] at hrtt
      refine matches_frame ?_ ?_
      · rw [hbotMs, hbrowserMs, Option.some.inj hrtt]
      · rw [hbot, hbrowser]
        exact Option.some.inj hview

/-- The time of the bot is that of the last reply. -/
theorem measured_botEvent (heven : itEnt.plain.Even) (hne : itEnt.raw ≠ [])
    (h : SameEnds itEnt) :
    Measured itEnt (botView (botEvent (some itEnt) metadata))
      (botEvent (some itEnt) metadata).rttMs (botEvent (some itEnt) metadata).rttNs := by
  obtain ⟨first, last, ms, lastMs, hfirst, hlast, hms, hlastMs⟩ := exists_ends heven hne
  obtain ⟨hlenMs, hlenNs⟩ := length_rtts heven
  have hview := h.view
  rw [hfirst, hlast] at hview
  refine ⟨itEnt.raw.length - 1, last, ?_, ?_, ?_, ?_⟩
  · rw [← List.getLast?_eq_getElem?, hlast]
  · rw [botView_botEvent metadata hfirst]
    exact Option.some.inj hview
  · rw [(botEvent_frame itEnt metadata).2.2.1, List.getLastD_eq_getLast?, hlastMs, ← hlenMs,
      ← List.getLast?_eq_getElem?, hlastMs, Option.getD_some]
  · intro ns hns
    rw [(botEvent_frame itEnt metadata).2.2.2.1] at hns
    rw [← hlenNs, ← List.getLast?_eq_getElem?]
    exact hns

/-- The time of the browser is that of the first reply. -/
theorem measured_ofData (heven : itEnt.plain.Even) (hne : itEnt.raw ≠ []) (h : SameEnds itEnt) :
    Measured itEnt (traceView (.ofData (.marshal itEnt)))
      (TraceEvent.ofData (.marshal itEnt)).rttMs none := by
  obtain ⟨first, last, ms, lastMs, hfirst, hlast, hms, hlastMs⟩ := exists_ends heven hne
  have hview := h.view
  rw [hfirst, hlast] at hview
  refine ⟨0, first, ?_, ?_, ?_, fun ns hns => by cases hns⟩
  · rw [← List.head?_eq_getElem?, hfirst]
  · rw [traceView_ofData hlast]
    exact (Option.some.inj hview).symm
  · rw [(ofData_frame itEnt).2.2.1, List.headD_eq_head?_getD, ← List.head?_eq_getElem?, hms,
      Option.getD_some]

/-- One reply is both the first and the last one. -/
theorem sameEnds_of_length_le_one (heven : itEnt.plain.Even) (h : itEnt.raw.length ≤ 1) :
    SameEnds itEnt := by
  have hends : ∀ {α : Type} (l : List α), l.length ≤ 1 → l.head? = l.getLast? := by
    intro α l hl
    match l, hl with
    | [], _ => rfl
    | [x], _ => rfl
  refine ⟨?_, hends _ ?_⟩
  · rw [hends _ h]
  · rw [(length_rtts heven).1]
    exact h

end Condition

/-! ## When they agree -/

/-- The packet of a ping is answered twice, in 10 and in 20 milliseconds. -/
def answeredTwice : List PingAction :=
  PingRun.sendOne ++
    [.reply (ICMPTrackerRun.sampleReply 1), .takeReply,
      .markReceived 10000000 10000000 10000000] ++
    PingRun.goAround (.delivery 0) [.getUnAcked, .getAckedSeq] ++
    [.reply (ICMPTrackerRun.sampleReply 1), .takeReply,
      .markReceived 20000000 20000000 20000000, .evTake (.delivery 0), .resolve true, .output]

def sampleMetadata : Store String String :=
  AList.insert "target" "192.0.2.1" (AList.insert "from" "us-lax1" ∅)

/-- Its two events are emitted. -/
theorem emitted_answeredTwice (rtts : List Int) (h : rtts = [10] ∨ rtts = [10, 20]) :
    ∃ itEnt : WrappedEV Nat, Emitted (some itEnt) ∧ itEnt.rttMilliSecs = rtts := by
  obtain ⟨s, hr, hp⟩ := System.exists_of_replay (PingRun.system PingRun.sampleConfig) Policy.any
    (fun s => s.output.map (Option.map ICMPTrackerEntry.rttMilliSecs) =
      [some [10], some [10, 20]]) answeredTwice (by decide +kernel)
  have hmem : some rtts ∈ s.output.map (Option.map ICMPTrackerEntry.rttMilliSecs) := by
    rw [of_decide_eq_true hp]
    rcases h with rfl | rfl
    · exact List.mem_cons_self
    · exact List.mem_cons_of_mem _ List.mem_cons_self
  obtain ⟨data, hdata, heq⟩ := List.mem_map.1 hmem
  obtain ⟨ev, rfl, hrtts⟩ := Option.map_eq_some_iff.1 heq
  refine ⟨ev.wrap Nat, ⟨PingRun.sampleConfig, s, hr, ?_⟩, hrtts⟩
  rw [Option.map_some, WrappedEV.plain_wrap]
  exact hdata

/-- The converters agree on an event exactly if its first and last reply look alike and took the
same time. -/
theorem converters_agree_iff {data : Option (WrappedEV F)} {metadata : Store String String}
    (hd : Emitted data) (ht : (metadata.lookup "target").getD "" ≠ "") :
    ConvertersAgree data metadata ↔ ∀ itEnt ∈ data, SameEnds itEnt := by
  have hraw := fromRaw_jsonEvent data ht
  cases data with
  | none =>
    refine iff_of_true ⟨⟨_, hraw, ⟨rfl, rfl, rfl, rfl, rfl, rfl⟩⟩, ?_, ?_⟩ ?_
    all_goals
      intro itEnt h
      cases h
  | some itEnt =>
    have heven := even_of_output hd
    constructor
    · rintro ⟨⟨ev, hev, hmatches⟩, -, -⟩ itEnt' h
      cases h
      rw [hraw] at hev
      cases hev
      exact (matches_iff heven).1 hmatches
    · intro h
      have hsame := h itEnt rfl
      refine ⟨⟨_, hraw, (matches_iff heven).2 hsame⟩, ?_, ?_⟩
      · intro itEnt' h hne
        cases h
        exact measured_botEvent heven hne hsame
      · intro itEnt' h hne ev hev
        cases h
        rw [hraw] at hev
        cases hev
        exact measured_ofData heven hne hsame

theorem converters_agree_once : ∃ itEnt : WrappedEV Nat, itEnt.rttMilliSecs = [10] ∧
    ConvertersAgree (some itEnt) sampleMetadata := by
  obtain ⟨itEnt, hd, hrtts⟩ := emitted_answeredTwice [10] (Or.inl rfl)
  have heven := even_of_output hd
  have hlen : itEnt.raw.length ≤ 1 := by
    rw [← (length_rtts heven).1, hrtts]
    exact Nat.le_refl 1
  refine ⟨itEnt, hrtts, (converters_agree_iff hd (by decide)).2 ?_⟩
  intro itEnt' h
  cases h
  exact sameEnds_of_length_le_one heven hlen

/-- Of two replies the bot shows the time of the second one, and the browser that of the first
one. -/
theorem converters_differ : ¬ ∀ (data : Option (WrappedEV Nat)) (metadata : Store String String),
    Emitted data → (metadata.lookup "target").getD "" ≠ "" → ConvertersAgree data metadata := by
  intro h
  obtain ⟨itEnt, hd, hrtts⟩ := emitted_answeredTwice [10, 20] (Or.inr rfl)
  obtain ⟨⟨ev, hev, hmatches⟩, -, -⟩ := h (some itEnt) sampleMetadata hd (by decide)
  rw [fromRaw_jsonEvent _ (by decide)] at hev
  cases hev
  have hrtt := hmatches.rttMs
  rw [(botEvent_frame itEnt sampleMetadata).2.2.1, Option.elim_some, (ofData_frame itEnt).2.2.1,
    hrtts] at hrtt
  cases hrtt

end CloudPing.Tui

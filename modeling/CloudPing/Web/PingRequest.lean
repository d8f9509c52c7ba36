import CloudPing.Ecma.URLSearchParams
import CloudPing.Handler.ClampBounds
import CloudPing.Handler.ProbeLedger
import CloudPing.Pinger.RelayFidelity

/-!
# The ping request of the browser

The browser writes a request into the parameters of a URL: of what may be left out, only what is
there and is no empty string, no number that is not positive, and not `false`.  The hub reads the
parameters, clamps the numbers, derives a request for each source and target, and sends it to the
agent of the source as a query again.

The hub reads what the browser asked for, or that the pattern of the TTL is none, and then each
agent reads its part of it, as clamped (`ping_request_reaches_agents`).
-/

namespace CloudPing.Web

open Ecma Handler Nodereg Pinger Utils
open Wire (Values)

/-- An integer that a number holds exactly. -/
structure SafeInteger where
  val : Int64
  safe : -(2 ^ 53 - 1) ≤ val.toInt ∧ val.toInt ≤ 2 ^ 53 - 1

/-- `toString` of a number that is an integer. -/
def SafeInteger.text (n : SafeInteger) : String := itoa n.val

inductive L4PacketType where
  | icmp
  | udp
  | tcp
  deriving DecidableEq

def L4PacketType.text : L4PacketType → String
  | .icmp => "icmp"
  | .udp => "udp"
  | .tcp => "tcp"

structure PingRequest where
  sources : List String
  targets : List String
  count : Option SafeInteger := none
  intervalMs : SafeInteger
  pktTimeoutMs : SafeInteger
  resolver : Option String := none
  ttl : Option String := none
  ipInfoProviderName : Option String := none
  preferV4 : Option Bool := none
  preferV6 : Option Bool := none
  l4PacketType : Option L4PacketType := none
  randomPayloadSize : Option SafeInteger := none

/-- A number that is set if it is positive. -/
def positive (o : Option SafeInteger) : Option SafeInteger := o.filter fun n => 0 < n.val.toInt

/-- What is set of a flag. -/
def flag (o : Option Bool) : Option Bool := o.filter id

def pingSampleParams (pingReq : PingRequest) : URLSearchParams :=
  let urlParams : URLSearchParams := {}
  let urlParams := urlParams.set "from" (joinCommas pingReq.sources)
  let urlParams := urlParams.set "targets" (joinCommas pingReq.targets)
  let urlParams := urlParams.setOption "count" ((positive pingReq.count).map SafeInteger.text)
  let urlParams := urlParams.set "intervalMs" pingReq.intervalMs.text
  let urlParams := urlParams.set "pktTimeoutMs" pingReq.pktTimeoutMs.text
  let urlParams := urlParams.setOption "resolver" (notEmpty pingReq.resolver)
  let urlParams := urlParams.setOption "ttl" (notEmpty pingReq.ttl)
  let urlParams := urlParams.setOption "ipInfoProviderName" (notEmpty pingReq.ipInfoProviderName)
  let urlParams := urlParams.setOption "preferV4" ((flag pingReq.preferV4).map formatBool)
  let urlParams := urlParams.setOption "preferV6" ((flag pingReq.preferV6).map formatBool)
  let urlParams := urlParams.setOption "l4PacketType" (pingReq.l4PacketType.map L4PacketType.text)
  urlParams.setOption "randomPayloadSize"
    ((positive pingReq.randomPayloadSize).map SafeInteger.text)

def getPingSampleStreamURL (apiEndpoint : List Char) (pingReq : PingRequest) : List Char :=
  apiEndpoint ++ "/ping?".toList ++ (pingSampleParams pingReq).text

/-- The query of a URL without a fragment. -/
def queryOf (url : List Char) : List Char := (url.dropWhile (· ≠ '?')).drop 1

theorem queryOf_url {apiEndpoint : List Char} (h : '?' ∉ apiEndpoint) (pingReq : PingRequest) :
    queryOf (getPingSampleStreamURL apiEndpoint pingReq) = (pingSampleParams pingReq).text := by
  have hpath : ∀ c ∈ apiEndpoint ++ "/ping".toList, (decide (c ≠ '?')) = true := by
    intro c hc
    refine decide_eq_true ?_
    rintro rfl
    rcases List.mem_append.1 hc with hc | hc
    · exact h hc
    · revert hc
      decide
  have hurl : getPingSampleStreamURL apiEndpoint pingReq =
      (apiEndpoint ++ "/ping".toList) ++ '?' :: (pingSampleParams pingReq).text := by
    have hlit : "/ping?".toList = "/ping".toList ++ ['?'] := by decide
    rw [getPingSampleStreamURL, hlit]
    simp only [List.append_assoc, List.singleton_append]
  rw [queryOf, hurl, List.dropWhile_append_of_pos hpath, List.dropWhile_cons,
    if_neg (by decide)]
  rfl

namespace PingRequest

/-- The TTL generator that is asked for. -/
def generator (pingReq : PingRequest) : Except RequestError (Option TTLGenerator) :=
  match notEmpty pingReq.ttl with
  | none => .ok none
  | some ttl => (failed "ttl" (TTLGenerator.parse ttl)).map some

theorem defaultTTLs_ne_nil : [defaultTTL] ≠ [] := List.cons_ne_nil _ _

/-- The request as a server has it. -/
def form (pingReq : PingRequest) (ttl : Option TTLGenerator) : SimplePingRequest where
  froms := pingReq.sources
  targets := pingReq.targets
  intvMilliseconds := pingReq.intervalMs.val
  pktTimeoutMilliseconds := pingReq.pktTimeoutMs.val
  preferV4 := flag pingReq.preferV4
  preferV6 := flag pingReq.preferV6
  totalPkts := (positive pingReq.count).map SafeInteger.val
  resolver := notEmpty pingReq.resolver
  ttl := some (ttl.getD (.ofInts [defaultTTL] defaultTTLs_ne_nil))
  randomPayloadSize := (positive pingReq.randomPayloadSize).map SafeInteger.val
  ipInfoProviderName := notEmpty pingReq.ipInfoProviderName
  l4PacketType := pingReq.l4PacketType.map L4PacketType.text

variable {pingReq : PingRequest} {vals : Values}

/-- Names in a list. -/
theorem listParam_joinCommas {l : List String} {key : String} (h : vals.all key = [joinCommas l])
    (hl : ∀ s ∈ l, IsEntry s) : listParam vals key = l := by
  by_cases hnil : l = []
  · have hempty : vals.get key = "" := by
      rw [Values.get, h, hnil]
      rfl
    rw [listParam, if_pos hempty, hnil]
  · refine listParam_of_joined ?_ hl
    rw [h, joined, if_neg hnil]
    rfl

/-- The hub reads the request of the browser. -/
theorem parse_params (hsources : ∀ s ∈ pingReq.sources, IsEntry s)
    (htargets : ∀ t ∈ pingReq.targets, IsEntry t) :
    parseSimplePingRequest (Values.parse (pingSampleParams pingReq).text) =
      pingReq.generator.map pingReq.form := by
  generalize hv : Values.parse (pingSampleParams pingReq).text = vals
  have hall : ∀ key, vals.all key = (pingSampleParams pingReq).getAll key := by
    intro key
    rw [← hv, URLSearchParams.all_parse_text]
  have number : ∀ (key what : String) (o : Option SafeInteger),
      (pingSampleParams pingReq).getAll key = (o.map SafeInteger.text).toList →
      parseParam vals key (parseNumber what) = .ok (o.map SafeInteger.val) := by
    intro key what o h
    have htext : vals.all key = ((o.map SafeInteger.val).map itoa).toList := by
      rw [hall, h, Option.map_map]
      rfl
    exact parseParam_of_toList htext fun n _ => ⟨itoa_ne_empty n, parseNumber_itoa what n⟩
  have truth : ∀ (key what : String) (o : Option Bool),
      (pingSampleParams pingReq).getAll key = (o.map formatBool).toList →
      parseParam vals key (parseTruth what) = .ok o := fun key what o h =>
    parseParam_of_toList ((hall key).trans h) fun b _ =>
      ⟨formatBool_ne_empty b, parseTruth_formatBool what b⟩
  have text : ∀ (key : String) (o : Option String),
      (pingSampleParams pingReq).getAll key = o.toList → stringParam vals key = notEmpty o :=
    fun key o h => stringParam_of_toList ((hall key).trans h)
  have hhttp : vals.all paramHTTPTarget = [] := (hall _).trans (by simp +decide [pingSampleParams])
  have hdns : vals.all paramDNSTarget = [] := (hall _).trans (by simp +decide [pingSampleParams])
  have hl7 := text paramL7PacketType none (by simp +decide [pingSampleParams])
  have hl4 := text paramL4PacketType (pingReq.l4PacketType.map L4PacketType.text)
    (by simp +decide [pingSampleParams])
  have hl3 := text paramL3PacketType none (by simp +decide [pingSampleParams])
  have hudp := number paramUDPDstPort "udp dst port" none (by simp +decide [pingSampleParams])
  have hinfo := text paramsIPInfoProviderName (notEmpty pingReq.ipInfoProviderName)
    (by simp +decide [pingSampleParams])
  have hsize := number paramRandomPayloadSize "random payload size"
    (positive pingReq.randomPayloadSize) (by simp +decide [pingSampleParams])
  have hcount := number paramCount "count" (positive pingReq.count)
    (by simp +decide [pingSampleParams])
  have hintv := number paramIntvMs "interval" (some pingReq.intervalMs)
    (by simp +decide [pingSampleParams])
  have htimeout := number paramPktTimeoutMs "pktTimeout" (some pingReq.pktTimeoutMs)
    (by simp +decide [pingSampleParams])
  have hv4 := truth paramPreferV4 "preferV4" (flag pingReq.preferV4)
    (by simp +decide [pingSampleParams])
  have hv6 := truth paramPreferV6 "preferV6" (flag pingReq.preferV6)
    (by simp +decide [pingSampleParams])
  have hresolver := text paramResolver (notEmpty pingReq.resolver)
    (by simp +decide [pingSampleParams])
  have hfroms : listParam vals paramFrom = pingReq.sources :=
    listParam_joinCommas ((hall _).trans (by simp +decide [pingSampleParams])) hsources
  have hdsts : listParam vals paramTargets = pingReq.targets :=
    listParam_joinCommas ((hall _).trans (by simp +decide [pingSampleParams])) htargets
  have httl : parseParam vals paramTTL (fun ttl => failed "ttl" (TTLGenerator.parse ttl)) =
      pingReq.generator := by
    have hget : vals.get paramTTL = (notEmpty pingReq.ttl).getD "" :=
      get_of_toList ((hall _).trans (by simp +decide [pingSampleParams]))
    rw [parseParam, hget, generator]
    cases hn : notEmpty pingReq.ttl with
    | none => rfl
    | some ttl =>
      have hne : ttl ≠ "" := of_decide_eq_true (Option.filter_eq_some_iff.1 hn).2
      rw [Option.getD_some, if_neg hne]
  have hname : notEmpty (pingReq.l4PacketType.map L4PacketType.text) =
      pingReq.l4PacketType.map L4PacketType.text := by
    cases pingReq.l4PacketType with
    | none => rfl
    | some l4PacketType => cases l4PacketType <;> rfl
  simp only [parseSimplePingRequest, hhttp, hdns, hl7, hl4, hl3, hudp, hinfo, hsize, hcount, hintv,
    htimeout, hv4, hv6, hresolver, hfroms, hdsts, httl, hname, notEmpty_notEmpty]
  cases pingReq.generator with
  | error e => rfl
  | ok ttl =>
    have hor : (pingReq.l4PacketType.map L4PacketType.text <|> notEmpty none) =
        pingReq.l4PacketType.map L4PacketType.text := by
      cases pingReq.l4PacketType <;> rfl
    rw [hor]
    rfl

/-! ## The hub -/

/-- The pattern of the TTL is a range on which `ParseInts` does not return. -/
def hangs : RequestError → Bool
  | .failedToParse _ (.ints .endless) => true
  | .failedToParse _ (.rangeTTL .endless) => true
  | _ => false

/-- What the hub makes of a query, if it comes to an end with it. -/
def serveQuery (handler : PingTaskHandler) (net : Net) (remoteAddr : String)
    (walks : Nat → Nat → Option (List ConnRegistryData)) (errText : RequestError → String)
    (query : List Char) : Option TaskResponse :=
  match parseSimplePingRequest (Values.parse query) with
  | .ok form => some (handler.serveHTTP net remoteAddr walks (.ok form))
  | .error e =>
    if hangs e then none
    else some (handler.serveHTTP net remoteAddr walks (.error (errText e)))

/-- The part of a request for one source and one target, after the clamps. -/
def share (handler : PingTaskHandler) (pingReq : PingRequest) (ttl : Option TTLGenerator)
    (source target : String) : SimplePingRequest :=
  { clampForm handler (pingReq.form ttl) with froms := [source], targets := [target] }

/-- The request is within the clamps, and its durations do not wrap. -/
structure Within (handler : PingTaskHandler) (pingReq : PingRequest) : Prop where
  interval : ∀ d ∈ handler.minPktInterval, milliseconds d ≤ pingReq.intervalMs.val
  intervalFits : Word.Fits (pingReq.intervalMs.val.toInt * 1000000)
  timeout : ∀ d ∈ handler.maxPktTimeout, pingReq.pktTimeoutMs.val ≤ milliseconds d
  timeoutFits : Word.Fits (pingReq.pktTimeoutMs.val.toInt * 1000000)
  count : ∀ clamp ∈ handler.pktCountClamp, ∃ n ∈ positive pingReq.count, n.val ≤ clamp

variable {handler : PingTaskHandler} {net : Net} {remoteAddr : String}
  {walks : Nat → Nat → Option (List ConnRegistryData)} {ttl : Option TTLGenerator}

/-- Milliseconds of a duration that does not wrap. -/
theorem milliseconds_mul {n : Int64} (h : Word.Fits (n.toInt * 1000000)) :
    milliseconds (n * millisecond) = n := by
  rw [← Int64.toInt_inj, toInt_milliseconds_mul, Word.bmod_of_fits h]
  exact Int.mul_tdiv_cancel _ (by decide)

namespace Within

theorem pktIntv_eq (h : Within handler pingReq) (ttl : Option TTLGenerator) :
    getRealPktIntv (pingReq.form ttl) handler.minPktInterval =
      pingReq.intervalMs.val * millisecond := by
  cases hmin : handler.minPktInterval with
  | none => rfl
  | some d =>
    rw [getRealPktIntv]
    have hle := Int64.le_iff_toInt_le.1 (h.interval d hmin)
    have hnlt : ¬ pingReq.intervalMs.val < milliseconds d := fun hlt =>
      Int.not_lt.2 hle (Int64.lt_iff_toInt_lt.1 hlt)
    exact congrArg (· * millisecond) (if_neg hnlt)

theorem pktTimeout_eq (h : Within handler pingReq) (ttl : Option TTLGenerator) :
    getRealPktTimeout (pingReq.form ttl) handler.maxPktTimeout =
      pingReq.pktTimeoutMs.val * millisecond := by
  cases hmax : handler.maxPktTimeout with
  | none => rfl
  | some d =>
    rw [getRealPktTimeout]
    have hle := Int64.le_iff_toInt_le.1 (h.timeout d hmax)
    have hnlt : ¬ pingReq.pktTimeoutMs.val > milliseconds d := fun hlt =>
      Int.not_lt.2 hle (Int64.lt_iff_toInt_lt.1 hlt)
    exact congrArg (· * millisecond) (if_neg hnlt)

theorem totalPkts_eq (h : Within handler pingReq) (ttl : Option TTLGenerator) :
    clampTotalPkts (pingReq.form ttl).totalPkts handler.pktCountClamp =
      (pingReq.form ttl).totalPkts := by
  cases hclamp : handler.pktCountClamp with
  | none => rfl
  | some clamp =>
    obtain ⟨n, hn, hle⟩ := h.count clamp hclamp
    have hcount : (pingReq.form ttl).totalPkts = some n.val :=
      congrArg (Option.map SafeInteger.val) hn
    have hnlt : ¬ n.val > clamp := fun hlt =>
      Int.not_lt.2 (Int64.le_iff_toInt_le.1 hle) (Int64.lt_iff_toInt_lt.1 hlt)
    rw [hcount, clampTotalPkts]
    exact if_neg hnlt

/-- A request within the clamps is not changed. -/
theorem clampForm_eq (h : Within handler pingReq) (ttl : Option TTLGenerator) :
    clampForm handler (pingReq.form ttl) = pingReq.form ttl := by
  rw [clampForm, h.pktIntv_eq, h.pktTimeout_eq, h.totalPkts_eq, milliseconds_mul h.intervalFits,
    milliseconds_mul h.timeoutFits]
  rfl

end Within

/-- What the hub sends for a request reaches the agents. -/
structure Reaches (handler : PingTaskHandler) (net : Net) (remoteAddr : String)
    (walks : Nat → Nat → Option (List ConnRegistryData)) (pingReq : PingRequest)
    (ttl : Option TTLGenerator) (response : TaskResponse) : Prop where
  /-- Each agent that is asked reads the part of the request for its name and a target. -/
  asked : ∀ started ∈ response.started,
    ∃ source ∈ pingReq.sources, ∃ target ∈ pingReq.targets, started.1.nodeName = source ∧
      parseSimplePingRequest (Values.parse started.1.request.toURLValues.encode) =
        .ok (share handler pingReq ttl source target)
  /-- An agent that the hub finds is asked about each target that passes the checks. -/
  accepted : ∀ a ∈ (handler.context net remoteAddr (pingReq.form ttl)).attempts walks,
    (handler.context net remoteAddr (pingReq.form ttl)).Accepts a →
      ∃ target ∈ pingReq.targets, a.probe = .ping target ∧
        ∃ started ∈ response.started, started.1.nodeName = a.from_ ∧
          parseSimplePingRequest (Values.parse started.1.request.toURLValues.encode) =
            .ok (share handler pingReq ttl a.from_ target)
  /-- A request within the clamps is not changed. -/
  within : Within handler pingReq → ∀ source target, share handler pingReq ttl source target =
    { pingReq.form ttl with froms := [source], targets := [target] }

/-- An agent reads its part of the request. -/
theorem parse_share (hsources : ∀ s ∈ pingReq.sources, IsEntry s)
    (htargets : ∀ t ∈ pingReq.targets, IsEntry t) (httl : pingReq.generator = .ok ttl)
    {source target : String} (hsource : source ∈ pingReq.sources)
    (htarget : target ∈ pingReq.targets) :
    parseSimplePingRequest
        (Values.parse (share handler pingReq ttl source target).toURLValues.encode) =
      .ok (share handler pingReq ttl source target) := by
  have hparse := parse_params hsources htargets
  rw [httl] at hparse
  have hrelayable := (SimplePingRequest.relayable_of_parse hparse).withNumbers
    (clampForm handler (pingReq.form ttl)).intvMilliseconds
    (clampForm handler (pingReq.form ttl)).pktTimeoutMilliseconds
    (clampForm handler (pingReq.form ttl)).totalPkts
  exact (hrelayable.derived (.ping hsource htarget)).parse_encode

theorem reaches_serveHTTP (hsources : ∀ s ∈ pingReq.sources, IsEntry s)
    (htargets : ∀ t ∈ pingReq.targets, IsEntry t) (httl : pingReq.generator = .ok ttl) :
    Reaches handler net remoteAddr walks pingReq ttl
      (handler.serveHTTP net remoteAddr walks (.ok (pingReq.form ttl))) where
  asked started hstarted := by
    obtain ⟨a, ha, hok⟩ := PingTaskHandler.attempt_of_started rfl rfl hstarted
    obtain ⟨hsource, target, htarget, hprobe⟩ := PingTaskHandler.ping_of_attempt rfl ha
    obtain ⟨hnode, hrequest⟩ := TaskContext.carries_of_ok hok
    refine ⟨a.from_, hsource, target, htarget, hnode, ?_⟩
    rw [hrequest, hprobe]
    exact parse_share hsources htargets httl hsource htarget
  accepted a ha haccepts := by
    obtain ⟨hsource, target, htarget, hprobe⟩ := PingTaskHandler.ping_of_attempt rfl ha
    obtain ⟨started, hstarted, hnode, hrequest⟩ :=
      PingTaskHandler.started_of_accepted rfl rfl ha haccepts
    refine ⟨target, htarget, hprobe, started, hstarted, hnode, ?_⟩
    rw [hrequest, hprobe]
    exact parse_share hsources htargets httl hsource htarget
  within hwithin source target := by rw [share, hwithin.clampForm_eq]

/-- The hub reads what the browser asked for, unless the pattern of the TTL is none, and each agent
reads its part of it. -/
theorem ping_request_reaches_agents (handler : PingTaskHandler) (net : Net) (remoteAddr : String)
    (walks : Nat → Nat → Option (List ConnRegistryData)) (errText : RequestError → String)
    (pingReq : PingRequest) {apiEndpoint : List Char}
    (hendpoint : '?' ∉ apiEndpoint) (hsources : ∀ s ∈ pingReq.sources, IsEntry s)
    (htargets : ∀ t ∈ pingReq.targets, IsEntry t) :
    (∀ e, pingReq.generator = .error e →
      serveQuery handler net remoteAddr walks errText
          (queryOf (getPingSampleStreamURL apiEndpoint pingReq)) =
        if hangs e then none else some { errors := [errText e] }) ∧
    ∀ ttl, pingReq.generator = .ok ttl →
      parseSimplePingRequest
          (Values.parse (queryOf (getPingSampleStreamURL apiEndpoint pingReq))) =
        .ok (pingReq.form ttl) ∧
      ∃ response, serveQuery handler net remoteAddr walks errText
          (queryOf (getPingSampleStreamURL apiEndpoint pingReq)) = some response ∧
        Reaches handler net remoteAddr walks pingReq ttl response := by
  have hparse := parse_params hsources htargets
  rw [queryOf_url hendpoint]
  constructor
  · intro e he
    rw [he] at hparse
    rw [serveQuery, hparse]
    rfl
  · intro ttl httl
    rw [httl] at hparse
    refine ⟨hparse, _, ?_, reaches_serveHTTP hsources htargets httl⟩
    rw [serveQuery, hparse]
    rfl

/-- A traceroute to two targets. -/
def trace : PingRequest where
  sources := ["node"]
  targets := ["1.1.1.1", "2606:4700::1111"]
  count := some ⟨0, by decide⟩
  intervalMs := ⟨300, by decide⟩
  pktTimeoutMs := ⟨3000, by decide⟩
  resolver := some ""
  ttl := some "auto(3)"
  preferV4 := some false
  preferV6 := some true
  l4PacketType := some .udp

theorem isEntry_trace :
    (∀ s ∈ trace.sources, IsEntry s) ∧ ∀ t ∈ trace.targets, IsEntry t := by
  simp only [trace, List.forall_mem_cons]
  exact ⟨⟨SimplePingRequest.isEntry_of_all (by decide) (by decide), by simp⟩,
    SimplePingRequest.isEntry_of_all (by decide) (by decide),
    SimplePingRequest.isEntry_of_all (by decide) (by decide), by simp⟩

/-- A hub that asks for a second between packets sends two queries with that interval. -/
theorem ping_request_reaches_agents_trace :
    ∃ response, serveQuery PingTaskHandler.boundedHandler PingTaskHandler.deafNet "192.0.2.9"
        (fun _ _ => some [PingTaskHandler.pingAgent]) (fun _ => "")
        (queryOf (getPingSampleStreamURL "/api".toList trace)) = some response ∧
      response.started.length = 2 ∧
      ∀ started ∈ response.started, ∃ target ∈ trace.targets, started.1.nodeName = "node" ∧
        parseSimplePingRequest (Values.parse started.1.request.toURLValues.encode) =
          .ok { trace.form (some (.auto 3 3)) with
            froms := ["node"], targets := [target], intvMilliseconds := 1000 } := by
  have hgenerator : trace.generator = .ok (some (.auto 3 3)) := rfl
  obtain ⟨hsources, htargets⟩ := isEntry_trace
  obtain ⟨hparse, response, hserve, hreaches⟩ :=
    (ping_request_reaches_agents PingTaskHandler.boundedHandler PingTaskHandler.deafNet
      "192.0.2.9" (fun _ _ => some [PingTaskHandler.pingAgent]) (fun _ => "") trace
      (by decide : '?' ∉ "/api".toList) hsources htargets).2 _ hgenerator
  refine ⟨response, hserve, ?_, fun started hstarted => ?_⟩
  · rw [serveQuery, hparse] at hserve
    rw [← Option.some.inj hserve]
    decide +kernel
  · obtain ⟨source, hsource, target, htarget, hnode, hread⟩ := hreaches.asked started hstarted
    obtain rfl := List.mem_singleton.1 hsource
    exact ⟨target, htarget, hnode, hread⟩

end PingRequest

end CloudPing.Web

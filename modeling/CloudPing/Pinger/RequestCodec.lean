import CloudPing.Pinger.TargetJSON
import CloudPing.Utils.Parse
import CloudPing.Wire.Query

/-!
# Requests in queries

`ToURLValues` writes a request into the values of a query and `ParseSimplePingRequest`
reads it from them.  Each is a list of the fields, one behind another, and nothing but
`parse_toURLValues` makes the lists agree.

They do not agree on `resolveTimeoutMilliseconds`, which is written and never read.  A
pointer to an empty string is read as nil (`SimplePingRequest.canonical`).  The reader
takes fewer requests than the writer writes: an HTTP protocol must be one of three, and an
automatic TTL must not start below zero (`SimplePingRequest.Accepted`).

On the way the values are a query string, which `Values.parse` reads as `URL.Query` does.
-/

namespace CloudPing.Pinger

open Utils
open Wire (Values bind_eq_ok mapError_eq_ok mapM_map_eq_ok forall_of_mapM_eq_ok)

/-! ## Parameters -/

def paramTargets : String := "targets"
def paramFrom : String := "from"
def paramCount : String := "count"
def paramIntvMs : String := "intervalMs"
def paramPktTimeoutMs : String := "pktTimeoutMs"
def paramTTL : String := "ttl"
def paramPreferV4 : String := "preferV4"
def paramPreferV6 : String := "preferV6"
def paramResolver : String := "resolver"
def paramRandomPayloadSize : String := "randomPayloadSize"
def paramDestination : String := "destination"
def paramResolveTimeoutMilliseconds : String := "resolveTimeoutMilliseconds"
def paramsIPInfoProviderName : String := "ipInfoProviderName"
def paramL4PacketType : String := "l4PacketType"
def paramL7PacketType : String := "l7PacketType"
def paramDNSTarget : String := "dnsTarget"
def paramHTTPTarget : String := "httpTarget"
def paramL3PacketType : String := "l3PacketType"
def paramUDPDstPort : String := "udpDstPort"

def defaultTTL : Int64 := 64

/-! ## Errors -/

/-- What is wrong with the text of a parameter. -/
inductive Cause where
  /-- The error of `json.Unmarshal`. -/
  | json
  | num (err : NumError)
  | ints (err : ParseIntsError)
  /-- "failed to parse auto ttl", of the number. -/
  | autoTTLStart (err : NumError)
  /-- "failed to parse auto ttl", of the string. -/
  | autoTTL (s : String)
  /-- "failed to parse range ttl". -/
  | rangeTTL (err : ParseIntsError)
  deriving DecidableEq, Repr

/-- The errors of `ParseSimplePingRequest`. -/
inductive RequestError where
  /-- "failed to parse" and the name of what was to be parsed. -/
  | failedToParse (what : String) (cause : Cause)
  /-- "unacceptable http proto", with the allowed ones. -/
  | unacceptableHTTPProto (proto : String) (allowed : List String)
  deriving DecidableEq, Repr

/-! ## TTL generators -/

namespace TTLGenerator

/-- `String`. -/
def string : TTLGenerator → String
  | .auto start _ => "auto(" ++ String.ofList (Wire.decimal start) ++ ")"
  | .range ttls _ => joinCommas (ttls.map fun ttl => String.ofList (Wire.decimal ttl))

/-- `RangeTTL` of the numbers, of which there is one. -/
def ofInts (ints : List Int64) (h : ints ≠ []) : TTLGenerator :=
  .range (ints.map Int64.toInt) ⟨0, by simpa [List.length_pos_iff] using h⟩

/-- `^auto\((\d+)\)$`. -/
def autoPattern (s : String) : Option String := do
  let cs ← behind "auto(".toList s.toList
  let (start, cs) ← digits cs
  if cs = [')'] then some start else none

def parseToAutoTTL (s : String) : Except Cause TTLGenerator :=
  if s = "auto" then .ok (.auto 1 1)
  else
    match autoPattern s with
    | some start => do
      let start ← (atoi start).mapError .autoTTLStart
      return .auto start.toInt start.toInt
    | none => .error (.autoTTL s)

/-- The generator of what `ParseInts` returns. -/
def parseRange (s : String) (cause : ParseIntsError → Cause) : Except Cause TTLGenerator :=
  match h : parseInts s with
  | .ok ints => .ok (ofInts ints (ne_nil_of_parseInts h))
  | .error err => .error (cause err)

/-- The value of the TTL parameter, if it is not empty. -/
def parse (ttl : String) : Except Cause TTLGenerator :=
  if "auto(".toList.isPrefixOf ttl.toList ∨ ttl = "auto" then parseToAutoTTL ttl
  else if "range(".toList.isPrefixOf ttl.toList then parseRange ttl .rangeTTL
  else parseRange ttl .ints

end TTLGenerator

/-! ## Reading a request -/

def failed {α : Type} (what : String) (x : Except Cause α) : Except RequestError α :=
  x.mapError (.failedToParse what)

/-- A parameter that is parsed if it is not empty. -/
def parseParam {α : Type} (query : Values) (key : String)
    (parse : String → Except RequestError α) : Except RequestError (Option α) :=
  if query.get key = "" then .ok none else (parse (query.get key)).map some

/-- A parameter that is taken as it is if it is not empty. -/
def stringParam (query : Values) (key : String) : Option String :=
  if query.get key = "" then none else some (query.get key)

/-- The segments of a parameter, without those that are empty. -/
def listParam (query : Values) (key : String) : List String :=
  if query.get key = "" then []
  else ((split (query.get key) ',').map trimSpace).filter fun seg => seg ≠ ""

def parseNumber (what s : String) : Except RequestError Int64 :=
  failed what ((atoi s).mapError .num)

def parseTruth (what s : String) : Except RequestError Bool :=
  failed what ((parseBool s).mapError .num)

def parseHTTPTarget (tgt : String) : Except RequestError HTTPTarget :=
  match HTTPTarget.unmarshal tgt with
  | none => failed "http target" (.error .json)
  | some tgtObject =>
    match tgtObject.proto with
    | some proto =>
      if proto ∈ Httpprobe.acceptableHTTPProtos then .ok tgtObject
      else .error (.unacceptableHTTPProto proto Httpprobe.acceptableHTTPProtos)
    | none => .ok tgtObject

def parseDNSTarget (tgt : String) : Except RequestError LookupParameter :=
  match LookupParameter.unmarshal tgt with
  | none => failed "dns target" (.error .json)
  | some dnsProbeTarget => .ok dnsProbeTarget

def parseSimplePingRequest (query : Values) : Except RequestError SimplePingRequest := do
  let httpTargets ← (query.all paramHTTPTarget).mapM parseHTTPTarget
  let dnsTargets ← (query.all paramDNSTarget).mapM parseDNSTarget
  let l7PacketType := stringParam query paramL7PacketType
  -- The old name of the parameter counts where the new one is missing.
  let l4PacketType := stringParam query paramL4PacketType <|> stringParam query paramL3PacketType
  let udpDstPort ← parseParam query paramUDPDstPort (parseNumber "udp dst port")
  let ipInfoProviderName := stringParam query paramsIPInfoProviderName
  let randomPayloadSize ← parseParam query paramRandomPayloadSize (parseNumber "random payload size")
  let targets := listParam query paramTargets
  let froms := listParam query paramFrom
  let totalPkts ← parseParam query paramCount (parseNumber "count")
  let intvMilliseconds ← parseParam query paramIntvMs (parseNumber "interval")
  let pktTimeoutMilliseconds ← parseParam query paramPktTimeoutMs (parseNumber "pktTimeout")
  let ttl ← parseParam query paramTTL fun ttl => failed "ttl" (TTLGenerator.parse ttl)
  let preferV4 ← parseParam query paramPreferV4 (parseTruth "preferV4")
  let preferV6 ← parseParam query paramPreferV6 (parseTruth "preferV6")
  let resolver := stringParam query paramResolver
  return {
    froms, targets, preferV4, preferV6, totalPkts, resolver, randomPayloadSize
    ipInfoProviderName, l4PacketType, l7PacketType, dnsTargets, httpTargets, udpDstPort
    intvMilliseconds := intvMilliseconds.getD 1000
    pktTimeoutMilliseconds := pktTimeoutMilliseconds.getD 3000
    ttl := some (ttl.getD (.ofInts [defaultTTL] (by decide))) }

/-! ## Writing a request -/

/-- A string that is written if it is not empty. -/
def notEmpty (o : Option String) : Option String := o.filter fun s => s ≠ ""

/-- A list that is written if it is not empty. -/
def joined (l : List String) : Option String := if l = [] then none else some (joinCommas l)

namespace SimplePingRequest

def toURLValues (pr : SimplePingRequest) : Values :=
  let vals := Values.empty.addOption paramTargets (joined pr.targets)
  -- The old name of the parameter, for one target.
  let vals := vals.setOption paramDestination (notEmpty (pr.targets.head?.map trimSpace))
  let vals := vals.addOption paramFrom (joined pr.froms)
  let vals := vals.add paramIntvMs (itoa pr.intvMilliseconds)
  let vals := vals.add paramPktTimeoutMs (itoa pr.pktTimeoutMilliseconds)
  let vals := vals.addOption paramPreferV4 (pr.preferV4.map formatBool)
  let vals := vals.addOption paramPreferV6 (pr.preferV6.map formatBool)
  let vals := vals.addOption paramCount (pr.totalPkts.map itoa)
  let vals := vals.addOption paramResolver pr.resolver
  let vals := vals.addOption paramTTL (pr.ttl.map TTLGenerator.string)
  let vals := vals.addOption paramResolveTimeoutMilliseconds
    (pr.resolveTimeoutMilliseconds.map itoa)
  let vals := vals.addOption paramRandomPayloadSize (pr.randomPayloadSize.map itoa)
  let vals := vals.addOption paramsIPInfoProviderName (notEmpty pr.ipInfoProviderName)
  let vals := vals.addOption paramL3PacketType (notEmpty pr.l4PacketType)
  let vals := vals.addOption paramL4PacketType (notEmpty pr.l4PacketType)
  let vals := vals.addOption paramUDPDstPort (pr.udpDstPort.map itoa)
  let vals := vals.addOption paramL7PacketType (notEmpty pr.l7PacketType)
  let vals := vals.addAll paramDNSTarget (pr.dnsTargets.map LookupParameter.marshal)
  vals.addAll paramHTTPTarget (pr.httpTargets.map HTTPTarget.marshal)

/-- What a reader sees of the strings: a pointer to an empty one is nil. -/
def canonical (pr : SimplePingRequest) : SimplePingRequest :=
  { pr with
    resolver := notEmpty pr.resolver
    ipInfoProviderName := notEmpty pr.ipInfoProviderName
    l4PacketType := notEmpty pr.l4PacketType
    l7PacketType := notEmpty pr.l7PacketType }

end SimplePingRequest

/-! ## Parameters that were written -/

variable {vals : Values} {key : String}

theorem get_of_toList {o : Option String} (h : vals.all key = o.toList) :
    vals.get key = o.getD "" := by
  rw [Values.get, h]
  cases o <;> rfl

/-- A field with a text that is not empty. -/
theorem parseParam_of_toList {α : Type} {parse : String → Except RequestError α} {o : Option α}
    {text : α → String} (h : vals.all key = (o.map text).toList)
    (hp : ∀ a ∈ o, text a ≠ "" ∧ parse (text a) = .ok a) : parseParam vals key parse = .ok o := by
  rw [parseParam, get_of_toList h]
  cases o with
  | none => rfl
  | some a =>
    obtain ⟨hne, ha⟩ := hp a rfl
    simp only [Option.map_some, Option.getD_some, if_neg hne, ha]
    rfl

theorem stringParam_of_toList {o : Option String} (h : vals.all key = o.toList) :
    stringParam vals key = notEmpty o := by
  rw [stringParam, get_of_toList h]
  cases o with
  | none => rfl
  | some s =>
    simp only [Option.getD_some, notEmpty, Option.filter_some, decide_not, Bool.not_eq_true',
      decide_eq_false_iff_not, ite_not]

theorem notEmpty_notEmpty (o : Option String) : notEmpty (notEmpty o) = notEmpty o := by
  rw [notEmpty, notEmpty, Option.filter_filter]
  simp

/-- An element of a list in a parameter: it is not empty, trimmed, and without commas. -/
structure IsEntry (s : String) : Prop where
  ne_empty : s ≠ ""
  trimmed : trimSpace s = s
  no_comma : ',' ∉ s.toList

theorem joinCommas_ne_empty {l : List String} (hne : l ≠ []) (h : ∀ s ∈ l, IsEntry s) :
    joinCommas l ≠ "" := by
  cases l with
  | nil => exact absurd rfl hne
  | cons s l =>
    have hs := (h s List.mem_cons_self).ne_empty
    cases l with
    | nil => rwa [joinCommas, String.intercalate_singleton]
    | cons s' l =>
      rw [joinCommas, String.intercalate_cons_cons]
      intro he
      rw [String.append_assoc, String.append_eq_empty_iff] at he
      exact hs he.1

/-- A list of entries is read. -/
theorem listParam_of_joined {l : List String} (h : vals.all key = (joined l).toList)
    (hl : ∀ s ∈ l, IsEntry s) : listParam vals key = l := by
  rw [listParam, get_of_toList h, joined]
  by_cases hne : l = []
  · rw [if_pos hne, Option.getD_none, if_pos rfl, hne]
  · have htrim : l.map trimSpace = l :=
      (List.map_congr_left fun s hs => (hl s hs).trimmed).trans (List.map_id l)
    have hfilter : l.filter (fun seg => seg ≠ "") = l :=
      List.filter_eq_self.2 fun s hs => by simpa using (hl s hs).ne_empty
    rw [if_neg hne, Option.getD_some, if_neg (joinCommas_ne_empty hne hl),
      split_joinCommas hne fun s hs => (hl s hs).no_comma, htrim, hfilter]

/-- What a list is read as are entries. -/
theorem isEntry_of_mem_listParam {s : String} (h : s ∈ listParam vals key) : IsEntry s := by
  rw [listParam] at h
  split at h
  · cases h
  · obtain ⟨h, hne⟩ := List.mem_filter.1 h
    obtain ⟨seg, hseg, rfl⟩ := List.mem_map.1 h
    obtain ⟨cs, hcs, rfl⟩ := List.mem_map.1 hseg
    refine ⟨by simpa using hne, trimSpace_trimSpace _, fun hc => ?_⟩
    have := mem_of_mem_trimSpace hc
    rw [String.toList_ofList] at this
    exact not_mem_of_mem_splitChars hcs this

/-! ## TTL generators that were written -/

namespace TTLGenerator

/-- The numbers are machine integers. -/
def Representable : TTLGenerator → Prop
  | .auto start _ => ∃ n : Int64, start = n.toInt
  | .range ttls _ => ∃ l : List Int64, ttls = l.map Int64.toInt

/-- An automatic TTL does not start below zero. -/
def Accepted : TTLGenerator → Prop
  | .auto start _ => 0 ≤ start
  | .range _ _ => True

theorem parseRange_of_ok {s : String} {ints : List Int64} (h : parseInts s = .ok ints)
    (cause : ParseIntsError → Cause) :
    parseRange s cause = .ok (ofInts ints (ne_nil_of_parseInts h)) := by
  unfold parseRange
  split
  · next ints' h' =>
    obtain rfl := Except.ok.inj (h.symm.trans h')
    rfl
  · next err h' => cases h.symm.trans h'

theorem autoPattern_auto (n : Nat) :
    autoPattern ("auto(" ++ String.ofList (Nat.toDigits 10 n) ++ ")") =
      some (String.ofList (Nat.toDigits 10 n)) := by
  have hs : ("auto(" ++ String.ofList (Nat.toDigits 10 n) ++ ")").toList =
      "auto(".toList ++ (Nat.toDigits 10 n ++ [')']) := by
    simp only [String.toList_append, String.toList_ofList, List.append_assoc]
    rfl
  have hd : digits (Nat.toDigits 10 n ++ [')']) =
      some (String.ofList (Nat.toDigits 10 n), [')']) := by
    refine digits_append Nat.toDigits_ne_nil (fun c hc => Wire.isDigit_of_mem_toDigits hc)
      fun c hc => ?_
    obtain rfl := Option.some.inj hc
    rfl
  rw [autoPattern, hs, behind_append]
  show (digits (Nat.toDigits 10 n ++ [')']) >>= _) = _
  rw [hd]
  rfl

theorem parse_auto {n : Int64} (hn : 0 ≤ n.toInt) :
    parse (string (.auto n.toInt n.toInt)) = .ok (.auto n.toInt n.toInt) := by
  obtain ⟨m, hm⟩ := Int.eq_ofNat_of_zero_le hn
  have hs : string (.auto n.toInt n.toInt) =
      "auto(" ++ String.ofList (Nat.toDigits 10 m) ++ ")" := by
    rw [string, hm, Wire.decimal_natCast]
  have hpre : "auto(".toList.isPrefixOf (string (.auto n.toInt n.toInt)).toList = true := by
    rw [hs, String.append_assoc, String.toList_append]
    simp
  have hne : string (.auto n.toInt n.toInt) ≠ "auto" := by
    intro h
    rw [h] at hpre
    exact absurd hpre (by decide)
  have hatoi : atoi (String.ofList (Nat.toDigits 10 m)) = .ok n := by
    have := atoi_itoa n
    rwa [itoa, hm, Wire.decimal_natCast] at this
  rw [parse, if_pos (Or.inl hpre), parseToAutoTTL, if_neg hne, hs, autoPattern_auto]
  simp only [hatoi]
  rfl

/-- A start below zero is written and not read. -/
theorem parse_auto_of_neg {start next : Int} (h : start < 0) :
    parse (string (.auto start next)) = .error (.autoTTL (string (.auto start next))) := by
  obtain ⟨m, rfl⟩ := Int.eq_negSucc_of_lt_zero h
  have hl : (string (.auto (.negSucc m) next)).toList =
      "auto(".toList ++ '-' :: (Nat.toDigits 10 (m + 1) ++ [')']) := by
    simp only [string, String.toList_append, String.toList_ofList, List.append_assoc, Wire.decimal]
    rfl
  have hpre : "auto(".toList.isPrefixOf (string (.auto (.negSucc m) next)).toList = true := by
    rw [hl]
    simp
  have hne : string (.auto (.negSucc m) next) ≠ "auto" := by
    intro h
    rw [h] at hpre
    exact absurd hpre (by decide)
  have hpat : autoPattern (string (.auto (.negSucc m) next)) = none := by
    rw [autoPattern, hl, behind_append]
    rfl
  rw [parse, if_pos (Or.inl hpre), parseToAutoTTL, if_neg hne, hpat]

theorem parse_range {l : List Int64} (hne : l ≠ []) :
    parse (joinCommas (l.map itoa)) = .ok (ofInts l hne) := by
  have hpre : ∀ (w : Char) (ws : List Char), w.isDigit = false → w ≠ '-' →
      ¬ (w :: ws).isPrefixOf (joinCommas (l.map itoa)).toList = true := by
    intro w ws hw hm hpre
    have := behind_joinCommas hne ws hw hm
    rw [behind, if_pos hpre] at this
    cases this
  have hauto : ¬ ("auto(".toList.isPrefixOf (joinCommas (l.map itoa)).toList = true ∨
      joinCommas (l.map itoa) = "auto") := by
    rintro (h | h)
    · exact hpre 'a' "uto(".toList rfl (by decide) h
    · exact hpre 'a' "uto".toList rfl (by decide) (by rw [h]; decide)
  have hrange : ¬ "range(".toList.isPrefixOf (joinCommas (l.map itoa)).toList = true :=
    hpre 'r' "ange(".toList rfl (by decide)
  rw [parse, if_neg hauto, if_neg hrange, parseRange_of_ok (parseInts_joinCommas hne)]

/-- A generator in its start state is read. -/
theorem parse_string {g : TTLGenerator} (hs : g.reset = g) (hr : g.Representable)
    (ha : g.Accepted) : parse g.string = .ok g := by
  cases g with
  | auto start next =>
    obtain ⟨n, rfl⟩ := hr
    obtain rfl : n.toInt = next := (TTLGenerator.auto.inj hs).2
    exact parse_auto ha
  | range ttls idx =>
    obtain ⟨l, rfl⟩ := hr
    have hne : l ≠ [] := by
      rintro rfl
      exact idx.elim0
    have hstr : string (.range (l.map Int64.toInt) idx) = joinCommas (l.map itoa) := by
      rw [string, List.map_map]
      rfl
    rw [hstr, parse_range hne, ← hs]
    rfl

theorem string_ne_empty {g : TTLGenerator} (hr : g.Representable) : g.string ≠ "" := by
  intro h
  cases g with
  | auto start next =>
    rw [string, String.append_assoc, String.append_eq_empty_iff] at h
    exact absurd h.1 (by decide)
  | range ttls idx =>
    obtain ⟨l, rfl⟩ := hr
    have hne : l ≠ [] := by
      rintro rfl
      exact idx.elim0
    obtain ⟨c, cs, hcs, _⟩ := head_joinCommas hne
    have hstr : string (.range (l.map Int64.toInt) idx) = joinCommas (l.map itoa) := by
      rw [string, List.map_map]
      rfl
    rw [← hstr, h] at hcs
    cases hcs

/-- The number of an automatic TTL has no sign. -/
theorem isDigit_of_autoPattern {s start : String} (h : autoPattern s = some start) :
    ∀ c ∈ start.toList, c.isDigit = true := by
  obtain ⟨cs, _, h⟩ := Option.bind_eq_some_iff.1 h
  obtain ⟨⟨start', cs'⟩, hd, h⟩ := Option.bind_eq_some_iff.1 h
  change (if cs' = [')'] then some start' else none) = some start at h
  split_ifs at h
  obtain rfl := Option.some.inj h
  exact isDigit_of_digits hd

/-- What is read is in its start state and can be written and read again. -/
theorem parse_eq_ok {s : String} {g : TTLGenerator} (h : parse s = .ok g) :
    g.reset = g ∧ g.Representable ∧ g.Accepted := by
  have hrange : ∀ {cause}, parseRange s cause = .ok g →
      g.reset = g ∧ g.Representable ∧ g.Accepted := by
    intro cause hg
    unfold parseRange at hg
    split at hg
    · next ints hints =>
      obtain rfl := Except.ok.inj hg
      exact ⟨rfl, ⟨ints, rfl⟩, trivial⟩
    · cases hg
  rw [parse] at h
  split_ifs at h
  · rw [parseToAutoTTL] at h
    split at h
    · obtain rfl := Except.ok.inj h
      exact ⟨rfl, ⟨1, rfl⟩, Int.zero_le_ofNat 1⟩
    · split at h
      · next start hstart =>
        obtain ⟨n, hn, hg⟩ := bind_eq_ok.1 h
        obtain rfl := Except.ok.inj hg
        exact ⟨rfl, ⟨n, rfl⟩, toInt_nonneg_of_atoi (isDigit_of_autoPattern hstart)
          (mapError_eq_ok.1 hn)⟩
      · cases h
  · exact hrange h
  · exact hrange h

end TTLGenerator

/-! ## Targets that were written -/

theorem parseHTTPTarget_marshal {t : HTTPTarget} (ht : t.Representable)
    (hp : ∀ proto ∈ t.proto, proto ∈ Httpprobe.acceptableHTTPProtos) :
    parseHTTPTarget t.marshal = .ok t := by
  rw [parseHTTPTarget, HTTPTarget.unmarshal_marshal ht]
  cases hproto : t.proto with
  | none => simp only [hproto]
  | some proto => simp only [hproto, if_pos (hp proto hproto)]

theorem parseHTTPTarget_eq_ok {s : String} {t : HTTPTarget} (h : parseHTTPTarget s = .ok t) :
    HTTPTarget.unmarshal s = some t ∧ ∀ proto ∈ t.proto, proto ∈ Httpprobe.acceptableHTTPProtos := by
  rw [parseHTTPTarget] at h
  cases hu : HTTPTarget.unmarshal s with
  | none =>
    rw [hu] at h
    cases h
  | some t' =>
    rw [hu] at h
    cases hproto : t'.proto with
    | none =>
      simp only [hproto] at h
      obtain rfl := Except.ok.inj h
      exact ⟨rfl, by simp [hproto]⟩
    | some proto =>
      simp only [hproto] at h
      split_ifs at h with hp
      obtain rfl := Except.ok.inj h
      exact ⟨rfl, by simpa [hproto] using hp⟩

theorem parseDNSTarget_marshal (p : LookupParameter) : parseDNSTarget p.marshal = .ok p := by
  rw [parseDNSTarget, LookupParameter.unmarshal_marshal]

theorem parseNumber_itoa (what : String) (n : Int64) : parseNumber what (itoa n) = .ok n := by
  rw [parseNumber, atoi_itoa]
  rfl

theorem parseTruth_formatBool (what : String) (b : Bool) :
    parseTruth what (formatBool b) = .ok b := by
  rw [parseTruth, parseBool_formatBool]
  rfl

/-! ## Requests that were written -/

namespace SimplePingRequest

/-- What the types of the source and the parties that make requests see to. -/
structure WellFormed (pr : SimplePingRequest) : Prop where
  targets : ∀ t ∈ pr.targets, IsEntry t
  froms : ∀ f ∈ pr.froms, IsEntry f
  ttl : ∃ g, pr.ttl = some g ∧ g.reset = g ∧ g.Representable
  httpTargets : ∀ t ∈ pr.httpTargets, t.Representable

/-- What the reader takes. -/
structure Accepted (pr : SimplePingRequest) : Prop where
  ttl : ∀ g ∈ pr.ttl, g.Accepted
  httpTargets : ∀ t ∈ pr.httpTargets, ∀ proto ∈ t.proto,
    proto ∈ Httpprobe.acceptableHTTPProtos

variable {pr : SimplePingRequest}

theorem httpTargets_toURLValues (hw : pr.WellFormed) (ha : pr.Accepted) :
    (pr.toURLValues.all paramHTTPTarget).mapM parseHTTPTarget = .ok pr.httpTargets := by
  have hv : pr.toURLValues.all paramHTTPTarget = pr.httpTargets.map HTTPTarget.marshal := by
    simp +decide [toURLValues]
  rw [hv]
  exact mapM_map_eq_ok fun t ht => parseHTTPTarget_marshal (hw.httpTargets t ht) (ha.httpTargets t ht)

theorem dnsTargets_toURLValues (pr : SimplePingRequest) :
    (pr.toURLValues.all paramDNSTarget).mapM parseDNSTarget = .ok pr.dnsTargets := by
  have hv : pr.toURLValues.all paramDNSTarget = pr.dnsTargets.map LookupParameter.marshal := by
    simp +decide [toURLValues]
  rw [hv]
  exact mapM_map_eq_ok fun p _ => parseDNSTarget_marshal p

theorem ttl_toURLValues (hw : pr.WellFormed) (ha : pr.Accepted) :
    parseParam pr.toURLValues paramTTL (fun ttl => failed "ttl" (TTLGenerator.parse ttl)) =
      .ok pr.ttl := by
  obtain ⟨g, hg, hs, hr⟩ := hw.ttl
  have hv : pr.toURLValues.all paramTTL = (pr.ttl.map TTLGenerator.string).toList := by
    simp +decide [toURLValues]
  refine parseParam_of_toList hv fun g' hg' => ?_
  obtain rfl : g' = g := Option.some.inj (hg'.symm.trans hg)
  refine ⟨TTLGenerator.string_ne_empty hr, ?_⟩
  rw [TTLGenerator.parse_string hs hr (ha.ttl g' hg)]
  rfl

/-- The reader takes what was written, up to empty strings, but without the timeout of the
resolver. -/
theorem parse_toURLValues (hw : pr.WellFormed) (ha : pr.Accepted) :
    parseSimplePingRequest pr.toURLValues =
      .ok { pr.canonical with resolveTimeoutMilliseconds := none } := by
  have number : ∀ (key what : String) (o : Option Int64),
      pr.toURLValues.all key = (o.map itoa).toList →
      parseParam pr.toURLValues key (parseNumber what) = .ok o := fun key what o h =>
    parseParam_of_toList h fun n _ => ⟨itoa_ne_empty n, parseNumber_itoa what n⟩
  have truth : ∀ (key what : String) (o : Option Bool),
      pr.toURLValues.all key = (o.map formatBool).toList →
      parseParam pr.toURLValues key (parseTruth what) = .ok o := fun key what o h =>
    parseParam_of_toList h fun b _ => ⟨formatBool_ne_empty b, parseTruth_formatBool what b⟩
  have hudp := number paramUDPDstPort "udp dst port" pr.udpDstPort (by simp +decide [toURLValues])
  have hsize := number paramRandomPayloadSize "random payload size" pr.randomPayloadSize
    (by simp +decide [toURLValues])
  have hcount := number paramCount "count" pr.totalPkts (by simp +decide [toURLValues])
  have hintv := number paramIntvMs "interval" (some pr.intvMilliseconds)
    (by simp +decide [toURLValues])
  have htimeout := number paramPktTimeoutMs "pktTimeout" (some pr.pktTimeoutMilliseconds)
    (by simp +decide [toURLValues])
  have hv4 := truth paramPreferV4 "preferV4" pr.preferV4 (by simp +decide [toURLValues])
  have hv6 := truth paramPreferV6 "preferV6" pr.preferV6 (by simp +decide [toURLValues])
  have hl7 : stringParam pr.toURLValues paramL7PacketType = notEmpty pr.l7PacketType := by
    rw [stringParam_of_toList (o := notEmpty pr.l7PacketType) (by simp +decide [toURLValues]),
      notEmpty_notEmpty]
  have hl4 : stringParam pr.toURLValues paramL4PacketType = notEmpty pr.l4PacketType := by
    rw [stringParam_of_toList (o := notEmpty pr.l4PacketType) (by simp +decide [toURLValues]),
      notEmpty_notEmpty]
  have hl3 : stringParam pr.toURLValues paramL3PacketType = notEmpty pr.l4PacketType := by
    rw [stringParam_of_toList (o := notEmpty pr.l4PacketType) (by simp +decide [toURLValues]),
      notEmpty_notEmpty]
  have hinfo : stringParam pr.toURLValues paramsIPInfoProviderName =
      notEmpty pr.ipInfoProviderName := by
    rw [stringParam_of_toList (o := notEmpty pr.ipInfoProviderName)
      (by simp +decide [toURLValues]), notEmpty_notEmpty]
  have hresolver : stringParam pr.toURLValues paramResolver = notEmpty pr.resolver :=
    stringParam_of_toList (by simp +decide [toURLValues])
  have htargets : listParam pr.toURLValues paramTargets = pr.targets :=
    listParam_of_joined (by simp +decide [toURLValues]) hw.targets
  have hfroms : listParam pr.toURLValues paramFrom = pr.froms :=
    listParam_of_joined (by simp +decide [toURLValues]) hw.froms
  obtain ⟨g, hg, _, _⟩ := hw.ttl
  simp only [parseSimplePingRequest, httpTargets_toURLValues hw ha, dnsTargets_toURLValues, hl7, hl4,
    hl3, hudp, hinfo, hsize, htargets, hfroms, hcount, hintv, htimeout, ttl_toURLValues hw ha, hv4,
    hv6, hresolver]
  have hor : (notEmpty pr.l4PacketType <|> notEmpty pr.l4PacketType) = notEmpty pr.l4PacketType := by
    cases notEmpty pr.l4PacketType <;> rfl
  rw [hor, canonical, hg]
  rfl

/-! ## Requests that were read -/

/-- The fields of a request that was read. -/
theorem parse_eq_ok {query : Values} (h : parseSimplePingRequest query = .ok pr) :
    (query.all paramHTTPTarget).mapM parseHTTPTarget = .ok pr.httpTargets ∧
      pr.targets = listParam query paramTargets ∧ pr.froms = listParam query paramFrom ∧
      (∃ ttl, parseParam query paramTTL (fun ttl => failed "ttl" (TTLGenerator.parse ttl)) = .ok ttl ∧
        pr.ttl = some (ttl.getD (.ofInts [defaultTTL] (by decide)))) ∧
      pr.resolver = stringParam query paramResolver ∧
      pr.ipInfoProviderName = stringParam query paramsIPInfoProviderName ∧
      pr.l4PacketType = (stringParam query paramL4PacketType <|> stringParam query paramL3PacketType) ∧
      pr.l7PacketType = stringParam query paramL7PacketType ∧
      pr.resolveTimeoutMilliseconds = none := by
  obtain ⟨httpTargets, hhttp, h⟩ := bind_eq_ok.1 h
  obtain ⟨dnsTargets, _, h⟩ := bind_eq_ok.1 h
  obtain ⟨udp, _, h⟩ := bind_eq_ok.1 h
  obtain ⟨size, _, h⟩ := bind_eq_ok.1 h
  obtain ⟨count, _, h⟩ := bind_eq_ok.1 h
  obtain ⟨intv, _, h⟩ := bind_eq_ok.1 h
  obtain ⟨timeout, _, h⟩ := bind_eq_ok.1 h
  obtain ⟨ttl, httl, h⟩ := bind_eq_ok.1 h
  obtain ⟨v4, _, h⟩ := bind_eq_ok.1 h
  obtain ⟨v6, _, h⟩ := bind_eq_ok.1 h
  obtain rfl := Except.ok.inj h
  exact ⟨hhttp, rfl, rfl, ⟨ttl, httl, rfl⟩, rfl, rfl, rfl, rfl, rfl⟩

/-- Only what the reader takes is read from what was written. -/
theorem accepted_of_parse {r : SimplePingRequest} (hw : pr.WellFormed)
    (h : parseSimplePingRequest pr.toURLValues = .ok r) : pr.Accepted := by
  obtain ⟨hhttp, _, _, ⟨ttl, httl, _⟩, _⟩ := parse_eq_ok h
  constructor
  · intro g hg
    cases g with
    | range ttls idx => trivial
    | auto start next =>
      obtain ⟨g, hg', _, hr⟩ := hw.ttl
      obtain rfl : g = .auto start next := Option.some.inj (hg'.symm.trans hg)
      by_contra hneg
      have hget : pr.toURLValues.get paramTTL = TTLGenerator.string (.auto start next) := by
        rw [get_of_toList (o := pr.ttl.map TTLGenerator.string)
          (by simp +decide [toURLValues]), hg]
        rfl
      rw [parseParam, hget, if_neg (TTLGenerator.string_ne_empty hr),
        TTLGenerator.parse_auto_of_neg (not_le.1 hneg)] at httl
      cases httl
  · intro t ht
    have hv : pr.toURLValues.all paramHTTPTarget = pr.httpTargets.map HTTPTarget.marshal := by
      simp +decide [toURLValues]
    rw [hv] at hhttp
    obtain ⟨t', _, ht'⟩ := (forall_of_mapM_eq_ok hhttp).1 _ (List.mem_map_of_mem ht)
    obtain ⟨hu, hp⟩ := parseHTTPTarget_eq_ok ht'
    rw [HTTPTarget.unmarshal_marshal (hw.httpTargets t ht)] at hu
    obtain rfl := Option.some.inj hu
    exact hp

/-- What was written is read as it was, up to empty strings, exactly if the reader takes it
and there is no timeout of the resolver to lose. -/
theorem parse_toURLValues_iff (hw : pr.WellFormed) :
    parseSimplePingRequest pr.toURLValues = .ok pr.canonical ↔
      pr.Accepted ∧ pr.resolveTimeoutMilliseconds = none := by
  constructor
  · intro h
    have ha := accepted_of_parse hw h
    obtain ⟨_, _, _, _, _, _, _, _, hnone⟩ := parse_eq_ok h
    exact ⟨ha, hnone⟩
  · rintro ⟨ha, hnone⟩
    rw [parse_toURLValues hw ha, canonical, hnone]

/-- A request comes back from its query in every field that the reader knows. -/
theorem query_round_trip (hw : pr.WellFormed) (ha : pr.Accepted) :
    ∃ resolveTimeoutMilliseconds,
      parseSimplePingRequest (Values.parse pr.toURLValues.encode) =
        .ok { pr.canonical with resolveTimeoutMilliseconds } := by
  rw [Values.parse_encode]
  exact ⟨none, parse_toURLValues hw ha⟩

/-- A trace over two nodes and an HTTP target with headers and limits. -/
def mixed : SimplePingRequest where
  froms := ["hk-1", "de-2"]
  targets := ["1.1.1.1", "example.com"]
  intvMilliseconds := 500
  pktTimeoutMilliseconds := -1
  preferV6 := some false
  totalPkts := some 3
  resolver := some ""
  ttl := some (.auto 2 2)
  l4PacketType := some l4ProtoUDP
  dnsTargets := [{ addrPort := "8.8.8.8:53", target := "a&b=c;", queryType := "AAAA" }]
  httpTargets :=
    [{ proto := some "http/2", sizeLimit := some 1024, ipPref := none
       numHeadersFieldsLimit := none, url := "https://example.com/"
       extraHeaders := [("Accept", ["text/html", "*/*"]), ("X-Trace", [])] }]

/-- A text without white space and commas is an entry. -/
theorem isEntry_of_all {s : String} (hne : s ≠ "")
    (h : s.toList.all (fun c => !isSpace c && c != ',') = true) : IsEntry s := by
  have hc : ∀ c ∈ s.toList, isSpace c = false ∧ c ≠ ',' := by
    simpa using h
  exact ⟨hne, trimSpace_eq_self fun c hm => (hc c hm).1, fun hm => (hc ',' hm).2 rfl⟩

theorem query_round_trip_mixed : ∃ resolveTimeoutMilliseconds,
    parseSimplePingRequest (Values.parse mixed.toURLValues.encode) =
      .ok { mixed.canonical with resolveTimeoutMilliseconds } := by
  refine query_round_trip ⟨?_, ?_, ⟨.auto 2 2, rfl, rfl, 2, rfl⟩, ?_⟩ ⟨?_, ?_⟩
  · simp only [mixed, List.forall_mem_cons]
    exact ⟨isEntry_of_all (by decide) (by decide), isEntry_of_all (by decide) (by decide),
      by simp⟩
  · simp only [mixed, List.forall_mem_cons]
    exact ⟨isEntry_of_all (by decide) (by decide), isEntry_of_all (by decide) (by decide),
      by simp⟩
  · intro t ht
    obtain rfl := List.mem_singleton.1 ht
    have hlt : "Accept" < "X-Trace" := String.lt_iff_toList_lt.2 (by decide)
    exact ⟨List.pairwise_pair.2 hlt, ⟨some 1024, rfl⟩, ⟨none, rfl⟩⟩
  · intro g hg
    obtain rfl := Option.some.inj hg
    exact Int.zero_le_ofNat 2
  · intro t ht proto hproto
    obtain rfl := List.mem_singleton.1 ht
    obtain rfl := Option.some.inj hproto
    decide

/-- A request for a protocol that is none of the three. -/
def gopher : SimplePingRequest where
  intvMilliseconds := 1000
  pktTimeoutMilliseconds := 3000
  ttl := some (.range [64] ⟨0, by decide⟩)
  httpTargets :=
    [{ proto := some "gopher", sizeLimit := none, ipPref := none, numHeadersFieldsLimit := none
       url := "gopher://example.com" }]

/-- A request with an automatic TTL from below zero. -/
def belowZero : SimplePingRequest where
  intvMilliseconds := 1000
  pktTimeoutMilliseconds := 3000
  ttl := some (.auto (-1) (-1))

/-- The reader does not take everything that was written. -/
theorem query_not_read :
    (gopher.WellFormed ∧
      ∀ r, parseSimplePingRequest (Values.parse gopher.toURLValues.encode) ≠ .ok r) ∧
    belowZero.WellFormed ∧
      ∀ r, parseSimplePingRequest (Values.parse belowZero.toURLValues.encode) ≠ .ok r := by
  have hg : gopher.WellFormed := by
    refine ⟨by simp [gopher], by simp [gopher], ⟨_, rfl, rfl, [64], rfl⟩, fun t ht => ?_⟩
    obtain rfl := List.mem_singleton.1 ht
    exact ⟨List.Pairwise.nil, ⟨none, rfl⟩, ⟨none, rfl⟩⟩
  have hb : belowZero.WellFormed :=
    ⟨by simp [belowZero], by simp [belowZero], ⟨_, rfl, rfl, -1, rfl⟩, by simp [belowZero]⟩
  refine ⟨⟨hg, fun r hr => ?_⟩, hb, fun r hr => ?_⟩
  · rw [Values.parse_encode] at hr
    have := (accepted_of_parse hg hr).httpTargets _ List.mem_cons_self "gopher" rfl
    exact absurd this (by decide)
  · rw [Values.parse_encode] at hr
    have : (0 : Int) ≤ -1 := (accepted_of_parse hb hr).ttl _ rfl
    omega

end SimplePingRequest

end CloudPing.Pinger

import CloudPing.Dnsprobe.ServerAddr
import CloudPing.Utils.IPText
import CloudPing.Wire.Result

/-!
# DNS answers and their texts

`LookupDNS` puts what the resolver answers into a slice of any values, and `PreStringify`
makes texts of them by the type of the query.  The HTTP transports make the texts at once.
Every kind of value that a query puts into the slice has a case that formats it
(`wrappedAnsToString_of_hasType`), but for TXT: there the slice gets strings, and the formatter
knows no such type.

The resolver, the DNS messages and the HTTP clients are outside, as is the clock: `StartedAt`
and `Elapsed` are left out.
-/

namespace CloudPing.Dnsprobe

open Inet Utils Wire

/-! ## Queries and answers -/

inductive DNSQueryType where
  | a
  | aaaa
  | cname
  | mx
  | ns
  | ptr
  | txt
  | other (s : String)
  deriving DecidableEq, Repr

def DNSQueryType.text : DNSQueryType → String
  | a => "a"
  | aaaa => "aaaa"
  | cname => "cname"
  | mx => "mx"
  | ns => "ns"
  | ptr => "ptr"
  | txt => "txt"
  | other s => s

structure MX where
  host : String
  pref : UInt16
  deriving DecidableEq, Repr

structure NS where
  host : String
  deriving DecidableEq, Repr

/-- A value in the slice of answers. -/
inductive Answer where
  | ip (ip : IP)
  | string (s : String)
  | mx (mx : MX)
  | ns (ns : NS)
  /-- The data of a resource record, by its `String`. -/
  | rdata (text : String)
  deriving DecidableEq, Repr

/-- The text that reports an answer. -/
def Answer.text : Answer → String
  | ip addr => ipString addr
  | string s => s
  | mx m => m.host ++ " (pref=" ++ toString m.pref.toNat ++ ")"
  | ns n => n.host
  | rdata text => text

/-- The verb `%v`. -/
def Answer.verb : Answer → String
  | ip addr => ipString addr
  | string s => s
  | mx m => "&\x7b" ++ m.host ++ " " ++ toString m.pref.toNat ++ "\x7d"
  | ns n => "&\x7b" ++ n.host ++ "\x7d"
  | rdata text => text

/-- What `analyzeError` tells apart. -/
inductive ErrorKind where
  | deadlineExceeded
  | canceled
  | dnsError
  | other
  deriving DecidableEq, Repr

structure LookupError where
  kind : ErrorKind
  text : String
  deriving DecidableEq, Repr

structure LookupParameter where
  correlationID : String := ""
  addrPort : String
  target : String
  timeoutMs : Option Int64 := none
  transport : Option Transport := none
  queryType : DNSQueryType
  dotServerName : String := ""

structure QueryResult where
  correlationID : String
  server : String
  target : String
  queryType : DNSQueryType
  /-- `none` is the slice `nil`. -/
  answers : Option (List Answer)
  answerStrings : List String
  error : Option LookupError
  errString : String
  ioTimeout : Bool
  noSuchHost : Bool
  timeoutSpecified : Int
  transportUsed : Transport
  deriving DecidableEq, Repr

/-! ## What is outside -/

/-- `net.Resolver`. -/
structure Resolver where
  lookupIP : String → String → List IP × Option LookupError
  lookupCNAME : String → String × Option LookupError
  lookupMX : String → List (Option MX) × Option LookupError
  lookupNS : String → List (Option NS) × Option LookupError
  lookupAddr : String → List String × Option LookupError
  lookupTXT : String → List String × Option LookupError

/-- Where a request over HTTP fails. -/
inductive DoHError where
  | create (err : String)
  | send (err : String)
  | status (status : String)
  | read (err : String)
  | unpack (err : String)
  deriving DecidableEq, Repr

structure World where
  /-- The resolver whose `Dial` connects to an address over a transport. -/
  resolver : Transport → Addr × Nat → Resolver
  /-- The answers to a request over HTTP, each by its `String`. -/
  exchange : Transport → String → String → DNSQueryType → String → Except DoHError (List String)
  isReverse : String → Bool
  addrReverse : String → Option String
  reverseAddr : Addr → String
  parseAddrError : String → String
  parseAddrPortError : String → String
  /-- Where `TimeoutMs` is in memory: the messages print the pointer. -/
  timeoutAddress : Nat

/-! ## `LookupDNS` -/

def defaultDNSProbeTransport : Transport := .udp

def minTimeoutMs : Int64 := 10

def maxTimeoutMs : Int64 := 10 * 1000

def defaultDNSProbeTimeoutMs : Int64 := 3000

def LookupParameter.transportUsed (p : LookupParameter) : Transport :=
  p.transport.getD defaultDNSProbeTransport

def Transport.isHTTP (transport : Transport) : Bool := transport = .http2 ∨ transport = .http3

def LookupParameter.timeout (p : LookupParameter) : Int64 :=
  p.timeoutMs.getD defaultDNSProbeTimeoutMs

/-- Whether the lookup goes on behind the error, and the result. -/
def analyzeError (err : LookupError) (queryResult : QueryResult) : Bool × QueryResult :=
  let queryResult := { queryResult with error := some err }
  match err.kind with
  | .deadlineExceeded | .canceled => (true, { queryResult with ioTimeout := true })
  | .dnsError => (true, { queryResult with noSuchHost := true })
  | .other => (false, queryResult)

/-- The end of each branch: the error of the lookup, then its answers. -/
def collect (queryResult : QueryResult) (failed : String) (answers : List Answer)
    (err : Option LookupError) : Except String QueryResult :=
  match err with
  | none => .ok { queryResult with answers := some answers }
  | some err =>
    let (analyzed, queryResult) := analyzeError err queryResult
    if analyzed then .ok { queryResult with answers := some answers }
    else .error (failed ++ ": " ++ err.text)

def DoHError.text (transport : Transport) : DoHError → String
  | create err => "failed to create DoH request: " ++ err
  | send err =>
    "failed to send DoH request via " ++ (if transport = .http2 then "http" else "quic") ++
      " client: " ++ err
  | status s =>
    (if transport = .http2 then "DoH" else "DoH3") ++ " request failed with status code: " ++ s
  | read err => "failed to read DoH response: " ++ err
  | unpack err => "failed to unpack DoH response: " ++ err

/-- The name that is asked for over HTTP. -/
def questionName (w : World) (p : LookupParameter) : Except String String :=
  match p.queryType with
  | .ptr =>
    if w.isReverse p.target then .ok p.target
    else
      match parseAddr p.target.toList with
      | some addr => .ok (w.reverseAddr addr)
      | none => .error ("invalid ip: " ++ w.parseAddrError p.target)
  | .other s => .error ("invalid query type: " ++ s)
  | _ => .ok p.target

def lookupHTTP (w : World) (p : LookupParameter) (queryResult : QueryResult) :
    Except String QueryResult := do
  let name ← questionName w p
  let answers ← (w.exchange p.transportUsed p.addrPort name p.queryType p.dotServerName).mapError
    (DoHError.text p.transportUsed)
  pure { queryResult with answers := some (answers.map .rdata), answerStrings := answers }

/-- The address that a name ending in `.in-addr.arpa.` or `.ip6.arpa.` stands for. -/
def addressOfName (w : World) (queryingTarget : String) : Except String String :=
  if w.isReverse queryingTarget then
    match w.addrReverse queryingTarget with
    | some addr => .ok addr
    | none => .error ("invalid address: " ++ queryingTarget)
  else .ok queryingTarget

/-- The lookup of each type of query, with a resolver. -/
def lookupWith (w : World) (resolver : Resolver) (p : LookupParameter)
    (queryResult : QueryResult) : Except String QueryResult :=
  let failedIP := "failed to lookup ip (type " ++ p.queryType.text ++ ") for " ++ p.target
  match p.queryType with
  | .a =>
    let (answers, err) := resolver.lookupIP "ip4" p.target
    collect queryResult failedIP (answers.map .ip) err
  | .aaaa =>
    let (answers, err) := resolver.lookupIP "ip6" p.target
    collect queryResult failedIP (answers.map .ip) err
  | .cname =>
    let (answer, err) := resolver.lookupCNAME p.target
    collect queryResult failedIP (if answer ≠ "" then [.string answer] else []) err
  | .mx =>
    let (answers, err) := resolver.lookupMX p.target
    collect queryResult ("failed to lookup mx for " ++ p.target)
      ((answers.filterMap id).map .mx) err
  | .ns =>
    let (answers, err) := resolver.lookupNS p.target
    collect queryResult ("failed to lookup ns for " ++ p.target)
      ((answers.filterMap id).map .ns) err
  | .ptr => do
    let queryingTarget ← addressOfName w p.target
    let (answers, err) := resolver.lookupAddr queryingTarget
    collect queryResult ("failed to lookup ptr for " ++ p.target)
      ((answers.filter (· ≠ "")).map .string) err
  | .txt =>
    let (answers, err) := resolver.lookupTXT p.target
    collect queryResult ("failed to lookup txt for " ++ p.target) (answers.map .string) err
  | .other s => .error ("invalid query type: " ++ s)

/-- The server of a lookup that is not over HTTP. -/
def LookupParameter.server (p : LookupParameter) : Option (Addr × Nat) :=
  parseAddrPort (appendDNSPort (stripTLSURLPrefix p.addrPort.toList) p.transportUsed)

def lookupDNS (w : World) (p : LookupParameter) : Except String QueryResult :=
  if p.timeout < minTimeoutMs then
    .error ("timeout is too short: at least " ++ toString minTimeoutMs.toInt ++
      "ms is required, got " ++ toString w.timeoutAddress ++ "ms")
  else if maxTimeoutMs < p.timeout then
    .error ("timeout is too long: at most " ++ toString maxTimeoutMs.toInt ++
      "ms is allowed, got " ++ toString w.timeoutAddress ++ "ms")
  else
    let queryResult : QueryResult :=
      { correlationID := p.correlationID, server := p.addrPort, target := p.target
        queryType := p.queryType, answers := some [], answerStrings := [], error := none
        errString := "", ioTimeout := false, noSuchHost := false
        timeoutSpecified := p.timeout.toInt * 1000000, transportUsed := p.transportUsed }
    if p.transportUsed.isHTTP then lookupHTTP w p queryResult
    else
      match p.server with
      | none =>
        .error ("failed to parse addrport " ++ p.addrPort ++ " as netip.AddrPort: " ++
          w.parseAddrPortError p.addrPort)
      | some addrport => lookupWith w (w.resolver p.transportUsed addrport) p queryResult

/-! ## What is found -/

/-- What a resolver answers to a query, without what is nil or empty. -/
def Resolver.found (resolver : Resolver) (w : World) (p : LookupParameter) : List Answer :=
  match p.queryType with
  | .a => (resolver.lookupIP "ip4" p.target).1.map .ip
  | .aaaa => (resolver.lookupIP "ip6" p.target).1.map .ip
  | .cname => ([(resolver.lookupCNAME p.target).1].filter (· ≠ "")).map .string
  | .mx => ((resolver.lookupMX p.target).1.filterMap id).map .mx
  | .ns => ((resolver.lookupNS p.target).1.filterMap id).map .ns
  | .ptr =>
    match addressOfName w p.target with
    | .ok queryingTarget => ((resolver.lookupAddr queryingTarget).1.filter (· ≠ "")).map .string
    | .error _ => []
  | .txt => (resolver.lookupTXT p.target).1.map .string
  | .other _ => []

/-- The answers to a lookup, over HTTP or of the resolver. -/
def World.found (w : World) (p : LookupParameter) : List Answer :=
  if p.transportUsed.isHTTP then
    match questionName w p with
    | .ok name =>
      ((w.exchange p.transportUsed p.addrPort name p.queryType p.dotServerName).toOption.getD
        []).map .rdata
    | .error _ => []
  else
    match p.server with
    | some addrport => (w.resolver p.transportUsed addrport).found w p
    | none => []

/-! ## `PreStringify` -/

def wrappedAnsToString (ans : Answer) (qtype : DNSQueryType) : Except String String :=
  match qtype with
  | .a | .aaaa =>
    match ans with
    | .ip ip => .ok (ipString ip)
    | ans => .error ("answer is not a net.IP: " ++ ans.verb)
  | .cname | .ptr =>
    match ans with
    | .string s => .ok s
    | ans => .error ("answer is not a string: " ++ ans.verb)
  | .mx =>
    match ans with
    | .mx mx => .ok (mx.host ++ " (pref=" ++ toString mx.pref.toNat ++ ")")
    | ans => .error ("answer is not a *net.MX: " ++ ans.verb)
  | .ns =>
    match ans with
    | .ns ns => .ok ns.host
    | ans => .error ("answer is not a *net.NS: " ++ ans.verb)
  | qtype => .error ("unknown query type: " ++ qtype.text)

/-- The error of a result as a text. -/
def QueryResult.stringifyError (qr : QueryResult) : QueryResult :=
  match qr.error with
  | some err => { qr with errString := err.text, error := none }
  | none => qr

def QueryResult.preStringify (qr : QueryResult) : Except String QueryResult :=
  let clone := qr.stringifyError
  match clone.answers with
  | some answers =>
    if qr.transportUsed.isHTTP then .ok clone
    else do
      let answerStrings ← answers.mapM fun ans =>
        (wrappedAnsToString ans clone.queryType).mapError
          ("failed to convert answer to string: " ++ ·)
      .ok { clone with answerStrings := answerStrings, answers := none }
  | none => .ok clone

theorem stringifyError_keeps (qr : QueryResult) :
    qr.stringifyError.answers = qr.answers ∧ qr.stringifyError.queryType = qr.queryType ∧
      qr.stringifyError.answerStrings = qr.answerStrings := by
  rw [QueryResult.stringifyError]
  split
  · exact ⟨rfl, rfl, rfl⟩
  · exact ⟨rfl, rfl, rfl⟩

/-! ## Every answer but those to TXT is reported -/

/-- The type of the values that a query that is not over HTTP puts into the slice. -/
def DNSQueryType.HasType (qtype : DNSQueryType) (ans : Answer) : Prop :=
  match qtype with
  | .a | .aaaa => ∃ ip, ans = .ip ip
  | .cname | .ptr | .txt => ∃ s, ans = .string s
  | .mx => ∃ mx, ans = .mx mx
  | .ns => ∃ ns, ans = .ns ns
  | .other _ => False

section Answers

variable {w : World} {resolver : Resolver} {p : LookupParameter} {queryResult qr : QueryResult}
  {qtype : DNSQueryType} {answers : List Answer} {ans : Answer} {failed : String}
  {err : Option LookupError}

/-- A value of the type of the query is formatted, but for TXT. -/
theorem wrappedAnsToString_of_hasType (h : qtype.HasType ans) (htxt : qtype ≠ .txt) :
    wrappedAnsToString ans qtype = .ok ans.text := by
  cases qtype with
  | a | aaaa | cname | ptr | mx | ns =>
    obtain ⟨_, rfl⟩ := h
    rfl
  | txt => exact absurd rfl htxt
  | other s => exact h.elim

theorem wrappedAnsToString_txt (ans : Answer) :
    wrappedAnsToString ans .txt = .error "unknown query type: txt" := rfl

/-- What the end of a branch keeps. -/
theorem collect_eq_ok (h : collect queryResult failed answers err = .ok qr) :
    qr.answers = some answers ∧ qr.queryType = queryResult.queryType ∧
      qr.transportUsed = queryResult.transportUsed ∧ ∀ e ∈ err, e.kind ≠ .other := by
  cases err with
  | none =>
    cases h
    exact ⟨rfl, rfl, rfl, fun e he => absurd he (Option.not_mem_none e)⟩
  | some e =>
    rw [collect] at h
    cases hk : e.kind with
    | deadlineExceeded | canceled | dnsError =>
      simp only [analyzeError, hk, if_true] at h
      cases h
      exact ⟨rfl, rfl, rfl, fun e' he' => by cases he'; rw [hk]; exact ErrorKind.noConfusion⟩
    | other =>
      simp only [analyzeError, hk] at h
      cases h

/-- It succeeds if the error is one that is reported. -/
theorem collect_of_kind (queryResult : QueryResult) (failed : String) (answers : List Answer)
    (h : ∀ e ∈ err, e.kind ≠ .other) :
    ∃ qr, collect queryResult failed answers err = .ok qr := by
  cases err with
  | none => exact ⟨_, rfl⟩
  | some e =>
    have hk := h e rfl
    rw [collect]
    cases hkind : e.kind with
    | deadlineExceeded | canceled | dnsError =>
      simp only [analyzeError, hkind, if_true]
      exact ⟨_, rfl⟩
    | other => exact absurd hkind hk

/-- What a resolver answers has the type of the query. -/
theorem hasType_found (hans : ans ∈ resolver.found w p) : p.queryType.HasType ans := by
  rw [Resolver.found] at hans
  cases hq : p.queryType with
  | a | aaaa | mx | ns | cname | txt =>
    simp only [hq] at hans
    obtain ⟨x, _, rfl⟩ := List.mem_map.1 hans
    exact ⟨x, rfl⟩
  | ptr =>
    simp only [hq] at hans
    split at hans
    next =>
      obtain ⟨x, _, rfl⟩ := List.mem_map.1 hans
      exact ⟨x, rfl⟩
    next => cases hans
  | other s =>
    simp only [hq] at hans
    cases hans

/-- The result has the answers of the resolver. -/
theorem lookupWith_eq_ok (h : lookupWith w resolver p queryResult = .ok qr) :
    qr.answers = some (resolver.found w p) ∧ qr.queryType = queryResult.queryType ∧
      qr.transportUsed = queryResult.transportUsed := by
  have hend : ∀ {failed : String} {answers : List Answer} {err : Option LookupError},
      collect queryResult failed answers err = .ok qr → answers = resolver.found w p →
      qr.answers = some (resolver.found w p) ∧ qr.queryType = queryResult.queryType ∧
        qr.transportUsed = queryResult.transportUsed := by
    rintro failed answers err hc rfl
    obtain ⟨hanswers, hquery, htransport, _⟩ := collect_eq_ok hc
    exact ⟨hanswers, hquery, htransport⟩
  cases hq : p.queryType with
  | a | aaaa | mx | ns | txt =>
    simp only [lookupWith, hq] at h
    refine hend h ?_
    simp only [Resolver.found, hq]
  | cname =>
    simp only [lookupWith, hq] at h
    refine hend h ?_
    simp only [Resolver.found, hq]
    split
    next hne => simp [hne]
    next hempty => simp [not_not.1 hempty]
  | ptr =>
    simp only [lookupWith, hq] at h
    obtain ⟨queryingTarget, htarget, h⟩ := bind_eq_ok.1 h
    refine hend h ?_
    simp only [Resolver.found, hq, htarget]
  | other s =>
    simp only [lookupWith, hq] at h
    cases h

/-- A lookup that is not over HTTP asks a resolver, if the timeout and the server are right. -/
theorem lookupDNS_plain (hplain : p.transportUsed.isHTTP = false)
    (ht : minTimeoutMs ≤ p.timeout ∧ p.timeout ≤ maxTimeoutMs) {addrport : Addr × Nat}
    (hserver : p.server = some addrport) :
    ∃ queryResult : QueryResult, queryResult.queryType = p.queryType ∧
      queryResult.transportUsed = p.transportUsed ∧
      lookupDNS w p = lookupWith w (w.resolver p.transportUsed addrport) p queryResult := by
  have hshort : ¬p.timeout < minTimeoutMs := Int64.not_lt.2 ht.1
  have hlong : ¬maxTimeoutMs < p.timeout := Int64.not_lt.2 ht.2
  simp only [lookupDNS, if_neg hshort, if_neg hlong, hplain, Bool.false_eq_true, if_false, hserver]
  exact ⟨_, rfl, rfl, rfl⟩

theorem of_lookupDNS_plain (hplain : p.transportUsed.isHTTP = false)
    (h : lookupDNS w p = .ok qr) :
    (minTimeoutMs ≤ p.timeout ∧ p.timeout ≤ maxTimeoutMs) ∧
      ∃ addrport, p.server = some addrport := by
  rw [lookupDNS] at h
  simp only [hplain, Bool.false_eq_true, if_false] at h
  split_ifs at h with hshort hlong
  refine ⟨⟨Int64.not_lt.1 hshort, Int64.not_lt.1 hlong⟩, ?_⟩
  split at h
  next => cases h
  next addrport hserver => exact ⟨addrport, hserver⟩

/-- The result has the answers that were found.  Over HTTP it has their texts, and without HTTP
they have the type of the query. -/
theorem lookupDNS_eq_ok (h : lookupDNS w p = .ok qr) :
    qr.answers = some (w.found p) ∧
      ((qr.transportUsed.isHTTP = true ∧ qr.answerStrings = (w.found p).map Answer.text) ∨
        (qr.transportUsed = p.transportUsed ∧ p.transportUsed.isHTTP = false ∧
          qr.queryType = p.queryType ∧ ∀ ans ∈ w.found p, p.queryType.HasType ans)) := by
  rw [lookupDNS] at h
  split_ifs at h with hshort hlong hhttp
  · obtain ⟨name, hname, h⟩ := bind_eq_ok.1 h
    obtain ⟨texts, htexts, h⟩ := bind_eq_ok.1 h
    have hfound : w.found p = texts.map .rdata := by
      rw [World.found, if_pos hhttp]
      simp only [hname, mapError_eq_ok.1 htexts, Except.toOption, Option.getD_some]
    cases h
    refine ⟨congrArg some hfound.symm, Or.inl ⟨hhttp, ?_⟩⟩
    rw [hfound, List.map_map]
    exact (List.map_id texts).symm
  · have hplain : p.transportUsed.isHTTP = false := Bool.not_eq_true _ ▸ hhttp
    split at h
    next => cases h
    next addrport hserver =>
      have hfound : w.found p = (w.resolver p.transportUsed addrport).found w p := by
        rw [World.found, if_neg hhttp, hserver]
      obtain ⟨hanswers, hquery, htransport⟩ := lookupWith_eq_ok h
      rw [hfound]
      exact ⟨hanswers, Or.inr ⟨htransport, hplain, hquery, fun ans hans => hasType_found hans⟩⟩

theorem preStringify_http (h : qr.transportUsed.isHTTP = true) :
    ∃ out, qr.preStringify = .ok out ∧ out.answerStrings = qr.answerStrings := by
  obtain ⟨_, _, hstrings⟩ := stringifyError_keeps qr
  rw [QueryResult.preStringify]
  split
  · exact ⟨_, if_pos h, hstrings⟩
  · exact ⟨_, rfl, hstrings⟩

/-- Without HTTP the texts are made of the answers. -/
theorem preStringify_plain (h : qr.transportUsed.isHTTP = false)
    (hanswers : qr.answers = some answers) :
    qr.preStringify = (answers.mapM fun ans => (wrappedAnsToString ans qr.queryType).mapError
      ("failed to convert answer to string: " ++ ·)) >>= fun answerStrings =>
        .ok { qr.stringifyError with answerStrings := answerStrings, answers := none } := by
  obtain ⟨hkept, hquery, _⟩ := stringifyError_keeps qr
  rw [QueryResult.preStringify]
  simp only [hkept, hanswers, hquery, h, Bool.false_eq_true, if_false]

theorem mapM_text (h : ∀ ans ∈ answers, wrappedAnsToString ans qtype = .ok ans.text) :
    (answers.mapM fun ans => (wrappedAnsToString ans qtype).mapError
      ("failed to convert answer to string: " ++ ·)) = .ok (answers.map Answer.text) := by
  induction answers with
  | nil => rfl
  | cons ans answers ih =>
    rw [List.mapM_cons, h ans List.mem_cons_self,
      ih fun ans' hans' => h ans' (List.mem_cons_of_mem ans hans')]
    rfl

end Answers

/-- A lookup is reported: its result has the answers that were found, and `PreStringify` makes the
text of each, in their order. -/
def Reported (w : World) (p : LookupParameter) : Prop :=
  ∀ qr, lookupDNS w p = .ok qr → qr.answers = some (w.found p) ∧
    ∃ out, qr.preStringify = .ok out ∧ out.answerStrings = (w.found p).map Answer.text

/-- A query for TXT that is not over HTTP, to which the resolver has an answer. -/
structure AnsweredTXT (w : World) (p : LookupParameter) : Prop where
  plain : p.transportUsed.isHTTP = false
  queryType : p.queryType = .txt
  timeout : minTimeoutMs ≤ p.timeout ∧ p.timeout ≤ maxTimeoutMs
  answered : ∃ addrport answers err, p.server = some addrport ∧
    (w.resolver p.transportUsed addrport).lookupTXT p.target = (answers, err) ∧ answers ≠ [] ∧
    ∀ e ∈ err, e.kind ≠ .other

/-- The answers to a query for TXT come from the resolver as they are. -/
theorem lookupDNS_txt {w : World} {p : LookupParameter} {addrport : Addr × Nat}
    (hplain : p.transportUsed.isHTTP = false) (hquery : p.queryType = .txt)
    (ht : minTimeoutMs ≤ p.timeout ∧ p.timeout ≤ maxTimeoutMs)
    (hserver : p.server = some addrport) :
    ∃ queryResult : QueryResult, queryResult.queryType = .txt ∧
      queryResult.transportUsed = p.transportUsed ∧
      lookupDNS w p = collect queryResult ("failed to lookup txt for " ++ p.target)
        (((w.resolver p.transportUsed addrport).lookupTXT p.target).1.map .string)
        ((w.resolver p.transportUsed addrport).lookupTXT p.target).2 := by
  obtain ⟨queryResult, hq, htransport, heq⟩ := lookupDNS_plain (w := w) hplain ht hserver
  refine ⟨queryResult, hq.trans hquery, htransport, heq.trans ?_⟩
  simp only [lookupWith, hquery]

theorem AnsweredTXT.not_reported {w : World} {p : LookupParameter} (h : AnsweredTXT w p) :
    ¬Reported w p := by
  obtain ⟨hplain, hquery, ht, addrport, answers, err, hserver, hlookup, hne, hkind⟩ := h
  intro hreported
  obtain ⟨queryResult, hq, htransport, heq⟩ := lookupDNS_txt (w := w) hplain hquery ht hserver
  rw [hlookup] at heq
  obtain ⟨qr, hqr⟩ := collect_of_kind queryResult
    ("failed to lookup txt for " ++ p.target) (answers.map .string) hkind
  obtain ⟨hanswers, hq', htransport', _⟩ := collect_eq_ok hqr
  obtain ⟨-, out, hout, _⟩ := hreported qr (heq.trans hqr)
  have hhttp : qr.transportUsed.isHTTP = false := by rw [htransport', htransport, hplain]
  obtain ⟨s, answers, rfl⟩ := List.exists_cons_of_ne_nil hne
  rw [preStringify_plain hhttp hanswers, hq', hq, List.map_cons, List.mapM_cons,
    wrappedAnsToString_txt] at hout
  cases hout

/-- A lookup is reported exactly if it is no query for TXT with answers over UDP, TCP or TLS. -/
theorem reported_iff (w : World) (p : LookupParameter) : Reported w p ↔ ¬AnsweredTXT w p := by
  constructor
  · exact fun h htxt => htxt.not_reported h
  · intro h qr hqr
    obtain ⟨hanswers, hcases⟩ := lookupDNS_eq_ok hqr
    refine ⟨hanswers, ?_⟩
    rcases hcases with ⟨hhttp, htexts⟩ | ⟨htransport, hplain, hquery, htype⟩
    · obtain ⟨out, hout, hstrings⟩ := preStringify_http hhttp
      exact ⟨out, hout, hstrings.trans htexts⟩
    · have hok : ∀ ans ∈ w.found p, wrappedAnsToString ans qr.queryType = .ok ans.text := by
        intro ans hans
        rw [hquery]
        refine wrappedAnsToString_of_hasType (htype ans hans) fun htxt => h ?_
        obtain ⟨ht, addrport, hserver⟩ := of_lookupDNS_plain hplain hqr
        obtain ⟨_, _, _, heq⟩ := lookupDNS_txt (w := w) hplain htxt ht hserver
        obtain ⟨hanswers', _, _, hkind⟩ := collect_eq_ok (heq.symm.trans hqr)
        refine ⟨hplain, htxt, ht, addrport, _, _, hserver, rfl, fun hnil => ?_, hkind⟩
        rw [hanswers, hnil] at hanswers'
        rw [Option.some.inj hanswers'] at hans
        cases hans
      rw [preStringify_plain (htransport ▸ hplain) hanswers, mapM_text hok]
      exact ⟨_, rfl, rfl⟩

/-- A resolver that has one TXT record. -/
def txtWorld : World where
  resolver _ _ :=
    { lookupIP := fun _ _ => ([], none), lookupCNAME := fun _ => ("", none)
      lookupMX := fun _ => ([], none), lookupNS := fun _ => ([], none)
      lookupAddr := fun _ => ([], none), lookupTXT := fun _ => (["v=spf1 -all"], none) }
  exchange _ _ _ _ _ := .ok []
  isReverse _ := false
  addrReverse _ := none
  reverseAddr _ := ""
  parseAddrError _ := ""
  parseAddrPortError _ := ""
  timeoutAddress := 0

/-- A TXT record that was found is not reported. -/
theorem txt_not_reported : ¬∀ w p, Reported w p := by
  intro h
  have htxt : AnsweredTXT txtWorld
      { addrPort := "1.1.1.1:53", target := "example.com", queryType := .txt } :=
    ⟨rfl, rfl, by decide, ⟨.v4 [1, 1, 1, 1] rfl, 53⟩, ["v=spf1 -all"], none, by decide +kernel, rfl,
      by decide, fun e he => absurd he (Option.not_mem_none e)⟩
  exact htxt.not_reported (h _ _)

end CloudPing.Dnsprobe

import CloudPing.Nodereg.ConnRegistry
import CloudPing.Pinger.Request
import CloudPing.Utils.Addr

/-!
# How the hub serves a ping task

`PingTaskHandler.ServeHTTP` clamps the numbers of a request and then goes through its from
nodes.  Each is looked up in the registry and served as a DNS task, as an HTTP task or as a
ping task, by the protocol the request names and what the lookup found.  A DNS or ping task
makes one request per target, kept in a map by the node and the target, where a later one
replaces an earlier one.  An HTTP task makes one request for all its addresses.  At the end
a pinger is started for each entry of the map and each HTTP request.

Numbers are the 64-bit integers of the source, whose arithmetic wraps around.  A walk of the
registry is the list of its entries in the order of that walk, and `none` where there is no
registry or it is closed.  Each lookup has a walk of its own, so the registry may change
between two of them.
-/

namespace CloudPing.Handler

open Conc
open CloudPing.Nodereg CloudPing.Pinger CloudPing.Utils

/-! ## Durations -/

/-- `time.Millisecond`. -/
def millisecond : Int64 := 1000000

/-- `Duration.Milliseconds`. -/
def milliseconds (d : Int64) : Int64 := d / 1000000

/-! ## The handler -/

def orPolicyAllow : String := "allow"
def orPolicyDeny : String := "deny"

structure PingTaskHandler where
  outOfRespondRangePolicy : String := orPolicyAllow
  minPktInterval : Option Int64 := none
  maxPktTimeout : Option Int64 := none
  pktCountClamp : Option Int64 := none
  httpResponseBodyClamp : Option Int64 := none

def defaultRemotePingerPath : String := "/simpleping"

/-- `getConnWithCapability`.  The capability it is asked for is not looked at. -/
def getConnWithCapability (walk : Option (List ConnRegistryData)) (from_ _capability : String) :
    Option ConnRegistryData :=
  walk.bind fun entries =>
    (ConnRegistry.searchByAttributes entries
      [(attributeKeyPingCapability, "true"), (attributeKeyNodeName, from_)]).map
        ConnRegistryData.clone

def tryStripPort (net : Net) (addrport : String) : String :=
  (net.splitHost addrport).getD addrport

/-- How the hub reaches an agent. -/
inductive Transport where
  | quic (conn : Nat)
  | endpoint (url : String)
  deriving DecidableEq, Repr

def getTransport (net : Net) (regData : ConnRegistryData) : Option Transport :=
  match regData.quicConn with
  | some conn => some (.quic conn)
  | none =>
    let remotePingerEndpoint := regData.getAttribute attributeKeyHttpEndpoint
    if remotePingerEndpoint = "" then none
    else (net.urlWithPath remotePingerEndpoint defaultRemotePingerPath).map .endpoint

/-- The ranges an agent announced, without what does not parse. -/
def rangeCIDRs (net : Net) (regData : ConnRegistryData) : List IPNet :=
  (((split (regData.getAttribute attributeKeyRespondRange) ',').map trimSpace).filter
    (· ≠ "")).filterMap net.parseCIDR

def checkRemotePingerPolicy (net : Net) (regData : ConnRegistryData) (target : String)
    (outOfRangePolicy : String) : Bool :=
  if outOfRangePolicy = orPolicyDeny ∧ regData.getAttribute attributeKeyRespondRange ≠ "" then
    let rangeCIDRs := rangeCIDRs net regData
    -- a failed lookup leaves no address to check
    let dsts := (net.lookupIP "ip" target).toOption.getD []
    rangeCIDRs.isEmpty || checkIntersect dsts rangeCIDRs
  else true

/-! ## Clamps -/

def getRealPktTimeout (pingReq : SimplePingRequest) (maxPktTimeout : Option Int64) : Int64 :=
  match maxPktTimeout with
  | none => pingReq.pktTimeoutMilliseconds * millisecond
  | some maxPktTimeout =>
    let pktTimeoutMs :=
      if pingReq.pktTimeoutMilliseconds > milliseconds maxPktTimeout then
        milliseconds maxPktTimeout
      else pingReq.pktTimeoutMilliseconds
    pktTimeoutMs * millisecond

def getRealPktIntv (pingReq : SimplePingRequest) (minPktInterval : Option Int64) : Int64 :=
  match minPktInterval with
  | none => pingReq.intvMilliseconds * millisecond
  | some minPktInterval =>
    let intvMs :=
      if pingReq.intvMilliseconds < milliseconds minPktInterval then milliseconds minPktInterval
      else pingReq.intvMilliseconds
    intvMs * millisecond

/-- The number of packets after `PktCountClamp`. -/
def clampTotalPkts (totalPkts pktCountClamp : Option Int64) : Option Int64 :=
  match pktCountClamp, totalPkts with
  | none, _ => totalPkts
  | some clamp, none => some clamp
  | some clamp, some n => if n > clamp then some clamp else some n

/-- The request of the client after all clamps. -/
def clampForm (handler : PingTaskHandler) (form : SimplePingRequest) : SimplePingRequest :=
  { form with
    intvMilliseconds := milliseconds (getRealPktIntv form handler.minPktInterval)
    pktTimeoutMilliseconds := milliseconds (getRealPktTimeout form handler.maxPktTimeout)
    totalPkts := clampTotalPkts form.totalPkts handler.pktCountClamp }

/-! ## Dispatch -/

structure SimpleRemotePinger where
  nodeName : String
  endpoint : String
  request : SimplePingRequest
  extraRequestHeader : List (String × String)
  quicClient : Option Nat
  /-- The registry entry of the agent, which the source does not keep here. -/
  agent : ConnRegistryData

/-- What the loop over the from nodes collects. -/
structure Dispatch where
  /-- `pingers[from][target]`. -/
  pingers : Store (String × String) SimpleRemotePinger := ∅
  pingersFlat : List (SimpleRemotePinger × List (String × String)) := []
  /-- The error responses written so far. -/
  errors : List String := []

namespace Dispatch

/-- Keep the pinger of a target, or write the error. -/
def put (st : Dispatch) (from_ target : String) : Except String SimpleRemotePinger → Dispatch
  | .ok remotePinger => { st with pingers := st.pingers.insert (from_, target) remotePinger }
  | .error e => { st with errors := st.errors ++ [e] }

end Dispatch

/-- What the dispatch of one request is given. -/
structure TaskContext where
  net : Net
  handler : PingTaskHandler
  /-- `GetRemoteAddr` of the client. -/
  remoteAddr : String
  /-- The request after the clamps. -/
  form : SimplePingRequest

namespace TaskContext

variable (c : TaskContext)

/-- The policy check of one host for an agent. -/
def check (regData : ConnRegistryData) (target : String) : Bool :=
  checkRemotePingerPolicy c.net regData target c.handler.outOfRespondRangePolicy

def extraRequestHeader : List (String × String) :=
  [("X-Forwarded-For", c.remoteAddr), ("X-Real-IP", c.remoteAddr)]

/-- The pinger for a derived request. -/
def remotePinger (from_ : String) (regData : ConnRegistryData) (request : SimplePingRequest) :
    Transport → SimpleRemotePinger
  | .quic conn => ⟨from_, "", request, c.extraRequestHeader, some conn, regData⟩
  | .endpoint url => ⟨from_, url, request, c.extraRequestHeader, none, regData⟩

def policyError (kind : String) : String :=
  "failed to check remote pinger policy for " ++ kind ++ " target: <nil>"

/-- The body of the loop over the DNS targets. -/
def dnsPinger (from_ : String) (regData : ConnRegistryData) (dnsTarget : LookupParameter) :
    Except String SimpleRemotePinger :=
  if dnsTarget.correlationID = "" then
    .error ("invalid dns target from " ++ c.remoteAddr ++ ": correlation id is empty")
  else if dnsTarget.addrPort = "" then
    .error ("invalid dns target from " ++ c.remoteAddr ++ ": addrport is empty")
  else if !c.check regData (tryStripPort c.net dnsTarget.addrPort) then
    .error (policyError "dns")
  else
    match getTransport c.net regData with
    | none => .error (policyError "dns")
    | some transport =>
      .ok (c.remotePinger from_ regData (c.form.deriveAsDNSProbeRequest from_ dnsTarget) transport)

/-- The body of the loop over the ping targets. -/
def pingPinger (from_ : String) (regData : ConnRegistryData) (target : String) :
    Except String SimpleRemotePinger :=
  if !c.check regData target then .error (policyError "ping")
  else
    match getTransport c.net regData with
    | none => .error (policyError "ping")
    | some transport =>
      .ok (c.remotePinger from_ regData (c.form.deriveAsPingRequest from_ target) transport)

/-- The error written for an HTTP target.  The loop then goes on to the next one, and the
target stays in the request. -/
def httpTargetError (regData : ConnRegistryData) (tgt : HTTPTarget) : Option String :=
  match c.net.urlHostname tgt.url with
  | .error e => some ("failed to parse http target: " ++ e)
  | .ok host => if !c.check regData host then some (policyError "http") else none

def httpPinger (from_ : String) (regData : ConnRegistryData) : Except String SimpleRemotePinger :=
  match getTransport c.net regData with
  | none => .error (policyError "dns")
  | some transport =>
    .ok (c.remotePinger from_ regData
      (c.form.deriveAdHTTPProbeRequest from_ c.handler.httpResponseBodyClamp) transport)

def metadataKeyFrom : String := "from"
def metadataKeyTarget : String := "target"

def serveDNS (st : Dispatch) (from_ : String) (regData : ConnRegistryData) : Dispatch :=
  c.form.dnsTargets.foldl
    (fun st dnsTarget =>
      st.put from_ dnsTarget.correlationID (c.dnsPinger from_ regData dnsTarget)) st

def servePing (st : Dispatch) (from_ : String) (regData : ConnRegistryData) : Dispatch :=
  c.form.targets.foldl
    (fun st target => st.put from_ target (c.pingPinger from_ regData target)) st

def serveHTTP (st : Dispatch) (from_ : String) (regData : ConnRegistryData) : Dispatch :=
  let errors := st.errors ++ c.form.httpTargets.filterMap (c.httpTargetError regData)
  match c.httpPinger from_ regData with
  | .ok remotePinger =>
    { st with
      errors := errors
      pingersFlat := st.pingersFlat ++ [(remotePinger, [(metadataKeyFrom, from_)])] }
  | .error e => { st with errors := errors ++ [e] }

/-- How a from node is served. -/
inductive Served where
  | dns (regData : ConnRegistryData)
  | http (regData : ConnRegistryData)
  | ping (regData : ConnRegistryData)
  /-- Nothing is found, and nothing is said. -/
  | skipped

/-- The branch taken for a from node.  `walk i` is the walk of its `i`-th lookup. -/
def served (from_ : String) (walk : Nat → Option (List ConnRegistryData)) : Served :=
  match getConnWithCapability (walk 0) from_ attributeKeyDNSProbeCapability,
      decide (c.form.l7PacketType = some l7ProtoDNS) with
  | some dnsProbeable, true => .dns dnsProbeable
  | _, _ =>
    match getConnWithCapability (walk 1) from_ attributeKeyHTTPProbeCapability,
        decide (c.form.l7PacketType = some l7ProtoHTTP) with
    | some httpProbeable, true => .http httpProbeable
    | _, _ =>
      match getConnWithCapability (walk 2) from_ attributeKeyPingCapability with
      | some remotePingable => .ping remotePingable
      | none => .skipped

def serve (st : Dispatch) (from_ : String) : Served → Dispatch
  | .dns regData => c.serveDNS st from_ regData
  | .http regData => c.serveHTTP st from_ regData
  | .ping regData => c.servePing st from_ regData
  | .skipped => st

/-- The loop over the from nodes.  `walks n` has the walks for the `n`-th of them. -/
def dispatch (walks : Nat → Nat → Option (List ConnRegistryData)) : Dispatch :=
  c.form.froms.zipIdx.foldl
    (fun st (from_, n) => c.serve st from_ (c.served from_ (walks n))) {}

end TaskContext

/-- What a request comes to: the pingers that are started with their metadata, and the error
responses. -/
structure TaskResponse where
  started : List (SimpleRemotePinger × List (String × String)) := []
  errors : List String := []

/-- `PingTaskHandler.ServeHTTP`, up to the start of the pingers. -/
def PingTaskHandler.serveHTTP (handler : PingTaskHandler) (net : Net) (remoteAddr : String)
    (walks : Nat → Nat → Option (List ConnRegistryData))
    (parsed : Except String SimplePingRequest) : TaskResponse :=
  match parsed with
  | .error e => { errors := [e] }
  | .ok form =>
    let c : TaskContext := ⟨net, handler, remoteAddr, clampForm handler form⟩
    if c.form.froms = [] then { errors := ["you must specify at least one from node"] }
    else if c.form.targets = [] ∧ c.form.l7PacketType = none then
      { errors := ["you must specify at least one target"] }
    else
      let st := c.dispatch walks
      let pingersFlat := st.pingersFlat ++ st.pingers.entries.map fun e =>
        (e.2, [(TaskContext.metadataKeyFrom, e.1.1), (TaskContext.metadataKeyTarget, e.1.2)])
      if pingersFlat = [] then { errors := st.errors ++ ["no pingers to start"] }
      else { started := pingersFlat, errors := st.errors }

/-! ## What the dispatch collects -/

namespace Dispatch

variable {st : Dispatch} {from_ : String} {k : String × String}

@[simp] theorem put_pingersFlat (st : Dispatch) (from_ target : String)
    (r : Except String SimpleRemotePinger) :
    (st.put from_ target r).pingersFlat = st.pingersFlat := by
  cases r <;> rfl

theorem lookup_put (st : Dispatch) (from_ target : String)
    (r : Except String SimpleRemotePinger) (k : String × String) :
    (st.put from_ target r).pingers.lookup k =
      (if k = (from_, target) then r.toOption else none).or (st.pingers.lookup k) := by
  cases r with
  | error e => simp [put, Except.toOption]
  | ok p =>
    simp only [put, Store.lookup_insert_eq, Except.toOption]
    split <;> rfl

end Dispatch

namespace TaskContext

variable {c : TaskContext} {from_ : String} {regData : ConnRegistryData} {k : String × String}
variable {walks : Nat → Nat → Option (List ConnRegistryData)} {p : SimpleRemotePinger}

/-- The entries of the map a from node tries to make, in order. -/
def puts (c : TaskContext) (from_ : String) :
    Served → List (String × Except String SimpleRemotePinger)
  | .dns regData =>
    c.form.dnsTargets.map fun t => (t.correlationID, c.dnsPinger from_ regData t)
  | .ping regData => c.form.targets.map fun t => (t, c.pingPinger from_ regData t)
  | .http _ | .skipped => []

/-- The pinger a from node leaves under a key of the map. -/
def made (c : TaskContext) (from_ : String) (sv : Served) (k : String × String) :
    Option SimpleRemotePinger :=
  (c.puts from_ sv).reverse.findSome? fun x =>
    if k = (from_, x.1) then x.2.toOption else none

/-- The HTTP pinger a from node makes. -/
def madeFlat (c : TaskContext) (from_ : String) : Served → Option SimpleRemotePinger
  | .http regData => (c.httpPinger from_ regData).toOption
  | .dns _ | .ping _ | .skipped => none

theorem foldl_put (from_ : String) (k : String × String)
    (l : List (String × Except String SimpleRemotePinger)) (st : Dispatch) :
    (l.foldl (fun st x => st.put from_ x.1 x.2) st).pingersFlat = st.pingersFlat ∧
      (l.foldl (fun st x => st.put from_ x.1 x.2) st).pingers.lookup k =
        (l.reverse.findSome? fun x =>
          if k = (from_, x.1) then x.2.toOption else none).or (st.pingers.lookup k) := by
  induction l generalizing st with
  | nil => exact ⟨rfl, rfl⟩
  | cons x l ih =>
    obtain ⟨hflat, hlookup⟩ := ih (st.put from_ x.1 x.2)
    refine ⟨?_, ?_⟩
    · rw [List.foldl_cons, hflat, Dispatch.put_pingersFlat]
    · rw [List.foldl_cons, hlookup, Dispatch.lookup_put, List.reverse_cons,
        List.findSome?_append, Option.or_assoc]
      congr 2
      simp

/-- What serving a from node does to the two collections. -/
theorem serve_spec (c : TaskContext) (st : Dispatch) (from_ : String) (sv : Served) :
    (c.serve st from_ sv).pingersFlat = st.pingersFlat ++
        ((c.madeFlat from_ sv).map fun p => (p, [(metadataKeyFrom, from_)])).toList ∧
      ∀ k, (c.serve st from_ sv).pingers.lookup k =
        (c.made from_ sv k).or (st.pingers.lookup k) := by
  cases sv with
  | dns regData =>
    have hfold := fun k => foldl_put from_ k (c.puts from_ (.dns regData)) st
    simp only [puts, List.foldl_map] at hfold
    refine ⟨?_, fun k => (hfold k).2⟩
    rw [madeFlat, Option.map_none, Option.toList_none, List.append_nil]
    exact (hfold (from_, "")).1
  | ping regData =>
    have hfold := fun k => foldl_put from_ k (c.puts from_ (.ping regData)) st
    simp only [puts, List.foldl_map] at hfold
    refine ⟨?_, fun k => (hfold k).2⟩
    rw [madeFlat, Option.map_none, Option.toList_none, List.append_nil]
    exact (hfold (from_, "")).1
  | http regData =>
    simp only [serve, serveHTTP, madeFlat, made, puts]
    cases c.httpPinger from_ regData with
    | ok p => exact ⟨rfl, fun k => rfl⟩
    | error e => exact ⟨by simp [Except.toOption], fun k => rfl⟩
  | skipped => exact ⟨by simp [serve, madeFlat], fun k => rfl⟩

/-- The dispatch over a list of from nodes with their places. -/
theorem foldl_serve (c : TaskContext) (walks : Nat → Nat → Option (List ConnRegistryData))
    (k : String × String) (l : List (String × Nat)) (st : Dispatch) :
    (l.foldl (fun st x => c.serve st x.1 (c.served x.1 (walks x.2))) st).pingersFlat =
        st.pingersFlat ++ l.filterMap (fun x =>
          (c.madeFlat x.1 (c.served x.1 (walks x.2))).map fun p =>
            (p, [(metadataKeyFrom, x.1)])) ∧
      (l.foldl (fun st x => c.serve st x.1 (c.served x.1 (walks x.2))) st).pingers.lookup k =
        (l.reverse.findSome? fun x => c.made x.1 (c.served x.1 (walks x.2)) k).or
          (st.pingers.lookup k) := by
  induction l generalizing st with
  | nil => exact ⟨(List.append_nil _).symm, rfl⟩
  | cons x l ih =>
    obtain ⟨hflat, hlookup⟩ := ih (c.serve st x.1 (c.served x.1 (walks x.2)))
    obtain ⟨hflat', hlookup'⟩ := c.serve_spec st x.1 (c.served x.1 (walks x.2))
    refine ⟨?_, ?_⟩
    · rw [List.foldl_cons, hflat, hflat', List.append_assoc, List.filterMap_cons]
      cases c.madeFlat x.1 (c.served x.1 (walks x.2)) <;> rfl
    · rw [List.foldl_cons, hlookup, hlookup', List.reverse_cons, List.findSome?_append,
        Option.or_assoc]
      congr 2
      simp

theorem mem_dispatch_pingersFlat {m : List (String × String)} :
    (p, m) ∈ (c.dispatch walks).pingersFlat ↔
      ∃ x ∈ c.form.froms.zipIdx, c.madeFlat x.1 (c.served x.1 (walks x.2)) = some p ∧
        m = [(metadataKeyFrom, x.1)] := by
  have hflat := (foldl_serve c walks ("", "") c.form.froms.zipIdx {}).1
  rw [dispatch, hflat]
  simp only [List.nil_append, List.mem_filterMap, Option.map_eq_some_iff, Prod.mk.injEq]
  constructor
  · rintro ⟨x, hx, q, hq, rfl, hm⟩
    exact ⟨x, hx, hq, hm.symm⟩
  · rintro ⟨x, hx, hp, rfl⟩
    exact ⟨x, hx, p, hp, rfl, rfl⟩

/-- Searching an indexed list from its end finds the value with the greatest index. -/
theorem findSome?_reverse_zipIdx {α β : Type*} {l : List α} {f : α × Nat → Option β} {b : β} :
    l.zipIdx.reverse.findSome? f = some b ↔
      ∃ x ∈ l.zipIdx, f x = some b ∧ ∀ y ∈ l.zipIdx, x.2 < y.2 → f y = none := by
  have hlt : l.zipIdx.Pairwise (·.2 < ·.2) := by
    rw [← List.pairwise_map, List.zipIdx_map_snd]
    exact List.pairwise_lt_range'
  have hgt : l.zipIdx.reverse.Pairwise (·.2 > ·.2) := List.pairwise_reverse.2 hlt
  constructor
  · intro h
    obtain ⟨l₁, x, l₂, hl, hx, hnone⟩ := List.findSome?_eq_some_iff.1 h
    have hmem : ∀ y, y ∈ l.zipIdx ↔ y ∈ l₁ ++ x :: l₂ := fun y => by
      rw [← List.mem_reverse, hl]
    refine ⟨x, (hmem x).2 (by simp), hx, fun y hy hxy => ?_⟩
    rw [hl, List.pairwise_append, List.pairwise_cons] at hgt
    rcases List.mem_append.1 ((hmem y).1 hy) with hy | hy
    · exact hnone y hy
    rcases List.mem_cons.1 hy with rfl | hy
    · omega
    · have := hgt.2.1.1 y hy
      omega
  · rintro ⟨x, hx, hfx, hlast⟩
    cases hfind : l.zipIdx.reverse.findSome? f with
    | none =>
      rw [List.findSome?_eq_none_iff] at hfind
      cases (hfind x (List.mem_reverse.2 hx)).symm.trans hfx
    | some b' =>
      obtain ⟨l₁, y, l₂, hl, hy, hnone⟩ := List.findSome?_eq_some_iff.1 hfind
      have hx' : x ∈ l₁ ++ y :: l₂ := hl ▸ List.mem_reverse.2 hx
      have hy' : y ∈ l.zipIdx := List.mem_reverse.1 (hl ▸ by simp)
      rw [hl, List.pairwise_append, List.pairwise_cons] at hgt
      rcases List.mem_append.1 hx' with hx' | hx'
      · cases (hnone x hx').symm.trans hfx
      rcases List.mem_cons.1 hx' with rfl | hx'
      · rw [← hy, hfx]
      · cases (hlast y hy' (hgt.2.1.1 x hx')).symm.trans hy

theorem lookup_dispatch :
    (c.dispatch walks).pingers.lookup k = some p ↔
      ∃ x ∈ c.form.froms.zipIdx, c.made x.1 (c.served x.1 (walks x.2)) k = some p ∧
        ∀ y ∈ c.form.froms.zipIdx, x.2 < y.2 → c.made y.1 (c.served y.1 (walks y.2)) k = none := by
  have hlookup := (foldl_serve c walks k c.form.froms.zipIdx {}).2
  rw [dispatch, hlookup, AList.lookup_empty, Option.or_none, findSome?_reverse_zipIdx]

/-- What a from node leaves under a key is one of the pingers it makes. -/
theorem mem_puts_of_made {sv : Served} (h : c.made from_ sv k = some p) :
    ∃ target, k = (from_, target) ∧ (target, .ok p) ∈ c.puts from_ sv := by
  obtain ⟨⟨target, r⟩, hmem, hr⟩ := List.exists_of_findSome?_eq_some h
  split at hr
  next hk =>
    cases r with
    | error e => cases hr
    | ok q =>
      cases hr
      exact ⟨target, hk, List.mem_reverse.1 hmem⟩
  next => cases hr

theorem made_eq_none {sv : Served} :
    c.made from_ sv k = none ↔
      ∀ target p, k = (from_, target) → (target, .ok p) ∉ c.puts from_ sv := by
  rw [made, List.findSome?_eq_none_iff]
  constructor
  · intro h target p hk hmem
    have := h (target, .ok p) (List.mem_reverse.2 hmem)
    simp only [if_pos hk] at this
    cases this
  · rintro h ⟨target, r⟩ hmem
    split
    next hk =>
      cases r with
      | error e => rfl
      | ok p => exact absurd (List.mem_reverse.1 hmem) (h target p hk)
    next => rfl

/-- A request that names no protocol is a ping task. -/
theorem served_of_no_l7 (hl7 : c.form.l7PacketType = none) (from_ : String)
    (walk : Nat → Option (List ConnRegistryData)) :
    (∃ regData, c.served from_ walk = .ping regData) ∨ c.served from_ walk = .skipped := by
  simp only [served, hl7]
  split
  next h => cases h
  next =>
    split
    next h => cases h
    next =>
      split
      next regData _ => exact .inl ⟨regData, rfl⟩
      next => exact .inr rfl

/-- A request without targets and without a protocol leaves nothing to start. -/
theorem served_of_no_target (htargets : c.form.targets = []) (hl7 : c.form.l7PacketType = none)
    (from_ : String) (walk : Nat → Option (List ConnRegistryData)) :
    c.madeFlat from_ (c.served from_ walk) = none ∧
      ∀ k, c.made from_ (c.served from_ walk) k = none := by
  rcases served_of_no_l7 hl7 from_ walk with ⟨regData, hsv⟩ | hsv
  · rw [hsv]
    exact ⟨rfl, fun k => by simp [made, puts, htargets]⟩
  · rw [hsv]
    exact ⟨rfl, fun k => rfl⟩

/-! ## What the loop bodies make -/

@[simp] theorem remotePinger_agent (from_ : String) (request : SimplePingRequest)
    (t : Transport) : (c.remotePinger from_ regData request t).agent = regData := by
  cases t <;> rfl

@[simp] theorem remotePinger_request (from_ : String) (request : SimplePingRequest)
    (t : Transport) : (c.remotePinger from_ regData request t).request = request := by
  cases t <;> rfl

theorem dnsPinger_eq_ok {dnsTarget : LookupParameter} :
    c.dnsPinger from_ regData dnsTarget = .ok p ↔
      (dnsTarget.correlationID ≠ "" ∧ dnsTarget.addrPort ≠ "" ∧
          c.check regData (tryStripPort c.net dnsTarget.addrPort) = true) ∧
        ∃ transport, getTransport c.net regData = some transport ∧
          p = c.remotePinger from_ regData (c.form.deriveAsDNSProbeRequest from_ dnsTarget)
            transport := by
  simp only [dnsPinger]
  split
  next h => simp [h]
  next hid =>
    split
    next h => simp [h]
    next haddr =>
      split
      next h =>
        have h : c.check regData (tryStripPort c.net dnsTarget.addrPort) = false := by
          simpa using h
        simp [h]
      next hcheck =>
        have hcheck : c.check regData (tryStripPort c.net dnsTarget.addrPort) = true := by
          simpa using hcheck
        cases getTransport c.net regData with
        | none => simp
        | some transport =>
          constructor
          · intro h
            cases h
            exact ⟨⟨hid, haddr, hcheck⟩, transport, rfl, rfl⟩
          · rintro ⟨_, t, ht, rfl⟩
            cases ht
            rfl

theorem pingPinger_eq_ok {target : String} :
    c.pingPinger from_ regData target = .ok p ↔
      c.check regData target = true ∧
        ∃ transport, getTransport c.net regData = some transport ∧
          p = c.remotePinger from_ regData (c.form.deriveAsPingRequest from_ target)
            transport := by
  simp only [pingPinger]
  split
  next h =>
    have h : c.check regData target = false := by simpa using h
    simp [h]
  next hcheck =>
    have hcheck : c.check regData target = true := by simpa using hcheck
    cases getTransport c.net regData with
    | none => simp
    | some transport =>
      constructor
      · intro h
        cases h
        exact ⟨hcheck, transport, rfl, rfl⟩
      · rintro ⟨_, t, ht, rfl⟩
        cases ht
        rfl

theorem toOption_eq_some {α : Type*} {r : Except String α} {a : α} :
    r.toOption = some a ↔ r = .ok a := by
  cases r <;> simp [Except.toOption]

theorem httpPinger_eq_ok :
    c.httpPinger from_ regData = .ok p ↔
      ∃ transport, getTransport c.net regData = some transport ∧
        p = c.remotePinger from_ regData
          (c.form.deriveAdHTTPProbeRequest from_ c.handler.httpResponseBodyClamp) transport := by
  simp only [httpPinger]
  cases getTransport c.net regData with
  | none => simp
  | some transport => simp [eq_comm]

/-- What a from node makes has a request derived from that of the client. -/
theorem derived_of_made {sv : Served}
    (h : c.madeFlat from_ sv = some p ∨ ∃ k, c.made from_ sv k = some p) :
    (∃ dnsTarget ∈ c.form.dnsTargets,
        p.request = c.form.deriveAsDNSProbeRequest from_ dnsTarget) ∨
      (∃ target ∈ c.form.targets, p.request = c.form.deriveAsPingRequest from_ target) ∨
      p.request = c.form.deriveAdHTTPProbeRequest from_ c.handler.httpResponseBodyClamp := by
  rcases h with h | ⟨k, h⟩
  · cases sv with
    | http regData =>
      obtain ⟨transport, _, rfl⟩ := httpPinger_eq_ok.1 (toOption_eq_some.1 h)
      exact .inr (.inr (remotePinger_request _ _ _))
    | dns regData => cases h
    | ping regData => cases h
    | skipped => cases h
  · obtain ⟨target, _, hmem⟩ := mem_puts_of_made h
    cases sv with
    | dns regData =>
      obtain ⟨dnsTarget, htarget, heq⟩ := List.mem_map.1 hmem
      obtain ⟨_, transport, _, rfl⟩ := dnsPinger_eq_ok.1 (Prod.mk.inj heq).2
      exact .inl ⟨dnsTarget, htarget, remotePinger_request _ _ _⟩
    | ping regData =>
      obtain ⟨target', htarget, heq⟩ := List.mem_map.1 hmem
      obtain ⟨_, transport, _, rfl⟩ := pingPinger_eq_ok.1 (Prod.mk.inj heq).2
      exact .inr (.inl ⟨target', htarget, remotePinger_request _ _ _⟩)
    | http regData => cases hmem
    | skipped => cases hmem

end TaskContext

namespace PingTaskHandler

variable {handler : PingTaskHandler} {net : Net} {remoteAddr : String} {p : SimpleRemotePinger}
variable {walks : Nat → Nat → Option (List ConnRegistryData)} {form : SimplePingRequest}

/-- What the dispatch of a request is given. -/
def context (handler : PingTaskHandler) (net : Net) (remoteAddr : String)
    (form : SimplePingRequest) : TaskContext :=
  ⟨net, handler, remoteAddr, clampForm handler form⟩

/-- The pingers that are started are those the dispatch of some from node made last under
their key, and the HTTP pingers. -/
theorem started_iff {c : TaskContext} (hc : c = handler.context net remoteAddr form) :
    (∃ m, (p, m) ∈ (handler.serveHTTP net remoteAddr walks (.ok form)).started) ↔
      ∃ x ∈ form.froms.zipIdx,
        c.madeFlat x.1 (c.served x.1 (walks x.2)) = some p ∨
          ∃ k, c.made x.1 (c.served x.1 (walks x.2)) k = some p ∧
            ∀ y ∈ form.froms.zipIdx, x.2 < y.2 →
              c.made y.1 (c.served y.1 (walks y.2)) k = none := by
  subst hc
  by_cases hidle : form.froms = [] ∨ (form.targets = [] ∧ form.l7PacketType = none)
  · have hstarted : (handler.serveHTTP net remoteAddr walks (.ok form)).started = [] := by
      simp only [serveHTTP]
      split
      next => rfl
      next hfroms =>
        split
        next => rfl
        next hnone => exact absurd hidle (not_or.2 ⟨hfroms, hnone⟩)
    rw [hstarted]
    constructor
    · rintro ⟨m, hm⟩
      cases hm
    · rintro ⟨x, hx, hmade⟩
      rcases hidle with hfroms | ⟨htargets, hl7⟩
      · rw [hfroms] at hx
        cases hx
      · have hnone := TaskContext.served_of_no_target
          (c := handler.context net remoteAddr form) htargets hl7 x.1 (walks x.2)
        rcases hmade with hmade | ⟨k, hmade, _⟩
        · cases hnone.1.symm.trans hmade
        · cases (hnone.2 k).symm.trans hmade
  have hstarted : (handler.serveHTTP net remoteAddr walks (.ok form)).started =
      ((handler.context net remoteAddr form).dispatch walks).pingersFlat ++
        ((handler.context net remoteAddr form).dispatch walks).pingers.entries.map fun e =>
          (e.2, [(TaskContext.metadataKeyFrom, e.1.1),
            (TaskContext.metadataKeyTarget, e.1.2)]) := by
    simp only [serveHTTP]
    split
    next hfroms => exact absurd (.inl hfroms) hidle
    next =>
      split
      next hnone => exact absurd (.inr hnone) hidle
      next =>
        split
        next hnil => exact hnil.symm
        next => rfl
  rw [hstarted]
  constructor
  · rintro ⟨m, hm⟩
    rcases List.mem_append.1 hm with hm | hm
    · obtain ⟨x, hx, hp, _⟩ := TaskContext.mem_dispatch_pingersFlat.1 hm
      exact ⟨x, hx, .inl hp⟩
    · obtain ⟨⟨k, q⟩, he, heq⟩ := List.mem_map.1 hm
      cases heq
      obtain ⟨x, hx, hp, hlast⟩ := TaskContext.lookup_dispatch.1 (AList.mem_lookup_iff.2 he)
      exact ⟨x, hx, .inr ⟨k, hp, hlast⟩⟩
  · rintro ⟨x, hx, hp | ⟨k, hp, hlast⟩⟩
    · exact ⟨_, List.mem_append_left _ (TaskContext.mem_dispatch_pingersFlat.2 ⟨x, hx, hp, rfl⟩)⟩
    · have hlookup := TaskContext.lookup_dispatch.2 ⟨x, hx, hp, hlast⟩
      exact ⟨_, List.mem_append_right _ (List.mem_map.2 ⟨_, AList.mem_lookup_iff.1 hlookup, rfl⟩)⟩

/-- Every started request has the numbers of the request of the client after the clamps. -/
theorem numbers_of_started {started : SimpleRemotePinger × List (String × String)}
    (h : started ∈ (handler.serveHTTP net remoteAddr walks (.ok form)).started) :
    started.1.request.intvMilliseconds = (clampForm handler form).intvMilliseconds ∧
      started.1.request.pktTimeoutMilliseconds =
        (clampForm handler form).pktTimeoutMilliseconds ∧
      started.1.request.totalPkts = (clampForm handler form).totalPkts := by
  obtain ⟨x, _, hmade⟩ := (started_iff rfl).1 ⟨started.2, h⟩
  have hderived := TaskContext.derived_of_made
    (hmade.imp_right fun ⟨k, hk, _⟩ => ⟨k, hk⟩)
  rcases hderived with ⟨dnsTarget, _, hp⟩ | ⟨target, _, hp⟩ | hp <;>
  · rw [hp]
    exact ⟨rfl, rfl, rfl⟩

end PingTaskHandler

end CloudPing.Handler

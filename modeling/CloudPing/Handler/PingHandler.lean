import CloudPing.Pinger.Request
import CloudPing.Utils.Addr

/-!
# The HTTP targets of an agent

`PingHandler` runs on an agent.  It checks a request against the ranges the agent responds
to and brings up a pinger.  This is its part for HTTP targets.

The handler resolves the host of each URL once and checks all addresses of the answer.  The
dials of the probe come later, and `doDNSLookup` resolves for each of them anew and takes
the first address.
-/

namespace CloudPing.Handler

open CloudPing.Pinger CloudPing.Utils CloudPing.Httpprobe

/-! ## The network -/

/-- What HTTP probes use of `net` and `net/http`, next to what the handlers use. -/
structure ProbeNet extends Net where
  /-- `IP.String`. -/
  ipString : IP → String
  splitHostPort : String → Except String (String × String)
  joinHostPort : String → String → String
  /-- The URL that `http.NewRequest` makes of a string. -/
  requestURL : String → String
  /-- The address that the transport dials for a URL, with its port.  The host is that of the
  URL in ASCII, or that of a proxy. -/
  dialAddr : String → String

/-- What `Resolver.LookupIP` is asked, and by which server.  Without one it is the default
resolver. -/
structure HostQuery where
  resolver : Option String
  network : String
  host : String

/-- What the servers answer at some time. -/
abbrev DNS := HostQuery → Except String (List IP)

/-- The address is of the family that is asked for. -/
def suits (network : String) (ip : IP) : Bool :=
  network = "ip" ∨ (network = "ip4" ∧ ip.to4.isSome) ∨ (network = "ip6" ∧ ip.to4.isNone)

/-- `Resolver.LookupIP`.  No server is asked for a host that is an address. -/
def resolve (net : ProbeNet) (dns : DNS) (query : HostQuery) : Except String (List IP) :=
  match net.parseIP query.host with
  | some ip => if suits query.network ip then .ok [ip] else .error "no suitable address found"
  | none => dns query

theorem resolve_addr {net : ProbeNet} {dns : DNS} {query : HostQuery} {ip : IP} {ips : List IP}
    (hip : net.parseIP query.host = some ip) (h : resolve net dns query = .ok ips) :
    ips = [ip] := by
  simp only [resolve, hip] at h
  split at h
  next => cases h; rfl
  next => cases h

/-- A pointer that is not nil and not to the empty string. -/
def given (s : Option String) : Option String := s.filter (· ≠ "")

/-! ## The handler -/

structure PingHandler where
  respondRange : List IPNet := []
  domainRespondRange : List (String → Bool) := []
  httpProbeAdditionalCA : List String := []

namespace PingHandler

variable (ph : PingHandler) (net : ProbeNet) (pingRequest : SimplePingRequest) (dns : DNS)

/-- The check of the list of targets, which is made for every kind of request. -/
def checkTargets : Except String Unit :=
  if ph.domainRespondRange = [] then .ok ()
  else
    match pingRequest.targets.find? fun dest =>
      (net.parseIP dest).isNone && !checkDomainInRange dest ph.domainRespondRange with
    | some domain =>
      .error ("domain " ++ domain ++ " does not match any pattern in the domain respond range")
    | none => .ok ()

def ipPref : String :=
  if pingRequest.preferV6 = some true then "ip6"
  else if pingRequest.preferV4 = some true then "ip4"
  else "ip"

/-- What `lookupIP` asks. -/
def lookupIP (host : String) (resolverEndpoint inetFamilyPreference : Option String) :
    HostQuery where
  resolver := given resolverEndpoint <|> given pingRequest.resolver
  network := (given inetFamilyPreference).getD (ipPref pingRequest)
  host := host

/-- The target with the resolver of the request, if it has none. -/
def withResolver (tgt : HTTPTarget) : HTTPTarget :=
  { tgt with resolver := given tgt.resolver <|> pingRequest.resolver }

def withIPPref (tgt : HTTPTarget) : HTTPTarget :=
  { tgt with ipPref := some ((given tgt.ipPref).getD (ipPref pingRequest)) }

def withUserAgent (tgt : HTTPTarget) : HTTPTarget :=
  if tgt.extraHeaders.get "User-Agent" = "" then
    { tgt with
      extraHeaders := ("User-Agent", ["cloudping/1.0"]) ::
        tgt.extraHeaders.filter fun field => field.1 ≠ "User-Agent" }
  else tgt

/-- The resolver of the target is an address in range, or there is none. -/
def checkResolver (tgt : HTTPTarget) : Except String Unit :=
  match tgt.resolver with
  | none => .ok ()
  | some resolver =>
    match net.parseIP resolver with
    | none => .error ("failed to parse resolver ip from string: " ++ resolver)
    | some resolverIP =>
      if checkIntersectIP resolverIP ph.respondRange then .ok ()
      else .error ("resolver ip " ++ net.ipString resolverIP ++ " is not in the respond range")

/-- The addresses of the host at the time of the request are in range. -/
def checkHost (host : String) (tgt : HTTPTarget) : Except String Unit :=
  match resolve net dns (lookupIP pingRequest host tgt.resolver tgt.ipPref) with
  | .error err => .error ("failed to lookup ip for host " ++ host ++ ": " ++ err)
  | .ok ips =>
    if checkIntersect ips ph.respondRange then .ok ()
    else .error ("ips [" ++ " ".intercalate (ips.map net.ipString) ++
      "] are not in the respond range")

/-- The checks against the range of addresses, if there is one. -/
def checkRange (host : String) (tgt : HTTPTarget) : Except String HTTPTarget :=
  if ph.respondRange = [] then .ok tgt
  else
    match ph.checkResolver net tgt with
    | .error err => .error err
    | .ok () =>
      match ph.checkHost net pingRequest dns host (withIPPref pingRequest tgt) with
      | .error err => .error err
      | .ok () => .ok (withIPPref pingRequest tgt)

/-- The target as it is probed, or the error that ends the request. -/
def checkTarget (tgt : HTTPTarget) : Except String HTTPTarget :=
  match net.urlHostname tgt.url with
  | .error err => .error ("failed to parse http url " ++ tgt.url ++ ": " ++ err)
  | .ok host =>
    if ph.domainRespondRange ≠ [] ∧ (net.parseIP host).isNone ∧
        checkDomainInRange host ph.domainRespondRange = false then
      .error ("host " ++ host ++ " does not match any pattern in the domain respond range")
    else
      match ph.checkRange net pingRequest dns host (withResolver pingRequest tgt) with
      | .error err => .error err
      | .ok tgt => .ok (withUserAgent tgt)

/-! ### What a check comes to -/

/-- The host name matches a pattern. -/
def NameInRange (host : String) : Prop :=
  ph.domainRespondRange ≠ [] → net.parseIP host = none →
    checkDomainInRange host ph.domainRespondRange = true

/-- The address is in range. -/
def AddrInRange (ip : IP) : Prop :=
  ph.respondRange ≠ [] → checkIntersectIP ip ph.respondRange = true

/-- What holds of every target that is probed: the name in its URL, the address where it is
one, and the resolver. -/
structure Checked (tgt : HTTPTarget) : Prop where
  name : ∀ host, net.urlHostname tgt.url = .ok host → ph.NameInRange net host
  addr : ∀ host ip, net.urlHostname tgt.url = .ok host → net.parseIP host = some ip →
    ph.AddrInRange ip
  resolver : ph.respondRange ≠ [] → ∀ resolver, tgt.resolver = some resolver →
    ∃ ip, net.parseIP resolver = some ip ∧ checkIntersectIP ip ph.respondRange = true

variable {ph net pingRequest dns} {tgt tgt' : HTTPTarget} {host : String}

theorem url_withUserAgent (tgt : HTTPTarget) : (withUserAgent tgt).url = tgt.url := by
  rw [withUserAgent]
  split
  next => rfl
  next => rfl

theorem resolver_withUserAgent (tgt : HTTPTarget) :
    (withUserAgent tgt).resolver = tgt.resolver := by
  rw [withUserAgent]
  split
  next => rfl
  next => rfl

theorem checkResolver_ok {u : Unit} (h : ph.checkResolver net tgt = .ok u) :
    ∀ resolver, tgt.resolver = some resolver →
      ∃ ip, net.parseIP resolver = some ip ∧ checkIntersectIP ip ph.respondRange = true := by
  intro resolver hr
  rw [checkResolver, hr] at h
  cases hp : net.parseIP resolver with
  | none => simp [hp] at h
  | some ip =>
    simp only [hp] at h
    split at h
    next hin => exact ⟨ip, rfl, hin⟩
    next => cases h

/-- A host that is an address has passed only if it is in range. -/
theorem checkHost_ok {u : Unit} {ip : IP} (h : ph.checkHost net pingRequest dns host tgt = .ok u)
    (hip : net.parseIP host = some ip) : checkIntersectIP ip ph.respondRange = true := by
  rw [checkHost] at h
  split at h
  next => cases h
  next ips hips =>
    rw [resolve_addr hip hips] at h
    split at h
    next hin => exact checkIntersect_eq_true.1 hin ip List.mem_cons_self
    next => cases h

theorem checkRange_ok (h : ph.checkRange net pingRequest dns host tgt = .ok tgt') :
    tgt'.url = tgt.url ∧ (∀ ip, net.parseIP host = some ip → ph.AddrInRange ip) ∧
      (ph.respondRange ≠ [] → ∀ resolver, tgt'.resolver = some resolver →
        ∃ ip, net.parseIP resolver = some ip ∧ checkIntersectIP ip ph.respondRange = true) := by
  rw [checkRange] at h
  split at h
  next hr =>
    cases h
    exact ⟨rfl, fun _ _ hne => absurd hr hne, fun hne => absurd hr hne⟩
  next =>
    split at h
    next => cases h
    next hres =>
      split at h
      next => cases h
      next hhost =>
        cases h
        exact ⟨rfl, fun ip hip _ => checkHost_ok hhost hip, fun _ => checkResolver_ok hres⟩

/-- A target that is probed has the URL it was asked for with, and has been checked. -/
theorem checkTarget_ok (h : ph.checkTarget net pingRequest dns tgt = .ok tgt') :
    tgt'.url = tgt.url ∧ ph.Checked net tgt' := by
  rw [checkTarget] at h
  split at h
  next => cases h
  next host hhost =>
    split at h
    next => cases h
    next hname =>
      split at h
      next => cases h
      next tgt'' hrange =>
        cases h
        obtain ⟨hurl, haddr, hresolver⟩ := checkRange_ok hrange
        have hurl' : (withUserAgent tgt'').url = tgt.url := by rw [url_withUserAgent, hurl]; rfl
        refine ⟨hurl', fun host' hhost' hd hp => ?_, fun host' ip hhost' => ?_, ?_⟩
        · rw [hurl', hhost] at hhost'
          cases hhost'
          by_contra hc
          exact hname ⟨hd, by rw [hp]; rfl, by simpa using hc⟩
        · rw [hurl', hhost] at hhost'
          cases hhost'
          exact haddr ip
        · rw [resolver_withUserAgent]
          exact hresolver

end PingHandler

end CloudPing.Handler

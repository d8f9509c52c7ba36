import CloudPing.Handler.PingTask

/-!
# What the deny policy keeps from agents

Under the policy `deny` the hub checks a target against the range its agent announced before
it makes a request for it.  A derived request, however, is a copy of the whole request of
the client, and each branch replaces and filters only the list it is about.  The other
lists reach the agent as the client sent them, and the HTTP branch filters nothing: an
address that fails the check is answered with an error and stays in the list.

`Carried` says of a branch that the lists it does not filter pass.  It is the exact
condition, for each from node of which a request is started, under which every started
request holds only what passed.
-/

namespace CloudPing.Handler

open CloudPing.Nodereg CloudPing.Pinger CloudPing.Utils

namespace TaskContext

variable (c : TaskContext) (regData : ConnRegistryData)

/-! ## What passes -/

/-- A DNS server passes the check. -/
def ServerPasses (dnsTarget : LookupParameter) : Prop :=
  c.check regData (tryStripPort c.net dnsTarget.addrPort) = true

/-- A URL parses and its host passes the check. -/
def URLPasses (url : String) : Prop :=
  ∃ host, c.net.urlHostname url = .ok host ∧ c.check regData host = true

/-- All that a request carries passes the check for an agent. -/
structure Passes (request : SimplePingRequest) : Prop where
  targets : ∀ target ∈ request.targets, c.check regData target = true
  dnsTargets : ∀ dnsTarget ∈ request.dnsTargets, c.ServerPasses regData dnsTarget
  httpTargets : ∀ tgt ∈ request.httpTargets, c.URLPasses regData tgt.url

/-! ## The condition -/

/-- The lists of the client that the branch does not filter pass. -/
def Carried : Served → Prop
  | .dns regData =>
    (∀ target ∈ c.form.targets, c.check regData target = true) ∧
      ∀ tgt ∈ c.form.httpTargets, c.URLPasses regData tgt.url
  | .http regData =>
    (∀ target ∈ c.form.targets, c.check regData target = true) ∧
      (∀ dnsTarget ∈ c.form.dnsTargets, c.ServerPasses regData dnsTarget) ∧
      ∀ tgt ∈ c.form.httpTargets, c.URLPasses regData tgt.url
  | .ping regData =>
    (∀ dnsTarget ∈ c.form.dnsTargets, c.ServerPasses regData dnsTarget) ∧
      ∀ tgt ∈ c.form.httpTargets, c.URLPasses regData tgt.url
  | .skipped => True

/-- A from node makes a request under a key of the map. -/
def Writes (from_ : String) (k : String × String) : Served → Prop
  | .dns regData =>
    (getTransport c.net regData).isSome ∧
      ∃ dnsTarget ∈ c.form.dnsTargets, k = (from_, dnsTarget.correlationID) ∧
        dnsTarget.correlationID ≠ "" ∧ dnsTarget.addrPort ≠ "" ∧
        c.ServerPasses regData dnsTarget
  | .ping regData =>
    (getTransport c.net regData).isSome ∧
      ∃ target ∈ c.form.targets, k = (from_, target) ∧ c.check regData target = true
  | .http _ | .skipped => False

/-- Some request of the from node is started: an HTTP request, or one under a key that no
later from node writes. -/
def Starts (walks : Nat → Nat → Option (List ConnRegistryData)) (x : String × Nat) : Prop :=
  (∃ regData, c.served x.1 (walks x.2) = .http regData ∧
      (getTransport c.net regData).isSome) ∨
    ∃ k, c.Writes x.1 k (c.served x.1 (walks x.2)) ∧
      ∀ y ∈ c.form.froms.zipIdx, x.2 < y.2 → ¬ c.Writes y.1 k (c.served y.1 (walks y.2))

/-! ## What the requests of a branch carry -/

variable {c regData} {from_ : String} {p : SimpleRemotePinger} {k : String × String}

theorem passes_dns {dnsTarget : LookupParameter} (h : c.ServerPasses regData dnsTarget) :
    c.Passes regData (c.form.deriveAsDNSProbeRequest from_ dnsTarget) ↔
      c.Carried (.dns regData) := by
  constructor
  · intro hp
    exact ⟨hp.targets, hp.httpTargets⟩
  · intro hc
    refine ⟨hc.1, fun t ht => ?_, hc.2⟩
    rw [List.mem_singleton.1 ht]
    exact h

theorem passes_ping {target : String} (h : c.check regData target = true) :
    c.Passes regData (c.form.deriveAsPingRequest from_ target) ↔ c.Carried (.ping regData) := by
  constructor
  · intro hp
    exact ⟨hp.dnsTargets, hp.httpTargets⟩
  · intro hc
    refine ⟨fun t ht => ?_, hc.1, hc.2⟩
    rw [List.mem_singleton.1 ht]
    exact h

theorem passes_http (maximumBodyRead : Option Int64) :
    c.Passes regData (c.form.deriveAdHTTPProbeRequest from_ maximumBodyRead) ↔
      c.Carried (.http regData) := by
  constructor
  · intro hp
    refine ⟨hp.targets, hp.dnsTargets, fun tgt htgt => ?_⟩
    exact hp.httpTargets (tgt.clampBody maximumBodyRead) (List.mem_map_of_mem htgt)
  · intro hc
    refine ⟨hc.1, hc.2.1, fun tgt htgt => ?_⟩
    obtain ⟨tgt, hmem, rfl⟩ := List.mem_map.1 htgt
    exact hc.2.2 tgt hmem

/-- A request a from node leaves in the map passes exactly if what the branch carries does. -/
theorem passes_of_made {sv : Served} (h : c.made from_ sv k = some p) :
    c.Passes p.agent p.request ↔ c.Carried sv := by
  obtain ⟨target, _, hmem⟩ := mem_puts_of_made h
  cases sv with
  | dns regData =>
    obtain ⟨dnsTarget, _, heq⟩ := List.mem_map.1 hmem
    obtain ⟨⟨_, _, hserver⟩, transport, _, rfl⟩ := dnsPinger_eq_ok.1 (Prod.mk.inj heq).2
    rw [remotePinger_agent, remotePinger_request, passes_dns hserver]
  | ping regData =>
    obtain ⟨target', _, heq⟩ := List.mem_map.1 hmem
    obtain ⟨hcheck, transport, _, rfl⟩ := pingPinger_eq_ok.1 (Prod.mk.inj heq).2
    rw [remotePinger_agent, remotePinger_request, passes_ping hcheck]
  | http regData => cases hmem
  | skipped => cases hmem

theorem passes_of_madeFlat {sv : Served} (h : c.madeFlat from_ sv = some p) :
    c.Passes p.agent p.request ↔ c.Carried sv := by
  cases sv with
  | http regData =>
    obtain ⟨transport, _, rfl⟩ := httpPinger_eq_ok.1 (toOption_eq_some.1 h)
    rw [remotePinger_agent, remotePinger_request, passes_http]
  | dns regData => cases h
  | ping regData => cases h
  | skipped => cases h

theorem madeFlat_isSome {sv : Served} :
    (∃ p, c.madeFlat from_ sv = some p) ↔
      ∃ regData, sv = .http regData ∧ (getTransport c.net regData).isSome := by
  constructor
  · rintro ⟨p, hp⟩
    cases sv with
    | http regData =>
      obtain ⟨transport, ht, _⟩ := httpPinger_eq_ok.1 (toOption_eq_some.1 hp)
      exact ⟨regData, rfl, by rw [ht]; rfl⟩
    | dns regData => cases hp
    | ping regData => cases hp
    | skipped => cases hp
  · rintro ⟨regData, rfl, ht⟩
    obtain ⟨transport, ht⟩ := Option.isSome_iff_exists.1 ht
    exact ⟨_, toOption_eq_some.2 (httpPinger_eq_ok.2 ⟨transport, ht, rfl⟩)⟩

/-- A from node leaves a pinger under a key exactly if it writes the key. -/
theorem made_eq_none_iff {sv : Served} : c.made from_ sv k = none ↔ ¬ c.Writes from_ k sv := by
  rw [made_eq_none]
  cases sv with
  | dns regData =>
    constructor
    · rintro h ⟨ht, dnsTarget, hmem, rfl, hcond⟩
      obtain ⟨transport, ht⟩ := Option.isSome_iff_exists.1 ht
      obtain ⟨p, hp⟩ : ∃ p, c.dnsPinger from_ regData dnsTarget = .ok p :=
        ⟨_, dnsPinger_eq_ok.2 ⟨hcond, transport, ht, rfl⟩⟩
      exact h _ _ rfl (List.mem_map.2 ⟨dnsTarget, hmem, by rw [hp]⟩)
    · rintro h target p rfl hmem
      obtain ⟨dnsTarget, hmem, heq⟩ := List.mem_map.1 hmem
      obtain ⟨htarget, hp⟩ := Prod.mk.inj heq
      obtain ⟨hcond, transport, ht, _⟩ := dnsPinger_eq_ok.1 hp
      exact h ⟨by rw [ht]; rfl, dnsTarget, hmem, by rw [htarget], hcond⟩
  | ping regData =>
    constructor
    · rintro h ⟨ht, target, hmem, rfl, hcheck⟩
      obtain ⟨transport, ht⟩ := Option.isSome_iff_exists.1 ht
      obtain ⟨p, hp⟩ : ∃ p, c.pingPinger from_ regData target = .ok p :=
        ⟨_, pingPinger_eq_ok.2 ⟨hcheck, transport, ht, rfl⟩⟩
      exact h _ _ rfl (List.mem_map.2 ⟨target, hmem, by rw [hp]⟩)
    · rintro h target p rfl hmem
      obtain ⟨target', htarget, heq⟩ := List.mem_map.1 hmem
      obtain ⟨rfl, hp⟩ := Prod.mk.inj heq
      obtain ⟨hcheck, transport, ht, _⟩ := pingPinger_eq_ok.1 hp
      exact h ⟨by rw [ht]; rfl, target', htarget, rfl, hcheck⟩
  | http regData => exact ⟨fun _ h => h, fun _ _ _ _ hmem => by cases hmem⟩
  | skipped => exact ⟨fun _ h => h, fun _ _ _ _ hmem => by cases hmem⟩

/-- A from node starts a request exactly if the dispatch keeps one of its pingers. -/
theorem starts_iff {walks : Nat → Nat → Option (List ConnRegistryData)} {x : String × Nat} :
    c.Starts walks x ↔
      ∃ p, c.madeFlat x.1 (c.served x.1 (walks x.2)) = some p ∨
        ∃ k, c.made x.1 (c.served x.1 (walks x.2)) k = some p ∧
          ∀ y ∈ c.form.froms.zipIdx, x.2 < y.2 →
            c.made y.1 (c.served y.1 (walks y.2)) k = none := by
  have hwrites : ∀ sv k, c.Writes x.1 k sv ↔ ∃ p, c.made x.1 sv k = some p := fun sv k => by
    rw [← Option.isSome_iff_exists, ← not_iff_not, ← made_eq_none_iff, Option.not_isSome_iff_eq_none]
  rw [Starts, ← madeFlat_isSome]
  constructor
  · rintro (⟨p, hp⟩ | ⟨k, hk, hlast⟩)
    · exact ⟨p, .inl hp⟩
    · obtain ⟨p, hp⟩ := (hwrites _ _).1 hk
      exact ⟨p, .inr ⟨k, hp, fun y hy hxy => made_eq_none_iff.2 (hlast y hy hxy)⟩⟩
  · rintro ⟨p, hp | ⟨k, hp, hlast⟩⟩
    · exact .inl ⟨p, hp⟩
    · refine .inr ⟨k, (hwrites _ _).2 ⟨p, hp⟩, fun y hy hxy => ?_⟩
      exact made_eq_none_iff.1 (hlast y hy hxy)

end TaskContext

namespace PingTaskHandler

open TaskContext

/-- Every started request carries only what passed the check for its agent, exactly if for
each from node of which a request is started the lists its branch does not filter pass. -/
theorem deny_enforced (handler : PingTaskHandler) (net : Net) (remoteAddr : String)
    (walks : Nat → Nat → Option (List ConnRegistryData)) (form : SimplePingRequest) :
    (∀ started ∈ (handler.serveHTTP net remoteAddr walks (.ok form)).started,
        (handler.context net remoteAddr form).Passes started.1.agent started.1.request) ↔
      ∀ x ∈ form.froms.zipIdx, (handler.context net remoteAddr form).Starts walks x →
        (handler.context net remoteAddr form).Carried
          ((handler.context net remoteAddr form).served x.1 (walks x.2)) := by
  constructor
  · intro h x hx hstarts
    obtain ⟨p, hp⟩ := starts_iff.1 hstarts
    obtain ⟨m, hm⟩ := (started_iff rfl).2 ⟨x, hx, hp⟩
    have hpasses := h (p, m) hm
    rcases hp with hp | ⟨k, hp, _⟩
    · exact (passes_of_madeFlat hp).1 hpasses
    · exact (passes_of_made hp).1 hpasses
  · rintro h ⟨p, m⟩ hm
    obtain ⟨x, hx, hp⟩ := (started_iff rfl).1 ⟨m, hm⟩
    have hcarried := h x hx (starts_iff.2 ⟨p, hp⟩)
    rcases hp with hp | ⟨k, hp, _⟩
    · exact (passes_of_madeFlat hp).2 hcarried
    · exact (passes_of_made hp).2 hcarried

/-- A network whose only name leads to 192.0.2.1. -/
def sampleNet : Net where
  lookupIP _ _ := .ok [[192, 0, 2, 1]]
  parseCIDR s := if s = "10.0.0.0/8" then some ⟨[10, 0, 0, 0], [255, 0, 0, 0]⟩ else none
  parseIP _ := none
  splitHost _ := none
  urlHostname url := if url = "http://example.com/" then .ok "example.com" else .error "parse"
  urlWithPath _ _ := none

/-- An agent that announced the range 10.0.0.0/8. -/
def sampleAgent : ConnRegistryData where
  connectedAt := 0
  attributes := (∅ : ConnectionAttributes)
    |>.insert attributeKeyPingCapability "true"
    |>.insert attributeKeyNodeName "node"
    |>.insert attributeKeyRespondRange "10.0.0.0/8"
  quicConn := some 1

/-- An HTTP task for one address. -/
def sampleForm : SimplePingRequest where
  froms := ["node"]
  intvMilliseconds := 1000
  pktTimeoutMilliseconds := 3000
  l7PacketType := some l7ProtoHTTP
  httpTargets := [{ url := "http://example.com/", proto := none, sizeLimit := none,
                    ipPref := none, numHeadersFieldsLimit := none }]

/-- The address of the task fails the check, and the agent gets it all the same. -/
theorem denied_url_dispatched :
    let handler : PingTaskHandler := { outOfRespondRangePolicy := orPolicyDeny }
    ∃ started ∈ (handler.serveHTTP sampleNet "192.0.2.9" (fun _ _ => some [sampleAgent])
        (.ok sampleForm)).started,
      ∃ tgt ∈ started.1.request.httpTargets, ∃ host,
        sampleNet.urlHostname tgt.url = .ok host ∧
        checkRemotePingerPolicy sampleNet started.1.agent host orPolicyDeny = false := by
  intro handler
  have hany : ((handler.serveHTTP sampleNet "192.0.2.9" (fun _ _ => some [sampleAgent])
      (.ok sampleForm)).started.any fun started =>
        started.1.request.httpTargets.any fun tgt =>
          (sampleNet.urlHostname tgt.url).toOption.any fun host =>
            !checkRemotePingerPolicy sampleNet started.1.agent host orPolicyDeny) = true := by
    decide +kernel
  obtain ⟨started, hstarted, htgts⟩ := List.any_eq_true.1 hany
  obtain ⟨tgt, htgt, hcheck⟩ := List.any_eq_true.1 htgts
  refine ⟨started, hstarted, tgt, htgt, ?_⟩
  obtain ⟨host, hhost, hdenied⟩ := (Option.any_eq_true _ _).1 hcheck
  cases hurl : sampleNet.urlHostname tgt.url with
  | error err =>
    rw [hurl] at hhost
    cases hhost
  | ok host' =>
    rw [hurl] at hhost
    obtain rfl := Option.some.inj hhost
    exact ⟨host', rfl, by simpa using hdenied⟩

end PingTaskHandler

/-! ## A check without an address

A failed lookup leaves the check without an address, and no address is out of range. -/

/-- The target resolves without an error to addresses that are all in the ranges. -/
def ResolvesInRange (net : Net) (rangeCIDRs : List IPNet) (target : String) : Prop :=
  ∃ ips, net.lookupIP "ip" target = .ok ips ∧ ips ≠ [] ∧
    ∀ ip ∈ ips, ∃ rangeCIDR ∈ rangeCIDRs, rangeCIDR.contains ip = true

theorem getAttribute_ne_empty {net : Net} {regData : ConnRegistryData}
    (h : rangeCIDRs net regData ≠ []) :
    regData.getAttribute attributeKeyRespondRange ≠ "" := by
  intro hempty
  have htrim : trimSpace "" = "" := rfl
  have hsplit : split "" ',' = [""] := rfl
  rw [rangeCIDRs, hempty, hsplit, List.map_singleton, htrim] at h
  exact h rfl

/-- With a range the check is about the addresses that were found. -/
theorem checkRemotePingerPolicy_deny {net : Net} {regData : ConnRegistryData} (target : String)
    (h : rangeCIDRs net regData ≠ []) :
    checkRemotePingerPolicy net regData target orPolicyDeny =
      checkIntersect ((net.lookupIP "ip" target).toOption.getD []) (rangeCIDRs net regData) := by
  have hempty : (rangeCIDRs net regData).isEmpty = false := by
    rw [List.isEmpty_eq_false_iff]
    exact h
  rw [checkRemotePingerPolicy, if_pos ⟨rfl, getAttribute_ne_empty h⟩]
  simp only [hempty, Bool.false_or]

theorem checkIntersect_iff {ips : List IP} {rangeCIDRs : List IPNet} :
    checkIntersect ips rangeCIDRs = true ↔
      ∀ ip ∈ ips, ∃ rangeCIDR ∈ rangeCIDRs, rangeCIDR.contains ip = true := by
  rw [checkIntersect_eq_true]
  simp only [checkIntersectIP, List.any_eq_true]

/-- Under `deny` and a range, a target that passes is one that resolves in range, exactly for
the targets that resolve to an address at all. -/
theorem fails_closed_iff {net : Net} {regData : ConnRegistryData} (target : String)
    (h : rangeCIDRs net regData ≠ []) :
    (checkRemotePingerPolicy net regData target orPolicyDeny = true →
        ResolvesInRange net (rangeCIDRs net regData) target) ↔
      ∃ ips, net.lookupIP "ip" target = .ok ips ∧ ips ≠ [] := by
  rw [checkRemotePingerPolicy_deny target h]
  constructor
  · intro hclosed
    cases hlookup : net.lookupIP "ip" target with
    | error err =>
      rw [hlookup] at hclosed
      obtain ⟨ips, hips, -⟩ := hclosed rfl
      rw [hlookup] at hips
      cases hips
    | ok ips =>
      refine ⟨ips, rfl, fun hnil => ?_⟩
      subst hnil
      rw [hlookup] at hclosed
      obtain ⟨ips, hips, hne, -⟩ := hclosed rfl
      rw [hlookup] at hips
      exact hne (Except.ok.inj hips).symm
  · rintro ⟨ips, hlookup, hne⟩ hcheck
    rw [hlookup] at hcheck
    exact ⟨ips, hlookup, hne, checkIntersect_iff.1 hcheck⟩

open PingTaskHandler (sampleNet sampleAgent)

/-- The sample network with a host in the range. -/
def homeNet : Net := { sampleNet with lookupIP _ _ := .ok [[10, 0, 0, 1]] }

/-- The sample network without its resolver. -/
def failingNet : Net := { sampleNet with lookupIP _ _ := .error "i/o timeout" }

/-- Of the targets that pass, the one that resolves is in the range. -/
theorem fails_closed_failing :
    ResolvesInRange homeNet (rangeCIDRs homeNet sampleAgent) "example.com" ∧
      ¬ (checkRemotePingerPolicy failingNet sampleAgent "example.com" orPolicyDeny = true →
          ResolvesInRange failingNet (rangeCIDRs failingNet sampleAgent) "example.com") := by
  have hhome : rangeCIDRs homeNet sampleAgent ≠ [] := by decide +kernel
  have hfailing : rangeCIDRs failingNet sampleAgent ≠ [] := by decide +kernel
  constructor
  · exact (fails_closed_iff "example.com" hhome).2 ⟨_, rfl, List.cons_ne_nil _ _⟩
      (by decide +kernel)
  · rw [fails_closed_iff "example.com" hfailing]
    rintro ⟨ips, hips, -⟩
    cases hips

/-- A target that could not be looked up passes. -/
theorem unresolved_target_passes :
    rangeCIDRs failingNet sampleAgent ≠ [] ∧
      checkRemotePingerPolicy failingNet sampleAgent "example.com" orPolicyDeny = true ∧
      ¬ResolvesInRange failingNet (rangeCIDRs failingNet sampleAgent) "example.com" := by
  refine ⟨by decide +kernel, by decide +kernel, ?_⟩
  rintro ⟨ips, hips, -⟩
  cases hips

end CloudPing.Handler

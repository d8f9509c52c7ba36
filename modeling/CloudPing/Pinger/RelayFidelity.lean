import CloudPing.Pinger.RequestCodec

/-!
# Requests that the hub passes on

The hub parses the request of a client, derives a request for each task, and sends it to an
agent as a query, which the agent parses.  What the hub parsed is in a form that survives
this: its lists are entries, its strings are not empty, its numbers are machine integers,
and its TTL generator has not moved (`Relayable`).  A derivation keeps the form
(`Relayable.derived`), and a request in the form comes back from its query as it is
(`Relayable.parse_encode`).
-/

namespace CloudPing.Pinger

open Utils
open Wire (Values forall_of_mapM_eq_ok)

namespace SimplePingRequest

/-- The requests the hub derives from the request of a client, one for each node and
target, or for each node with all the HTTP targets. -/
inductive Derived (form : SimplePingRequest) : SimplePingRequest → Prop where
  | ping {from_ target : String} : from_ ∈ form.froms → target ∈ form.targets →
      Derived form (form.deriveAsPingRequest from_ target)
  | dnsProbe {from_ : String} {dnsTarget : LookupParameter} : from_ ∈ form.froms →
      dnsTarget ∈ form.dnsTargets → Derived form (form.deriveAsDNSProbeRequest from_ dnsTarget)
  | httpProbe {from_ : String} (maximumBodyRead : Option Int64) : from_ ∈ form.froms →
      Derived form (form.deriveAdHTTPProbeRequest from_ maximumBodyRead)

/-- A request that comes back from its query as it is. -/
structure Relayable (pr : SimplePingRequest) : Prop where
  wellFormed : pr.WellFormed
  accepted : pr.Accepted
  canonical : pr.canonical = pr
  noTimeout : pr.resolveTimeoutMilliseconds = none

variable {form pr : SimplePingRequest} {query : Values}

theorem Relayable.parse_encode (h : pr.Relayable) :
    parseSimplePingRequest (Values.parse pr.toURLValues.encode) = .ok pr := by
  rw [Values.parse_encode, parse_toURLValues h.wellFormed h.accepted, h.canonical,
    ← h.noTimeout]

/-- The numbers of the clamps do not matter for the form. -/
theorem Relayable.withNumbers (h : pr.Relayable) (intvMilliseconds pktTimeoutMilliseconds : Int64)
    (totalPkts : Option Int64) :
    ({ pr with intvMilliseconds, pktTimeoutMilliseconds, totalPkts } :
      SimplePingRequest).Relayable where
  wellFormed := ⟨h.wellFormed.targets, h.wellFormed.froms, h.wellFormed.ttl,
    h.wellFormed.httpTargets⟩
  accepted := ⟨h.accepted.ttl, h.accepted.httpTargets⟩
  canonical := congrArg (fun r : SimplePingRequest =>
    { r with intvMilliseconds, pktTimeoutMilliseconds, totalPkts }) h.canonical
  noTimeout := h.noTimeout

/-! ## What the hub parses -/

theorem notEmpty_stringParam (key : String) :
    notEmpty (stringParam query key) = stringParam query key := by
  rw [stringParam]
  split
  · rfl
  · next h => simp [notEmpty, h]

theorem notEmpty_orElse {a b : Option String} (ha : notEmpty a = a) (hb : notEmpty b = b) :
    notEmpty (a <|> b) = (a <|> b) := by
  cases a with
  | none => exact hb
  | some s => exact ha

/-- A TTL generator that was parsed, or the one for no parameter. -/
theorem ttl_of_parseParam {ttl : Option TTLGenerator}
    (h : parseParam query paramTTL (fun ttl => failed "ttl" (TTLGenerator.parse ttl)) = .ok ttl)
    {g : TTLGenerator} (hg : g = ttl.getD (.ofInts [defaultTTL] (by decide))) :
    g.reset = g ∧ g.Representable ∧ g.Accepted := by
  rw [parseParam] at h
  split at h
  · obtain rfl := Except.ok.inj h
    subst hg
    exact ⟨rfl, ⟨[defaultTTL], rfl⟩, trivial⟩
  · cases hp : TTLGenerator.parse (query.get paramTTL) with
    | error e =>
      rw [hp] at h
      cases h
    | ok g' =>
      rw [hp] at h
      obtain rfl := Except.ok.inj h
      subst hg
      exact TTLGenerator.parse_eq_ok hp

theorem relayable_of_parse (h : parseSimplePingRequest query = .ok pr) : pr.Relayable := by
  obtain ⟨hhttp, htargets, hfroms, ⟨ttl, httl, hg⟩, hresolver, hinfo, hl4, hl7, hnone⟩ :=
    parse_eq_ok h
  have hgen := ttl_of_parseParam httl rfl
  have hread : ∀ t ∈ pr.httpTargets, ∃ s, HTTPTarget.unmarshal s = some t ∧
      ∀ proto ∈ t.proto, proto ∈ Httpprobe.acceptableHTTPProtos := by
    intro t ht
    obtain ⟨s, _, hs⟩ := (forall_of_mapM_eq_ok hhttp).2 t ht
    exact ⟨s, parseHTTPTarget_eq_ok hs⟩
  constructor
  · refine ⟨fun t ht => ?_, fun f hf => ?_, ⟨_, hg, hgen.1, hgen.2.1⟩, fun t ht => ?_⟩
    · rw [htargets] at ht
      exact isEntry_of_mem_listParam ht
    · rw [hfroms] at hf
      exact isEntry_of_mem_listParam hf
    · obtain ⟨s, hs, _⟩ := hread t ht
      exact HTTPTarget.representable_unmarshal hs
  · refine ⟨fun g hg' => ?_, fun t ht => ?_⟩
    · obtain rfl := Option.some.inj (hg'.symm.trans hg)
      exact hgen.2.2
    · obtain ⟨_, _, hp⟩ := hread t ht
      exact hp
  · have h₁ : notEmpty pr.resolver = pr.resolver := by
      rw [hresolver, notEmpty_stringParam]
    have h₂ : notEmpty pr.ipInfoProviderName = pr.ipInfoProviderName := by
      rw [hinfo, notEmpty_stringParam]
    have h₃ : notEmpty pr.l4PacketType = pr.l4PacketType := by
      rw [hl4, notEmpty_orElse (notEmpty_stringParam _) (notEmpty_stringParam _)]
    have h₄ : notEmpty pr.l7PacketType = pr.l7PacketType := by
      rw [hl7, notEmpty_stringParam]
    rw [SimplePingRequest.canonical, h₁, h₂, h₃, h₄]
  · exact hnone

/-! ## What the hub derives -/

/-- A derivation keeps the form.  It replaces the nodes and some of the targets. -/
theorem Relayable.derived (h : form.Relayable) (hd : form.Derived pr) : pr.Relayable := by
  have hw := h.wellFormed
  have ha := h.accepted
  have hcanon : ∀ froms targets dnsTargets httpTargets,
      ({ form with froms, targets, dnsTargets, httpTargets } : SimplePingRequest).canonical =
        { form with froms, targets, dnsTargets, httpTargets } := by
    intro froms targets dnsTargets httpTargets
    have hc := h.canonical
    rw [SimplePingRequest.canonical] at hc ⊢
    exact congrArg (fun r : SimplePingRequest =>
      { r with froms, targets, dnsTargets, httpTargets }) hc
  have hentry : ∀ {f}, f ∈ form.froms → ∀ f' ∈ [f], IsEntry f' := by
    intro f hf f' hf'
    obtain rfl := List.mem_singleton.1 hf'
    exact hw.froms f' hf
  cases hd with
  | @ping from_ target hf ht =>
    refine ⟨⟨fun t ht' => ?_, hentry hf, hw.ttl, hw.httpTargets⟩, ⟨ha.ttl, ha.httpTargets⟩,
      hcanon _ _ _ _, h.noTimeout⟩
    obtain rfl := List.mem_singleton.1 ht'
    exact hw.targets t ht
  | @dnsProbe from_ dnsTarget hf _ =>
    exact ⟨⟨hw.targets, hentry hf, hw.ttl, hw.httpTargets⟩, ⟨ha.ttl, ha.httpTargets⟩,
      hcanon _ _ _ _, h.noTimeout⟩
  | @httpProbe from_ maximumBodyRead hf =>
    refine ⟨⟨hw.targets, hentry hf, hw.ttl, fun t ht => ?_⟩, ⟨ha.ttl, fun t ht => ?_⟩,
      hcanon _ _ _ _, h.noTimeout⟩
    · obtain ⟨t', ht', rfl⟩ := List.mem_map.1 ht
      exact HTTPTarget.representable_clampBody (hw.httpTargets t' ht') maximumBodyRead
    · obtain ⟨t', ht', rfl⟩ := List.mem_map.1 ht
      exact ha.httpTargets t' ht'

/-- The agent parses the request that the hub derived, whatever the client asked for. -/
theorem relay_fidelity (h : parseSimplePingRequest query = .ok form) (hd : form.Derived pr) :
    parseSimplePingRequest (Values.parse pr.toURLValues.encode) = .ok pr :=
  ((relayable_of_parse h).derived hd).parse_encode

/-- A query with the old name of a parameter and a list that is not as the hub writes it. -/
def legacyQuery : Values :=
  (((Values.empty.add paramFrom "hk-1").add paramTargets " 1.1.1.1 ,").add paramL3PacketType
    "udp").add paramTTL "auto"

def legacy : SimplePingRequest where
  froms := ["hk-1"]
  targets := ["1.1.1.1"]
  intvMilliseconds := 1000
  pktTimeoutMilliseconds := 3000
  l4PacketType := some l4ProtoUDP
  ttl := some (.auto 1 1)

theorem relay_fidelity_legacy :
    parseSimplePingRequest
        (Values.parse (legacy.deriveAsPingRequest "hk-1" "1.1.1.1").toURLValues.encode) =
      .ok (legacy.deriveAsPingRequest "hk-1" "1.1.1.1") :=
  relay_fidelity (show parseSimplePingRequest legacyQuery = .ok legacy from rfl)
    (.ping (by decide) (by decide))

end SimplePingRequest

end CloudPing.Pinger

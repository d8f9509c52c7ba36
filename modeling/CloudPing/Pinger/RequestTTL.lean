import CloudPing.Pinger.RelayFidelity

/-!
# Requests without a TTL

A reader gives a request without a TTL the default one.  So such a request is read as if the default
had been written (`parse_toURLValues_of_none`).
-/

namespace CloudPing.Pinger

open Wire CloudPing.Utils

theorem defaultTTL_ne_nil : [defaultTTL] ≠ [] := List.cons_ne_nil _ _

/-- The TTL of a request that has none. -/
def defaultGenerator : TTLGenerator := .ofInts [defaultTTL] defaultTTL_ne_nil

namespace SimplePingRequest

variable {pr : SimplePingRequest}

/-- With the default TTL if there is none. -/
def withTTL (pr : SimplePingRequest) : SimplePingRequest :=
  { pr with ttl := some (pr.ttl.getD defaultGenerator) }

theorem all_withTTL (pr : SimplePingRequest) {key : String} (hne : key ≠ paramTTL) :
    pr.withTTL.toURLValues.all key = pr.toURLValues.all key := by
  simp [withTTL, toURLValues, hne]

theorem get_withTTL (pr : SimplePingRequest) {key : String} (hne : key ≠ paramTTL) :
    pr.withTTL.toURLValues.get key = pr.toURLValues.get key := by
  rw [Values.get, Values.get, all_withTTL pr hne]

theorem parse_withTTL (hw : pr.withTTL.WellFormed) (ha : pr.withTTL.Accepted) :
    parseSimplePingRequest pr.toURLValues = parseSimplePingRequest pr.withTTL.toURLValues := by
  have httl := ttl_toURLValues hw ha
  cases hnone : pr.ttl with
  | some g =>
    have hsame : pr.withTTL = pr := by rw [withTTL, hnone, Option.getD_some, ← hnone]
    rw [hsame]
  | none =>
    have hempty : pr.toURLValues.get paramTTL = "" := by
      rw [Values.get]
      simp +decide [toURLValues, hnone]
    have hparam : ∀ {α : Type} (key : String) (parse : String → Except RequestError α),
        key ≠ paramTTL → parseParam pr.withTTL.toURLValues key parse =
          parseParam pr.toURLValues key parse := by
      intro α key parse hne
      rw [parseParam, parseParam, get_withTTL pr hne]
    have hstring : ∀ key, key ≠ paramTTL →
        stringParam pr.withTTL.toURLValues key = stringParam pr.toURLValues key := by
      intro key hne
      rw [stringParam, stringParam, get_withTTL pr hne]
    have hlist : ∀ key, key ≠ paramTTL →
        listParam pr.withTTL.toURLValues key = listParam pr.toURLValues key := by
      intro key hne
      rw [listParam, listParam, get_withTTL pr hne]
    have hmissing : parseParam pr.toURLValues paramTTL
        (fun ttl => failed "ttl" (TTLGenerator.parse ttl)) = .ok none := if_pos hempty
    have hwritten : pr.withTTL.ttl = some defaultGenerator := by rw [withTTL, hnone]; rfl
    have hok : ∀ {α β : Type} (a : α) (f : α → Except RequestError β), (.ok a >>= f) = f a :=
      fun _ _ => rfl
    simp only [parseSimplePingRequest, httl, hmissing, hwritten, hok,
      all_withTTL pr (by decide : paramHTTPTarget ≠ paramTTL),
      all_withTTL pr (by decide : paramDNSTarget ≠ paramTTL),
      hstring paramL7PacketType (by decide), hstring paramL4PacketType (by decide),
      hstring paramL3PacketType (by decide), hstring paramsIPInfoProviderName (by decide),
      hstring paramResolver (by decide), hlist paramTargets (by decide),
      hlist paramFrom (by decide), hparam paramUDPDstPort _ (by decide),
      hparam paramRandomPayloadSize _ (by decide), hparam paramCount _ (by decide),
      hparam paramIntvMs _ (by decide), hparam paramPktTimeoutMs _ (by decide),
      hparam paramPreferV4 _ (by decide), hparam paramPreferV6 _ (by decide)]
    rfl

theorem wellFormed_withTTL (htargets : ∀ t ∈ pr.targets, IsEntry t)
    (hfroms : ∀ f ∈ pr.froms, IsEntry f)
    (httl : ∀ g ∈ pr.ttl, g.reset = g ∧ g.Representable)
    (hhttp : ∀ t ∈ pr.httpTargets, t.Representable) : pr.withTTL.WellFormed where
  targets := htargets
  froms := hfroms
  ttl := by
    refine ⟨pr.ttl.getD defaultGenerator, rfl, ?_⟩
    cases hg : pr.ttl with
    | none => exact ⟨rfl, [defaultTTL], rfl⟩
    | some g => exact httl g hg
  httpTargets := hhttp

theorem accepted_withTTL (httl : ∀ g ∈ pr.ttl, g.Accepted)
    (hhttp : ∀ t ∈ pr.httpTargets, ∀ proto ∈ t.proto, proto ∈ Httpprobe.acceptableHTTPProtos) :
    pr.withTTL.Accepted where
  ttl := by
    intro g hg
    obtain rfl := Option.some.inj hg
    cases hg : pr.ttl with
    | none => trivial
    | some g => exact httl g hg
  httpTargets := hhttp

/-- The reader takes a request up to empty strings, and with a TTL. -/
theorem parse_encode_withTTL (hw : pr.withTTL.WellFormed) (ha : pr.withTTL.Accepted)
    (htimeout : pr.resolveTimeoutMilliseconds = none) :
    parseSimplePingRequest (Values.parse pr.toURLValues.encode) = .ok pr.withTTL.canonical := by
  have hnone : pr.withTTL.canonical.resolveTimeoutMilliseconds = none := htimeout
  rw [Values.parse_encode, parse_withTTL hw ha, parse_toURLValues hw ha, ← hnone]

end SimplePingRequest

end CloudPing.Pinger

import CloudPing.Handler.PingTask

/-!
# Which agent a task is given to

For each from node the hub asks the registry for a connection with the capability of the
task, one lookup for DNS, one for HTTP and one for ping.  The lookup does not look at the
capability it is given: all three search for `CapabilityPing`.  A ping task is therefore
always given to an agent that announced the capability, and one is found whenever there is
one.  A DNS or HTTP task is given to an agent that answers pings.

`Routable` is what the registry has to hold for that to come to the same thing.  A walk of
the registry may come in any order, so a condition on what is stored is exact only if one
order of the walk brings up the entry that breaks it (`exists_walk`).
-/

namespace CloudPing.Handler

open CloudPing.Nodereg CloudPing.Pinger CloudPing.Utils

/-! ## Kinds of tasks -/

inductive TaskKind where
  | dns
  | http
  | ping
  deriving DecidableEq, Repr

namespace TaskKind

def capability : TaskKind → String
  | .dns => attributeKeyDNSProbeCapability
  | .http => attributeKeyHTTPProbeCapability
  | .ping => attributeKeyPingCapability

/-- Which of the lookups of a from node is for the kind. -/
def lookup : TaskKind → Nat
  | .dns => 0
  | .http => 1
  | .ping => 2

end TaskKind

/-- The announced attributes have the capability and the name. -/
def Offers (kind : TaskKind) (from_ : String) (regData : ConnRegistryData) : Prop :=
  regData.attributes.lookup kind.capability = some "true" ∧
    regData.attributes.lookup attributeKeyNodeName = some from_

namespace TaskContext

variable (c : TaskContext)

/-- The kind of task a request asks for. -/
def requested : TaskKind :=
  if c.form.l7PacketType = some l7ProtoDNS then .dns
  else if c.form.l7PacketType = some l7ProtoHTTP then .http
  else .ping

/-- The branch that serves a kind of task. -/
def Served.of (kind : TaskKind) (regData : ConnRegistryData) : Served :=
  match kind with
  | .dns => .dns regData
  | .http => .http regData
  | .ping => .ping regData

/-- The tasks of a from node, with their pingers. -/
def tasks (from_ : String) : Served → List (TaskKind × SimpleRemotePinger)
  | .dns regData =>
    c.form.dnsTargets.filterMap fun t => (c.dnsPinger from_ regData t).toOption.map (.dns, ·)
  | .http regData => ((c.httpPinger from_ regData).toOption.map (TaskKind.http, ·)).toList
  | .ping regData =>
    c.form.targets.filterMap fun t => (c.pingPinger from_ regData t).toOption.map (.ping, ·)
  | .skipped => []

/-- Each task of a from node is given to an entry of its walk that offers its kind, and the
lookup for the requested kind finds such an entry if there is one. -/
structure Routed (from_ : String) (walk : Nat → Option (List ConnRegistryData)) : Prop where
  sound : ∀ kind p, (kind, p) ∈ c.tasks from_ (c.served from_ walk) →
    ∃ e ∈ (walk kind.lookup).getD [], p.agent = e.clone ∧ Offers kind from_ e
  complete : (∃ e ∈ (walk c.requested.lookup).getD [], Offers c.requested from_ e) →
    ∃ e ∈ (walk c.requested.lookup).getD [], Offers c.requested from_ e ∧
      c.served from_ walk = .of c.requested e.clone

/-- Some task of the requested kind passes the checks for an agent. -/
def Takes (regData : ConnRegistryData) : Prop :=
  (getTransport c.net regData).isSome ∧
    match c.requested with
    | .dns => ∃ dnsTarget ∈ c.form.dnsTargets, dnsTarget.correlationID ≠ "" ∧
        dnsTarget.addrPort ≠ "" ∧ c.check regData (tryStripPort c.net dnsTarget.addrPort) = true
    | .http => True
    | .ping => ∃ target ∈ c.form.targets, c.check regData target = true

/-- The entries that offer ping for a name also offer the requested kind, as far as they are
given a task of it or one that offers it is there to be found. -/
structure Routable (from_ : String) (entries : List ConnRegistryData) : Prop where
  found : (∃ e ∈ entries, Offers c.requested from_ e) → ∃ e ∈ entries, Offers .ping from_ e
  only : ∀ e ∈ entries, Offers .ping from_ e →
    (c.Takes e ∨ ∃ e' ∈ entries, Offers c.requested from_ e') → Offers c.requested from_ e

end TaskContext

/-! ## The lookup -/

theorem testAgainstAttributes_iff {regData : ConnRegistryData} {from_ : String} :
    regData.testAgainstAttributes
        [(attributeKeyPingCapability, "true"), (attributeKeyNodeName, from_)] = true ↔
      Offers .ping from_ regData := by
  simp [ConnRegistryData.testAgainstAttributes, Offers, TaskKind.capability]

theorem getConnWithCapability_some {walk : Option (List ConnRegistryData)}
    {from_ capability : String} {regData : ConnRegistryData}
    (h : getConnWithCapability walk from_ capability = some regData) :
    ∃ e ∈ walk.getD [], Offers .ping from_ e ∧ regData = e.clone := by
  obtain ⟨entries, rfl, h⟩ := Option.bind_eq_some_iff.1 h
  obtain ⟨_, hsearch, rfl⟩ := Option.map_eq_some_iff.1 h
  obtain ⟨e, hfind, rfl⟩ := Option.map_eq_some_iff.1 hsearch
  have htest : e.testAgainstAttributes
      [(attributeKeyPingCapability, "true"), (attributeKeyNodeName, from_)] = true := by
    simpa using List.find?_some hfind
  exact ⟨e, List.mem_of_find?_eq_some hfind, testAgainstAttributes_iff.1 htest, rfl⟩

theorem getConnWithCapability_none {walk : Option (List ConnRegistryData)}
    {from_ capability : String} (h : getConnWithCapability walk from_ capability = none) :
    ∀ e ∈ walk.getD [], ¬ Offers .ping from_ e := by
  intro e he hoffers
  cases walk with
  | none => cases he
  | some entries =>
    have hfind : (ConnRegistry.searchByAttributes entries
        [(attributeKeyPingCapability, "true"), (attributeKeyNodeName, from_)]) = none :=
      Option.map_eq_none_iff.1 h
    have hnone := List.find?_eq_none.1 (Option.map_eq_none_iff.1 hfind) e he
    exact hnone (testAgainstAttributes_iff.2 hoffers)

/-- An entry that answers pings under the name is found where the walk begins with it. -/
theorem getConnWithCapability_cons {e : ConnRegistryData} {from_ : String}
    (h : Offers .ping from_ e) (entries : List ConnRegistryData) (capability : String) :
    getConnWithCapability (some (e :: entries)) from_ capability = some e.clone := by
  have htest := testAgainstAttributes_iff.2 h
  have hsearch : ConnRegistry.searchByAttributes (e :: entries)
      [(attributeKeyPingCapability, "true"), (attributeKeyNodeName, from_)] = some e.clone := by
    simp [ConnRegistry.searchByAttributes, htest]
  simp only [getConnWithCapability, Option.bind_some, hsearch]
  rfl

/-- The entries can be walked with any one of them first. -/
theorem exists_walk {content : Option (List ConnRegistryData)} {e : ConnRegistryData}
    (he : e ∈ content.getD []) :
    ∃ entries, Option.Rel List.Perm content (some (e :: entries)) := by
  cases content with
  | none => cases he
  | some entries =>
    obtain ⟨l₁, l₂, rfl⟩ := List.append_of_mem he
    exact ⟨l₁ ++ l₂, .some List.perm_middle⟩

theorem rel_refl (content : Option (List ConnRegistryData)) :
    Option.Rel List.Perm content content := by
  cases content with
  | none => exact .none
  | some entries => exact .some (List.Perm.refl entries)

theorem mem_of_rel {content walk : Option (List ConnRegistryData)}
    (h : Option.Rel List.Perm content walk) {e : ConnRegistryData} :
    e ∈ walk.getD [] ↔ e ∈ content.getD [] := by
  cases h with
  | none => exact Iff.rfl
  | some hperm => exact hperm.mem_iff.symm

namespace TaskContext

variable {c : TaskContext} {from_ : String} {walk : Nat → Option (List ConnRegistryData)}
variable {kind : TaskKind} {regData : ConnRegistryData} {p : SimpleRemotePinger}

/-- A from node is served by the requested kind if the lookup for it finds something, and
else it can only fall through to the ping branch. -/
theorem served_of_some
    (h : getConnWithCapability (walk c.requested.lookup) from_ c.requested.capability =
      some regData) : c.served from_ walk = .of c.requested regData := by
  by_cases hdns : c.form.l7PacketType = some l7ProtoDNS
  · have hkind : c.requested = .dns := if_pos hdns
    rw [hkind] at h ⊢
    have h : getConnWithCapability (walk 0) from_ attributeKeyDNSProbeCapability =
      some regData := h
    simp only [served, h, hdns, decide_true]
    rfl
  by_cases hhttp : c.form.l7PacketType = some l7ProtoHTTP
  · have hkind : c.requested = .http := by rw [requested, if_neg hdns, if_pos hhttp]
    rw [hkind] at h ⊢
    have h : getConnWithCapability (walk 1) from_ attributeKeyHTTPProbeCapability =
      some regData := h
    have hne : ¬ (some l7ProtoHTTP = some l7ProtoDNS) := hhttp ▸ hdns
    simp only [served, h, hhttp, decide_true, hne, decide_false]
    cases getConnWithCapability (walk 0) from_ attributeKeyDNSProbeCapability <;> rfl
  · have hkind : c.requested = .ping := by rw [requested, if_neg hdns, if_neg hhttp]
    rw [hkind] at h ⊢
    have h : getConnWithCapability (walk 2) from_ attributeKeyPingCapability =
      some regData := h
    simp only [served, h, hdns, hhttp, decide_false]
    cases getConnWithCapability (walk 0) from_ attributeKeyDNSProbeCapability <;>
      cases getConnWithCapability (walk 1) from_ attributeKeyHTTPProbeCapability <;> rfl

theorem served_of_none
    (h : getConnWithCapability (walk c.requested.lookup) from_ c.requested.capability = none) :
    (∃ regData, getConnWithCapability (walk 2) from_ attributeKeyPingCapability = some regData ∧
        c.served from_ walk = .ping regData) ∨
      c.served from_ walk = .skipped := by
  have hfall : c.served from_ walk =
      (getConnWithCapability (walk 2) from_ attributeKeyPingCapability).elim .skipped .ping := by
    by_cases hdns : c.form.l7PacketType = some l7ProtoDNS
    · have hkind : c.requested = .dns := if_pos hdns
      rw [hkind] at h
      have h : getConnWithCapability (walk 0) from_ attributeKeyDNSProbeCapability = none := h
      have hne : ¬ (some l7ProtoDNS = some l7ProtoHTTP) := by decide
      simp only [served, h, hdns, decide_true, hne, decide_false]
      cases getConnWithCapability (walk 1) from_ attributeKeyHTTPProbeCapability <;>
        cases getConnWithCapability (walk 2) from_ attributeKeyPingCapability <;> rfl
    by_cases hhttp : c.form.l7PacketType = some l7ProtoHTTP
    · have hkind : c.requested = .http := by rw [requested, if_neg hdns, if_pos hhttp]
      rw [hkind] at h
      have h : getConnWithCapability (walk 1) from_ attributeKeyHTTPProbeCapability = none := h
      have hne : ¬ (some l7ProtoHTTP = some l7ProtoDNS) := hhttp ▸ hdns
      simp only [served, h, hhttp, decide_true, hne, decide_false]
      cases getConnWithCapability (walk 0) from_ attributeKeyDNSProbeCapability <;>
        cases getConnWithCapability (walk 2) from_ attributeKeyPingCapability <;> rfl
    · simp only [served, hdns, hhttp, decide_false]
      cases getConnWithCapability (walk 0) from_ attributeKeyDNSProbeCapability <;>
        cases getConnWithCapability (walk 1) from_ attributeKeyHTTPProbeCapability <;>
        cases getConnWithCapability (walk 2) from_ attributeKeyPingCapability <;> rfl
  cases hping : getConnWithCapability (walk 2) from_ attributeKeyPingCapability with
  | none => exact .inr (by rw [hfall, hping]; rfl)
  | some regData => exact .inl ⟨regData, rfl, by rw [hfall, hping]; rfl⟩

/-! ## The tasks of a branch -/

theorem Served.of_inj {regData' : ConnRegistryData}
    (h : Served.of kind regData = .of kind regData') : regData = regData' := by
  cases kind <;> cases h <;> rfl

/-- All tasks of a branch are of its kind and given to its connection. -/
theorem mem_tasks_of {kind' : TaskKind}
    (h : (kind', p) ∈ c.tasks from_ (.of kind regData)) : kind' = kind ∧ p.agent = regData := by
  cases kind with
  | dns =>
    obtain ⟨t, _, ht⟩ := List.mem_filterMap.1 h
    obtain ⟨q, hq, heq⟩ := Option.map_eq_some_iff.1 ht
    cases heq
    obtain ⟨_, transport, _, rfl⟩ := dnsPinger_eq_ok.1 (toOption_eq_some.1 hq)
    exact ⟨rfl, remotePinger_agent _ _ _⟩
  | http =>
    obtain ⟨q, hq, heq⟩ := Option.map_eq_some_iff.1 (Option.mem_toList.1 h)
    cases heq
    obtain ⟨transport, _, rfl⟩ := httpPinger_eq_ok.1 (toOption_eq_some.1 hq)
    exact ⟨rfl, remotePinger_agent _ _ _⟩
  | ping =>
    obtain ⟨t, _, ht⟩ := List.mem_filterMap.1 h
    obtain ⟨q, hq, heq⟩ := Option.map_eq_some_iff.1 ht
    cases heq
    obtain ⟨_, transport, _, rfl⟩ := pingPinger_eq_ok.1 (toOption_eq_some.1 hq)
    exact ⟨rfl, remotePinger_agent _ _ _⟩

/-- The branch of the requested kind has a task exactly if one passes the checks. -/
theorem exists_task_iff :
    (∃ p, (c.requested, p) ∈ c.tasks from_ (.of c.requested regData.clone)) ↔
      c.Takes regData := by
  cases hkind : c.requested with
  | dns =>
    simp only [Takes, hkind]
    constructor
    · rintro ⟨p, h⟩
      obtain ⟨t, ht, hp⟩ := List.mem_filterMap.1 h
      obtain ⟨q, hq, _⟩ := Option.map_eq_some_iff.1 hp
      obtain ⟨⟨hid, haddr, hcheck⟩, transport, htr, _⟩ :=
        dnsPinger_eq_ok.1 (toOption_eq_some.1 hq)
      exact ⟨Option.isSome_of_eq_some htr, t, ht, hid, haddr, hcheck⟩
    · rintro ⟨htr, t, ht, hpass⟩
      obtain ⟨transport, htr⟩ := Option.isSome_iff_exists.1 htr
      have hok : c.dnsPinger from_ regData.clone t = .ok _ := dnsPinger_eq_ok.2
        ⟨hpass, transport, htr, rfl⟩
      exact ⟨_, List.mem_filterMap.2 ⟨t, ht, by rw [hok]; rfl⟩⟩
  | http =>
    simp only [Takes, hkind]
    constructor
    · rintro ⟨p, h⟩
      obtain ⟨q, hq, _⟩ := Option.map_eq_some_iff.1 (Option.mem_toList.1 h)
      obtain ⟨transport, htr, _⟩ := httpPinger_eq_ok.1 (toOption_eq_some.1 hq)
      exact ⟨Option.isSome_of_eq_some htr, trivial⟩
    · rintro ⟨htr, _⟩
      obtain ⟨transport, htr⟩ := Option.isSome_iff_exists.1 htr
      have hok : c.httpPinger from_ regData.clone = .ok _ := httpPinger_eq_ok.2
        ⟨transport, htr, rfl⟩
      exact ⟨_, Option.mem_toList.2 (Option.mem_def.2 (by rw [hok]; rfl))⟩
  | ping =>
    simp only [Takes, hkind]
    constructor
    · rintro ⟨p, h⟩
      obtain ⟨t, ht, hp⟩ := List.mem_filterMap.1 h
      obtain ⟨q, hq, _⟩ := Option.map_eq_some_iff.1 hp
      obtain ⟨hcheck, transport, htr, _⟩ := pingPinger_eq_ok.1 (toOption_eq_some.1 hq)
      exact ⟨Option.isSome_of_eq_some htr, t, ht, hcheck⟩
    · rintro ⟨htr, t, ht, hpass⟩
      obtain ⟨transport, htr⟩ := Option.isSome_iff_exists.1 htr
      have hok : c.pingPinger from_ regData.clone t = .ok _ := pingPinger_eq_ok.2
        ⟨hpass, transport, htr, rfl⟩
      exact ⟨_, List.mem_filterMap.2 ⟨t, ht, by rw [hok]; rfl⟩⟩

/-! ## One from node -/

/-- Where the registry holds what the request needs, every walk routes the node. -/
theorem Routable.routed {contents : Nat → Option (List ConnRegistryData)}
    (h : c.Routable from_ ((contents c.requested.lookup).getD []))
    (hwalk : ∀ i, Option.Rel List.Perm (contents i) (walk i)) : c.Routed from_ walk := by
  have hmem : ∀ i e, e ∈ (walk i).getD [] ↔ e ∈ (contents i).getD [] :=
    fun i e => mem_of_rel (hwalk i)
  cases hget : getConnWithCapability (walk c.requested.lookup) from_ c.requested.capability with
  | some regData =>
    obtain ⟨e, he, hping, rfl⟩ := getConnWithCapability_some hget
    have hserved := served_of_some hget
    have he' := (hmem _ e).1 he
    constructor
    · intro kind p hp
      rw [hserved] at hp
      obtain ⟨rfl, hagent⟩ := mem_tasks_of hp
      have htakes : c.Takes e := exists_task_iff.1 ⟨p, hp⟩
      exact ⟨e, he, hagent, h.only e he' hping (.inl htakes)⟩
    · rintro ⟨e', he'', hoffers⟩
      exact ⟨e, he, h.only e he' hping (.inr ⟨e', (hmem _ e').1 he'', hoffers⟩), hserved⟩
  | none =>
    have hnone := getConnWithCapability_none hget
    constructor
    · intro kind p hp
      rcases served_of_none hget with ⟨regData, hlookup, hserved⟩ | hserved
      · obtain ⟨e, he, hping, rfl⟩ := getConnWithCapability_some hlookup
        rw [hserved] at hp
        have hping' : (kind, p) ∈ c.tasks from_ (.of .ping e.clone) := hp
        obtain ⟨rfl, hagent⟩ := mem_tasks_of hping'
        exact ⟨e, he, hagent, hping⟩
      · rw [hserved] at hp
        cases hp
    · rintro ⟨e, he, hoffers⟩
      obtain ⟨e', he', hping⟩ := h.found ⟨e, (hmem _ e).1 he, hoffers⟩
      exact absurd hping (hnone e' ((hmem _ e').2 he'))

/-- If every walk routes the node, the registry holds what the request needs. -/
theorem routable_of_routed {contents : Nat → Option (List ConnRegistryData)}
    (h : ∀ walk, (∀ i, Option.Rel List.Perm (contents i) (walk i)) → c.Routed from_ walk) :
    c.Routable from_ ((contents c.requested.lookup).getD []) := by
  have hrefl : ∀ i, Option.Rel List.Perm (contents i) (contents i) :=
    fun i => rel_refl (contents i)
  constructor
  · intro hex
    obtain ⟨e, _, _, hserved⟩ := (h contents hrefl).complete hex
    cases hget : getConnWithCapability (contents c.requested.lookup) from_
        c.requested.capability with
    | some regData =>
      obtain ⟨e', he', hping, _⟩ := getConnWithCapability_some hget
      exact ⟨e', he', hping⟩
    | none =>
      rcases served_of_none hget with ⟨regData, hlookup, hping⟩ | hskipped
      · cases hkind : c.requested with
        | ping =>
          rw [hkind] at hget
          cases hget.symm.trans hlookup
        | dns =>
          rw [hkind] at hserved
          cases hserved.symm.trans hping
        | http =>
          rw [hkind] at hserved
          cases hserved.symm.trans hping
      · cases hkind : c.requested with
        | ping | dns | http =>
          rw [hkind] at hserved
          cases hserved.symm.trans hskipped
  · intro e he hping hneeds
    obtain ⟨entries, hrel⟩ := exists_walk he
    have hwalk : ∀ i, Option.Rel List.Perm (contents i)
        (Function.update contents c.requested.lookup (some (e :: entries)) i) := fun i => by
      by_cases hi : i = c.requested.lookup
      · subst hi
        rw [Function.update_self]
        exact hrel
      · rw [Function.update_of_ne hi]
        exact hrefl i
    have hrouted := h _ hwalk
    have hserved : c.served from_ (Function.update contents c.requested.lookup
        (some (e :: entries))) = .of c.requested e.clone := served_of_some (by
        rw [Function.update_self]
        exact getConnWithCapability_cons hping entries _)
    have hclone : ∀ e', e.clone = e'.clone → Offers c.requested from_ e' →
        Offers c.requested from_ e := fun e' heq hoffers => by
      have hattr : e.clone.attributes = e'.clone.attributes := by rw [heq]
      have hattr : e.attributes = e'.attributes := hattr
      rwa [Offers, hattr]
    rcases hneeds with htakes | ⟨e', he', hoffers⟩
    · obtain ⟨p, hp⟩ : ∃ p, (c.requested, p) ∈ c.tasks from_ (.of c.requested e.clone) :=
        exists_task_iff.2 htakes
      obtain ⟨e', _, hagent, hoffers⟩ := hrouted.sound _ p (hserved ▸ hp)
      exact hclone e' ((mem_tasks_of hp).2.symm.trans hagent) hoffers
    · obtain ⟨e'', _, hoffers, hserved'⟩ := hrouted.complete
        ⟨e', (mem_of_rel (hwalk _)).2 he', hoffers⟩
      exact hclone e'' (Served.of_inj (hserved.symm.trans hserved')) hoffers

/-- What a from node makes is one of its tasks. -/
theorem mem_tasks_of_made {sv : Served}
    (h : c.madeFlat from_ sv = some p ∨ ∃ k, c.made from_ sv k = some p) :
    ∃ kind, (kind, p) ∈ c.tasks from_ sv := by
  rcases h with h | ⟨k, h⟩
  · cases sv with
    | http regData => exact ⟨.http, Option.mem_toList.2 (Option.map_eq_some_iff.2 ⟨p, h, rfl⟩)⟩
    | dns regData => cases h
    | ping regData => cases h
    | skipped => cases h
  · obtain ⟨target, _, hmem⟩ := mem_puts_of_made h
    cases sv with
    | dns regData =>
      obtain ⟨t, ht, heq⟩ := List.mem_map.1 hmem
      have hok : c.dnsPinger from_ regData t = .ok p := (Prod.mk.inj heq).2
      exact ⟨.dns, List.mem_filterMap.2 ⟨t, ht, by rw [hok]; rfl⟩⟩
    | ping regData =>
      obtain ⟨t, ht, heq⟩ := List.mem_map.1 hmem
      have hok : c.pingPinger from_ regData t = .ok p := (Prod.mk.inj heq).2
      exact ⟨.ping, List.mem_filterMap.2 ⟨t, ht, by rw [hok]; rfl⟩⟩
    | http regData => cases hmem
    | skipped => cases hmem

end TaskContext

namespace PingTaskHandler

open TaskContext

/-- Whatever the order of the walks, each task of a request is given to a connection that
offers its kind and the lookup finds one if there is one, exactly if the registry is
routable for each from node. -/
theorem routed_iff (handler : PingTaskHandler) (net : Net) (remoteAddr : String)
    (contents : Nat → Nat → Option (List ConnRegistryData)) (form : SimplePingRequest) :
    (∀ walks : Nat → Nat → Option (List ConnRegistryData),
        (∀ n i, Option.Rel List.Perm (contents n i) (walks n i)) →
        ∀ x ∈ form.froms.zipIdx,
          (handler.context net remoteAddr form).Routed x.1 (walks x.2)) ↔
      ∀ x ∈ form.froms.zipIdx, (handler.context net remoteAddr form).Routable x.1
        ((contents x.2 (handler.context net remoteAddr form).requested.lookup).getD []) := by
  constructor
  · intro h x hx
    refine routable_of_routed fun walk hwalk => ?_
    have hwalks : ∀ n i, Option.Rel List.Perm (contents n i)
        (Function.update contents x.2 walk n i) := fun n i => by
      by_cases hn : n = x.2
      · subst hn
        rw [Function.update_self]
        exact hwalk i
      · rw [Function.update_of_ne hn]
        exact rel_refl (contents n i)
    have hrouted := h _ hwalks x hx
    rwa [Function.update_self] at hrouted
  · intro h walks hwalks x hx
    exact (h x hx).routed (hwalks x.2)

/-- Where each from node is routed, every pinger that is started is a task of one of them, for
an agent that offers the kind of the task under the name of the node. -/
theorem started_routed {handler : PingTaskHandler} {net : Net} {remoteAddr : String}
    {walks : Nat → Nat → Option (List ConnRegistryData)} {form : SimplePingRequest}
    {c : TaskContext} (hc : c = handler.context net remoteAddr form)
    (h : ∀ x ∈ form.froms.zipIdx, c.Routed x.1 (walks x.2))
    {p : SimpleRemotePinger} {m : List (String × String)}
    (hp : (p, m) ∈ (handler.serveHTTP net remoteAddr walks (.ok form)).started) :
    ∃ x ∈ form.froms.zipIdx, ∃ kind, (kind, p) ∈ c.tasks x.1 (c.served x.1 (walks x.2)) ∧
      Offers kind x.1 p.agent := by
  obtain ⟨x, hx, hmade⟩ := (started_iff hc).1 ⟨m, hp⟩
  obtain ⟨kind, htask⟩ := mem_tasks_of_made (hmade.imp_right fun ⟨k, hk, _⟩ => ⟨k, hk⟩)
  obtain ⟨e, _, hagent, hoffers⟩ := (h x hx).sound kind p htask
  exact ⟨x, hx, kind, htask, hagent ▸ hoffers⟩

/-- An agent that announced only that it answers pings. -/
def pingOnlyAgent : ConnRegistryData where
  connectedAt := 0
  attributes := (∅ : ConnectionAttributes)
    |>.insert attributeKeyPingCapability "true"
    |>.insert attributeKeyNodeName "node"
  quicConn := some 1

/-- A DNS task for one server. -/
def dnsForm : SimplePingRequest where
  froms := ["node"]
  intvMilliseconds := 1000
  pktTimeoutMilliseconds := 3000
  l7PacketType := some l7ProtoDNS
  dnsTargets := [{ correlationID := "1", addrPort := "192.0.2.1:53", target := "example.com",
                   queryType := "a" }]

/-- A network on which nothing resolves. -/
def emptyNet : Net where
  lookupIP _ _ := .error "no such host"
  parseCIDR _ := none
  parseIP _ := none
  splitHost _ := none
  urlHostname _ := .error "parse"
  urlWithPath _ _ := none

/-- The agent that only answers pings is given the DNS task. -/
theorem dns_task_to_ping_agent :
    ∃ started ∈ (PingTaskHandler.serveHTTP {} emptyNet "192.0.2.9"
        (fun _ _ => some [pingOnlyAgent]) (.ok dnsForm)).started,
      started.1.request.l7PacketType = some l7ProtoDNS ∧
        started.1.request.dnsTargets = dnsForm.dnsTargets ∧
        started.1.agent.attributes.lookup attributeKeyDNSProbeCapability = none := by
  have hany : ((PingTaskHandler.serveHTTP {} emptyNet "192.0.2.9"
      (fun _ _ => some [pingOnlyAgent]) (.ok dnsForm)).started.any fun started =>
        decide (started.1.request.l7PacketType = some l7ProtoDNS ∧
          started.1.request.dnsTargets = dnsForm.dnsTargets ∧
          started.1.agent.attributes.lookup attributeKeyDNSProbeCapability = none)) = true := by
    decide +kernel
  obtain ⟨started, hstarted, hpinger⟩ := List.any_eq_true.1 hany
  exact ⟨started, hstarted, of_decide_eq_true hpinger⟩

end PingTaskHandler

end CloudPing.Handler

import CloudPing.Handler.CapabilityRouting

/-!
# What becomes of each requested probe

A request asks every from node for every ping target, or for every DNS target.  Each such
probe comes up once for each time its node is served, as an attempt: the checks refuse it
with an error line, or a pinger for it goes into the map, under the node and the target or
the correlation id.  Two things get lost without a word.  A from node for which the
registry has no connection makes no attempt.  A DNS probe gives way to a later one of the
same node with the same correlation id.

`Accounted` says that neither happens to a probe.  The client is also told where nothing at
all is started.
-/

namespace CloudPing.Handler

open CloudPing.Nodereg CloudPing.Pinger CloudPing.Utils

/-- What a from node is asked to probe. -/
inductive Probe where
  | dns (dnsTarget : LookupParameter)
  | ping (target : String)
  deriving DecidableEq, Repr

/-- The inner key of the map. -/
def Probe.key : Probe → String
  | .dns dnsTarget => dnsTarget.correlationID
  | .ping target => target

/-- One iteration of the loop over the targets. -/
structure Attempt where
  from_ : String
  probe : Probe
  agent : ConnRegistryData

def Attempt.key (a : Attempt) : String × String := (a.from_, a.probe.key)

namespace TaskContext

variable (c : TaskContext)

/-- The request that carries a from node and a target. -/
def request (from_ : String) : Probe → SimplePingRequest
  | .dns dnsTarget => c.form.deriveAsDNSProbeRequest from_ dnsTarget
  | .ping target => c.form.deriveAsPingRequest from_ target

/-- The ping or DNS targets of the requested kind. -/
def probes : List Probe :=
  match c.requested with
  | .dns => c.form.dnsTargets.map .dns
  | .http => []
  | .ping => c.form.targets.map .ping

def attemptsOf (from_ : String) : Served → List Attempt
  | .dns regData => c.form.dnsTargets.map fun t => ⟨from_, .dns t, regData⟩
  | .ping regData => c.form.targets.map fun t => ⟨from_, .ping t, regData⟩
  | .http _ | .skipped => []

/-- All attempts of a request, in order. -/
def attempts (walks : Nat → Nat → Option (List ConnRegistryData)) : List Attempt :=
  c.form.froms.zipIdx.flatMap fun x => c.attemptsOf x.1 (c.served x.1 (walks x.2))

/-- The pinger of an attempt, or the error line it writes. -/
def pinger (a : Attempt) : Except String SimpleRemotePinger :=
  match a.probe with
  | .dns dnsTarget => c.dnsPinger a.from_ a.agent dnsTarget
  | .ping target => c.pingPinger a.from_ a.agent target

/-- The target passes the checks for the agent, which can be reached. -/
def Accepts (a : Attempt) : Prop :=
  (getTransport c.net a.agent).isSome ∧
    match a.probe with
    | .dns dnsTarget => dnsTarget.correlationID ≠ "" ∧ dnsTarget.addrPort ≠ "" ∧
        c.check a.agent (tryStripPort c.net dnsTarget.addrPort) = true
    | .ping target => c.check a.agent target = true

/-- Each requested probe is started or the client gets a line about it, and what is started
was requested. -/
structure NothingDropped (walks : Nat → Nat → Option (List ConnRegistryData))
    (response : TaskResponse) : Prop where
  answered : ∀ from_ ∈ c.form.froms, ∀ probe ∈ c.probes,
    (∃ started ∈ response.started, started.1.nodeName = from_ ∧
        started.1.request = c.request from_ probe) ∨
      (∃ a ∈ c.attempts walks, a.from_ = from_ ∧ a.probe = probe ∧
        ∃ e ∈ response.errors, c.pinger a = .error e) ∨
      (response.started = [] ∧ "no pingers to start" ∈ response.errors)
  requested : ∀ started ∈ response.started, started.1.nodeName ∈ c.form.froms ∧
    ((∃ dnsTarget ∈ c.form.dnsTargets, started.1.request =
          c.form.deriveAsDNSProbeRequest started.1.nodeName dnsTarget) ∨
      (∃ target ∈ c.form.targets, started.1.request =
          c.form.deriveAsPingRequest started.1.nodeName target) ∨
      started.1.request = c.form.deriveAdHTTPProbeRequest started.1.nodeName
        c.handler.httpResponseBodyClamp)

/-- The checks refuse the probe at some agent, or an attempt with its request is accepted and
no later one under the same key replaces it by another. -/
def Accounted (walks : Nat → Nat → Option (List ConnRegistryData)) (from_ : String)
    (probe : Probe) : Prop :=
  (∃ a ∈ c.attempts walks, a.from_ = from_ ∧ a.probe = probe ∧ ¬ c.Accepts a) ∨
    ∃ l₁ a l₂, c.attempts walks = l₁ ++ a :: l₂ ∧ a.from_ = from_ ∧
      c.request a.from_ a.probe = c.request from_ probe ∧ c.Accepts a ∧
      ∀ b ∈ l₂, c.Accepts b → b.key = a.key →
        c.request b.from_ b.probe = c.request a.from_ a.probe

variable {c} {walks : Nat → Nat → Option (List ConnRegistryData)} {p : SimpleRemotePinger}
variable {a : Attempt} {k : String × String}

/-! ## One attempt -/

@[simp] theorem remotePinger_nodeName (from_ : String) (regData : ConnRegistryData)
    (request : SimplePingRequest) (t : Transport) :
    (c.remotePinger from_ regData request t).nodeName = from_ := by
  cases t <;> rfl

theorem pinger_eq_ok :
    c.pinger a = .ok p ↔ c.Accepts a ∧ ∃ transport,
      getTransport c.net a.agent = some transport ∧
        p = c.remotePinger a.from_ a.agent (c.request a.from_ a.probe) transport := by
  obtain ⟨from_, probe, agent⟩ := a
  -- A pinger that is made has a transport, which `Accepts` asks for too.
  have hpart : ∀ {pass : Prop} {made : Transport → Prop},
      (pass ∧ ∃ transport, getTransport c.net agent = some transport ∧ made transport) ↔
        ((getTransport c.net agent).isSome ∧ pass) ∧
          ∃ transport, getTransport c.net agent = some transport ∧ made transport := by
    intro pass made
    constructor
    · rintro ⟨hpass, transport, htr, hp⟩
      exact ⟨⟨Option.isSome_of_eq_some htr, hpass⟩, transport, htr, hp⟩
    · rintro ⟨⟨_, hpass⟩, hp⟩
      exact ⟨hpass, hp⟩
  cases probe with
  | dns dnsTarget =>
    rw [pinger, dnsPinger_eq_ok, Accepts]
    exact hpart
  | ping target =>
    rw [pinger, pingPinger_eq_ok, Accepts]
    exact hpart

theorem Accepts.pinger_ok (h : c.Accepts a) : ∃ p, c.pinger a = .ok p := by
  obtain ⟨transport, htr⟩ := Option.isSome_iff_exists.1 h.1
  exact ⟨_, pinger_eq_ok.2 ⟨h, transport, htr, rfl⟩⟩

theorem pinger_error_of_not_accepts (h : ¬ c.Accepts a) : ∃ e, c.pinger a = .error e := by
  cases hp : c.pinger a with
  | ok p => exact absurd (pinger_eq_ok.1 hp).1 h
  | error e => exact ⟨e, rfl⟩

/-- A pinger of an attempt carries its from node and its target. -/
theorem carries_of_ok (h : c.pinger a = .ok p) :
    p.nodeName = a.from_ ∧ p.request = c.request a.from_ a.probe := by
  obtain ⟨_, transport, _, rfl⟩ := pinger_eq_ok.1 h
  exact ⟨remotePinger_nodeName _ _ _ _, remotePinger_request _ _ _⟩

/-! ## What the map holds in the end -/

theorem puts_eq_map (from_ : String) (sv : Served) :
    c.puts from_ sv = (c.attemptsOf from_ sv).map fun a => (a.probe.key, c.pinger a) := by
  cases sv with
  | dns regData =>
    rw [attemptsOf, List.map_map]
    rfl
  | ping regData =>
    rw [attemptsOf, List.map_map]
    rfl
  | http regData => rfl
  | skipped => rfl

theorem from_of_mem_attemptsOf {from_ : String} {sv : Served} (h : a ∈ c.attemptsOf from_ sv) :
    a.from_ = from_ := by
  cases sv with
  | dns regData =>
    obtain ⟨t, _, rfl⟩ := List.mem_map.1 h
    rfl
  | ping regData =>
    obtain ⟨t, _, rfl⟩ := List.mem_map.1 h
    rfl
  | http regData => cases h
  | skipped => cases h

/-- The pinger of an attempt, if it goes under the key. -/
def under (c : TaskContext) (k : String × String) (a : Attempt) : Option SimpleRemotePinger :=
  if k = a.key then (c.pinger a).toOption else none

theorem under_eq_some : c.under k a = some p ↔ k = a.key ∧ c.pinger a = .ok p := by
  rw [under]
  split
  next h => rw [toOption_eq_some, and_iff_right h]
  next h => simp [h]

theorem made_eq_findSome? (from_ : String) (sv : Served) :
    c.made from_ sv k = (c.attemptsOf from_ sv).reverse.findSome? (c.under k) := by
  have hmap : ∀ l : List Attempt, (∀ a ∈ l, a.from_ = from_) →
      (l.map fun a => (a.probe.key, c.pinger a)).findSome?
          (fun x => if k = (from_, x.1) then x.2.toOption else none) =
        l.findSome? (c.under k) := by
    intro l hl
    induction l with
    | nil => rfl
    | cons a l ih =>
      have hfrom := hl a List.mem_cons_self
      have ih := ih fun b hb => hl b (List.mem_cons_of_mem _ hb)
      rw [List.map_cons, List.findSome?_cons, List.findSome?_cons, ih, under, Attempt.key, hfrom]
  rw [made, puts_eq_map, ← List.map_reverse]
  exact hmap _ fun a ha => from_of_mem_attemptsOf (List.mem_reverse.1 ha)

/-- Searching a concatenation from its end searches its parts from the last one. -/
theorem findSome?_reverse_flatMap {α β γ : Type*} (l : List α) (f : α → List β)
    (g : β → Option γ) :
    (l.flatMap f).reverse.findSome? g = l.reverse.findSome? fun x => (f x).reverse.findSome? g := by
  induction l with
  | nil => rfl
  | cons x l ih =>
    rw [List.flatMap_cons, List.reverse_append, List.findSome?_append, ih, List.reverse_cons,
      List.findSome?_append]
    simp

/-- A key of the map holds the pinger of the last accepted attempt under it. -/
theorem lookup_eq_last :
    (c.dispatch walks).pingers.lookup k = (c.attempts walks).reverse.findSome? (c.under k) := by
  have hlookup := (foldl_serve c walks k c.form.froms.zipIdx {}).2
  rw [dispatch, hlookup, AList.lookup_empty, Option.or_none, attempts, findSome?_reverse_flatMap]
  simp only [made_eq_findSome?]

/-- What the map holds comes from an accepted attempt. -/
theorem attempt_of_lookup (h : (c.dispatch walks).pingers.lookup k = some p) :
    ∃ l₁ a l₂, c.attempts walks = l₁ ++ a :: l₂ ∧ k = a.key ∧ c.pinger a = .ok p ∧
      ∀ b ∈ l₂, c.Accepts b → b.key ≠ a.key := by
  rw [lookup_eq_last] at h
  obtain ⟨l₁, a, l₂, hl, ha, hnone⟩ := List.findSome?_eq_some_iff.1 h
  obtain ⟨rfl, hp⟩ := under_eq_some.1 ha
  refine ⟨l₂.reverse, a, l₁.reverse, ?_, rfl, hp, fun b hb haccepts hkey => ?_⟩
  · rw [← List.reverse_reverse (c.attempts walks), hl]
    simp
  · obtain ⟨q, hq⟩ := haccepts.pinger_ok
    cases (hnone b (List.mem_reverse.1 hb)).symm.trans (under_eq_some.2 ⟨hkey.symm, hq⟩)

/-- An accepted attempt that is not replaced by another request leaves its request in the
map. -/
theorem lookup_of_accepted {l₁ l₂ : List Attempt} (hl : c.attempts walks = l₁ ++ a :: l₂)
    (ha : c.Accepts a)
    (hlast : ∀ b ∈ l₂, c.Accepts b → b.key = a.key →
      c.request b.from_ b.probe = c.request a.from_ a.probe) :
    ∃ p, (c.dispatch walks).pingers.lookup a.key = some p ∧ p.nodeName = a.from_ ∧
      p.request = c.request a.from_ a.probe := by
  have hrev : (c.attempts walks).reverse = l₂.reverse ++ a :: l₁.reverse := by rw [hl]; simp
  obtain ⟨q, hq⟩ := ha.pinger_ok
  simp only [lookup_eq_last, hrev, List.findSome?_append, List.findSome?_cons,
    under_eq_some.2 ⟨rfl, hq⟩]
  cases hfind : l₂.reverse.findSome? (c.under a.key) with
  | none => exact ⟨q, rfl, carries_of_ok hq⟩
  | some p =>
    obtain ⟨b, hb, hp⟩ := List.exists_of_findSome?_eq_some hfind
    obtain ⟨hkey, hp⟩ := under_eq_some.1 hp
    obtain ⟨hnode, hrequest⟩ := carries_of_ok hp
    have hsame := hlast b (List.mem_reverse.1 hb) (pinger_eq_ok.1 hp).1 hkey.symm
    have hfrom : a.from_ = b.from_ := congrArg Prod.fst hkey
    exact ⟨p, rfl, hnode.trans hfrom.symm, hrequest.trans hsame⟩

/-! ## The error lines -/

theorem errors_put (st : Dispatch) (from_ target : String) (r : Except String SimpleRemotePinger)
    {e : String} :
    e ∈ (st.put from_ target r).errors ↔ e ∈ st.errors ∨ r = .error e := by
  cases r with
  | ok q => simp [Dispatch.put]
  | error e' => simp [Dispatch.put, eq_comm]

theorem errors_foldl_put {e : String} (from_ : String)
    (l : List (String × Except String SimpleRemotePinger)) (st : Dispatch) :
    e ∈ (l.foldl (fun st x => st.put from_ x.1 x.2) st).errors ↔
      e ∈ st.errors ∨ ∃ x ∈ l, x.2 = .error e := by
  induction l generalizing st with
  | nil => simp
  | cons x l ih =>
    rw [List.foldl_cons, ih, errors_put, List.exists_mem_cons_iff, or_assoc]

/-- Serving a node keeps the error lines and adds those of its attempts. -/
theorem errors_serve {e : String} (st : Dispatch) (from_ : String) (sv : Served)
    (h : e ∈ st.errors ∨ ∃ a ∈ c.attemptsOf from_ sv, c.pinger a = .error e) :
    e ∈ (c.serve st from_ sv).errors := by
  have hputs : (∃ a ∈ c.attemptsOf from_ sv, c.pinger a = .error e) →
      ∃ x ∈ c.puts from_ sv, x.2 = .error e := by
    rintro ⟨a, ha, he⟩
    exact ⟨_, by rw [puts_eq_map]; exact List.mem_map_of_mem ha, he⟩
  have h := h.imp_right hputs
  cases sv with
  | dns regData =>
    have hfold := (errors_foldl_put from_ (c.puts from_ (.dns regData)) st).2 h
    rwa [puts, List.foldl_map] at hfold
  | ping regData =>
    have hfold := (errors_foldl_put from_ (c.puts from_ (.ping regData)) st).2 h
    rwa [puts, List.foldl_map] at hfold
  | http regData =>
    have h : e ∈ st.errors := h.resolve_right (by rintro ⟨x, hx, _⟩; cases hx)
    simp only [serve, serveHTTP]
    split
    next => exact List.mem_append_left _ h
    next => exact List.mem_append_left _ (List.mem_append_left _ h)
  | skipped => exact h.resolve_right (by rintro ⟨x, hx, _⟩; cases hx)

theorem errors_foldl_serve {e : String} (l : List (String × Nat)) (st : Dispatch)
    (h : e ∈ st.errors ∨ ∃ x ∈ l, ∃ a ∈ c.attemptsOf x.1 (c.served x.1 (walks x.2)),
      c.pinger a = .error e) :
    e ∈ (l.foldl (fun st x => c.serve st x.1 (c.served x.1 (walks x.2))) st).errors := by
  induction l generalizing st with
  | nil => exact h.resolve_right (by rintro ⟨x, hx, _⟩; cases hx)
  | cons x l ih =>
    rw [List.exists_mem_cons_iff, ← or_assoc] at h
    rw [List.foldl_cons]
    exact ih _ (h.imp_left (errors_serve st x.1 _))

/-- The error line of a refused attempt is among those the dispatch writes. -/
theorem error_mem_dispatch {e : String} (ha : a ∈ c.attempts walks)
    (he : c.pinger a = .error e) : e ∈ (c.dispatch walks).errors := by
  obtain ⟨x, hx, hax⟩ := List.mem_flatMap.1 ha
  exact errors_foldl_serve _ _ (.inr ⟨x, hx, a, hax, he⟩)

/-- A request that asks for probes is not turned away before its from nodes are served. -/
theorem targets_of_probe {probe : Probe} (h : probe ∈ c.probes) :
    ¬ (c.form.targets = [] ∧ c.form.l7PacketType = none) := by
  rintro ⟨htargets, hl7⟩
  have hkind : c.requested = .ping := by
    rw [requested, if_neg (by rw [hl7]; simp), if_neg (by rw [hl7]; simp)]
  rw [probes, hkind, htargets] at h
  cases h

/-- A request for HTTP has no probes of the other kinds, and any other serves no node as an
HTTP task. -/
theorem madeFlat_of_probe {probe : Probe} (h : probe ∈ c.probes) (from_ : String)
    (walk : Nat → Option (List ConnRegistryData)) :
    c.madeFlat from_ (c.served from_ walk) = none := by
  have hne : c.requested ≠ .http := by
    intro hkind
    rw [probes, hkind] at h
    cases h
  cases hget : getConnWithCapability (walk c.requested.lookup) from_ c.requested.capability with
  | some regData =>
    rw [served_of_some hget]
    cases hkind : c.requested with
    | dns => rfl
    | ping => rfl
    | http => exact absurd hkind hne
  | none =>
    rcases served_of_none hget with ⟨regData, _, hserved⟩ | hserved
    · rw [hserved]
      rfl
    · rw [hserved]
      rfl

end TaskContext

namespace PingTaskHandler

open TaskContext

variable {handler : PingTaskHandler} {net : Net} {remoteAddr : String} {p : SimpleRemotePinger}
variable {walks : Nat → Nat → Option (List ConnRegistryData)} {form : SimplePingRequest}
variable {c : TaskContext}

/-- What is started is the HTTP pingers and what the map holds in the end. -/
theorem started_iff_lookup (hc : c = handler.context net remoteAddr form) :
    (∃ m, (p, m) ∈ (handler.serveHTTP net remoteAddr walks (.ok form)).started) ↔
      (∃ x ∈ form.froms.zipIdx, c.madeFlat x.1 (c.served x.1 (walks x.2)) = some p) ∨
        ∃ k, (c.dispatch walks).pingers.lookup k = some p := by
  rw [started_iff hc]
  subst hc
  constructor
  · rintro ⟨x, hx, hp | ⟨k, hp, hlast⟩⟩
    · exact .inl ⟨x, hx, hp⟩
    · exact .inr ⟨k, lookup_dispatch.2 ⟨x, hx, hp, hlast⟩⟩
  · rintro (⟨x, hx, hp⟩ | ⟨k, hp⟩)
    · exact ⟨x, hx, .inl hp⟩
    · obtain ⟨x, hx, hp, hlast⟩ := lookup_dispatch.1 hp
      exact ⟨x, hx, .inr ⟨k, hp, hlast⟩⟩

/-- The response has the error lines of the dispatch, and one more if nothing is started. -/
theorem errors_of_served (walks : Nat → Nat → Option (List ConnRegistryData))
    (hc : c = handler.context net remoteAddr form)
    (hfroms : form.froms ≠ []) (htargets : ¬ (form.targets = [] ∧ form.l7PacketType = none)) :
    (∀ e ∈ (c.dispatch walks).errors,
        e ∈ (handler.serveHTTP net remoteAddr walks (.ok form)).errors) ∧
      ((handler.serveHTTP net remoteAddr walks (.ok form)).started = [] →
        "no pingers to start" ∈ (handler.serveHTTP net remoteAddr walks (.ok form)).errors) := by
  subst hc
  simp only [serveHTTP]
  split
  next h => exact absurd h hfroms
  next =>
    split
    next h => exact absurd h htargets
    next =>
      split
      next => exact ⟨fun e he => List.mem_append_left _ he, fun _ => by simp⟩
      next hne => exact ⟨fun e he => he, fun hnil => absurd hnil hne⟩

theorem nodeName_of_made {from_ : String} {sv : Served}
    (h : c.madeFlat from_ sv = some p ∨ ∃ k, c.made from_ sv k = some p) : p.nodeName = from_ := by
  rcases h with h | ⟨k, h⟩
  · cases sv with
    | http regData =>
      obtain ⟨transport, _, rfl⟩ := httpPinger_eq_ok.1 (toOption_eq_some.1 h)
      exact remotePinger_nodeName _ _ _ _
    | dns regData => cases h
    | ping regData => cases h
    | skipped => cases h
  · rw [made_eq_findSome?] at h
    obtain ⟨a, ha, hp⟩ := List.exists_of_findSome?_eq_some h
    rw [(carries_of_ok (under_eq_some.1 hp).2).1]
    exact from_of_mem_attemptsOf (List.mem_reverse.1 ha)

/-- What is started was requested. -/
theorem requested_of_started {started : SimpleRemotePinger × List (String × String)}
    (hc : c = handler.context net remoteAddr form)
    (h : started ∈ (handler.serveHTTP net remoteAddr walks (.ok form)).started) :
    started.1.nodeName ∈ form.froms ∧
      ((∃ dnsTarget ∈ c.form.dnsTargets, started.1.request =
            c.form.deriveAsDNSProbeRequest started.1.nodeName dnsTarget) ∨
        (∃ target ∈ c.form.targets, started.1.request =
            c.form.deriveAsPingRequest started.1.nodeName target) ∨
        started.1.request = c.form.deriveAdHTTPProbeRequest started.1.nodeName
          c.handler.httpResponseBodyClamp) := by
  obtain ⟨x, hx, hmade⟩ := (started_iff hc).1 ⟨started.2, h⟩
  have hmade : c.madeFlat x.1 (c.served x.1 (walks x.2)) = some started.1 ∨
      ∃ k, c.made x.1 (c.served x.1 (walks x.2)) k = some started.1 :=
    hmade.imp_right fun ⟨k, hk, _⟩ => ⟨k, hk⟩
  rw [nodeName_of_made hmade]
  exact ⟨(List.mem_zipIdx' hx).2 ▸ List.getElem_mem _, derived_of_made hmade⟩

/-! ## Ping tasks -/

/-- The attempts of a request that names no protocol are pings. -/
theorem ping_of_attempt (hl7 : c.form.l7PacketType = none) (ha : a ∈ c.attempts walks) :
    a.from_ ∈ c.form.froms ∧ ∃ target ∈ c.form.targets, a.probe = .ping target := by
  obtain ⟨x, hx, ha⟩ := List.mem_flatMap.1 ha
  have hfrom : x.1 ∈ c.form.froms := (List.mem_zipIdx' hx).2 ▸ List.getElem_mem _
  rw [from_of_mem_attemptsOf ha]
  refine ⟨hfrom, ?_⟩
  rcases served_of_no_l7 hl7 x.1 (walks x.2) with ⟨regData, hserved⟩ | hserved
  · rw [hserved] at ha
    obtain ⟨target, htarget, rfl⟩ := List.mem_map.1 ha
    exact ⟨target, htarget, rfl⟩
  · rw [hserved] at ha
    cases ha

/-- The pingers of a ping task are those of its accepted attempts. -/
theorem attempt_of_started (hc : c = handler.context net remoteAddr form)
    (hl7 : c.form.l7PacketType = none) {started : SimpleRemotePinger × List (String × String)}
    (h : started ∈ (handler.serveHTTP net remoteAddr walks (.ok form)).started) :
    ∃ a ∈ c.attempts walks, c.pinger a = .ok started.1 := by
  rcases (started_iff_lookup hc).1 ⟨started.2, h⟩ with ⟨x, -, hp⟩ | ⟨k, hp⟩
  · rcases served_of_no_l7 hl7 x.1 (walks x.2) with ⟨regData, hserved⟩ | hserved
    · rw [hserved] at hp
      cases hp
    · rw [hserved] at hp
      cases hp
  · obtain ⟨l₁, a, l₂, hl, -, hok, -⟩ := attempt_of_lookup hp
    exact ⟨a, by rw [hl]; simp, hok⟩

/-- Pings under one key ask for the same, so each that is accepted is started. -/
theorem started_of_accepted (hc : c = handler.context net remoteAddr form)
    (hl7 : c.form.l7PacketType = none) (ha : a ∈ c.attempts walks) (haccepts : c.Accepts a) :
    ∃ started ∈ (handler.serveHTTP net remoteAddr walks (.ok form)).started,
      started.1.nodeName = a.from_ ∧ started.1.request = c.request a.from_ a.probe := by
  obtain ⟨l₁, l₂, hl⟩ := List.append_of_mem ha
  have hsame : ∀ b ∈ l₂, c.Accepts b → b.key = a.key →
      c.request b.from_ b.probe = c.request a.from_ a.probe := by
    intro b hb _ hkey
    have hb : b ∈ c.attempts walks := by
      rw [hl]
      exact List.mem_append_right _ (List.mem_cons_of_mem _ hb)
    obtain ⟨-, target, -, hprobe⟩ := ping_of_attempt hl7 ha
    obtain ⟨-, target', -, hprobe'⟩ := ping_of_attempt hl7 hb
    rw [Attempt.key, Attempt.key, hprobe, hprobe'] at hkey
    obtain ⟨hfrom, htarget⟩ := Prod.mk.inj hkey
    obtain rfl : target' = target := htarget
    rw [hfrom, hprobe, hprobe']
  obtain ⟨p, hp, hnode, hrequest⟩ := lookup_of_accepted hl haccepts hsame
  obtain ⟨m, hm⟩ := (started_iff_lookup hc).2 (.inr ⟨a.key, hp⟩)
  exact ⟨(p, m), hm, hnode, hrequest⟩

/-! ## The ledger -/

/-- No probe is dropped without a word exactly if no attempt at all is accepted or each
requested probe is accounted for. -/
theorem nothing_dropped_iff (handler : PingTaskHandler) (net : Net) (remoteAddr : String)
    (walks : Nat → Nat → Option (List ConnRegistryData)) (form : SimplePingRequest) :
    (handler.context net remoteAddr form).NothingDropped walks
        (handler.serveHTTP net remoteAddr walks (.ok form)) ↔
      (∀ a ∈ (handler.context net remoteAddr form).attempts walks,
          ¬ (handler.context net remoteAddr form).Accepts a) ∨
        ∀ from_ ∈ form.froms, ∀ probe ∈ (handler.context net remoteAddr form).probes,
          (handler.context net remoteAddr form).Accounted walks from_ probe := by
  obtain ⟨c, hc⟩ : ∃ c, c = handler.context net remoteAddr form := ⟨_, rfl⟩
  rw [← hc]
  have hform : c.form.froms = form.froms := by rw [hc]; rfl
  have hserved : ∀ from_ ∈ form.froms, ∀ probe ∈ c.probes, form.froms ≠ [] ∧
      ¬ (form.targets = [] ∧ form.l7PacketType = none) := fun from_ hfrom probe hprobe =>
    ⟨List.ne_nil_of_mem hfrom, by subst hc; exact targets_of_probe hprobe⟩
  constructor
  · intro h
    by_cases hnone : ∀ a ∈ c.attempts walks, ¬ c.Accepts a
    · exact .inl hnone
    refine .inr fun from_ hfrom probe hprobe => ?_
    rcases h.answered from_ (hform ▸ hfrom) probe hprobe with
      ⟨started, hstarted, hnode, hrequest⟩ | ⟨a, ha, hafrom, haprobe, e, _, he⟩ | ⟨hnil, _⟩
    · rcases (started_iff_lookup hc).1 ⟨started.2, hstarted⟩ with ⟨x, _, hp⟩ | ⟨k, hp⟩
      · cases (madeFlat_of_probe hprobe _ _).symm.trans hp
      · obtain ⟨l₁, a, l₂, hl, rfl, hok, hlast⟩ := attempt_of_lookup hp
        obtain ⟨hnode', hrequest'⟩ := carries_of_ok hok
        exact .inr ⟨l₁, a, l₂, hl, hnode'.symm.trans hnode, hrequest'.symm.trans hrequest,
          (pinger_eq_ok.1 hok).1, fun b hb haccepts hkey => absurd hkey (hlast b hb haccepts)⟩
    · refine .inl ⟨a, ha, hafrom, haprobe, fun haccepts => ?_⟩
      obtain ⟨p, hp⟩ := haccepts.pinger_ok
      cases hp.symm.trans he
    · obtain ⟨a, ha, haccepts⟩ : ∃ a ∈ c.attempts walks, c.Accepts a := by
        by_contra hcon
        exact hnone fun a ha haccepts => hcon ⟨a, ha, haccepts⟩
      -- the last accepted attempt under the key of this one is started
      have hsome : ((c.attempts walks).reverse.findSome? (c.under a.key)).isSome := by
        obtain ⟨p, hp⟩ := haccepts.pinger_ok
        exact List.findSome?_isSome_iff.2
          ⟨a, List.mem_reverse.2 ha, by rw [under_eq_some.2 ⟨rfl, hp⟩]; rfl⟩
      obtain ⟨p, hp⟩ := Option.isSome_iff_exists.1 hsome
      obtain ⟨m, hm⟩ := (started_iff_lookup hc).2 (.inr ⟨a.key, lookup_eq_last.trans hp⟩)
      rw [hnil] at hm
      cases hm
  · intro h
    refine ⟨fun from_ hfrom probe hprobe => ?_, fun started hstarted => ?_⟩
    · have hfrom : from_ ∈ form.froms := hform ▸ hfrom
      obtain ⟨hfroms, htargets⟩ := hserved from_ hfrom probe hprobe
      obtain ⟨herrors, hnopingers⟩ := errors_of_served walks hc hfroms htargets
      rcases h with hnone | haccounted
      · have hnil : (handler.serveHTTP net remoteAddr walks (.ok form)).started = [] := by
          refine List.eq_nil_iff_forall_not_mem.2 fun started hstarted => ?_
          rcases (started_iff_lookup hc).1 ⟨started.2, hstarted⟩ with ⟨x, _, hp⟩ | ⟨k, hp⟩
          · cases (madeFlat_of_probe hprobe _ _).symm.trans hp
          · obtain ⟨l₁, a, l₂, hl, _, hok, _⟩ := attempt_of_lookup hp
            exact hnone a (by rw [hl]; simp) (pinger_eq_ok.1 hok).1
        exact .inr (.inr ⟨hnil, hnopingers hnil⟩)
      · rcases haccounted from_ hfrom probe hprobe with
          ⟨a, ha, hafrom, haprobe, hrefused⟩ | ⟨l₁, a, l₂, hl, hafrom, hsame, haccepts, hlast⟩
        · obtain ⟨e, he⟩ := pinger_error_of_not_accepts hrefused
          exact .inr (.inl ⟨a, ha, hafrom, haprobe, e, herrors e (error_mem_dispatch ha he), he⟩)
        · obtain ⟨p, hp, hnode, hrequest⟩ := lookup_of_accepted hl haccepts hlast
          obtain ⟨m, hm⟩ := (started_iff_lookup hc).2 (.inr ⟨a.key, hp⟩)
          exact .inl ⟨(p, m), hm, hnode.trans hafrom, hrequest.trans hsame⟩
    · rw [hform]
      exact requested_of_started hc hstarted

/-- A ping from a node that is connected and one that is not. -/
def ghostForm : SimplePingRequest where
  froms := ["node", "ghost"]
  targets := ["192.0.2.1"]
  intvMilliseconds := 1000
  pktTimeoutMilliseconds := 3000

/-- The node that is not connected is left out and the client is told nothing. -/
theorem absent_node_dropped :
    let response := PingTaskHandler.serveHTTP {} emptyNet "192.0.2.9"
      (fun _ _ => some [pingOnlyAgent]) (.ok ghostForm)
    "ghost" ∈ ghostForm.froms ∧ response.started ≠ [] ∧ response.errors = [] ∧
      ∀ started ∈ response.started, started.1.nodeName ≠ "ghost" := by
  decide +kernel

end PingTaskHandler

end CloudPing.Handler

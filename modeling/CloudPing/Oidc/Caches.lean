import Mathlib.Data.List.Basic

/-!
# The metadata of an identity provider

`DiscoveryCache` keeps the discovery document for some time, and an old one when no new one can
be had.  A `Get` looks at the cache under the read lock, and if that is not enough once more
under the write lock, where it also fetches.  So a run is any interleaving of these two sections
of any number of calls (`discovery_recovers`).

`ProviderCache` makes the provider once.  `sync.Once` lets a call wait until the first one is
done, and then nothing changes any more, so a call is one step.  What the first call finds is
what all get (`providerReturns_cons`): if it is an error, the provider never comes back
(`caches_recover_iff`).

The handler of the login makes one cache of each kind, when it needs it.
-/

namespace CloudPing.Oidc

/-! ## The discovery document -/

structure DiscoveryDocument where
  issuer : String := ""
  authorizationEndpoint : String := ""
  tokenEndpoint : String := ""
  userInfoEndpoint : String := ""
  revocationEndpoint : String := ""
  jwksEndpoint : String := ""
  scopesSupported : List String := []
  codeChallengeMethods : List String := []

/-- What comes of the request for the document: it cannot be made, there is no answer to it
(also if its context is cancelled), or there is one, with a body that decodes or does not. -/
inductive Exchange where
  | noRequest (err : String)
  | noAnswer (err : String)
  | answer (statusCode : Nat) (body : Except String DiscoveryDocument)

def discoveryURL (issuerURL : String) : String :=
  String.ofList (issuerURL.toList.reverse.dropWhile (· = '/')).reverse ++
    "/.well-known/openid-configuration"

def fetchDiscoveryDocument (issuerURL : String) : Exchange → Except String DiscoveryDocument
  | .noRequest err => .error ("failed to create discovery request: " ++ err)
  | .noAnswer err =>
    .error ("failed to fetch discovery document from " ++ discoveryURL issuerURL ++ ": " ++ err)
  | .answer statusCode body =>
    if statusCode ≠ 200 then
      .error ("discovery document request to " ++ discoveryURL issuerURL ++
        " returned status " ++ toString statusCode)
    else
      match body with
      | .error err => .error ("failed to decode discovery document: " ++ err)
      | .ok doc =>
        if doc.authorizationEndpoint = "" then
          .error "discovery document missing required field: authorization_endpoint"
        else if doc.tokenEndpoint = "" then
          .error "discovery document missing required field: token_endpoint"
        else .ok doc

/-! ## The law -/

variable {ι α β : Type}

/-- How a call ends.  It may have asked upstream itself. -/
structure Return (ι β : Type) where
  caller : ι
  result : Except String β
  asked : Bool

/-- A call fails only if it has asked upstream in vain, and no call before it with success.  So
a call does not fail that would have success upstream. -/
structure Recovers (upstream : ι → Except String α) (returns : List (Return ι β)) : Prop where
  failed : ∀ before r after, returns = before ++ r :: after → ∀ err, r.result = .error err →
    r.asked = true ∧ (∃ e, upstream r.caller = .error e) ∧
      ∀ q ∈ before, q.asked = true → ∃ e, upstream q.caller = .error e
  later : ∀ r ∈ returns, ∀ v, upstream r.caller = .ok v → ∃ v', r.result = .ok v'

section Law

variable {upstream : ι → Except String α} {returns : List (Return ι β)} {r : Return ι β}

theorem recovers_nil : Recovers upstream ([] : List (Return ι β)) where
  failed := by
    intro before r after h
    exact absurd h.symm (List.append_ne_nil_of_right_ne_nil _ (List.cons_ne_nil _ _))
  later := fun r hr => absurd hr List.not_mem_nil

/-- One more call that keeps to the law. -/
theorem Recovers.concat (h : Recovers upstream returns)
    (hr : ∀ err, r.result = .error err → r.asked = true ∧
      (∃ e, upstream r.caller = .error e) ∧
        ∀ q ∈ returns, q.asked = true → ∃ e, upstream q.caller = .error e) :
    Recovers upstream (returns ++ [r]) where
  failed := by
    intro before q after hsplit err herr
    rcases List.eq_nil_or_concat after with rfl | ⟨init, last, rfl⟩
    · obtain ⟨rfl, hlast⟩ := List.append_inj' hsplit rfl
      obtain rfl := List.cons.inj hlast |>.1
      exact hr err herr
    · have hsplit' : returns ++ [r] = (before ++ q :: init) ++ [last] := by
        rw [hsplit]
        simp
      exact h.failed before q init (List.append_inj' hsplit' rfl).1 err herr
  later := by
    intro q hq v hv
    rcases List.mem_append.1 hq with hq | hq
    · exact h.later q hq v hv
    · obtain rfl := List.mem_singleton.1 hq
      cases hres : q.result with
      | ok v' => exact ⟨v', rfl⟩
      | error err =>
        obtain ⟨-, ⟨e, he⟩, -⟩ := hr err hres
        cases he.symm.trans hv

end Law

/-! ## The cache of the document -/

structure DiscoveryCache where
  document : Option DiscoveryDocument := none
  fetchedAt : Int := 0
  ttl : Int
  issuerURL : String

/-- One hour, in nanoseconds. -/
def defaultTTL : Int := 3600000000000

def newDiscoveryCache (issuerURL : String) (ttl : Int) : DiscoveryCache where
  ttl := if ttl ≤ 0 then defaultTTL else ttl
  issuerURL := issuerURL

/-- A call of `Get`: what the clock shows when it holds the read lock, when it holds the write
lock and after its fetch, and what comes of its request. -/
structure GetCall where
  rlockedAt : Int
  lockedAt : Int
  fetchedAt : Int
  exchange : Exchange

namespace DiscoveryCache

/-- The document, while it is not too old. -/
def fresh (c : DiscoveryCache) (now : Int) : Option DiscoveryDocument :=
  if now - c.fetchedAt < c.ttl then c.document else none

/-- Under the write lock: the result, whether it was fetched, and the cache. -/
def lockedGet (c : DiscoveryCache) (call : GetCall) :
    Except String DiscoveryDocument × Bool × DiscoveryCache :=
  match c.fresh call.lockedAt with
  | some doc => (.ok doc, false, c)
  | none =>
    match fetchDiscoveryDocument c.issuerURL call.exchange with
    | .error err =>
      match c.document with
      | some doc => (.ok doc, true, c)
      | none => (.error err, true, c)
    | .ok doc => (.ok doc, true, { c with document := some doc, fetchedAt := call.fetchedAt })

end DiscoveryCache

/-- The sections of a call. -/
inductive Section (ι : Type) where
  | rlock (caller : ι)
  | lock (caller : ι)

/-- The cache, the calls between their sections, and those that have returned. -/
structure DiscoveryRun (ι : Type) where
  cache : DiscoveryCache
  waiting : List ι := []
  returns : List (Return ι DiscoveryDocument) := []

namespace DiscoveryRun

variable [DecidableEq ι]

def step (calls : ι → GetCall) (run : DiscoveryRun ι) : Section ι → DiscoveryRun ι
  | .rlock caller =>
    match run.cache.fresh (calls caller).rlockedAt with
    | some doc => { run with returns := run.returns ++ [⟨caller, .ok doc, false⟩] }
    | none => { run with waiting := caller :: run.waiting }
  | .lock caller =>
    if caller ∈ run.waiting then
      let (result, asked, cache) := run.cache.lockedGet (calls caller)
      { cache
        waiting := run.waiting.erase caller
        returns := run.returns ++ [⟨caller, result, asked⟩] }
    else run

/-- The calls that return in an interleaving. -/
def returnsOf (calls : ι → GetCall) (issuerURL : String) (ttl : Int)
    (sections : List (Section ι)) : List (Return ι DiscoveryDocument) :=
  (sections.foldl (step calls) { cache := newDiscoveryCache issuerURL ttl }).returns

end DiscoveryRun

/-- What upstream has for each call. -/
def documentFor (calls : ι → GetCall) (issuerURL : String) (caller : ι) :
    Except String DiscoveryDocument :=
  fetchDiscoveryDocument issuerURL (calls caller).exchange

/-- There is a document as soon as one was fetched. -/
structure Intact (calls : ι → GetCall) (issuerURL : String) (run : DiscoveryRun ι) : Prop where
  issuer : run.cache.issuerURL = issuerURL
  stored : ∀ q ∈ run.returns, q.asked = true →
    (∃ e, documentFor calls issuerURL q.caller = .error e) ∨ run.cache.document.isSome = true
  recovers : Recovers (documentFor calls issuerURL) run.returns

/-- What a call does to the cache when it returns. -/
structure Answers (calls : ι → GetCall) (cache : DiscoveryCache) (r : Return ι DiscoveryDocument)
    (cache' : DiscoveryCache) : Prop where
  issuer : cache'.issuerURL = cache.issuerURL
  kept : cache.document.isSome = true → cache'.document.isSome = true
  stored : r.asked = true →
    (∃ e, documentFor calls cache.issuerURL r.caller = .error e) ∨ cache'.document.isSome = true
  failed : ∀ err, r.result = .error err → r.asked = true ∧
    (∃ e, documentFor calls cache.issuerURL r.caller = .error e) ∧ cache.document = none

section Discovery

variable {calls : ι → GetCall} {issuerURL : String} {run : DiscoveryRun ι} {caller : ι}
  {cache : DiscoveryCache}

/-- A document from the cache. -/
theorem answers_cached (cache : DiscoveryCache) (caller : ι) (doc : DiscoveryDocument) :
    Answers calls cache ⟨caller, .ok doc, false⟩ cache where
  issuer := rfl
  kept := id
  stored := fun h => absurd h Bool.false_ne_true
  failed := by
    intro err h
    cases h

theorem answers_lockedGet (cache : DiscoveryCache) (caller : ι) :
    Answers calls cache
      ⟨caller, (cache.lockedGet (calls caller)).1, (cache.lockedGet (calls caller)).2.1⟩
      (cache.lockedGet (calls caller)).2.2 := by
  rw [DiscoveryCache.lockedGet]
  cases hfresh : cache.fresh (calls caller).lockedAt with
  | some doc => exact answers_cached cache caller doc
  | none =>
    cases hfetch : fetchDiscoveryDocument cache.issuerURL (calls caller).exchange with
    | ok doc => exact ⟨rfl, fun _ => rfl, fun _ => Or.inr rfl, fun err h => by cases h⟩
    | error e =>
      cases hdoc : cache.document with
      | some doc =>
        exact ⟨rfl, fun _ => by rw [hdoc]; rfl, fun _ => Or.inl ⟨e, hfetch⟩,
          fun err h => by cases h⟩
      | none => exact ⟨rfl, id, fun _ => Or.inl ⟨e, hfetch⟩, fun err _ => ⟨rfl, ⟨e, hfetch⟩, hdoc⟩⟩

theorem Intact.answer (h : Intact calls issuerURL run) {r : Return ι DiscoveryDocument}
    (hr : Answers calls run.cache r cache) (waiting : List ι) :
    Intact calls issuerURL ⟨cache, waiting, run.returns ++ [r]⟩ where
  issuer := hr.issuer.trans h.issuer
  stored := by
    intro q hq hasked
    rcases List.mem_append.1 hq with hq | hq
    · exact (h.stored q hq hasked).imp_right hr.kept
    · obtain rfl := List.mem_singleton.1 hq
      exact h.issuer ▸ hr.stored hasked
  recovers := by
    refine h.recovers.concat fun err herr => ?_
    obtain ⟨hasked, he, hnone⟩ := hr.failed err herr
    refine ⟨hasked, h.issuer ▸ he,
      fun q hq hq' => (h.stored q hq hq').resolve_right fun hsome => ?_⟩
    rw [hnone] at hsome
    cases hsome

theorem Intact.step [DecidableEq ι] (h : Intact calls issuerURL run) (sect : Section ι) :
    Intact calls issuerURL (run.step calls sect) := by
  cases sect with
  | rlock caller =>
    rw [DiscoveryRun.step]
    cases run.cache.fresh (calls caller).rlockedAt with
    | some doc => exact h.answer (answers_cached run.cache caller doc) run.waiting
    | none => exact ⟨h.issuer, h.stored, h.recovers⟩
  | lock caller =>
    rw [DiscoveryRun.step]
    split
    · exact h.answer (answers_lockedGet run.cache caller) _
    · exact h

end Discovery

/-- In every interleaving the calls on a `DiscoveryCache` keep to the law. -/
theorem discovery_recovers [DecidableEq ι] (calls : ι → GetCall) (issuerURL : String) (ttl : Int)
    (sections : List (Section ι)) :
    Recovers (documentFor calls issuerURL)
      (DiscoveryRun.returnsOf calls issuerURL ttl sections) := by
  have hstart : Intact calls issuerURL ({ cache := newDiscoveryCache issuerURL ttl }) :=
    ⟨rfl, fun q hq => absurd hq List.not_mem_nil, recovers_nil⟩
  have hrun : ∀ run, Intact calls issuerURL run →
      Intact calls issuerURL (sections.foldl (DiscoveryRun.step calls) run) := by
    induction sections with
    | nil => exact fun run h => h
    | cons sect sections ih => exact fun run h => ih _ (h.step sect)
  exact (hrun _ hstart).recovers

/-! ## The cache of the provider -/

variable {P : Type}

/-- `done` is that of the `sync.Once`. -/
structure ProviderCache (P : Type) where
  done : Bool := false
  provider : Option P := none
  issuer : String
  err : Option String := none

namespace ProviderCache

/-- What the first call leaves. -/
def init (quote : String → String) (c : ProviderCache P) (newProvider : Except String P) :
    ProviderCache P :=
  match newProvider with
  | .error err =>
    { c with
      done := true
      err := some ("failed to discover OIDC provider " ++ quote c.issuer ++ ": " ++ err) }
  | .ok p => { c with done := true, provider := some p }

def result (c : ProviderCache P) : Except String (Option P) :=
  match c.err with
  | some err => .error err
  | none => .ok c.provider

/-- The calls in the order in which `Do` lets them pass, each with what `oidc.NewProvider` has
for it.  How `%q` quotes is a parameter. -/
def returnsOf (quote : String → String) (newProvider : ι → Except String P)
    (c : ProviderCache P) : List ι → List (Return ι (Option P))
  | [] => []
  | caller :: callers =>
    let c' := if c.done then c else c.init quote (newProvider caller)
    ⟨caller, c'.result, !c.done⟩ :: returnsOf quote newProvider c' callers

end ProviderCache

def newProviderCache (issuer : String) : ProviderCache P := { issuer }

section Provider

variable {quote : String → String} {newProvider : ι → Except String P} {c : ProviderCache P}

/-- Once it is done, all calls get the same. -/
theorem returnsOf_done (hdone : c.done = true) (callers : List ι) :
    c.returnsOf quote newProvider callers =
      callers.map fun caller => ⟨caller, c.result, false⟩ := by
  induction callers with
  | nil => rfl
  | cons caller callers ih =>
    rw [ProviderCache.returnsOf, if_pos hdone, ih, hdone]
    rfl

theorem done_init (c : ProviderCache P) (found : Except String P) :
    (c.init quote found).done = true := by
  cases found <;> rfl

/-- The first call asks, and what it finds is what all get. -/
theorem returnsOf_cons (issuer : String) (first : ι) (rest : List ι) :
    (newProviderCache issuer).returnsOf quote newProvider (first :: rest) =
      ⟨first, ((newProviderCache issuer).init quote (newProvider first)).result, true⟩ ::
        rest.map fun caller =>
          ⟨caller, ((newProviderCache issuer).init quote (newProvider first)).result, false⟩ := by
  have hnew : (newProviderCache issuer : ProviderCache P).done = false := rfl
  rw [ProviderCache.returnsOf, hnew, if_neg Bool.false_ne_true, returnsOf_done (done_init _ _)]
  rfl

theorem recovers_of_ok {upstream : ι → Except String α} {returns : List (Return ι β)}
    (h : ∀ r ∈ returns, ∃ v, r.result = .ok v) : Recovers upstream returns where
  failed := by
    intro before r after hsplit err herr
    obtain ⟨v, hv⟩ := h r (hsplit ▸ List.mem_append_right _ List.mem_cons_self)
    cases hv.symm.trans herr
  later := fun r hr _ _ => h r hr

theorem provider_recovers_iff (issuer : String) (callers : List ι) :
    Recovers newProvider ((newProviderCache issuer).returnsOf quote newProvider callers) ↔
      ∀ first rest, callers = first :: rest → rest = [] ∨ ∃ p, newProvider first = .ok p := by
  constructor
  · rintro h first rest rfl
    cases hfirst : newProvider first with
    | ok p => exact Or.inr ⟨p, rfl⟩
    | error e =>
      refine Or.inl ?_
      by_contra hrest
      obtain ⟨second, rest, rfl⟩ := List.exists_cons_of_ne_nil hrest
      rw [returnsOf_cons, hfirst, List.map_cons] at h
      exact absurd (h.failed [_] _ _ rfl _ rfl).1 Bool.false_ne_true
  · intro h
    cases callers with
    | nil => exact recovers_nil
    | cons first rest =>
      rw [returnsOf_cons]
      cases hfirst : newProvider first with
      | ok p =>
        refine recovers_of_ok fun r hr => ⟨some p, ?_⟩
        rcases List.mem_cons.1 hr with rfl | hr
        · rfl
        · obtain ⟨caller, -, rfl⟩ := List.mem_map.1 hr
          rfl
      | error e =>
        have hnone : ¬∃ p, newProvider first = .ok p := by
          rintro ⟨p, hp⟩
          cases hfirst.symm.trans hp
        obtain rfl := (h first rest rfl).resolve_right hnone
        exact recovers_nil.concat fun err _ =>
          ⟨rfl, ⟨e, hfirst⟩, fun q hq => absurd hq List.not_mem_nil⟩

end Provider

/-- The law holds of both caches exactly if the first call for the provider has success, or
there is no other. -/
theorem caches_recover_iff [DecidableEq ι] (quote : String → String) (calls : ι → GetCall)
    (newProvider : ι → Except String P) (issuerURL : String) (ttl : Int)
    (sections : List (Section ι)) (callers : List ι) :
    (Recovers (documentFor calls issuerURL)
        (DiscoveryRun.returnsOf calls issuerURL ttl sections) ∧
      Recovers newProvider
        ((newProviderCache issuerURL).returnsOf quote newProvider callers)) ↔
    ∀ first rest, callers = first :: rest → rest = [] ∨ ∃ p, newProvider first = .ok p :=
  (and_iff_right (discovery_recovers calls issuerURL ttl sections)).trans
    (provider_recovers_iff issuerURL callers)

/-- The first login is given up by its user, and for the second one the provider is there. -/
def loginProvider (caller : Bool) : Except String Unit :=
  if caller then .ok () else .error "context canceled"

/-- The second one gets the error of the first, and has asked nobody. -/
theorem cancelled_first_remembered :
    ∃ r ∈ (newProviderCache "https://id.example.com").returnsOf (fun s => "\"" ++ s ++ "\"")
        loginProvider [false, true],
      r.caller = true ∧ r.asked = false ∧
      r.result = .error
        "failed to discover OIDC provider \"https://id.example.com\": context canceled" ∧
      ¬Recovers loginProvider
        ((newProviderCache "https://id.example.com").returnsOf (fun s => "\"" ++ s ++ "\"")
          loginProvider [false, true]) := by
  refine ⟨⟨true, .error _, false⟩, List.mem_cons_of_mem _ List.mem_cons_self, rfl, rfl, rfl, ?_⟩
  rw [provider_recovers_iff]
  intro h
  rcases h false [true] rfl with hnil | ⟨p, hp⟩
  · cases hnil
  · cases hp

end CloudPing.Oidc

import CloudPing.Ecma.URLSearchParams
import CloudPing.Proxy.IPQueryDirectory
import CloudPing.Web.IPQuery
import CloudPing.Web.JSONLines
import CloudPing.Web.PingRequest

/-!
# From the directory of IP information to the browser

The browser asks the directory about addresses, of some providers or of all, and shows the answers
by provider.

If the query is in order, the browser shows in the end for each provider that was asked its answers
about all the addresses, and that it has stopped (`ip_query_shown`).  A query that is refused has
one entry, and only the provider that it names has stopped.  So in the end all providers have
stopped exactly if the query was in order or no other provider was requested
(`ip_query_stopped_iff`).
-/

namespace CloudPing.Web

open Conc Ecma Json Proxy
open Pinger (IsEntry)
open Wire (Values)

/-! ## The query -/

/-- `DBIPQueryLister.queryIPs`, by its URL. -/
def queryIPs (apiPrefix : List Char) (ips : List String) (providers : Option (List String)) :
    List Char :=
  let searchParams : URLSearchParams := {}
  let searchParams := searchParams.appendAll "ip" ips
  let searchParams := searchParams.appendAll "provider" (providers.getD [])
  apiPrefix ++ "/query?".toList ++ searchParams.text

/-- The path of a URL without a fragment. -/
def pathOf (url : List Char) : List Char := url.takeWhile (· ≠ '?')

variable {F : Type} {apiPrefix : List Char} {ips : List String} {providers : Option (List String)}

variable (ips providers) in
theorem queryIPs_parts (h : '?' ∉ apiPrefix) :
    pathOf (queryIPs apiPrefix ips providers) = apiPrefix ++ "/query".toList ∧
      ∀ key, (Values.parse (queryOf (queryIPs apiPrefix ips providers))).all key =
        if key = "provider" then providers.getD [] else if key = "ip" then ips else [] := by
  have hpath : ∀ c ∈ apiPrefix ++ "/query".toList, (decide (c ≠ '?')) = true := by
    intro c hc
    refine decide_eq_true ?_
    rintro rfl
    rcases List.mem_append.1 hc with hc | hc
    · exact h hc
    · revert hc
      decide
  have hurl : queryIPs apiPrefix ips providers = (apiPrefix ++ "/query".toList) ++
      '?' :: (URLSearchParams.appendAll (URLSearchParams.appendAll {} "ip" ips) "provider"
        (providers.getD [])).text := by
    have hlit : "/query?".toList = "/query".toList ++ ['?'] := by decide
    rw [queryIPs, hlit]
    simp only [List.append_assoc, List.singleton_append]
  rw [pathOf, queryOf, hurl, List.takeWhile_append_of_pos hpath, List.dropWhile_append_of_pos hpath,
    List.takeWhile_cons, List.dropWhile_cons, if_neg (by decide), if_neg (by decide),
    List.append_nil]
  refine ⟨rfl, fun key => ?_⟩
  rw [List.drop_one, List.tail_cons, URLSearchParams.all_parse_text]
  simp only [URLSearchParams.getAll_appendAll, URLSearchParams.getAll_empty]
  split_ifs with h₁ h₂
  · exact absurd (h₁.symm.trans h₂) (by decide)
  · rfl
  · rfl
  · rfl

/-! ## The entries of a body -/

/-- A string, unless the value is another one. -/
def asString : Value → Option String
  | .str s => some s
  | _ => none

/-- What the consumer reads of a value.  A key that is missing reads as `undefined`. -/
def asEntry (v : Value) : IPQueryResultEntry Value where
  err := (prop "err" v).bind asString
  from_ := ((prop "from" v).bind asString).getD "undefined"
  ip := ((prop "ip" v).bind asString).getD "undefined"
  result := prop "result" v

/-- An entry of the directory as the browser has it. -/
def shown (float : FloatJSON F) (entry : QueryResultEntry F) : IPQueryResultEntry Value where
  err := entry.err
  from_ := entry.from_
  ip := entry.ip
  result := entry.result.map (basicIPInfoValue float)

theorem asEntry_toValue (float : FloatJSON F) (entry : QueryResultEntry F) :
    asEntry (entry.toValue float) = shown float entry := by
  obtain ⟨err, from_, ip, result⟩ := entry
  cases err <;> cases result <;>
    simp +decide [asEntry, shown, QueryResultEntry.toValue, prop, member, asString]

/-! ## The run of the consumer -/

namespace IPQueryRun

/-- The turns of the consumer over a stream that is read to its end. -/
def streamed (entries : List (IPQueryResultEntry Value)) : List (IPQueryAction Value) :=
  [.stream .opened, .stream .started] ++ entries.map (fun entry => .stream (.value entry)) ++
    [.stream .done]

/-- What is shown in the end of a body that came in pieces. -/
def received (providers : Option (List String)) (chunks : List CodeUnits) :
    Option (IPQueryRun Value) :=
  (system Value providers).replay .any (start providers)
    (streamed ((browserValues chunks).map asEntry))

/-- The entries of a provider. -/
def entriesOf (p : String) (entries : List (IPQueryResultEntry Value)) :
    List (IPQueryResultEntry Value) := entries.filter fun entry => entry.from_ = p

/-- The error that came last. -/
def lastErr (entries : List (IPQueryResultEntry Value)) : Option String :=
  entries.foldl (fun err entry => entry.err <|> err) none

/-- The state of a provider with entries. -/
def stateOf (entries : List (IPQueryResultEntry Value)) (isRunning : Bool) :
    ProviderIPQueryState Value :=
  { results := entries, isRunning, error := lastErr entries }

/-- What the map has while entries come. -/
structure Collected (providers : Option (List String)) (entries : List (IPQueryResultEntry Value))
    (view : IPQueryView Value) : Prop where
  seen : ∀ p, p ∈ view.runningProviders ↔ entriesOf p entries ≠ []
  states : ∀ p, view.providerMap p =
    if entriesOf p entries = [] then if p ∈ providers.getD [] then some {} else none
    else some (stateOf (entriesOf p entries) true)

variable (providers) in
theorem collected_start : Collected providers [] (start providers).view where
  seen p := iff_of_false List.not_mem_nil fun h => h rfl
  states p := by
    simp only [start, Record.fromKeys_apply]
    rfl

theorem entriesOf_concat (p : String) (entries : List (IPQueryResultEntry Value))
    (entry : IPQueryResultEntry Value) : entriesOf p (entries ++ [entry]) =
      if p = entry.from_ then entriesOf p entries ++ [entry] else entriesOf p entries := by
  rw [entriesOf, List.filter_append]
  split_ifs with hp
  · rw [List.filter_cons_of_pos (by simpa using hp.symm)]
    rfl
  · rw [List.filter_cons_of_neg (by simpa using Ne.symm hp)]
    exact List.append_nil _

theorem Collected.addEntry {entries : List (IPQueryResultEntry Value)} {view : IPQueryView Value}
    (h : Collected providers entries view) (entry : IPQueryResultEntry Value) :
    Collected providers (entries ++ [entry]) (view.addEntry entry) where
  seen p := by
    rw [IPQueryView.addEntry, entriesOf_concat]
    dsimp only
    rw [List.mem_insert_iff]
    split_ifs with hp
    · exact iff_of_true (.inl hp) (List.append_ne_nil_of_right_ne_nil _ (List.cons_ne_nil _ _))
    · rw [or_iff_right hp, h.seen]
  states p := by
    rw [IPQueryView.addEntry, entriesOf_concat]
    dsimp only
    by_cases hp : p = entry.from_
    · subst hp
      rw [Record.set_same, if_pos rfl, if_neg (List.append_ne_nil_of_right_ne_nil _
        (List.cons_ne_nil _ _)), h.states]
      have hlast : ∀ l : List (IPQueryResultEntry Value),
          lastErr (l ++ [entry]) = (entry.err <|> lastErr l) := fun l => by
        rw [lastErr, List.foldl_concat]
        rfl
      split_ifs with hnil hreq
      · rw [stateOf, hlast, hnil]
        rfl
      · rw [stateOf, hlast, hnil]
        rfl
      · simp only [stateOf, hlast, Option.getD_some]
    · rw [Record.set_of_ne hp, if_neg hp, h.states]

/-- Entries come one after another. -/
theorem replay_values (more : List (IPQueryResultEntry Value)) (rest : List (IPQueryAction Value))
    {entries : List (IPQueryResultEntry Value)} {view : IPQueryView Value}
    (h : Collected providers entries view) :
    ∃ view', Collected providers (entries ++ more) view' ∧
      (system Value providers).replay .any ⟨.reading, false, view⟩
          (more.map (fun entry => .stream (.value entry)) ++ rest) =
        (system Value providers).replay .any ⟨.reading, false, view'⟩ rest := by
  induction more generalizing entries view with
  | nil => exact ⟨view, by rwa [List.append_nil], rfl⟩
  | cons entry more ih =>
    obtain ⟨view', hview', hreplay⟩ := ih (h.addEntry entry)
    rw [List.append_assoc, List.singleton_append] at hview'
    refine ⟨view', hview', ?_⟩
    rw [List.map_cons, List.cons_append, System.replay_any_cons]
    exact hreplay

variable (providers) in
/-- In the end each provider with entries has stopped, and the others are as they were. -/
theorem received_eq {chunks : List CodeUnits} {entries : List (IPQueryResultEntry Value)}
    (h : (browserValues chunks).map asEntry = entries) :
    ∃ t, received providers chunks = some t ∧ ∀ p, t.view.providerMap p =
      if entriesOf p entries = [] then if p ∈ providers.getD [] then some {} else none
      else some (stateOf (entriesOf p entries) false) := by
  obtain ⟨view, hview, hreplay⟩ := replay_values entries [.stream .done]
    (collected_start providers)
  rw [List.nil_append] at hview
  refine ⟨⟨.ended, false, view.forRunning fun cur => { cur with isRunning := false }⟩, ?_,
    fun p => ?_⟩
  · rw [received, h, streamed, List.append_assoc, List.cons_append, List.cons_append,
      List.nil_append, System.replay_any_cons]
    have hstart : (system Value providers).step (start providers) (.stream .opened) =
        some ⟨.opened true, false, (start providers).view⟩ := rfl
    have hopen : (system Value providers).step ⟨.opened true, false, (start providers).view⟩
        (.stream .started) = some ⟨.reading, false, (start providers).view⟩ := rfl
    rw [hstart, Option.bind_some, System.replay_any_cons, hopen, Option.bind_some, hreplay]
    rfl
  · rw [forRunning_stop, hview.states]
    by_cases hnil : entriesOf p entries = []
    · have hnot : p ∉ view.runningProviders := fun hp => (hview.seen p).1 hp hnil
      rw [if_neg hnot, if_pos hnil, if_pos hnil]
    · rw [if_pos ((hview.seen p).2 hnil), if_neg hnil, if_neg hnil]
      rfl

/-! ## The answers of the directory -/

/-- A query that the hook makes: there is an address, and nothing in the lists is cut or
trimmed. -/
structure Asks (ips : List String) (providers : Option (List String)) : Prop where
  nonempty : ips ≠ []
  ips : ∀ ip ∈ ips, IsEntry ip
  providers : ∀ p ∈ providers.getD [], IsEntry p

/-- The pieces are those of the body with which the directory responds. -/
def Served (reg : IPInfoProviderRegistry F) (text : ErrorText) (order : RangeOrder)
    (float : FloatJSON F) (url : List Char) (chunks : List CodeUnits) : Prop :=
  ∃ response, serveHTTP reg text order (pathOf url) (Values.parse (queryOf url)) =
      .entries response ∧
    chunks.flatten = codeUnits (Utf8.decode (response.body float))

/-- The providers that are asked. -/
def asked (reg : IPInfoProviderRegistry F) (providers : Option (List String)) : List String :=
  if providers.getD [] = [] then reg.keys else providers.getD []

/-- The name in the entry of a query that is refused. -/
def refusal (reg : IPInfoProviderRegistry F) (ips : List String)
    (providers : Option (List String)) : Option String :=
  if (badAddress ips).isSome then some "query" else unknownProvider reg (providers.getD [])

variable {reg : IPInfoProviderRegistry F} {text : ErrorText} {order : RangeOrder}
  {float : FloatJSON F} {chunks : List CodeUnits}

/-- The consumer has the entries of the directory. -/
theorem exists_serveQuery (hpre : '?' ∉ apiPrefix) (hasks : Asks ips providers)
    (hserved : Served reg text order float (queryIPs apiPrefix ips providers) chunks) :
    ∃ query, parseQueryVals query queryKeyIP = ips ∧
      parseQueryVals query queryKeyProvider = providers.getD [] ∧
      (browserValues chunks).map asEntry =
        (serveQuery reg text order query).entries.map (shown float) := by
  obtain ⟨hpath, hvals⟩ := queryIPs_parts ips providers hpre
  obtain ⟨response, hresponse, hchunks⟩ := hserved
  generalize Values.parse (queryOf (queryIPs apiPrefix ips providers)) = query at hvals hresponse
  rw [hpath, serveHTTP_query] at hresponse
  obtain rfl := Reply.entries.inj hresponse
  refine ⟨query, parseQueryVals_of_entries ((hvals _).trans rfl) hasks.ips,
    parseQueryVals_of_entries ((hvals _).trans rfl) hasks.providers, ?_⟩
  have hbody : (serveQuery reg text order query).body float =
      ((serveQuery reg text order query).entries.map fun entry =>
        entry.toValue float).flatMap Value.line := by
    rw [Response.body, List.flatMap_map]
  rw [hbody] at hchunks
  rw [browserValues_lines ?_ hchunks, List.map_map]
  · exact List.map_congr_left fun entry _ => asEntry_toValue float entry
  · intro v hv
    obtain ⟨entry, -, rfl⟩ := List.mem_map.1 hv
    exact (fits_entry float entry).valid

theorem mem_getProvidersOrAll {query : Values} {p : String}
    (h : parseQueryVals query queryKeyProvider = providers.getD []) :
    p ∈ getProvidersOrAll reg order query ↔ p ∈ asked reg providers := by
  rw [getProvidersOrAll, asked, h]
  split_ifs
  · exact (order.names.perm _).mem_iff
  · exact Iff.rfl

variable (reg order) in
/-- The names of the registry are registered. -/
theorem unknownProvider_asked {query : Values}
    (h : parseQueryVals query queryKeyProvider = providers.getD []) :
    unknownProvider reg (getProvidersOrAll reg order query) =
      unknownProvider reg (providers.getD []) := by
  rw [getProvidersOrAll, h]
  split_ifs with hnil
  · have hnone : unknownProvider reg (getRegisteredAdapterNames reg order) = none := by
      refine List.find?_eq_none.2 fun name hname => ?_
      have hmem := (order.names.perm _).mem_iff.1 hname
      have hsome := AList.lookup_isSome.2 (AList.mem_keys.1 hmem)
      rw [Option.isNone_eq_false_iff.2 hsome]
      exact Bool.false_ne_true
    rw [hnone, hnil]
    rfl
  · rfl

theorem entriesOf_shown (p : String) (entries : List (QueryResultEntry F)) :
    entriesOf p (entries.map (shown float)) =
      (entries.filter fun entry => entry.from_ = p).map (shown float) := by
  rw [entriesOf, List.filter_map]
  rfl

/-- What a provider answers about the addresses, as the browser has it. -/
def answersOf (reg : IPInfoProviderRegistry F) (text : ErrorText) (order : RangeOrder)
    (float : FloatJSON F) (ips : List String) (p : String) : List (IPQueryResultEntry Value) :=
  (order.ips.keys ips.dedup).filterMap fun ip => (answer reg text p ip).map (shown float)

/-- The entries of a provider, if the query is in order. -/
theorem entriesOf_serveQuery {query : Values} (hasks : Asks ips providers)
    (hips : parseQueryVals query queryKeyIP = ips)
    (hproviders : parseQueryVals query queryKeyProvider = providers.getD [])
    (horder : refusal reg ips providers = none) (p : String) :
    entriesOf p ((serveQuery reg text order query).entries.map (shown float)) =
      if p ∈ asked reg providers then answersOf reg text order float ips p else [] := by
  rw [refusal] at horder
  split_ifs at horder with hbad
  have hgood : badAddress ips = none := by simpa using hbad
  have hknown := unknownProvider_asked reg order hproviders
  have hserve : (serveQuery reg text order query).entries =
      answers reg text order ips (getProvidersOrAll reg order query) := by
    rw [horder] at hknown
    simp only [serveQuery, hips, if_neg hasks.nonempty, hgood, hknown]
  rw [entriesOf_shown, hserve, filter_answers]
  simp only [mem_getProvidersOrAll hproviders]
  split_ifs
  · rw [List.map_filterMap, answersOf]
  · rfl

/-- A provider that is asked is registered, and has an answer about each address. -/
theorem answersOf_ne_nil (hasks : Asks ips providers) (horder : refusal reg ips providers = none)
    {p : String} (hp : p ∈ asked reg providers) : answersOf reg text order float ips p ≠ [] := by
  rw [refusal] at horder
  split_ifs at horder
  have hlookup : (reg.lookup p).isSome = true := by
    rw [asked] at hp
    split_ifs at hp with hnil
    · exact AList.lookup_isSome.2 (AList.mem_keys.1 hp)
    · have hall := List.find?_eq_none.1 horder p hp
      rwa [Bool.not_eq_true, Option.isNone_eq_false_iff] at hall
  obtain ⟨adapter, hadapter⟩ := Option.isSome_iff_exists.1 hlookup
  obtain ⟨ip, hip⟩ := List.exists_mem_of_ne_nil ips hasks.nonempty
  have hmem := (order.ips.perm ips.dedup).mem_iff.2 (List.mem_dedup.2 hip)
  have hanswer : (answer reg text p ip).map (shown float) =
      some (shown float (resultEntry text p ip (adapter ip))) := by
    rw [answer, hadapter]
    rfl
  exact List.ne_nil_of_mem (List.mem_filterMap.2 ⟨ip, hmem, hanswer⟩)

theorem mem_asked_of_mem {p : String} (hp : p ∈ providers.getD []) : p ∈ asked reg providers := by
  rw [asked, if_neg (List.ne_nil_of_mem hp)]
  exact hp

/-- A query that is in order: in the end the browser shows for each provider that was asked its
answers about all addresses, and nothing runs any more. -/
theorem ip_query_shown (hpre : '?' ∉ apiPrefix) (hasks : Asks ips providers)
    (hserved : Served reg text order float (queryIPs apiPrefix ips providers) chunks)
    (horder : refusal reg ips providers = none) :
    ∃ t, received providers chunks = some t ∧ ∀ p, t.view.providerMap p =
      if p ∈ asked reg providers then
        some (stateOf ((order.ips.keys ips.dedup).filterMap fun ip =>
          (answer reg text p ip).map (shown float)) false)
      else none := by
  obtain ⟨query, hips, hproviders, hentries⟩ := exists_serveQuery hpre hasks hserved
  obtain ⟨t, ht, hmap⟩ := received_eq providers hentries
  refine ⟨t, ht, fun p => ?_⟩
  rw [hmap, entriesOf_serveQuery hasks hips hproviders horder]
  by_cases hp : p ∈ asked reg providers
  · rw [if_pos hp, if_neg (answersOf_ne_nil hasks horder hp), if_pos hp, answersOf]
  · rw [if_neg hp, if_pos rfl, if_neg hp, if_neg (mt mem_asked_of_mem hp)]

/-! ### A registry with two providers -/

def sampleText : ErrorText where
  quote s := "\"" ++ s ++ "\""
  addr _ := "unable to parse IP"

def sampleOrder : RangeOrder where
  names := ⟨id, fun _ => .refl _⟩
  ips := ⟨List.reverse, fun _ => List.reverse_perm _⟩
  adapters _ := ⟨id, fun _ => .refl _⟩

def sampleFloat : FloatJSON Int := ⟨Value.int, fun n => fits_int n⟩

/-- One provider that knows nothing, and one that cannot be reached. -/
def sampleReg : IPInfoProviderRegistry Int :=
  AList.insert "dn42" (fun _ => .ok none) (AList.insert "ipinfo" (fun _ => .error "timeout") ∅)

def sampleIPs : List String := ["192.0.2.1", "192.0.2.2"]

theorem asks_sample {names : List String} (h : ∀ p ∈ names, IsEntry p) :
    Asks sampleIPs (some names) where
  nonempty := List.cons_ne_nil _ _
  ips := by
    simp only [sampleIPs, List.forall_mem_cons]
    exact ⟨Pinger.SimplePingRequest.isEntry_of_all (by decide) (by decide),
      Pinger.SimplePingRequest.isEntry_of_all (by decide) (by decide), by simp⟩
  providers := h

theorem isEntry_sample : ∀ p ∈ ["ipinfo", "nowhere"], IsEntry p := by
  simp only [List.forall_mem_cons]
  exact ⟨Pinger.SimplePingRequest.isEntry_of_all (by decide) (by decide),
    Pinger.SimplePingRequest.isEntry_of_all (by decide) (by decide), by simp⟩

/-- A body that comes in one piece. -/
theorem exists_served (providers : Option (List String)) : ∃ chunks,
    Served sampleReg sampleText sampleOrder sampleFloat
      (queryIPs "/api/ip-query".toList sampleIPs providers) chunks := by
  have hpre : '?' ∉ "/api/ip-query".toList := by decide
  obtain ⟨hpath, -⟩ := queryIPs_parts sampleIPs providers hpre
  refine ⟨[codeUnits (Utf8.decode (Response.body sampleFloat (serveQuery sampleReg sampleText
    sampleOrder (Values.parse (queryOf (queryIPs "/api/ip-query".toList sampleIPs providers))))))],
    _, ?_, List.flatten_singleton⟩
  rw [hpath, serveHTTP_query]

theorem ip_query_shown_sample : ∃ chunks t, received (some ["ipinfo"]) chunks = some t ∧
    t.view.providerMap "ipinfo" = some (stateOf
      [{ err := some "provider \"ipinfo\" query for 192.0.2.2 failed: timeout"
         from_ := "ipinfo", ip := "192.0.2.2" },
       { err := some "provider \"ipinfo\" query for 192.0.2.1 failed: timeout"
         from_ := "ipinfo", ip := "192.0.2.1" }] false) := by
  obtain ⟨chunks, hserved⟩ := exists_served (some ["ipinfo"])
  obtain ⟨t, ht, hmap⟩ := ip_query_shown (by decide)
    (asks_sample (List.forall_mem_singleton.2 (isEntry_sample _ List.mem_cons_self))) hserved
    (by decide)
  refine ⟨chunks, t, ht, ?_⟩
  rw [hmap, if_pos (by decide)]
  rfl

/-- In the end nothing runs any more exactly if the query was in order, or the entry that refused
it names all the providers that were requested. -/
theorem ip_query_stopped_iff (hpre : '?' ∉ apiPrefix) (hasks : Asks ips providers)
    (hserved : Served reg text order float (queryIPs apiPrefix ips providers) chunks) :
    ∃ t, received providers chunks = some t ∧
      ((∀ p st, t.view.providerMap p = some st → st.isRunning = false) ↔
        ∀ name, refusal reg ips providers = some name → ∀ p ∈ providers.getD [], p = name) := by
  cases hrefusal : refusal reg ips providers with
  | none =>
    obtain ⟨query, hips, hproviders, hentries⟩ := exists_serveQuery hpre hasks hserved
    obtain ⟨t, ht, hmap⟩ := received_eq providers hentries
    refine ⟨t, ht, iff_of_true (fun p st hst => ?_) nofun⟩
    rw [hmap, entriesOf_serveQuery hasks hips hproviders hrefusal] at hst
    by_cases hp : p ∈ asked reg providers
    · rw [if_pos hp, if_neg (answersOf_ne_nil hasks hrefusal hp)] at hst
      obtain rfl := Option.some.inj hst
      rfl
    · rw [if_neg hp, if_pos rfl, if_neg (mt mem_asked_of_mem hp)] at hst
      cases hst
  | some name =>
    obtain ⟨query, hips, hproviders, hentries⟩ := exists_serveQuery hpre hasks hserved
    obtain ⟨t, ht, hmap⟩ := received_eq providers hentries
    have hknown := unknownProvider_asked reg order hproviders
    -- One entry, which is from the name.
    obtain ⟨entry, hone, hfrom⟩ : ∃ entry : QueryResultEntry F,
        (serveQuery reg text order query).entries = [entry] ∧ entry.from_ = name := by
      rw [refusal] at hrefusal
      simp only [serveQuery, hips, if_neg hasks.nonempty, hknown]
      cases hbad : badAddress ips with
      | some ipStr =>
        rw [hbad, Option.isSome_some, if_pos rfl] at hrefusal
        exact ⟨_, rfl, Option.some.inj hrefusal⟩
      | none =>
        rw [hbad, Option.isSome_none, if_neg Bool.false_ne_true] at hrefusal
        rw [hrefusal]
        exact ⟨_, rfl, rfl⟩
    have hmine : ∀ p, entriesOf p ((serveQuery reg text order query).entries.map (shown float)) =
        if p = name then [shown float entry] else [] := by
      intro p
      rw [entriesOf_shown, hone]
      split_ifs with hp
      · rw [List.filter_cons_of_pos (by simpa [hfrom] using hp.symm)]
        rfl
      · rw [List.filter_cons_of_neg (by simpa [hfrom] using Ne.symm hp)]
        rfl
    refine ⟨t, ht, fun hstopped name' hname' p hp => ?_, fun hnames p st hst => ?_⟩
    · obtain rfl := Option.some.inj hname'
      by_contra hne
      have hlast := hstopped p {} (by rw [hmap, hmine, if_neg hne, if_pos rfl, if_pos hp])
      cases hlast
    · rw [hmap, hmine] at hst
      by_cases hp : p = name
      · rw [if_pos hp, if_neg (List.cons_ne_nil _ _)] at hst
        obtain rfl := Option.some.inj hst
        rfl
      · have hnot : p ∉ providers.getD [] := fun hin => hp (hnames name rfl p hin)
        rw [if_neg hp, if_pos rfl, if_neg hnot] at hst
        cases hst

/-- The provider that is registered runs forever. -/
theorem ip_query_stopped_sample : ∃ chunks t, received (some ["ipinfo", "nowhere"]) chunks = some t ∧
    ¬∀ p st, t.view.providerMap p = some st → st.isRunning = false := by
  obtain ⟨chunks, hserved⟩ := exists_served (some ["ipinfo", "nowhere"])
  obtain ⟨t, ht, hiff⟩ := ip_query_stopped_iff (by decide) (asks_sample isEntry_sample) hserved
  refine ⟨chunks, t, ht, fun hstopped => ?_⟩
  have hname := hiff.1 hstopped "nowhere" (by decide) "ipinfo" (by decide)
  exact absurd hname (by decide)

end IPQueryRun

end CloudPing.Web

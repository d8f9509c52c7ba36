import CloudPing.Conc.Store
import CloudPing.Inet.ParseAddr
import CloudPing.Json.Lines
import CloudPing.Json.Struct
import CloudPing.Pinger.RequestCodec
import CloudPing.Raw.Enrichment
import Mathlib.Data.List.Dedup

/-!
# The directory of IP information

`IPQueryDirectoryHandler` asks every provider of a query about every address of it, and writes
each answer in a line.  An address that is none and a provider that is not registered are refused,
before anyone is asked, with an entry that says so.

The addresses and the providers stand in maps, and `range` goes through a map in any order, which
may be another one each time (`RangeOrder`).  Whatever the order, each provider gives one entry for
each address (`filter_answers`).
-/

namespace CloudPing.Proxy

open Conc Json Utils
open Pinger (IsEntry)
open Raw (BasicIPInfo ExactLocation GetIPInfo)
open Wire (Values)

variable {F : Type}

/-! ## The registry -/

abbrev IPInfoProviderRegistry (F : Type) := Store String (GetIPInfo F)

/-- An order in which a map is gone through. -/
structure MapOrder where
  keys : List String → List String
  perm : ∀ l, (keys l).Perm l

/-- The orders of the three loops over maps: the names of the registry, the addresses, and for
each address the providers. -/
structure RangeOrder where
  names : MapOrder
  ips : MapOrder
  adapters : String → MapOrder

def getRegisteredAdapterNames (reg : IPInfoProviderRegistry F) (order : RangeOrder) :
    List String := order.names.keys reg.keys

/-! ## Queries -/

def queryKeyIP : String := "ip"

def queryKeyProvider : String := "provider"

structure QueryResultEntry (F : Type) where
  err : Option String := none
  from_ : String
  ip : String := ""
  result : Option (BasicIPInfo F) := none

structure Response (F : Type) where
  status : Nat
  entries : List (QueryResultEntry F)

/-- Texts that are made by the standard library. -/
structure ErrorText where
  /-- `%q`. -/
  quote : String → String
  /-- The error of `netip.ParseAddr`. -/
  addr : String → String

def parseQueryVals (query : Values) (key : String) : List String :=
  (query.all key).flatMap fun val => ((split val ',').map trimSpace).filter fun p => p ≠ ""

def getProvidersOrAll (reg : IPInfoProviderRegistry F) (order : RangeOrder) (query : Values) :
    List String :=
  let providers := parseQueryVals query queryKeyProvider
  if providers = [] then getRegisteredAdapterNames reg order else providers

/-- The entry for what a provider has returned. -/
def resultEntry (text : ErrorText) (name ip : String) :
    Except String (Option (BasicIPInfo F)) → QueryResultEntry F
  | .error err =>
    { err := some ("provider " ++ text.quote name ++ " query for " ++ ip ++ " failed: " ++ err)
      from_ := name, ip }
  | .ok info => { from_ := name, ip, result := info }

/-- What a provider of the registry says of an address. -/
def answer (reg : IPInfoProviderRegistry F) (text : ErrorText) (name ip : String) :
    Option (QueryResultEntry F) :=
  (reg.lookup name).map fun adapter => resultEntry text name ip (adapter ip)

/-- The first address of a query that is none. -/
def badAddress (ips : List String) : Option String :=
  ips.find? fun ipStr => (Inet.parseAddr ipStr.toList).isNone

/-- The first provider of a query that is not registered. -/
def unknownProvider (reg : IPInfoProviderRegistry F) (providers : List String) : Option String :=
  providers.find? fun name => (reg.lookup name).isNone

/-- The entries of the two loops over the maps. -/
def answers (reg : IPInfoProviderRegistry F) (text : ErrorText) (order : RangeOrder)
    (ips providers : List String) : List (QueryResultEntry F) :=
  (order.ips.keys ips.dedup).flatMap fun ip =>
    ((order.adapters ip).keys providers.dedup).filterMap fun name => answer reg text name ip

/-- `serveQuery`. -/
def serveQuery (reg : IPInfoProviderRegistry F) (text : ErrorText) (order : RangeOrder)
    (query : Values) : Response F :=
  let providers := getProvidersOrAll reg order query
  let ips := parseQueryVals query queryKeyIP
  if ips = [] then
    ⟨400, [{ err := some "missing or empty 'ip' query parameter", from_ := "query" }]⟩
  else
    match badAddress ips, unknownProvider reg providers with
    | some ipStr, _ =>
      ⟨400, [{
        err := some ("invalid ip address " ++ text.quote ipStr ++ ": " ++ text.addr ipStr)
        from_ := "query" }]⟩
    | none, some name =>
      ⟨400, [{ err := some ("provider " ++ text.quote name ++ " not found"), from_ := name }]⟩
    | none, none => ⟨200, answers reg text order ips providers⟩

/-- What the handler responds with. -/
inductive Reply (F : Type) where
  | providers (names : List String)
  | entries (response : Response F)
  /-- The error response of an unknown endpoint. -/
  | unknown

/-- `ServeHTTP`. -/
def serveHTTP (reg : IPInfoProviderRegistry F) (text : ErrorText) (order : RangeOrder)
    (urlPath : List Char) (query : Values) : Reply F :=
  let path := if urlPath.getLast? = some '/' then urlPath.dropLast else urlPath
  if "/providers".toList.isSuffixOf path then .providers (getRegisteredAdapterNames reg order)
  else if "/query".toList.isSuffixOf path then .entries (serveQuery reg text order query)
  else .unknown

/-! ## The lines of a response -/

/-- How `encoding/json` writes a number that is not an integer. -/
structure FloatJSON (F : Type) where
  toValue : F → Value
  fits : ∀ x, (toValue x).Fits 0

/-- A pointer, which is `null` if it is nil. -/
def orNull (v : Option Value) : Value := v.getD .null

variable (float : FloatJSON F)

def exactLocationValue (loc : ExactLocation F) : Value :=
  .obj [("Longitude", float.toValue loc.longitude), ("Latitude", float.toValue loc.latitude)]

def basicIPInfoValue (info : BasicIPInfo F) : Value :=
  .obj [("ASN", .str info.asn), ("Location", .str info.location), ("ISP", .str info.isp),
    ("Country", orNull (info.country.map .str)), ("Region", orNull (info.region.map .str)),
    ("City", orNull (info.city.map .str)),
    ("Exact", orNull (info.exactLocation.map (exactLocationValue float))),
    ("ISO3166Alpha2", orNull (info.iso3166Alpha2.map .str))]

namespace QueryResultEntry

def toValue (entry : QueryResultEntry F) : Value :=
  .obj (member "err" (entry.err.map .str) ++ [("from", .str entry.from_), ("ip", .str entry.ip)] ++
    member "result" (entry.result.map (basicIPInfoValue float)))

end QueryResultEntry

/-- The body that `Encode` has written, entry by entry. -/
def Response.body (response : Response F) : List UInt8 :=
  response.entries.flatMap fun entry => (entry.toValue float).line

theorem fits_orNull {v : Option Value} {d : Nat} (h : ∀ x ∈ v, x.Fits d) : (orNull v).Fits d := by
  cases v with
  | none => exact fits_null
  | some x => exact h x rfl

theorem fits_orNull_str (s : Option String) (d : Nat) : (orNull (s.map .str)).Fits d := by
  refine fits_orNull fun x hx => ?_
  obtain ⟨s', -, rfl⟩ := Option.mem_map.1 hx
  exact fits_str s'

theorem fits_basicIPInfo (info : BasicIPInfo F) : (basicIPInfoValue float info).Fits 2 := by
  have hexact : (orNull (info.exactLocation.map (exactLocationValue float))).Fits 1 := by
    refine fits_orNull fun x hx => ?_
    obtain ⟨loc, -, rfl⟩ := Option.mem_map.1 hx
    refine fits_obj ?_
    simp only [List.forall_mem_cons]
    exact ⟨float.fits _, float.fits _, by simp⟩
  refine fits_obj ?_
  simp only [List.forall_mem_cons, fits_str, true_and]
  exact ⟨fits_orNull_str _ _, fits_orNull_str _ _, fits_orNull_str _ _, hexact,
    fits_orNull_str _ _, by simp⟩

theorem fits_entry (entry : QueryResultEntry F) : (entry.toValue float).Fits 3 := by
  refine fits_obj ?_
  simp only [List.forall_mem_append, List.forall_mem_cons, forall_mem_member, fits_str, true_and]
  refine ⟨⟨?_, by simp⟩, ?_⟩
  · intro v hv
    obtain ⟨err, -, rfl⟩ := Option.mem_map.1 hv
    exact fits_str err
  · intro v hv
    obtain ⟨info, -, rfl⟩ := Option.mem_map.1 hv
    exact fits_basicIPInfo float info

/-! ## Values of a query -/

theorem serveHTTP_query (reg : IPInfoProviderRegistry F) (text : ErrorText) (order : RangeOrder)
    (front : List Char) (query : Values) :
    serveHTTP reg text order (front ++ "/query".toList) query =
      .entries (serveQuery reg text order query) := by
  have hlast : (front ++ "/query".toList).getLast? = some 'y' := by
    rw [List.getLast?_append]
    rfl
  have hproviders : "/providers".toList.isSuffixOf (front ++ "/query".toList) = false := by
    rw [Bool.eq_false_iff]
    intro h
    have hsuffix := List.isSuffixOf_iff_suffix.1 h
    obtain ⟨before, hbefore⟩ := hsuffix
    have hs := congrArg List.getLast? hbefore
    have hother : "/providers".toList.getLast? = some 's' := by decide
    rw [hlast, List.getLast?_append, hother] at hs
    cases hs
  have hquery : "/query".toList.isSuffixOf (front ++ "/query".toList) = true :=
    List.isSuffixOf_iff_suffix.2 (List.suffix_append _ _)
  simp only [serveHTTP, hlast, hproviders, hquery, if_true, Bool.false_eq_true, if_false,
    Option.some.injEq, Char.reduceEq]

/-- A list of entries that was written one by one is read. -/
theorem parseQueryVals_of_entries {query : Values} {key : String} {vals : List String}
    (h : query.all key = vals) (hvals : ∀ val ∈ vals, IsEntry val) :
    parseQueryVals query key = vals := by
  rw [parseQueryVals, h]
  have hsingle : ∀ val ∈ vals,
      ((split val ',').map trimSpace).filter (fun p => p ≠ "") = [val] := by
    intro val hval
    obtain ⟨hne, htrim, hcomma⟩ := hvals val hval
    have hsplit : split val ',' = [val] := by
      have := split_joinCommas (List.cons_ne_nil val []) (by simpa using hcomma)
      rwa [joinCommas, String.intercalate_singleton] at this
    rw [hsplit, List.map_singleton, htrim, List.filter_cons_of_pos (by simpa using hne)]
    rfl
  rw [List.flatMap_congr hsingle, ← List.map_eq_flatMap, List.map_id']

/-! ## The answers -/

variable {reg : IPInfoProviderRegistry F} {text : ErrorText} {order : RangeOrder}
  {ips providers : List String} {name ip : String} {query : Values}

theorem from_of_answer {entry : QueryResultEntry F} (h : answer reg text name ip = some entry) :
    entry.from_ = name := by
  obtain ⟨adapter, -, rfl⟩ := Option.map_eq_some_iff.1 h
  cases adapter ip <;> rfl

/-- The entry of a name in an order of names without a second one. -/
theorem filter_filterMap_answer {names : List String} (hnodup : names.Nodup) :
    (names.filterMap fun name => answer reg text name ip).filter (fun entry => entry.from_ = name) =
      if name ∈ names then (answer reg text name ip).toList else [] := by
  induction names with
  | nil => rfl
  | cons name' names ih =>
    obtain ⟨hnot, hnodup⟩ := List.nodup_cons.1 hnodup
    have ih := ih hnodup
    by_cases hname : name = name'
    · subst hname
      rw [if_neg hnot] at ih
      rw [if_pos List.mem_cons_self, List.filterMap_cons]
      cases ha : answer reg text name ip with
      | none => exact ih
      | some entry =>
        have hfrom := from_of_answer ha
        simp only [List.filter_cons_of_pos (p := fun entry : QueryResultEntry F =>
          decide (entry.from_ = name)) (by simpa using hfrom), ih, Option.toList_some]
    · have hmem : name ∈ name' :: names ↔ name ∈ names := List.mem_cons.trans (or_iff_right hname)
      rw [List.filterMap_cons]
      simp only [hmem]
      cases ha : answer reg text name' ip with
      | none => exact ih
      | some entry =>
        have hfrom := from_of_answer ha
        have hne : ¬ (decide (entry.from_ = name)) = true := by
          simpa [hfrom] using Ne.symm hname
        rw [← ih]
        exact List.filter_cons_of_neg hne

/-- Each provider that was asked gives one entry for each address, in the order in which the
addresses are gone through. -/
theorem filter_answers : (answers reg text order ips providers).filter
      (fun entry => entry.from_ = name) =
    if name ∈ providers then
      (order.ips.keys ips.dedup).filterMap fun ip => answer reg text name ip
    else [] := by
  rw [answers, List.filter_flatMap]
  have hone : ∀ ip, (((order.adapters ip).keys providers.dedup).filterMap fun name =>
      answer reg text name ip).filter (fun entry => entry.from_ = name) =
        if name ∈ providers then (answer reg text name ip).toList else [] := by
    intro ip
    have hperm := (order.adapters ip).perm providers.dedup
    rw [filter_filterMap_answer (hperm.nodup_iff.2 (List.nodup_dedup providers))]
    simp only [hperm.mem_iff, List.mem_dedup]
  simp only [hone]
  split_ifs
  · rw [List.filterMap_eq_flatMap_toList]
  · exact List.flatMap_eq_nil_iff.2 fun _ _ => rfl

end CloudPing.Proxy

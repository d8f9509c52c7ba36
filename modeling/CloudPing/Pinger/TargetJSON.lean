import CloudPing.Json.Struct
import CloudPing.Pinger.Request

/-!
# DNS and HTTP targets as JSON

The members of `LookupParameter` and `HTTPProbe` under the names of their tags.  A pointer
that is nil, and what has `omitempty` and is empty, is left out.  The fields of one struct
have different names up to case, so a key is for at most one of them.

A target is read back from its text.  The headers of an HTTP target are a map, and its
limits are machine integers (`HTTPTarget.Representable`).
-/

namespace CloudPing.Pinger

open Json

/-- The nesting that `encoding/json` allows. -/
def maxNestingDepth : Nat := 10000

/-! ## DNS targets -/

namespace LookupParameter

def members (p : LookupParameter) : List (String × Value) :=
  member "corrId" (omitEmpty p.correlationID) ++
    [("addrport", .str p.addrPort), ("target", .str p.target)] ++
    member "timeoutMs" (p.timeoutMs.map fun n => .int n.toInt) ++
    member "transport" (p.transport.map .str) ++
    [("queryType", .str p.queryType), ("dotServerName", .str p.doTServerName)]

/-- `json.Marshal`. -/
def marshal (p : LookupParameter) : String := String.ofList (Value.obj p.members).text

/-- A value in a new variable. -/
def ofValue : Value → Option LookupParameter
  | .null => some { addrPort := "", target := "", queryType := "" }
  | .obj ms => do
    let correlationID ← intoField intoString "corrId" "" ms
    let addrPort ← intoField intoString "addrport" "" ms
    let target ← intoField intoString "target" "" ms
    let timeoutMs ← intoField (intoPointer intoInt64 0) "timeoutMs" none ms
    let transport ← intoField (intoPointer intoString "") "transport" none ms
    let queryType ← intoField intoString "queryType" "" ms
    let doTServerName ← intoField intoString "dotServerName" "" ms
    some { correlationID, addrPort, target, timeoutMs, transport, queryType, doTServerName }
  | _ => none

/-- `json.Unmarshal` into a new variable. -/
def unmarshal (s : String) : Option LookupParameter :=
  (parse maxNestingDepth s.toList).bind ofValue

theorem ofValue_members (p : LookupParameter) : ofValue (.obj p.members) = some p := by
  have h₁ := intoField_omitEmpty "corrId" p.members p.correlationID
    (by simp +decide [members])
  have h₂ := intoField_string "addrport" p.members p.addrPort
    (by simp +decide [members])
  have h₃ := intoField_string "target" p.members p.target
    (by simp +decide [members])
  have h₄ := intoField_int64Pointer "timeoutMs" p.members p.timeoutMs
    (by simp +decide [members])
  have h₅ := intoField_stringPointer "transport" p.members p.transport
    (by simp +decide [members])
  have h₆ := intoField_string "queryType" p.members p.queryType
    (by simp +decide [members])
  have h₇ := intoField_string "dotServerName" p.members p.doTServerName
    (by simp +decide [members])
  simp only [ofValue, h₁, h₂, h₃, h₄, h₅, h₆, h₇]
  rfl

theorem fits_members (p : LookupParameter) : (Value.obj p.members).Fits 1 := by
  refine fits_obj ?_
  simp only [members, List.forall_mem_append, List.forall_mem_cons, forall_mem_member]
  simpa using fits_omitEmpty p.correlationID

/-- A DNS target is read from its text. -/
theorem unmarshal_marshal (p : LookupParameter) : unmarshal p.marshal = some p := by
  rw [unmarshal, marshal, String.toList_ofList,
    parse_text (p.fits_members.mono (by decide)), Option.bind_some, ofValue_members]

end LookupParameter

/-! ## HTTP targets -/

namespace HTTPTarget

def members (t : HTTPTarget) : List (String × Value) :=
  [("url", .str t.url)] ++
    member "extraHeaders" (ofMap t.extraHeaders) ++
    member "proto" (t.proto.map .str) ++
    member "sizeLimit" (t.sizeLimit.map .int) ++
    member "resolver" (t.resolver.map .str) ++
    member "inetFamilyPreference" (t.ipPref.map .str) ++
    member "numHeadersFieldsLimit" (t.numHeadersFieldsLimit.map .int) ++
    member "correlationId" (omitEmpty t.correlationID) ++
    [("AddCA", ofStrings t.addCA)]

/-- `json.Marshal`. -/
def marshal (t : HTTPTarget) : String := String.ofList (Value.obj t.members).text

/-- A value in a new variable. -/
def ofValue : Value → Option HTTPTarget
  | .null => some
    { proto := none, sizeLimit := none, ipPref := none, numHeadersFieldsLimit := none, url := "" }
  | .obj ms => do
    let url ← intoField intoString "url" "" ms
    let extraHeaders ← intoField intoMap "extraHeaders" [] ms
    let proto ← intoField (intoPointer intoString "") "proto" none ms
    let sizeLimit ← intoField (intoPointer intoInt64 0) "sizeLimit" none ms
    let resolver ← intoField (intoPointer intoString "") "resolver" none ms
    let ipPref ← intoField (intoPointer intoString "") "inetFamilyPreference" none ms
    let numHeadersFieldsLimit ← intoField (intoPointer intoInt64 0) "numHeadersFieldsLimit" none ms
    let correlationID ← intoField intoString "correlationId" "" ms
    let addCA ← intoField intoStrings "AddCA" ([], []) ms
    some
      { url, extraHeaders, proto, resolver, ipPref, correlationID
        sizeLimit := sizeLimit.map Int64.toInt
        numHeadersFieldsLimit := numHeadersFieldsLimit.map Int64.toInt
        addCA := addCA.1 }
  | _ => none

/-- `json.Unmarshal` into a new variable. -/
def unmarshal (s : String) : Option HTTPTarget :=
  (parse maxNestingDepth s.toList).bind ofValue

/-- The headers are a map and the limits machine integers. -/
structure Representable (t : HTTPTarget) : Prop where
  headers : Wire.Canonical t.extraHeaders
  sizeLimit : ∃ o : Option Int64, t.sizeLimit = o.map Int64.toInt
  numHeadersFieldsLimit : ∃ o : Option Int64, t.numHeadersFieldsLimit = o.map Int64.toInt

theorem ofValue_members {t : HTTPTarget} (ht : t.Representable) :
    ofValue (.obj t.members) = some t := by
  obtain ⟨lim, hlim⟩ := ht.sizeLimit
  obtain ⟨num, hnum⟩ := ht.numHeadersFieldsLimit
  have h₁ := intoField_string "url" t.members t.url
    (by simp +decide [members])
  have h₂ := intoField_map "extraHeaders" t.members ht.headers
    (by simp +decide [members])
  have h₃ := intoField_stringPointer "proto" t.members t.proto
    (by simp +decide [members])
  have h₄ := intoField_int64Pointer "sizeLimit" t.members lim
    (by simp +decide [members, hlim, Function.comp_def])
  have h₅ := intoField_stringPointer "resolver" t.members t.resolver
    (by simp +decide [members])
  have h₆ := intoField_stringPointer "inetFamilyPreference" t.members t.ipPref (by simp +decide [members])
  have h₇ := intoField_int64Pointer "numHeadersFieldsLimit" t.members num
    (by simp +decide [members, hnum, Function.comp_def])
  have h₈ := intoField_omitEmpty "correlationId" t.members t.correlationID
    (by simp +decide [members])
  have h₉ := intoField_strings "AddCA" t.members t.addCA (by simp +decide [members])
  simp only [ofValue, h₁, h₂, h₃, h₄, h₅, h₆, h₇, h₈, h₉]
  show some
    { t with sizeLimit := lim.map Int64.toInt, numHeadersFieldsLimit := num.map Int64.toInt } = some t
  rw [← hlim, ← hnum]

theorem fits_members (t : HTTPTarget) : (Value.obj t.members).Fits 3 := by
  refine fits_obj ?_
  simp only [members, List.forall_mem_append, List.forall_mem_cons, forall_mem_member]
  simpa using ⟨fits_ofMap t.extraHeaders, fits_omitEmpty t.correlationID⟩

/-- An HTTP target is read from its text. -/
theorem unmarshal_marshal {t : HTTPTarget} (ht : t.Representable) :
    unmarshal t.marshal = some t := by
  rw [unmarshal, marshal, String.toList_ofList,
    parse_text (t.fits_members.mono (by decide)), Option.bind_some, ofValue_members ht]

/-- What is read is a map and machine integers. -/
theorem representable_unmarshal {s : String} {t : HTTPTarget} (h : unmarshal s = some t) :
    t.Representable := by
  obtain ⟨v, _, h⟩ := Option.bind_eq_some_iff.1 h
  unfold ofValue at h
  split at h
  · obtain rfl := Option.some.inj h
    exact ⟨List.Pairwise.nil, ⟨none, rfl⟩, ⟨none, rfl⟩⟩
  · simp only [Option.bind_eq_bind, Option.bind_eq_some_iff] at h
    obtain ⟨url, _, headers, hh, proto, _, lim, _, resolver, _, ipPref, _, num, _, cid, _, ca, _,
      h⟩ := h
    obtain rfl := Option.some.inj h
    exact ⟨canonical_intoField hh, ⟨lim, rfl⟩, ⟨num, rfl⟩⟩
  · cases h

/-- A clamped target has a machine integer as its limit. -/
theorem representable_clampBody {t : HTTPTarget} (ht : t.Representable)
    (maximumBodyRead : Option Int64) : (t.clampBody maximumBodyRead).Representable := by
  refine ⟨ht.headers, ?_, ht.numHeadersFieldsLimit⟩
  obtain ⟨lim, hlim⟩ := ht.sizeLimit
  refine ⟨lim <|> maximumBodyRead, ?_⟩
  show (t.sizeLimit <|> maximumBodyRead.map Int64.toInt) = _
  rw [hlim]
  cases lim <;> rfl

end HTTPTarget

end CloudPing.Pinger

import CloudPing.Handler.EventLines
import CloudPing.Handler.MergeRun
import CloudPing.Json.Untyped

/-!
# Events with untyped data

The hub and the bot read the data of an event into a variable of type `any`, so what they write
again is the untyped value of what the agent wrote (`val_carried`).  The hub puts metadata into the
events, which the bot reads with it (`unmarshalEvent_of_metadata`).

When the merge of the hub is closed it has given on of each agent all events, with the metadata
(`delivered_of_closed`).
-/

namespace CloudPing.Handler

open CloudPing.Pinger Conc Json Wire

/-- The data of an event. -/
structure AnyData where
  val : Value
  /-- There is room for the event around it. -/
  fits : val.Fits (maxNestingDepth - 1)
  notNull : val.isNull = false

/-- What is read into an untyped variable.  A value that nests too deep is never read. -/
def AnyData.ofValue (float : FloatText) (v : Value) : AnyData :=
  if h : (v.untyped float).Fits (maxNestingDepth - 1) ∧ (v.untyped float).isNull = false then
    ⟨v.untyped float, h.1, h.2⟩
  else ⟨.str "", fits_str "", rfl⟩

def anyJSON (float : FloatText) : AnyJSON AnyData where
  toValue := AnyData.val
  ofValue := AnyData.ofValue float
  fits := AnyData.fits
  notNull d := ne_null_of_isNull d.notNull

variable {float : FloatText} {errText : List UInt8 → String}

theorem val_carried (d : AnyData) : ((anyJSON float).carried d).val = d.val.untyped float := by
  have h : (d.val.untyped float).Fits (maxNestingDepth - 1) ∧
      (d.val.untyped float).isNull = false :=
    ⟨fits_untyped float d.fits, (isNull_untyped float d.val).trans d.notNull⟩
  show (AnyData.ofValue float d.val).val = _
  rw [AnyData.ofValue, dif_pos h]

/-! ## Metadata -/

theorem sortedEntries_perm (m : Store String String) :
    (sortedEntries m).Perm (m.entries.map fun e => (e.1, e.2)) := List.mergeSort_perm _ _

theorem sortedEntries_ne_nil {m : Store String String} {k v : String} (h : m.lookup k = some v) :
    sortedEntries m ≠ [] := by
  have hmem : (⟨k, v⟩ : Sigma fun _ : String => String) ∈ m.entries := AList.mem_lookup_iff.1 h
  exact List.ne_nil_of_mem ((sortedEntries_perm m).mem_iff.2 (List.mem_map_of_mem hmem))

/-- A map of strings is read entry by entry. -/
theorem intoStringMap_strings (entries : List (String × String)) :
    intoStringMap none (.obj (entries.map fun e => (e.1, .str e.2))) =
      some (some (entries.foldl (fun m e => m.insert e.1 e.2) ∅)) := by
  have hfold : ∀ m : Store String String,
      (entries.map fun e => (e.1, Value.str e.2)).foldlM
        (fun m e => (intoString "" e.2).map fun v => m.insert e.1 v) m =
          some (entries.foldl (fun m e => m.insert e.1 e.2) m) := by
    induction entries with
    | nil => exact fun m => rfl
    | cons e entries ih => exact fun m => ih (m.insert e.1 e.2)
  rw [intoStringMap, Option.getD_none, hfold]
  rfl

/-- What is found in a map that was written and read. -/
theorem lookup_sortedEntries (m : Store String String) (k : String) :
    ((sortedEntries m).foldl (fun m e => m.insert e.1 e.2) (∅ : Store String String)).lookup k =
      m.lookup k := by
  let entries : List (Sigma fun _ : String => String) := (sortedEntries m).map fun e => ⟨e.1, e.2⟩
  have hperm : entries.Perm m.entries := by
    have hmap := (sortedEntries_perm m).map fun e => (⟨e.1, e.2⟩ : Sigma fun _ : String => String)
    rwa [List.map_map, show ((fun e : String × String => (⟨e.1, e.2⟩ : Sigma fun _ => String)) ∘
      fun e : Sigma fun _ : String => String => (e.1, e.2)) = id from rfl, List.map_id] at hmap
  have hnodup : entries.NodupKeys := (List.perm_nodupKeys hperm).2 m.nodupKeys
  have hfold := lookup_foldl_insert entries hnodup ∅ k
  rw [List.foldl_map, AList.lookup_empty, Option.or_none, List.perm_dlookup k hnodup hperm] at hfold
  exact hfold

/-- An event with metadata is read with metadata. -/
theorem unmarshalEvent_of_metadata {ev : PingEvent AnyData}
    (hmeta : sortedEntries (ev.metadata.getD ∅) ≠ []) : ∃ m,
      unmarshalEvent (anyJSON float) errText
          (Utf8.encode (Value.obj (ev.members (anyJSON float))).text) =
        .ok { data := ev.data.map (anyJSON float).carried, metadata := some m, err := ev.err } ∧
      ∀ k, m.lookup k = (ev.metadata.getD ∅).lookup k := by
  refine ⟨_, ?_, lookup_sortedEntries _⟩
  have hdata : intoField (intoAny (anyJSON float)) "data" none (ev.members (anyJSON float)) =
      some (ev.data.map (anyJSON float).carried) := by
    have hv : valuesOf "data" (ev.members (anyJSON float)) =
        (ev.data.map (anyJSON float).toValue).toList := by
      simp +decide [PingEvent.members]
    cases hd : ev.data with
    | none =>
      rw [hd] at hv
      exact intoField_of_none hv
    | some d =>
      rw [hd] at hv
      rw [intoField_of_single hv]
      have hne := (anyJSON float).notNull d
      unfold intoAny
      split
      · next heq => exact absurd heq hne
      · rfl
  have hmd : intoField intoStringMap "metadata" none (ev.members (anyJSON float)) =
      some (some ((sortedEntries (ev.metadata.getD ∅)).foldl (fun m e => m.insert e.1 e.2) ∅)) := by
    refine (intoField_of_single ?_).trans (intoStringMap_strings _)
    simp +decide [PingEvent.members, ofStringMap, hmeta]
  have herr := intoField_stringPointer "err" (ev.members (anyJSON float)) ev.err
    (by simp +decide [PingEvent.members])
  rw [unmarshalEvent, Utf8.decode_encode, parse_text (fits_members (anyJSON float) ev),
    Option.bind_some]
  simp only [PingEvent.ofValue, hdata, hmd, herr]
  rfl

/-! ## What the hub writes -/

/-- The lines of the body of the hub. -/
theorem PingTaskHandler.lines_streamEvents {D : Type} (any : AnyJSON D) (evs : List (PingEvent D)) :
    (allLines (streamEvents any evs)).map dropCR =
      evs.map fun ev => Utf8.encode (Value.obj ((outgoing ev).members any)).text := by
  have hline : streamEvents any evs =
      (evs.map fun ev => Value.obj ((outgoing ev).members any)).flatMap Value.line := by
    rw [streamEvents, List.flatMap_map]
    rfl
  rw [hline, allLines_lines, List.map_map]
  · rfl
  · intro v hv
    obtain ⟨ev, -, rfl⟩ := List.mem_map.1 hv
    exact (fits_members _ _).valid

/-- A closed merge has given on of each pinger all events, with the metadata. -/
theorem delivered_of_closed {D : Type} {n : Nat} {pingers : Fin n → WithMetadataPinger D}
    {t : MergeState D n} (ht : (startMultiplePings pingers).Reachable .any t)
    (hclosed : t.closed = true) (i : Fin n) :
    t.delivered i = (pingers i).events.map (pingers i).wrapped := by
  have hmerging := MergeState.merging_of_reachable ht
  have hreturned := hmerging.ended (.inr (hmerging.closed.1 hclosed)) i
  have hkept := hmerging.kept i
  rwa [(hmerging.lane i).pending_nil (.inr hreturned), List.append_nil] at hkept

/-- Of one pinger that is all. -/
theorem merged_of_one {D : Type} {pinger : WithMetadataPinger D} {t : MergeState D 1}
    (ht : (startMultiplePings fun _ => pinger).Reachable .any t) (hclosed : t.closed = true) :
    t.out.map Prod.snd = pinger.events.map pinger.wrapped := by
  rw [← delivered_of_closed ht hclosed 0, MergeState.delivered, List.filter_eq_self.2]
  exact fun x _ => decide_eq_true (Subsingleton.elim _ _)

end CloudPing.Handler

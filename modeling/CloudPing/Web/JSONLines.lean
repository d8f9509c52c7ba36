import CloudPing.Ecma.CodeUnits
import CloudPing.Json.Lines
import CloudPing.Web.LineTokenizer
import Mathlib.Data.List.Nodup

/-!
# Values in lines

The browser decodes the text of a body in pieces, cuts it into lines, and parses each line.  It
sees the values that were written in the lines, wherever the text was cut (`browserValues_lines`).
-/

namespace CloudPing.Web

open Ecma Json

/-- `JSONLineDecoder`.  A line that is no JSON is left out. -/
def jsonLineDecoder : Transformer Empty Unit TokenObject Value where
  start := ()
  transform _ chunk := ((parseAny (chars chunk.content)).toList, .ok ())
  flush _ := ([], .ok ())

/-- The values of a body, from the pieces of its text. -/
def browserValues (chunks : List CodeUnits) : List Value :=
  (jsonLineDecoder.run (lineTokenizer.run chunks).1).1

/-- A property of an object: of two members with one name the last one counts. -/
def prop (name : String) : Value → Option Value
  | .obj ms => (ms.reverse.find? fun m => m.1 = name).map Prod.snd
  | _ => none

theorem prop_of_mem {ms : List (String × Value)} {k : String} {v : Value}
    (hnodup : (ms.map Prod.fst).Nodup) (hmem : (k, v) ∈ ms) : prop k (.obj ms) = some v := by
  have hfind : ms.reverse.find? (fun m => m.1 = k) = some (k, v) := by
    cases hf : ms.reverse.find? fun m => m.1 = k with
    | none =>
      have := List.find?_eq_none.1 hf (k, v) (List.mem_reverse.2 hmem)
      exact absurd (decide_eq_true rfl) this
    | some m =>
      have hm := List.mem_reverse.1 (List.mem_of_find?_eq_some hf)
      have hk : m.1 = k := by simpa using List.find?_some hf
      have heq := List.inj_on_of_nodup_map hnodup hm hmem hk
      rw [heq]
  rw [prop, hfind, Option.map_some]

theorem prop_of_notMem {ms : List (String × Value)} {k : String} (h : k ∉ ms.map Prod.fst) :
    prop k (.obj ms) = none := by
  have hfind : ms.reverse.find? (fun m => m.1 = k) = none := by
    refine List.find?_eq_none.2 fun m hm hk => h ?_
    rw [← of_decide_eq_true hk]
    exact List.mem_map_of_mem (List.mem_reverse.1 hm)
  rw [prop, hfind, Option.map_none]

/-! ## Lines of values -/

section Lines

variable {v : Value}

theorem newline_notMem_units (hv : v.Valid) : newline ∉ codeUnits v.text := by
  intro hmem
  obtain ⟨c, hc, heq⟩ := mem_of_mem_codeUnits hmem (by decide)
  exact (ne_break_of_mem_text hv hc).1 (Char.toNat_inj.1 heq.symm)

theorem cleanLine_units (hv : v.Valid) : cleanLine (codeUnits v.text) = codeUnits v.text := by
  rw [cleanLine]
  split_ifs with hlast
  · obtain ⟨c, hc, heq⟩ := mem_of_mem_codeUnits (List.mem_of_getLast? hlast) (by decide)
    exact absurd (Char.toNat_inj.1 heq.symm) (ne_break_of_mem_text hv hc).2
  · rfl

/-- The text of the lines, as the browser has it. -/
theorem codeUnits_lines (vs : List Value) :
    codeUnits (Utf8.decode (vs.flatMap Value.line)) =
      (vs.map fun v => codeUnits v.text).flatMap (· ++ [newline]) := by
  have hbytes : vs.flatMap Value.line = Utf8.encode (vs.flatMap fun v => v.text ++ ['\n']) := by
    rw [Utf8.encode, List.flatMap_assoc]
    rfl
  have hbreak : codeUnits ['\n'] = [newline] := by decide
  rw [hbytes, Utf8.decode_encode, codeUnits, List.flatMap_assoc, List.flatMap_map]
  refine List.flatMap_congr fun v _ => ?_
  rw [← hbreak]
  exact codeUnits_append _ _

theorem feed_jsonLineDecoder {vs : List Value} (hvs : ∀ v ∈ vs, v.Valid) :
    jsonLineDecoder.feed () (vs.map fun v => TokenObject.mk (codeUnits v.text)) = (vs, .ok ()) := by
  induction vs with
  | nil => rfl
  | cons v vs ih =>
    have hparse : parseAny (chars (codeUnits v.text)) = some v := by
      rw [chars_codeUnits, parseAny_text (hvs v List.mem_cons_self)]
    have hrest := ih fun v hv => hvs v (List.mem_cons_of_mem _ hv)
    rw [List.map_cons, Transformer.feed]
    simp only [jsonLineDecoder, hparse, Option.toList_some] at hrest ⊢
    rw [hrest]
    rfl

/-- The browser sees each value. -/
theorem browserValues_lines {vs : List Value} (hvs : ∀ v ∈ vs, v.Valid) {chunks : List CodeUnits}
    (h : chunks.flatten = codeUnits (Utf8.decode (vs.flatMap Value.line))) :
    browserValues chunks = vs := by
  have hnot : ∀ line ∈ vs.map fun v => codeUnits v.text, newline ∉ line := by
    intro line hline
    obtain ⟨v, hv, rfl⟩ := List.mem_map.1 hline
    exact newline_notMem_units (hvs v hv)
  obtain ⟨hlines, hrest⟩ := Wire.splitOn_terminated hnot
  obtain ⟨buffer, hfeed, hbuffer, -⟩ := lineTokenizer_follows.feed_eq chunks
  have hnil : buffer = [] := by
    have hheld : buffer = Wire.unterminated newline chunks.flatten := hbuffer
    rw [hheld, h, codeUnits_lines, hrest]
  have htokens : (lineTokenizer.run chunks).1 =
      vs.map fun v => TokenObject.mk (codeUnits v.text) := by
    rw [List.map_id] at hfeed
    rw [Transformer.run, hfeed]
    have hitems : (Wire.Splitter.lines newline).items chunks.flatten =
        vs.map fun v => codeUnits v.text := by
      rw [h, codeUnits_lines]
      exact hlines
    simp only [hitems, hnil, lineTokenizer, ne_eq, not_true_eq_false, if_false, List.append_nil,
      List.map_map]
    exact List.map_congr_left fun v hv => congrArg TokenObject.mk (cleanLine_units (hvs v hv))
  have hdecode := feed_jsonLineDecoder hvs
  have hstart : jsonLineDecoder.start = () := rfl
  rw [browserValues, htokens, Transformer.run, hstart, hdecode]
  exact List.append_nil _

end Lines

end CloudPing.Web

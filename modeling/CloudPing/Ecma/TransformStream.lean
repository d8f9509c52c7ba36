import CloudPing.Wire.Splitter
import Mathlib.Data.List.Basic

/-!
# Transform streams

A `TransformStream` gives its transformer the chunks one after the other, each with the state that
the one before has left, and at the end lets it flush.  A failure ends the stream: nothing is
given to the transformer any more.

A transformer that keeps what a splitter leaves of the chunks, and enqueues the items that a chunk
completes, enqueues the items of the whole text (`Transformer.feed_eq`).  So it does not matter
where the chunks were cut.
-/

namespace Ecma

open Wire

/-- What is enqueued for a chunk, and the state behind it unless there was a failure. -/
structure Transformer (ε σ χ β : Type) where
  start : σ
  transform : σ → χ → List β × Except ε σ
  flush : σ → List β × Except ε Unit

namespace Transformer

variable {ε σ χ α β γ : Type} (t : Transformer ε σ χ γ)

/-- What is enqueued for chunks. -/
def feed : σ → List χ → List γ × Except ε σ
  | s, [] => ([], .ok s)
  | s, chunk :: chunks =>
    match t.transform s chunk with
    | (out, .error err) => (out, .error err)
    | (out, .ok s') => (out ++ (feed s' chunks).1, (feed s' chunks).2)

/-- What is enqueued over all, and whether the stream has been closed or has failed. -/
def run (chunks : List χ) : List γ × Except ε Unit :=
  match t.feed t.start chunks with
  | (out, .error err) => (out, .error err)
  | (out, .ok s) => (out ++ (t.flush s).1, (t.flush s).2)

/-- A transformer that holds, in states with an invariant, what a splitter leaves. -/
structure Follows (t : Transformer ε σ χ γ) (p : Splitter α β) (f : β → γ) (wrap : List α → χ)
    (held : σ → List α) (Good : σ → Prop) : Prop where
  good_start : Good t.start
  held_start : held t.start = []
  step : ∀ s content, Good s → ∃ s', t.transform s (wrap content) =
    ((p.items (held s ++ content)).map f, .ok s') ∧ held s' = p.rest (held s ++ content) ∧ Good s'

variable {t}

/-- The items of the text are enqueued, and the rest of it is held. -/
theorem Follows.feed_eq {p : Splitter α β} {f : β → γ} {wrap : List α → χ} {held : σ → List α}
    {Good : σ → Prop} (h : t.Follows p f wrap held Good) (chunks : List (List α)) :
    ∃ s, t.feed t.start (chunks.map wrap) = ((p.items chunks.flatten).map f, .ok s) ∧
      held s = p.rest chunks.flatten ∧ Good s := by
  -- Every state that is reached holds something that the splitter would leave as it is.
  have hall : ∀ s, Good s → p.items (held s) = [] → p.rest (held s) = held s →
      ∃ s', t.feed s (chunks.map wrap) = ((p.items (held s ++ chunks.flatten)).map f, .ok s') ∧
        held s' = p.rest (held s ++ chunks.flatten) ∧ Good s' := by
    induction chunks with
    | nil =>
      intro s hgood hitems hrest
      rw [List.flatten_nil, List.append_nil, hitems, hrest]
      exact ⟨s, rfl, rfl, hgood⟩
    | cons content chunks ih =>
      intro s hgood _ _
      obtain ⟨s', htransform, hheld, hgood'⟩ := h.step s content hgood
      obtain ⟨s'', hfeed, hheld', hgood''⟩ := ih s' hgood'
        (by rw [hheld, p.items_rest]) (by rw [hheld, p.rest_rest])
      rw [hheld] at hfeed hheld'
      rw [List.flatten_cons, ← List.append_assoc, p.items_append, p.rest_append (held s ++ content),
        List.map_append, List.map_cons, feed, htransform]
      exact ⟨s'', by simp only [hfeed], hheld', hgood''⟩
  have hstart := hall t.start h.good_start (by rw [h.held_start, p.items_nil])
    (by rw [h.held_start, p.rest_nil])
  rwa [h.held_start, List.nil_append] at hstart

end Transformer

end Ecma

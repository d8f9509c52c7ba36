import CloudPing.Conc.System
import CloudPing.Ecma.Record
import CloudPing.Web.StreamConsumer
import Mathlib.Data.List.Basic

/-!
# The IP query of the browser

`useIPQueryByProvider` starts with a state for each requested provider, which is running.  At the
end `processIPQueryStream` stops the providers that have sent an entry.  So a provider that was
requested and has sent none runs forever, and if the stream fails before the first entry all of
them do, without an error.

A failed read does not write its error either.  `Heard` is the exact condition under which the end
of the stream is what it should be.
-/

namespace CloudPing.Web

open Conc Ecma

/-! ## Entries and states -/

structure IPQueryResultEntry (R : Type) where
  err : Option String := none
  from_ : String
  ip : String
  result : Option R := none

structure ProviderIPQueryState (R : Type) where
  results : List (IPQueryResultEntry R) := []
  isRunning : Bool := true
  error : Option String := none

/-- What a stream works on: the map of the component, and the providers that it has seen. -/
structure IPQueryView (R : Type) where
  providerMap : Record (ProviderIPQueryState R)
  runningProviders : List String := []

variable {R : Type}

namespace IPQueryView

/-- The loops over `runningProviders`. -/
def forRunning (f : ProviderIPQueryState R → ProviderIPQueryState R) (view : IPQueryView R) :
    IPQueryView R :=
  { view with
    providerMap := view.runningProviders.foldl (fun next provider => next.modify provider f)
      view.providerMap }

/-- What an entry is added to. -/
def addEntry (view : IPQueryView R) (entry : IPQueryResultEntry R) : IPQueryView R :=
  let provider := entry.from_
  let cur := (view.providerMap provider).getD {}
  { runningProviders := view.runningProviders.insert provider
    providerMap := view.providerMap.set provider
      { results := cur.results ++ [entry]
        error := entry.err <|> cur.error
        isRunning := true } }

end IPQueryView

/-- `processIPQueryStream`. -/
def processIPQueryStream (R : Type) : Consumer (IPQueryView R) (IPQueryResultEntry R) where
  noReader := IPQueryView.forRunning fun cur => { cur with isRunning := false }
  done := IPQueryView.forRunning fun cur => { cur with isRunning := false }
  value entry view := view.addEntry entry
  readError _ := IPQueryView.forRunning fun cur => { cur with isRunning := false }
  rejected message :=
    IPQueryView.forRunning fun cur => { cur with error := some message, isRunning := false }

/-! ## Runs -/

structure IPQueryRun (R : Type) where
  phase : StreamPhase := .fetching
  aborted : Bool := false
  view : IPQueryView R

inductive IPQueryAction (R : Type) where
  | abort
  | stream (ev : StreamEvent (IPQueryResultEntry R))

namespace IPQueryRun

/-- The effect of the hook.  No providers, or none at all, leaves the map empty. -/
def start (providers : Option (List String)) : IPQueryRun R where
  view := { providerMap := Record.fromKeys (providers.getD []) {} }

def step (s : IPQueryRun R) : IPQueryAction R → Option (IPQueryRun R)
  | .abort => some { s with aborted := true }
  | .stream ev =>
    ((processIPQueryStream R).step (!s.aborted) s.phase ev s.view).map fun next =>
      { s with phase := next.1, view := next.2 }

def system (R : Type) (providers : Option (List String)) :
    System (IPQueryRun R) (IPQueryAction R) := ⟨start providers, step⟩

/-! ## The promise and the condition -/

/-- What the end of a stream should be: no provider is running any more, and a failure is the error
of every provider that was. -/
structure Completed (s : IPQueryRun R) (ev : StreamEvent (IPQueryResultEntry R))
    (t : IPQueryRun R) : Prop where
  stopped : ∀ p st, t.view.providerMap p = some st → st.isRunning = false
  recorded : ∀ message, ev.failure = some message →
    ∀ p st, s.view.providerMap p = some st → st.isRunning = true →
      ∃ st', t.view.providerMap p = some st' ∧ st'.error = some message

/-- Every requested provider has sent an entry.  If the stream fails, each provider that has sent
one has reported just that error last. -/
structure Heard (providers : Option (List String)) (s : IPQueryRun R)
    (ev : StreamEvent (IPQueryResultEntry R)) : Prop where
  seen : ∀ p ∈ providers.getD [], p ∈ s.view.runningProviders
  reported : ∀ message, ev.failure = some message → ∀ p ∈ s.view.runningProviders,
    ∃ st, s.view.providerMap p = some st ∧ st.error = some message

/-! ## While the stream runs -/

variable {providers : Option (List String)} {s t : IPQueryRun R} {a : IPQueryAction R}
  {ev : StreamEvent (IPQueryResultEntry R)}

/-- The map has the requested providers and those that were seen, and all of them run. -/
structure Running (providers : Option (List String)) (view : IPQueryView R) : Prop where
  keys : ∀ p, (view.providerMap p).isSome = true ↔
    p ∈ providers.getD [] ∨ p ∈ view.runningProviders
  isRunning : ∀ p st, view.providerMap p = some st → st.isRunning = true

theorem running_start : Running providers (start (R := R) providers).view where
  keys p := by
    simp only [start, Record.fromKeys_apply, List.not_mem_nil, or_false]
    split
    next h => exact iff_of_true rfl h
    next h => exact iff_of_false Bool.false_ne_true h
  isRunning p st h := by
    simp only [start, Record.fromKeys_apply] at h
    obtain ⟨_, h⟩ := Option.ite_none_right_eq_some.1 h
    cases h
    rfl

theorem Running.addEntry {view : IPQueryView R} (h : Running providers view)
    (entry : IPQueryResultEntry R) : Running providers (view.addEntry entry) where
  keys p := by
    simp only [IPQueryView.addEntry, List.mem_insert_iff]
    by_cases hp : p = entry.from_
    · rw [hp, Record.set_same]
      exact iff_of_true rfl (.inr (.inl rfl))
    · rw [Record.set_of_ne hp, h.keys, or_iff_right hp]
  isRunning p st hst := by
    simp only [IPQueryView.addEntry] at hst
    by_cases hp : p = entry.from_
    · rw [hp, Record.set_same] at hst
      cases hst
      rfl
    · rw [Record.set_of_ne hp] at hst
      exact h.isRunning p st hst

/-- Before the reader is there nothing has been seen. -/
structure Going (providers : Option (List String)) (s : IPQueryRun R) : Prop where
  running : Running providers s.view
  unseen : s.phase ≠ .reading → s.view.runningProviders = []

/-- It holds until the stream has ended or was aborted. -/
theorem going_of_reachable (h : (system R providers).Reachable .any s) :
    s.aborted = false → s.phase ≠ .ended → Going providers s := by
  refine h.invariant (I := fun s => s.aborted = false → s.phase ≠ .ended → Going providers s) ?_ ?_
  · exact fun _ _ => ⟨running_start, fun _ => rfl⟩
  · intro s a t ih _ hst halive hend
    cases a with
    | abort =>
      cases hst
      cases halive
    | stream ev =>
      obtain ⟨⟨phase, view⟩, hstep, rfl⟩ := Option.map_eq_some_iff.1 hst
      have halive : s.aborted = false := halive
      obtain ⟨hphase, houtcome⟩ := Consumer.step_outcome hstep
      obtain ⟨hrunning, hunseen⟩ := ih halive hphase
      rw [halive, Bool.not_false] at houtcome
      generalize hp : s.phase = p at houtcome hunseen
      generalize hv : s.view = v at houtcome hrunning hunseen
      cases houtcome with
      | opened => exact ⟨hrunning, fun _ => hunseen (by decide)⟩
      | started => exact ⟨hrunning, fun hne => absurd rfl hne⟩
      | value => exact ⟨hrunning.addEntry _, fun hne => absurd rfl hne⟩
      | _ => exact absurd rfl hend

/-! ## The end of the stream -/

theorem forRunning_stop (view : IPQueryView R) (p : String) :
    (view.forRunning fun cur => { cur with isRunning := false }).providerMap p =
      if p ∈ view.runningProviders then
        (view.providerMap p).map fun cur => { cur with isRunning := false }
      else view.providerMap p :=
  Record.foldl_modify (f := fun cur : ProviderIPQueryState R => { cur with isRunning := false })
    (fun _ => rfl) _ _ p

theorem forRunning_of_unseen {view : IPQueryView R} (h : view.runningProviders = [])
    (f : ProviderIPQueryState R → ProviderIPQueryState R) : view.forRunning f = view := by
  obtain ⟨providerMap, runningProviders⟩ := view
  subst h
  rfl

/-- The end stops the providers that were seen, and changes nothing else: when the promise is
rejected none has been seen. -/
theorem view_of_end (h : Going providers s) (hst : s.step (.stream ev) = some t)
    (hend : t.phase = .ended) (halive : s.aborted = false) (p : String) :
    t.view.providerMap p =
      if p ∈ s.view.runningProviders then
        (s.view.providerMap p).map fun cur => { cur with isRunning := false }
      else s.view.providerMap p := by
  obtain ⟨⟨phase, view⟩, hstep, rfl⟩ := Option.map_eq_some_iff.1 hst
  obtain ⟨hphase, houtcome⟩ := Consumer.step_outcome hstep
  have hunseen := h.unseen
  rw [halive, Bool.not_false] at houtcome
  generalize hp : s.phase = q at houtcome hunseen
  generalize hv : s.view = v at houtcome hunseen ⊢
  cases houtcome with
  | noReader | done | readError => exact forRunning_stop v p
  | rejected =>
    have hnone := hunseen nofun
    rw [hnone, if_neg List.not_mem_nil]
    exact congrArg (fun view => view.providerMap p) (forRunning_of_unseen hnone _)
  | abortError => rw [hunseen nofun, if_neg List.not_mem_nil]
  | _ => cases hend

/-- The end of a stream that has not been aborted is what it should be exactly if every requested
provider was heard. -/
theorem completed_iff (hr : (system R providers).Reachable .any s)
    (hst : s.step (.stream ev) = some t) (hend : t.phase = .ended) (halive : t.aborted = false) :
    Completed s ev t ↔ Heard providers s ev := by
  obtain ⟨next, hstep, ht⟩ := Option.map_eq_some_iff.1 hst
  have halive : s.aborted = false := by
    rw [← ht] at halive
    exact halive
  have hgoing := going_of_reachable hr halive (Consumer.step_outcome hstep).1
  have hview := view_of_end hgoing hst hend halive
  obtain ⟨hkeys, hrunning⟩ := hgoing.running
  constructor
  · rintro ⟨hstopped, hrecorded⟩
    have hseen : ∀ p, (s.view.providerMap p).isSome = true → p ∈ s.view.runningProviders := by
      intro p hp
      obtain ⟨st, hst⟩ := Option.isSome_iff_exists.1 hp
      by_contra hnot
      have hlast := hstopped p st (by rw [hview, if_neg hnot, hst])
      rw [hrunning p st hst] at hlast
      cases hlast
    refine ⟨fun p hp => hseen p ((hkeys p).2 (.inl hp)), fun message hfail p hp => ?_⟩
    obtain ⟨st, hst⟩ := Option.isSome_iff_exists.1 ((hkeys p).2 (.inr hp))
    obtain ⟨st', hst', herr⟩ := hrecorded message hfail p st hst (hrunning p st hst)
    rw [hview, if_pos hp, hst] at hst'
    cases hst'
    exact ⟨st, hst, herr⟩
  · rintro ⟨hseen, hreported⟩
    have hall : ∀ p st, s.view.providerMap p = some st → p ∈ s.view.runningProviders := by
      intro p st hst
      exact ((hkeys p).1 (Option.isSome_of_mem hst)).elim (hseen p) id
    refine ⟨fun p st hst => ?_, fun message hfail p st hst _ => ?_⟩
    · rw [hview] at hst
      split at hst
      next =>
        obtain ⟨cur, _, rfl⟩ := Option.map_eq_some_iff.1 hst
        rfl
      next hnot => exact absurd (hall p st hst) hnot
    · have hp := hall p st hst
      obtain ⟨st', hst', herr⟩ := hreported message hfail p hp
      rw [hst] at hst'
      cases hst'
      exact ⟨{ st with isRunning := false }, by rw [hview, if_pos hp, hst]; rfl, herr⟩

/-- The one requested provider has sent its entry. -/
def answered : IPQueryRun String where
  phase := .reading
  view := (start (some ["ipinfo"])).view.addEntry { from_ := "ipinfo", ip := "192.0.2.1" }

theorem completed_answered :
    Completed answered .done
      { answered with
        phase := .ended
        view := answered.view.forRunning fun cur => { cur with isRunning := false } } := by
  have hr : (system String (some ["ipinfo"])).Reachable .any answered :=
    System.reach_of_replay
      [.stream .opened, .stream .started,
        .stream (.value { from_ := "ipinfo", ip := "192.0.2.1" })] rfl
  exact (completed_iff hr rfl rfl rfl).2 ⟨by decide, nofun⟩

/-- The service cannot be reached: the requested provider goes on running, without an error. -/
theorem unheard_runs_forever :
    ¬∀ (providers : Option (List String)) (s t : IPQueryRun String)
      (ev : StreamEvent (IPQueryResultEntry String)),
      (system String providers).Reachable .any s → s.step (.stream ev) = some t →
        t.phase = .ended → t.aborted = false → Completed s ev t := by
  intro h
  have hcompleted := h (some ["ipinfo"]) (start (some ["ipinfo"]))
    { start (some ["ipinfo"]) with phase := .ended } (.rejected "TypeError" "Failed to fetch")
    .refl rfl rfl rfl
  cases hcompleted.stopped "ipinfo" {} rfl

end IPQueryRun

end CloudPing.Web

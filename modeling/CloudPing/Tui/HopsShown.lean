import CloudPing.Tui.TraceInvariants
import Mathlib.Data.Set.Insert

/-!
# Which hops are shown

Of a builder only the set of its hops counts here (`Shown`): an event adds its hop, and one of
the last hop then takes away those behind it.  Hops are deleted when such an event comes, and a
hop that comes later stays.  So the set is the same in any order exactly if no event is of a hop
behind a last one, and then nothing is ever deleted (`orderIndependent_iff`).

Both builders are such a set (`bot_shown`, `web_shown`).
-/

namespace CloudPing.Tui

open Ecma Sorting Web

variable {F : Type}

/-! ## The set of hops -/

section Abstract

variable {ε α : Type} [LinearOrder α] {ttl : ε → α} {last : ε → Bool} {evs : List ε}

/-- The hops with one more event. -/
def Show (ttl : ε → α) (last : ε → Bool) (shown : Set α) (ev : ε) : Set α :=
  {t | (t ∈ shown ∨ t = ttl ev) ∧ (last ev = true → t ≤ ttl ev)}

def Shown (ttl : ε → α) (last : ε → Bool) (evs : List ε) : Set α := evs.foldl (Show ttl last) ∅

/-- No event is of a hop behind a last one. -/
def NoneBehind (ttl : ε → α) (last : ε → Bool) (evs : List ε) : Prop :=
  ∀ ev ∈ evs, ∀ lastEv ∈ evs, last lastEv = true → ttl ev ≤ ttl lastEv

/-- The hops are the same in any order, and none is behind a last one. -/
def OrderIndependent (ttl : ε → α) (last : ε → Bool) (hops : List ε → Set α) (evs : List ε) :
    Prop :=
  (∀ evs₁ evs₂, evs₁.Perm evs → evs₂.Perm evs → hops evs₁ = hops evs₂) ∧
    ∀ evs', evs'.Perm evs → ∀ t ∈ hops evs', ∀ ev ∈ evs, last ev = true → t ≤ ttl ev

theorem shown_concat (evs : List ε) (ev : ε) :
    Shown ttl last (evs ++ [ev]) = Show ttl last (Shown ttl last evs) ev := by
  rw [Shown, List.foldl_append]
  rfl

theorem NoneBehind.perm {evs' : List ε} (h : NoneBehind ttl last evs) (hp : evs'.Perm evs) :
    NoneBehind ttl last evs' :=
  fun ev hev lastEv hlast => h ev (hp.mem_iff.1 hev) lastEv (hp.mem_iff.1 hlast)

/-- Then the hops are those of the events. -/
theorem NoneBehind.mem_shown (h : NoneBehind ttl last evs) (t : α) :
    t ∈ Shown ttl last evs ↔ ∃ ev ∈ evs, ttl ev = t := by
  induction evs using List.reverseRecOn with
  | nil => exact iff_of_false (Set.notMem_empty t) fun ⟨ev, hev, _⟩ => List.not_mem_nil hev
  | append_singleton evs ev ih =>
    have hinit : NoneBehind ttl last evs := fun e he l hl =>
      h e (List.mem_append_left _ he) l (List.mem_append_left _ hl)
    have hlast : ev ∈ evs ++ [ev] := List.mem_append_right _ (List.mem_singleton_self _)
    rw [shown_concat]
    constructor
    · rintro ⟨hin | rfl, -⟩
      · obtain ⟨e, he, het⟩ := (ih hinit).1 hin
        exact ⟨e, List.mem_append_left _ he, het⟩
      · exact ⟨ev, hlast, rfl⟩
    · rintro ⟨e, he, rfl⟩
      refine ⟨?_, h e he ev hlast⟩
      rcases List.mem_append.1 he with he | he
      · exact Or.inl ((ih hinit).2 ⟨e, he, rfl⟩)
      · exact Or.inr (congrArg ttl (List.mem_singleton.1 he))

/-- Every event may be the last to come, and its hop is then shown. -/
theorem exists_perm_mem_shown {ev : ε} (hev : ev ∈ evs) :
    ∃ evs', evs'.Perm evs ∧ ttl ev ∈ Shown ttl last evs' := by
  obtain ⟨front, back, rfl⟩ := List.append_of_mem hev
  refine ⟨front ++ back ++ [ev], ?_, ?_⟩
  · rw [List.append_assoc]
    exact List.Perm.append_left front (List.perm_append_singleton ev back)
  · rw [shown_concat]
    exact ⟨Or.inr rfl, fun _ => le_refl _⟩

theorem orderIndependent_iff (evs : List ε) :
    OrderIndependent ttl last (Shown ttl last) evs ↔ NoneBehind ttl last evs := by
  constructor
  · rintro ⟨-, hbehind⟩ ev hev lastEv hmem hlast
    obtain ⟨evs', hperm, hin⟩ : ∃ evs', evs'.Perm evs ∧ ttl ev ∈ Shown ttl last evs' :=
      exists_perm_mem_shown hev
    exact hbehind evs' hperm _ hin lastEv hmem hlast
  · intro h
    refine ⟨fun evs₁ evs₂ h₁ h₂ => Set.ext fun t => ?_, fun evs' hp t ht ev hev hlast => ?_⟩
    · rw [(h.perm h₁).mem_shown, (h.perm h₂).mem_shown]
      exact exists_congr fun ev => and_congr_left fun _ => (h₁.trans h₂.symm).mem_iff
    · obtain ⟨e, he, rfl⟩ := ((h.perm hp).mem_shown t).1 ht
      exact h e (hp.mem_iff.1 he) ev hev hlast

end Abstract

/-! ## The builders -/

/-- The hops in the table of the bot. -/
def TraceStats.shown (stats : TraceStats F) : Set Int :=
  {ttl | ttl ∈ stats.hopOrder ∧ (stats.hops.lookup ttl).isSome = true}

/-- The hops in the table of the browser. -/
def traceShown (stats : Web.TraceStats F) : Set Int :=
  {ttl | ttl ∈ stats.hopOrder ∧ (stats.hops.get ttl).isSome = true}

theorem bot_shown (S : Sorter) (evs : List (PingEvent F)) :
    (evs.foldl (TraceStats.writeEvent S) {}).shown =
      Shown PingEvent.hopTTL PingEvent.lastHop evs := by
  have hshown : ∀ stats : TraceStats F, Listed stats →
      ∀ ttl, ttl ∈ stats.shown ↔ ttl ∈ stats.hopOrder :=
    fun stats hstats ttl => and_iff_left_of_imp (hstats.mem_order ttl).1
  induction evs using List.reverseRecOn with
  | nil => exact Set.ext fun ttl => iff_of_false (fun hin => List.not_mem_nil hin.1) id
  | append_singleton evs ev ih =>
    rw [List.foldl_append, shown_concat, ← ih]
    refine Set.ext fun ttl => ?_
    have hold := listed S evs
    rw [List.foldl_cons, List.foldl_nil, hshown _ hold.write, hold.mem_write]
    exact and_congr_left fun _ => or_congr_left (hshown _ hold ttl).symm

/-- The order of the browser is that of the hops there are. -/
def TraceListed (stats : Web.TraceStats F) : Prop :=
  ∀ ttl, ttl ∈ stats.hopOrder ↔ (stats.hops.get ttl).isSome = true

section Web

variable {T : Sorter} {ev : TraceEvent F} {stats : Web.TraceStats F}

theorem TraceListed.mem_added (h : TraceListed stats) (ttl : Int) :
    ttl ∈ (traceAdded T stats ev).hopOrder ↔
      ttl ∈ stats.hopOrder ∨ ttl = Web.TraceStats.hopTTL ev := by
  rw [traceAdded]
  dsimp only
  split
  next hold => exact (or_iff_left_of_imp fun heq => heq ▸ (h _).2 hold).symm
  next => rw [Sorter.sortBy, Sorter.mem_sort, List.mem_append, List.mem_singleton]

theorem TraceListed.added (h : TraceListed stats) : TraceListed (traceAdded T stats ev) := by
  intro ttl
  rw [h.mem_added, h ttl, traceAdded, OrderedMap.get_set]
  split
  next heq => exact iff_of_true (Or.inr heq) rfl
  next hne => exact or_iff_left hne

theorem mem_hopOrder_tracePrune (stats : Web.TraceStats F) (hopTTL ttl : Int) :
    ttl ∈ (tracePrune stats hopTTL).hopOrder ↔ ttl ∈ stats.hopOrder ∧ ttl ≤ hopTTL := by
  rw [tracePrune, List.mem_filter, decide_eq_true_iff]

theorem TraceListed.prune (h : TraceListed stats) (hopTTL : Int) :
    TraceListed (tracePrune stats hopTTL) := by
  intro ttl
  rw [mem_hopOrder_tracePrune, h ttl, tracePrune, OrderedMap.get_filter]
  simp only [decide_eq_true_eq]
  split
  next hle => exact and_iff_left hle
  next hlt => exact iff_of_false (fun hboth => hlt hboth.2) Bool.false_ne_true

theorem TraceListed.write (h : TraceListed stats) : TraceListed (stats.writeEvent T ev) := by
  rw [traceWriteEvent_eq]
  split
  · exact h.added.prune _
  · exact h.added

theorem TraceListed.mem_write (h : TraceListed stats) (ttl : Int) :
    ttl ∈ (stats.writeEvent T ev).hopOrder ↔
      (ttl ∈ stats.hopOrder ∨ ttl = Web.TraceStats.hopTTL ev) ∧
        (ev.lastHop = true → ttl ≤ Web.TraceStats.hopTTL ev) := by
  rw [traceWriteEvent_eq]
  split
  next hlast => rw [mem_hopOrder_tracePrune, h.mem_added, imp_iff_right hlast]
  next hlast => rw [h.mem_added, and_iff_left fun htrue => absurd htrue hlast]

end Web

theorem traceListed (T : Sorter) (traceEVs : List (TraceEvent F)) :
    TraceListed (traceEVs.foldl (Web.TraceStats.writeEvent T) {}) := by
  induction traceEVs using List.reverseRecOn with
  | nil => exact fun ttl => iff_of_false List.not_mem_nil Bool.false_ne_true
  | append_singleton traceEVs ev ih =>
    rw [List.foldl_append]
    exact ih.write

theorem web_shown (T : Sorter) (traceEVs : List (TraceEvent F)) :
    traceShown (traceEVs.foldl (Web.TraceStats.writeEvent T) {}) =
      Shown Web.TraceStats.hopTTL TraceEvent.lastHop traceEVs := by
  have hshown : ∀ stats : Web.TraceStats F, TraceListed stats →
      ∀ ttl, ttl ∈ traceShown stats ↔ ttl ∈ stats.hopOrder :=
    fun stats hstats ttl => and_iff_left_of_imp (hstats ttl).1
  induction traceEVs using List.reverseRecOn with
  | nil => exact Set.ext fun ttl => iff_of_false (fun hin => List.not_mem_nil hin.1) id
  | append_singleton traceEVs ev ih =>
    rw [List.foldl_append, shown_concat, ← ih]
    refine Set.ext fun ttl => ?_
    have hold := traceListed T traceEVs
    rw [List.foldl_cons, List.foldl_nil, hshown _ hold.write, hold.mem_write]
    exact and_congr_left fun _ => or_congr_left (hshown _ hold ttl).symm

/-- Either table is that of any order exactly if no event is of a hop behind a last one. -/
theorem hops_orderIndependent_iff (S T : Sorter) (evs : List (PingEvent F))
    (traceEVs : List (TraceEvent F)) :
    (OrderIndependent PingEvent.hopTTL PingEvent.lastHop
        (fun evs' => (evs'.foldl (TraceStats.writeEvent S) {}).shown) evs ↔
      NoneBehind PingEvent.hopTTL PingEvent.lastHop evs) ∧
    (OrderIndependent Web.TraceStats.hopTTL TraceEvent.lastHop
        (fun evs' => traceShown (evs'.foldl (Web.TraceStats.writeEvent T) {})) traceEVs ↔
      NoneBehind Web.TraceStats.hopTTL TraceEvent.lastHop traceEVs) := by
  simp only [bot_shown, web_shown]
  exact ⟨orderIndependent_iff evs, orderIndependent_iff traceEVs⟩

/-- A hop behind the last one, which comes after it. -/
def lateHop : List (PingEvent Unit) :=
  [{ originTTL := 2, lastHop := true }, { originTTL := 3, timeout := true }]

def traceLateHop : List (TraceEvent Unit) :=
  [{ originTTL := 2, lastHop := true }, { originTTL := 3, timeout := true }]

/-- It is shown, and in the other order it is not. -/
theorem late_hop_shown :
    3 ∈ (lateHop.foldl (TraceStats.writeEvent merge) {}).shown ∧
    3 ∉ (lateHop.reverse.foldl (TraceStats.writeEvent merge) {}).shown ∧
    3 ∈ traceShown (traceLateHop.foldl (Web.TraceStats.writeEvent merge) {}) ∧
    3 ∉ traceShown (traceLateHop.reverse.foldl (Web.TraceStats.writeEvent merge) {}) ∧
    ¬OrderIndependent PingEvent.hopTTL PingEvent.lastHop
      (fun evs' => (evs'.foldl (TraceStats.writeEvent merge) {}).shown) lateHop ∧
    ¬OrderIndependent Web.TraceStats.hopTTL TraceEvent.lastHop
      (fun evs' => traceShown (evs'.foldl (Web.TraceStats.writeEvent merge) {})) traceLateHop := by
  have hlast : 3 ∈ Shown PingEvent.hopTTL PingEvent.lastHop lateHop :=
    ⟨Or.inr rfl, fun h => by cases h⟩
  have hfirst : 3 ∉ Shown PingEvent.hopTTL PingEvent.lastHop lateHop.reverse :=
    fun h => absurd (h.2 rfl) (by decide)
  have htraceLast : 3 ∈ Shown Web.TraceStats.hopTTL TraceEvent.lastHop traceLateHop :=
    ⟨Or.inr rfl, fun h => by cases h⟩
  have htraceFirst : 3 ∉ Shown Web.TraceStats.hopTTL TraceEvent.lastHop traceLateHop.reverse :=
    fun h => absurd (h.2 rfl) (by decide)
  simp only [bot_shown, web_shown]
  refine ⟨hlast, hfirst, htraceLast, htraceFirst, fun h => ?_, fun h => ?_⟩
  · exact hfirst ((h.1 _ _ (List.Perm.refl _) (List.reverse_perm _)).subset hlast)
  · exact htraceFirst ((h.1 _ _ (List.Perm.refl _) (List.reverse_perm _)).subset htraceLast)

end CloudPing.Tui

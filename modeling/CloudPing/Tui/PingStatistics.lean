import CloudPing.Tui.PingEvent
import CloudPing.Word.Wrap
import Mathlib.Algebra.Ring.Int.Defs
import Mathlib.Data.List.Induction

/-!
# The statistics of a ping

`PingStatisticsBuilder` counts the events that are timeouts and those that are not.  An error is
an event that is no timeout, with a round trip time of zero: it is counted as a reply, and its
zero goes into the minimum.  So the statistics are right exactly if there is no error
(`statistics_iff`).

Integer division truncates, which is the floor for a sum that is not negative, and a sum that does
not fit wraps around.
-/

namespace CloudPing.Tui

variable {F : Type}

structure PingStatistics where
  receivedPktCount : Int
  lossPktCount : Int
  minRTT : Int
  maxRTT : Int
  avgRTT : Int

structure PingStatisticsBuilder (F : Type) where
  pingEvs : List (PingEvent F) := []
  receivedPktCount : Int := 0
  lossPktCount : Int := 0
  minRTT : Int := 0
  maxRTT : Int := 0
  totalRTT : Int := 0

namespace PingStatisticsBuilder

/-- With an event that is no timeout. -/
def receive (statsBuilder : PingStatisticsBuilder F) (ev : PingEvent F) :
    PingStatisticsBuilder F :=
  let receivedPktCount := statsBuilder.receivedPktCount + 1
  { statsBuilder with
    receivedPktCount
    minRTT :=
      if receivedPktCount = 1 then ev.rttMs
      else if ev.rttMs < statsBuilder.minRTT then ev.rttMs
      else statsBuilder.minRTT
    maxRTT :=
      if receivedPktCount = 1 then ev.rttMs
      else if ev.rttMs > statsBuilder.maxRTT then ev.rttMs
      else statsBuilder.maxRTT
    totalRTT := Word.add statsBuilder.totalRTT ev.rttMs }

def writeEvent (statsBuilder : PingStatisticsBuilder F) (ev : PingEvent F) :
    PingStatisticsBuilder F :=
  let statsBuilder := { statsBuilder with pingEvs := statsBuilder.pingEvs ++ [ev] }
  if ev.timeout then { statsBuilder with lossPktCount := statsBuilder.lossPktCount + 1 }
  else statsBuilder.receive ev

def getPingStatistics (statsBuilder : PingStatisticsBuilder F) : Option PingStatistics :=
  if statsBuilder.pingEvs.length = 0 then none
  else
    some
      { receivedPktCount := statsBuilder.receivedPktCount
        lossPktCount := statsBuilder.lossPktCount
        minRTT := statsBuilder.minRTT
        maxRTT := statsBuilder.maxRTT
        avgRTT :=
          if statsBuilder.receivedPktCount > 0 then
            statsBuilder.totalRTT.tdiv statsBuilder.receivedPktCount
          else 0 }

def writeEvents (evs : List (PingEvent F)) : PingStatisticsBuilder F := evs.foldl writeEvent {}

end PingStatisticsBuilder

/-! ## What is counted -/

/-- The round trip times of the events that are no timeouts. -/
def rtts (evs : List (PingEvent F)) : List Int :=
  (evs.filter fun ev => !ev.timeout).map PingEvent.rttMs

theorem rtts_cons (ev : PingEvent F) (evs : List (PingEvent F)) :
    rtts (ev :: evs) = (if ev.timeout then [] else [ev.rttMs]) ++ rtts evs := by
  cases ht : ev.timeout <;> simp [rtts, ht]

theorem rtts_concat (evs : List (PingEvent F)) (ev : PingEvent F) :
    rtts (evs ++ [ev]) = rtts evs ++ if ev.timeout then [] else [ev.rttMs] := by
  rw [rtts, List.filter_append, List.map_append]
  cases ht : ev.timeout <;> simp [rtts, ht]

theorem rtts_perm {evs evs' : List (PingEvent F)} (h : evs.Perm evs') :
    (rtts evs).Perm (rtts evs') :=
  (h.filter _).map _

theorem rtts_lost {evs : List (PingEvent F)} {ev : PingEvent F} (ht : ev.timeout = true) :
    rtts (evs ++ [ev]) = rtts evs := by
  rw [rtts_concat, if_pos ht, List.append_nil]

theorem rtts_replied {evs : List (PingEvent F)} {ev : PingEvent F} (ht : ¬ev.timeout = true) :
    rtts (evs ++ [ev]) = rtts evs ++ [ev.rttMs] := by
  rw [rtts_concat, if_neg ht]

/-- An element of the list before which none comes. -/
def Extreme (le : Int → Int → Prop) (l : List Int) (m : Int) : Prop := m ∈ l ∧ ∀ r ∈ l, le m r

theorem extreme_singleton {le : Int → Int → Prop} (hrefl : ∀ a, le a a) (r : Int) :
    Extreme le [r] r := by
  refine ⟨List.mem_singleton.2 rfl, fun x hx => ?_⟩
  rw [List.mem_singleton.1 hx]
  exact hrefl r

/-- One more element is the extreme one, or the old one still is. -/
theorem Extreme.concat {le : Int → Int → Prop} (hrefl : ∀ a, le a a)
    (htrans : ∀ a b c, le a b → le b c → le a c) {l : List Int} {m m' r : Int}
    (h : Extreme le l m) (hm : m' = r ∧ le r m ∨ m' = m ∧ le m r) :
    Extreme le (l ++ [r]) m' := by
  rcases hm with ⟨rfl, hr⟩ | ⟨rfl, hr⟩
  · refine ⟨List.mem_append_right _ (List.mem_singleton.2 rfl), fun x hx => ?_⟩
    rcases List.mem_append.1 hx with hx | hx
    · exact htrans _ _ _ hr (h.2 x hx)
    · rw [List.mem_singleton.1 hx]
      exact hrefl _
  · refine ⟨List.mem_append_left _ h.1, fun x hx => ?_⟩
    rcases List.mem_append.1 hx with hx | hx
    · exact h.2 x hx
    · rw [List.mem_singleton.1 hx]
      exact hr

/-- The first element, and from then on the extreme one. -/
def Updated (le : Int → Int → Prop) (l : List Int) (m r m' : Int) : Prop :=
  l = [] ∧ m' = r ∨ l ≠ [] ∧ (m' = r ∧ le r m ∨ m' = m ∧ le m r)

theorem extreme_of_updated {le : Int → Int → Prop} (hrefl : ∀ a, le a a)
    (htrans : ∀ a b c, le a b → le b c → le a c) {l : List Int} {m r m' : Int}
    (h : l ≠ [] → Extreme le l m) (hm : Updated le l m r m') : Extreme le (l ++ [r]) m' := by
  rcases hm with ⟨rfl, rfl⟩ | ⟨hne, hm⟩
  · exact extreme_singleton hrefl _
  · exact (h hne).concat hrefl htrans hm

/-- Number, sum and extremes of a list, as they are kept while it grows.  The sum wraps. -/
structure Summary (l : List Int) (count total least greatest : Int) : Prop where
  count : count = l.length
  total : total = l.sum.bmod (2 ^ 64)
  least : l ≠ [] → Extreme (· ≤ ·) l least
  greatest : l ≠ [] → Extreme (· ≥ ·) l greatest

theorem Summary.start (least greatest : Int) : Summary [] 0 0 least greatest where
  count := rfl
  total := rfl
  least := fun h => absurd rfl h
  greatest := fun h => absurd rfl h

theorem Summary.concat {l : List Int} {count total least greatest r least' greatest' : Int}
    (h : Summary l count total least greatest) (hleast : Updated (· ≤ ·) l least r least')
    (hgreatest : Updated (· ≥ ·) l greatest r greatest') :
    Summary (l ++ [r]) (count + 1) (Word.add total r) least' greatest' where
  count := by
    rw [List.length_append, h.count]
    rfl
  total := by rw [List.sum_append, List.sum_singleton, h.total, Word.add_bmod]
  least := fun _ => extreme_of_updated Int.le_refl (fun _ _ _ => Int.le_trans) h.least hleast
  greatest := fun _ =>
    have hrefl : ∀ a : Int, a ≥ a := Int.le_refl
    have htrans : ∀ a b c : Int, a ≥ b → b ≥ c → a ≥ c := fun _ _ _ h₁ h₂ => Int.le_trans h₂ h₁
    extreme_of_updated hrefl htrans h.greatest hgreatest

/-- The books of the builder after some events. -/
structure Counts (evs : List (PingEvent F)) (statsBuilder : PingStatisticsBuilder F) : Prop where
  pingEvs : statsBuilder.pingEvs = evs
  loss : statsBuilder.lossPktCount = evs.countP fun ev => ev.timeout
  summary : Summary (rtts evs) statsBuilder.receivedPktCount statsBuilder.totalRTT
    statsBuilder.minRTT statsBuilder.maxRTT

section Counts

variable {evs : List (PingEvent F)} {statsBuilder : PingStatisticsBuilder F} {ev : PingEvent F}

theorem Counts.lost (h : Counts evs statsBuilder) (ht : ev.timeout = true) :
    Counts (evs ++ [ev]) (statsBuilder.writeEvent ev) := by
  rw [PingStatisticsBuilder.writeEvent, if_pos ht]
  exact
    { pingEvs := congrArg (· ++ [ev]) h.pingEvs
      loss := by
        rw [List.countP_append, List.countP_singleton, if_pos ht, h.loss]
        rfl
      summary := by
        rw [rtts_lost ht]
        exact h.summary }

/-- The first reply is both extremes, and every other is compared with them. -/
theorem Counts.replied (h : Counts evs statsBuilder) (ht : ¬ev.timeout = true) :
    Counts (evs ++ [ev]) (statsBuilder.writeEvent ev) := by
  have hfirst : statsBuilder.receivedPktCount + 1 = 1 ↔ rtts evs = [] := by
    rw [h.summary.count, ← List.length_eq_zero_iff]
    omega
  rw [PingStatisticsBuilder.writeEvent, if_neg ht]
  constructor
  case pingEvs => exact congrArg (· ++ [ev]) h.pingEvs
  case loss =>
    rw [List.countP_append, List.countP_singleton, if_neg ht]
    exact h.loss
  case summary =>
    rw [rtts_replied ht]
    refine h.summary.concat ?_ ?_
    · by_cases hnil : rtts evs = []
      · exact Or.inl ⟨hnil, if_pos (hfirst.2 hnil)⟩
      · refine Or.inr ⟨hnil, ?_⟩
        simp only [PingStatisticsBuilder.receive, if_neg (mt hfirst.1 hnil)]
        split <;> omega
    · by_cases hnil : rtts evs = []
      · exact Or.inl ⟨hnil, if_pos (hfirst.2 hnil)⟩
      · refine Or.inr ⟨hnil, ?_⟩
        simp only [PingStatisticsBuilder.receive, if_neg (mt hfirst.1 hnil)]
        split <;> omega

theorem Counts.writeEvent (h : Counts evs statsBuilder) (ev : PingEvent F) :
    Counts (evs ++ [ev]) (statsBuilder.writeEvent ev) := by
  by_cases ht : ev.timeout = true
  · exact h.lost ht
  · exact h.replied ht

end Counts

theorem counts (evs : List (PingEvent F)) :
    Counts evs (PingStatisticsBuilder.writeEvents evs) := by
  induction evs using List.reverseRecOn with
  | nil => exact ⟨rfl, rfl, .start 0 0⟩
  | append_singleton evs ev ih =>
    rw [PingStatisticsBuilder.writeEvents, List.foldl_append]
    exact ih.writeEvent ev

/-! ## What should be counted -/

/-- An event of the data source that is neither an error nor a timeout. -/
def reply : Except String (PingEvent F) → Option (PingEvent F)
  | .error _ => none
  | .ok ev => if ev.timeout then none else some ev

/-- The round trip times that were measured. -/
def measured (items : List (Except String (PingEvent F))) : List Int :=
  (items.filterMap reply).map PingEvent.rttMs

def isTimeout : Except String (PingEvent F) → Bool
  | .error _ => false
  | .ok ev => ev.timeout

/-- What statistics of these events ought to say. -/
structure Correct (items : List (Except String (PingEvent F))) (stats : PingStatistics) :
    Prop where
  received : stats.receivedPktCount = (measured items).length
  loss : stats.lossPktCount = items.countP isTimeout
  least : measured items ≠ [] → Extreme (· ≤ ·) (measured items) stats.minRTT
  greatest : measured items ≠ [] → Extreme (· ≥ ·) (measured items) stats.maxRTT
  average : measured items ≠ [] →
    stats.avgRTT = (measured items).sum.fdiv (measured items).length

def isError : Except String (PingEvent F) → Bool
  | .error _ => true
  | .ok _ => false

/-- What an item adds to what was measured. -/
theorem measured_cons (item : Except String (PingEvent F))
    (items : List (Except String (PingEvent F))) :
    measured (item :: items) =
      (if isError item || isTimeout item then [] else [(sentEvent item).rttMs]) ++
        measured items := by
  cases item with
  | error err => rfl
  | ok ev => cases ht : ev.timeout <;> simp [measured, reply, isError, isTimeout, sentEvent, ht]

/-- What it adds to what the builder counts. -/
theorem rtts_sent_cons (item : Except String (PingEvent F))
    (items : List (Except String (PingEvent F))) :
    rtts ((item :: items).map sentEvent) =
      (if isTimeout item then [] else [(sentEvent item).rttMs]) ++ rtts (items.map sentEvent) := by
  rw [List.map_cons, rtts_cons]
  cases item <;> rfl

/-- An error is counted as one more reply. -/
theorem length_rtts_sent (items : List (Except String (PingEvent F))) :
    (rtts (items.map sentEvent)).length = (measured items).length + items.countP isError := by
  induction items with
  | nil => rfl
  | cons item items ih =>
    rw [rtts_sent_cons, measured_cons, List.countP_cons, List.length_append, List.length_append, ih]
    cases item with
    | error err => simp [isError, isTimeout]; omega
    | ok ev => cases ht : ev.timeout <;> simp [isError, isTimeout, ht]; omega

/-- Without an error the builder counts what was measured. -/
theorem rtts_eq_measured {items : List (Except String (PingEvent F))}
    (h : ∀ item ∈ items, isError item = false) : rtts (items.map sentEvent) = measured items := by
  induction items with
  | nil => rfl
  | cons item items ih =>
    rw [rtts_sent_cons, measured_cons, ih fun item hitem => h item (List.mem_cons_of_mem _ hitem),
      h item List.mem_cons_self, Bool.false_or]

theorem countP_timeout (items : List (Except String (PingEvent F))) :
    ((items.map sentEvent).countP fun ev => ev.timeout) = items.countP isTimeout := by
  rw [List.countP_map]
  refine List.countP_congr fun item _ => ?_
  cases item <;> rfl

/-! ## When it is right -/

/-- What the builder says as soon as there is an event. -/
theorem getPingStatistics_eq {evs : List (PingEvent F)} (h : evs ≠ []) :
    (PingStatisticsBuilder.writeEvents evs).getPingStatistics =
      some
        { receivedPktCount := (rtts evs).length
          lossPktCount := evs.countP fun ev => ev.timeout
          minRTT := (PingStatisticsBuilder.writeEvents evs).minRTT
          maxRTT := (PingStatisticsBuilder.writeEvents evs).maxRTT
          avgRTT :=
            if ((rtts evs).length : Int) > 0 then
              ((rtts evs).sum.bmod (2 ^ 64)).tdiv (rtts evs).length
            else 0 } := by
  have hcounts := counts evs
  have hlen : ¬(PingStatisticsBuilder.writeEvents evs).pingEvs.length = 0 := by
    rwa [hcounts.pingEvs, List.length_eq_zero_iff]
  rw [PingStatisticsBuilder.getPingStatistics, if_neg hlen, hcounts.summary.count, hcounts.loss,
    hcounts.summary.total]

theorem length_measured_pos {items : List (Except String (PingEvent F))}
    (h : measured items ≠ []) : (0 : Int) < (measured items).length :=
  Int.natCast_pos.2 (List.length_pos_iff.2 h)

/-- The sum fits, and dividing it gives the floor. -/
def FloorAverage (items : List (Except String (PingEvent F))) : Prop :=
  measured items ≠ [] → Word.Fits (measured items).sum ∧
    (0 ≤ (measured items).sum ∨ ((measured items).length : Int) ∣ (measured items).sum)

theorem length_measured_le (items : List (Except String (PingEvent F))) :
    (measured items).length ≤ items.length := by
  rw [measured, List.length_map]
  exact List.length_filterMap_le _ _

/-- The quotient is that of the claimed average exactly if the sum fits. -/
theorem average_iff {items : List (Except String (PingEvent F))} (hlen : items.length < 2 ^ 63)
    (hne : measured items ≠ []) :
    ((measured items).sum.bmod (2 ^ 64)).tdiv (measured items).length =
        (measured items).sum.fdiv (measured items).length ↔
      Word.Fits (measured items).sum ∧
        (0 ≤ (measured items).sum ∨ ((measured items).length : Int) ∣ (measured items).sum) := by
  have hle := length_measured_le items
  exact Word.bmod_tdiv_eq_fdiv_iff (length_measured_pos hne) (by omega)

theorem correct_of_no_error {items : List (Except String (PingEvent F))} {stats : PingStatistics}
    (hlen : items.length < 2 ^ 63) (herr : ∀ item ∈ items, isError item = false)
    (havg : FloorAverage items)
    (h : stats ∈ (PingStatisticsBuilder.writeEvents (items.map sentEvent)).getPingStatistics) :
    Correct items stats := by
  have hcounts := counts (items.map sentEvent)
  have hrtts := rtts_eq_measured herr
  rcases List.eq_nil_or_concat items with rfl | ⟨init, last, rfl⟩
  · cases h
  rw [getPingStatistics_eq (by simp), hrtts] at h
  cases h
  exact
    { received := rfl
      loss := congrArg Int.ofNat (countP_timeout _)
      least := hrtts ▸ hcounts.summary.least
      greatest := hrtts ▸ hcounts.summary.greatest
      average := fun hne => by
        rw [if_pos (length_measured_pos hne)]
        exact (average_iff hlen hne).2 (havg hne) }

theorem no_error_of_correct {items : List (Except String (PingEvent F))}
    (h : ∀ stats ∈ (PingStatisticsBuilder.writeEvents (items.map sentEvent)).getPingStatistics,
      Correct items stats) :
    ∀ item ∈ items, isError item = false := by
  intro item hitem
  have hne : items.map sentEvent ≠ [] := by
    simpa using List.ne_nil_of_mem hitem
  have hlen := (h _ (getPingStatistics_eq hne)).received
  rw [length_rtts_sent] at hlen
  have hcount : items.countP isError = 0 := by
    simp only at hlen
    omega
  simpa using List.countP_eq_zero.1 hcount item hitem

/-- The statistics are right exactly if no event is an error, the sum fits, and its division is
that of the floor.  A slice has fewer than `2 ^ 63` elements. -/
theorem statistics_iff (items : List (Except String (PingEvent F)))
    (hlen : items.length < 2 ^ 63) :
    (∀ stats ∈ (PingStatisticsBuilder.writeEvents (items.map sentEvent)).getPingStatistics,
      Correct items stats) ↔
    (∀ item ∈ items, isError item = false) ∧ FloorAverage items := by
  constructor
  · intro h
    have herr := no_error_of_correct h
    refine ⟨herr, fun hne => ?_⟩
    have hevs : items.map sentEvent ≠ [] := by
      rintro hnil
      rw [List.map_eq_nil_iff.1 hnil] at hne
      exact hne rfl
    have havg := (h _ (getPingStatistics_eq hevs)).average hne
    simp only [rtts_eq_measured herr] at havg
    rw [if_pos (length_measured_pos hne)] at havg
    exact (average_iff hlen hne).1 havg
  · rintro ⟨herr, havg⟩ stats h
    exact correct_of_no_error hlen herr havg h

/-- Two replies and a timeout. -/
def repliedItems : List (Except String (PingEvent Unit)) :=
  [.ok { rttMs := 30 }, .ok { timeout := true }, .ok { rttMs := 41 }]

/-- Two replies whose sum wraps to a negative number. -/
def wrappedItems : List (Except String (PingEvent Unit)) :=
  [.ok { rttMs := 2 ^ 62 }, .ok { rttMs := 2 ^ 62 }]

theorem statistics_replied_wrapped :
    (∀ stats ∈ (PingStatisticsBuilder.writeEvents (repliedItems.map sentEvent)).getPingStatistics,
      Correct repliedItems stats) ∧
    ¬∀ stats ∈ (PingStatisticsBuilder.writeEvents (wrappedItems.map sentEvent)).getPingStatistics,
      Correct wrappedItems stats := by
  constructor
  · refine (statistics_iff repliedItems (by decide)).2 ⟨by decide, fun _ => ?_⟩
    exact ⟨by decide, Or.inl (by decide)⟩
  · intro h
    have havg := ((statistics_iff wrappedItems (by decide)).1 h).2
    exact absurd (havg (List.cons_ne_nil _ _)).1 (by decide)

/-- A reply, and then an error. -/
def failedItems : List (Except String (PingEvent Unit)) :=
  [.ok { rttMs := 30 }, .error "unexpected status code: 502"]

/-- They are two replies, the faster of which took no time. -/
theorem error_counts_as_reply :
    ∃ stats ∈ (PingStatisticsBuilder.writeEvents (failedItems.map sentEvent)).getPingStatistics,
      stats.receivedPktCount = 2 ∧ stats.minRTT = 0 ∧ ¬Correct failedItems stats := by
  refine ⟨_, rfl, rfl, rfl, fun h => ?_⟩
  exact absurd h.received (by decide)

end CloudPing.Tui

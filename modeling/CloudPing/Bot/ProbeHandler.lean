import CloudPing.Bitmap.Heatmap
import CloudPing.Utils.Offset
import Mathlib.Data.List.Dedup
import Mathlib.Data.List.Find
import Mathlib.Data.List.Induction
import Mathlib.Data.List.Nodup
import Mathlib.Data.List.Perm.Subperm

/-!
# The heatmap of a probe

`HandleProbe` runs a collector beside the loop that shows the heatmap.  The collector writes
the latency of each event to the place of its address, counts the events, and offers the
loop a copy of what it has.  The loop shows the copy it got last.

Whatever copies the loop gets on the way, what it shows at the end is the array after all
events and the number of them (`collect_eq`).  The heatmap takes this number for a bound on
the places that were probed.  So it is true exactly when the addresses with an event are the
first ones of the subnet, each with one event (`heatmap_truth_iff`).
-/

namespace CloudPing.Bot

open CloudPing.Bitmap CloudPing.Utils

structure ProbeEvent where
  err : Option String := none
  ip : IP
  rttMs : Int
  deriving DecidableEq, Repr

/-! ## The collector and the loop -/

/-- What the collector offers.  The array is nil before the first event. -/
structure ProbeResult where
  rttMs : Option (List Int) := none
  probed : Nat := 0

/-- The variables of the collector. -/
structure Collector where
  rttMs : List Int
  probed : Nat := 0
  probeResult : ProbeResult := {}

/-- The variables of the loop, which it shows. -/
structure Shown where
  rttMs : List Int
  probed : Nat := 0
  deriving DecidableEq, Repr

/-- An event without an error.  `none` is a panic of `GetOffset`. -/
def Collector.consume (cidr : IPNet) (c : Collector) (ev : ProbeEvent) : Option Collector :=
  match getOffset cidr ev.ip with
  | none => none
  | some offset =>
    if offset < c.rttMs.length then
      let rttMs := c.rttMs.set offset ev.rttMs
      some { rttMs, probed := c.probed + 1, probeResult := ⟨some rttMs, c.probed + 1⟩ }
    else some c

/-- The loop takes a copy.  `none` is the panic of a wrong length. -/
def Shown.receive (shown : Shown) (probeResult : ProbeResult) : Option Shown :=
  match probeResult.rttMs with
  | none => some shown
  | some rttMs =>
    if probeResult.probed = 0 then some shown
    else if rttMs.length ≠ shown.rttMs.length then none
    else some ⟨rttMs, probeResult.probed⟩

/-- The two cases of the select of the collector. -/
inductive CollectStep where
  | event (ev : ProbeEvent)
  | offer
  deriving DecidableEq, Repr

/-- Go through the events, with an offer wherever the loop takes one, up to the end of the
events or the first error.  The loop always gets the last offer. -/
def collect (cidr : IPNet) (c : Collector) (shown : Shown) : List CollectStep → Option Shown
  | [] => shown.receive c.probeResult
  | .offer :: steps => (shown.receive c.probeResult).bind fun shown => collect cidr c shown steps
  | .event ev :: steps =>
    if ev.err.isSome then shown.receive c.probeResult
    else (c.consume cidr ev).bind fun c => collect cidr c shown steps

/-- The number of addresses of a subnet, as a word of 32 bits. -/
def numSamples (cidr : IPNet) : Nat := (1 <<< hostBits cidr) % 2 ^ 32

/-- What is shown after the events. -/
def handleProbe (cidr : IPNet) (steps : List CollectStep) : Option Shown :=
  collect cidr { rttMs := List.replicate (numSamples cidr) 0 }
    { rttMs := List.replicate (numSamples cidr) 0 } steps

/-- The events before the first error. -/
def consumed : List CollectStep → List ProbeEvent
  | [] => []
  | .offer :: steps => consumed steps
  | .event ev :: steps => if ev.err.isSome then [] else ev :: consumed steps

/-! ## What is shown at the end -/

/-- The array after events that are put at the given places. -/
def fill (place : ProbeEvent → Nat) (rttMs : List Int) (evs : List ProbeEvent) : List Int :=
  evs.foldl (fun rttMs ev => rttMs.set (place ev) ev.rttMs) rttMs

theorem length_fill (place : ProbeEvent → Nat) (rttMs : List Int) (evs : List ProbeEvent) :
    (fill place rttMs evs).length = rttMs.length := by
  induction evs generalizing rttMs with
  | nil => rfl
  | cons ev evs ih =>
    rw [fill, List.foldl_cons, ← fill, ih, List.length_set]

/-- At each place the array has the latency of the last event that was put there. -/
theorem getElem?_fill (place : ProbeEvent → Nat) (rttMs : List Int) (evs : List ProbeEvent)
    {i : Nat} (hi : i < rttMs.length) :
    (fill place rttMs evs)[i]? =
      match evs.reverse.find? fun ev => place ev = i with
      | some ev => some ev.rttMs
      | none => rttMs[i]? := by
  induction evs using List.reverseRecOn with
  | nil => rfl
  | append_singleton evs ev ih =>
    rw [fill, List.foldl_concat, ← fill, List.reverse_concat, List.find?_cons]
    by_cases hp : place ev = i
    · rw [decide_eq_true hp, hp, List.getElem?_set_self (by rw [length_fill]; exact hi)]
    · rw [decide_eq_false hp, List.getElem?_set_ne hp, ih]

/-- The state of the collector after events that were put at the given places. -/
structure Collected (place : ProbeEvent → Nat) (zeros : List Int) (evs : List ProbeEvent)
    (c : Collector) : Prop where
  rttMs : c.rttMs = fill place zeros evs
  probed : c.probed = evs.length
  offered : c.probeResult = if evs = [] then {} else ⟨some c.rttMs, c.probed⟩

/-- What the loop may have got before. -/
structure Showing (zeros : List Int) (evs : List ProbeEvent) (shown : Shown) : Prop where
  length : shown.rttMs.length = zeros.length
  start : evs = [] → shown = ⟨zeros, 0⟩

variable {place : ProbeEvent → Nat} {zeros : List Int} {cidr : IPNet} {c : Collector}
  {shown : Shown} {evs : List ProbeEvent}

theorem Collected.receive (hc : Collected place zeros evs c) (hs : Showing zeros evs shown) :
    shown.receive c.probeResult = some ⟨fill place zeros evs, evs.length⟩ := by
  rw [hc.offered]
  by_cases he : evs = []
  · rw [if_pos he, hs.start he, he]
    rfl
  · have hlen : c.rttMs.length = shown.rttMs.length := by
      rw [hc.rttMs, length_fill, hs.length]
    have hpos : c.probed ≠ 0 := by
      rw [hc.probed]
      exact fun h0 => he (List.eq_nil_of_length_eq_zero h0)
    simp only [if_neg he, Shown.receive, if_neg hpos, hlen, ne_eq, not_true_eq_false, if_false]
    rw [hc.rttMs, hc.probed]

theorem Collected.consume (hc : Collected place zeros evs c) {ev : ProbeEvent}
    (ho : getOffset cidr ev.ip = some (place ev)) (hlt : place ev < zeros.length) :
    ∃ c', c.consume cidr ev = some c' ∧ Collected place zeros (evs ++ [ev]) c' := by
  have hlen : place ev < c.rttMs.length := by
    rw [hc.rttMs, length_fill]
    exact hlt
  simp only [Collector.consume, ho, if_pos hlen]
  refine ⟨_, rfl, ?_, ?_, ?_⟩
  · rw [hc.rttMs, fill, fill, List.foldl_concat]
  · rw [hc.probed, List.length_append, List.length_singleton]
  · rw [if_neg (List.append_ne_nil_of_right_ne_nil _ (List.cons_ne_nil _ _))]

/-- Whatever the loop gets on the way, it ends with the array and the count of all events. -/
theorem Collected.collect {steps : List CollectStep}
    (hplace : ∀ ev ∈ consumed steps,
      getOffset cidr ev.ip = some (place ev) ∧ place ev < zeros.length)
    (hc : Collected place zeros evs c) (hs : Showing zeros evs shown) :
    collect cidr c shown steps =
      some ⟨fill place zeros (evs ++ consumed steps), (evs ++ consumed steps).length⟩ := by
  induction steps generalizing evs c shown with
  | nil => rw [consumed, List.append_nil, Bot.collect, hc.receive hs]
  | cons step steps ih =>
    cases step with
    | offer =>
      rw [Bot.collect, hc.receive hs, Option.bind_some, consumed]
      refine ih hplace hc ⟨length_fill _ _ _, fun he => ?_⟩
      rw [he]
      rfl
    | event ev =>
      rw [Bot.collect]
      cases herr : ev.err.isSome with
      | true => rw [if_pos rfl, consumed, herr, if_pos rfl, List.append_nil, hc.receive hs]
      | false =>
        have hcons : consumed (.event ev :: steps) = ev :: consumed steps := by
          rw [consumed, herr]
          rfl
        rw [hcons] at hplace ⊢
        obtain ⟨ho, hlt⟩ := hplace ev List.mem_cons_self
        obtain ⟨c', hcons', hc'⟩ := hc.consume ho hlt
        have hs' : Showing zeros (evs ++ [ev]) shown :=
          ⟨hs.length, fun he => absurd he (by simp)⟩
        rw [if_neg (by decide), hcons', Option.bind_some,
          ih (fun ev' hev' => hplace ev' (List.mem_cons_of_mem _ hev')) hc' hs',
          List.append_assoc, List.singleton_append]

theorem collect_eq {steps : List CollectStep}
    (hplace : ∀ ev ∈ consumed steps,
      getOffset cidr ev.ip = some (place ev) ∧ place ev < numSamples cidr) :
    handleProbe cidr steps =
      some ⟨fill place (List.replicate (numSamples cidr) 0) (consumed steps),
        (consumed steps).length⟩ := by
  have hstart : Collected place (List.replicate (numSamples cidr) 0) []
      { rttMs := List.replicate (numSamples cidr) 0 } := ⟨rfl, rfl, rfl⟩
  refine hstart.collect (fun ev hev => ?_) ⟨rfl, fun _ => rfl⟩
  rw [List.length_replicate]
  exact hplace ev hev

theorem length_of_receive {probeResult : ProbeResult} {shown' : Shown}
    (h : shown.receive probeResult = some shown') :
    shown'.rttMs.length = shown.rttMs.length := by
  rw [Shown.receive] at h
  split at h
  next =>
    cases h
    rfl
  next =>
    split_ifs at h with h₁ h₂
    · cases h
      rfl
    · cases h
      exact not_not.1 h₂

/-- What is shown keeps its length. -/
theorem length_of_collect {steps : List CollectStep} {shown' : Shown}
    (h : collect cidr c shown steps = some shown') :
    shown'.rttMs.length = shown.rttMs.length := by
  induction steps generalizing c shown with
  | nil => exact length_of_receive h
  | cons step steps ih =>
    cases step with
    | offer =>
      obtain ⟨shown₁, h₁, h⟩ := Option.bind_eq_some_iff.1 h
      rw [ih h, length_of_receive h₁]
    | event ev =>
      rw [Bot.collect] at h
      split at h
      next => exact length_of_receive h
      next =>
        obtain ⟨c', _, h⟩ := Option.bind_eq_some_iff.1 h
        exact ih h

/-! ## When the heatmap is true -/

/-- The last event for an address. -/
def lastEvent (evs : List ProbeEvent) (a : IP) : Option ProbeEvent :=
  evs.reverse.find? fun ev => normal ev.ip = normal a

/-- The heatmap says of every address of the subnet what its last event said, and the count
is that of the addresses with an event. -/
structure HeatmapTrue (cidr : IPNet) (evs : List ProbeEvent) (shown : Shown) (img : Image) :
    Prop where
  green : ∀ a, cidr.contains a = true →
    (cell img (hostBits cidr) (offsetIn cidr a) = some Bitmap.green ↔
      ∃ ev, lastEvent evs a = some ev ∧ 0 ≤ ev.rttMs)
  gray : ∀ a, cidr.contains a = true →
    (cell img (hostBits cidr) (offsetIn cidr a) = some Bitmap.gray ↔
      ∃ ev, lastEvent evs a = some ev ∧ ev.rttMs < 0)
  white : ∀ a, cidr.contains a = true →
    (cell img (hostBits cidr) (offsetIn cidr a) = some Bitmap.white ↔ lastEvent evs a = none)
  probed : shown.probed = (evs.map fun ev => normal ev.ip).dedup.length
  bounded : shown.probed ≤ 2 ^ hostBits cidr

/-- After the events a heatmap is rendered, and it is true. -/
def Truthful (cidr : IPNet) (steps : List CollectStep) : Prop :=
  ∃ shown img, handleProbe cidr steps = some shown ∧
    renderProbeHeatmap shown.rttMs shown.probed cidr = .ok img ∧
    HeatmapTrue cidr (consumed steps) shown img

/-- The addresses with an event are the first ones of the subnet, each with one event. -/
structure InPlace (cidr : IPNet) (evs : List ProbeEvent) : Prop where
  distinct : (evs.map fun ev => offsetIn cidr ev.ip).Nodup
  first : ∀ ev ∈ evs, offsetIn cidr ev.ip < evs.length

theorem pixelColor_eq_white {probed i : Nat} {rtt : Int} :
    pixelColor probed i rtt = white ↔ probed ≤ i := by
  rw [pixelColor]
  split_ifs with h₁ h₂
  · exact iff_of_true rfl h₁
  · exact iff_of_false (by decide) h₁
  · exact iff_of_false (by decide) h₁

theorem pixelColor_eq_green {probed i : Nat} {rtt : Int} :
    pixelColor probed i rtt = green ↔ i < probed ∧ 0 ≤ rtt := by
  rw [pixelColor]
  split_ifs with h₁ h₂
  · exact iff_of_false (by decide) (by omega)
  · exact iff_of_false (by decide) (by omega)
  · exact iff_of_true rfl (by omega)

theorem pixelColor_eq_gray {probed i : Nat} {rtt : Int} :
    pixelColor probed i rtt = gray ↔ i < probed ∧ rtt < 0 := by
  rw [pixelColor]
  split_ifs with h₁ h₂
  · exact iff_of_false (by decide) (by omega)
  · exact iff_of_true rfl (by omega)
  · exact iff_of_false (by decide) (by omega)

variable {ones : Nat}

theorem find?_eq_lastEvent (hp : cidr.Parsed ones)
    (hin : ∀ ev ∈ evs, cidr.contains ev.ip = true) {a : IP} (ha : cidr.contains a = true) :
    (evs.reverse.find? fun ev => offsetIn cidr ev.ip = offsetIn cidr a) = lastEvent evs a := by
  refine List.find?_congr fun ev hev => ?_
  rw [Bool.eq_iff_iff, decide_eq_true_eq, decide_eq_true_eq,
    normal_eq_iff hp (hin ev (List.mem_reverse.1 hev)) ha]

theorem lastEvent_eq_none (hp : cidr.Parsed ones)
    (hin : ∀ ev ∈ evs, cidr.contains ev.ip = true) {a : IP} (ha : cidr.contains a = true) :
    lastEvent evs a = none ↔ offsetIn cidr a ∉ evs.map fun ev => offsetIn cidr ev.ip := by
  rw [← find?_eq_lastEvent hp hin ha, List.find?_eq_none]
  simp

theorem lastEvent_mem {a : IP} {ev : ProbeEvent} (h : lastEvent evs a = some ev) :
    ev ∈ evs ∧ normal ev.ip = normal a := by
  have hsome := List.find?_some h
  exact ⟨List.mem_reverse.1 (List.mem_of_find?_eq_some h), of_decide_eq_true hsome⟩

/-- Events in place fill the first places. -/
theorem InPlace.mem_iff (h : InPlace cidr evs) (i : Nat) :
    i ∈ (evs.map fun ev => offsetIn cidr ev.ip) ↔ i < evs.length := by
  have hsub : (evs.map fun ev => offsetIn cidr ev.ip) ⊆ List.range evs.length := by
    intro o ho
    obtain ⟨ev, hev, rfl⟩ := List.mem_map.1 ho
    exact List.mem_range.2 (h.first ev hev)
  have hperm := (h.distinct.subperm hsub).perm_of_length_le (by simp)
  rw [hperm.mem_iff, List.mem_range]

theorem InPlace.length_le (hp : cidr.Parsed ones)
    (hin : ∀ ev ∈ evs, cidr.contains ev.ip = true) (h : InPlace cidr evs) :
    evs.length ≤ 2 ^ (8 * cidr.ip.length - ones) := by
  have hsub : (evs.map fun ev => offsetIn cidr ev.ip) ⊆
      List.range (2 ^ (8 * cidr.ip.length - ones)) := by
    intro o ho
    obtain ⟨ev, hev, rfl⟩ := List.mem_map.1 ho
    exact List.mem_range.2 (offsetIn_lt hp (hin ev hev))
  simpa using (h.distinct.subperm hsub).length_le

/-- One event for each address means one event for each place. -/
theorem nodup_normal_iff (hp : cidr.Parsed ones)
    (hin : ∀ ev ∈ evs, cidr.contains ev.ip = true) :
    (evs.map fun ev => normal ev.ip).Nodup ↔ (evs.map fun ev => offsetIn cidr ev.ip).Nodup := by
  rw [List.Nodup, List.Nodup, List.pairwise_map, List.pairwise_map]
  refine List.Pairwise.iff_of_mem fun {ev ev'} hev hev' => ?_
  rw [ne_eq, ne_eq, normal_eq_iff hp (hin ev hev) (hin ev' hev')]

/-- As many addresses as events means one event for each address. -/
theorem length_dedup_eq_iff {α : Type} [DecidableEq α] {l : List α} :
    l.length = l.dedup.length ↔ l.Nodup := by
  constructor
  · intro h
    rw [← (List.dedup_sublist l).eq_of_length h.symm]
    exact List.nodup_dedup l
  · intro h
    rw [h.dedup]

theorem hostBits_eq (hp : cidr.Parsed ones) : hostBits cidr = 8 * cidr.ip.length - ones := by
  rw [hostBits, hp.size]

/-- A grid whose cells show `arr` below the number of events is true where the events are in
place and `arr` has the sign of each. -/
theorem heatmapTrue_iff (shown : Shown) (hp : cidr.Parsed ones)
    (hin : ∀ ev ∈ evs, cidr.contains ev.ip = true)
    {img : Image} (arr : Nat → Int) (hprobed : shown.probed = evs.length)
    (hcell : ∀ i, i < 2 ^ hostBits cidr →
      cell img (hostBits cidr) i = some (pixelColor evs.length i (arr i))) :
    HeatmapTrue cidr evs shown img ↔
      InPlace cidr evs ∧ ∀ ev ∈ evs, (0 ≤ arr (offsetIn cidr ev.ip) ↔ 0 ≤ ev.rttMs) := by
  have hat : ∀ a, cidr.contains a = true → ∀ color : RGBA,
      (cell img (hostBits cidr) (offsetIn cidr a) = some color ↔
        pixelColor evs.length (offsetIn cidr a) (arr (offsetIn cidr a)) = color) := by
    intro a ha color
    rw [hcell _ (hostBits_eq hp ▸ offsetIn_lt hp ha), Option.some.injEq]
  have hlast : ∀ ev ∈ evs, (evs.map fun ev => offsetIn cidr ev.ip).Nodup →
      lastEvent evs ev.ip = some ev := by
    intro ev hev hnodup
    cases hl : lastEvent evs ev.ip with
    | none => exact absurd (List.mem_map_of_mem hev) ((lastEvent_eq_none hp hin (hin ev hev)).1 hl)
    | some ev' =>
      obtain ⟨hev', hn⟩ := lastEvent_mem hl
      rw [List.inj_on_of_nodup_map hnodup hev' hev
        ((normal_eq_iff hp (hin ev' hev') (hin ev hev)).1 hn)]
  have hcount : (evs.map fun ev => normal ev.ip).length = evs.length := List.length_map _
  constructor
  · intro htrue
    have hnodup : (evs.map fun ev => offsetIn cidr ev.ip).Nodup := by
      rw [← nodup_normal_iff hp hin, ← length_dedup_eq_iff, hcount, ← hprobed]
      exact htrue.probed
    have hfirst : ∀ ev ∈ evs, offsetIn cidr ev.ip < evs.length := by
      intro ev hev
      by_contra hge
      have hwhite := (htrue.white ev.ip (hin ev hev)).1
        ((hat _ (hin ev hev) _).2 (pixelColor_eq_white.2 (Nat.not_lt.1 hge)))
      rw [hlast ev hev hnodup] at hwhite
      cases hwhite
    refine ⟨⟨hnodup, hfirst⟩, fun ev hev => ?_⟩
    have hgreen := htrue.green ev.ip (hin ev hev)
    rw [hat _ (hin ev hev), pixelColor_eq_green, hlast ev hev hnodup] at hgreen
    simpa [hfirst ev hev] using hgreen
  · rintro ⟨hplace, hsign⟩
    have hnone : ∀ a, cidr.contains a = true →
        (lastEvent evs a = none ↔ evs.length ≤ offsetIn cidr a) := by
      intro a ha
      rw [lastEvent_eq_none hp hin ha, hplace.mem_iff, Nat.not_lt]
    have hsome : ∀ a ev, lastEvent evs a = some ev → cidr.contains a = true →
        offsetIn cidr a < evs.length ∧ (0 ≤ arr (offsetIn cidr a) ↔ 0 ≤ ev.rttMs) := by
      intro a ev hl ha
      obtain ⟨hev, hn⟩ := lastEvent_mem hl
      rw [← (normal_eq_iff hp (hin ev hev) ha).1 hn]
      exact ⟨hplace.first ev hev, hsign ev hev⟩
    refine ⟨fun a ha => ?_, fun a ha => ?_, fun a ha => ?_, ?_, ?_⟩
    · rw [hat a ha, pixelColor_eq_green]
      cases hl : lastEvent evs a with
      | none =>
        have hge := (hnone a ha).1 hl
        exact iff_of_false (by omega) (by simp)
      | some ev =>
        obtain ⟨hlt, hs⟩ := hsome a ev hl ha
        simp [hlt, hs]
    · rw [hat a ha, pixelColor_eq_gray]
      cases hl : lastEvent evs a with
      | none =>
        have hge := (hnone a ha).1 hl
        exact iff_of_false (by omega) (by simp)
      | some ev =>
        obtain ⟨hlt, hs⟩ := hsome a ev hl ha
        have hs' : arr (offsetIn cidr a) < 0 ↔ ev.rttMs < 0 := by omega
        simp [hlt, hs']
    · rw [hat a ha, pixelColor_eq_white, hnone a ha]
    · rw [hprobed, ← hcount, length_dedup_eq_iff, nodup_normal_iff hp hin]
      exact hplace.distinct
    · rw [hprobed, hostBits_eq hp]
      exact hplace.length_le hp hin

/-- For a subnet that maps one of IPv4 every latency goes to the first place: the others show
no timeout, and the first shows the last event. -/
def SignsAtFirst (cidr : IPNet) (evs : List ProbeEvent) : Prop :=
  ∀ ev ∈ evs, (offsetIn cidr ev.ip ≠ 0 → 0 ≤ ev.rttMs) ∧
    (offsetIn cidr ev.ip = 0 → ∀ last ∈ evs.getLast?, (0 ≤ last.rttMs ↔ 0 ≤ ev.rttMs))

variable {steps : List CollectStep}

/-- With at most 29 host bits the heatmap shows at each place what was put there last. -/
theorem truthful_iff (place : ProbeEvent → Nat) (hp : cidr.Parsed ones) (hb : hostBits cidr ≤ 29)
    (hin : ∀ ev ∈ consumed steps, cidr.contains ev.ip = true)
    (hplace : ∀ ev ∈ consumed steps,
      getOffset cidr ev.ip = some (place ev) ∧ place ev < 2 ^ hostBits cidr) :
    Truthful cidr steps ↔
      InPlace cidr (consumed steps) ∧ ∀ ev ∈ consumed steps,
        (0 ≤ (((consumed steps).reverse.find? fun ev' =>
          place ev' = offsetIn cidr ev.ip).map ProbeEvent.rttMs).getD 0 ↔ 0 ≤ ev.rttMs) := by
  have hpow : 2 ^ hostBits cidr ≤ 2 ^ 29 := Nat.pow_le_pow_right (by decide) hb
  have hsamples : numSamples cidr = 2 ^ hostBits cidr := by
    rw [numSamples, Nat.shiftLeft_eq, Nat.one_mul, Nat.mod_eq_of_lt (by omega)]
  have hcollect : handleProbe cidr steps = _ := collect_eq (hsamples ▸ hplace)
  have hlen : (fill place (List.replicate (numSamples cidr) 0) (consumed steps)).length =
      2 ^ hostBits cidr := by rw [length_fill, List.length_replicate, hsamples]
  obtain ⟨img, himg, hcell⟩ := cell_of_render (consumed steps).length hb hlen
  have harr : ∀ i, i < 2 ^ hostBits cidr → cell img (hostBits cidr) i =
      some (pixelColor (consumed steps).length i
        ((((consumed steps).reverse.find? fun ev' => place ev' = i).map
          ProbeEvent.rttMs).getD 0)) := by
    intro i hi
    rw [hcell i hi, getElem?_fill _ _ _ (by rw [List.length_replicate, hsamples]; exact hi)]
    cases (consumed steps).reverse.find? fun ev' => place ev' = i with
    | some ev => rfl
    | none =>
      simp only [List.getElem?_replicate, hsamples, if_pos hi]
      rfl
  rw [← heatmapTrue_iff ⟨_, (consumed steps).length⟩ hp hin
    (fun i => (((consumed steps).reverse.find? fun ev' => place ev' = i).map
      ProbeEvent.rttMs).getD 0) rfl harr]
  constructor
  · rintro ⟨shown, img', hshown, himg', htrue⟩
    rw [hcollect] at hshown
    cases hshown
    rw [himg] at himg'
    cases himg'
    exact htrue
  · intro htrue
    exact ⟨_, img, hcollect, himg, htrue⟩

theorem truthful_native_iff (hp : cidr.Parsed ones) (hn : cidr.Native) (hb : hostBits cidr ≤ 29)
    (hin : ∀ ev ∈ consumed steps, cidr.contains ev.ip = true) :
    Truthful cidr steps ↔ InPlace cidr (consumed steps) := by
  have hbits := hostBits_eq hp
  rw [truthful_iff (fun ev => offsetIn cidr ev.ip) hp hb hin fun ev hev =>
    ⟨getOffset_native hp hn (by omega) (hin ev hev), hbits ▸ offsetIn_lt hp (hin ev hev)⟩]
  refine and_iff_left_of_imp fun hplace ev hev => ?_
  rw [find?_eq_lastEvent hp hin (hin ev hev)]
  cases hl : lastEvent (consumed steps) ev.ip with
  | none =>
    exact absurd (List.mem_map_of_mem hev) ((lastEvent_eq_none hp hin (hin ev hev)).1 hl)
  | some ev' =>
    obtain ⟨hev', hn'⟩ := lastEvent_mem hl
    rw [List.inj_on_of_nodup_map hplace.distinct hev' hev
      ((normal_eq_iff hp (hin ev' hev') (hin ev hev)).1 hn')]
    rfl

theorem truthful_mapped_iff (hp : cidr.Parsed ones) (hn : ¬cidr.Native) (hb : hostBits cidr ≤ 29)
    (hin : ∀ ev ∈ consumed steps, cidr.contains ev.ip = true) :
    Truthful cidr steps ↔
      InPlace cidr (consumed steps) ∧ SignsAtFirst cidr (consumed steps) := by
  rw [truthful_iff (fun _ => 0) hp hb hin fun ev hev =>
    ⟨getOffset_mapped hp hn (hin ev hev), Nat.two_pow_pos _⟩]
  refine and_congr_right fun _ => forall₂_congr fun ev hev => ?_
  by_cases ho : offsetIn cidr ev.ip = 0
  · have hlast : ((consumed steps).reverse.find? fun _ => decide (0 = offsetIn cidr ev.ip)) =
        (consumed steps).getLast? := by
      rw [ho, ← List.head?_reverse]
      cases (consumed steps).reverse with
      | nil => rfl
      | cons last rest => rfl
    obtain ⟨last, hl⟩ : ∃ last, (consumed steps).getLast? = some last :=
      ⟨_, List.getLast?_eq_some_getLast (List.ne_nil_of_mem hev)⟩
    rw [hlast, hl]
    simp [ho]
  · have hnone : ((consumed steps).reverse.find? fun _ => decide (0 = offsetIn cidr ev.ip)) =
        none := by
      rw [List.find?_eq_none]
      intro _ _
      simpa using fun h0 => ho h0.symm
    simp [hnone, ho]

theorem contains_self (hp : cidr.Parsed ones) : cidr.contains cidr.ip = true := by
  by_cases hn : cidr.Native
  · have hself : cidr.ip.to4.getD cidr.ip = cidr.ip := hn.getD
    rw [cidr.contains_iff hp hn, hself]
    exact ⟨rfl, hp.masked⟩
  · have hl : cidr.ip.length = 16 := hp.length.resolve_left fun h4 => hn (Or.inl h4)
    obtain ⟨ip4, h4⟩ : ∃ ip4, cidr.ip.to4 = some ip4 :=
      Option.ne_none_iff_exists'.1 fun hnone => hn (Or.inr hnone)
    rw [contains_mapped hp hl h4 hl, h4]
    exact ⟨rfl, hp.masked⟩

/-- With 30 host bits or more no heatmap is true: the first address has no cell. -/
theorem not_truthful_of_large (hp : cidr.Parsed ones) (hb : 30 ≤ hostBits cidr) :
    ¬Truthful cidr steps := by
  rintro ⟨shown, img, hshown, himg, htrue⟩
  have hlen : shown.rttMs.length = 2 ^ hostBits cidr % 2 ^ 32 := by
    rw [length_of_collect hshown, List.length_replicate, numSamples, Nat.shiftLeft_eq, Nat.one_mul]
  have hcell := cell_of_large hb hlen himg (offsetIn cidr cidr.ip)
  have hself := contains_self hp
  have hgreen := htrue.green cidr.ip hself
  have hgray := htrue.gray cidr.ip hself
  have hwhite := htrue.white cidr.ip hself
  rw [hcell] at hgreen hgray hwhite
  cases hl : lastEvent (consumed steps) cidr.ip with
  | none => exact absurd (hwhite.2 hl) (by simp)
  | some ev =>
    by_cases hneg : ev.rttMs < 0
    · exact absurd (hgray.2 ⟨ev, hl, hneg⟩) (by simp)
    · exact absurd (hgreen.2 ⟨ev, hl, Int.not_lt.1 hneg⟩) (by simp)

/-- Where something is shown, no event made `GetOffset` panic. -/
theorem getOffset_of_collect {shown' : Shown} (h : collect cidr c shown steps = some shown') :
    ∀ ev ∈ consumed steps, ∃ offset, getOffset cidr ev.ip = some offset := by
  induction steps generalizing c shown with
  | nil => exact fun ev hev => absurd hev List.not_mem_nil
  | cons step steps ih =>
    cases step with
    | offer =>
      obtain ⟨shown₁, _, h⟩ := Option.bind_eq_some_iff.1 h
      exact ih h
    | event ev =>
      rw [Bot.collect] at h
      rw [consumed]
      split at h
      next herr =>
        rw [if_pos herr]
        exact fun ev hev => absurd hev List.not_mem_nil
      next herr =>
        rw [if_neg herr]
        obtain ⟨c', hc', h⟩ := Option.bind_eq_some_iff.1 h
        intro ev' hev'
        rcases List.mem_cons.1 hev' with rfl | hev'
        · rw [Collector.consume] at hc'
          split at hc'
          next => cases hc'
          next offset ho => exact ⟨offset, ho⟩
        · exact ih h ev' hev'

/-- A heatmap is true only if every event is for an address of the subnet: the cells that the
others push out of white would need events of their own. -/
theorem members_of_truthful (hp : cidr.Parsed ones) (hb : hostBits cidr ≤ 29)
    (h : Truthful cidr steps) : ∀ ev ∈ consumed steps, cidr.contains ev.ip = true := by
  obtain ⟨shown, img, hshown, himg, htrue⟩ := h
  have hbits := hostBits_eq hp
  have hpow : 2 ^ hostBits cidr ≤ 2 ^ 29 := Nat.pow_le_pow_right (by decide) hb
  have hsamples : numSamples cidr = 2 ^ hostBits cidr := by
    rw [numSamples, Nat.shiftLeft_eq, Nat.one_mul, Nat.mod_eq_of_lt (by omega)]
  have hplace : ∀ ev ∈ consumed steps, getOffset cidr ev.ip =
      some ((getOffset cidr ev.ip).getD 0) ∧ (getOffset cidr ev.ip).getD 0 < numSamples cidr := by
    intro ev hev
    obtain ⟨offset, ho⟩ := getOffset_of_collect hshown ev hev
    rw [ho, hsamples, hbits]
    exact ⟨rfl, getOffset_lt hp ho⟩
  have hlen : (fill (fun ev => (getOffset cidr ev.ip).getD 0)
      (List.replicate (numSamples cidr) 0) (consumed steps)).length = 2 ^ hostBits cidr := by
    rw [length_fill, List.length_replicate, hsamples]
  rw [collect_eq hplace] at hshown
  cases hshown
  obtain ⟨img', himg', hcell⟩ := cell_of_render (consumed steps).length hb hlen
  rw [himg'] at himg
  cases himg
  have hmember : ∀ i, i < (consumed steps).length → ∃ a, cidr.contains a = true ∧
      offsetIn cidr a = i ∧ normal a ∈ (consumed steps).map fun ev => normal ev.ip := by
    intro i hi
    have hlt : i < 2 ^ hostBits cidr := Nat.lt_of_lt_of_le hi htrue.bounded
    obtain ⟨a, ha, rfl⟩ := exists_member hp (by omega) (hbits ▸ hlt)
    refine ⟨a, ha, rfl, ?_⟩
    cases hl : lastEvent (consumed steps) a with
    | some ev =>
      obtain ⟨hev, hn⟩ := lastEvent_mem hl
      exact List.mem_map.2 ⟨ev, hev, hn⟩
    | none =>
      have hwhite := (htrue.white a ha).2 hl
      rw [hcell _ hlt] at hwhite
      obtain ⟨rtt, _, hcolor⟩ := Option.map_eq_some_iff.1 hwhite
      exact absurd (pixelColor_eq_white.1 hcolor) (by omega)
  choose! a ha hoff hmem using hmember
  have hnodup : ((List.range (consumed steps).length).map fun i => normal (a i)).Nodup := by
    refine List.Nodup.map_on (fun i hi i' hi' he => ?_) List.nodup_range
    have hi := List.mem_range.1 hi
    have hi' := List.mem_range.1 hi'
    rw [← hoff i hi, ← hoff i' hi', offsetIn, offsetIn, he]
  have hsub : ((List.range (consumed steps).length).map fun i => normal (a i)) ⊆
      (consumed steps).map fun ev => normal ev.ip := by
    intro x hx
    obtain ⟨i, hi, rfl⟩ := List.mem_map.1 hx
    exact hmem i (List.mem_range.1 hi)
  have hperm := (hnodup.subperm hsub).perm_of_length_le (by simp)
  intro ev hev
  obtain ⟨i, hi, hn⟩ := List.mem_map.1 (hperm.mem_iff.2 (List.mem_map_of_mem hev))
  rw [← contains_congr hn]
  exact ha i (List.mem_range.1 hi)

/-- The heatmap is true exactly when the subnet has at most 29 host bits, the events are for
addresses of it, these are its first ones, each with one event, and, for a subnet that maps
one of IPv4, the one place all latencies go to happens to show the same colors. -/
theorem heatmap_truth_iff (s : String) (ip : IP) (cidr : IPNet)
    (hs : parseCIDR s = some (ip, cidr)) (steps : List CollectStep) :
    Truthful cidr steps ↔ hostBits cidr ≤ 29 ∧
      (∀ ev ∈ consumed steps, cidr.contains ev.ip = true) ∧ InPlace cidr (consumed steps) ∧
      (¬cidr.Native → SignsAtFirst cidr (consumed steps)) := by
  obtain ⟨ones, hp⟩ := parseCIDR_parsed hs
  by_cases hb : hostBits cidr ≤ 29
  · by_cases hin : ∀ ev ∈ consumed steps, cidr.contains ev.ip = true
    · by_cases hn : cidr.Native
      · rw [truthful_native_iff hp hn hb hin]
        exact ⟨fun h => ⟨hb, hin, h, fun hno => absurd hn hno⟩, fun h => h.2.2.1⟩
      · rw [truthful_mapped_iff hp hn hb hin]
        exact ⟨fun h => ⟨hb, hin, h.1, fun _ => h.2⟩, fun h => ⟨h.2.2.1, h.2.2.2 hn⟩⟩
    · exact iff_of_false (fun h => hin (members_of_truthful hp hb h)) fun h => hin h.2.1
  · exact iff_of_false (not_truthful_of_large hp (by omega)) fun h => hb h.1

/-- 10.0.0.0/30. -/
def quad : IPNet := ⟨[10, 0, 0, 0], [255, 255, 255, 252]⟩

/-- Two events, of which the later one is for the first address. -/
def inPlaceSteps : List CollectStep :=
  [.event { ip := [10, 0, 0, 1], rttMs := -1 }, .offer, .event { ip := [10, 0, 0, 0], rttMs := 7 }]

example : handleProbe quad inPlaceSteps = some ⟨[7, -1, 0, 0], 2⟩ := by decide

theorem heatmap_truth_in_place : Truthful quad inPlaceSteps := by
  have hplace : InPlace quad (consumed inPlaceSteps) := ⟨by decide, by decide⟩
  have hnative : quad.Native := by decide
  exact (heatmap_truth_iff "10.0.0.0/30" [0, 0, 0, 0, 0, 0, 0, 0, 0, 0, 255, 255, 10, 0, 0, 0] quad
    (by decide) inPlaceSteps).2 ⟨by decide, by decide, hplace, fun hn => absurd hnative hn⟩

/-- One reply, of the second address: its cell is white and that of the first is green. -/
theorem heatmap_out_of_place :
    ¬Truthful quad [.event { ip := [10, 0, 0, 1], rttMs := 5 }] := by
  have hquad : parseCIDR "10.0.0.0/30" =
      some ([0, 0, 0, 0, 0, 0, 0, 0, 0, 0, 255, 255, 10, 0, 0, 0], quad) := by decide
  obtain ⟨ones, hp⟩ := parseCIDR_parsed hquad
  rw [truthful_native_iff hp (by decide) (by decide) (by decide)]
  intro hplace
  exact absurd (hplace.first { ip := [10, 0, 0, 1], rttMs := 5 } (by decide)) (by decide)

end CloudPing.Bot

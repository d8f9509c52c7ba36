import CloudPing.Tui.PingStatistics
import CloudPing.Tui.TraceAgreement
import Mathlib.Algebra.Order.BigOperators.Group.List
import Mathlib.Algebra.Order.Group.Int
import Mathlib.Algebra.Ring.Int.Defs

/-!
# The invariants of a traceroute

`TraceLaw` is what holds of the statistics of the bot after any events, whichever sorter it uses.

The total of a peer wraps around, so it is the sum of the round trip times, and the average lies
between the extremes, as long as that sum fits (`PeerLaw`).

A peer is counted from its events in any order (`Tally`), so sorting them changes nothing.  The
hops that an event of the last hop leaves are those in front of it, and they are left as they are.
-/

namespace CloudPing.Tui

open Conc Sorting

variable {F : Type}

/-! ## What the events of a peer add up to -/

theorem Extreme.perm {le : Int → Int → Prop} {l l' : List Int} {m : Int} (h : Extreme le l m)
    (hp : l.Perm l') : Extreme le l' m :=
  ⟨hp.mem_iff.1 h.1, fun r hr => h.2 r (hp.mem_iff.2 hr)⟩

theorem Summary.perm {l l' : List Int} {count total least greatest : Int}
    (h : Summary l count total least greatest) (hp : l.Perm l') :
    Summary l' count total least greatest where
  count := by rw [h.count, hp.length_eq]
  total := by rw [h.total, hp.sum_eq]
  least := fun hne => (h.least fun hnil => hne (hnil ▸ hp).nil_eq.symm).perm hp
  greatest := fun hne => (h.greatest fun hnil => hne (hnil ▸ hp).nil_eq.symm).perm hp

/-- A sum that fits is the total. -/
theorem Summary.total_eq {l : List Int} {count total least greatest : Int}
    (h : Summary l count total least greatest) (hl : ∀ r ∈ l, 0 ≤ r) (hfits : l.sum < 2 ^ 63) :
    total = l.sum := by
  have hnonneg := List.sum_nonneg hl
  rw [h.total]
  exact Word.bmod_of_fits ⟨by omega, hfits⟩

/-- The average of numbers that are not negative lies between the extremes, if their sum fits. -/
theorem Summary.average {l : List Int} {count total least greatest : Int}
    (h : Summary l count total least greatest) (hl : ∀ r ∈ l, 0 ≤ r) (hfits : l.sum < 2 ^ 63)
    (hcount : 0 < count) :
    least ≤ total.tdiv count ∧ total.tdiv count ≤ greatest := by
  have hne : l ≠ [] := by
    rintro rfl
    rw [h.count] at hcount
    exact absurd hcount (by decide)
  have hsum := h.total_eq hl hfits
  have htotal : 0 ≤ total := hsum ▸ List.sum_nonneg hl
  have hleast := List.card_nsmul_le_sum l least (h.least hne).2
  have hgreatest := List.sum_le_card_nsmul l greatest (h.greatest hne).2
  rw [Int.nsmul_eq_mul, ← hsum, ← h.count] at hleast hgreatest
  rw [Int.tdiv_eq_ediv_of_nonneg htotal]
  constructor
  · exact Int.le_ediv_of_mul_le hcount (by rwa [Int.mul_comm])
  · exact Int.ediv_le_of_le_mul hcount (by rwa [Int.mul_comm])

/-- The counts of a peer are those of these events. -/
structure Tally (evs : List (PingEvent F)) (p : PeerStats F) : Prop where
  loss : p.lossCount = evs.countP fun ev => ev.timeout
  unset : rtts evs = [] → p.minRTT = -1 ∧ p.maxRTT = -1
  summary : Summary (rtts evs) p.receivedCount p.totalRTT p.minRTT p.maxRTT

section Tally

variable {S : Sorter} {evs evs' : List (PingEvent F)} {ev : PingEvent F} {p : PeerStats F}

theorem Tally.start (peer : String) : Tally [] ({ peer := peer } : PeerStats F) :=
  ⟨rfl, fun _ => ⟨rfl, rfl⟩, .start _ _⟩

theorem Tally.perm (h : Tally evs p) (hp : evs.Perm evs') : Tally evs' p where
  loss := by rw [h.loss, hp.countP_eq]
  unset := fun hnil => h.unset (hnil ▸ rtts_perm hp).eq_nil
  summary := h.summary.perm (rtts_perm hp)

theorem Tally.lost (h : Tally evs p) (ht : ev.timeout = true) :
    Tally (evs ++ [ev]) (p.addEvent S ev) := by
  have hrtts : rtts (evs ++ [ev]) = rtts evs := rtts_lost ht
  rw [PeerStats.addEvent, if_pos ht]
  exact
    { loss := by
        rw [List.countP_append, List.countP_singleton, if_pos ht, h.loss]
        rfl
      unset := fun hnil => h.unset (hrtts ▸ hnil)
      summary := by
        rw [hrtts]
        exact h.summary }

/-- Minus one stands for a minimum that is not set, and no round trip takes that long. -/
theorem Tally.replied (h : Tally evs p) (hrtt : ∀ r ∈ rtts evs, 0 ≤ r) (ht : ¬ev.timeout = true) :
    Tally (evs ++ [ev]) (p.addEvent S ev) := by
  rw [PeerStats.addEvent, if_neg ht]
  constructor
  case loss =>
    rw [List.countP_append, List.countP_singleton, if_neg ht]
    exact h.loss
  case unset =>
    intro hnil
    rw [rtts_replied ht] at hnil
    exact absurd hnil (List.append_ne_nil_of_right_ne_nil _ (List.cons_ne_nil _ _))
  case summary =>
    rw [rtts_replied ht]
    refine h.summary.concat ?_ ?_
    · by_cases hnil : rtts evs = []
      · exact Or.inl ⟨hnil, if_pos (Or.inl (h.unset hnil).1)⟩
      · have hmin := hrtt _ (h.summary.least hnil).1
        refine Or.inr ⟨hnil, ?_⟩
        simp only [PeerStats.receive]
        split <;> omega
    · by_cases hnil : rtts evs = []
      · exact Or.inl ⟨hnil, if_pos (Or.inl (h.unset hnil).2)⟩
      · have hmax := hrtt _ (h.summary.greatest hnil).1
        refine Or.inr ⟨hnil, ?_⟩
        simp only [PeerStats.receive]
        split <;> omega

theorem Tally.addEvent (h : Tally evs p) (hrtt : ∀ r ∈ rtts evs, 0 ≤ r) (ev : PingEvent F) :
    Tally (evs ++ [ev]) (p.addEvent S ev) := by
  by_cases ht : ev.timeout = true
  · exact h.lost ht
  · exact h.replied hrtt ht

end Tally

/-! ## Peers -/

/-- The peer has the events of its key in the hop, in order, and is counted from them. -/
structure PeerInv (evs : List (PingEvent F)) (ttl : Int) (key : String) (p : PeerStats F) :
    Prop where
  nonempty : p.events ≠ []
  mem : ∀ ev ∈ p.events, ev ∈ evs ∧ ev.hopTTL = ttl ∧ ev.peerKey = key
  sorted : p.events.Pairwise fun a b => a.seq ≤ b.seq
  tally : Tally p.events p

/-- The same of a peer that may be new, and then has no event. -/
structure PeerStart (evs : List (PingEvent F)) (ttl : Int) (key : String) (p : PeerStats F) :
    Prop where
  mem : ∀ ev ∈ p.events, ev ∈ evs ∧ ev.hopTTL = ttl ∧ ev.peerKey = key
  tally : Tally p.events p

section Peers

variable {S : Sorter} {evs : List (PingEvent F)} {ev : PingEvent F} {ttl : Int} {key : String}
  {p : PeerStats F}

theorem PeerInv.mono (h : PeerInv evs ttl key p) : PeerInv (evs ++ [ev]) ttl key p :=
  { h with mem := fun e he => ⟨List.mem_append_left _ (h.mem e he).1, (h.mem e he).2⟩ }

theorem rtts_nonneg (hevs : ∀ e ∈ evs, 0 ≤ e.rttMs) : ∀ r ∈ rtts evs, 0 ≤ r := by
  intro r hr
  obtain ⟨e, he, rfl⟩ := List.mem_map.1 hr
  exact hevs e (List.mem_of_mem_filter he)

theorem PeerStart.write (h : PeerStart evs ev.hopTTL ev.peerKey p)
    (hevs : ∀ e ∈ evs, 0 ≤ e.rttMs) :
    PeerInv (evs ++ [ev]) ev.hopTTL ev.peerKey (p.addEvent S ev) := by
  have hperm : (p.addEvent S ev).events.Perm (p.events ++ [ev]) := perm_addEvent S p ev
  constructor
  case nonempty =>
    intro hnil
    rw [hnil] at hperm
    exact List.append_ne_nil_of_right_ne_nil _ (List.cons_ne_nil _ _) hperm.nil_eq.symm
  case mem =>
    intro e he
    rcases List.mem_append.1 (hperm.mem_iff.1 he) with he | he
    · exact ⟨List.mem_append_left _ (h.mem e he).1, (h.mem e he).2⟩
    · obtain rfl := List.mem_singleton.1 he
      exact ⟨List.mem_append_right _ he, rfl, rfl⟩
  case sorted =>
    rw [events_addEvent]
    exact Sorter.pairwise_sort (byKey_seq _)
  case tally =>
    have hrtts := rtts_nonneg fun e he => hevs e (h.mem e he).1
    exact (h.tally.addEvent hrtts ev).perm hperm.symm

/-- The last event of a peer has the highest number of all. -/
theorem PeerInv.le_maxSeq (h : PeerInv evs ttl key p) {peers : Store String (PeerStats F)}
    (hp : peers.lookup key = some p) :
    ∃ a ∈ p.events, HopGroup.maxSeq peers key = some a.seq ∧ ∀ e ∈ p.events, e.seq ≤ a.seq := by
  refine ⟨p.events.getLast h.nonempty, List.getLast_mem h.nonempty, ?_, fun e he => ?_⟩
  · rw [HopGroup.maxSeq, hp, Option.bind_some, List.getLast?_eq_getLast_of_ne_nil h.nonempty,
      Option.map_some]
  · exact h.sorted.rel_getLast_of_rel_getLast_getLast he (Int.le_refl _)

end Peers

/-! ## Hops -/

structure HopInv (evs : List (PingEvent F)) (ttl : Int) (hop : HopGroup F) : Prop where
  peers : ∀ key p, hop.peers.lookup key = some p → PeerInv evs ttl key p
  mem_order : ∀ key, key ∈ hop.peerOrder ↔ (hop.peers.lookup key).isSome = true
  nodup : hop.peerOrder.Nodup
  ranked : hop.peerOrder.Pairwise fun i j => rank hop.peers i ≤ rank hop.peers j

section Hops

variable {S : Sorter} {evs : List (PingEvent F)} {ev : PingEvent F} {ttl : Int}
  {hop : HopGroup F}

theorem HopInv.start (evs : List (PingEvent F)) (ttl : Int) :
    HopInv evs ttl ({ ttl := ttl } : HopGroup F) where
  peers := by
    intro key p hp
    cases hp
  mem_order := fun key => iff_of_false (fun hin => by cases hin) fun hin => by cases hin
  nodup := List.nodup_nil
  ranked := .nil

theorem HopInv.mono (h : HopInv evs ttl hop) : HopInv (evs ++ [ev]) ttl hop :=
  { h with peers := fun key p hp => (h.peers key p hp).mono }

theorem HopInv.addressee (h : HopInv evs ev.hopTTL hop) :
    PeerStart evs ev.hopTTL ev.peerKey (addressee hop ev) := by
  rw [Tui.addressee]
  cases hp : hop.peers.lookup ev.peerKey with
  | none => exact ⟨fun e he => absurd he List.not_mem_nil, .start _⟩
  | some p => exact ⟨(h.peers _ p hp).mem, (h.peers _ p hp).tally⟩

theorem HopInv.peers_write (h : HopInv evs ev.hopTTL hop) (hevs : ∀ e ∈ evs, 0 ≤ e.rttMs)
    (key : String) (p : PeerStats F) (hp : (hop.addEvent S ev).peers.lookup key = some p) :
    PeerInv (evs ++ [ev]) ev.hopTTL key p := by
  rcases Store.lookup_insert_eq_some hp with ⟨rfl, rfl⟩ | ⟨-, hp⟩
  · exact h.addressee.write hevs
  · exact (h.peers key p hp).mono

theorem HopInv.write (h : HopInv evs ev.hopTTL hop) (hevs : ∀ e ∈ evs, 0 ≤ e.rttMs) :
    HopInv (evs ++ [ev]) ev.hopTTL (hop.addEvent S ev) where
  peers := h.peers_write hevs
  mem_order := mem_peerOrder_addEvent h.mem_order
  nodup := nodup_peerOrder_addEvent h.mem_order h.nodup
  ranked := by
    obtain ⟨order, horder⟩ : ∃ order, (hop.addEvent S ev).peerOrder =
        S.sort (HopGroup.later (hop.addEvent S ev).peers) order := ⟨_, rfl⟩
    have hseq : ∀ key ∈ order, ∃ seq,
        HopGroup.maxSeq (hop.addEvent S ev).peers key = some seq := by
      intro key hkey
      rw [← Sorter.mem_sort, ← horder, mem_peerOrder_addEvent h.mem_order] at hkey
      obtain ⟨p, hp⟩ := Option.isSome_iff_exists.1 hkey
      obtain ⟨a, -, ha, -⟩ := (h.peers_write hevs key p hp).le_maxSeq hp
      exact ⟨a.seq, ha⟩
    rw [horder]
    exact Sorter.pairwise_sort (byKey_later hseq)

end Hops

/-! ## Statistics -/

/-- The order is that of the hops there are. -/
structure Listed (stats : TraceStats F) : Prop where
  mem_order : ∀ ttl, ttl ∈ stats.hopOrder ↔ (stats.hops.lookup ttl).isSome = true
  ascending : stats.hopOrder.Pairwise (· < ·)

section Listed

variable {S : Sorter} {ev : PingEvent F} {stats : TraceStats F}

theorem Listed.start : Listed ({} : TraceStats F) where
  mem_order := fun ttl => iff_of_false (fun hin => by cases hin) fun hin => by cases hin
  ascending := .nil

/-- A hop that is new is put into its place. -/
theorem ascending_sort (S : Sorter) {l : List Int} {ttl : Int} (h : l.Pairwise (· < ·))
    (hout : ttl ∉ l) : (S.sort (fun a b => decide (a < b)) (l ++ [ttl])).Pairwise (· < ·) := by
  have hnodup : (l ++ [ttl]).Nodup :=
    List.Nodup.append (h.imp fun hlt => Int.ne_of_lt hlt) (List.nodup_singleton _)
      (List.disjoint_singleton.2 hout)
  have hkey : ByKey (fun a b => decide (a < b)) id (l ++ [ttl]) := fun _ _ _ _ => rfl
  have hle := Sorter.pairwise_sort (S := S) hkey
  exact (hle.and (Sorter.nodup_sort hnodup)).imp fun hboth => lt_of_le_of_ne hboth.1 hboth.2

theorem Listed.mem_added (h : Listed stats) (ttl : Int) :
    ttl ∈ (added S stats ev).hopOrder ↔ ttl ∈ stats.hopOrder ∨ ttl = ev.hopTTL := by
  rw [Tui.added]
  dsimp only
  split
  next hold => exact (or_iff_left_of_imp fun heq => heq ▸ (h.mem_order _).2 hold).symm
  next => rw [Sorter.mem_sort, List.mem_append, List.mem_singleton]

theorem Listed.added (h : Listed stats) : Listed (added S stats ev) where
  mem_order := by
    intro ttl
    rw [h.mem_added, h.mem_order, Tui.added, Store.lookup_insert_eq]
    split
    next heq => exact iff_of_true (Or.inr heq) rfl
    next hne => exact or_iff_left hne
  ascending := by
    rw [Tui.added]
    dsimp only
    split
    next => exact h.ascending
    next hout => exact ascending_sort S h.ascending (mt (h.mem_order _).1 hout)

theorem Listed.lookup_prune (h : Listed stats) (hopTTL ttl : Int) :
    (stats.prune hopTTL).hops.lookup ttl =
      if ttl ≤ hopTTL then stats.hops.lookup ttl else none :=
  Tui.lookup_prune (fun ttl => (h.mem_order ttl).2) hopTTL ttl

theorem mem_hopOrder_prune (stats : TraceStats F) (hopTTL ttl : Int) :
    ttl ∈ (stats.prune hopTTL).hopOrder ↔ ttl ∈ stats.hopOrder ∧ ttl ≤ hopTTL := by
  rw [hopOrder_prune, List.mem_filter, decide_eq_true_iff]

theorem Listed.prune (h : Listed stats) (hopTTL : Int) : Listed (stats.prune hopTTL) where
  mem_order := by
    intro ttl
    rw [h.lookup_prune, mem_hopOrder_prune, h.mem_order]
    split
    next hle => exact and_iff_left hle
    next hlt => exact iff_of_false (fun hboth => hlt hboth.2) Bool.false_ne_true
  ascending := by
    rw [hopOrder_prune]
    exact h.ascending.filter _

theorem Listed.write (h : Listed stats) : Listed (stats.writeEvent S ev) := by
  rw [writeEvent_eq]
  split
  · exact h.added.prune ev.hopTTL
  · exact h.added

/-- The hops behind one event. -/
theorem Listed.mem_write (h : Listed stats) (ttl : Int) :
    ttl ∈ (stats.writeEvent S ev).hopOrder ↔
      (ttl ∈ stats.hopOrder ∨ ttl = ev.hopTTL) ∧ (ev.lastHop = true → ttl ≤ ev.hopTTL) := by
  rw [writeEvent_eq]
  split
  next hlast => rw [mem_hopOrder_prune, h.mem_added, imp_iff_right hlast]
  next hlast => rw [h.mem_added, and_iff_left fun htrue => absurd htrue hlast]

end Listed

theorem listed (S : Sorter) (evs : List (PingEvent F)) :
    Listed (evs.foldl (TraceStats.writeEvent S) {}) := by
  induction evs using List.reverseRecOn with
  | nil => exact .start
  | append_singleton evs ev ih =>
    rw [List.foldl_append]
    exact ih.write

/-- Every hop of the statistics has its invariants. -/
def HopsInv (evs : List (PingEvent F)) (stats : TraceStats F) : Prop :=
  ∀ ttl hop, stats.hops.lookup ttl = some hop → HopInv evs ttl hop

section Stats

variable {S : Sorter} {evs : List (PingEvent F)} {ev : PingEvent F} {stats : TraceStats F}

theorem HopsInv.hop (h : HopsInv evs stats) (ttl : Int) :
    HopInv evs ttl ((stats.hops.lookup ttl).getD { ttl := ttl }) := by
  cases hhop : stats.hops.lookup ttl with
  | none => exact .start evs ttl
  | some hop => exact h ttl hop hhop

theorem HopsInv.added (h : HopsInv evs stats) (hevs : ∀ e ∈ evs, 0 ≤ e.rttMs) :
    HopsInv (evs ++ [ev]) (added S stats ev) := by
  intro ttl hop hhop
  rcases Store.lookup_insert_eq_some hhop with ⟨rfl, rfl⟩ | ⟨-, hhop⟩
  · exact (h.hop _).write hevs
  · exact (h ttl hop hhop).mono

theorem HopsInv.prune (h : HopsInv evs stats) (hlisted : Listed stats) (hopTTL : Int) :
    HopsInv evs (stats.prune hopTTL) := by
  intro ttl hop hhop
  rw [hlisted.lookup_prune] at hhop
  split at hhop
  · exact h ttl hop hhop
  · cases hhop

/-- One event keeps the invariants. -/
theorem HopsInv.write (h : HopsInv evs stats) (hlisted : Listed stats)
    (hevs : ∀ e ∈ evs, 0 ≤ e.rttMs) : HopsInv (evs ++ [ev]) (stats.writeEvent S ev) := by
  rw [writeEvent_eq]
  split
  · exact (h.added hevs).prune hlisted.added ev.hopTTL
  · exact h.added hevs

end Stats

theorem hopsInv (S : Sorter) (evs : List (PingEvent F)) (hevs : ∀ ev ∈ evs, 0 ≤ ev.rttMs) :
    HopsInv evs (evs.foldl (TraceStats.writeEvent S) {}) := by
  induction evs using List.reverseRecOn with
  | nil =>
    intro ttl hop h
    cases h
  | append_singleton evs ev ih =>
    have hinit := fun e he => hevs e (List.mem_append_left _ he)
    rw [List.foldl_append]
    exact (ih hinit).write (listed S evs) hinit

/-! ## The law -/

structure PeerLaw (p : PeerStats F) : Prop where
  counted : p.receivedCount + p.lossCount = p.events.length
  sorted : p.events.Pairwise fun a b => a.seq ≤ b.seq
  /-- The sum wraps around. -/
  wrapped : p.totalRTT = (rtts p.events).sum.bmod (2 ^ 64)
  summed : (rtts p.events).sum < 2 ^ 63 → p.totalRTT = (rtts p.events).sum
  averaged : (rtts p.events).sum < 2 ^ 63 → p.receivedCount > 0 →
    p.minRTT ≤ p.avgRTT ∧ p.avgRTT ≤ p.maxRTT

structure HopLaw (hop : HopGroup F) : Prop where
  perm : hop.peerOrder.Perm hop.peers.keys
  /-- No packet of a peer is later than all those of a peer in front of it. -/
  latestFirst : hop.peerOrder.Pairwise fun i j =>
    ∀ p ∈ hop.peers.lookup i, ∀ q ∈ hop.peers.lookup j,
      ∀ b ∈ q.events, ∃ a ∈ p.events, b.seq ≤ a.seq
  peers : ∀ key, ∀ p ∈ hop.peers.lookup key, PeerLaw p

structure TraceLaw (stats : TraceStats F) : Prop where
  ascending : stats.hopOrder.Pairwise (· < ·)
  keys : ∀ ttl, ttl ∈ stats.hopOrder ↔ ttl ∈ stats.hops.keys
  hops : ∀ ttl, ∀ hop ∈ stats.hops.lookup ttl, HopLaw hop

section Law

variable {evs : List (PingEvent F)} {ttl : Int} {key : String} {p : PeerStats F}
  {hop : HopGroup F} {stats : TraceStats F}

/-- Every event is a reply or a timeout. -/
theorem length_rtts_add_timeouts (evs : List (PingEvent F)) :
    ((rtts evs).length : Int) + (evs.countP fun ev => ev.timeout) = evs.length := by
  induction evs with
  | nil => rfl
  | cons ev evs ih =>
    rw [rtts_cons, List.length_append, List.countP_cons, List.length_cons]
    cases ev.timeout <;> simp <;> omega

theorem PeerInv.law (h : PeerInv evs ttl key p) (hevs : ∀ ev ∈ evs, 0 ≤ ev.rttMs) :
    PeerLaw p where
  counted := by
    rw [h.tally.summary.count, h.tally.loss]
    exact length_rtts_add_timeouts _
  sorted := h.sorted
  wrapped := h.tally.summary.total
  summed := h.tally.summary.total_eq (rtts_nonneg fun e he => hevs e (h.mem e he).1)
  averaged := by
    intro hfits hpos
    rw [PeerStats.avgRTT, if_neg (by omega)]
    exact h.tally.summary.average (rtts_nonneg fun e he => hevs e (h.mem e he).1) hfits hpos

theorem HopInv.law (h : HopInv evs ttl hop) (hevs : ∀ ev ∈ evs, 0 ≤ ev.rttMs) : HopLaw hop where
  perm := by
    refine (List.perm_ext_iff_of_nodup h.nodup (AList.keys_nodup _)).2 fun key => ?_
    rw [h.mem_order, AList.lookup_isSome, AList.mem_keys]
  latestFirst := by
    refine h.ranked.imp fun {i j} hij p hp q hq b hb => ?_
    obtain ⟨a, ha, hmaxp, -⟩ := (h.peers i p hp).le_maxSeq hp
    obtain ⟨c, -, hmaxq, hle⟩ := (h.peers j q hq).le_maxSeq hq
    rw [rank, rank, hmaxp, hmaxq, Option.getD_some, Option.getD_some] at hij
    have hbc := hle b hb
    exact ⟨a, ha, by omega⟩
  peers := fun key p hp => (h.peers key p hp).law hevs

theorem Listed.law (h : Listed stats) (hhops : HopsInv evs stats)
    (hevs : ∀ ev ∈ evs, 0 ≤ ev.rttMs) : TraceLaw stats where
  ascending := h.ascending
  keys := by
    intro ttl
    rw [h.mem_order, AList.lookup_isSome, AList.mem_keys]
  hops := fun ttl hop hhop => (hhops ttl hop hhop).law hevs

end Law

/-- After any events for which `make` does not panic the law holds, and if the last of them is of the
last hop, there is no hop behind it. -/
theorem trace_invariants (hasRoom : Nat → Bool) (S : Sorter) (evs : List (PingEvent F))
    (hevs : ∀ ev ∈ evs, 0 ≤ ev.rttMs) {stats : TraceStats F}
    (hstats : TraceStats.writeEvents hasRoom S evs = some stats) :
    TraceLaw stats ∧ ∀ ev ∈ evs.getLast?, ev.lastHop = true →
      ∀ ttl ∈ stats.hops.keys, ttl ≤ ev.hopTTL := by
  obtain rfl := TraceStats.eq_foldl_of_writeEvents hstats
  have hlaw := (listed S evs).law (hopsInv S evs hevs) hevs
  refine ⟨hlaw, fun ev hev hlast ttl hin => ?_⟩
  obtain ⟨init, rfl⟩ := List.getLast?_eq_some_iff.1 hev
  rw [← hlaw.keys, List.foldl_append] at hin
  exact (((listed S init).mem_write ttl).1 hin).2 hlast

/-- Two peers in the second hop, a timeout, and a last hop that deletes the third. -/
theorem trace_invariants_three_hops :
    ∃ stats, TraceStats.writeEvents roomForHops merge threeHops = some stats ∧ TraceLaw stats ∧
      ∀ ttl ∈ stats.hops.keys, ttl ≤ 2 := by
  obtain ⟨hlaw, hlast⟩ := trace_invariants roomForHops merge threeHops (by decide) rfl
  exact ⟨_, rfl, hlaw, hlast _ rfl rfl⟩

/-- Two replies whose sum wraps around. -/
def wrappedReplies : List (PingEvent Unit) :=
  [{ seq := 1, originTTL := 1, rttMs := 2 ^ 62, peer := "192.0.2.1" },
    { seq := 2, originTTL := 1, rttMs := 2 ^ 62, peer := "192.0.2.1" }]

/-- The total is not the sum, and the average is below the minimum. -/
theorem total_wraps :
    (∀ ev ∈ wrappedReplies, 0 ≤ ev.rttMs) ∧
      ∃ stats hop p, TraceStats.writeEvents roomForHops merge wrappedReplies = some stats ∧
        stats.hops.lookup 1 = some hop ∧ hop.peers.lookup "192.0.2.1" = some p ∧
        p.receivedCount = 2 ∧ p.totalRTT = -2 ^ 63 ∧ ¬p.minRTT ≤ p.avgRTT :=
  ⟨by decide, _, _, _, rfl, rfl, rfl, by decide, by decide, by decide⟩

end CloudPing.Tui

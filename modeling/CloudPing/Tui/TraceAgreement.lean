import CloudPing.Tui.EventConverters
import CloudPing.Tui.PingStatistics
import CloudPing.Tui.Traceroute
import CloudPing.Web.TraceStats
import Mathlib.Algebra.BigOperators.Group.List.Basic
import Mathlib.Data.Int.Order.Basic

/-!
# The two traceroutes

The builder of the bot changes its maps and slices in place, and that of the browser makes new
ones.  If they are given the same events, and no two events have one sequence number, they show
the same (`same_stats`), whichever sorters they use.

Only the sums of the round trip times differ where they are large: that of the bot wraps around, and
that of the browser is rounded (`SameTotal`).

What decides the order of two peers is the last event of each.  A peer has events of its own key
only (`PeerOK`), so these are two events, with two numbers, and there is one order.
-/

namespace CloudPing.Tui

open Conc Ecma Sorting Web

variable {F : Type}

/-! ## What both show -/

/-- The round trip times add up to at most `2 ^ 53`, whatever their signs. -/
def SafeSum (evs : List (PingEvent F)) : Prop := ((rtts evs).map Int.natAbs).sum ≤ 2 ^ 53

/-- Where they do, both totals are the sum. -/
def SameTotal (p : PeerStats F) (q : Web.PeerStats F) : Prop :=
  SafeSum p.events → p.totalRTT = (rtts p.events).sum ∧ q.totalRTT = (rtts p.events).sum

structure SamePeer (p : PeerStats F) (q : Web.PeerStats F) : Prop where
  events : List.Forall₂ Matches p.events q.events
  receivedCount : p.receivedCount = q.receivedCount
  lossCount : p.lossCount = q.lossCount
  minRTT : p.minRTT = q.minRTT
  maxRTT : p.maxRTT = q.maxRTT
  totalRTT : SameTotal p q
  peerRDNS : p.peerRDNS = q.peerRDNS
  asn : p.asn = q.asn
  isp : p.isp = q.isp
  city : p.city = q.city
  countryAlpha2 : p.countryAlpha2 = q.countryAlpha2

structure SameHop (hop : HopGroup F) (hop' : Web.HopGroup F) : Prop where
  peers : ∀ key, Option.Rel SamePeer (hop.peers.lookup key) (hop'.peers.get key)
  peerOrder : hop.peerOrder = hop'.peerOrder

structure SameStats (stats : TraceStats F) (stats' : Web.TraceStats F) : Prop where
  hops : ∀ ttl, Option.Rel SameHop (stats.hops.lookup ttl) (stats'.hops.get ttl)
  hopOrder : stats.hopOrder = stats'.hopOrder

/-! ## The books of the bot -/

/-- The peer has some of the events, all of them its own. -/
structure PeerOK (evs : List (PingEvent F)) (key : String) (p : PeerStats F) : Prop where
  nonempty : p.events ≠ []
  mem : ∀ ev ∈ p.events, ev ∈ evs ∧ ev.peerKey = key
  nodup : (p.events.map PingEvent.seq).Nodup

structure HopOK (evs : List (PingEvent F)) (hop : HopGroup F) : Prop where
  peers : ∀ key p, hop.peers.lookup key = some p → PeerOK evs key p
  mem_order : ∀ key, key ∈ hop.peerOrder ↔ (hop.peers.lookup key).isSome = true
  nodup : hop.peerOrder.Nodup

structure StatsOK (evs : List (PingEvent F)) (stats : TraceStats F) : Prop where
  hops : ∀ ttl hop, stats.hops.lookup ttl = some hop → HopOK evs hop
  mem_order : ∀ ttl, (stats.hops.lookup ttl).isSome = true → ttl ∈ stats.hopOrder

section

variable {evs : List (PingEvent F)} {ev : PingEvent F}

theorem PeerOK.mono {key : String} {p : PeerStats F} (h : PeerOK evs key p) :
    PeerOK (evs ++ [ev]) key p :=
  ⟨h.nonempty, fun e he => ⟨List.mem_append_left _ (h.mem e he).1, (h.mem e he).2⟩, h.nodup⟩

theorem HopOK.mono {hop : HopGroup F} (h : HopOK evs hop) : HopOK (evs ++ [ev]) hop :=
  ⟨fun key p hp => (h.peers key p hp).mono, h.mem_order, h.nodup⟩

end

/-! ## Events -/

section Events

variable {ev : PingEvent F} {traceEV : TraceEvent F}

theorem hopTTL_eq (h : Matches ev traceEV) : ev.hopTTL = Web.TraceStats.hopTTL traceEV := by
  rw [PingEvent.hopTTL, Web.TraceStats.hopTTL, h.originTTL]

theorem peer_eq (h : Matches ev traceEV) : ev.peer = traceEV.peer :=
  congrArg ReplyView.peer h.view

theorem peerKey_eq (h : Matches ev traceEV) : ev.peerKey = Web.HopGroup.peerKey traceEV := by
  rw [PingEvent.peerKey, Web.HopGroup.peerKey, h.timeout, peer_eq h]

theorem lastHop_eq (h : Matches ev traceEV) : ev.lastHop = traceEV.lastHop :=
  congrArg ReplyView.lastHop h.view

end Events

/-! ## Sums -/

section Sums

variable {evs evs' : List (PingEvent F)} {ev : PingEvent F}

theorem natAbs_sum_le (l : List Int) : l.sum.natAbs ≤ (l.map Int.natAbs).sum := by
  induction l with
  | nil => exact Nat.le_refl 0
  | cons a l ih =>
    rw [List.sum_cons, List.map_cons, List.sum_cons]
    omega

theorem SafeSum.perm (h : SafeSum evs) (hp : evs.Perm evs') : SafeSum evs' := by
  rwa [SafeSum, ← ((rtts_perm hp).map Int.natAbs).sum_eq]

theorem SafeSum.replied (h : SafeSum (evs ++ [ev])) (ht : ¬ev.timeout = true) :
    SafeSum evs ∧ ((rtts evs).sum + ev.rttMs).natAbs ≤ 2 ^ 53 := by
  have hle := natAbs_sum_le (rtts evs)
  rw [SafeSum, rtts_replied ht, List.map_append, List.sum_append, List.map_singleton,
    List.sum_singleton] at h
  rw [SafeSum]
  constructor <;> omega

end Sums

/-! ## Peers -/

section Peers

variable {S T : Sorter} {p : PeerStats F} {q : Web.PeerStats F} {ev : PingEvent F}
  {traceEV : TraceEvent F}

theorem byKey_seq (l : List (PingEvent F)) :
    ByKey (fun a b => decide (a.seq < b.seq)) PingEvent.seq l :=
  fun _ _ _ _ => rfl

theorem byKey_traceSeq (l : List (TraceEvent F)) :
    ByKey (fun a b => decide (a.seq - b.seq < 0)) TraceEvent.seq l := by
  intro a _ b _
  exact decide_eq_decide.2 (by omega)

theorem sorted_events (h : SamePeer p q) (hm : Matches ev traceEV)
    (hnodup : ((p.events ++ [ev]).map PingEvent.seq).Nodup) :
    List.Forall₂ Matches (S.sort (fun a b => decide (a.seq < b.seq)) (p.events ++ [ev]))
      (T.sortBy (fun a b => a.seq - b.seq) (q.events ++ [traceEV])) :=
  forall₂_sort (List.rel_append h.events (.cons hm .nil)) (fun _ _ h => h.seq) (byKey_seq _)
    (byKey_traceSeq _) hnodup

theorem events_addEvent (S : Sorter) (p : PeerStats F) (ev : PingEvent F) :
    (p.addEvent S ev).events =
      S.sort (fun a b => decide (a.seq < b.seq)) (p.events ++ [ev]) := by
  rw [PeerStats.addEvent]
  split <;> rfl

theorem perm_addEvent (S : Sorter) (p : PeerStats F) (ev : PingEvent F) :
    (p.addEvent S ev).events.Perm (p.events ++ [ev]) := by
  rw [events_addEvent]
  exact S.perm _ _

/-- A reply is added to both sums, and neither wraps nor is rounded. -/
theorem SameTotal.received (h : SameTotal p q) (hm : Matches ev traceEV)
    (ht : ¬ev.timeout = true) : SameTotal (p.addEvent S ev) (q.writeEvent T traceEV) := by
  intro hsafe
  have hperm := perm_addEvent S p ev
  obtain ⟨hbefore, hsum⟩ := (hsafe.perm hperm).replied ht
  obtain ⟨hp, hq⟩ := h hbefore
  have ht' : ¬traceEV.timeout = true := hm.timeout ▸ ht
  have hp' : (p.addEvent S ev).totalRTT = Word.add p.totalRTT ev.rttMs := by
    rw [PeerStats.addEvent, if_neg ht]
    rfl
  have hq' : (q.writeEvent T traceEV).totalRTT = Number.add q.totalRTT ev.rttMs := by
    rw [Web.PeerStats.writeEvent, if_neg ht', hm.rttMs]
  rw [hp', hq', hp, hq, (rtts_perm hperm).sum_eq, rtts_replied ht, List.sum_append,
    List.sum_singleton]
  exact ⟨Word.add_of_fits ⟨by omega, by omega⟩, Number.add_of_safe hsum⟩

theorem SameTotal.lost (h : SameTotal p q) (hm : Matches ev traceEV) (ht : ev.timeout = true) :
    SameTotal (p.addEvent S ev) (q.writeEvent T traceEV) := by
  intro hsafe
  have hperm := perm_addEvent S p ev
  have hrtts : (rtts (p.addEvent S ev).events).Perm (rtts p.events) := by
    have hall := rtts_perm hperm
    rwa [rtts_lost ht] at hall
  have hbefore : SafeSum p.events := by
    rwa [SafeSum, ← (hrtts.map Int.natAbs).sum_eq]
  have ht' : traceEV.timeout = true := hm.timeout ▸ ht
  have hp' : (p.addEvent S ev).totalRTT = p.totalRTT := by rw [PeerStats.addEvent, if_pos ht]
  have hq' : (q.writeEvent T traceEV).totalRTT = q.totalRTT := by
    rw [Web.PeerStats.writeEvent, if_pos ht']
  rw [hp', hq', hrtts.sum_eq]
  exact h hbefore

/-- The peer of the browser for an event that is no timeout. -/
theorem SamePeer.received (h : SamePeer p q) (hm : Matches ev traceEV)
    (hnodup : ((p.events ++ [ev]).map PingEvent.seq).Nodup) (ht : traceEV.timeout = false) :
    SamePeer (p.addEvent S ev) (q.writeEvent T traceEV) := by
  have hevents := sorted_events (S := S) (T := T) h hm hnodup
  have hrdns : ev.peerRDNS = traceEV.peerRDNS := congrArg ReplyView.peerRDNS hm.view
  have hasn : ev.asn = traceEV.asn := congrArg ReplyView.asn hm.view
  have hisp : ev.isp = traceEV.isp := congrArg ReplyView.isp hm.view
  have hcity : ev.city = traceEV.city := congrArg ReplyView.city hm.view
  have hcountry : ev.countryAlpha2 = traceEV.countryAlpha2 :=
    congrArg ReplyView.countryAlpha2 hm.view
  have htotal := h.totalRTT.received (S := S) (T := T) hm (by rw [hm.timeout, ht]; decide)
  rw [PeerStats.addEvent, Web.PeerStats.writeEvent, hm.timeout, ht, if_neg (by decide),
    if_neg (by decide), PeerStats.receive, hm.rttMs, hrdns, hasn, hisp, hcity, hcountry] at htotal ⊢
  exact
    { events := hevents
      receivedCount := congrArg (· + 1) h.receivedCount
      lossCount := h.lossCount
      minRTT := by rw [h.minRTT]
      maxRTT := by rw [h.maxRTT]
      totalRTT := htotal
      peerRDNS := by rw [h.peerRDNS]
      asn := by rw [h.asn]
      isp := by rw [h.isp]
      city := by rw [h.city]
      countryAlpha2 := by rw [h.countryAlpha2] }

theorem SamePeer.write (h : SamePeer p q) (hm : Matches ev traceEV)
    (hnodup : ((p.events ++ [ev]).map PingEvent.seq).Nodup) :
    SamePeer (p.addEvent S ev) (q.writeEvent T traceEV) := by
  cases ht : traceEV.timeout with
  | true =>
    have hevents := sorted_events (S := S) (T := T) h hm hnodup
    have htotal := h.totalRTT.lost (S := S) (T := T) hm (hm.timeout.trans ht)
    rw [PeerStats.addEvent, Web.PeerStats.writeEvent, hm.timeout, ht, if_pos rfl, if_pos rfl]
      at htotal ⊢
    exact
      { h with events := hevents, lossCount := congrArg (· + 1) h.lossCount, totalRTT := htotal }
  | false => exact h.received hm hnodup ht

theorem PeerOK.write {evs : List (PingEvent F)} {p : PeerStats F}
    (hmem : ∀ e ∈ p.events, e ∈ evs ∧ e.peerKey = ev.peerKey)
    (hnodup : ((p.events ++ [ev]).map PingEvent.seq).Nodup) :
    PeerOK (evs ++ [ev]) ev.peerKey (p.addEvent S ev) := by
  have hperm := perm_addEvent S p ev
  refine ⟨fun hnil => ?_, fun e he => ?_, (hperm.map _).nodup_iff.2 hnodup⟩
  · rw [hnil] at hperm
    exact List.append_ne_nil_of_right_ne_nil _ (List.cons_ne_nil _ _) hperm.nil_eq.symm
  · rcases List.mem_append.1 (hperm.mem_iff.1 he) with he | he
    · exact ⟨List.mem_append_left _ (hmem e he).1, (hmem e he).2⟩
    · obtain rfl := List.mem_singleton.1 he
      exact ⟨List.mem_append_right _ he, rfl⟩

end Peers

/-! ## The order of the peers -/

section Order

variable {evs : List (PingEvent F)} {peers : Store String (PeerStats F)}
  {peers' : OrderedMap String (Web.PeerStats F)} {l : List String} {key : String}

/-- Where a peer stands: the later its last packet, the further in front. -/
def rank (peers : Store String (PeerStats F)) (key : String) : Int :=
  -(HopGroup.maxSeq peers key).getD 0

theorem maxSeq_eq (h : ∀ key, Option.Rel SamePeer (peers.lookup key) (peers'.get key))
    (key : String) : HopGroup.maxSeq peers key = Web.HopGroup.maxSeq peers' key := by
  have hkey := h key
  rw [HopGroup.maxSeq, Web.HopGroup.maxSeq]
  generalize peers.lookup key = p, peers'.get key = q at hkey
  cases hkey with
  | none => rfl
  | some hpq =>
    have hseqs := map_key_eq hpq.events fun _ _ (h : Matches _ _) => h.seq
    rw [Option.bind_some, Option.bind_some, ← List.getLast?_map, hseqs, List.getLast?_map]

/-- The last packet of a peer is one of its own. -/
theorem PeerOK.exists_maxSeq {p : PeerStats F} (h : PeerOK evs key p)
    (hp : peers.lookup key = some p) :
    ∃ e ∈ evs, e.peerKey = key ∧ HopGroup.maxSeq peers key = some e.seq := by
  have hlast := List.getLast_mem h.nonempty
  refine ⟨_, (h.mem _ hlast).1, (h.mem _ hlast).2, ?_⟩
  rw [HopGroup.maxSeq, hp, Option.bind_some, List.getLast?_eq_getLast_of_ne_nil h.nonempty,
    Option.map_some]

theorem byKey_later (h : ∀ key ∈ l, ∃ seq, HopGroup.maxSeq peers key = some seq) :
    ByKey (HopGroup.later peers) (rank peers) l := by
  intro i hi j hj
  obtain ⟨a, ha⟩ := h i hi
  obtain ⟨b, hb⟩ := h j hj
  simp only [HopGroup.later, rank, ha, hb, Option.getD_some]
  exact decide_eq_decide.2 (by omega)

theorem byKey_comparePeers (h : ∀ key ∈ l, ∃ e ∈ evs, e.peerKey = key ∧
      HopGroup.maxSeq peers key = some e.seq)
    (hsame : ∀ key, HopGroup.maxSeq peers key = Web.HopGroup.maxSeq peers' key) :
    ByKey (fun a b => decide (Web.HopGroup.comparePeers peers' a b < 0)) (rank peers) l := by
  intro i hi j hj
  obtain ⟨a, -, -, ha⟩ := h i hi
  obtain ⟨b, -, -, hb⟩ := h j hj
  simp only [Web.HopGroup.comparePeers, rank, ← hsame, ha, hb, Option.getD_some]
  exact decide_eq_decide.2 (by omega)

/-- Two peers do not have the same last packet. -/
theorem rank_injOn (hevs : (evs.map PingEvent.seq).Nodup)
    (h : ∀ key ∈ l, ∃ e ∈ evs, e.peerKey = key ∧ HopGroup.maxSeq peers key = some e.seq) :
    ∀ i ∈ l, ∀ j ∈ l, rank peers i = rank peers j → i = j := by
  intro i hi j hj hij
  obtain ⟨a, hamem, rfl, ha⟩ := h i hi
  obtain ⟨b, hbmem, rfl, hb⟩ := h j hj
  rw [rank, rank, ha, hb, Option.getD_some, Option.getD_some] at hij
  rw [injOn_of_nodup hevs a hamem b hbmem (by omega)]

end Order

/-! ## Hops -/

theorem isSome_eq_of_rel {α β : Type} {R : α → β → Prop} {a : Option α} {b : Option β}
    (h : Option.Rel R a b) : a.isSome = b.isSome := by
  cases h <;> rfl

section Hops

variable {S T : Sorter} {evs : List (PingEvent F)} {ev : PingEvent F} {traceEV : TraceEvent F}
  {hop : HopGroup F} {hop' : Web.HopGroup F}

/-- The peer in the hop that an event is for, which may be a new one. -/
def addressee (hop : HopGroup F) (ev : PingEvent F) : PeerStats F :=
  (hop.peers.lookup ev.peerKey).getD { peer := ev.peer }

theorem addressee_mem (h : HopOK evs hop) (ev : PingEvent F) :
    ∀ e ∈ (addressee hop ev).events, e ∈ evs ∧ e.peerKey = ev.peerKey := by
  intro e he
  rw [addressee] at he
  cases hp : hop.peers.lookup ev.peerKey with
  | none =>
    rw [hp] at he
    cases he
  | some p =>
    rw [hp] at he
    exact (h.peers _ p hp).mem e he

theorem addressee_nodup (h : HopOK evs hop) (hnew : ev.seq ∉ evs.map PingEvent.seq) :
    (((addressee hop ev).events ++ [ev]).map PingEvent.seq).Nodup := by
  have hnodup : ((addressee hop ev).events.map PingEvent.seq).Nodup := by
    rw [addressee]
    cases hp : hop.peers.lookup ev.peerKey with
    | none => exact List.nodup_nil
    | some p => exact (h.peers _ p hp).nodup
  have hout : ev.seq ∉ (addressee hop ev).events.map PingEvent.seq := by
    intro hin
    obtain ⟨e, he, heq⟩ := List.mem_map.1 hin
    exact hnew (heq ▸ List.mem_map_of_mem (addressee_mem h ev e he).1)
  rw [List.map_append, List.map_singleton]
  exact hnodup.append (List.nodup_singleton _) (List.disjoint_singleton.2 hout)

/-- The peers of the hop, with the event. -/
theorem lookup_addEvent (S : Sorter) (hop : HopGroup F) (ev : PingEvent F) (key : String) :
    (hop.addEvent S ev).peers.lookup key =
      if key = ev.peerKey then some ((addressee hop ev).addEvent S ev) else hop.peers.lookup key :=
  Store.lookup_insert_eq _ _ _ _

theorem mem_peerOrder_addEvent
    (h : ∀ key, key ∈ hop.peerOrder ↔ (hop.peers.lookup key).isSome = true) (key : String) :
    key ∈ (hop.addEvent S ev).peerOrder ↔ ((hop.addEvent S ev).peers.lookup key).isSome = true := by
  rw [lookup_addEvent, HopGroup.addEvent, Sorter.mem_sort]
  by_cases hkey : key = ev.peerKey
  · subst hkey
    rw [if_pos rfl]
    refine iff_of_true ?_ rfl
    split
    · next hin => exact (h _).2 hin
    · exact List.mem_append_right _ (List.mem_singleton_self _)
  · rw [if_neg hkey, ← h key]
    split
    · exact Iff.rfl
    · rw [List.mem_append, List.mem_singleton]
      exact or_iff_left hkey

theorem nodup_peerOrder_addEvent
    (h : ∀ key, key ∈ hop.peerOrder ↔ (hop.peers.lookup key).isSome = true)
    (hnodup : hop.peerOrder.Nodup) : (hop.addEvent S ev).peerOrder.Nodup := by
  rw [HopGroup.addEvent]
  refine Sorter.nodup_sort ?_
  split
  · exact hnodup
  · next hout =>
    refine hnodup.append (List.nodup_singleton _) (List.disjoint_singleton.2 fun hin => ?_)
    exact hout ((h _).1 hin)

theorem HopOK.write (h : HopOK evs hop) (hnew : ev.seq ∉ evs.map PingEvent.seq) :
    HopOK (evs ++ [ev]) (hop.addEvent S ev) where
  peers := by
    intro key p hp
    rcases Store.lookup_insert_eq_some hp with ⟨rfl, rfl⟩ | ⟨-, hp⟩
    · exact PeerOK.write (addressee_mem h ev) (addressee_nodup h hnew)
    · exact (h.peers key p hp).mono
  mem_order := mem_peerOrder_addEvent h.mem_order
  nodup := nodup_peerOrder_addEvent h.mem_order h.nodup

theorem SamePeer.start (ev : PingEvent F) : SamePeer { peer := ev.peer } ({} : Web.PeerStats F) :=
  ⟨.nil, rfl, rfl, rfl, rfl, fun _ => ⟨rfl, rfl⟩, rfl, rfl, rfl, rfl, rfl⟩

/-- The peers of an event in the two hops are the same. -/
theorem SameHop.addressee (h : SameHop hop hop') (hm : Matches ev traceEV) :
    SamePeer (addressee hop ev) ((hop'.peers.get (Web.HopGroup.peerKey traceEV)).getD {}) := by
  have hkey := h.peers ev.peerKey
  rw [Tui.addressee, ← peerKey_eq hm]
  generalize hop.peers.lookup ev.peerKey = p, hop'.peers.get ev.peerKey = q at hkey
  cases hkey with
  | none => exact .start ev
  | some hpq => exact hpq

theorem SameHop.peers_write (h : SameHop hop hop') (hok : HopOK evs hop) (hm : Matches ev traceEV)
    (hnew : ev.seq ∉ evs.map PingEvent.seq) (key : String) :
    Option.Rel SamePeer ((hop.addEvent S ev).peers.lookup key)
      ((hop'.writeEvent T traceEV).peers.get key) := by
  rw [lookup_addEvent, Web.HopGroup.writeEvent, OrderedMap.get_set, ← peerKey_eq hm]
  split
  · refine .some ?_
    have hpeer := h.addressee hm
    rw [← peerKey_eq hm] at hpeer
    exact hpeer.write hm (addressee_nodup hok hnew)
  · exact h.peers key

theorem SameHop.write (h : SameHop hop hop') (hok : HopOK evs hop) (hm : Matches ev traceEV)
    (hevs : ((evs ++ [ev]).map PingEvent.seq).Nodup)
    (hnew : ev.seq ∉ evs.map PingEvent.seq) :
    SameHop (hop.addEvent S ev) (hop'.writeEvent T traceEV) where
  peers := h.peers_write hok hm hnew
  peerOrder := by
    have hpeers := fun key => h.peers_write (S := S) (T := T) hok hm hnew key
    have hwrite := hok.write (S := S) hnew
    obtain ⟨order, horder⟩ : ∃ order, (hop.addEvent S ev).peerOrder =
        S.sort (HopGroup.later (hop.addEvent S ev).peers) order := ⟨_, rfl⟩
    have hmem : ∀ key, key ∈ order ↔
        ((hop.addEvent S ev).peers.lookup key).isSome = true := by
      intro key
      rw [← hwrite.mem_order, horder, Sorter.mem_sort]
    have hlast : ∀ key ∈ order, ∃ e ∈ evs ++ [ev], e.peerKey = key ∧
        HopGroup.maxSeq (hop.addEvent S ev).peers key = some e.seq := by
      intro key hkey
      obtain ⟨p, hp⟩ := Option.isSome_iff_exists.1 ((hmem key).1 hkey)
      exact (hwrite.peers key p hp).exists_maxSeq hp
    have hnodup : order.Nodup := by
      have hsorted := hwrite.nodup
      rw [horder] at hsorted
      exact (S.perm _ _).nodup_iff.1 hsorted
    have hperm : (hop'.writeEvent T traceEV).peers.keys.Perm order := by
      refine (List.perm_ext_iff_of_nodup (OrderedMap.nodup_keys _) hnodup).2 fun key => ?_
      rw [OrderedMap.mem_keys_iff, hmem, isSome_eq_of_rel (hpeers key)]
    have hcompare := (byKey_comparePeers hlast (maxSeq_eq hpeers)).perm hperm
    rw [horder]
    have hseq : ∀ key ∈ order, ∃ seq,
        HopGroup.maxSeq (hop.addEvent S ev).peers key = some seq := by
      intro key hkey
      obtain ⟨e, -, -, he⟩ := hlast key hkey
      exact ⟨e.seq, he⟩
    exact Sorter.sort_eq_sort (byKey_later hseq) hcompare (rank_injOn hevs hlast) hperm

end Hops

/-! ## The last hop -/

section LastHop

variable {stats : TraceStats F} {hopTTL ttl : Int}

theorem hopOrder_keepHops (order : List Int) (stats : TraceStats F) (hopTTL : Int) :
    (order.foldl (TraceStats.keepHop hopTTL) stats).hopOrder =
      stats.hopOrder ++ order.filter (· ≤ hopTTL) := by
  induction order generalizing stats with
  | nil => exact (List.append_nil _).symm
  | cons t order ih =>
    rw [List.foldl_cons, ih, TraceStats.keepHop, List.filter_cons]
    by_cases ht : t ≤ hopTTL
    · simp [ht]
    · simp [ht]

theorem lookup_keepHops (order : List Int) (stats : TraceStats F) (hopTTL ttl : Int) :
    (order.foldl (TraceStats.keepHop hopTTL) stats).hops.lookup ttl =
      if ttl ∈ order ∧ ¬ttl ≤ hopTTL then none else stats.hops.lookup ttl := by
  induction order generalizing stats with
  | nil => simp
  | cons t order ih =>
    rw [List.foldl_cons, ih, TraceStats.keepHop]
    by_cases ht : t ≤ hopTTL
    · rw [if_pos ht]
      have hmem : (ttl ∈ t :: order ∧ ¬ttl ≤ hopTTL) ↔ (ttl ∈ order ∧ ¬ttl ≤ hopTTL) := by
        rw [List.mem_cons]
        refine ⟨fun h => ⟨h.1.resolve_left ?_, h.2⟩, fun h => ⟨Or.inr h.1, h.2⟩⟩
        rintro rfl
        exact h.2 ht
      simp only [hmem]
    · rw [if_neg ht, Store.lookup_erase_eq]
      by_cases heq : ttl = t
      · subst heq
        simp [ht]
      · simp [heq]

theorem hopOrder_prune (stats : TraceStats F) (hopTTL : Int) :
    (stats.prune hopTTL).hopOrder = stats.hopOrder.filter (· ≤ hopTTL) :=
  hopOrder_keepHops stats.hopOrder _ hopTTL

/-- The hops that are left, where every hop is in the order. -/
theorem lookup_prune (h : ∀ ttl, (stats.hops.lookup ttl).isSome = true → ttl ∈ stats.hopOrder)
    (hopTTL ttl : Int) :
    (stats.prune hopTTL).hops.lookup ttl =
      if ttl ≤ hopTTL then stats.hops.lookup ttl else none := by
  rw [TraceStats.prune, lookup_keepHops]
  by_cases hle : ttl ≤ hopTTL
  · rw [if_neg fun hboth => hboth.2 hle, if_pos hle]
  · rw [if_neg hle]
    split
    · rfl
    · next hout =>
      have hnot : ttl ∉ stats.hopOrder := fun hin => hout ⟨hin, hle⟩
      exact Option.not_isSome_iff_eq_none.1 fun hin => hnot (h ttl hin)

end LastHop

/-! ## Statistics -/

section Stats

variable {S T : Sorter} {evs : List (PingEvent F)} {ev : PingEvent F} {traceEV : TraceEvent F}
  {stats : TraceStats F} {stats' : Web.TraceStats F}

/-- With the event, before hops are deleted. -/
def added (S : Sorter) (stats : TraceStats F) (ev : PingEvent F) : TraceStats F where
  hops := stats.hops.insert ev.hopTTL
    (((stats.hops.lookup ev.hopTTL).getD { ttl := ev.hopTTL }).addEvent S ev)
  hopOrder :=
    if (stats.hops.lookup ev.hopTTL).isSome then stats.hopOrder
    else S.sort (fun a b => decide (a < b)) (stats.hopOrder ++ [ev.hopTTL])

theorem writeEvent_eq : stats.writeEvent S ev =
    if ev.lastHop then (added S stats ev).prune ev.hopTTL else added S stats ev := rfl

/-- The same in the browser. -/
def traceAdded (S : Sorter) (stats : Web.TraceStats F) (ev : TraceEvent F) : Web.TraceStats F where
  hops := stats.hops.set (Web.TraceStats.hopTTL ev)
    (((stats.hops.get (Web.TraceStats.hopTTL ev)).getD
      { ttl := Web.TraceStats.hopTTL ev }).writeEvent S ev)
  hopOrder :=
    if (stats.hops.get (Web.TraceStats.hopTTL ev)).isSome then stats.hopOrder
    else S.sortBy (fun a b => a - b) (stats.hopOrder ++ [Web.TraceStats.hopTTL ev])

def tracePrune (stats : Web.TraceStats F) (hopTTL : Int) : Web.TraceStats F where
  hops := stats.hops.filter (· ≤ hopTTL)
  hopOrder := stats.hopOrder.filter (· ≤ hopTTL)

theorem traceWriteEvent_eq : stats'.writeEvent T traceEV =
    if traceEV.lastHop then
      tracePrune (traceAdded T stats' traceEV) (Web.TraceStats.hopTTL traceEV)
    else traceAdded T stats' traceEV := rfl

theorem StatsOK.hop (h : StatsOK evs stats) (ttl : Int) :
    HopOK evs ((stats.hops.lookup ttl).getD { ttl := ttl }) := by
  cases hhop : stats.hops.lookup ttl with
  | none =>
    refine ⟨fun key p hp => ?_, fun key => ?_, List.nodup_nil⟩
    · cases hp
    · exact iff_of_false (fun hin => by cases hin) fun hin => by cases hin
  | some hop => exact h.hops ttl hop hhop

theorem SameStats.hop (h : SameStats stats stats') (ttl : Int) :
    SameHop ((stats.hops.lookup ttl).getD { ttl := ttl })
      ((stats'.hops.get ttl).getD { ttl := ttl }) := by
  have httl := h.hops ttl
  generalize stats.hops.lookup ttl = hop, stats'.hops.get ttl = hop' at httl
  cases httl with
  | none => exact ⟨fun key => .none, rfl⟩
  | some hsame => exact hsame

theorem StatsOK.added (h : StatsOK evs stats) (hnew : ev.seq ∉ evs.map PingEvent.seq) :
    StatsOK (evs ++ [ev]) (added S stats ev) where
  hops := by
    intro ttl hop hhop
    rcases Store.lookup_insert_eq_some hhop with ⟨-, rfl⟩ | ⟨-, hhop⟩
    · exact (h.hop _).write hnew
    · exact (h.hops ttl hop hhop).mono
  mem_order := by
    intro ttl hin
    rw [Tui.added, Store.lookup_insert_eq] at hin
    rw [Tui.added]
    dsimp only
    split at hin
    · next heq =>
      rw [heq]
      split
      · next hold => exact h.mem_order _ hold
      · exact Sorter.mem_sort.2 (List.mem_append_right _ (List.mem_singleton_self _))
    · split
      · exact h.mem_order ttl hin
      · exact Sorter.mem_sort.2 (List.mem_append_left _ (h.mem_order ttl hin))

theorem StatsOK.prune (h : StatsOK evs stats) (hopTTL : Int) :
    StatsOK evs (stats.prune hopTTL) where
  hops := by
    intro ttl hop hhop
    rw [lookup_prune h.mem_order] at hhop
    split at hhop
    · exact h.hops ttl hop hhop
    · cases hhop
  mem_order := by
    intro ttl hin
    rw [lookup_prune h.mem_order] at hin
    split at hin
    · next hle =>
      rw [hopOrder_prune, List.mem_filter]
      exact ⟨h.mem_order ttl hin, decide_eq_true hle⟩
    · cases hin

theorem SameStats.added (h : SameStats stats stats') (hok : StatsOK evs stats)
    (hm : Matches ev traceEV) (hevs : ((evs ++ [ev]).map PingEvent.seq).Nodup)
    (hnew : ev.seq ∉ evs.map PingEvent.seq) :
    SameStats (added S stats ev) (traceAdded T stats' traceEV) where
  hops := by
    intro ttl
    rw [Tui.added, traceAdded, Store.lookup_insert_eq, OrderedMap.get_set, ← hopTTL_eq hm]
    split
    · exact .some ((h.hop _).write (hok.hop _) hm hevs hnew)
    · exact h.hops ttl
  hopOrder := by
    have hsome := isSome_eq_of_rel (h.hops ev.hopTTL)
    have hsort : S.sort (fun a b => decide (a < b)) (stats.hopOrder ++ [ev.hopTTL]) =
        T.sortBy (fun a b => a - b) (stats.hopOrder ++ [ev.hopTTL]) := by
      have hkey : ByKey (fun a b : Int => decide (a - b < 0)) id
          (stats.hopOrder ++ [ev.hopTTL]) := by
        intro a _ b _
        have hsub : a - b < 0 ↔ id a < id b := by
          rw [id, id]
          omega
        exact decide_eq_decide.2 hsub
      exact Sorter.sort_eq_sort (fun _ _ _ _ => rfl) hkey (fun _ _ _ _ hab => hab)
        (List.Perm.refl _)
    rw [Tui.added, traceAdded, ← hopTTL_eq hm]
    dsimp only
    rw [← hsome, ← h.hopOrder, hsort]

theorem SameStats.prune (h : SameStats stats stats') (hok : StatsOK evs stats) (hopTTL : Int) :
    SameStats (stats.prune hopTTL) (tracePrune stats' hopTTL) where
  hops := by
    intro ttl
    rw [lookup_prune hok.mem_order, tracePrune, OrderedMap.get_filter]
    simp only [decide_eq_true_eq]
    split
    · exact h.hops ttl
    · exact .none
  hopOrder := by
    rw [hopOrder_prune, h.hopOrder]
    rfl

/-- One event keeps the two the same. -/
theorem SameStats.write (h : SameStats stats stats') (hok : StatsOK evs stats)
    (hm : Matches ev traceEV) (hevs : ((evs ++ [ev]).map PingEvent.seq).Nodup)
    (hnew : ev.seq ∉ evs.map PingEvent.seq) :
    SameStats (stats.writeEvent S ev) (stats'.writeEvent T traceEV) ∧
      StatsOK (evs ++ [ev]) (stats.writeEvent S ev) := by
  have hadded := h.added (S := S) (T := T) hok hm hevs hnew
  have hok' := hok.added (S := S) hnew
  rw [writeEvent_eq, traceWriteEvent_eq, ← lastHop_eq hm, ← hopTTL_eq hm]
  split
  · exact ⟨hadded.prune hok' ev.hopTTL, hok'.prune ev.hopTTL⟩
  · exact ⟨hadded, hok'⟩

theorem SameStats.start : SameStats ({} : TraceStats F) {} := ⟨fun _ => .none, rfl⟩

theorem StatsOK.start : StatsOK [] ({} : TraceStats F) where
  hops := by
    intro ttl hop h
    cases h
  mem_order := by
    intro ttl h
    cases h

/-- From the events before, in whatever statistics they left. -/
theorem same_foldl {rest : List (PingEvent F)} {traceEVs : List (TraceEvent F)}
    (hrest : List.Forall₂ Matches rest traceEVs) (h : SameStats stats stats')
    (hok : StatsOK evs stats) (hevs : ((evs ++ rest).map PingEvent.seq).Nodup) :
    SameStats (rest.foldl (TraceStats.writeEvent S) stats)
      (traceEVs.foldl (Web.TraceStats.writeEvent T) stats') := by
  induction hrest generalizing evs stats stats' with
  | nil => exact h
  | @cons ev traceEV rest traceEVs hm _ ih =>
    have hsplit : evs ++ ev :: rest = (evs ++ [ev]) ++ rest := by simp
    rw [hsplit] at hevs
    have hhere : ((evs ++ [ev]).map PingEvent.seq).Nodup := by
      rw [List.map_append] at hevs
      exact hevs.of_append_left
    have hnew : ev.seq ∉ evs.map PingEvent.seq := by
      rw [List.map_append, List.map_singleton] at hhere
      exact List.disjoint_singleton.1 (List.disjoint_of_nodup_append hhere)
    obtain ⟨hsame, hok'⟩ := h.write (S := S) (T := T) hok hm hhere hnew
    exact ih hsame hok' hevs

end Stats

/-- Given the same events, no two with one sequence number, the two show the same, if `make` does not
panic. -/
theorem same_stats (hasRoom : Nat → Bool) (S T : Sorter) {evs : List (PingEvent F)}
    {traceEVs : List (TraceEvent F)} (h : List.Forall₂ Matches evs traceEVs)
    (hevs : (evs.map PingEvent.seq).Nodup) {stats : TraceStats F}
    (hstats : TraceStats.writeEvents hasRoom S evs = some stats) :
    SameStats stats (traceEVs.foldl (Web.TraceStats.writeEvent T) {}) := by
  rw [TraceStats.eq_foldl_of_writeEvents hstats]
  exact same_foldl h .start .start hevs

/-- There is room for a thousand hops. -/
def roomForHops (n : Nat) : Bool := n ≤ 1000

/-- Two peers in the second hop, a timeout, and a third hop that the last event deletes. -/
def threeHops : List (PingEvent Unit) :=
  [{ seq := 2, originTTL := 2, rttMs := 7, peer := "192.0.2.1" },
    { seq := 1, originTTL := 2, rttMs := 9, peer := "192.0.2.2" },
    { seq := 3, originTTL := 3, timeout := true },
    { seq := 0, originTTL := 2, rttMs := 8, peer := "192.0.2.1", lastHop := true }]

def threeTraceHops : List (TraceEvent Unit) :=
  [{ seq := 2, originTTL := 2, rttMs := 7, peer := "192.0.2.1" },
    { seq := 1, originTTL := 2, rttMs := 9, peer := "192.0.2.2" },
    { seq := 3, originTTL := 3, timeout := true },
    { seq := 0, originTTL := 2, rttMs := 8, peer := "192.0.2.1", lastHop := true }]

theorem matches_threeHops : List.Forall₂ Matches threeHops threeTraceHops :=
  .cons ⟨rfl, rfl, rfl, rfl, rfl, rfl⟩ (.cons ⟨rfl, rfl, rfl, rfl, rfl, rfl⟩
    (.cons ⟨rfl, rfl, rfl, rfl, rfl, rfl⟩ (.cons ⟨rfl, rfl, rfl, rfl, rfl, rfl⟩ .nil)))

theorem same_stats_three_hops :
    ∃ stats, TraceStats.writeEvents roomForHops merge threeHops = some stats ∧
      SameStats stats (threeTraceHops.foldl (Web.TraceStats.writeEvent merge) {}) :=
  ⟨_, rfl, same_stats roomForHops merge merge matches_threeHops (by decide) rfl⟩

/-- Two replies whose sum is no number of the browser. -/
def largeReplies : List (PingEvent Unit) :=
  [{ seq := 1, originTTL := 1, rttMs := 2 ^ 53, peer := "192.0.2.1" },
    { seq := 2, originTTL := 1, rttMs := 1, peer := "192.0.2.1" }]

def largeTraceReplies : List (TraceEvent Unit) :=
  [{ seq := 1, originTTL := 1, rttMs := 2 ^ 53, peer := "192.0.2.1" },
    { seq := 2, originTTL := 1, rttMs := 1, peer := "192.0.2.1" }]

theorem totals_differ :
    List.Forall₂ Matches largeReplies largeTraceReplies ∧
      (largeReplies.map PingEvent.seq).Nodup ∧
      ∃ stats hop hop' p q, TraceStats.writeEvents roomForHops merge largeReplies = some stats ∧
        stats.hops.lookup 1 = some hop ∧ hop.peers.lookup "192.0.2.1" = some p ∧
        (largeTraceReplies.foldl (Web.TraceStats.writeEvent merge) {}).hops.get 1 = some hop' ∧
        hop'.peers.get "192.0.2.1" = some q ∧
        p.totalRTT = 9007199254740993 ∧ q.totalRTT = 9007199254740992 :=
  ⟨.cons ⟨rfl, rfl, rfl, rfl, rfl, rfl⟩ (.cons ⟨rfl, rfl, rfl, rfl, rfl, rfl⟩ .nil), by decide,
    _, _, _, _, _, rfl, rfl, rfl, rfl, rfl, by decide, by decide⟩

end CloudPing.Tui

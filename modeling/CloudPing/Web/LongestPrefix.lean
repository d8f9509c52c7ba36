import CloudPing.Web.Router

/-!
# Longest prefix match

A lookup gives the routes that agree with the address up to their level, of the deepest such
level (`lookup_eq`).  It never throws, for every list of routes.

That is the longest prefix match where each route is kept at the length of its prefix.  The
places of the levels are sums of every second prefix length of the sorted list, since a
difference to the difference before cancels all but these (`mem_bounds_iff`).  `Aligned`
says that the prefix lengths are among the sums.  A length that is not is kept too high, and
some list of routes with these lengths is looked up wrongly (`lookup_lpm_iff`).
-/

namespace CloudPing.Web

open Trie

variable {V : Type}

/-! ## The levels -/

/-- The length at a place of a list and every second one before it, added up, where `p` and
`q` are the sums so far. -/
def altSums : Nat → Nat → List Nat → List Nat
  | _, _, [] => []
  | p, q, len :: lens => (p + len) :: altSums q (p + len) lens

/-- Each length is zero or one of the sums of every second length of the sorted list. -/
def Aligned (lens : List Nat) : Prop :=
  ∀ len ∈ lens, len = 0 ∨ len ∈ altSums 0 0 (lens.mergeSort (· ≤ ·))

instance (lens : List Nat) : Decidable (Aligned lens) :=
  inferInstanceAs (Decidable (∀ len ∈ lens, _))

/-- The differences from a place on, where `q - p` is the last one, lead from `q` to the
sums. -/
theorem mem_bounds_differences (lens : List Nat) {p q : Nat} (hpq : p ≤ q)
    (hlast : ∀ len ∈ lens, q - p ≤ len) (hsorted : lens.Pairwise (· ≤ ·)) (x : Nat) :
    x ∈ bounds (((differences ((q : Int) - p) (lens.map Int.ofNat)).filter (0 < ·)).map Int.toNat)
        q ↔ x = q ∨ x ∈ altSums p q lens := by
  induction lens generalizing p q with
  | nil => simp [differences, bounds, altSums]
  | cons len lens ih =>
    obtain ⟨hle, hsorted⟩ := List.pairwise_cons.1 hsorted
    have hlen := hlast len List.mem_cons_self
    have hdiff : (Int.ofNat len - ((q : Int) - p)) = ((p + len : Nat) : Int) - q := by
      show (len : Int) - ((q : Int) - p) = _
      omega
    have hih := ih (p := q) (q := p + len) (by omega) (fun l hl => by
      have := hle l hl
      omega) hsorted
    rw [List.map_cons, differences, hdiff, altSums, List.mem_cons, ← hih]
    rcases Nat.eq_or_lt_of_le (show q ≤ p + len by omega) with heq | hlt
    · -- a difference of zero is no level of its own
      rw [List.filter_cons_of_neg (by simp [heq]), heq]
      constructor
      · exact Or.inr
      · rintro (rfl | hx)
        · cases hd : ((differences (((p + len : Nat) : Int) - (p + len : Nat))
            (lens.map Int.ofNat)).filter (0 < ·)).map Int.toNat with
          | nil => exact List.mem_singleton.2 rfl
          | cons s segs => exact List.mem_cons_self
        · exact hx
    · have hpos : (0 : Int) < ((p + len : Nat) : Int) - q := by omega
      have htoNat : (((p + len : Nat) : Int) - q).toNat = p + len - q := by omega
      rw [List.filter_cons_of_pos (by simpa using hpos), List.map_cons, bounds, List.mem_cons,
        htoNat, Nat.add_sub_cancel' (Nat.le_of_lt hlt)]

/-- The levels of a list of prefix lengths are at zero and at its sums. -/
theorem mem_bounds_iff (lens : List Nat) (x : Nat) :
    x ∈ bounds (segmentLengths lens) 0 ↔
      x = 0 ∨ x ∈ altSums 0 0 (lens.mergeSort (· ≤ ·)) := by
  have hsorted : (lens.mergeSort (· ≤ ·)).Pairwise (· ≤ ·) := by
    simpa using @List.pairwise_mergeSort _ (fun a b : Nat => decide (a ≤ b))
      (fun a b c hab hbc => by simp at *; omega) (fun a b => by simp; omega) lens
  have hdiff := mem_bounds_differences (lens.mergeSort (· ≤ ·)) (Nat.le_refl 0)
    (fun len _ => Nat.zero_le len) hsorted x
  rw [segmentLengths, ← hdiff]
  cases lens.mergeSort (· ≤ ·) with
  | nil => rfl
  | cons len lens =>
    simp [differences]

theorem segmentLengths_pos (lens : List Nat) : ∀ s ∈ segmentLengths lens, 0 < s := by
  intro s hs
  rw [segmentLengths] at hs
  split at hs
  next => cases hs
  next =>
    obtain ⟨d, hd, rfl⟩ := List.mem_map.1 hs
    have hpos : 0 < d := by simpa using List.of_mem_filter hd
    omega

/-! ## What an insertion leaves at a node -/

/-- Inserting routes one after the other. -/
def insertAll (segments : List Nat) (e : Nat) (rs : List (Route V)) : Option (NodeEntry V) :=
  rs.foldl (fun table route => some (doInsertRoute table route segments e)) none

theorem insertAll_concat (segments : List Nat) (e : Nat) (rs : List (Route V)) (r : Route V) :
    insertAll segments e (rs ++ [r]) =
      some (doInsertRoute (insertAll segments e rs) r segments e) := by
  rw [insertAll, List.foldl_append]
  rfl

theorem insertAll_eq_none_iff {segments : List Nat} {e : Nat} {rs : List (Route V)} :
    insertAll segments e rs = none ↔ rs = [] := by
  induction rs using List.reverseRecOn with
  | nil => exact iff_of_true rfl rfl
  | append_singleton rs r _ =>
    rw [insertAll_concat]
    simp

/-- The routes kept at a node, and its subtree under a segment. -/
def routesAt (table : Option (NodeEntry V)) : List (Route V) :=
  (table.bind NodeEntry.routes).getD []

def subTree (table : Option (NodeEntry V)) (seg : Nat) : Option (NodeEntry V) :=
  (table.bind NodeEntry.nextHeader).bind fun nextHeader => nextHeader.seg2SubTrees seg

/-- A node keeps the routes that end above the next level, and has those that go on in the
subtrees of their segments. -/
structure NodeSpec (s : Nat) (segments : List Nat) (e : Nat) (rs : List (Route V)) : Prop where
  routes : routesAt (insertAll (s :: segments) e rs) = rs.filter fun r => r.prefixLength < e + s
  header : ∀ nextHeader,
    (insertAll (s :: segments) e rs).bind NodeEntry.nextHeader = some nextHeader →
      nextHeader.segmentLength = s ∧ ∃ r ∈ rs, e + s ≤ r.prefixLength
  subTree : ∀ seg, subTree (insertAll (s :: segments) e rs) seg =
    insertAll segments (e + s) (rs.filter fun r =>
      e + s ≤ r.prefixLength ∧ r.networkAddr.getMaskedValue e s = seg)

theorem insertAll_nil_routes (e : Nat) (rs : List (Route V)) :
    routesAt (insertAll [] e rs) = rs ∧ (insertAll [] e rs).bind NodeEntry.nextHeader = none := by
  induction rs using List.reverseRecOn with
  | nil => exact ⟨rfl, rfl⟩
  | append_singleton rs r ih =>
    obtain ⟨hroutes, hheader⟩ := ih
    rw [insertAll_concat]
    cases hall : insertAll [] e rs with
    | none =>
      have hnil := insertAll_eq_none_iff.1 hall
      subst hnil
      exact ⟨rfl, rfl⟩
    | some table =>
      rw [hall] at hroutes hheader
      simp only [doInsertRoute, Option.getD_some, Option.bind_some, NodeEntry.nextHeader,
        routesAt, NodeEntry.routes]
      exact ⟨congrArg (· ++ [r]) hroutes, hheader⟩

theorem nodeSpec (s : Nat) (segments : List Nat) (e : Nat) (rs : List (Route V)) :
    NodeSpec s segments e rs := by
  induction rs using List.reverseRecOn with
  | nil => exact ⟨rfl, fun _ h => (by cases h), fun _ => rfl⟩
  | append_singleton rs r ih =>
    have hgetD : ∀ table : Option (NodeEntry V),
        routesAt table = (table.getD .empty).routes.getD [] ∧
          table.bind NodeEntry.nextHeader = (table.getD .empty).nextHeader := by
      rintro (_ | table) <;> exact ⟨rfl, rfl⟩
    obtain ⟨hroutes, hheader⟩ := hgetD (insertAll (s :: segments) e rs)
    rcases Nat.lt_or_ge r.prefixLength (e + s) with hlt | hge
    · -- the route ends at this node
      have hins : insertAll (s :: segments) e (rs ++ [r]) =
          some ⟨((insertAll (s :: segments) e rs).getD .empty).nextHeader,
            some (routesAt (insertAll (s :: segments) e rs) ++ [r])⟩ := by
        rw [insertAll_concat, doInsertRoute, if_pos hlt, hroutes]
      rw [← hheader] at hins
      refine ⟨?_, fun h hh => ?_, fun seg => ?_⟩
      · rw [hins, List.filter_append, List.filter_cons_of_pos (by simpa using hlt), ← ih.routes]
        rfl
      · rw [hins] at hh
        obtain ⟨hlen, r', hr', hle⟩ := ih.header h hh
        exact ⟨hlen, r', List.mem_append_left _ hr', hle⟩
      · rw [hins, List.filter_append, List.filter_cons_of_neg (by simp; omega), List.filter_nil,
          List.append_nil, ← ih.subTree seg]
        rfl
    · -- the route goes on to the subtree of its segment
      have hsub : (((insertAll (s :: segments) e rs).getD .empty).nextHeader.map
          (·.seg2SubTrees)).getD (fun _ => none) =
            subTree (insertAll (s :: segments) e rs) := by
        funext seg
        rw [subTree, hheader]
        cases ((insertAll (s :: segments) e rs).getD .empty).nextHeader <;> rfl
      have hins : insertAll (s :: segments) e (rs ++ [r]) =
          some ⟨some ⟨s, Function.update (subTree (insertAll (s :: segments) e rs))
            (r.networkAddr.getMaskedValue e s) (some (doInsertRoute
              (subTree (insertAll (s :: segments) e rs) (r.networkAddr.getMaskedValue e s))
              r segments (e + s)))⟩, ((insertAll (s :: segments) e rs).getD .empty).routes⟩ := by
        rw [insertAll_concat, doInsertRoute, if_neg (Nat.not_lt.2 hge)]
        simp only [hsub]
      refine ⟨?_, fun h hh => ?_, fun seg => ?_⟩
      · rw [hins, List.filter_append, List.filter_cons_of_neg (by simp; omega), List.filter_nil,
          List.append_nil, ← ih.routes, hroutes]
        rfl
      · rw [hins] at hh
        cases hh
        exact ⟨rfl, r, by simp, hge⟩
      · rw [hins]
        show Function.update _ _ _ seg = _
        by_cases hseg : seg = r.networkAddr.getMaskedValue e s
        · subst hseg
          rw [Function.update_self, ih.subTree, ← insertAll_concat, List.filter_append,
            List.filter_cons_of_pos (by simpa using hge), List.filter_nil]
        · rw [Function.update_of_ne hseg, ih.subTree, List.filter_append,
            List.filter_cons_of_neg (by simpa using fun _ h => hseg h.symm), List.filter_nil,
            List.append_nil]

/-! ## What a lookup finds -/

/-- The routes of a lookup from a node that may be missing. -/
def found (table : Option (NodeEntry V)) (addr : IPAddr) (e maxBits : Nat) :
    Except String (List (Route V)) :=
  match table with
  | none => .ok []
  | some table => (doLookup table addr e maxBits).map fun result => result.routes.getD []

theorem select_nil {ρ : Type*} (w : Nat) (len key : ρ → Nat) (a : Nat) (segs : List Nat)
    (e : Nat) : select w len key a segs e [] = [] := by
  induction segs generalizing e with
  | nil => rfl
  | cons s segs ih =>
    rw [select, List.filter_nil, ih (e + s), List.filter_nil]
    rfl

/-- The subtree of the segment of an address holds what goes below with that segment. -/
theorem filter_below {e s : Nat} {rs : List (Route V)} {addr : IPAddr}
    (hrs : ∀ r ∈ rs, r.networkAddr.maxBits = addr.maxBits) :
    (rs.filter fun r => e + s ≤ r.prefixLength ∧
        r.networkAddr.getMaskedValue e s = addr.getMaskedValue e s) =
      rs.filter fun r => Below addr.maxBits Route.prefixLength (·.networkAddr.value)
        addr.value e s r := by
  refine List.filter_congr fun r hr => decide_eq_decide.2 (and_congr_right fun hle => ?_)
  have hfits : e + s ≤ addr.maxBits := Nat.le_trans hle (hrs r hr ▸ r.prefixLength_le)
  rw [IPAddr.getMaskedValue_eq _ (by rw [hrs r hr]; exact hfits),
    IPAddr.getMaskedValue_eq _ hfits, hrs r hr]

/-- A lookup in the trie of some routes selects among them. -/
theorem found_insertAll {segments : List Nat} {e : Nat} {rs : List (Route V)} {addr : IPAddr}
    (hsegs : ∀ s ∈ segments, 0 < s) (hrs : ∀ r ∈ rs, r.networkAddr.maxBits = addr.maxBits) :
    found (insertAll segments e rs) addr e addr.maxBits =
      .ok (select addr.maxBits Route.prefixLength (·.networkAddr.value) addr.value segments e
        rs) := by
  induction segments generalizing e rs with
  | nil =>
    obtain ⟨hroutes, hheader⟩ := insertAll_nil_routes e rs
    rw [select]
    cases hall : insertAll [] e rs with
    | none =>
      rw [insertAll_eq_none_iff.1 hall]
      rfl
    | some table =>
      rw [hall] at hroutes hheader
      have hheader : table.nextHeader = none := hheader
      rw [found, doLookup]
      simp only [hheader]
      exact congrArg Except.ok hroutes
  | cons s segments ih =>
    have hpos : 0 < s := hsegs s List.mem_cons_self
    have hspec := nodeSpec s segments e rs
    have hfit : ∀ r ∈ rs, e + s ≤ r.prefixLength → e + s ≤ addr.maxBits := fun r hr hle =>
      Nat.le_trans hle (hrs r hr ▸ r.prefixLength_le)
    have hsub := hspec.subTree (addr.getMaskedValue e s)
    rw [filter_below hrs] at hsub
    have hih := ih (e := e + s) (fun s hs => hsegs s (List.mem_cons_of_mem _ hs))
      (fun r hr => hrs r (List.mem_of_mem_filter hr) : ∀ r ∈ rs.filter fun r =>
        Below addr.maxBits Route.prefixLength (·.networkAddr.value) addr.value e s r, _)
    rw [select]
    cases hall : insertAll (s :: segments) e rs with
    | none =>
      have hnil := insertAll_eq_none_iff.1 hall
      subst hnil
      simp only [List.filter_nil, select_nil]
      rfl
    | some table =>
      have hroutes : table.routes.getD [] = rs.filter fun r => r.prefixLength < e + s := by
        rw [← hspec.routes, hall]
        rfl
      rw [hall] at hsub
      rw [found, doLookup]
      cases hheader : table.nextHeader with
      | none =>
        -- nothing goes below this node
        have hnone : subTree (some table) (addr.getMaskedValue e s) = none := by
          rw [subTree, Option.bind_some, hheader]
          rfl
        rw [hnone] at hsub
        rw [insertAll_eq_none_iff.1 hsub.symm, select_nil]
        simp only [if_true]
        exact congrArg Except.ok hroutes
      | some nextHeader =>
        obtain ⟨hlen, r₀, hr₀, hle₀⟩ := hspec.header nextHeader (by rw [hall]; exact hheader)
        have hfits := hfit r₀ hr₀ hle₀
        have hne : e ≠ addr.maxBits := by omega
        have hseg : ¬ (s = 0 ∨ s + e > addr.maxBits) := by omega
        simp only [hlen, if_neg hne, dif_neg hseg]
        have hnext : nextHeader.seg2SubTrees (addr.getMaskedValue e s) =
            insertAll segments (e + s) (rs.filter fun r =>
              Below addr.maxBits Route.prefixLength (·.networkAddr.value) addr.value e s r) := by
          rw [← hsub, subTree, Option.bind_some, hheader]
          rfl
        rw [hnext]
        cases hbelowAll : insertAll segments (e + s) (rs.filter fun r =>
            Below addr.maxBits Route.prefixLength (·.networkAddr.value) addr.value e s r) with
        | none =>
          rw [insertAll_eq_none_iff.1 hbelowAll, select_nil]
          simp only [if_true]
          exact congrArg Except.ok hroutes
        | some nextTb =>
          rw [hbelowAll, found] at hih
          cases hlookup : doLookup nextTb addr (e + s) addr.maxBits with
          | error err =>
            rw [hlookup] at hih
            cases hih
          | ok lookupResult =>
            rw [hlookup] at hih
            have hselect : lookupResult.routes.getD [] = _ := Except.ok.inj hih
            rw [← hselect]
            by_cases hnil : lookupResult.routes.getD [] = []
            · rw [if_pos hnil]
              simp only [hlookup, hnil, ne_eq, not_true_eq_false, if_false]
              exact congrArg Except.ok hroutes
            · rw [if_neg hnil]
              simp only [hlookup, ne_eq, hnil, not_false_eq_true, if_true]
              rfl

theorem mem_familyRoutes {routes : List (Route V)} {family : IPAddressFamily} {r : Route V} :
    r ∈ familyRoutes routes family ↔ r ∈ routes ∧ r.networkAddr.family = family := by
  simp [familyRoutes]

theorem filter_familyRoutes (routes : List (Route V)) (family : IPAddressFamily)
    (p : Route V → Bool) :
    (familyRoutes routes family).filter p =
      routes.filter fun r => p r && decide (r.networkAddr.family = family) :=
  List.filter_filter

/-- A lookup never throws and gives the routes of the family that agree with the address up
to their level, of the deepest such level, in the order of insertion. -/
theorem lookup_eq (routes : List (Route V)) (addr : IPAddr) :
    (buildTable routes).lookup addr =
      .ok ((familyRoutes routes addr.family).filter fun r =>
        Deepest addr.maxBits Route.prefixLength (·.networkAddr.value) addr.value
          (getTrieTreeSegmentLengths (familyRoutes routes addr.family)) 0
          (familyRoutes routes addr.family) r) := by
  have hfamily : ∀ r ∈ familyRoutes routes addr.family, r.networkAddr.maxBits = addr.maxBits :=
    fun r hr => congrArg IPAddressFamily.maxBits (by simpa using List.of_mem_filter hr)
  have htable : (buildTable routes).table addr.family =
      insertAll (getTrieTreeSegmentLengths (familyRoutes routes addr.family)) 0
        (familyRoutes routes addr.family) := by
    cases hf : addr.family <;> rfl
  have hlookup : (buildTable routes).lookup addr =
      found ((buildTable routes).table addr.family) addr 0 addr.maxBits := rfl
  have hpos : ∀ s ∈ getTrieTreeSegmentLengths (familyRoutes routes addr.family), 0 < s :=
    segmentLengths_pos _
  rw [hlookup, htable, found_insertAll hpos hfamily, select_eq hpos fun r hr => ?_]
  refine ⟨agree_zero ?_ addr.value_lt, Nat.zero_le _, hfamily r hr ▸ r.prefixLength_le⟩
  rw [← hfamily r hr]
  exact r.networkAddr.value_lt

/-! ## Longest prefix match -/

/-- The prefix of a route contains an address. -/
def Route.Contains (r : Route V) (addr : IPAddr) : Prop :=
  r.networkAddr.family = addr.family ∧
    Agree addr.maxBits r.prefixLength r.networkAddr.value addr.value

instance (r : Route V) (addr : IPAddr) : Decidable (r.Contains addr) :=
  inferInstanceAs (Decidable (_ ∧ _))

/-- The routes that contain an address with the longest prefix, in order. -/
def longestMatches (routes : List (Route V)) (addr : IPAddr) : List (Route V) :=
  routes.filter fun r => r.Contains addr ∧
    ∀ r' ∈ routes, r'.Contains addr → r'.prefixLength ≤ r.prefixLength

/-- The family and the length of a prefix. -/
structure PrefixShape where
  family : IPAddressFamily
  prefixLength : Nat
  prefixLength_le : prefixLength ≤ family.maxBits

def Route.shape (r : Route V) : PrefixShape :=
  ⟨r.networkAddr.family, r.prefixLength, r.prefixLength_le⟩

/-- The prefix lengths of a family. -/
def familyLengths (shapes : List PrefixShape) (family : IPAddressFamily) : List Nat :=
  (shapes.filter fun m => m.family = family).map PrefixShape.prefixLength

theorem familyLengths_shape (routes : List (Route V)) (family : IPAddressFamily) :
    familyLengths (routes.map Route.shape) family =
      (familyRoutes routes family).map Route.prefixLength := by
  rw [familyLengths, List.filter_map, List.map_map]
  rfl

/-- Where the lengths are aligned, each route is kept at its own length, and a lookup is the
longest prefix match. -/
theorem lookup_eq_longestMatches {routes : List (Route V)} {addr : IPAddr}
    (h : Aligned (familyLengths (routes.map Route.shape) addr.family)) :
    (buildTable routes).lookup addr = .ok (longestMatches routes addr) := by
  rw [familyLengths_shape] at h
  have hdepth : ∀ r ∈ familyRoutes routes addr.family,
      depth (getTrieTreeSegmentLengths (familyRoutes routes addr.family)) 0 r.prefixLength =
        r.prefixLength := fun r hr =>
    (depth_eq_self_iff (Nat.zero_le _)).2
      ((mem_bounds_iff _ _).2 (h r.prefixLength (List.mem_map_of_mem hr)))
  have hagree : ∀ r ∈ routes, r.networkAddr.family = addr.family →
      (Agree addr.maxBits (depth (getTrieTreeSegmentLengths (familyRoutes routes addr.family)) 0
        r.prefixLength) r.networkAddr.value addr.value ↔ r.Contains addr) := fun r hr hf => by
    rw [hdepth r (mem_familyRoutes.2 ⟨hr, hf⟩), Route.Contains, and_iff_right hf]
  rw [lookup_eq, longestMatches, filter_familyRoutes]
  refine congrArg Except.ok (List.filter_congr fun r hr => ?_)
  rw [← Bool.decide_and, decide_eq_decide]
  constructor
  · rintro ⟨⟨hr', hmax⟩, hf⟩
    refine ⟨(hagree r hr hf).1 hr', fun r' hin hcontains => ?_⟩
    have hf' := hcontains.1
    have hmem' := mem_familyRoutes.2 ⟨hin, hf'⟩
    have hle := hmax r' hmem' ((hagree r' hin hf').2 hcontains)
    rwa [hdepth r (mem_familyRoutes.2 ⟨hr, hf⟩), hdepth r' hmem'] at hle
  · rintro ⟨hcontains, hmax⟩
    have hf := hcontains.1
    refine ⟨⟨(hagree r hr hf).2 hcontains, fun r' hmem' hr' => ?_⟩, hf⟩
    obtain ⟨hin, hf'⟩ := mem_familyRoutes.1 hmem'
    rw [hdepth r (mem_familyRoutes.2 ⟨hr, hf⟩), hdepth r' hmem']
    exact hmax r' hin ((hagree r' hin hf').1 hr')

/-! ## Lengths that are not aligned -/

theorem exists_addr (family : IPAddressFamily) {v : Nat} (h : v < 2 ^ family.maxBits) :
    ∃ addr : IPAddr, addr.family = family ∧ addr.value = v := by
  rw [IPAddressFamily.maxBits_eq] at h
  obtain ⟨bs, hlen, hbs⟩ := exists_ofBytes family.byteLength h
  exact ⟨⟨bs, family, hlen⟩, rfl, hbs⟩

/-- Routes of given shapes, all for the address zero. -/
theorem exists_zeroRoutes (shapes : List PrefixShape) :
    ∃ routes : List (Route V), routes.map Route.shape = shapes ∧
      ∀ r ∈ routes, r.networkAddr.value = 0 := by
  induction shapes with
  | nil => exact ⟨[], rfl, fun r hr => (by cases hr)⟩
  | cons m shapes ih =>
    obtain ⟨routes, hshapes, hzero⟩ := ih
    obtain ⟨zero, hfamily, hvalue⟩ := exists_addr m.family (Nat.two_pow_pos m.family.maxBits)
    obtain ⟨family, prefixLength, prefixLength_le⟩ := m
    subst hfamily
    refine ⟨⟨zero, prefixLength, prefixLength_le, none⟩ :: routes, ?_, ?_⟩
    · rw [List.map_cons, hshapes]
      rfl
    · intro r hr
      rcases List.mem_cons.1 hr with rfl | hr
      · exact hvalue
      · exact hzero r hr

/-- If a length is not aligned, some routes of these shapes are looked up wrongly. -/
theorem exists_wrong {shapes : List PrefixShape} {family : IPAddressFamily}
    (h : ¬ Aligned (familyLengths shapes family)) :
    ∃ routes : List (Route V), routes.map Route.shape = shapes ∧
      ∃ addr, (buildTable routes).lookup addr ≠ .ok (longestMatches routes addr) := by
  obtain ⟨routes, rfl, hzero⟩ := exists_zeroRoutes (V := V) shapes
  refine ⟨routes, rfl, ?_⟩
  rw [familyLengths_shape, Aligned] at h
  push Not at h
  obtain ⟨len, hlen, hpos, hsums⟩ := h
  obtain ⟨r, hr, rfl⟩ := List.mem_map.1 hlen
  obtain ⟨hin, hfamily⟩ := mem_familyRoutes.1 hr
  have hle := r.prefixLength_le
  have hbits : r.networkAddr.maxBits = family.maxBits :=
    congrArg IPAddressFamily.maxBits hfamily
  rw [hbits] at hle
  -- an address whose only one is the last bit of the prefix
  obtain ⟨addr, haddr, hvalue⟩ := exists_addr family
    (v := 2 ^ (family.maxBits - r.prefixLength)) (Nat.pow_lt_pow_right (by decide) (by omega))
  obtain ⟨n, hn⟩ : ∃ n, r.prefixLength = n + 1 := ⟨r.prefixLength - 1, by omega⟩
  have hagree : ∀ r' ∈ familyRoutes routes addr.family, ∀ m ≤ family.maxBits,
      (Agree addr.maxBits m r'.networkAddr.value addr.value ↔ m ≤ n) := fun r' hr' m hm => by
    have hw : addr.maxBits = family.maxBits := congrArg IPAddressFamily.maxBits haddr
    rw [hzero r' (mem_familyRoutes.1 hr').1, hvalue, hn, hw,
      ← agree_single_iff (n := n) (by omega) hm]
    exact eq_comm
  refine ⟨addr, fun heq => ?_⟩
  subst haddr
  have hlevel : depth (getTrieTreeSegmentLengths (familyRoutes routes addr.family)) 0
      r.prefixLength ≤ r.prefixLength := depth_le (Nat.zero_le _)
  have hne : depth (getTrieTreeSegmentLengths (familyRoutes routes addr.family)) 0
      r.prefixLength ≠ r.prefixLength := by
    rw [Ne, depth_eq_self_iff (Nat.zero_le _), getTrieTreeSegmentLengths, mem_bounds_iff]
    rintro (hz | hmem)
    · exact hpos hz
    · exact hsums hmem
  have hdeepest : r ∈ longestMatches routes addr := by
    rw [lookup_eq] at heq
    rw [← Except.ok.inj heq]
    refine List.mem_filter.2 ⟨hr, decide_eq_true ⟨?_, fun r' hr' hr'' => ?_⟩⟩
    · exact (hagree r hr _ (by omega)).2 (by omega)
    · have hle' : r'.prefixLength ≤ addr.family.maxBits := by
        have hb : r'.networkAddr.maxBits = addr.family.maxBits :=
          congrArg IPAddressFamily.maxBits (mem_familyRoutes.1 hr').2
        exact hb ▸ r'.prefixLength_le
      have hlevel' : depth (getTrieTreeSegmentLengths (familyRoutes routes addr.family)) 0
          r'.prefixLength ≤ r'.prefixLength := depth_le (Nat.zero_le _)
      have hn' := (hagree r' hr' _ (by omega)).1 hr''
      exact le_depth_of_mem (depth_mem_bounds _ _ _) (by omega)
  have hcontains : r.Contains addr := (of_decide_eq_true (List.mem_filter.1 hdeepest).2).1
  have hlast := (hagree r hr r.prefixLength hle).1 hcontains.2
  omega

/-- The table looks up every address in all routes of given shapes by longest prefix match,
without an exception, exactly if the lengths of each family are aligned. -/
theorem lookup_lpm_iff (shapes : List PrefixShape) :
    (∀ routes : List (Route V), routes.map Route.shape = shapes → ∀ addr : IPAddr,
        (buildTable routes).lookup addr = .ok (longestMatches routes addr)) ↔
      ∀ family, Aligned (familyLengths shapes family) := by
  constructor
  · intro h family
    by_contra hnot
    obtain ⟨routes, hshapes, addr, hne⟩ := exists_wrong (V := V) hnot
    exact hne (h routes hshapes addr)
  · rintro h routes rfl addr
    exact lookup_eq_longestMatches (h addr.family)

/-- A route for an address of version four. -/
def route4 (a b c d : UInt8) (prefixLength : Fin 33) : Route Unit :=
  ⟨⟨[a, b, c, d], .ipv4, rfl⟩, prefixLength, Nat.le_of_lt_succ prefixLength.isLt, none⟩

/-- 10.1.99.1 is found under 10.1.2.0/24, which does not contain it. -/
theorem lookup_outside_prefix :
    let routes := [route4 10 0 0 0 8, route4 10 1 0 0 16, route4 10 1 2 0 24]
    let addr : IPAddr := ⟨[10, 1, 99, 1], .ipv4, rfl⟩
    (buildTable routes).lookup addr = .ok [route4 10 1 0 0 16, route4 10 1 2 0 24] ∧
      longestMatches routes addr = [route4 10 1 0 0 16] := by
  have hsegments : segmentLengths [8, 16, 24] = [8, 8, 16] := by
    rw [segmentLengths, List.mergeSort_of_pairwise (by decide)]
    decide
  refine ⟨?_, by decide +kernel⟩
  rw [lookup_eq]
  have hlevels : getTrieTreeSegmentLengths (familyRoutes
      [route4 10 0 0 0 8, route4 10 1 0 0 16, route4 10 1 2 0 24] .ipv4) = [8, 8, 16] :=
    hsegments
  simp only [hlevels]
  exact congrArg Except.ok (by decide +kernel)

end CloudPing.Web

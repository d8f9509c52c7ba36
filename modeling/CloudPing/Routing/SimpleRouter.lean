import CloudPing.Btree.Tree
import CloudPing.Utils.IPNet
import Mathlib.Data.List.Find
import Mathlib.Data.List.Induction

/-!
# The router of `pkg/routing`

`SimpleRouter` keeps one tree of groups for each family, and the trees are those of any
package (`OrderedTree`).  A group holds the routes of one prefix length, in a tree ordered by
their bytes.  `GetRoute` goes through the groups from
the longest prefix to the shortest, cuts the address to the prefix length of the group, and
stops at the first group with a route of these bytes.

What a table answers for a length and bytes is `lookup`, and adding a route changes it at
one place (`lookup_doAddRoute`).  So after any history it is the value of the latest route
with this length and these bytes (`lookup_addRoutes`).
-/

namespace CloudPing.Routing

open Btree Btree.OrderedTree CloudPing.Utils

universe u

variable {BTree : (α : Type u) → [Item α] → Type u} [OrderedTree BTree] {V : Type u}

/-! ## Routes and groups -/

/-- A route, whose value may be nil. -/
structure Route (V : Type u) where
  routePrefix : IP
  value : Option V

/-- `bytes.Compare` of the prefixes is negative. -/
def Route.less (route otherRoute : Route V) : Bool :=
  decide (route.routePrefix < otherRoute.routePrefix)

instance : Item (Route V) where
  less := Route.less
  irrefl r := decide_eq_false (List.lt_irrefl r.routePrefix)
  trans h h' := decide_eq_true (List.lt_trans (of_decide_eq_true h) (of_decide_eq_true h'))
  split {a b} c h := by
    have hab : a.routePrefix < b.routePrefix := of_decide_eq_true h
    by_cases hac : a.routePrefix < c.routePrefix
    · exact Or.inl (decide_eq_true hac)
    · exact Or.inr (decide_eq_true (List.lt_of_le_of_lt (List.not_lt.1 hac) hab))

/-- The routes with one prefix length. -/
structure RouteGroup (BTree : (α : Type u) → [Item α] → Type u) [OrderedTree BTree]
    (V : Type u) where
  prefixLen : Nat
  routes : BTree (Route V) := new

def RouteGroup.less (routeGroup otherRouteGroup : RouteGroup BTree V) : Bool :=
  decide (routeGroup.prefixLen < otherRouteGroup.prefixLen)

instance : Item (RouteGroup BTree V) where
  less := RouteGroup.less
  irrefl g := decide_eq_false (Nat.lt_irrefl g.prefixLen)
  trans h h' := decide_eq_true (Nat.lt_trans (of_decide_eq_true h) (of_decide_eq_true h'))
  split {a b} c h := by
    have hab : a.prefixLen < b.prefixLen := of_decide_eq_true h
    by_cases hac : a.prefixLen < c.prefixLen
    · exact Or.inl (decide_eq_true hac)
    · exact Or.inr (decide_eq_true (Nat.lt_of_le_of_lt (Nat.not_lt.1 hac) hab))

theorem Route.same_iff {r r' : Route V} : same r r' = true ↔ r.routePrefix = r'.routePrefix := by
  rw [Btree.same_iff]
  show decide (_ < _) = false ∧ decide (_ < _) = false ↔ _
  rw [decide_eq_false_iff_not, decide_eq_false_iff_not]
  constructor
  · rintro ⟨h, h'⟩
    exact List.le_antisymm (List.not_lt.1 h') (List.not_lt.1 h)
  · intro h
    rw [h]
    exact ⟨List.lt_irrefl _, List.lt_irrefl _⟩

theorem RouteGroup.same_iff {g g' : RouteGroup BTree V} :
    same g g' = true ↔ g.prefixLen = g'.prefixLen := by
  rw [Btree.same_iff]
  show decide (_ < _) = false ∧ decide (_ < _) = false ↔ _
  rw [decide_eq_false_iff_not, decide_eq_false_iff_not]
  omega

/-! ## The router -/

/-- The routes of both families. -/
structure SimpleRouter (BTree : (α : Type u) → [Item α] → Type u) [OrderedTree BTree]
    (V : Type u) where
  routes : BTree (RouteGroup BTree V)
  routes6 : BTree (RouteGroup BTree V)

/-- The table with a group for the prefix length. -/
def withGroup (table : BTree (RouteGroup BTree V)) (ones : Nat) : BTree (RouteGroup BTree V) :=
  if has table { prefixLen := ones } then table
  else replaceOrInsert table { prefixLen := ones }

/-- `doAddRoute` and `doAddRoute6`, which differ in the table they change.  The source changes
the group in place. -/
def doAddRoute (table : BTree (RouteGroup BTree V)) (ipNet : IPNet) (value : Option V) :
    BTree (RouteGroup BTree V) :=
  let ones := (maskSize ipNet.mask).1
  let table := withGroup table ones
  match get table { prefixLen := ones } with
  | none => table  -- does not happen, `withGroup` has put one there
  | some routeGroup =>
    replaceOrInsert table
      { routeGroup with routes := replaceOrInsert routeGroup.routes ⟨ipNet.ip, value⟩ }

namespace SimpleRouter

/-- `NewSimpleRouter`. -/
def new : SimpleRouter BTree V := ⟨OrderedTree.new, OrderedTree.new⟩

def addRoute (router : SimpleRouter BTree V) (cidr : String) (value : Option V) :
    Except String (SimpleRouter BTree V) :=
  match parseCIDR cidr with
  | none => .error ("failed to parse CIDR: invalid CIDR address: " ++ cidr)
  | some (_, ipNet) =>
    if ipNet.ip.to4.isSome then
      .ok { router with routes := doAddRoute router.routes ipNet value }
    else .ok { router with routes6 := doAddRoute router.routes6 ipNet value }

/-- The value of the route with these bytes in a group. -/
def routeOf (masked : Nat → IP) (routeGroup : RouteGroup BTree V) : Option (Option V) :=
  (get routeGroup.routes ⟨masked routeGroup.prefixLen, none⟩).map Route.value

def getRoute (router : SimpleRouter BTree V) (ip : String) : Except String (Option V) :=
  match parseIP ip with
  | none => .error ("invalid ip address: " ++ ip)
  | some ipAddr =>
    let (table, maskTotalLen) :=
      if ipAddr.to4.isSome then (router.routes, 32) else (router.routes6, 128)
    let found := descend table
      (seek (routeOf fun prefixLen => ipAddr.mask (cidrMask prefixLen maskTotalLen))) none
    .ok (found.getD none)

variable (BTree) in
/-- The router after a history of calls.  A call that fails changes nothing. -/
def addRoutes (history : List (String × Option V)) : SimpleRouter BTree V :=
  history.foldl (fun router call => (router.addRoute call.1 call.2).toOption.getD router) new

end SimpleRouter

/-! ## What a table answers -/

/-- The value that a table has for a prefix length and the bytes of a prefix. -/
def lookup (table : BTree (RouteGroup BTree V)) (len : Nat) (p : IP) : Option (Option V) :=
  (get table { prefixLen := len }).bind fun g => (get g.routes ⟨p, none⟩).map Route.value

variable {table : BTree (RouteGroup BTree V)}

theorem lookup_new (len : Nat) (p : IP) :
    lookup (new : BTree (RouteGroup BTree V)) len p = none := by
  rw [lookup, get_new]
  rfl

theorem lookup_withGroup (ones len : Nat) (p : IP) :
    lookup (withGroup table ones) len p = lookup table len p := by
  rw [withGroup]
  split
  next => rfl
  next hno =>
    rw [lookup, lookup, get_replaceOrInsert]
    by_cases hlen : len = ones
    · have hnone : get table { prefixLen := ones } = none := by
        simpa [has] using hno
      rw [if_pos (RouteGroup.same_iff.2 hlen), hlen, hnone, Option.bind_some, get_new]
      rfl
    · rw [if_neg fun h => hlen (RouteGroup.same_iff.1 h)]

theorem get_withGroup (table : BTree (RouteGroup BTree V)) (ones : Nat) :
    ∃ g, get (withGroup table ones) { prefixLen := ones } = some g ∧ g.prefixLen = ones := by
  rw [withGroup]
  split
  next h =>
    obtain ⟨g, hg⟩ := Option.isSome_iff_exists.1 h
    exact ⟨g, hg, (RouteGroup.same_iff.1 (same_of_get hg)).symm⟩
  next =>
    rw [get_replaceOrInsert, if_pos (same_refl _)]
    exact ⟨_, rfl, rfl⟩

/-- Adding a route changes the answer at one place. -/
theorem lookup_doAddRoute (ipNet : IPNet) (value : Option V) (len : Nat) (p : IP) :
    lookup (doAddRoute table ipNet value) len p =
      if len = (maskSize ipNet.mask).1 ∧ p = ipNet.ip then some value else lookup table len p := by
  obtain ⟨g, hg, hlen⟩ := get_withGroup table (maskSize ipNet.mask).1
  rw [doAddRoute]
  simp only [hg]
  rw [lookup, get_replaceOrInsert]
  by_cases hl : len = (maskSize ipNet.mask).1
  · have hold : lookup table len p = (get g.routes ⟨p, none⟩).map Route.value := by
      rw [← lookup_withGroup (maskSize ipNet.mask).1, lookup, hl, hg]
      rfl
    rw [if_pos (RouteGroup.same_iff.2 (hl.trans hlen.symm)), Option.bind_some,
      get_replaceOrInsert, hold]
    by_cases hp : p = ipNet.ip
    · rw [if_pos (Route.same_iff.2 hp), if_pos ⟨hl, hp⟩]
      rfl
    · rw [if_neg fun h => hp (Route.same_iff.1 h), if_neg fun h => hp h.2]
  · have hother : ¬same (⟨len, new⟩ : RouteGroup BTree V)
        { g with routes := replaceOrInsert g.routes ⟨ipNet.ip, value⟩ } = true :=
      fun h => hl ((RouteGroup.same_iff.1 h).trans hlen)
    rw [if_neg hother, if_neg fun h => hl h.1]
    exact lookup_withGroup _ len p

/-- A group of the table answers what the table does for its length. -/
theorem routeOf_eq_lookup {g : RouteGroup BTree V} (hg : g ∈ items table) (masked : Nat → IP) :
    SimpleRouter.routeOf masked g = lookup table g.prefixLen (masked g.prefixLen) := by
  have hget : get table { prefixLen := g.prefixLen } = some g :=
    get_of_mem hg (RouteGroup.same_iff.2 rfl)
  rw [lookup, hget]
  rfl

theorem exists_group_of_lookup {len : Nat} {p : IP} {v : Option V}
    (h : lookup table len p = some v) : ∃ g ∈ items table, g.prefixLen = len := by
  obtain ⟨g, hg, _⟩ := Option.bind_eq_some_iff.1 h
  exact ⟨g, mem_of_get hg, (RouteGroup.same_iff.1 (same_of_get hg)).symm⟩

/-- The search ends at the longest prefix for which the table has the address. -/
theorem descend_eq_some_iff (masked : Nat → IP) {v : Option V} :
    descend table (seek (SimpleRouter.routeOf masked)) none = some v ↔
      ∃ len, lookup table len (masked len) = some v ∧
        ∀ len', len < len' → lookup table len' (masked len') = none := by
  rw [Btree.descend_eq_some_iff]
  constructor
  · rintro ⟨g, hg, hv, hmax⟩
    rw [routeOf_eq_lookup hg] at hv
    refine ⟨g.prefixLen, hv, fun len' hlt => ?_⟩
    by_contra hsome
    obtain ⟨v', hv'⟩ := Option.ne_none_iff_exists'.1 hsome
    obtain ⟨g', hg', rfl⟩ := exists_group_of_lookup hv'
    have hnone := hmax g' hg' (decide_eq_true hlt)
    rw [routeOf_eq_lookup hg', hv'] at hnone
    cases hnone
  · rintro ⟨len, hv, hmax⟩
    obtain ⟨g, hg, rfl⟩ := exists_group_of_lookup hv
    refine ⟨g, hg, by rw [routeOf_eq_lookup hg, hv], fun g' hg' hlt => ?_⟩
    rw [routeOf_eq_lookup hg']
    exact hmax g'.prefixLen (of_decide_eq_true hlt)

theorem descend_eq_none_iff (masked : Nat → IP) :
    descend table (seek (SimpleRouter.routeOf masked)) none = none ↔
      ∀ len, lookup table len (masked len) = none := by
  rw [Btree.descend_eq_none_iff]
  constructor
  · intro h len
    by_contra hsome
    obtain ⟨v, hv⟩ := Option.ne_none_iff_exists'.1 hsome
    obtain ⟨g, hg, rfl⟩ := exists_group_of_lookup hv
    have hnone := h g hg
    rw [routeOf_eq_lookup hg, hv] at hnone
    cases hnone
  · intro h g hg
    rw [routeOf_eq_lookup hg]
    exact h g.prefixLen

/-! ## Histories -/

/-- The networks that a history adds, with their values. -/
def networks (history : List (String × Option V)) : List (IPNet × Option V) :=
  history.filterMap fun call => (parseCIDR call.1).map fun cidr => (cidr.2, call.2)

/-- The prefix length of a network. -/
def ones (n : IPNet) : Nat := (maskSize n.mask).1

/-- The table of the family of an address. -/
def SimpleRouter.tableOf (router : SimpleRouter BTree V) (is4 : Bool) :
    BTree (RouteGroup BTree V) :=
  if is4 then router.routes else router.routes6

/-- A route of the family with this length and these bytes. -/
def hits (is4 : Bool) (len : Nat) (p : IP) (r : IPNet × Option V) : Bool :=
  r.1.ip.to4.isSome = is4 ∧ ones r.1 = len ∧ r.1.ip = p

theorem networks_concat (history : List (String × Option V)) (call : String × Option V) :
    networks (history ++ [call]) =
      networks history ++ ((parseCIDR call.1).map fun cidr => (cidr.2, call.2)).toList := by
  rw [networks, List.filterMap_append, ← networks]
  cases h : parseCIDR call.1 with
  | none => simp [h]
  | some cidr => simp [h]

theorem addRoutes_concat (history : List (String × Option V)) (call : String × Option V) :
    SimpleRouter.addRoutes BTree (history ++ [call]) =
      ((SimpleRouter.addRoutes BTree history).addRoute call.1 call.2).toOption.getD
        (SimpleRouter.addRoutes BTree history) := List.foldl_concat ..

/-- A network goes to the table of its family. -/
theorem tableOf_addRoute (router : SimpleRouter BTree V) {cidr : String} {ip : IP} {n : IPNet}
    (h : parseCIDR cidr = some (ip, n)) (value : Option V) (is4 : Bool) :
    ((router.addRoute cidr value).toOption.getD router).tableOf is4 =
      if n.ip.to4.isSome = is4 then doAddRoute (router.tableOf is4) n value
      else router.tableOf is4 := by
  simp only [SimpleRouter.addRoute, h]
  cases n.ip.to4.isSome <;> cases is4 <;> rfl

/-- A table answers with the latest route that has the length and the bytes. -/
theorem lookup_addRoutes (history : List (String × Option V)) (is4 : Bool) (len : Nat) (p : IP) :
    lookup ((SimpleRouter.addRoutes BTree history).tableOf is4) len p =
      ((networks history).reverse.find? (hits is4 len p)).map Prod.snd := by
  induction history using List.reverseRecOn with
  | nil => cases is4 <;> exact lookup_new len p
  | append_singleton history call ih =>
    rw [addRoutes_concat, networks_concat, List.reverse_append, List.find?_append]
    cases hc : parseCIDR call.1 with
    | none =>
      rw [SimpleRouter.addRoute, hc]
      exact ih
    | some cidr =>
      obtain ⟨ip, n⟩ := cidr
      rw [tableOf_addRoute _ hc, Option.map_some, Option.toList_some, List.reverse_singleton,
        List.find?_singleton]
      by_cases hfam : n.ip.to4.isSome = is4
      · rw [if_pos hfam, lookup_doAddRoute, ih]
        by_cases hhit : len = (maskSize n.mask).1 ∧ p = n.ip
        · have hyes : hits is4 len p (n, call.2) = true :=
            decide_eq_true ⟨hfam, hhit.1.symm, hhit.2.symm⟩
          rw [if_pos hhit, if_pos hyes]
          rfl
        · have hno : ¬hits is4 len p (n, call.2) = true := fun h =>
            hhit ⟨(of_decide_eq_true h).2.1.symm, (of_decide_eq_true h).2.2.symm⟩
          rw [if_neg hhit, if_neg hno]
          rfl
      · have hno : ¬hits is4 len p (n, call.2) = true := fun h => hfam (of_decide_eq_true h).1
        rw [if_neg hfam, if_neg hno, ih]
        rfl

/-! ## Longest prefix match -/

/-- `r` is the latest route among those with the longest prefix that contains the address. -/
structure LongestMatch (routes : List (IPNet × Option V)) (addr : IP) (r : IPNet × Option V) :
    Prop where
  contains : r.1.contains addr = true
  longest : ∀ r' ∈ routes, r'.1.contains addr = true → ones r'.1 ≤ ones r.1
  latest : ∃ before after, routes = before ++ r :: after ∧
    ∀ r' ∈ after, r'.1.contains addr = true → ones r'.1 < ones r.1

/-- Calls with CIDRs of native form, or that fail. -/
def NativeCalls (history : List (String × Option V)) : Prop :=
  ∀ r ∈ networks history, r.1.Native

instance (history : List (String × Option V)) : Decidable (NativeCalls history) :=
  inferInstanceAs (Decidable (∀ r ∈ networks history, r.1.Native))

/-- A native route has the bytes of an address, cut to its length, where it contains it. -/
theorem hits_iff_contains {r : IPNet × Option V} {len : Nat} {addr : IP} (ha : addr.length = 16)
    (hp : ∃ o, r.1.Parsed o) (hn : r.1.Native) :
    hits addr.to4.isSome len
        (addr.mask (cidrMask len (if addr.to4.isSome then 32 else 128))) r = true ↔
      ones r.1 = len ∧ r.1.contains addr = true := by
  obtain ⟨o, hp⟩ := hp
  have hones : ones r.1 = o := by rw [ones, hp.size]
  have hle := hp.le
  rw [hits, decide_eq_true_eq, hn.to4_isSome, hones, r.1.contains_iff hp hn, and_left_comm]
  refine and_congr_right fun ho => ?_
  subst ho
  cases h4 : addr.to4 with
  | some ip4 =>
    have hlen4 : ip4.length = 4 := by
      rw [to4_of_length ha] at h4
      split_ifs at h4
      cases h4
      rw [List.length_drop, ha]
    simp only [Option.isSome_some, decide_eq_true_eq, if_true, Option.getD_some, hlen4]
    refine ⟨fun ⟨hl, he⟩ => ⟨hl.symm, ?_⟩, fun ⟨hl, he⟩ => ⟨hl.symm, ?_⟩⟩
    · rw [hl] at hle
      rw [mask_of_mapped ha h4 (length_cidrMask (Or.inl rfl) hle)] at he
      rw [hp.mask, hl]
      exact he.symm
    · rw [← hl] at hle
      rw [mask_of_mapped ha h4 (length_cidrMask (Or.inl rfl) hle), ← he, hp.mask, ← hl]
  | none =>
    have hfam : r.1.ip.length ≠ 4 ↔ 16 = r.1.ip.length := by
      have := hp.length
      omega
    simp only [Option.isSome_none, decide_eq_false_iff_not, Option.getD_none, ha, hfam]
    refine ⟨fun ⟨hl, he⟩ => ⟨hl, ?_⟩, fun ⟨hl, he⟩ => ⟨hl, ?_⟩⟩
    · rw [← hl] at hle
      have hm : addr.length = (cidrMask o 128).length := by
        rw [ha, length_cidrMask (Or.inr rfl) hle]
      rw [hp.mask, ← hl]
      exact (he.trans (mask_of_length hm)).symm
    · rw [← hl] at hle
      have hm : addr.length = (cidrMask o 128).length := by
        rw [ha, length_cidrMask (Or.inr rfl) hle]
      rw [hp.mask, ← hl] at he
      exact he.symm.trans (mask_of_length hm).symm

theorem networks_parsed {history : List (String × Option V)} {r : IPNet × Option V}
    (h : r ∈ networks history) : ∃ o, r.1.Parsed o := by
  obtain ⟨call, _, hcall⟩ := List.mem_filterMap.1 h
  obtain ⟨cidr, hcidr, rfl⟩ := Option.map_eq_some_iff.1 hcall
  exact parseCIDR_parsed hcidr

/-- For an address, a table answers for a length with the latest route of this length that
contains it. -/
theorem lookup_eq_latest {history : List (String × Option V)} (hn : NativeCalls history)
    {addr : IP} (ha : addr.length = 16) (len : Nat) :
    lookup ((SimpleRouter.addRoutes BTree history).tableOf addr.to4.isSome) len
        (addr.mask (cidrMask len (if addr.to4.isSome then 32 else 128))) =
      ((networks history).reverse.find? fun r =>
        decide (ones r.1 = len ∧ r.1.contains addr = true)).map Prod.snd := by
  rw [lookup_addRoutes]
  refine congrArg _ (List.find?_congr fun r hr => ?_)
  have hr := List.mem_reverse.1 hr
  rw [Bool.eq_iff_iff, hits_iff_contains ha (networks_parsed hr) (hn r hr), decide_eq_true_eq]

/-- A native network contains addresses of its own family only. -/
theorem family_of_contains {r : IPNet × Option V} {addr : IP} (ha : addr.length = 16)
    (hp : ∃ o, r.1.Parsed o) (hn : r.1.Native) (h : r.1.contains addr = true) :
    r.1.ip.to4.isSome = addr.to4.isSome :=
  (of_decide_eq_true ((hits_iff_contains ha hp hn).2 ⟨rfl, h⟩)).1

namespace SimpleRouter

theorem getRoute_eq (router : SimpleRouter BTree V) {ip : String} {addr : IP}
    (h : parseIP ip = some addr) :
    router.getRoute ip = .ok ((descend (router.tableOf addr.to4.isSome) (seek (routeOf fun len =>
      addr.mask (cidrMask len (if addr.to4.isSome then 32 else 128)))) none).getD none) := by
  simp only [getRoute, h]
  cases addr.to4.isSome <;> rfl

/-- `GetRoute` answers with the value of the longest match, whose family is that of the
address, and with nil where no network contains the address. -/
theorem longest_prefix_match (history : List (String × Option V)) (hn : NativeCalls history)
    (ip : String) (addr : IP) (hip : parseIP ip = some addr) :
    (∃ r ∈ networks history, LongestMatch (networks history) addr r ∧
        r.1.ip.to4.isSome = addr.to4.isSome ∧ (addRoutes BTree history).getRoute ip = .ok r.2) ∨
      ((∀ r ∈ networks history, r.1.contains addr = false) ∧
        (addRoutes BTree history).getRoute ip = .ok none) := by
  have ha := length_parseIP hip
  rw [getRoute_eq _ hip]
  cases hd : descend ((addRoutes BTree history).tableOf addr.to4.isSome) (seek (routeOf fun len =>
      addr.mask (cidrMask len (if addr.to4.isSome then 32 else 128)))) none with
  | none =>
    refine Or.inr ⟨fun r hr => ?_, rfl⟩
    have hnone := (descend_eq_none_iff _).1 hd (ones r.1)
    rw [lookup_eq_latest hn ha, Option.map_eq_none_iff, List.find?_eq_none] at hnone
    simpa using hnone r (List.mem_reverse.2 hr)
  | some v =>
    obtain ⟨len, hv, hmax⟩ := (descend_eq_some_iff _).1 hd
    rw [lookup_eq_latest hn ha] at hv
    obtain ⟨r, hr, rfl⟩ := Option.map_eq_some_iff.1 hv
    obtain ⟨hhit, as, bs, hsplit, has⟩ := List.find?_eq_some_iff_append.1 hr
    obtain ⟨hlen, hc⟩ := of_decide_eq_true hhit
    have hnets : networks history = bs.reverse ++ r :: as.reverse := by
      rw [← List.reverse_reverse (networks history), hsplit]
      simp
    have hmem : r ∈ networks history := by
      rw [hnets]
      exact List.mem_append_right _ List.mem_cons_self
    have hlongest : ∀ r' ∈ networks history, r'.1.contains addr = true → ones r'.1 ≤ ones r.1 := by
      intro r' hr' hc'
      by_contra hlt
      have hnone := hmax (ones r'.1) (by omega)
      rw [lookup_eq_latest hn ha, Option.map_eq_none_iff, List.find?_eq_none] at hnone
      exact hnone r' (List.mem_reverse.2 hr') (decide_eq_true ⟨rfl, hc'⟩)
    refine Or.inl ⟨r, hmem, ⟨hc, hlongest, bs.reverse, as.reverse, hnets, ?_⟩,
      family_of_contains ha (networks_parsed hmem) (hn r hmem) hc, rfl⟩
    intro r' hr' hc'
    have hle := hlongest r' (hnets ▸ List.mem_append_right _ (List.mem_cons_of_mem _ hr')) hc'
    refine Nat.lt_of_le_of_ne hle fun he => ?_
    have hno := has r' (List.mem_reverse.1 hr')
    rw [decide_eq_true ⟨he.trans hlen, hc'⟩] at hno
    cases hno

/-- Nested networks of one family, one of them added twice, and a network of the other. -/
def nested : List (String × Option Nat) :=
  [("192.168.1.0/24", some 1), ("192.168.0.0/16", some 2), ("fd00::/8", some 3),
    ("192.168.1.0/24", some 4)]

example :
    ((addRoutes SortedList nested).getRoute "192.168.1.7").toOption = some (some 4) := by decide

theorem longest_prefix_match_nested :
    (∃ r ∈ networks nested, LongestMatch (networks nested)
        [0, 0, 0, 0, 0, 0, 0, 0, 0, 0, 255, 255, 192, 168, 1, 7] r ∧
        r.1.ip.to4.isSome = true ∧ (addRoutes SortedList nested).getRoute "192.168.1.7" = .ok r.2) ∨
      ((∀ r ∈ networks nested,
          r.1.contains [0, 0, 0, 0, 0, 0, 0, 0, 0, 0, 255, 255, 192, 168, 1, 7] = false) ∧
        (addRoutes SortedList nested).getRoute "192.168.1.7" = .ok none) :=
  longest_prefix_match nested (by decide) "192.168.1.7"
    [0, 0, 0, 0, 0, 0, 0, 0, 0, 0, 255, 255, 192, 168, 1, 7] (by decide)

end SimpleRouter

end CloudPing.Routing

import CloudPing.Routing.SimpleRouter
import CloudPing.Utils.IPText

/-!
# Which routes are reachable

`AddRoute` chooses the table by the address of a prefix, and the length by its mask.  An IPv6
prefix that maps an IPv4 one goes to the table of IPv4, with a length above 32 and an address of
sixteen bytes.  `GetRoute` asks that table for addresses of four bytes only, so such a route is
never found (`native_of_hits`), whatever else was added, and it hides no other.

So the routes that can be reached are the native ones (`reachable_iff`).
-/

namespace CloudPing.Routing

open Btree Btree.OrderedTree CloudPing.Utils

universe u

variable {BTree : (α : Type u) → [Item α] → Type u} [OrderedTree BTree] {V : Type u}

/-- The bits of an address that a network leaves open.  The longer of two prefixes leaves fewer. -/
def hostBits (n : IPNet) : Nat := (maskSize n.mask).2 - (maskSize n.mask).1

/-- The route that was just added answers for every address that no longer prefix contains,
whatever was added before. -/
def Reachable (BTree : (α : Type u) → [Item α] → Type u) [OrderedTree BTree] (V : Type u)
    (cidr : String) (n : IPNet) : Prop :=
  ∀ (history : List (String × Option V)) (value : Option V) (ip : String) (addr : IP),
    parseIP ip = some addr → n.contains addr = true →
    (∀ r ∈ networks history, r.1.contains addr = true → hostBits n ≤ hostBits r.1) →
    (SimpleRouter.addRoutes BTree (history ++ [(cidr, value)])).getRoute ip = .ok value

/-! ## What an address finds -/

/-- The bytes that a table is asked for. -/
def maskedTo (addr : IP) (len : Nat) : IP :=
  addr.mask (cidrMask len (if addr.to4.isSome then 32 else 128))

/-- A mask of four bytes, or none, cuts the address to as many. -/
theorem length_maskedTo {addr : IP} (ha : addr.length = 16) (h4 : addr.to4.isSome = true)
    (len : Nat) : (maskedTo addr len).length ≤ 4 := by
  obtain ⟨ip4, hip4⟩ := Option.isSome_iff_exists.1 h4
  rw [maskedTo, if_pos h4]
  by_cases hlen : len ≤ 32
  · rw [mask_of_mapped ha hip4 (length_cidrMask (Or.inl rfl) hlen), List.length_zipWith]
    exact Nat.le_trans (Nat.min_le_left _ _) (Nat.le_of_eq (length_of_to4 hip4))
  · have hnil : cidrMask len 32 = [] := by
      rw [cidrMask, if_neg (by decide), if_pos (by omega)]
    rw [hnil, IP.mask]
    simp

/-- A route that is found for an address is native. -/
theorem native_of_hits {r : IPNet × Option V} {addr : IP} {len : Nat} (ha : addr.length = 16)
    (hp : ∃ o, r.1.Parsed o) (h : hits addr.to4.isSome len (maskedTo addr len) r = true) :
    r.1.Native := by
  obtain ⟨o, hp⟩ := hp
  obtain ⟨hfam, -, hip⟩ := of_decide_eq_true h
  by_contra hn
  rw [IPNet.Native, not_or] at hn
  have h16 : r.1.ip.length = 16 := hp.length.resolve_left hn.1
  have h4 : addr.to4.isSome = true := by
    rw [← hfam, Option.isSome_iff_ne_none]
    exact hn.2
  have hle := length_maskedTo ha h4 len
  rw [← hip, h16] at hle
  exact absurd hle (by decide)

/-- So it contains the address, and has the length that was asked for. -/
theorem hits_iff {r : IPNet × Option V} {addr : IP} {len : Nat} (ha : addr.length = 16)
    (hp : ∃ o, r.1.Parsed o) :
    hits addr.to4.isSome len (maskedTo addr len) r = true ↔
      r.1.Native ∧ ones r.1 = len ∧ r.1.contains addr = true := by
  constructor
  · intro h
    have hn := native_of_hits ha hp h
    exact ⟨hn, (hits_iff_contains ha hp hn).1 h⟩
  · rintro ⟨hn, h⟩
    exact (hits_iff_contains ha hp hn).2 h

/-- Two native networks of one address leave open what their lengths say. -/
theorem ones_le_iff {n n' : IPNet} {addr : IP} (hp : ∃ o, n.Parsed o) (hp' : ∃ o, n'.Parsed o)
    (hn : n.Native) (hn' : n'.Native) (h : n.contains addr = true)
    (h' : n'.contains addr = true) : hostBits n ≤ hostBits n' ↔ ones n' ≤ ones n := by
  obtain ⟨o, hp⟩ := hp
  obtain ⟨o', hp'⟩ := hp'
  have hlen := ((IPNet.contains_iff hp hn).1 h).1.symm.trans ((IPNet.contains_iff hp' hn').1 h').1
  have hle := hp.le
  have hle' := hp'.le
  rw [hostBits, hostBits, ones, ones, hp.size, hp'.size]
  dsimp only
  omega

/-! ## Native routes -/

theorem networks_add (history : List (String × Option V)) {cidr : String} {ip : IP} {n : IPNet}
    (h : parseCIDR cidr = some (ip, n)) (value : Option V) :
    networks (history ++ [(cidr, value)]) = networks history ++ [(n, value)] := by
  rw [networks_concat, h]
  rfl

theorem reachable_of_native {cidr : String} {ip : IP} {n : IPNet}
    (h : parseCIDR cidr = some (ip, n)) (hn : n.Native) : Reachable BTree V cidr n := by
  intro history value text addr htext hc hlong
  have ha := length_parseIP htext
  have hp := parseCIDR_parsed h
  have hhits : hits addr.to4.isSome (ones n) (maskedTo addr (ones n)) (n, value) = true :=
    (hits_iff ha hp).2 ⟨hn, rfl, hc⟩
  have hfound : descend ((SimpleRouter.addRoutes BTree (history ++ [(cidr, value)])).tableOf
      addr.to4.isSome) (seek (SimpleRouter.routeOf (maskedTo addr))) none = some value := by
    refine (descend_eq_some_iff _).2 ⟨ones n, ?_, fun len hlt => ?_⟩
    · rw [lookup_addRoutes, networks_add history h, List.reverse_append, List.reverse_singleton,
        List.singleton_append, List.find?_cons_of_pos hhits]
      rfl
    · rw [lookup_addRoutes, networks_add history h, Option.map_eq_none_iff, List.find?_eq_none]
      intro r hr hhit
      rw [List.mem_reverse, List.mem_append, List.mem_singleton] at hr
      rcases hr with hr | rfl
      · have hpr := networks_parsed hr
        obtain ⟨hnr, hlen, hcr⟩ := (hits_iff ha hpr).1 hhit
        have hle := (ones_le_iff hp hpr hn hnr hc hcr).1 (hlong r hr hcr)
        omega
      · have hlen := ((hits_iff ha hp).1 hhit).2.1
        dsimp only at hlen
        omega
  rw [SimpleRouter.getRoute_eq _ htext]
  exact congrArg (fun found => Except.ok (found.getD none)) hfound

/-! ## Mapped routes -/

theorem networkNumber_eq {n : IPNet} (hp : ∃ o, n.Parsed o) :
    n.networkNumberAndMask.1 = normal n.ip := by
  obtain ⟨o, hp⟩ := hp
  have hlen := hp.length
  have hmask := hp.length_mask
  rw [IPNet.networkNumberAndMask, normal]
  cases h4 : n.ip.to4 with
  | none => rcases hlen with hlen | hlen <;> simp [hmask, hlen]
  | some p4 =>
    have hp4 := length_of_to4 h4
    rcases hlen with hlen | hlen <;> simp [hp4, hmask, hlen]

/-- A network contains its own address, in either form. -/
theorem contains_self {n : IPNet} (hp : ∃ o, n.Parsed o) {addr : IP}
    (haddr : normal addr = normal n.ip) : n.contains addr = true := by
  have hnn := networkNumber_eq hp
  rw [← haddr, normal] at hnn
  simp only [IPNet.contains, hnn]
  exact decide_eq_true ⟨trivial, trivial⟩

theorem native_of_reachable [Inhabited V] {cidr : String} {ip : IP} {n : IPNet}
    (h : parseCIDR cidr = some (ip, n)) (hr : Reachable BTree V cidr n) : n.Native := by
  have hp := parseCIDR_parsed h
  obtain ⟨addr, htext, haddr⟩ := parseIP_ipString hp.choose_spec.length
  have ha := length_parseIP htext
  have hget := hr [] (some default) _ addr htext (contains_self hp haddr)
    fun r hr => absurd hr List.not_mem_nil
  rw [SimpleRouter.getRoute_eq _ htext] at hget
  by_contra hn
  have hnone : descend ((SimpleRouter.addRoutes BTree ([] ++ [(cidr, some default)])).tableOf
      addr.to4.isSome) (seek (SimpleRouter.routeOf (maskedTo addr))) none =
        (none : Option (Option V)) := by
    refine (descend_eq_none_iff _).2 fun len => ?_
    rw [lookup_addRoutes, networks_add [] h, Option.map_eq_none_iff, List.find?_eq_none]
    intro r hr hhit
    rw [List.mem_reverse, List.mem_append, List.mem_singleton] at hr
    obtain rfl := hr.resolve_left List.not_mem_nil
    exact hn ((hits_iff ha hp).1 hhit).1
  have hnil : (.ok none : Except String (Option V)) = .ok (some default) :=
    (congrArg (fun found => Except.ok (found.getD none)) hnone).symm.trans hget
  cases hnil

/-- A route is reachable exactly if its prefix does not map one of IPv4. -/
theorem reachable_iff [Inhabited V] {cidr : String} {ip : IP} {n : IPNet}
    (h : parseCIDR cidr = some (ip, n)) : Reachable BTree V cidr n ↔ n.Native :=
  ⟨native_of_reachable h, reachable_of_native h⟩

theorem reachable_iff_subnet :
    Reachable SortedList Nat "192.168.1.0/24" ⟨[192, 168, 1, 0], [255, 255, 255, 0]⟩ := by
  have hparse : parseCIDR "192.168.1.0/24" =
      some ([0, 0, 0, 0, 0, 0, 0, 0, 0, 0, 255, 255, 192, 168, 1, 0],
        ⟨[192, 168, 1, 0], [255, 255, 255, 0]⟩) := by decide
  exact (reachable_iff hparse).2 (by decide)

/-- The network of a prefix that maps `192.168.1.0/24`. -/
def mappedNet : IPNet :=
  ⟨[0, 0, 0, 0, 0, 0, 0, 0, 0, 0, 255, 255, 192, 168, 1, 0], List.replicate 15 255 ++ [0]⟩

/-- The prefix is accepted, and an address in it has no route. -/
theorem mapped_not_reachable :
    parseCIDR "::ffff:192.168.1.0/120" = some (mappedNet.ip, mappedNet) ∧
    ((SimpleRouter.new : SimpleRouter SortedList Nat).addRoute
      "::ffff:192.168.1.0/120" (some 7)).toOption.isSome = true ∧
    (SimpleRouter.addRoutes SortedList [("::ffff:192.168.1.0/120", some 7)]).getRoute
      "192.168.1.77" = .ok none ∧
    ¬Reachable SortedList Nat "::ffff:192.168.1.0/120" mappedNet := by
  have hnone : (SimpleRouter.addRoutes SortedList [("::ffff:192.168.1.0/120", some 7)]).getRoute
      "192.168.1.77" = .ok none := by rfl
  refine ⟨by decide, by decide, hnone, fun hr => ?_⟩
  have hget := hr [] (some 7) "192.168.1.77"
    [0, 0, 0, 0, 0, 0, 0, 0, 0, 0, 255, 255, 192, 168, 1, 77] (by decide) (by decide)
    fun r hr => absurd hr List.not_mem_nil
  cases hnone.symm.trans hget

end CloudPing.Routing

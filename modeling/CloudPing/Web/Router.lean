import Mathlib.Logic.Function.Basic
import CloudPing.Web.IPAddr

/-!
# The route table of the web client

`buildTable` keeps the routes of each family in a trie.  The segments between its levels
come from the prefix lengths of the whole list, sorted, as differences of neighbours.  A
route goes down one level after the other while the next one is within its prefix, and
`doLookup` follows an address down and falls back to what it passed.

The differences are taken in place, so each is to the difference before it and not to the
length before it.  `TrieLevels` says which levels that gives.
-/

namespace CloudPing.Web

variable {V : Type}

/-- A route, whose prefix is no longer than its address. -/
structure Route (V : Type) where
  networkAddr : IPAddr
  prefixLength : Nat
  prefixLength_le : prefixLength ≤ networkAddr.maxBits
  value : Option V := none
  deriving DecidableEq, Repr

mutual

inductive NodeEntry (V : Type) where
  | mk (nextHeader : Option (NodeEntryNextHeader V)) (routes : Option (List (Route V)))

/-- The subtrees are under the decimal strings of their segments, here under the numbers. -/
inductive NodeEntryNextHeader (V : Type) where
  | mk (segmentLength : Nat) (seg2SubTrees : Nat → Option (NodeEntry V))

end

namespace NodeEntryNextHeader

def segmentLength : NodeEntryNextHeader V → Nat
  | mk segmentLength _ => segmentLength

def seg2SubTrees : NodeEntryNextHeader V → Nat → Option (NodeEntry V)
  | mk _ seg2SubTrees => seg2SubTrees

end NodeEntryNextHeader

namespace NodeEntry

def nextHeader : NodeEntry V → Option (NodeEntryNextHeader V)
  | mk nextHeader _ => nextHeader

def routes : NodeEntry V → Option (List (Route V))
  | mk _ routes => routes

/-- `{}`. -/
def empty : NodeEntry V := mk none none

end NodeEntry

/-! ## Lookup -/

structure LookupResult (V : Type) where
  routes : Option (List (Route V))
  matchedPrefixLen : Nat

def doLookup (tableEntry : NodeEntry V) (ipAddress : IPAddr) (matchedPrefixLen maxBits : Nat) :
    Except String (LookupResult V) :=
  let currentDefault : LookupResult V := ⟨tableEntry.routes, matchedPrefixLen⟩
  match tableEntry.nextHeader with
  | none => .ok currentDefault
  | some nextHeader =>
    if matchedPrefixLen = maxBits then .ok currentDefault
    else if _hseg : nextHeader.segmentLength = 0 ∨
        nextHeader.segmentLength + matchedPrefixLen > maxBits then
      .error "Invalid segment length"
    else
      let segment := ipAddress.getMaskedValue matchedPrefixLen nextHeader.segmentLength
      match nextHeader.seg2SubTrees segment with
      | none => .ok currentDefault
      | some nextTb =>
        match doLookup nextTb ipAddress (matchedPrefixLen + nextHeader.segmentLength) maxBits with
        | .error e => .error e
        | .ok lookupResult =>
          .ok (if lookupResult.routes.getD [] ≠ [] then lookupResult else currentDefault)
termination_by maxBits - matchedPrefixLen

/-! ## Segments -/

/-- The loop that takes the differences in place, where `last` is what the place before now
holds. -/
def differences (last : Int) : List Int → List Int
  | [] => []
  | len :: lens => (len - last) :: differences (len - last) lens

/-- The segments of a list of prefix lengths. -/
def segmentLengths (lens : List Nat) : List Nat :=
  match (lens.mergeSort (· ≤ ·)).map Int.ofNat with
  | [] => []
  | len :: lens => ((len :: differences len lens).filter (0 < ·)).map Int.toNat

def getTrieTreeSegmentLengths (routes : List (Route V)) : List Nat :=
  segmentLengths (routes.map Route.prefixLength)

/-! ## Insertion -/

/-- `doInsertRoute`, with the segments from the current level on. -/
def doInsertRoute (tableRoot : Option (NodeEntry V)) (route : Route V) (segments : List Nat)
    (eatenPrefixLen : Nat) : NodeEntry V :=
  let tableRoot := tableRoot.getD .empty
  match segments with
  | [] => ⟨tableRoot.nextHeader, some (tableRoot.routes.getD [] ++ [route])⟩
  | segment :: segments =>
    if eatenPrefixLen + segment > route.prefixLength then
      ⟨tableRoot.nextHeader, some (tableRoot.routes.getD [] ++ [route])⟩
    else
      let seg := route.networkAddr.getMaskedValue eatenPrefixLen segment
      let subTrees := (tableRoot.nextHeader.map (·.seg2SubTrees)).getD fun _ => none
      let subTree := doInsertRoute (subTrees seg) route segments (eatenPrefixLen + segment)
      ⟨some ⟨segment, Function.update subTrees seg (some subTree)⟩, tableRoot.routes⟩

/-! ## The table -/

structure RouteTableWrapper (V : Type) where
  table4 : Option (NodeEntry V)
  table6 : Option (NodeEntry V)

namespace RouteTableWrapper

def table (t : RouteTableWrapper V) : IPAddressFamily → Option (NodeEntry V)
  | .ipv4 => t.table4
  | .ipv6 => t.table6

def lookup (t : RouteTableWrapper V) (ipAddress : IPAddr) : Except String (List (Route V)) :=
  match t.table ipAddress.family with
  | none => .ok []
  | some table =>
    (doLookup table ipAddress 0 ipAddress.maxBits).map fun result => result.routes.getD []

end RouteTableWrapper

/-- The trie of the routes of one family. -/
def buildFamily (routes : List (Route V)) : Option (NodeEntry V) :=
  let segments := getTrieTreeSegmentLengths routes
  routes.foldl (fun table route => some (doInsertRoute table route segments 0)) none

/-- The routes of a family. -/
def familyRoutes (routes : List (Route V)) (family : IPAddressFamily) : List (Route V) :=
  routes.filter fun r => r.networkAddr.family = family

def buildTable (routes : List (Route V)) : RouteTableWrapper V :=
  ⟨buildFamily (familyRoutes routes .ipv4), buildFamily (familyRoutes routes .ipv6)⟩

end CloudPing.Web

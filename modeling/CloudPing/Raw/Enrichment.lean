import CloudPing.Raw.Tracker
import CloudPing.Wire.Result

/-!
# What the lookups add to a reply

Before an event goes to the output its replies are looked up twice.  `ResolveIPInfo` asks an
adapter for the network and the place of the peer, and `ResolveRDNS` asks a resolver for
its names.  Both copy the entry and each reply, and add what they found to the copy.

The two differ in what a failed lookup does.  `ResolveRDNS` keeps the copy as it is.
`ResolveIPInfo` gives up, and there is no entry left.

`plain` takes away what the lookups added.  The adapter and the resolver are called once for
each reply, and each call has an outcome of its own.
-/

namespace CloudPing.Raw

open Wire (bind_eq_ok map_eq_ok)

/-! ## The lookups -/

/-- A place, given by coordinates of some type. -/
structure ExactLocation (F : Type) where
  longitude : F
  latitude : F

structure BasicIPInfo (F : Type) where
  asn : String
  location : String
  isp : String
  country : Option String
  region : Option String
  city : Option String
  exactLocation : Option (ExactLocation F)
  iso3166Alpha2 : Option String

/-- One call of `GetIPInfo`. -/
abbrev GetIPInfo (F : Type) := String → Except String (Option (BasicIPInfo F))

inductive LookupError where
  /-- A `net.DNSError`. -/
  | dns (err : String)
  | other (err : String)

/-- One call of `LookupAddr`. -/
abbrev LookupAddr := String → Except LookupError (List String)

/-- A string that is left out when it is empty. -/
def unlessEmpty (s : String) (old : Option String) : Option String := if s ≠ "" then some s else old

/-! ## Replies -/

/-- A reply with the fields of the IP information provider. -/
structure WrappedReply (F : Type) extends ICMPReceiveReply where
  peerRDNS : List String := []
  peerASN : Option String := none
  peerLocation : Option String := none
  peerISP : Option String := none
  peerExactLocation : Option (ExactLocation F) := none
  peerIPInfo : Option (BasicIPInfo F) := none

variable {F : Type}

namespace WrappedReply

def resolveIPInfo (icmpReply : WrappedReply F) (getIPInfo : GetIPInfo F) :
    Except String (WrappedReply F) :=
  match getIPInfo icmpReply.peer with
  | .error err => .error err
  | .ok none => .ok icmpReply
  | .ok (some ipInfo) =>
    .ok
      { icmpReply with
        peerIPInfo := some ipInfo
        peerASN := unlessEmpty ipInfo.asn icmpReply.peerASN
        peerLocation := unlessEmpty ipInfo.location icmpReply.peerLocation
        peerISP := unlessEmpty ipInfo.isp icmpReply.peerISP
        peerExactLocation := ipInfo.exactLocation.orElse fun _ => icmpReply.peerExactLocation }

def resolveRDNS (icmpReply : WrappedReply F) (lookupAddr : LookupAddr) : WrappedReply F :=
  match lookupAddr icmpReply.peer with
  | .error _ => icmpReply
  | .ok ptrAnswers => { icmpReply with peerRDNS := ptrAnswers }

variable {reply reply' : WrappedReply F} {getIPInfo : GetIPInfo F}

theorem plain_resolveIPInfo (h : reply.resolveIPInfo getIPInfo = .ok reply') :
    reply'.toICMPReceiveReply = reply.toICMPReceiveReply := by
  unfold resolveIPInfo at h
  split at h <;> cases h <;> rfl

theorem plain_resolveRDNS (reply : WrappedReply F) (lookupAddr : LookupAddr) :
    (reply.resolveRDNS lookupAddr).toICMPReceiveReply = reply.toICMPReceiveReply := by
  unfold resolveRDNS
  split <;> rfl

/-- Only a failed call makes `ResolveIPInfo` fail. -/
theorem resolveIPInfo_isOk : (reply.resolveIPInfo getIPInfo).isOk = (getIPInfo reply.peer).isOk := by
  unfold resolveIPInfo
  split
  next h => rw [h]; rfl
  next h => rw [h]; rfl
  next h => rw [h]; rfl

end WrappedReply

/-! ## Entries -/

/-- An entry whose replies have been looked up. -/
structure WrappedEV (F : Type) where
  seq : Int
  ttl : Int
  originDstAddr : Option IPAddr
  rttNanoSecs : List Int
  rttMilliSecs : List Int
  sentAt : Time
  receivedAt : List Time
  timer : Bool
  raw : List (WrappedReply F)

/-- The entry as the tracker has sent it. -/
def ICMPTrackerEntry.wrap (F : Type) (itEnt : ICMPTrackerEntry) : WrappedEV F where
  seq := itEnt.seq
  ttl := itEnt.ttl
  originDstAddr := itEnt.originDstAddr
  rttNanoSecs := itEnt.rttNanoSecs
  rttMilliSecs := itEnt.rttMilliSecs
  sentAt := itEnt.sentAt
  receivedAt := itEnt.receivedAt
  timer := itEnt.timer
  raw := itEnt.raw.map ({ toICMPReceiveReply := · })

namespace WrappedEV

/-- The entry without what was added to its replies. -/
def plain (itEnt : WrappedEV F) : ICMPTrackerEntry where
  seq := itEnt.seq
  ttl := itEnt.ttl
  originDstAddr := itEnt.originDstAddr
  rttNanoSecs := itEnt.rttNanoSecs
  rttMilliSecs := itEnt.rttMilliSecs
  sentAt := itEnt.sentAt
  receivedAt := itEnt.receivedAt
  timer := itEnt.timer
  raw := itEnt.raw.map (·.toICMPReceiveReply)

/-- The loop of `ResolveIPInfo`, from the call with the number `k` on. -/
def resolveReplies (calls : Nat → GetIPInfo F) :
    Nat → List (WrappedReply F) → Except String (List (WrappedReply F))
  | _, [] => .ok []
  | k, icmpReply :: icmpReplies => do
    let clonedICMPReply ← icmpReply.resolveIPInfo (calls k)
    let raw ← resolveReplies calls (k + 1) icmpReplies
    .ok (clonedICMPReply :: raw)

def resolveIPInfo (itEnt : WrappedEV F) (calls : Nat → GetIPInfo F) : Except String (WrappedEV F) :=
  (resolveReplies calls 0 itEnt.raw).map fun raw => { itEnt with raw := raw }

/-- The loop of `ResolveRDNS`, from the call with the number `k` on. -/
def resolveNames (calls : Nat → LookupAddr) : Nat → List (WrappedReply F) → List (WrappedReply F)
  | _, [] => []
  | k, icmpReply :: icmpReplies =>
    icmpReply.resolveRDNS (calls k) :: resolveNames calls (k + 1) icmpReplies

def resolveRDNS (itEnt : WrappedEV F) (calls : Nat → LookupAddr) : WrappedEV F :=
  { itEnt with raw := resolveNames calls 0 itEnt.raw }

theorem plain_wrap (itEnt : ICMPTrackerEntry) : (itEnt.wrap F).plain = itEnt := by
  have hraw : (itEnt.raw.map fun reply =>
      ({ toICMPReceiveReply := reply } : WrappedReply F)).map (·.toICMPReceiveReply) =
        itEnt.raw := by
    rw [List.map_map]
    exact List.map_id _
  rw [plain, ICMPTrackerEntry.wrap, hraw]

theorem plain_resolveReplies {calls : Nat → GetIPInfo F} {k : Nat}
    {raw raw' : List (WrappedReply F)} (h : resolveReplies calls k raw = .ok raw') :
    raw'.map (·.toICMPReceiveReply) = raw.map (·.toICMPReceiveReply) := by
  induction raw generalizing k raw' with
  | nil => cases h; rfl
  | cons icmpReply icmpReplies ih =>
    obtain ⟨cloned, hreply, h⟩ := bind_eq_ok.1 h
    obtain ⟨rest, hrest, h⟩ := bind_eq_ok.1 h
    obtain rfl := Except.ok.inj h
    rw [List.map_cons, List.map_cons, ih hrest, WrappedReply.plain_resolveIPInfo hreply]

/-- The pass gives up exactly if one of its calls fails. -/
theorem resolveReplies_isOk (calls : Nat → GetIPInfo F) (k : Nat) (raw : List (WrappedReply F)) :
    (resolveReplies calls k raw).isOk = true ↔
      ∀ i reply, raw[i]? = some reply → (calls (k + i) reply.peer).isOk = true := by
  induction raw generalizing k with
  | nil =>
    refine iff_of_true rfl fun i reply hi => ?_
    rw [List.getElem?_nil] at hi
    cases hi
  | cons icmpReply icmpReplies ih =>
    have hsplit : (resolveReplies calls k (icmpReply :: icmpReplies)).isOk = true ↔
        (icmpReply.resolveIPInfo (calls k)).isOk = true ∧
          (resolveReplies calls (k + 1) icmpReplies).isOk = true := by
      rw [resolveReplies]
      cases icmpReply.resolveIPInfo (calls k) with
      | error err => exact iff_of_false (fun h => by cases h) fun h => by cases h.1
      | ok cloned =>
        cases resolveReplies calls (k + 1) icmpReplies with
        | error err => exact iff_of_false (fun h => by cases h) fun h => by cases h.2
        | ok rest => exact iff_of_true rfl ⟨rfl, rfl⟩
    rw [hsplit, ih, WrappedReply.resolveIPInfo_isOk]
    constructor
    · rintro ⟨hhead, htail⟩ i reply hi
      cases i with
      | zero =>
        cases hi
        exact hhead
      | succ i =>
        have hcall := htail i reply hi
        rwa [Nat.add_right_comm] at hcall
    · intro h
      refine ⟨h 0 icmpReply rfl, fun i reply hi => ?_⟩
      have hcall := h (i + 1) reply hi
      rwa [Nat.add_right_comm]

theorem plain_resolveNames (calls : Nat → LookupAddr) (k : Nat) (raw : List (WrappedReply F)) :
    (resolveNames calls k raw).map (·.toICMPReceiveReply) = raw.map (·.toICMPReceiveReply) := by
  induction raw generalizing k with
  | nil => rfl
  | cons icmpReply icmpReplies ih =>
    rw [resolveNames, List.map_cons, List.map_cons, ih, WrappedReply.plain_resolveRDNS]

theorem plain_resolveIPInfo {itEnt itEnt' : WrappedEV F} {calls : Nat → GetIPInfo F}
    (h : itEnt.resolveIPInfo calls = .ok itEnt') : itEnt'.plain = itEnt.plain := by
  obtain ⟨raw, hraw, rfl⟩ := map_eq_ok.1 h
  rw [plain, plain, plain_resolveReplies hraw]

theorem resolveIPInfo_isOk (itEnt : WrappedEV F) (calls : Nat → GetIPInfo F) :
    (itEnt.resolveIPInfo calls).isOk = (resolveReplies calls 0 itEnt.raw).isOk := by
  rw [resolveIPInfo]
  cases resolveReplies calls 0 itEnt.raw <;> rfl

theorem plain_resolveRDNS (itEnt : WrappedEV F) (calls : Nat → LookupAddr) :
    (itEnt.resolveRDNS calls).plain = itEnt.plain := by
  rw [plain, resolveRDNS, plain, plain_resolveNames]

end WrappedEV

end CloudPing.Raw

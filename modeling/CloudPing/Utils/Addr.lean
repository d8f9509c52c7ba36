import CloudPing.Raw.Types

/-!
# Addresses, ranges and lists in strings

The range checks of `pkg/utils/addr.go` over `net.IPNet`, and the two functions of
`strings` the handlers cut their lists with.  Every caller of a range check makes sure
first that the list of ranges is not empty, so the panic for an empty list is left out.

What the handlers call of `net` and `net/url` depends on the network or is a parser whose
details matter to no result here.  `Net` collects these functions.  The results hold for
all of them.
-/

namespace CloudPing.Utils

/-! ## Ranges -/

/-- `net.IPNet`. -/
structure IPNet where
  ip : IP
  mask : List UInt8
  deriving DecidableEq, Repr

namespace IPNet

/-- The number and the mask of a network in the form of its family, empty for nil. -/
def networkNumberAndMask (n : IPNet) : IP × List UInt8 :=
  let ip := n.ip.to4.getD n.ip
  if ip.length ≠ 4 ∧ ip.length ≠ 16 then ([], [])
  else if n.mask.length = ip.length then (ip, n.mask)
  else if n.mask.length = 16 ∧ ip.length = 4 then (ip, n.mask.drop 12)
  else ([], [])

/-- `IPNet.Contains`. -/
def contains (n : IPNet) (ip : IP) : Bool :=
  let (nn, m) := n.networkNumberAndMask
  let ip := ip.to4.getD ip
  ip.length = nn.length ∧
    List.zipWith (· &&& ·) nn m = List.zipWith (· &&& ·) ip m

end IPNet

/-- `CheckIntersectIP`. -/
def checkIntersectIP (dstIP : IP) (rangeCIDRs : List IPNet) : Bool :=
  rangeCIDRs.any fun rangeCIDR => rangeCIDR.contains dstIP

/-- `CheckIntersect`: all the addresses are in the ranges. -/
def checkIntersect (dstIPs : List IP) (rangeCIDRs : List IPNet) : Bool :=
  dstIPs.all fun dstIP => checkIntersectIP dstIP rangeCIDRs

/-- `CheckDomainInRange`, over the patterns as predicates. -/
def checkDomainInRange (domain : String) (rangeDomains : List (String → Bool)) : Bool :=
  rangeDomains.any fun rangeDomain => rangeDomain domain

theorem checkIntersect_eq_true {dstIPs : List IP} {rangeCIDRs : List IPNet} :
    checkIntersect dstIPs rangeCIDRs = true ↔
      ∀ ip ∈ dstIPs, checkIntersectIP ip rangeCIDRs = true := List.all_eq_true

/-! ## Lists in strings -/

/-- `unicode.IsSpace`. -/
def isSpace (c : Char) : Bool :=
  c ∈ ['\t', '\n', '\x0b', '\x0c', '\r', ' ', '\u0085', '\u00a0', '\u1680', '\u2028', '\u2029',
    '\u202f', '\u205f', '\u3000'] ∨ ('\u2000' ≤ c ∧ c ≤ '\u200a')

/-- `strings.TrimSpace`. -/
def trimSpace (s : String) : String :=
  String.ofList ((s.toList.dropWhile isSpace).reverse.dropWhile isSpace).reverse

/-- The segments of a list of characters between the separators. -/
def splitChars (sep : Char) : List Char → List (List Char)
  | [] => [[]]
  | c :: cs =>
    if c = sep then [] :: splitChars sep cs
    else
      match splitChars sep cs with
      | [] => [[c]]
      | seg :: segs => (c :: seg) :: segs

/-- `strings.Split` at one character. -/
def split (s : String) (sep : Char) : List String := (splitChars sep s.toList).map String.ofList

/-! ## Functions of the standard library -/

/-- What the handlers use of `net` and `net/url`. -/
structure Net where
  /-- `Resolver.LookupIP` of a network and a host. -/
  lookupIP : String → String → Except String (List IP)
  /-- The network of `net.ParseCIDR`. -/
  parseCIDR : String → Option IPNet
  /-- `net.ParseIP`. -/
  parseIP : String → Option IP
  /-- The host of `net.SplitHostPort`. -/
  splitHost : String → Option String
  /-- `url.Parse` followed by `Hostname`. -/
  urlHostname : String → Except String String
  /-- `url.Parse` of an endpoint, with the given path if it has none, as a string again. -/
  urlWithPath : String → String → Option String

end CloudPing.Utils

import CloudPing.Handler.PingTask
import CloudPing.Word.Wrap
import Mathlib.Algebra.Order.Ring.Int

/-!
# The interval and the timeout a request is forwarded with

The hub compares the milliseconds of a request with its bound, takes the better of the two
and turns the result into nanoseconds and back.  The comparison is right for every number.
The product wraps around at 64 bits, so a number far enough from zero comes back as another
one, which may be out of the bound.
-/

namespace CloudPing.Handler

open CloudPing.Nodereg CloudPing.Pinger CloudPing.Utils

/-! ## Numbers that wrap -/

/-- The number congruent to `n` modulo `2 ^ 64` that fits in 64 bits has `P`. -/
def Wrapped (P : Int → Prop) (n : Int) : Prop :=
  ∃ j : Int, -2 ^ 63 ≤ n - j * 2 ^ 64 ∧ n - j * 2 ^ 64 < 2 ^ 63 ∧ P (n - j * 2 ^ 64)

theorem wrapped_iff {P : Int → Prop} {n : Int} : Wrapped P n ↔ P (n.bmod (2 ^ 64)) := by
  constructor
  · rintro ⟨j, hlo, hhi, hP⟩
    have hw : n.bmod (2 ^ 64) = n - j * 2 ^ 64 := by
      rw [← Int.sub_mul_bmod_self_right n j (2 ^ 64)]
      exact Word.bmod_of_bounds hlo hhi
    rwa [hw]
  · intro hP
    obtain ⟨hlo, hhi⟩ := Word.bmod_bounds n
    have hw : n.bmod (2 ^ 64) = n - n.bdiv (2 ^ 64) * 2 ^ 64 :=
      Int.bmod_eq_self_sub_bdiv_mul n (2 ^ 64)
    rw [hw] at hlo hhi hP
    exact ⟨_, hlo, hhi, hP⟩

/-- Milliseconds turned into a duration and back. -/
theorem toInt_milliseconds_mul (n : Int64) :
    (milliseconds (n * millisecond)).toInt = ((n.toInt * 1000000).bmod (2 ^ 64)).tdiv 1000000 := by
  rw [milliseconds, Int64.toInt_div_of_ne_right _ _ (by decide), Int64.toInt_mul]
  rfl

/-- A duration of whole milliseconds. -/
theorem toInt_of_whole {d : Int64} (h : (1000000 : Int) ∣ d.toInt) :
    (milliseconds d).toInt * 1000000 = d.toInt := by
  rw [milliseconds, Int64.toInt_div_of_ne_right _ _ (by decide)]
  exact Int.tdiv_mul_cancel h

/-- When a number of nanoseconds is at least some milliseconds. -/
theorem le_tdiv_iff (m v : Int) :
    m ≤ v.tdiv 1000000 ↔ m * 1000000 ≤ v ∨ (m ≤ 0 ∧ (m - 1) * 1000000 < v) := by
  rcases Int.le_total 0 v with hv | hv
  · rw [Int.tdiv_eq_ediv_of_nonneg hv]
    omega
  · obtain ⟨u, rfl⟩ : ∃ u, v = -u := ⟨-v, by omega⟩
    rw [Int.neg_tdiv, Int.tdiv_eq_ediv_of_nonneg (by omega)]
    omega

/-- When a number of nanoseconds is at most some milliseconds. -/
theorem tdiv_le_iff (m v : Int) :
    v.tdiv 1000000 ≤ m ↔ v ≤ m * 1000000 ∨ (0 ≤ m ∧ v < (m + 1) * 1000000) := by
  have h := le_tdiv_iff (-m) (-v)
  rw [Int.neg_tdiv] at h
  omega

/-! ## The condition -/

/-- An interval does not come back below `minMs`: it is not above it, or its nanoseconds
wrap to a number that is not below. -/
def IntvKept (minMs intvMs : Int) : Prop :=
  intvMs ≤ minMs ∨
    Wrapped (fun v => minMs * 1000000 ≤ v ∨ (minMs ≤ 0 ∧ (minMs - 1) * 1000000 < v))
      (intvMs * 1000000)

/-- A timeout does not come back above `maxMs`. -/
def TimeoutKept (maxMs pktTimeoutMs : Int) : Prop :=
  maxMs ≤ pktTimeoutMs ∨
    Wrapped (fun v => v ≤ maxMs * 1000000 ∨ (0 ≤ maxMs ∧ v < (maxMs + 1) * 1000000))
      (pktTimeoutMs * 1000000)

variable {form : SimplePingRequest} {d : Int64}

/-- The duration of the bound itself does not wrap. -/
theorem tdiv_bmod_of_whole (h : (1000000 : Int) ∣ d.toInt) :
    (((milliseconds d).toInt * 1000000).bmod (2 ^ 64)).tdiv 1000000 = (milliseconds d).toInt := by
  rw [toInt_of_whole h, Word.bmod_of_bounds d.le_toInt d.toInt_lt, ← toInt_of_whole h]
  exact Int.mul_tdiv_cancel _ (by decide)

theorem intvKept_iff (h : (1000000 : Int) ∣ d.toInt) :
    (milliseconds d).toInt ≤ (milliseconds (getRealPktIntv form (some d))).toInt ↔
      IntvKept (milliseconds d).toInt form.intvMilliseconds.toInt := by
  have hd := tdiv_bmod_of_whole h
  simp only [getRealPktIntv, toInt_milliseconds_mul, IntvKept, wrapped_iff, ← le_tdiv_iff,
    Int64.lt_iff_toInt_lt]
  split
  next hlt => exact ⟨fun _ => .inl (Int.le_of_lt hlt), fun _ => Int.le_of_eq hd.symm⟩
  next hle =>
    constructor
    · exact .inr
    · rintro (hmin | hkept)
      · have heq : form.intvMilliseconds.toInt = (milliseconds d).toInt := by omega
        rw [heq]
        exact Int.le_of_eq hd.symm
      · exact hkept

theorem timeoutKept_iff (h : (1000000 : Int) ∣ d.toInt) :
    (milliseconds (getRealPktTimeout form (some d))).toInt ≤ (milliseconds d).toInt ↔
      TimeoutKept (milliseconds d).toInt form.pktTimeoutMilliseconds.toInt := by
  have hd := tdiv_bmod_of_whole h
  simp only [getRealPktTimeout, toInt_milliseconds_mul, TimeoutKept, wrapped_iff, ← tdiv_le_iff,
    gt_iff_lt, Int64.lt_iff_toInt_lt]
  split
  next hlt => exact ⟨fun _ => .inl (Int.le_of_lt hlt), fun _ => Int.le_of_eq hd⟩
  next hle =>
    constructor
    · exact .inr
    · rintro (hmax | hkept)
      · have heq : form.pktTimeoutMilliseconds.toInt = (milliseconds d).toInt := by omega
        rw [heq]
        exact Int.le_of_eq hd
      · exact hkept

namespace PingTaskHandler

/-- A forwarded request meets both bounds of the hub exactly if the interval and the timeout
the client sent do not wrap out of them. -/
theorem forwarded_within_bounds (handler : PingTaskHandler) (net : Net) (remoteAddr : String)
    (walks : Nat → Nat → Option (List ConnRegistryData)) (form : SimplePingRequest)
    (minPktInterval maxPktTimeout : Int64)
    (hmin : handler.minPktInterval = some minPktInterval)
    (hmax : handler.maxPktTimeout = some maxPktTimeout)
    (hminWhole : (1000000 : Int) ∣ minPktInterval.toInt)
    (hmaxWhole : (1000000 : Int) ∣ maxPktTimeout.toInt)
    (started : SimpleRemotePinger × List (String × String))
    (h : started ∈ (handler.serveHTTP net remoteAddr walks (.ok form)).started) :
    ((milliseconds minPktInterval).toInt ≤ started.1.request.intvMilliseconds.toInt ∧
        started.1.request.pktTimeoutMilliseconds.toInt ≤ (milliseconds maxPktTimeout).toInt) ↔
      IntvKept (milliseconds minPktInterval).toInt form.intvMilliseconds.toInt ∧
        TimeoutKept (milliseconds maxPktTimeout).toInt form.pktTimeoutMilliseconds.toInt := by
  obtain ⟨hintv, htimeout, _⟩ := numbers_of_started h
  rw [hintv, htimeout, clampForm, hmin, hmax]
  exact and_congr (intvKept_iff hminWhole) (timeoutKept_iff hmaxWhole)

/-- A hub that asks for a second between packets and allows three for a reply. -/
def boundedHandler : PingTaskHandler where
  minPktInterval := some 1000000000
  maxPktTimeout := some 3000000000

/-- An agent that is reached over QUIC and announced its name and that it pings. -/
def pingAgent : ConnRegistryData where
  connectedAt := 0
  attributes := (∅ : ConnectionAttributes)
    |>.insert attributeKeyPingCapability "true"
    |>.insert attributeKeyNodeName "node"
  quicConn := some 1

/-- A ping task for one target. -/
def pingForm (intvMilliseconds pktTimeoutMilliseconds : Int64) : SimplePingRequest where
  froms := ["node"]
  targets := ["192.0.2.1"]
  intvMilliseconds := intvMilliseconds
  pktTimeoutMilliseconds := pktTimeoutMilliseconds

/-- A network that resolves and parses nothing. -/
def deafNet : Net where
  lookupIP _ _ := .error "no such host"
  parseCIDR _ := none
  parseIP _ := none
  splitHost _ := none
  urlHostname _ := .error "parse"
  urlWithPath _ _ := none

theorem forwarded_within_bounds_slow :
    ∃ started ∈ (boundedHandler.serveHTTP deafNet "192.0.2.9" (fun _ _ => some [pingAgent])
        (.ok (pingForm 10 5000))).started,
      1000 ≤ started.1.request.intvMilliseconds.toInt ∧
        started.1.request.pktTimeoutMilliseconds.toInt ≤ 3000 := by
  have hne : (boundedHandler.serveHTTP deafNet "192.0.2.9" (fun _ _ => some [pingAgent])
      (.ok (pingForm 10 5000))).started.any (fun _ => true) = true := by decide +kernel
  obtain ⟨started, hstarted, _⟩ := List.any_eq_true.1 hne
  have hiff := forwarded_within_bounds boundedHandler deafNet "192.0.2.9"
    (fun _ _ => some [pingAgent]) (pingForm 10 5000) 1000000000 3000000000 rfl rfl (by decide)
    (by decide) started hstarted
  exact ⟨started, hstarted, hiff.2 ⟨.inl (by decide), .inl (by decide)⟩⟩

/-- The interval `9223372036855` wraps to less than zero nanoseconds. -/
theorem interval_wraps :
    ∃ started ∈ (boundedHandler.serveHTTP deafNet "192.0.2.9" (fun _ _ => some [pingAgent])
        (.ok (pingForm 9223372036855 3000))).started,
      started.1.request.intvMilliseconds.toInt < (milliseconds 1000000000).toInt := by
  have hany : ((boundedHandler.serveHTTP deafNet "192.0.2.9" (fun _ _ => some [pingAgent])
      (.ok (pingForm 9223372036855 3000))).started.any fun started =>
        started.1.request.intvMilliseconds.toInt < (milliseconds 1000000000).toInt) = true := by
    decide +kernel
  obtain ⟨started, hstarted, hlt⟩ := List.any_eq_true.1 hany
  exact ⟨started, hstarted, of_decide_eq_true hlt⟩

end PingTaskHandler

end CloudPing.Handler

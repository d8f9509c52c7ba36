import CloudPing.Word.Wrap
import Mathlib.Data.List.Basic

/-!
# TTL generators

The TTL of the next packet: a counter that starts over after 64, or the elements of a list
in turn.  The counter is a machine integer, so from the greatest one it goes on to the least.  The
pingers read it with `get`, move it with `forward`, and the ICMP pinger
starts an automatic one over when the last hop answers.
-/

namespace CloudPing.Pinger

/-- `TTLGenerator`.  The index of a range is in range, so `get` has a value to read. -/
inductive TTLGenerator where
  | auto (start next : Int)
  | range (ttls : List Int) (idx : Fin ttls.length)
  deriving DecidableEq, Repr

namespace TTLGenerator

def maxAllowedAutoTTL : Int := 64

def get : TTLGenerator → Int
  | .auto _ next => next
  | .range ttls idx => ttls.get idx

def forward : TTLGenerator → TTLGenerator
  | .auto start next =>
    let next := Word.add next 1
    if next > maxAllowedAutoTTL then .auto start start else .auto start next
  | .range ttls idx =>
    if h : idx + 1 < ttls.length then .range ttls ⟨idx + 1, h⟩ else .range ttls ⟨0, idx.pos⟩

def isAuto : TTLGenerator → Bool
  | .auto _ _ => true
  | .range _ _ => false

def reset : TTLGenerator → TTLGenerator
  | .auto start _ => .auto start start
  | .range ttls idx => .range ttls ⟨0, idx.pos⟩

/-! ## Generators with one TTL -/

/-- All TTLs are `c`. -/
inductive Constant (c : Int) : TTLGenerator → Prop where
| auto :
  maxAllowedAutoTTL ≤ c →
  c < 2 ^ 63 - 1 →
  Constant c (.auto c c)
| range {ttls : List Int} {idx : Fin ttls.length} :
  (∀ ttl ∈ ttls, ttl = c) →
  Constant c (.range ttls idx)

namespace Constant

variable {c : Int} {ttl : TTLGenerator}

theorem get_eq (h : Constant c ttl) : ttl.get = c := by
  cases h with
  | auto => rfl
  | range hall => exact hall _ (List.get_mem _ _)

theorem forward (h : Constant c ttl) : Constant c ttl.forward := by
  cases h with
  | auto hc hmax =>
    rw [maxAllowedAutoTTL] at hc
    have hnext : Word.add c 1 = c + 1 := Word.add_of_fits ⟨by omega, by omega⟩
    have hover : Word.add c 1 > maxAllowedAutoTTL := by
      rw [hnext, maxAllowedAutoTTL]
      omega
    simp only [TTLGenerator.forward, if_pos hover]
    exact .auto hc hmax
  | range hall =>
    rw [TTLGenerator.forward]
    split <;> exact .range hall

theorem reset (h : Constant c ttl) : Constant c ttl.reset := by
  cases h with
  | auto hc hmax => exact .auto hc hmax
  | range hall => exact .range hall

end Constant

/-- The generator has one TTL. -/
def isConstant : TTLGenerator → Bool
  | .auto start next => start = next ∧ maxAllowedAutoTTL ≤ start ∧ start < 2 ^ 63 - 1
  | .range ttls idx => ttls.all (· = ttls.get idx)

theorem constant_of_isConstant {ttl : TTLGenerator} (h : ttl.isConstant = true) :
    ∃ c, ttl.Constant c := by
  cases ttl with
  | auto start next =>
    obtain ⟨rfl, hmin, hmax⟩ := of_decide_eq_true h
    exact ⟨_, .auto hmin hmax⟩
  | range ttls idx =>
    exact ⟨ttls.get idx, .range fun ttl hin => of_decide_eq_true (List.all_eq_true.1 h ttl hin)⟩

end TTLGenerator

end CloudPing.Pinger

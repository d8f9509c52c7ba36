import CloudPing.Inet.AddrText
import Mathlib.Data.List.Basic

/-!
# Addresses with ports

`netip.ParseAddrPort` wants an address of the long form in brackets and one of the short form
without.  What `net.SplitHostPort` splits is a host without colons and a port, or a host in
brackets and a port (`splitHostPort_eq_ok`).
-/

namespace Inet

/-- `strconv.ParseUint` of a port. -/
def parsePort (cs : List Char) : Option Nat :=
  if cs ≠ [] ∧ cs.all Char.isDigit = true ∧ Nat.ofDigitChars 10 cs 0 < 65536 then
    some (Nat.ofDigitChars 10 cs 0)
  else none

/-- The address before a port, of which the long form stands in brackets. -/
def parseBeforePort (ip : List Char) : Option Addr :=
  match ip with
  | '[' :: inner =>
    if inner.getLast? = some ']' then
      match parseAddr inner.dropLast with
      | some (.v6 ip zone h) => some (.v6 ip zone h)
      | _ => none
    else none
  | _ =>
    match parseAddr ip with
    | some (.v4 ip h) => some (.v4 ip h)
    | _ => none

/-- `netip.ParseAddrPort`. -/
def parseAddrPort (s : List Char) : Option (Addr × Nat) := do
  let (ip, port) ← splitLast ':' s
  let port ← parsePort port
  let addr ← parseBeforePort ip
  pure (addr, port)

example : (parseAddrPort "1.1.1.1:53".toList).map Prod.snd = some 53 := by decide +kernel
example : parseAddrPort "fd00::1:53".toList = none := by decide +kernel

/-- The host of a text that splits, and else the whole text. -/
def hostOf (s : List Char) : List Char :=
  match splitHostPort s with
  | .ok (host, _) => host
  | .error _ => s

theorem splitHostPort_eq_ok {s host port : List Char} (h : splitHostPort s = .ok (host, port)) :
    ':' ∉ port ∧ ']' ∉ port ∧
      ((s = host ++ ':' :: port ∧ ':' ∉ host ∧ '[' ∉ s ∧ ']' ∉ s) ∨
        (s = '[' :: host ++ ']' :: ':' :: port ∧ ']' ∉ host ∧ '[' ∉ host)) := by
  rw [splitHostPort] at h
  cases hs : splitLast ':' s with
  | none =>
    rw [hs] at h
    cases h
  | some p =>
    obtain ⟨before, port'⟩ := p
    obtain ⟨heq, hcolon⟩ := splitLast_eq_some hs
    simp only [hs] at h
    split at h
    next inner =>
      split_ifs at h with hmem hrest
      rw [checkBrackets] at h
      split_ifs at h with hopen hclose
      cases h
      have hinner := List.takeWhile_append_dropWhile (p := (· ≠ ']')) (l := inner)
      have hdrop : inner.dropWhile (· ≠ ']') = ']' :: ':' :: port := by
        cases hd : inner.dropWhile (· ≠ ']') with
        | nil =>
          rw [hd] at hrest
          cases hrest
        | cons c cs =>
          have hnot := List.head_dropWhile_not (p := (· ≠ ']')) (l := inner) (by
            rw [hd]
            exact List.cons_ne_nil _ _)
          simp only [hd, List.head_cons] at hnot
          rw [hd] at hrest
          rw [of_not_not (of_decide_eq_false hnot), ← hrest, List.tail_cons]
      rw [hdrop] at hinner
      rw [hrest] at hclose
      refine ⟨hcolon, fun hc => hclose (List.mem_cons_of_mem _ hc),
        Or.inr ⟨congrArg ('[' :: ·) hinner.symm, fun hc => ?_, fun hc => ?_⟩⟩
      · simpa using List.mem_takeWhile_imp hc
      · exact hopen ((List.takeWhile_sublist _).subset hc)
    next =>
      split_ifs at h with hbefore
      rw [checkBrackets] at h
      split_ifs at h with hopen hclose
      cases h
      refine ⟨hcolon, fun hc => hclose ?_, Or.inl ⟨heq, hbefore, hopen, hclose⟩⟩
      rw [heq]
      exact List.mem_append_right _ (List.mem_cons_of_mem _ hc)

/-! ## Texts with a port -/

section Ports

variable {host port : List Char}

theorem mark_not_mem_host (h : ∀ c ∈ host, IsAddrChar c) {m : Char} (hm : ¬IsAddrChar m) :
    m ∉ host := fun hmem => hm (h m hmem)

theorem mark_not_mem_port (h : ∀ c ∈ port, c.isDigit = true) {m : Char}
    (hm : m.isDigit = false) : m ∉ port := fun hmem => by
  rw [h m hmem] at hm
  cases hm

theorem splitHostPort_plain (hhost : ∀ c ∈ host, IsAddrChar c) (hcolon : ':' ∉ host)
    (hport : ∀ c ∈ port, c.isDigit = true) :
    splitHostPort (host ++ ':' :: port) = .ok (host, port) := by
  have hbracket : ∀ {b : Char}, b = '[' ∨ b = ']' → b ∉ host ++ ':' :: port := by
    intro b hb
    have hmark : ¬IsAddrChar b ∧ b.isDigit = false ∧ b ≠ ':' := by
      rcases hb with rfl | rfl
      · decide
      · decide
    simp only [List.mem_append, List.mem_cons, not_or]
    exact ⟨mark_not_mem_host hhost hmark.1, hmark.2.2, mark_not_mem_port hport hmark.2.1⟩
  rw [splitHostPort, splitLast_append host (mark_not_mem_port hport (by decide))]
  simp only
  split
  next heq => exact absurd (heq ▸ List.mem_cons_self) (hbracket (b := '[') (Or.inl rfl))
  next =>
    rw [if_neg hcolon, checkBrackets, if_neg (hbracket (Or.inl rfl)),
      if_neg (hbracket (Or.inr rfl))]

theorem splitLast_bracket (host : List Char) (h : ':' ∉ port) :
    splitLast ':' ('[' :: host ++ ']' :: ':' :: port) = some ('[' :: host ++ [']'], port) := by
  have hlast := splitLast_append ('[' :: host ++ [']']) h
  rwa [List.append_assoc, List.singleton_append] at hlast

theorem splitHostPort_bracket (hhost : ∀ c ∈ host, IsAddrChar c)
    (hport : ∀ c ∈ port, c.isDigit = true) :
    splitHostPort ('[' :: host ++ ']' :: ':' :: port) = .ok (host, port) := by
  have hkept : ∀ d ∈ host, decide (d ≠ ']') = true := fun d hd =>
    decide_eq_true fun heq => mark_not_mem_host hhost (by decide) (heq ▸ hd)
  have hlast := splitLast_bracket host (mark_not_mem_port hport (m := ':') (by decide))
  have htake : (host ++ ']' :: ':' :: port).takeWhile (· ≠ ']') = host := by
    rw [List.takeWhile_append_of_pos hkept, List.takeWhile_cons_of_neg (by decide), List.append_nil]
  have hdrop : (host ++ ']' :: ':' :: port).dropWhile (· ≠ ']') = ']' :: ':' :: port := by
    rw [List.dropWhile_append_of_pos hkept, List.dropWhile_cons_of_neg (by decide)]
  have hopen : '[' ∉ host ++ ']' :: ':' :: port := by
    simp only [List.mem_append, List.mem_cons, not_or]
    exact ⟨mark_not_mem_host hhost (by decide), by decide, by decide,
      mark_not_mem_port hport (by decide)⟩
  have hclose : ']' ∉ ':' :: port := by
    simp only [List.mem_cons, not_or]
    exact ⟨by decide, mark_not_mem_port hport (by decide)⟩
  rw [splitHostPort, hlast]
  simp only [List.cons_append, hdrop, htake, List.tail_cons, if_true, checkBrackets, if_neg hopen,
    if_neg hclose]
  rw [if_pos (by simp)]

end Ports

/-! ## Addresses with ports -/

/-- The port is digits. -/
theorem isDigit_of_parsePort {cs : List Char} {p : Nat} (h : parsePort cs = some p) :
    cs ≠ [] ∧ ∀ c ∈ cs, c.isDigit = true := by
  obtain ⟨⟨hne, hall, _⟩, _⟩ := Option.ite_none_right_eq_some.1 h
  exact ⟨hne, List.all_eq_true.1 hall⟩

/-- The long form in brackets, or the short form. -/
theorem parseBeforePort_eq_some {ip : List Char} {a : Addr} (h : parseBeforePort ip = some a) :
    ∃ text, parseAddr text = some a ∧
      ((ip = text ∧ ∃ bytes hl, a = .v4 bytes hl) ∨
        (ip = '[' :: text ++ [']'] ∧ ∃ bytes zone hl, a = .v6 bytes zone hl)) := by
  rw [parseBeforePort.eq_def] at h
  split at h
  next inner =>
    split_ifs at h with hlast
    split at h
    next bytes zone hl ha =>
      cases h
      have hinner := List.dropLast_append_getLast? ']' hlast
      refine ⟨inner.dropLast, ha, Or.inr ⟨?_, bytes, zone, hl, rfl⟩⟩
      rw [List.cons_append, hinner]
    next => cases h
  next =>
    split at h
    next bytes hl ha =>
      cases h
      exact ⟨ip, ha, Or.inl ⟨rfl, bytes, hl, rfl⟩⟩
    next => cases h

/-- What is parsed as an address with a port. -/
theorem parseAddrPort_eq_some {s : List Char} {a : Addr} {p : Nat}
    (h : parseAddrPort s = some (a, p)) :
    ∃ ip text port, splitLast ':' s = some (ip, port) ∧ parsePort port = some p ∧
      parseAddr text = some a ∧
      ((ip = text ∧ ∃ bytes hl, a = .v4 bytes hl) ∨
        (ip = '[' :: text ++ [']'] ∧ ∃ bytes zone hl, a = .v6 bytes zone hl)) := by
  obtain ⟨⟨ip, port⟩, hs, h⟩ := Option.bind_eq_some_iff.1 h
  obtain ⟨p', hp, h⟩ := Option.bind_eq_some_iff.1 h
  obtain ⟨a', ha, h⟩ := Option.bind_eq_some_iff.1 h
  cases h
  obtain ⟨text, htext, hform⟩ := parseBeforePort_eq_some ha
  exact ⟨ip, text, port, hs, hp, htext, hform⟩

/-- The long form in brackets is parsed. -/
theorem parseAddrPort_bracket {text port ip zone} {hl : ip.length = 16} {p : Nat}
    (h : parseAddr text = some (.v6 ip zone hl)) (hp : parsePort port = some p) :
    parseAddrPort ('[' :: text ++ ']' :: ':' :: port) = some (.v6 ip zone hl, p) := by
  have hcolon := mark_not_mem_port (isDigit_of_parsePort hp).2 (m := ':') (by decide)
  have hlast := splitLast_bracket text hcolon
  have hbefore : parseBeforePort ('[' :: text ++ [']']) = some (.v6 ip zone hl) := by
    rw [List.cons_append, parseBeforePort, if_pos List.getLast?_concat, List.dropLast_concat, h]
  rw [parseAddrPort, hlast]
  simp only [Option.bind_eq_bind, Option.bind_some, hp, hbefore]
  rfl

end Inet

import CloudPing.Inet.ParseAddr

/-!
# Host and port

A host and a port in one text: the port stands behind the last colon, and a host with colons
of its own stands in brackets.

No text that begins with a bracket is an address (`parseAddr_bracket`), and neither is an
address without colons with a port behind it (`parseAddr_append_colon`): a text with a port is
never also the text of an address (`parseAddr_joinHostPort`).
-/

namespace Inet

/-- What stands before the last `c`, and behind it. -/
def splitLast (c : Char) : List Char → Option (List Char × List Char)
  | [] => none
  | d :: ds =>
    match splitLast c ds with
    | some (before, behind) => some (d :: before, behind)
    | none => if d = c then some ([], ds) else none

/-- The last checks: no bracket is left but those around the host. -/
def checkBrackets (host port inner rest : List Char) : Except String (List Char × List Char) :=
  if '[' ∈ inner then .error "unexpected '[' in address"
  else if ']' ∈ rest then .error "unexpected ']' in address"
  else .ok (host, port)

/-- `net.SplitHostPort`, with the reason of an `AddrError`. -/
def splitHostPort (hostport : List Char) : Except String (List Char × List Char) :=
  match splitLast ':' hostport with
  | none => .error "missing port in address"
  | some (before, port) =>
    match hostport with
    | '[' :: inner =>
      -- the first closing bracket is expected just before the last colon
      if ']' ∈ inner then
        let rest := (inner.dropWhile (· ≠ ']')).tail
        if rest = ':' :: port then
          checkBrackets (inner.takeWhile (· ≠ ']')) port inner rest
        else if rest.head? = some ':' then .error "too many colons in address"
        else .error "missing port in address"
      else .error "missing ']' in address"
    | _ =>
      if ':' ∈ before then .error "too many colons in address"
      else checkBrackets before port hostport hostport

/-- `net.JoinHostPort`. -/
def joinHostPort (host port : List Char) : List Char :=
  if ':' ∈ host then '[' :: host ++ ']' :: ':' :: port else host ++ ':' :: port

example : (splitHostPort "[2001:db8::1]:53".toList).toOption =
    some ("2001:db8::1".toList, "53".toList) := by decide
example : (splitHostPort "2001:db8::1".toList).toOption = none := by decide

/-! ## A port makes no address -/

theorem parseGroups_bracket (n : Nat) (s : List Char) :
    parseGroups (n + 1) [] none ('[' :: s) = none := by
  have hdigits : ('[' :: s).takeWhile isHex = [] := List.takeWhile_cons_of_neg (by decide)
  rw [parseGroups, hdigits]
  exact if_pos (Or.inl rfl)

theorem parseIPv6Zone_bracket (s zone : List Char) : parseIPv6Zone ('[' :: s) zone = none := by
  have hgroups : parseIPv6Groups ('[' :: s) = none := by
    rw [parseIPv6Groups, parseGroups_bracket]
    · rfl
    · rintro ⟨⟩
    · rintro _ ⟨⟩
  rw [parseIPv6Zone]
  split
  · next ip hip =>
    rw [hgroups] at hip
    cases hip
  · rfl

theorem parseIPv6_bracket (s : List Char) : parseIPv6 ('[' :: s) = none := by
  have htake : ('[' :: s).takeWhile (· ≠ '%') = '[' :: s.takeWhile (· ≠ '%') :=
    List.takeWhile_cons_of_pos (by decide)
  rw [parseIPv6]
  split
  · exact parseIPv6Zone_bracket s []
  · rfl
  · rw [htake]
    exact parseIPv6Zone_bracket _ _

/-- A text with another character than digits and dots is no address of four numbers. -/
theorem parseIPv4_of_mem {s : List Char} {c : Char} (hc : c ∈ s) (hd : c.isDigit = false)
    (hdot : c ≠ '.') : parseIPv4 s = none := by
  rw [parseIPv4]
  split
  · next ip hip =>
    rcases chars_of_ipv4Fields hip c hc with h | h
    · rw [hd] at h
      cases h
    · exact absurd h hdot
  · rfl

theorem parseAddr_bracket (s : List Char) : parseAddr ('[' :: s) = none := by
  rw [parseAddr]
  split
  · exact parseIPv4_of_mem List.mem_cons_self (by decide) (by decide)
  · exact parseIPv6_bracket s
  · rfl

/-- The first mark of an address without colons is a dot. -/
theorem find?_of_parseAddr {host : List Char} {a : Addr} (h : parseAddr host = some a)
    (hc : ':' ∉ host) : (host.find? fun c => c = '.' ∨ c = ':' ∨ c = '%') = some '.' := by
  rw [parseAddr] at h
  split at h
  · assumption
  · next hf => exact absurd (List.mem_of_find?_eq_some hf) hc
  · cases h

theorem parseAddr_append_colon {host : List Char} {a : Addr} (h : parseAddr host = some a)
    (hc : ':' ∉ host) (port : List Char) : parseAddr (host ++ ':' :: port) = none := by
  rw [parseAddr, List.find?_append, find?_of_parseAddr h hc]
  exact parseIPv4_of_mem (List.mem_append_right _ List.mem_cons_self) (by decide) (by decide)

end Inet

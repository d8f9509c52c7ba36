import CloudPing.Wire.Decimal
import Mathlib.Data.List.TakeDrop

/-!
# Addresses in texts

The textual forms of IP addresses: four decimal numbers with dots, or groups of up to four
hexadecimal digits with colons.  One run of groups that are zero may be left out (`::`), the
last four bytes may be written with dots, and a zone may stand behind a percent sign.

The groups are read from left to right into the bytes of the address, and where a run was
left out is remembered until the end.  An address that is read has the length of its family
(`Addr.length_bytes`).
-/

namespace Inet

/-- An address as it was written. -/
inductive Addr where
  | v4 (ip : List UInt8) (length_eq : ip.length = 4)
  | v6 (ip : List UInt8) (zone : List Char) (length_eq : ip.length = 16)
  deriving DecidableEq, Repr

namespace Addr

def bytes : Addr → List UInt8
  | v4 ip _ => ip
  | v6 ip _ _ => ip

def zone : Addr → List Char
  | v4 _ _ => []
  | v6 _ zone _ => zone

/-- The number of bits. -/
def bitLen : Addr → Nat
  | v4 _ _ => 32
  | v6 _ _ _ => 128

/-- The sixteen bytes of an address, which map those of an address with four. -/
def as16 : Addr → List UInt8
  | v4 ip _ => List.replicate 10 0 ++ [255, 255] ++ ip
  | v6 ip _ _ => ip

theorem length_as16 (a : Addr) : a.as16.length = 16 := by
  cases a with
  | v4 ip h => simp [as16, h]
  | v6 ip zone h => exact h

end Addr

/-! ## Four numbers -/

/-- The fields behind `fields`, where the digits read so far say `val`. -/
def ipv4Fields (fields : List UInt8) (val digLen : Nat) : List Char → Option (List UInt8)
  | [] => if fields.length < 3 then none else some (fields ++ [UInt8.ofNat val])
  | c :: cs =>
    if c.isDigit then
      if digLen = 1 ∧ val = 0 then none
      else if 255 < val * 10 + (c.toNat - '0'.toNat) then none
      else ipv4Fields fields (val * 10 + (c.toNat - '0'.toNat)) (digLen + 1) cs
    else if c = '.' then
      if digLen = 0 ∨ cs = [] then none
      else if fields.length = 3 then none
      else ipv4Fields (fields ++ [UInt8.ofNat val]) 0 0 cs
    else none

/-- The four bytes of a text with dots. -/
def parseIPv4Fields (cs : List Char) : Option (List UInt8) := ipv4Fields [] 0 0 cs

theorem length_of_ipv4Fields {cs : List Char} {fields ip : List UInt8} {val digLen : Nat}
    (hl : fields.length ≤ 3) (h : ipv4Fields fields val digLen cs = some ip) : ip.length = 4 := by
  induction cs generalizing fields val digLen with
  | nil =>
    rw [ipv4Fields] at h
    split at h
    next => cases h
    next hlt =>
      cases h
      rw [List.length_append, List.length_singleton]
      omega
  | cons c cs ih =>
    rw [ipv4Fields] at h
    split_ifs at h with hd hz hv hdot hdig hfull
    · exact ih hl h
    · refine ih ?_ h
      rw [List.length_append, List.length_singleton]
      omega

theorem length_of_parseIPv4Fields {cs : List Char} {ip : List UInt8}
    (h : parseIPv4Fields cs = some ip) : ip.length = 4 :=
  length_of_ipv4Fields (by decide) h

/-- Only digits and dots are read. -/
theorem chars_of_ipv4Fields {cs : List Char} {fields ip : List UInt8} {val digLen : Nat}
    (h : ipv4Fields fields val digLen cs = some ip) : ∀ c ∈ cs, c.isDigit = true ∨ c = '.' := by
  induction cs generalizing fields val digLen with
  | nil => exact fun c hc => absurd hc List.not_mem_nil
  | cons c cs ih =>
    rw [ipv4Fields] at h
    intro c' hc'
    split_ifs at h with hd hz hv hdot hdig hfull
    · rcases List.mem_cons.1 hc' with rfl | hc'
      · exact Or.inl hd
      · exact ih h c' hc'
    · rcases List.mem_cons.1 hc' with rfl | hc'
      · exact Or.inr hdot
      · exact ih h c' hc'

/-! ## Groups -/

def isHex (c : Char) : Bool := (Wire.hexValue c).isSome

/-- The value of a group of hexadecimal digits. -/
def groupValue (digits : List Char) : Nat :=
  digits.foldl (fun acc c => 16 * acc + (Wire.hexValue c).getD 0) 0

/-- The bytes of a group. -/
def groupBytes (digits : List Char) : List UInt8 :=
  [UInt8.ofNat (groupValue digits / 256), UInt8.ofNat (groupValue digits)]

/-- At most `n` groups behind the bytes `ip`, of which a run was left out at `ellipsis`: the
bytes, the place of the run, and what was not read. -/
def parseGroups : Nat → List UInt8 → Option Nat → List Char →
    Option (List UInt8 × Option Nat × List Char)
  | 0, ip, ellipsis, s => some (ip, ellipsis, s)
  | n + 1, ip, ellipsis, s =>
    let digits := s.takeWhile isHex
    if digits = [] ∨ 4 < digits.length then none
    else
      let ip' := ip ++ groupBytes digits
      match s.dropWhile isHex with
      | [] => some (ip', ellipsis, [])
      | [':'] => none
      | [':', ':'] => if ellipsis.isSome then none else some (ip', some ip'.length, [])
      | ':' :: ':' :: s' =>
        if ellipsis.isSome then none else parseGroups n ip' (some ip'.length) s'
      | ':' :: s' => parseGroups n ip' ellipsis s'
      | '.' :: _ =>
        if ellipsis = none ∧ ip.length ≠ 12 then none
        else if 12 < ip.length then none
        else (parseIPv4Fields s).map fun fields => (ip ++ fields, ellipsis, [])
      | _ => none

/-- The sixteen bytes, with zeros in the place of the run that was left out. -/
def expand (ip : List UInt8) (ellipsis : Option Nat) : Option (List UInt8) :=
  match ellipsis with
  | none => if ip.length < 16 then none else some ip
  | some e =>
    if ip.length < 16 then some (ip.take e ++ List.replicate (16 - ip.length) 0 ++ ip.drop e)
    else none

/-- The groups of an address without its zone. -/
def parseIPv6Groups (s : List Char) : Option (List UInt8) :=
  match s with
  | [':', ':'] => some (List.replicate 16 0)
  | ':' :: ':' :: s' => finish (parseGroups 8 [] (some 0) s')
  | s => finish (parseGroups 8 [] none s)
where
  /-- The whole text must have been read. -/
  finish : Option (List UInt8 × Option Nat × List Char) → Option (List UInt8)
    | some (ip, ellipsis, []) => expand ip ellipsis
    | _ => none

theorem length_of_expand {ip bytes : List UInt8} {ellipsis : Option Nat} (hl : ip.length ≤ 16)
    (h : expand ip ellipsis = some bytes) : bytes.length = 16 := by
  cases ellipsis with
  | none =>
    simp only [expand] at h
    split at h
    next => cases h
    next hge =>
      cases h
      omega
  | some e =>
    simp only [expand] at h
    split at h
    next hlt =>
      cases h
      simp only [List.length_append, List.length_replicate, List.length_take, List.length_drop]
      omega
    next => cases h

theorem length_groupBytes (digits : List Char) : (groupBytes digits).length = 2 := rfl

theorem length_of_parseGroups {n : Nat} {ip bytes : List UInt8} {ellipsis e : Option Nat}
    {s rest : List Char} (hl : ip.length + 2 * n = 16)
    (h : parseGroups n ip ellipsis s = some (bytes, e, rest)) : bytes.length ≤ 16 := by
  induction n generalizing ip ellipsis s with
  | zero =>
    cases h
    omega
  | succ n ih =>
    have hl' : (ip ++ groupBytes (s.takeWhile isHex)).length + 2 * n = 16 := by
      rw [List.length_append, length_groupBytes]
      omega
    rw [parseGroups] at h
    split at h
    next => cases h
    next =>
      split at h
      next =>
        cases h
        omega
      next => cases h
      next =>
        split at h
        next => cases h
        next =>
          cases h
          omega
      next =>
        split at h
        next => cases h
        next => exact ih hl' h
      next => exact ih hl' h
      next =>
        split_ifs at h with h₁ h₂
        obtain ⟨fields, hf, heq⟩ := Option.map_eq_some_iff.1 h
        cases heq
        rw [List.length_append, length_of_parseIPv4Fields hf]
        omega
      next => cases h

theorem length_of_parseIPv6Groups {s : List Char} {bytes : List UInt8}
    (h : parseIPv6Groups s = some bytes) : bytes.length = 16 := by
  have hfinish : ∀ {ell : Option Nat} {s' : List Char},
      parseIPv6Groups.finish (parseGroups 8 [] ell s') = some bytes → bytes.length = 16 := by
    intro ell s' hf
    unfold parseIPv6Groups.finish at hf
    split at hf
    next ip e hg => exact length_of_expand (length_of_parseGroups rfl hg) hf
    next => cases hf
  unfold parseIPv6Groups at h
  split at h
  next =>
    cases h
    exact List.length_replicate
  next => exact hfinish h
  next => exact hfinish h

/-! ## Addresses -/

def parseIPv4 (s : List Char) : Option Addr :=
  match h : parseIPv4Fields s with
  | some ip => some (.v4 ip (length_of_parseIPv4Fields h))
  | none => none

def parseIPv6Zone (s zone : List Char) : Option Addr :=
  match h : parseIPv6Groups s with
  | some ip => some (.v6 ip zone (length_of_parseIPv6Groups h))
  | none => none

/-- A zone, if there is a percent sign, is not empty. -/
def parseIPv6 (s : List Char) : Option Addr :=
  match s.dropWhile (· ≠ '%') with
  | [] => parseIPv6Zone s []
  | [_] => none
  | _ :: zone => parseIPv6Zone (s.takeWhile (· ≠ '%')) zone

/-- `netip.ParseAddr`: the first of the marks says which family the text is of. -/
def parseAddr (s : List Char) : Option Addr :=
  match s.find? fun c => c = '.' ∨ c = ':' ∨ c = '%' with
  | some '.' => parseIPv4 s
  | some ':' => parseIPv6 s
  | _ => none

example : (parseAddr "1.2.3.4".toList).map Addr.bytes = some [1, 2, 3, 4] := by decide
example : (parseAddr "::ffff:1.2.3.4".toList).map Addr.bytes =
    some [0, 0, 0, 0, 0, 0, 0, 0, 0, 0, 255, 255, 1, 2, 3, 4] := by decide
example : (parseAddr "fd00::1:2".toList).map Addr.bytes =
    some [253, 0, 0, 0, 0, 0, 0, 0, 0, 0, 0, 0, 0, 1, 0, 2] := by decide

end Inet

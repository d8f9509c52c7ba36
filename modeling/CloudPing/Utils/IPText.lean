import CloudPing.Inet.FormatAddr
import CloudPing.Utils.Offset

/-!
# Addresses printed

`String` of `net.IP` and `net.IPAddr`.  Reading the text of an address gives the address in its
long form (`parseIP_ipString`).
-/

namespace CloudPing.Utils

open Web

/-- The bytes in hexadecimal. -/
def hexString (bs : List UInt8) : String :=
  String.ofList (bs.flatMap fun b => [(b.toNat / 16).digitChar, (b.toNat % 16).digitChar])

/-- `IP.String`. -/
def ipString (ip : IP) : String :=
  if ip = [] then "<nil>"
  else if ip.length ≠ 4 ∧ ip.length ≠ 16 then "?" ++ hexString ip
  else
    match ip.to4 with
    | some p4 => String.ofList (Inet.format4 p4)
    | none => String.ofList (Inet.format6 ip)

/-- `IPAddr.String`. -/
def ipAddrString (a : IPAddr) : String :=
  let ip := if a.ip = [] then "" else ipString a.ip
  if a.zone ≠ "" then ip ++ "%" ++ a.zone else ip

/-- The text of an address is read as the address. -/
theorem parseIP_ipString {a : IP} (hl : a.length = 4 ∨ a.length = 16) :
    ∃ a', parseIP (ipAddrString { ip := a }) = some a' ∧ normal a' = normal a := by
  have hne : a ≠ [] := by
    rintro rfl
    rcases hl with hl | hl <;> cases hl
  have hlen : ¬(a.length ≠ 4 ∧ a.length ≠ 16) := by omega
  have htext : ipAddrString { ip := a } = ipString a := by
    simp only [ipAddrString, if_neg hne, ne_eq, not_true_eq_false, if_false]
  rw [htext, ipString, if_neg hne, if_neg hlen]
  split
  next p4 h4 =>
    have hread := Inet.parseAddr_format4 (length_of_to4 h4)
    have h16 : (Inet.Addr.v4 p4 (length_of_to4 h4)).as16.length = 16 := Inet.Addr.length_as16 _
    have hlong : IP.to4 (Inet.Addr.v4 p4 (length_of_to4 h4)).as16 = some p4 := by
      rw [to4_of_length h16]
      rfl
    refine ⟨_, ?_, (normal_of_to4 hlong).trans (normal_of_to4 h4).symm⟩
    rw [parseIP, String.toList_ofList, hread]
    rfl
  next h4 =>
    have h16 : a.length = 16 := by
      refine hl.resolve_left fun hl => ?_
      rw [to4_of_length_four hl] at h4
      cases h4
    refine ⟨a, ?_, rfl⟩
    rw [parseIP, String.toList_ofList, Inet.parseAddr_format6 h16]
    rfl

end CloudPing.Utils

import CloudPing.Inet.ParseAddr
import Mathlib.Data.List.TakeWhile

/-!
# Addresses as texts

The text of an IPv4 address is its four bytes with dots.  The text of an IPv6 address is its
eight groups with colons, where the longest run of two or more groups that are zero is left
out.

Reading the text of an address gives the address (`parseAddr_format4`, `parseAddr_format6`).
The proof for IPv6 takes any run of zeros (`parseGroups_ellipsis`), so it does not matter
which one is left out.
-/

namespace Inet

/-! ## Formats -/

/-- Numbers with dots. -/
def dotText : List UInt8 → List Char
  | [] => []
  | [b] => Nat.toDigits 10 b.toNat
  | b :: bs => Nat.toDigits 10 b.toNat ++ '.' :: dotText bs

/-- The groups of the bytes. -/
def groups : List UInt8 → List Nat
  | a :: b :: bs => (a.toNat * 256 + b.toNat) :: groups bs
  | _ => []

/-- Groups with colons. -/
def colonText : List Nat → List Char
  | [] => []
  | [g] => Nat.toDigits 16 g
  | g :: gs => Nat.toDigits 16 g ++ ':' :: colonText gs

def runLength (run : Option (Nat × Nat)) : Nat := (run.map fun r => r.2 - r.1).getD 0

/-- The first of the longest runs of two or more zeros: its start and its end. -/
def zeroRun (gs : List Nat) : Option (Nat × Nat) :=
  (List.range 8).foldl (fun best i =>
    let j := i + ((gs.drop i).takeWhile (· = 0)).length
    if 2 ≤ j - i ∧ runLength best < j - i then some (i, j) else best) none

/-- `netip.Addr.string4`. -/
def format4 (ip : List UInt8) : List Char := dotText ip

/-- `netip.Addr.string6`. -/
def format6 (ip : List UInt8) : List Char :=
  match zeroRun (groups ip) with
  | none => colonText (groups ip)
  | some (i, j) => colonText ((groups ip).take i) ++ ':' :: ':' :: colonText ((groups ip).drop j)

example : String.ofList (format6 [253, 0, 0, 0, 0, 0, 0, 0, 0, 0, 0, 0, 0, 1, 0, 2]) =
    "fd00::1:2" := by decide

/-! ## Reading four numbers -/

/-- A number that has begun is read to its end. -/
theorem ipv4Fields_digits {fields : List UInt8} {val digLen : Nat} (ds rest : List Char)
    (hd : ∀ c ∈ ds, c.isDigit = true) (hval : 0 < val) (hlt : Nat.ofDigitChars 10 ds val ≤ 255) :
    ipv4Fields fields val digLen (ds ++ rest) =
      ipv4Fields fields (Nat.ofDigitChars 10 ds val) (digLen + ds.length) rest := by
  induction ds generalizing val digLen with
  | nil => rfl
  | cons c ds ih =>
    have hc := hd c List.mem_cons_self
    have hle := Wire.le_ofDigitChars ds (val * 10 + (c.toNat - '0'.toNat))
    have hcons : Nat.ofDigitChars 10 (c :: ds) val =
        Nat.ofDigitChars 10 ds (val * 10 + (c.toNat - '0'.toNat)) := by
      rw [Nat.ofDigitChars_cons, Nat.mul_comm]
    rw [hcons] at hlt ⊢
    rw [List.cons_append, ipv4Fields, if_pos hc, if_neg (by omega), if_neg (by omega),
      ih (fun c' hc' => hd c' (List.mem_cons_of_mem c hc')) (by omega) hlt, List.length_cons,
      Nat.add_right_comm, Nat.add_assoc]

/-- The digits of a byte are read as the byte. -/
theorem ipv4Fields_byte (fields : List UInt8) (b : UInt8) (rest : List Char) :
    ipv4Fields fields 0 0 (Nat.toDigits 10 b.toNat ++ rest) =
      ipv4Fields fields b.toNat (Nat.toDigits 10 b.toNat).length rest := by
  have hb := b.toNat_lt
  have hd : ∀ c ∈ Nat.toDigits 10 b.toNat, c.isDigit = true :=
    fun c hc => Wire.isDigit_of_mem_toDigits hc
  have hval : Nat.ofDigitChars 10 (Nat.toDigits 10 b.toNat) 0 = b.toNat :=
    Nat.ofDigitChars_ten_toDigits
  cases hds : Nat.toDigits 10 b.toNat with
  | nil => exact absurd hds Nat.toDigits_ne_nil
  | cons c ds =>
    rw [hds] at hd hval
    have hc := hd c List.mem_cons_self
    have hcons : Nat.ofDigitChars 10 (c :: ds) 0 =
        Nat.ofDigitChars 10 ds (0 * 10 + (c.toNat - '0'.toNat)) := by
      rw [Nat.ofDigitChars_cons, Nat.mul_comm]
    have hle := Wire.le_ofDigitChars ds (0 * 10 + (c.toNat - '0'.toNat))
    rw [hcons] at hval
    rw [hval] at hle
    rw [List.cons_append, ipv4Fields, if_pos hc, if_neg (by omega), if_neg (by omega)]
    by_cases hzero : c = '0'
    · subst hzero
      obtain rfl : ds = [] := Wire.toDigits_eq_zero_cons hds
      rw [← hval]
      rfl
    · have hpos : 0 < 0 * 10 + (c.toNat - '0'.toNat) := by
        have hge : '0'.toNat ≤ c.toNat := (Char.isDigit_iff_toNat.1 hc).1
        rw [Nat.zero_mul, Nat.zero_add]
        exact Nat.sub_pos_of_lt (Nat.lt_of_le_of_ne hge fun he => hzero (Char.toNat_inj.1 he).symm)
      rw [ipv4Fields_digits ds rest (fun c' hc' => hd c' (List.mem_cons_of_mem c hc')) hpos
        (by omega), hval, List.length_cons, Nat.zero_add, Nat.add_comm]

theorem dotText_cons_cons (b b' : UInt8) (bs : List UInt8) :
    dotText (b :: b' :: bs) = Nat.toDigits 10 b.toNat ++ '.' :: dotText (b' :: bs) := rfl

theorem dotText_ne_nil {bs : List UInt8} (hne : bs ≠ []) : dotText bs ≠ [] := by
  cases bs with
  | nil => exact absurd rfl hne
  | cons b bs =>
    cases bs with
    | nil => exact Nat.toDigits_ne_nil
    | cons b' bs => exact List.append_ne_nil_of_left_ne_nil Nat.toDigits_ne_nil _

theorem ipv4Fields_dotText {fields bs : List UInt8} (hne : bs ≠ [])
    (hl : fields.length + bs.length = 4) :
    ipv4Fields fields 0 0 (dotText bs) = some (fields ++ bs) := by
  induction bs generalizing fields with
  | nil => exact absurd rfl hne
  | cons b bs ih =>
    cases bs with
    | nil =>
      have hread := ipv4Fields_byte fields b []
      rw [List.append_nil] at hread
      have hlen : ¬fields.length < 3 := by
        rw [List.length_singleton] at hl
        omega
      rw [dotText, hread, ipv4Fields, if_neg hlen, UInt8.ofNat_toNat]
    | cons b' bs =>
      have hpos := Nat.length_toDigits_pos (b := 10) (n := b.toNat)
      have hrest : dotText (b' :: bs) ≠ [] := dotText_ne_nil (List.cons_ne_nil b' bs)
      have hlen : ¬fields.length = 3 := by
        rw [List.length_cons, List.length_cons] at hl
        omega
      have hdot : ¬('.'.isDigit = true) := by decide
      rw [dotText_cons_cons, ipv4Fields_byte, ipv4Fields, if_neg hdot, if_pos rfl,
        if_neg (not_or.2 ⟨Nat.ne_of_gt hpos, hrest⟩), if_neg hlen, UInt8.ofNat_toNat,
        ih (List.cons_ne_nil b' bs), List.append_assoc, List.singleton_append]
      rw [List.length_append, List.length_singleton]
      rw [List.length_cons] at hl
      omega

/-! ## Reading groups -/

/-- The bytes of groups. -/
def groupsBytes (gs : List Nat) : List UInt8 :=
  gs.flatMap fun g => [UInt8.ofNat (g / 256), UInt8.ofNat g]

theorem groupsBytes_groups (ip : List UInt8) {k : Nat} (hl : ip.length = 2 * k) :
    groupsBytes (groups ip) = ip := by
  induction k generalizing ip with
  | zero => rw [List.eq_nil_of_length_eq_zero hl]; rfl
  | succ k ih =>
    obtain ⟨a, ip, rfl⟩ := List.exists_cons_of_length_eq_add_one hl
    rw [List.length_cons] at hl
    obtain ⟨b, ip, rfl⟩ := List.exists_cons_of_length_eq_add_one (Nat.add_right_cancel hl)
    have hb := b.toNat_lt
    have hhigh : (a.toNat * 256 + b.toNat) / 256 = a.toNat := by omega
    have hlow : UInt8.ofNat (a.toNat * 256 + b.toNat) = b := by
      refine UInt8.toNat_inj.1 ?_
      rw [UInt8.toNat_ofNat']
      omega
    have ih := ih ip (by rw [List.length_cons] at hl; omega)
    rw [groupsBytes] at ih
    rw [groups, groupsBytes, List.flatMap_cons, ih, hhigh, hlow, UInt8.ofNat_toNat]
    rfl

/-- The groups of bytes are as many as half of them, and are words of 16 bits. -/
theorem groups_spec (ip : List UInt8) {k : Nat} (hl : ip.length = 2 * k) :
    (groups ip).length = k ∧ ∀ g ∈ groups ip, g < 65536 := by
  induction k generalizing ip with
  | zero =>
    rw [List.eq_nil_of_length_eq_zero hl]
    exact ⟨rfl, fun g hg => absurd hg List.not_mem_nil⟩
  | succ k ih =>
    obtain ⟨a, ip, rfl⟩ := List.exists_cons_of_length_eq_add_one hl
    rw [List.length_cons] at hl
    obtain ⟨b, ip, rfl⟩ := List.exists_cons_of_length_eq_add_one (Nat.add_right_cancel hl)
    have ha := a.toNat_lt
    have hb := b.toNat_lt
    obtain ⟨hlen, hlt⟩ := ih ip (by rw [List.length_cons] at hl; omega)
    rw [groups]
    refine ⟨by rw [List.length_cons, hlen], fun g hg => ?_⟩
    rcases List.mem_cons.1 hg with rfl | hg
    · omega
    · exact hlt g hg

/-- The digits of a group are hexadecimal. -/
theorem isHex_toDigits {g : Nat} {c : Char} (hc : c ∈ Nat.toDigits 16 g) : isHex c = true := by
  induction g using Nat.strongRecOn with
  | ind g ih =>
    rw [Nat.toDigits_eq_if (by decide)] at hc
    split at hc
    next hlt =>
      rw [List.mem_singleton.1 hc, isHex, Wire.hexValue_digitChar hlt]
      rfl
    next hge =>
      rcases List.mem_append.1 hc with hc | hc
      · exact ih (g / 16) (by omega) hc
      · rw [List.mem_singleton.1 hc, isHex, Wire.hexValue_digitChar (Nat.mod_lt _ (by decide))]
        rfl

theorem groupValue_toDigits (g : Nat) : groupValue (Nat.toDigits 16 g) = g := by
  induction g using Nat.strongRecOn with
  | ind g ih =>
    rw [Nat.toDigits_eq_if (by decide)]
    split
    next hlt =>
      rw [groupValue, List.foldl_cons, List.foldl_nil, Wire.hexValue_digitChar hlt]
      exact Nat.zero_add g
    next hge =>
      have hquot := ih (g / 16) (by omega)
      rw [groupValue] at hquot
      rw [groupValue, List.foldl_append, hquot, List.foldl_cons, List.foldl_nil,
        Wire.hexValue_digitChar (Nat.mod_lt _ (by decide)), Option.getD_some]
      omega

/-- What a group can be followed by. -/
def GroupEnd (rest : List Char) : Prop := ∀ c ∈ rest.head?, isHex c = false

theorem span_group (g : Nat) (rest : List Char) (hr : GroupEnd rest) :
    (Nat.toDigits 16 g ++ rest).takeWhile isHex = Nat.toDigits 16 g ∧
      (Nat.toDigits 16 g ++ rest).dropWhile isHex = rest := by
  have hall : ∀ c ∈ Nat.toDigits 16 g, isHex c = true := fun c hc => isHex_toDigits hc
  rw [List.takeWhile_append_of_pos hall, List.dropWhile_append_of_pos hall]
  cases rest with
  | nil => exact ⟨List.append_nil _, rfl⟩
  | cons c rest =>
    have hc := hr c rfl
    rw [List.takeWhile_cons_of_neg (by rw [hc]; exact Bool.false_ne_true),
      List.dropWhile_cons_of_neg (by rw [hc]; exact Bool.false_ne_true), List.append_nil]
    exact ⟨rfl, rfl⟩

/-- A group is at most four digits long. -/
theorem not_long {g : Nat} (hg : g < 65536) :
    ¬(Nat.toDigits 16 g = [] ∨ 4 < (Nat.toDigits 16 g).length) := by
  rintro (hnil | hlong)
  · exact Nat.toDigits_ne_nil hnil
  · exact absurd ((Nat.length_toDigits_le_iff (by decide) (by decide)).2 hg) (Nat.not_le.2 hlong)

theorem groupBytes_toDigits (g : Nat) :
    groupBytes (Nat.toDigits 16 g) = [UInt8.ofNat (g / 256), UInt8.ofNat g] := by
  rw [groupBytes, groupValue_toDigits]

theorem colonText_cons_cons (g g' : Nat) (gs : List Nat) :
    colonText (g :: g' :: gs) = Nat.toDigits 16 g ++ ':' :: colonText (g' :: gs) := rfl

/-- The text of groups starts with a hexadecimal digit. -/
theorem colonText_head (g : Nat) (gs : List Nat) (rest : List Char) :
    ∃ c cs, colonText (g :: gs) ++ rest = c :: cs ∧ isHex c = true := by
  cases hds : Nat.toDigits 16 g with
  | nil => exact absurd hds Nat.toDigits_ne_nil
  | cons c ds =>
    have hc : isHex c = true := isHex_toDigits (by rw [hds]; exact List.mem_cons_self)
    cases gs with
    | nil => exact ⟨c, ds ++ rest, by rw [colonText, hds]; rfl, hc⟩
    | cons g' gs => exact ⟨c, _, by rw [colonText_cons_cons, hds]; rfl, hc⟩

section Steps

variable {n : Nat} {ip : List UInt8} {ellipsis : Option Nat} {g : Nat}

/-- The last group. -/
theorem parseGroups_last (hg : g < 65536) :
    parseGroups (n + 1) ip ellipsis (Nat.toDigits 16 g) =
      some (ip ++ groupsBytes [g], ellipsis, []) := by
  obtain ⟨htake, hdrop⟩ := span_group g [] fun c hc => absurd hc (by simp)
  rw [List.append_nil] at htake hdrop
  rw [parseGroups]
  simp only [htake, hdrop, if_neg (not_long hg), groupBytes_toDigits]
  rfl

/-- A group with another one behind it. -/
theorem parseGroups_colon (hg : g < 65536) {c : Char} {cs : List Char} (hc : isHex c = true) :
    parseGroups (n + 1) ip ellipsis (Nat.toDigits 16 g ++ ':' :: c :: cs) =
      parseGroups n (ip ++ groupsBytes [g]) ellipsis (c :: cs) := by
  have hcolon : isHex ':' = false := by decide
  have hne : c ≠ ':' := by
    rintro rfl
    rw [hcolon] at hc
    cases hc
  obtain ⟨htake, hdrop⟩ := span_group g (':' :: c :: cs) fun c' hc' => by
    cases hc'
    exact hcolon
  rw [parseGroups]
  simp only [htake, hdrop, if_neg (not_long hg), groupBytes_toDigits]
  split
  next heq => cases heq
  next heq => cases heq
  next heq => cases heq; exact absurd rfl hne
  next heq => cases heq; exact absurd rfl hne
  next heq => cases heq; rfl
  next heq => cases heq
  next hrest _ => exact absurd rfl (hrest _)

/-- A group with a run of zeros behind it that ends the text. -/
theorem parseGroups_zeros (hg : g < 65536) :
    parseGroups (n + 1) ip none (Nat.toDigits 16 g ++ [':', ':']) =
      some (ip ++ groupsBytes [g], some (ip ++ groupsBytes [g]).length, []) := by
  obtain ⟨htake, hdrop⟩ := span_group g [':', ':'] fun c' hc' => by
    cases hc'
    decide
  rw [parseGroups]
  simp only [htake, hdrop, if_neg (not_long hg), groupBytes_toDigits, Option.isSome_none,
    if_neg Bool.false_ne_true]
  rfl

/-- A group with a run of zeros and another group behind it. -/
theorem parseGroups_skip (hg : g < 65536) (c : Char) (cs : List Char) :
    parseGroups (n + 1) ip none (Nat.toDigits 16 g ++ ':' :: ':' :: c :: cs) =
      parseGroups n (ip ++ groupsBytes [g]) (some (ip ++ groupsBytes [g]).length) (c :: cs) := by
  obtain ⟨htake, hdrop⟩ := span_group g (':' :: ':' :: c :: cs) fun c' hc' => by
    cases hc'
    decide
  rw [parseGroups]
  simp only [htake, hdrop, if_neg (not_long hg), groupBytes_toDigits, Option.isSome_none,
    if_neg Bool.false_ne_true]
  rfl

end Steps

theorem groupsBytes_cons (g : Nat) (gs : List Nat) :
    groupsBytes (g :: gs) = groupsBytes [g] ++ groupsBytes gs := by
  rw [groupsBytes, groupsBytes, groupsBytes, List.flatMap_cons, List.flatMap_singleton]

/-- Groups to the end of the text. -/
theorem parseGroups_colonText {n : Nat} {ip : List UInt8} {ellipsis : Option Nat} {g : Nat}
    {gs : List Nat} (hg : ∀ g' ∈ g :: gs, g' < 65536) (hn : gs.length < n) :
    parseGroups n ip ellipsis (colonText (g :: gs)) =
      some (ip ++ groupsBytes (g :: gs), ellipsis, []) := by
  induction gs generalizing n ip g with
  | nil =>
    obtain ⟨n, rfl⟩ := Nat.exists_eq_succ_of_ne_zero (Nat.ne_of_gt hn)
    exact parseGroups_last (hg g List.mem_cons_self)
  | cons g' gs ih =>
    obtain ⟨n, rfl⟩ := Nat.exists_eq_succ_of_ne_zero (Nat.ne_of_gt (Nat.lt_of_le_of_lt
      (Nat.zero_le _) hn))
    obtain ⟨c, cs, htext, hc⟩ := colonText_head g' gs []
    rw [List.append_nil] at htext
    rw [List.length_cons] at hn
    rw [colonText_cons_cons, htext, parseGroups_colon (hg g List.mem_cons_self) hc, ← htext,
      ih (fun g'' hg'' => hg g'' (List.mem_cons_of_mem g hg'')) (by omega),
      groupsBytes_cons g (g' :: gs), List.append_assoc]

/-- Groups on both sides of a run of zeros. -/
theorem parseGroups_ellipsis {n : Nat} {ip : List UInt8} {g : Nat} {gs gs' : List Nat}
    (hg : ∀ g' ∈ g :: gs, g' < 65536) (hg' : ∀ g' ∈ gs', g' < 65536)
    (hn : gs.length + gs'.length < n) :
    parseGroups n ip none (colonText (g :: gs) ++ ':' :: ':' :: colonText gs') =
      some (ip ++ groupsBytes (g :: gs) ++ groupsBytes gs',
        some (ip ++ groupsBytes (g :: gs)).length, []) := by
  induction gs generalizing n ip g with
  | nil =>
    obtain ⟨n, rfl⟩ := Nat.exists_eq_succ_of_ne_zero (Nat.ne_of_gt (Nat.lt_of_le_of_lt
      (Nat.zero_le _) hn))
    rw [List.length_nil] at hn
    cases gs' with
    | nil =>
      rw [show groupsBytes ([] : List Nat) = [] from rfl, List.append_nil]
      exact parseGroups_zeros (hg g List.mem_cons_self)
    | cons g' gs' =>
      obtain ⟨c, cs, htext, hc⟩ := colonText_head g' gs' []
      rw [List.append_nil] at htext
      rw [List.length_cons] at hn
      rw [colonText, htext, parseGroups_skip (hg g List.mem_cons_self), ← htext,
        parseGroups_colonText hg' (by omega)]
  | cons g' gs ih =>
    obtain ⟨n, rfl⟩ := Nat.exists_eq_succ_of_ne_zero (Nat.ne_of_gt (Nat.lt_of_le_of_lt
      (Nat.zero_le _) hn))
    obtain ⟨c, cs, htext, hc⟩ := colonText_head g' gs (':' :: ':' :: colonText gs')
    rw [List.length_cons] at hn
    rw [colonText_cons_cons, List.append_assoc, List.cons_append, htext,
      parseGroups_colon (hg g List.mem_cons_self) hc, ← htext,
      ih (fun g'' hg'' => hg g'' (List.mem_cons_of_mem g hg'')) (by omega),
      groupsBytes_cons g (g' :: gs), List.append_assoc ip]

/-! ## Round trips -/

/-- What is left out are zeros. -/
theorem zeroRun_spec {gs : List Nat} {i j : Nat} (h : zeroRun gs = some (i, j)) :
    2 ≤ j - i ∧ gs = gs.take i ++ List.replicate (j - i) 0 ++ gs.drop j := by
  have hrun : ∀ i, gs = gs.take i ++
      List.replicate ((gs.drop i).takeWhile (· = 0)).length 0 ++
        gs.drop (i + ((gs.drop i).takeWhile (· = 0)).length) := by
    intro i
    have hzeros : (gs.drop i).takeWhile (· = 0) =
        List.replicate ((gs.drop i).takeWhile (· = 0)).length 0 :=
      List.eq_replicate_iff.2
        ⟨rfl, fun b hb => of_decide_eq_true (List.all_eq_true.1 List.all_takeWhile b hb)⟩
    have hlen : (gs.drop i).drop ((gs.drop i).takeWhile (· = 0)).length =
        (gs.drop i).dropWhile (· = 0) := by
      nth_rewrite 2 [← List.takeWhile_append_dropWhile (p := (· = 0)) (l := gs.drop i)]
      exact List.drop_left
    rw [← hzeros, ← List.drop_drop, hlen, List.append_assoc, List.takeWhile_append_dropWhile,
      List.take_append_drop]
  have hfold : ∀ (l : List Nat) (best : Option (Nat × Nat)),
      (∀ i j, best = some (i, j) →
        2 ≤ j - i ∧ gs = gs.take i ++ List.replicate (j - i) 0 ++ gs.drop j) →
      ∀ i j, l.foldl (fun best i =>
        let j := i + ((gs.drop i).takeWhile (· = 0)).length
        if 2 ≤ j - i ∧ runLength best < j - i then some (i, j) else best) best = some (i, j) →
        2 ≤ j - i ∧ gs = gs.take i ++ List.replicate (j - i) 0 ++ gs.drop j := by
    intro l
    induction l with
    | nil => exact fun best hbest => hbest
    | cons k l ih =>
      intro best hbest
      refine ih _ fun i j hij => ?_
      simp only at hij
      split at hij
      next hlong =>
        cases hij
        rw [Nat.add_sub_cancel_left] at hlong ⊢
        exact ⟨hlong.1, hrun k⟩
      next => exact hbest i j hij
  exact hfold (List.range 8) none (fun i j h => by cases h) i j h

theorem groupsBytes_append (gs gs' : List Nat) :
    groupsBytes (gs ++ gs') = groupsBytes gs ++ groupsBytes gs' := List.flatMap_append

theorem length_groupsBytes (gs : List Nat) : (groupsBytes gs).length = 2 * gs.length := by
  induction gs with
  | nil => rfl
  | cons g gs ih =>
    rw [groupsBytes_cons, List.length_append, ih, List.length_cons, Nat.mul_succ, Nat.add_comm]
    rfl

theorem groupsBytes_zeros (k : Nat) :
    groupsBytes (List.replicate k 0) = List.replicate (2 * k) 0 := by
  induction k with
  | zero => rfl
  | succ k ih =>
    rw [List.replicate_succ, groupsBytes_cons, ih, Nat.mul_succ, List.replicate_succ,
      List.replicate_succ]
    rfl

/-- A text that starts with a group has no run of zeros before it. -/
theorem parseIPv6Groups_of_head {c : Char} (cs : List Char) (hc : isHex c = true) :
    parseIPv6Groups (c :: cs) = parseIPv6Groups.finish (parseGroups 8 [] none (c :: cs)) := by
  have hcolon : ¬isHex ':' = true := by decide
  unfold parseIPv6Groups
  split
  next heq => cases heq; exact absurd hc hcolon
  next heq => cases heq; exact absurd hc hcolon
  next => rfl

/-- The bytes with the zeros put back. -/
theorem expand_groups {before after : List Nat} {k : Nat}
    (hk : before.length + k + after.length = 8) (hpos : 2 ≤ k) :
    expand (groupsBytes before ++ groupsBytes after) (some (groupsBytes before).length) =
      some (groupsBytes (before ++ List.replicate k 0 ++ after)) := by
  have hlen : (groupsBytes before ++ groupsBytes after).length =
      2 * before.length + 2 * after.length := by
    rw [List.length_append, length_groupsBytes, length_groupsBytes]
  have hzeros : 16 - (2 * before.length + 2 * after.length) = 2 * k := by omega
  simp only [expand, hlen]
  rw [if_pos (by omega), List.take_left, List.drop_left, hzeros, groupsBytes_append,
    groupsBytes_append, groupsBytes_zeros]

theorem parseIPv6Groups_format6 {ip : List UInt8} (hl : ip.length = 16) :
    parseIPv6Groups (format6 ip) = some ip := by
  obtain ⟨hlen, hlt⟩ := groups_spec ip (k := 8) hl
  have hbytes := groupsBytes_groups ip (k := 8) hl
  rw [format6]
  generalize groups ip = gs at *
  split
  next hnone =>
    cases gs with
    | nil => cases hlen
    | cons g gs =>
      obtain ⟨c, cs, htext, hc⟩ := colonText_head g gs []
      rw [List.append_nil] at htext
      rw [List.length_cons] at hlen
      rw [htext, parseIPv6Groups_of_head cs hc, ← htext, parseGroups_colonText hlt (by omega),
        List.nil_append, hbytes]
      simp only [parseIPv6Groups.finish, expand, hl]
      rfl
  next i j hsome =>
    obtain ⟨hk, hsplit⟩ := zeroRun_spec hsome
    have hlt₁ : ∀ g ∈ gs.take i, g < 65536 := fun g hg => hlt g (List.mem_of_mem_take hg)
    have hlt₂ : ∀ g ∈ gs.drop j, g < 65536 := fun g hg => hlt g (List.mem_of_mem_drop hg)
    have hsum := congrArg List.length hsplit
    rw [List.length_append, List.length_append, List.length_replicate, hlen] at hsum
    rw [hsplit] at hbytes
    generalize gs.take i = before at *
    generalize gs.drop j = after at *
    have hexpand := expand_groups hsum.symm hk
    rw [hbytes] at hexpand
    cases before with
    | nil =>
      cases after with
      | nil =>
        rw [show groupsBytes ([] : List Nat) = [] from rfl] at hexpand
        exact hexpand
      | cons g after =>
        obtain ⟨c, cs, htext, hc⟩ := colonText_head g after []
        rw [List.append_nil] at htext
        rw [List.length_cons] at hsum
        have hread : parseGroups 8 [] (some 0) (colonText (g :: after)) = _ :=
          parseGroups_colonText hlt₂ (by omega)
        rw [htext] at hread
        rw [htext, colonText, List.nil_append]
        exact (congrArg parseIPv6Groups.finish hread).trans hexpand
    | cons g before =>
      obtain ⟨c, cs, htext, hc⟩ := colonText_head g before (':' :: ':' :: colonText after)
      rw [List.length_cons] at hsum
      rw [htext, parseIPv6Groups_of_head cs hc, ← htext,
        parseGroups_ellipsis hlt₁ hlt₂ (by omega), List.nil_append]
      exact hexpand

/-- The first mark of a text that has only one kind of them. -/
theorem find?_mark {m : Char} {s : List Char} (hm : m = '.' ∨ m = ':' ∨ m = '%') (hmem : m ∈ s)
    (hall : ∀ c ∈ s, c = '.' ∨ c = ':' ∨ c = '%' → c = m) :
    s.find? (fun c => c = '.' ∨ c = ':' ∨ c = '%') = some m := by
  cases hf : s.find? (fun c => c = '.' ∨ c = ':' ∨ c = '%') with
  | none => exact absurd (decide_eq_true hm) (List.find?_eq_none.1 hf m hmem)
  | some c =>
    have hmark := List.find?_some hf
    rw [hall c (List.mem_of_find?_eq_some hf) (of_decide_eq_true hmark)]

theorem chars_of_dotText {bs : List UInt8} {c : Char} (hc : c ∈ dotText bs) :
    c.isDigit = true ∨ c = '.' := by
  induction bs with
  | nil => cases hc
  | cons b bs ih =>
    cases bs with
    | nil => exact Or.inl (Wire.isDigit_of_mem_toDigits hc)
    | cons b' bs =>
      rw [dotText_cons_cons] at hc
      rcases List.mem_append.1 hc with hc | hc
      · exact Or.inl (Wire.isDigit_of_mem_toDigits hc)
      · rcases List.mem_cons.1 hc with rfl | hc
        · exact Or.inr rfl
        · exact ih hc

theorem chars_of_colonText {gs : List Nat} {c : Char} (hc : c ∈ colonText gs) :
    isHex c = true ∨ c = ':' := by
  induction gs with
  | nil => cases hc
  | cons g gs ih =>
    cases gs with
    | nil => exact Or.inl (isHex_toDigits hc)
    | cons g' gs =>
      rw [colonText_cons_cons] at hc
      rcases List.mem_append.1 hc with hc | hc
      · exact Or.inl (isHex_toDigits hc)
      · rcases List.mem_cons.1 hc with rfl | hc
        · exact Or.inr rfl
        · exact ih hc

theorem chars_of_format6 {ip : List UInt8} {c : Char} (hc : c ∈ format6 ip) :
    isHex c = true ∨ c = ':' := by
  rw [format6] at hc
  split at hc
  next => exact chars_of_colonText hc
  next i j _ =>
    rcases List.mem_append.1 hc with hc | hc
    · exact chars_of_colonText hc
    · rcases List.mem_cons.1 hc with rfl | hc
      · exact Or.inr rfl
      · rcases List.mem_cons.1 hc with rfl | hc
        · exact Or.inr rfl
        · exact chars_of_colonText hc

theorem colon_mem_format6 {ip : List UInt8} (hl : ip.length = 16) : ':' ∈ format6 ip := by
  rw [format6]
  split
  next =>
    have hlen := (groups_spec ip (k := 8) hl).1
    cases hgs : groups ip with
    | nil => rw [hgs] at hlen; cases hlen
    | cons g gs =>
      cases gs with
      | nil => rw [hgs] at hlen; cases hlen
      | cons g' gs => exact List.mem_append_right _ List.mem_cons_self
  next => exact List.mem_append_right _ List.mem_cons_self

theorem parseIPv4_eq {s : List Char} {ip : List UInt8} (h : parseIPv4Fields s = some ip)
    (hl : ip.length = 4) : parseIPv4 s = some (.v4 ip hl) := by
  unfold parseIPv4
  split
  next ip' heq =>
    rw [h] at heq
    cases heq
    rfl
  next heq =>
    rw [h] at heq
    cases heq

theorem parseIPv6Zone_eq {s zone : List Char} {ip : List UInt8} (h : parseIPv6Groups s = some ip)
    (hl : ip.length = 16) : parseIPv6Zone s zone = some (.v6 ip zone hl) := by
  unfold parseIPv6Zone
  split
  next ip' heq =>
    rw [h] at heq
    cases heq
    rfl
  next heq =>
    rw [h] at heq
    cases heq

/-- The text of an IPv4 address is read as the address. -/
theorem parseAddr_format4 {ip : List UInt8} (hl : ip.length = 4) :
    parseAddr (format4 ip) = some (.v4 ip hl) := by
  have hne : ip ≠ [] := by
    rintro rfl
    cases hl
  have hread : parseIPv4Fields (format4 ip) = some ip :=
    (ipv4Fields_dotText hne (by simpa using hl)).trans (by rw [List.nil_append])
  have hdot : '.' ∈ format4 ip := by
    obtain ⟨a, ip, rfl⟩ := List.exists_cons_of_length_eq_add_one hl
    obtain ⟨b, ip, rfl⟩ := List.exists_cons_of_length_eq_add_one (Nat.succ.inj hl)
    exact List.mem_append_right _ List.mem_cons_self
  have hmark : (format4 ip).find? (fun c => c = '.' ∨ c = ':' ∨ c = '%') = some '.' := by
    refine find?_mark (Or.inl rfl) hdot fun c hc hm => ?_
    rcases chars_of_dotText hc with hd | hd
    · rcases hm with rfl | rfl | rfl <;> cases hd
    · exact hd
  unfold parseAddr
  rw [hmark]
  exact parseIPv4_eq hread hl

/-- The text of an IPv6 address is read as the address. -/
theorem parseAddr_format6 {ip : List UInt8} (hl : ip.length = 16) :
    parseAddr (format6 ip) = some (.v6 ip [] hl) := by
  have hmark : (format6 ip).find? (fun c => c = '.' ∨ c = ':' ∨ c = '%') = some ':' := by
    refine find?_mark (Or.inr (Or.inl rfl)) (colon_mem_format6 hl) fun c hc hm => ?_
    rcases chars_of_format6 hc with hd | hd
    · rcases hm with rfl | rfl | rfl <;> cases hd
    · exact hd
  have hzone : (format6 ip).dropWhile (· ≠ '%') = [] := by
    refine List.dropWhile_eq_nil_iff.2 fun c hc => decide_eq_true ?_
    rintro rfl
    rcases chars_of_format6 hc with hd | hd <;> cases hd
  unfold parseAddr
  rw [hmark]
  simp only [parseIPv6, hzone]
  exact parseIPv6Zone_eq (parseIPv6Groups_format6 hl) hl

end Inet

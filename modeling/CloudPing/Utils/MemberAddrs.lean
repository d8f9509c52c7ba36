import CloudPing.Conc.Progress
import CloudPing.Utils.Offset

/-!
# The addresses of a subnet

`GetMemberAddresses32` starts a goroutine that sends the addresses of a subnet on a channel
without a buffer.  The last four bytes of the address are a counter of 32 bits, and the number
of addresses is one of 64.  The counter starts at a multiple of the number of addresses, so it
does not wrap before the last of them was sent (`addr_add`).

The member at a place has the number of the network plus the place (`ofBytes_member`).  A run
whose context is not cancelled sends the members one after the other (`Sent`) and then closes
the channel.
-/

namespace CloudPing.Utils

open Conc Web

/-! ## The source -/

/-- `binary.BigEndian.PutUint32`. -/
def putUint32 (v : UInt32) : List UInt8 :=
  [(v >>> 24).toUInt8, (v >>> 16).toUInt8, (v >>> 8).toUInt8, v.toUInt8]

/-- The variables of the loop. -/
structure MemberLoop where
  bits : Nat
  /-- The upper bytes of an IPv6 address. -/
  pre : List UInt8
  addr : UInt32
  total : Nat
  deriving DecidableEq, Repr

/-- What the goroutine computes before its loop, `none` for a panic on too few bytes. -/
def memberLoop (ipNet : IPNet) : Option MemberLoop :=
  let ip := ipNet.ip.mask ipNet.mask
  let (ones, bits) := maskSize ipNet.mask
  let total := 1 <<< (bits - ones) % 2 ^ 64
  if bits = 32 then do
    let ipBytes ← ip.to4
    let addr ← uint32 ipBytes
    some ⟨bits, [], UInt32.ofNat addr, total⟩
  else do
    let ipBytes ← ip.to16
    let addr ← uint32 (ipBytes.drop 12)
    some ⟨bits, ipBytes.take 12, UInt32.ofNat addr, total⟩

/-- The address of an iteration. -/
def MemberLoop.result (l : MemberLoop) : IP :=
  if l.bits = 32 then putUint32 l.addr else l.pre ++ putUint32 l.addr

inductive MemberPC where
  | start
  /-- At the `select` with a default, with so many iterations to go. -/
  | polling (left : Nat) (loop : MemberLoop)
  /-- At the send. -/
  | sending (left : Nat) (loop : MemberLoop) (result : IP)
  /-- Returned, and the channel is closed. -/
  | closed
  | panicked
  deriving DecidableEq, Repr

structure MemberRun where
  pc : MemberPC
  ctxDone : Bool
  /-- What was received from the channel. -/
  received : List IP
  deriving DecidableEq, Repr

inductive MemberAction where
  | setup
  | poll
  /-- A receiver takes the address. -/
  | send
  | sendDone
  | cancel
  deriving DecidableEq, Repr

/-- `GetMemberAddresses32`. -/
def getMemberAddresses32 (ipNet : IPNet) : System MemberRun MemberAction where
  init := ⟨.start, false, []⟩
  step s a :=
    match a, s.pc with
    | .setup, .start =>
      match memberLoop ipNet with
      | none => some { s with pc := .panicked }
      | some loop => some { s with pc := .polling loop.total loop }
    | .poll, .polling 0 _ => some { s with pc := .closed }
    | .poll, .polling (left + 1) loop =>
      if s.ctxDone then some { s with pc := .closed }
      else some { s with pc := .sending left loop loop.result }
    | .send, .sending left loop result =>
      some { s with
        pc := .polling left { loop with addr := loop.addr + 1 }
        received := s.received ++ [result] }
    | .sendDone, .sending _ _ _ => if s.ctxDone then some { s with pc := .closed } else none
    | .cancel, _ => some { s with ctxDone := true }
    | _, _ => none

/-- Nobody cancels the context. -/
def live : Policy MemberRun MemberAction := fun _ a => a ≠ .cancel

instance (s : MemberRun) (a : MemberAction) : Decidable (live s a) :=
  inferInstanceAs (Decidable (a ≠ .cancel))

/-! ## Words and masks -/

theorem length_putUint32 (v : UInt32) : (putUint32 v).length = 4 := rfl

theorem ofBytes_putUint32 (v : UInt32) : ofBytes (putUint32 v) = v.toNat := by
  have hlt := v.toNat_lt
  simp only [putUint32, ofBytes, List.length_cons, List.length_nil, UInt32.toNat_toUInt8,
    UInt32.toNat_shiftRight, Nat.shiftRight_eq_div_pow, UInt32.reduceToNat, Nat.reduceMod,
    Nat.reducePow, Nat.reduceMul, Nat.reduceAdd]
  omega

/-- A counter that does not reach the end of its word does not wrap. -/
theorem addr_add {base i : Nat} (h : base + i < 2 ^ 32) :
    (UInt32.ofNat base + UInt32.ofNat i).toNat = base + i := by
  rw [UInt32.toNat_add, UInt32.toNat_ofNat', UInt32.toNat_ofNat', ← Nat.add_mod,
    Nat.mod_eq_of_lt h]

/-- A multiple of a power of two has room for that many numbers below a larger power. -/
theorem add_lt_of_dvd {base h w i : Nat} (hh : h ≤ w) (hbase : base < 2 ^ w)
    (hmul : 2 ^ h ∣ base) (hi : i < 2 ^ h) : base + i < 2 ^ w := by
  obtain ⟨q, rfl⟩ := hmul
  have hpow : 2 ^ w = 2 ^ h * 2 ^ (w - h) := by rw [← Nat.pow_add, Nat.add_sub_cancel' hh]
  rw [hpow] at hbase ⊢
  have hq : q + 1 ≤ 2 ^ (w - h) := Nat.lt_of_mul_lt_mul_left hbase
  calc 2 ^ h * q + i < 2 ^ h * q + 2 ^ h := Nat.add_lt_add_left hi _
    _ = 2 ^ h * (q + 1) := (Nat.mul_succ _ _).symm
    _ ≤ 2 ^ h * 2 ^ (w - h) := Nat.mul_le_mul_left _ hq

/-- A byte that is not all ones and is nothing but leading ones. -/
theorem byte_of_leadingOnes (v : UInt8) (hv : v ≠ 255) (hz : (leadingOnes 8 v).2 = 0) :
    (leadingOnes 8 v).1 < 8 ∧
      ~~~((255 : UInt8) >>> UInt8.ofNat (leadingOnes 8 v).1) = v := by
  have hall : ∀ v : Fin 256, UInt8.ofFin v ≠ 255 → (leadingOnes 8 (UInt8.ofFin v)).2 = 0 →
      (leadingOnes 8 (UInt8.ofFin v)).1 < 8 ∧
        ~~~((255 : UInt8) >>> UInt8.ofNat (leadingOnes 8 (UInt8.ofFin v)).1) =
          UInt8.ofFin v := by
    decide +kernel
  exact hall v.toFin hv hz

/-- A mask with a length is one of leading ones. -/
theorem maskBytes_of_simple {mask : List UInt8} {ones : Nat}
    (h : simpleMaskLength mask = some ones) :
    mask = maskBytes mask.length ones ∧ ones ≤ 8 * mask.length := by
  induction mask generalizing ones with
  | nil =>
    cases h
    exact ⟨rfl, Nat.le_refl _⟩
  | cons v mask ih =>
    rw [simpleMaskLength] at h
    split at h
    next hv =>
      obtain ⟨k, hk, rfl⟩ := Option.map_eq_some_iff.1 h
      obtain ⟨heq, hle⟩ := ih hk
      have hsub : 8 + k - 8 = k := by omega
      rw [List.length_cons, maskBytes, if_pos (Nat.le_add_right 8 k), hsub, ← heq, hv]
      exact ⟨rfl, by omega⟩
    next hv =>
      split at h
      next => cases h
      next hz =>
        split at h
        next => cases h
        next hany =>
          cases h
          obtain ⟨hlt, hbyte⟩ := byte_of_leadingOnes v hv (not_not.1 hz)
          have hzero : mask = List.replicate mask.length 0 := by
            refine List.eq_replicate_iff.2 ⟨rfl, fun b hb => ?_⟩
            by_contra hne
            exact hany (List.any_eq_true.2 ⟨b, hb, decide_eq_true hne⟩)
          rw [List.length_cons, maskBytes, if_neg (Nat.not_le.2 hlt), hbyte, maskBytes_zero,
            ← hzero]
          exact ⟨rfl, by omega⟩

/-! ## The members -/

/-- A network of one of the two families, with or without bits outside its mask. -/
structure IPNet.Subnet (n : IPNet) (ones bits : Nat) : Prop where
  size : maskSize n.mask = (ones, bits)
  bits : bits = 32 ∨ bits = 128
  fits : n.ip.mask n.mask ≠ []

/-- The address of iteration `i`. -/
def MemberLoop.member (l : MemberLoop) (i : Nat) : IP :=
  { l with addr := l.addr + UInt32.ofNat i }.result

/-- The loop counts through the members of a network with `h` host bits.  The addresses it makes
are numbered from `first`, and in the form of their family they have `len` bytes and are
numbered from `base`. -/
structure Enumerates (n : IPNet) (l : MemberLoop) (bits h first len base : Nat) : Prop where
  loop : memberLoop n = some l
  total : l.total = 2 ^ h
  length : ∀ i, (l.member i).length = bits / 8
  value : ∀ i, i < 2 ^ h → ofBytes (l.member i) = first + i
  family : ∀ i, i < 2 ^ h → (normal (l.member i)).length = len
  place : ∀ i, i < 2 ^ h → ofBytes (normal (l.member i)) = base + i
  contains : ∀ a, n.contains a = true ↔
    (normal a).length = len ∧ base ≤ ofBytes (normal a) ∧ ofBytes (normal a) < base + 2 ^ h

section Members

variable {n : IPNet} {ones bits : Nat}

theorem IPNet.Subnet.mask_eq (hn : n.Subnet ones bits) :
    n.mask = maskBytes (bits / 8) ones ∧ ones ≤ bits := by
  have hsize := hn.size
  have hbits := hn.bits
  rw [maskSize] at hsize
  split at hsize
  next =>
    cases hsize
    omega
  next hones =>
    cases hsize
    obtain ⟨hmask, hle⟩ := maskBytes_of_simple hones
    have hdiv : 8 * n.mask.length / 8 = n.mask.length := Nat.mul_div_cancel_left _ (by decide)
    exact ⟨hdiv.symm ▸ hmask, hle⟩

/-- The members of a network have its quotient. -/
theorem contains_iff_interval {nn : IP} {k : Nat}
    (hnn : n.networkNumberAndMask = (nn, maskBytes nn.length k)) (hk : k ≤ 8 * nn.length) (a : IP) :
    n.contains a = true ↔ (normal a).length = nn.length ∧
      ofBytes (List.zipWith (· &&& ·) nn (maskBytes nn.length k)) ≤ ofBytes (normal a) ∧
      ofBytes (normal a) < ofBytes (List.zipWith (· &&& ·) nn (maskBytes nn.length k)) +
        2 ^ (8 * nn.length - k) := by
  simp only [IPNet.contains, hnn, decide_eq_true_eq]
  refine and_congr_right fun (hlen : (normal a).length = nn.length) => ?_
  have hpos := Nat.two_pow_pos (8 * nn.length - k)
  have hval := (ofBytes_mask (rfl : nn.length = nn.length) hk).1
  have hvala := (ofBytes_mask hlen hk).1
  have hcut : ∀ {ip : IP}, ip.length = nn.length →
      (List.zipWith (· &&& ·) ip (maskBytes nn.length k)).length = nn.length := by
    intro ip hip
    rw [List.length_zipWith, length_maskBytes, hip, Nat.min_self]
  have hsame : List.zipWith (· &&& ·) nn (maskBytes nn.length k) =
      List.zipWith (· &&& ·) (normal a) (maskBytes nn.length k) ↔
        ofBytes nn / 2 ^ (8 * nn.length - k) = ofBytes (normal a) / 2 ^ (8 * nn.length - k) := by
    constructor
    · intro he
      have hmul := congrArg ofBytes he
      rw [hval, hvala] at hmul
      exact Nat.eq_of_mul_eq_mul_right hpos hmul
    · intro he
      refine ofBytes_inj ((hcut rfl).trans (hcut hlen).symm) ?_
      rw [hval, hvala, he]
  refine hsame.trans ?_
  rw [eq_comm, Nat.div_eq_iff hpos, hval]
  generalize ofBytes nn / 2 ^ (8 * nn.length - k) * 2 ^ (8 * nn.length - k) = base
  omega

/-- An IPv4 address is cut in the form of its family. -/
theorem mask_four {ip : IP} {mask : List UInt8} (hm : mask.length = 4) (hne : ip.mask mask ≠ []) :
    ∃ ip4, ip.to4 = some ip4 ∧ ip.mask mask = List.zipWith (· &&& ·) ip4 mask := by
  by_cases h4 : ip.length = 4
  · exact ⟨ip, to4_of_length_four h4, mask_of_length (h4.trans hm.symm)⟩
  · by_cases h16 : ip.length = 16 ∧ ip.take 12 = v4InV6Prefix
    · have hto4 : ip.to4 = some (ip.drop 12) := by rw [to4_of_length h16.1, if_pos h16.2]
      exact ⟨ip.drop 12, hto4, mask_of_mapped h16.1 hto4 hm⟩
    · refine absurd ?_ hne
      have hmapped : ¬(mask.length = 4 ∧ ip.length = 16 ∧ ip.take 12 = v4InV6Prefix) :=
        fun hh => h16 hh.2
      have hbroad : ¬(mask.length = 16 ∧ ip.length = 4 ∧ mask.take 12 = List.replicate 12 255) :=
        fun hh => h4 hh.2.1
      have hlen : ip.length ≠ mask.length := fun hh => h4 (hh.trans hm)
      simp only [IP.mask, if_neg hbroad, if_neg hmapped, if_neg hlen]

/-- The leading bytes of a mask. -/
theorem take_maskBytes (a b : Nat) {n : Nat} (hn : 8 * a ≤ n) :
    (maskBytes (a + b) n).take a = List.replicate a 255 := by
  induction a generalizing n with
  | zero => rfl
  | succ a ih =>
    have hadd : a + 1 + b = a + b + 1 := by omega
    rw [hadd, maskBytes, if_pos (by omega), List.take_succ_cons, ih (by omega),
      List.replicate_succ]

theorem zipWith_ones (bs : List UInt8) :
    List.zipWith (· &&& ·) bs (List.replicate bs.length 255) = bs := by
  induction bs with
  | nil => rfl
  | cons b bs ih =>
    rw [List.length_cons, List.replicate_succ, List.zipWith_cons_cons, ih, (and_ones b).1]

/-- A mask that covers the upper twelve bytes leaves them. -/
theorem zipWith_maskBytes {ip : IP} (ho : 96 ≤ ones) (h16 : ip.length = 16) :
    List.zipWith (· &&& ·) ip (maskBytes 16 ones) =
      ip.take 12 ++ List.zipWith (· &&& ·) (ip.drop 12) (maskBytes 4 (ones - 96)) := by
  have htake : (maskBytes 16 ones).take 12 = List.replicate 12 255 := take_maskBytes 12 4 ho
  have hdrop : (maskBytes 16 ones).drop 12 = maskBytes 4 (ones - 96) := drop_maskBytes 12 4 ones
  have h12 : (ip.take 12).length = 12 := by rw [List.length_take, h16]; rfl
  have hones := zipWith_ones (ip.take 12)
  rw [h12] at hones
  rw [← List.take_append_drop 12 (List.zipWith _ ip _), List.take_zipWith, List.drop_zipWith,
    htake, hdrop, hones]

/-- An address under a mask that covers its upper twelve bytes keeps them. -/
theorem mask_sixteen {ip : IP} (ho : 96 ≤ ones) (hne : ip.mask (maskBytes 16 ones) ≠ []) :
    ∃ ip16, ip.to16 = some ip16 ∧ ip16.length = 16 ∧ (ip.mask (maskBytes 16 ones)).to16 =
      some (ip16.take 12 ++ List.zipWith (· &&& ·) (ip16.drop 12) (maskBytes 4 (ones - 96))) := by
  have htake : (maskBytes 16 ones).take 12 = List.replicate 12 255 := take_maskBytes 12 4 ho
  have hdrop : (maskBytes 16 ones).drop 12 = maskBytes 4 (ones - 96) := drop_maskBytes 12 4 ones
  by_cases h4 : ip.length = 4
  · have hbroad : (maskBytes 16 ones).length = 16 ∧ ip.length = 4 ∧
        (maskBytes 16 ones).take 12 = List.replicate 12 255 :=
      ⟨length_maskBytes 16 ones, h4, htake⟩
    have hlen : ip.length = (maskBytes 4 (ones - 96)).length := by rw [h4, length_maskBytes]
    have hcut : (List.zipWith (· &&& ·) ip (maskBytes 4 (ones - 96))).length = 4 := by
      rw [List.length_zipWith, length_maskBytes, h4, Nat.min_self]
    have hmapped : ¬((maskBytes 4 (ones - 96)).length = 4 ∧ ip.length = 16 ∧
        ip.take 12 = v4InV6Prefix) := by
      rw [h4]
      exact fun hh => absurd hh.2.1 (by decide)
    have hmask : ip.mask (maskBytes 16 ones) =
        List.zipWith (· &&& ·) ip (maskBytes 4 (ones - 96)) := by
      simp only [IP.mask, if_pos hbroad, hdrop, if_neg hmapped, if_pos hlen]
    refine ⟨v4InV6Prefix ++ ip, if_pos h4, by rw [List.length_append, h4]; rfl, ?_⟩
    rw [hmask, IP.to16, if_pos hcut]
    rfl
  · have h16 : ip.length = 16 := by
      by_contra h16
      refine hne ?_
      have hlm := length_maskBytes 16 ones
      have hbroad : ¬((maskBytes 16 ones).length = 16 ∧ ip.length = 4 ∧
          (maskBytes 16 ones).take 12 = List.replicate 12 255) := fun hh => h4 hh.2.1
      have hmapped : ¬((maskBytes 16 ones).length = 4 ∧ ip.length = 16 ∧
          ip.take 12 = v4InV6Prefix) := fun hh => h16 hh.2.1
      have hlen : ip.length ≠ (maskBytes 16 ones).length := fun hh => h16 (hh.trans hlm)
      simp only [IP.mask, if_neg hbroad, if_neg hmapped, if_neg hlen]
    have hlen : ip.length = (maskBytes 16 ones).length := by rw [h16, length_maskBytes]
    have hcut : (List.zipWith (· &&& ·) ip (maskBytes 16 ones)).length = 16 := by
      rw [List.length_zipWith, length_maskBytes, h16, Nat.min_self]
    refine ⟨ip, by rw [IP.to16, if_neg h4, if_pos h16], h16, ?_⟩
    rw [mask_of_length hlen, IP.to16, if_neg (by omega), if_pos hcut, zipWith_maskBytes ho h16]

/-- The form of an address with sixteen bytes says what family it is of. -/
theorem normal_of_to16 {ip ip16 : IP} (h : ip.to16 = some ip16) :
    normal ip = if ip16.take 12 = v4InV6Prefix then ip16.drop 12 else ip16 := by
  rw [IP.to16] at h
  split_ifs at h with h4 h16
  · cases h
    rw [normal_of_to4 (to4_of_length_four h4)]
    exact (if_pos rfl).symm
  · cases h
    rw [normal, to4_of_length h16]
    split <;> rfl

theorem total_eq {h : Nat} (hh : h ≤ 32) : 1 <<< h % 2 ^ 64 = 2 ^ h := by
  rw [Nat.shiftLeft_eq, Nat.one_mul]
  exact Nat.mod_eq_of_lt (Nat.pow_lt_pow_right (by decide) (by omega))

theorem length_cut {ip : IP} {l k : Nat} (hl : ip.length = l) :
    (List.zipWith (· &&& ·) ip (maskBytes l k)).length = l := by
  rw [List.length_zipWith, length_maskBytes, hl, Nat.min_self]

/-- The four bytes of the counter at a place. -/
theorem ofBytes_counter {ip4 : IP} {k i : Nat} (hl : ip4.length = 4) (hk : k ≤ 32)
    (hi : i < 2 ^ (32 - k)) :
    ofBytes (putUint32 (UInt32.ofNat (ofBytes (List.zipWith (· &&& ·) ip4 (maskBytes 4 k))) +
      UInt32.ofNat i)) = ofBytes (List.zipWith (· &&& ·) ip4 (maskBytes 4 k)) + i := by
  have hlt := ofBytes_lt (List.zipWith (· &&& ·) ip4 (maskBytes 4 k))
  have hval := (ofBytes_mask hl (n := k) hk).1
  rw [length_cut hl] at hlt
  rw [ofBytes_putUint32, addr_add]
  refine add_lt_of_dvd (Nat.sub_le 32 k) hlt ?_ hi
  rw [hval]
  exact Nat.dvd_mul_left _ _

/-- The loop of an IPv4 network. -/
theorem enumerates_v4 (hn : n.Subnet ones 32) :
    ∃ l base, Enumerates n l 32 (32 - ones) base 4 base := by
  obtain ⟨hmask, hle⟩ := hn.mask_eq
  have hmask : n.mask = maskBytes 4 ones := hmask
  obtain ⟨ip4, h4, hcut⟩ := mask_four (by rw [hmask, length_maskBytes]) hn.fits
  have hl := length_of_to4 h4
  nth_rewrite 2 [hmask] at hcut
  have hnn : n.networkNumberAndMask = (ip4, maskBytes ip4.length ones) := by
    simp only [IPNet.networkNumberAndMask, h4, Option.getD_some, hl, hmask, length_maskBytes]
    rfl
  have hvalue := fun i hi => ofBytes_counter (i := i) hl hle hi
  refine ⟨⟨32, [], UInt32.ofNat (ofBytes (List.zipWith (· &&& ·) ip4 (maskBytes 4 ones))),
    2 ^ (32 - ones)⟩, _, ?_, rfl, fun i => rfl, hvalue, fun i hi => rfl, hvalue, fun a => ?_⟩
  · simp only [memberLoop, hn.size, hcut, to4_of_length_four (length_cut hl),
      uint32_of_length (length_cut hl), total_eq (Nat.sub_le 32 ones), Option.bind_eq_bind,
      Option.bind_some, if_true]
  · have hiff := contains_iff_interval hnn (by rw [hl]; exact hle) a
    rw [hl] at hiff
    exact hiff

/-- The loop of an IPv6 network with at most 32 host bits. -/
theorem enumerates_v6 (hn : n.Subnet ones 128) (ho : 96 ≤ ones) :
    ∃ l first len base, Enumerates n l 128 (128 - ones) first len base := by
  obtain ⟨hmask, hle⟩ := hn.mask_eq
  have hmask : n.mask = maskBytes 16 ones := hmask
  have hfits := hn.fits
  rw [hmask] at hfits
  obtain ⟨ip16, h16, hl16, hcut⟩ := mask_sixteen ho hfits
  rw [← hmask] at hcut
  have hnormal := normal_of_to16 h16
  have h12 : (ip16.take 12).length = 12 := by rw [List.length_take, hl16]; rfl
  have hl4 : (ip16.drop 12).length = 4 := by rw [List.length_drop, hl16]
  have hbits : 32 - (ones - 96) = 128 - ones := by omega
  have hvalue := fun i hi => ofBytes_counter (i := i) hl4 (show ones - 96 ≤ 32 by omega) hi
  rw [hbits] at hvalue
  have hloop : memberLoop n = some ⟨128, ip16.take 12, UInt32.ofNat (ofBytes (List.zipWith (· &&& ·)
      (ip16.drop 12) (maskBytes 4 (ones - 96)))), 2 ^ (128 - ones)⟩ := by
    have htotal := total_eq (show 128 - ones ≤ 32 by omega)
    simp only [memberLoop, hn.size, hcut, List.drop_left' h12, List.take_left' h12,
      uint32_of_length (length_cut hl4), htotal, Option.bind_eq_bind, Option.bind_some]
    rfl
  generalize hlow : ofBytes (List.zipWith (· &&& ·) (ip16.drop 12) (maskBytes 4 (ones - 96))) = low
    at hvalue hloop
  have happend : ∀ v, ofBytes (ip16.take 12 ++ putUint32 v) =
      ofBytes (ip16.take 12) * 2 ^ 32 + ofBytes (putUint32 v) := fun v => ofBytes_append _ _
  have hfull := fun i hi => (happend _).trans
    ((congrArg (ofBytes (ip16.take 12) * 2 ^ 32 + ·) (hvalue i hi)).trans
      (Nat.add_assoc _ low i).symm)
  have hlen : ∀ v, (ip16.take 12 ++ putUint32 v).length = 16 := by
    intro v
    rw [List.length_append, h12, length_putUint32]
  by_cases hpre : ip16.take 12 = v4InV6Prefix
  · rw [if_pos hpre] at hnormal
    have hnn : n.networkNumberAndMask =
        (ip16.drop 12, maskBytes (ip16.drop 12).length (ones - 96)) := by
      have hdrop : (maskBytes 16 ones).drop 12 = maskBytes 4 (ones - 96) :=
        drop_maskBytes 12 4 ones
      rw [normal] at hnormal
      simp only [IPNet.networkNumberAndMask, hnormal, hl4, hmask, length_maskBytes, hdrop]
      rfl
    have hmember : ∀ v, normal (ip16.take 12 ++ putUint32 v) = putUint32 v := by
      intro v
      rw [normal, to4_of_length (hlen v), List.take_left' h12, if_pos hpre, List.drop_left' h12]
      rfl
    refine ⟨_, ofBytes (ip16.take 12) * 2 ^ 32 + low, 4, low, hloop, rfl, fun i => hlen _,
      hfull, fun i hi => ?_, fun i hi => ?_, fun a => ?_⟩
    · exact congrArg List.length (hmember _)
    · exact (congrArg ofBytes (hmember _)).trans (hvalue i hi)
    · have hiff := contains_iff_interval hnn (by rw [hl4]; omega) a
      rw [hl4, hlow, show 8 * 4 - (ones - 96) = 128 - ones by omega] at hiff
      exact hiff
  · rw [if_neg hpre] at hnormal
    have hnn : n.networkNumberAndMask = (ip16, maskBytes ip16.length ones) := by
      rw [normal] at hnormal
      simp only [IPNet.networkNumberAndMask, hnormal, hl16, hmask, length_maskBytes]
      rfl
    have hmember : ∀ v, normal (ip16.take 12 ++ putUint32 v) = ip16.take 12 ++ putUint32 v := by
      intro v
      rw [normal, to4_of_length (hlen v), List.take_left' h12, if_neg hpre]
      rfl
    refine ⟨_, ofBytes (ip16.take 12) * 2 ^ 32 + low, 16, ofBytes (ip16.take 12) * 2 ^ 32 + low,
      hloop, rfl, fun i => hlen _, hfull, fun i hi => ?_, fun i hi => ?_, fun a => ?_⟩
    · exact (congrArg List.length (hmember _)).trans (hlen _)
    · exact (congrArg ofBytes (hmember _)).trans (hfull i hi)
    · have hiff := contains_iff_interval hnn (by rw [hl16]; exact hle) a
      rw [hl16, zipWith_maskBytes ho hl16, ofBytes_append, length_cut hl4, hlow] at hiff
      exact hiff

/-- At most 32 host bits are enough for the loop. -/
theorem exists_enumerates (hn : n.Subnet ones bits) (hb : bits - ones ≤ 32) :
    ∃ l first len base, Enumerates n l bits (bits - ones) first len base := by
  rcases hn.bits with rfl | rfl
  · obtain ⟨l, base, he⟩ := enumerates_v4 hn
    exact ⟨l, base, 4, base, he⟩
  · exact enumerates_v6 hn (by omega)

/-- The addresses of all iterations. -/
def MemberLoop.members (l : MemberLoop) : List IP := (List.range l.total).map l.member

namespace Enumerates

variable {l : MemberLoop} {h first len base : Nat}

theorem length_members (he : Enumerates n l bits h first len base) :
    l.members.length = 2 ^ h := by
  rw [MemberLoop.members, List.length_map, List.length_range, he.total]

theorem ascending (he : Enumerates n l bits h first len base) :
    l.members.Pairwise fun a b => ofBytes a < ofBytes b := by
  rw [MemberLoop.members, List.pairwise_map, he.total]
  refine List.Pairwise.imp_of_mem ?_ List.pairwise_lt_range
  intro i j hi hj hij
  rw [he.value i (List.mem_range.1 hi), he.value j (List.mem_range.1 hj)]
  exact Nat.add_lt_add_left hij _

theorem nodup_normal (he : Enumerates n l bits h first len base) :
    (l.members.map normal).Nodup := by
  rw [MemberLoop.members, List.map_map, he.total]
  refine List.Nodup.map_on ?_ List.nodup_range
  intro i hi j hj hij
  have hval : ofBytes (normal (l.member i)) = ofBytes (normal (l.member j)) := congrArg ofBytes hij
  rw [he.place i (List.mem_range.1 hi), he.place j (List.mem_range.1 hj)] at hval
  exact Nat.add_left_cancel hval

/-- The members of the network are the addresses of the iterations, each in one of its forms. -/
theorem contains_iff (he : Enumerates n l bits h first len base) (a : IP) :
    n.contains a = true ↔ ∃ b ∈ l.members, normal b = normal a := by
  rw [he.contains a]
  constructor
  · rintro ⟨hlen, hle, hlt⟩
    have hi : ofBytes (normal a) - base < 2 ^ h := by omega
    refine ⟨l.member (ofBytes (normal a) - base), ?_, ?_⟩
    · rw [MemberLoop.members, he.total]
      exact List.mem_map_of_mem (List.mem_range.2 hi)
    · refine ofBytes_inj ((he.family _ hi).trans hlen.symm) ?_
      rw [he.place _ hi, Nat.add_sub_cancel' hle]
  · rintro ⟨b, hb, hnormal⟩
    rw [MemberLoop.members, he.total] at hb
    obtain ⟨i, hi, rfl⟩ := List.mem_map.1 hb
    have hi := List.mem_range.1 hi
    rw [← hnormal, he.family i hi, he.place i hi]
    exact ⟨rfl, Nat.le_add_right _ _, Nat.add_lt_add_left hi _⟩

theorem length_of_mem (he : Enumerates n l bits h first len base) {b : IP} (hb : b ∈ l.members) :
    b.length = bits / 8 := by
  obtain ⟨i, _, rfl⟩ := List.mem_map.1 hb
  exact he.length i

end Enumerates

end Members

/-! ## The run -/

/-- So many iterations are done. -/
def Sent (l : MemberLoop) (k : Nat) (s : MemberRun) : Prop :=
  k ≤ l.total ∧ s.received = (List.range k).map l.member

/-- Where the goroutine is after the iterations that are done. -/
def Emitting (l : MemberLoop) (s : MemberRun) : Prop :=
  s.ctxDone = false ∧
    match s.pc with
    | .start => s.received = []
    | .polling left loop =>
      ∃ k, Sent l k s ∧ k + left = l.total ∧ loop = { l with addr := l.addr + UInt32.ofNat k }
    | .sending left loop result =>
      ∃ k, Sent l k s ∧ k + left + 1 = l.total ∧
        loop = { l with addr := l.addr + UInt32.ofNat k } ∧ result = l.member k
    | .closed => s.received = l.members
    | .panicked => False

/-- How many steps are left at most. -/
def MemberPC.rank (total : Nat) : MemberPC → Nat
  | .start => 2 * total + 2
  | .polling left _ => 2 * left + 1
  | .sending left _ _ => 2 * left + 2
  | .closed => 0
  | .panicked => 0

theorem addr_succ (a : UInt32) (k : Nat) :
    a + UInt32.ofNat k + 1 = a + UInt32.ofNat (k + 1) := by
  rw [UInt32.ofNat_add, UInt32.add_assoc]
  rfl

section Run

variable {n : IPNet} {l : MemberLoop} {s t : MemberRun} {a : MemberAction}

/-- What a step does in a run that is not cancelled. -/
theorem step_live (hl : memberLoop n = some l) (hi : Emitting l s) (hlive : live s a)
    (hst : (getMemberAddresses32 n).step s a = some t) :
    Emitting l t ∧ t.pc.rank l.total < s.pc.rank l.total := by
  obtain ⟨pc, ctxDone, received⟩ := s
  obtain ⟨rfl, hpc⟩ : ctxDone = false ∧ _ := hi
  simp only [getMemberAddresses32] at hst
  split at hst
  next =>
    rw [hl] at hst
    cases hst
    have hzero : l.addr + UInt32.ofNat 0 = l.addr := UInt32.add_zero _
    exact ⟨⟨rfl, 0, ⟨Nat.zero_le _, hpc⟩, Nat.zero_add _, by rw [hzero]⟩,
      by simp only [MemberPC.rank]; omega⟩
  next =>
    cases hst
    obtain ⟨k, ⟨hk, hrecv⟩, htotal, _⟩ := hpc
    obtain rfl : k = l.total := htotal
    exact ⟨⟨rfl, hrecv⟩, by simp only [MemberPC.rank]; omega⟩
  next left loop =>
    rw [if_neg Bool.false_ne_true] at hst
    cases hst
    obtain ⟨k, hsent, htotal, hloop⟩ := hpc
    refine ⟨⟨rfl, k, hsent, by omega, hloop, ?_⟩, by simp only [MemberPC.rank]; omega⟩
    rw [hloop]
    rfl
  next left loop result =>
    cases hst
    obtain ⟨k, ⟨hk, hrecv⟩, htotal, hloop, hresult⟩ := hpc
    refine ⟨⟨rfl, k + 1, ⟨by omega, ?_⟩, by omega, ?_⟩, by simp only [MemberPC.rank]; omega⟩
    · rw [List.range_succ, List.map_append, List.map_singleton, ← hresult]
      exact congrArg (· ++ [result]) hrecv
    · rw [hloop, addr_succ]
  next =>
    rw [if_neg Bool.false_ne_true] at hst
    cases hst
  next => exact absurd rfl hlive
  next => cases hst

theorem reachable_emitting (hl : memberLoop n = some l)
    (hr : (getMemberAddresses32 n).Reachable live s) : Emitting l s :=
  hr.invariant ⟨rfl, rfl⟩ fun _ _ _ hi hok hst => (step_live hl hi hok hst).1

/-- What was received is an initial part of the members, and all of them when the channel is
closed. -/
theorem received_of_emitting (hi : Emitting l s) :
    s.received <+: l.members ∧ (s.pc = .closed → s.received = l.members) := by
  have hsent : ∀ {k}, Sent l k s → s.received <+: l.members := by
    intro k ⟨hk, hrecv⟩
    have hrange : List.range k = (List.range l.total).take k := by
      rw [List.take_range, Nat.min_eq_left hk]
    rw [hrecv, hrange, List.map_take]
    exact List.take_prefix _ _
  obtain ⟨_, hpc⟩ := hi
  cases hcase : s.pc with
  | start =>
    rw [hcase] at hpc
    exact ⟨hpc ▸ List.nil_prefix, fun h => by cases h⟩
  | polling left loop =>
    rw [hcase] at hpc
    obtain ⟨k, hk, _⟩ := hpc
    exact ⟨hsent hk, fun h => by cases h⟩
  | sending left loop result =>
    rw [hcase] at hpc
    obtain ⟨k, hk, _⟩ := hpc
    exact ⟨hsent hk, fun h => by cases h⟩
  | closed =>
    rw [hcase] at hpc
    exact ⟨hpc ▸ List.prefix_refl _, fun _ => hpc⟩
  | panicked =>
    rw [hcase] at hpc
    exact hpc.elim

/-- A run that nobody cancels ends with the channel closed. -/
theorem settles_live (hl : memberLoop n = some l) :
    ((getMemberAddresses32 n).restrict live).Settles fun s => s.pc = .closed := by
  refine System.settles_of_rank (fun s => s.pc.rank l.total) (fun s a t hr hst => ?_)
    fun s hr hstuck => ?_
  · obtain ⟨hok, hst⟩ := System.restrict_eq_some hst
    exact (step_live hl (reachable_emitting hl hr.of_restrict) hok hst).2
  · have hi := reachable_emitting hl hr.of_restrict
    obtain ⟨pc, ctxDone, received⟩ := s
    obtain ⟨rfl, hpc⟩ : ctxDone = false ∧ _ := hi
    cases pc with
    | start =>
      have hnone := hstuck .setup
      simp only [System.restrict, getMemberAddresses32, hl] at hnone
      cases hnone
    | polling left loop =>
      have hnone := hstuck .poll
      cases left <;> cases hnone
    | sending left loop result => cases hstuck .send
    | closed => rfl
    | panicked => exact hpc.elim

end Run

/-- What the receiver of the channel gets when nobody cancels the context. -/
structure EmitsMembers (n : IPNet) (hostBits bytes : Nat) (addrs : List IP) : Prop where
  length : addrs.length = 2 ^ hostBits
  bytes : ∀ b ∈ addrs, b.length = bytes
  members : ∀ a, n.contains a = true ↔ ∃ b ∈ addrs, normal b = normal a
  nodup : (addrs.map normal).Nodup
  ascending : addrs.Pairwise fun a b => ofBytes a < ofBytes b
  received : ∀ s, (getMemberAddresses32 n).Reachable live s →
    s.received <+: addrs ∧ (s.pc = .closed → s.received = addrs)
  settles : ((getMemberAddresses32 n).restrict live).Settles fun s => s.pc = .closed

theorem Enumerates.emits {n : IPNet} {l : MemberLoop} {bits h first len base : Nat}
    (he : Enumerates n l bits h first len base) : EmitsMembers n h (bits / 8) l.members where
  length := he.length_members
  bytes _ hb := he.length_of_mem hb
  members := he.contains_iff
  nodup := he.nodup_normal
  ascending := he.ascending
  received _ hr := received_of_emitting (reachable_emitting he.loop hr)
  settles := settles_live he.loop

/-- With a live context the channel gives every member of a network with at most 32 host bits
once, in ascending order, and is then closed. -/
theorem getMemberAddresses32_emits (n : IPNet) (ones bits : Nat) (hn : n.Subnet ones bits)
    (hb : bits - ones ≤ 32) :
    ∃ addrs : List IP, EmitsMembers n (bits - ones) (bits / 8) addrs := by
  obtain ⟨l, first, len, base, he⟩ := exists_enumerates hn hb
  exact ⟨l.members, he.emits⟩

/-- The last network of IPv6 with 32 host bits. -/
theorem getMemberAddresses32_emits_last :
    ∃ addrs : List IP,
      EmitsMembers ⟨List.replicate 16 255, cidrMask 96 128⟩ 32 16 addrs :=
  getMemberAddresses32_emits ⟨List.replicate 16 255, cidrMask 96 128⟩ 96 128
    ⟨by decide, Or.inr rfl, by decide⟩ (by decide)

end CloudPing.Utils

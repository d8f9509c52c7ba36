import CloudPing.Inet.HostPort
import Mathlib.Data.List.TakeWhile

/-!
# The characters of addresses

The text of an address without a zone has hexadecimal digits, colons and dots only
(`chars_of_parseAddr`).  An address of the long form has two colons at least
(`two_le_colons`), so that it never splits into a host and a port (`splitHostPort_colons`).
-/

namespace Inet

/-! ## The last mark -/

theorem splitLast_eq_none {c : Char} {s : List Char} : splitLast c s = none ↔ c ∉ s := by
  induction s with
  | nil => simp [splitLast]
  | cons d ds ih =>
    rw [splitLast]
    cases hds : splitLast c ds with
    | none =>
      have hc := ih.1 hds
      by_cases hd : d = c
      · simp [hd]
      · simp [hd, hc, Ne.symm hd]
    | some p =>
      have hc : c ∈ ds := by
        by_contra hc
        rw [ih.2 hc] at hds
        cases hds
      simp [hc]

theorem splitLast_append {c : Char} {behind : List Char} (before : List Char) (h : c ∉ behind) :
    splitLast c (before ++ c :: behind) = some (before, behind) := by
  induction before with
  | nil => rw [List.nil_append, splitLast, splitLast_eq_none.2 h, if_pos rfl]
  | cons d before ih => rw [List.cons_append, splitLast, ih]

theorem splitLast_eq_some {c : Char} {s before behind : List Char}
    (h : splitLast c s = some (before, behind)) : s = before ++ c :: behind ∧ c ∉ behind := by
  induction s generalizing before with
  | nil => cases h
  | cons d ds ih =>
    rw [splitLast] at h
    cases hds : splitLast c ds with
    | none =>
      rw [hds] at h
      split_ifs at h with hd
      cases h
      exact ⟨by rw [hd, List.nil_append], splitLast_eq_none.1 hds⟩
    | some p =>
      rw [hds] at h
      cases h
      obtain ⟨heq, hc⟩ := ih hds
      exact ⟨by rw [List.cons_append, ← heq], hc⟩

/-! ## Which characters -/

/-- A character of the text of an address. -/
def IsAddrChar (c : Char) : Prop := isHex c = true ∨ c = ':' ∨ c = '.'

instance (c : Char) : Decidable (IsAddrChar c) := inferInstanceAs (Decidable (_ ∨ _))

theorem isHex_of_isDigit {c : Char} (h : c.isDigit = true) : isHex c = true := by
  rw [isHex, Wire.hexValue, if_pos h]
  rfl

theorem chars_of_parseIPv4Fields {s : List Char} {ip : List UInt8}
    (h : parseIPv4Fields s = some ip) : ∀ c ∈ s, IsAddrChar c := fun c hc =>
  (chars_of_ipv4Fields h c hc).imp isHex_of_isDigit Or.inr

theorem chars_of_colon {s : List Char} (h : ∀ c ∈ s, IsAddrChar c) :
    ∀ c ∈ ':' :: s, IsAddrChar c :=
  List.forall_mem_cons.2 ⟨Or.inr (Or.inl rfl), h⟩

theorem chars_of_parseGroups {n : Nat} {ip bytes : List UInt8} {ellipsis e : Option Nat}
    {s : List Char} (h : parseGroups n ip ellipsis s = some (bytes, e, [])) :
    ∀ c ∈ s, IsAddrChar c := by
  induction n generalizing ip ellipsis s with
  | zero =>
    cases h
    exact fun c hc => absurd hc List.not_mem_nil
  | succ n ih =>
    rw [parseGroups] at h
    split at h
    next => cases h
    next =>
      have hdigits : ∀ c ∈ s.takeWhile isHex, IsAddrChar c := fun c hc =>
        Or.inl (List.mem_takeWhile_imp hc)
      have hsplit : ∀ c ∈ s, c ∈ s.takeWhile isHex ∨ c ∈ s.dropWhile isHex := fun c hc =>
        List.mem_append.1 (List.takeWhile_append_dropWhile ▸ hc)
      have hrest : (∀ c ∈ s.dropWhile isHex, IsAddrChar c) → ∀ c ∈ s, IsAddrChar c :=
        fun hd c hc => (hsplit c hc).elim (hdigits c) (hd c)
      split at h
      next hd => exact hrest (by simp [hd])
      next => cases h
      next hd => exact hrest (by simp [hd, IsAddrChar])
      next s' _ hd =>
        split at h
        next => cases h
        next =>
          rw [hd] at hrest
          exact hrest (chars_of_colon (chars_of_colon (ih h)))
      next s' _ _ _ hd =>
        rw [hd] at hrest
        exact hrest (chars_of_colon (ih h))
      next =>
        split_ifs at h
        obtain ⟨fields, hf, _⟩ := Option.map_eq_some_iff.1 h
        exact chars_of_parseIPv4Fields hf
      next => cases h

theorem finish_eq_some {p : Option (List UInt8 × Option Nat × List Char)} {bytes : List UInt8}
    (h : parseIPv6Groups.finish p = some bytes) :
    ∃ ip e, p = some (ip, e, []) ∧ expand ip e = some bytes := by
  unfold parseIPv6Groups.finish at h
  split at h
  next ip e => exact ⟨ip, e, rfl, h⟩
  next => cases h

theorem chars_of_parseIPv6Groups {s : List Char} {bytes : List UInt8}
    (h : parseIPv6Groups s = some bytes) : ∀ c ∈ s, IsAddrChar c := by
  unfold parseIPv6Groups at h
  split at h
  next => simp [IsAddrChar]
  next s' _ =>
    obtain ⟨ip, e, hg, _⟩ := finish_eq_some h
    exact chars_of_colon (chars_of_colon (chars_of_parseGroups hg))
  next =>
    obtain ⟨ip, e, hg, _⟩ := finish_eq_some h
    exact chars_of_parseGroups hg

/-! ## How many colons -/

theorem colons_of_parseGroups {n : Nat} {ip bytes : List UInt8} {ellipsis e : Option Nat}
    {s rest : List Char} (h : parseGroups n ip ellipsis s = some (bytes, e, rest)) :
    (ellipsis.isSome = true → e.isSome = true) ∧
      (ellipsis = none → e.isSome = true → 2 ≤ s.count ':') ∧
      (e = none → bytes.length ≤ ip.length + 4 + 2 * s.count ':') := by
  induction n generalizing ip ellipsis s with
  | zero =>
    cases h
    exact ⟨id, fun hn hs => absurd hs (hn ▸ Bool.false_ne_true), fun _ => by omega⟩
  | succ n ih =>
    have hcount : s.count ':' = (s.takeWhile isHex).count ':' + (s.dropWhile isHex).count ':' := by
      rw [← List.count_append, List.takeWhile_append_dropWhile]
    rw [parseGroups] at h
    split at h
    next => cases h
    next =>
      split at h
      next =>
        cases h
        refine ⟨id, fun hn hs => absurd hs (hn ▸ Bool.false_ne_true), fun _ => ?_⟩
        rw [List.length_append, length_groupBytes]
        omega
      next => cases h
      next hd =>
        split at h
        next => cases h
        next hell =>
          cases h
          have htwo : [':', ':'].count ':' = 2 := by decide
          rw [hd, htwo] at hcount
          exact ⟨fun hs => absurd hs hell, fun _ _ => by omega, fun hn => by cases hn⟩
      next s' _ hd =>
        split at h
        next => cases h
        next hell =>
          obtain ⟨hsome, _, _⟩ := ih h
          have htwo : (':' :: ':' :: s').count ':' = s'.count ':' + 2 := by simp
          rw [hd, htwo] at hcount
          have he := hsome rfl
          exact ⟨fun _ => he, fun _ _ => by omega, fun hn => absurd he (hn ▸ Bool.false_ne_true)⟩
      next s' _ _ _ hd =>
        obtain ⟨hsome, htwo, hlen⟩ := ih h
        have hone : (':' :: s').count ':' = s'.count ':' + 1 := by simp
        rw [hd, hone] at hcount
        refine ⟨hsome, fun hn hs => ?_, fun hn => ?_⟩
        · have := htwo hn hs
          omega
        · have := hlen hn
          rw [List.length_append, length_groupBytes] at this
          omega
      next =>
        split_ifs at h
        obtain ⟨fields, hf, heq⟩ := Option.map_eq_some_iff.1 h
        cases heq
        refine ⟨id, fun hn hs => absurd hs (hn ▸ Bool.false_ne_true), fun _ => ?_⟩
        rw [List.length_append, length_of_parseIPv4Fields hf]
        omega
      next => cases h

theorem colons_of_parseIPv6Groups {s : List Char} {bytes : List UInt8}
    (h : parseIPv6Groups s = some bytes) : 2 ≤ s.count ':' := by
  unfold parseIPv6Groups at h
  split at h
  next => decide
  next s' _ => simp
  next =>
    obtain ⟨ip, e, hg, hexpand⟩ := finish_eq_some h
    obtain ⟨_, htwo, hlen⟩ := colons_of_parseGroups hg
    cases e with
    | some e => exact htwo rfl rfl
    | none =>
      have hip := hlen rfl
      simp only [expand] at hexpand
      split at hexpand
      next => cases hexpand
      next =>
        rw [List.length_nil] at hip
        omega

/-! ## Addresses and their texts -/

/-- An address is of one of three kinds: four numbers, groups, or groups with a zone. -/
theorem parseAddr_cases {s : List Char} {a : Addr} (h : parseAddr s = some a) :
    (∃ ip hl, a = .v4 ip hl ∧ parseIPv4Fields s = some ip) ∨
      (∃ ip hl, a = .v6 ip [] hl ∧ parseIPv6Groups s = some ip) ∨
        ∃ text zone ip hl, zone ≠ [] ∧ s = text ++ '%' :: zone ∧ a = .v6 ip zone hl ∧
          parseIPv6Groups text = some ip := by
  have hzone : ∀ {text zone : List Char}, parseIPv6Zone text zone = some a →
      ∃ ip hl, a = .v6 ip zone hl ∧ parseIPv6Groups text = some ip := by
    intro text zone hz
    rw [parseIPv6Zone] at hz
    split at hz
    next ip hip =>
      cases hz
      exact ⟨ip, _, rfl, hip⟩
    next => cases hz
  rw [parseAddr] at h
  split at h
  next =>
    rw [parseIPv4] at h
    split at h
    next ip hip =>
      cases h
      exact Or.inl ⟨ip, _, rfl, hip⟩
    next => cases h
  next =>
    rw [parseIPv6] at h
    split at h
    next =>
      obtain ⟨ip, hl, ha, hip⟩ := hzone h
      exact Or.inr (Or.inl ⟨ip, hl, ha, hip⟩)
    next => cases h
    next c zone hne hd =>
      obtain ⟨ip, hl, ha, hip⟩ := hzone h
      have hc : c = '%' := by
        have hnil : s.dropWhile (· ≠ '%') ≠ [] := by
          rw [hd]
          exact List.cons_ne_nil _ _
        have hhead : (s.dropWhile (· ≠ '%')).head hnil = c := by simp only [hd, List.head_cons]
        have hnot := List.head_dropWhile_not (· ≠ '%') hnil
        rw [hhead] at hnot
        exact of_not_not (of_decide_eq_false hnot)
      refine Or.inr (Or.inr ⟨_, zone, ip, hl, hne, ?_, ha, hip⟩)
      have hsplit := List.takeWhile_append_dropWhile (p := (· ≠ '%')) (l := s)
      rw [hd, hc] at hsplit
      exact hsplit.symm
  next => cases h

theorem chars_of_parseAddr {s : List Char} {a : Addr} (h : parseAddr s = some a)
    (hz : a.zone = []) : ∀ c ∈ s, IsAddrChar c := by
  rcases parseAddr_cases h with ⟨ip, _, _, hip⟩ | ⟨ip, _, _, hip⟩ | ⟨_, zone, _, _, hne, _, rfl, _⟩
  · exact chars_of_parseIPv4Fields hip
  · exact chars_of_parseIPv6Groups hip
  · exact absurd hz hne

theorem colon_not_mem_of_v4 {s : List Char} {ip : List UInt8} (h : parseIPv4Fields s = some ip) :
    ':' ∉ s := by
  intro hc
  rcases chars_of_ipv4Fields h ':' hc with hd | hd
  · exact absurd hd (by decide)
  · exact absurd hd (by decide)

/-! ## No port -/

/-- A text with two colons that does not begin with a bracket does not split. -/
theorem splitHostPort_colons {s : List Char} (hc : 2 ≤ s.count ':') (hb : s.head? ≠ some '[') :
    splitHostPort s = .error "too many colons in address" := by
  rw [splitHostPort]
  cases hs : splitLast ':' s with
  | none =>
    have := List.count_eq_zero.2 (splitLast_eq_none.1 hs)
    omega
  | some p =>
    obtain ⟨before, port⟩ := p
    obtain ⟨heq, hport⟩ := splitLast_eq_some hs
    have hbefore : ':' ∈ before := by
      refine List.count_pos_iff.1 ?_
      rw [heq, List.count_append, List.count_cons_self, List.count_eq_zero.2 hport] at hc
      omega
    simp only
    split
    next => exact absurd rfl hb
    next => rw [if_pos hbefore]

/-- Without a colon there is no port. -/
theorem splitHostPort_no_colon {s : List Char} (h : ':' ∉ s) :
    splitHostPort s = .error "missing port in address" := by
  rw [splitHostPort, splitLast_eq_none.2 h]

end Inet

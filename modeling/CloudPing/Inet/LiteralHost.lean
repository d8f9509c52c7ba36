import CloudPing.Inet.AddrPort
import CloudPing.Inet.URL

/-!
# Addresses as hosts of URLs

The host of a URL may be the text of an address.  In brackets it is read as it is
(`parseHost_bracket`).  Without brackets, what stands behind the last colon must do for a port
(`parseHost_addr`).  A zone leaves a character in the host that no address has
(`parseHost_zone`, `parseHost_bracket_zone`).
-/

namespace Inet

namespace URL

/-- Behind the last colon there are digits only. -/
def endsInDigits (s : List Char) : Bool :=
  (((splitLast ':' s).map Prod.snd).getD []).all Char.isDigit

section Literals

variable {text port z host : List Char}

theorem head?_ne_bracket (h : ∀ c ∈ text, IsAddrChar c) : text.head? ≠ some '[' := fun hh =>
  absurd (h '[' (List.mem_of_mem_head? hh)) (by decide)

theorem parseHost_addr (h : ∀ c ∈ text, IsAddrChar c) :
    parseHost text = if endsInDigits text = true then some text else none := by
  have hplain := unescape_host_plain fun c hc => plain_of_addrChar (h c hc)
  rw [parseHost, if_neg (head?_ne_bracket h), endsInDigits]
  cases hs : splitLast ':' text with
  | none => exact hplain
  | some p =>
    simp only [validOptionalPort, beq_self_eq_true, Bool.true_and, Option.map_some,
      Option.getD_some, hplain]

/-- An address without colons is a host, with a port or without. -/
theorem parseHost_port (h : ∀ c ∈ text, IsAddrChar c) (hport : ∀ c ∈ port, c.isDigit = true) :
    parseHost (text ++ ':' :: port) = some (text ++ ':' :: port) := by
  have hchars : ∀ c ∈ text ++ ':' :: port, IsAddrChar c := by
    intro c hc
    rcases List.mem_append.1 hc with hc | hc
    · exact h c hc
    · rcases List.mem_cons.1 hc with rfl | hc
      · exact Or.inr (Or.inl rfl)
      · exact Or.inl (isHex_of_isDigit (hport c hc))
  have hlast : endsInDigits (text ++ ':' :: port) = true := by
    rw [endsInDigits, splitLast_append text (mark_not_mem_port hport (by decide))]
    exact List.all_eq_true.2 hport
  rw [parseHost_addr hchars, if_pos hlast]

theorem cutZone_eq_some {s before behind : List Char} (h : cutZone s = some (before, behind)) :
    s = before ++ behind ∧ ∃ rest, behind = '%' :: '2' :: '5' :: rest := by
  induction s generalizing before with
  | nil => cases h
  | cons c s ih =>
    rw [cutZone] at h
    split_ifs at h with htake
    · cases h
      refine ⟨rfl, ?_⟩
      match s, htake with
      | d :: e :: s, htake =>
        cases htake
        exact ⟨s, rfl⟩
    · obtain ⟨p, hp, heq⟩ := Option.map_eq_some_iff.1 h
      cases heq
      obtain ⟨hs, hrest⟩ := ih hp
      exact ⟨by rw [hs]; rfl, hrest⟩

theorem cutZone_eq_none {s : List Char} (h : '%' ∉ s) : cutZone s = none := by
  cases hs : cutZone s with
  | none => rfl
  | some p =>
    obtain ⟨rfl, rest, hrest⟩ := cutZone_eq_some hs
    rw [hrest] at h
    exact absurd (List.mem_append_right _ List.mem_cons_self) h

/-- In brackets, with a port or without. -/
theorem parseHost_bracket (h : ∀ c ∈ text, IsAddrChar c) {colonPort : List Char}
    (hport : colonPort = [] ∨ ∃ port, colonPort = ':' :: port ∧ ∀ c ∈ port, c.isDigit = true) :
    parseHost ('[' :: text ++ ']' :: colonPort) = some ('[' :: text ++ ']' :: colonPort) := by
  have hvalid : validOptionalPort colonPort = true ∧ ∀ c ∈ colonPort, IsAddrChar c := by
    rcases hport with rfl | ⟨port, rfl, hdigits⟩
    · exact ⟨rfl, fun c hc => absurd hc List.not_mem_nil⟩
    · refine ⟨by rw [validOptionalPort]; simpa using hdigits, fun c hc => ?_⟩
      rcases List.mem_cons.1 hc with rfl | hc
      · exact Or.inr (Or.inl rfl)
      · exact Or.inl (isHex_of_isDigit (hdigits c hc))
  have hplain : ∀ c ∈ '[' :: text ++ ']' :: colonPort, Plain c := by
    intro c hc
    simp only [List.cons_append, List.mem_cons, List.mem_append] at hc
    rcases hc with rfl | hc | rfl | hc
    · exact ⟨by decide, by decide⟩
    · exact plain_of_addrChar (h c hc)
    · exact ⟨by decide, by decide⟩
    · exact plain_of_addrChar (hvalid.2 c hc)
  have hzone : '%' ∉ '[' :: text := by
    simp only [List.mem_cons, not_or]
    exact ⟨by decide, mark_not_mem_host h (by decide)⟩
  rw [parseHost, if_pos (by simp), splitLast_append _ (mark_not_mem_host hvalid.2 (by decide))]
  simp only [hvalid.1, if_true, cutZone_eq_none hzone, unescape_host_plain hplain]

/-! ## Zones -/

/-- A character that no address without a zone has. -/
def Foreign (c : Char) : Prop := c = '%' ∨ 0x80 ≤ c.toNat

theorem toNat_lt_of_addrChar {c : Char} (h : IsAddrChar c) : c.toNat < 0x80 := by
  rcases h with h | rfl | rfl
  · have halnum := isAlphanum_of_isHex h
    rw [isAlphanum_iff, isAlpha_iff, isDigit_iff] at halnum
    omega
  · decide
  · decide

theorem not_addrChar_of_foreign {c : Char} (h : Foreign c) : ¬IsAddrChar c := by
  rcases h with rfl | h
  · decide
  · exact fun hc => Nat.not_le_of_lt (toNat_lt_of_addrChar hc) h

theorem ne_bracket_of_foreign {c : Char} (h : Foreign c) : c ≠ ']' := by
  rintro rfl
  exact absurd h (by unfold Foreign; decide)

theorem hexValue_lt {c : Char} (h : isHex c = true) :
    ∃ v < 16, Wire.hexValue c = some v := by
  rw [isHex, Wire.hexValue] at h
  rw [Wire.hexValue]
  have hval : c.toNat = c.val.toNat := rfl
  split_ifs at h ⊢ with hd hl hu
  · simp only [Char.isDigit, Bool.and_eq_true, decide_eq_true_eq, UInt32.le_iff_toNat_le] at hd
    have : '9'.val.toNat = 57 := rfl
    have : '0'.toNat = 48 := rfl
    exact ⟨_, by omega, rfl⟩
  · have hle : c.toNat ≤ 102 := hl.2
    have : 'a'.toNat = 97 := rfl
    exact ⟨_, by omega, rfl⟩
  · have hle : c.toNat ≤ 70 := hu.2
    have : 'A'.toNat = 65 := rfl
    exact ⟨_, by omega, rfl⟩
  · cases h

/-- An escape in a host is a percent sign or stands for what is not ASCII. -/
theorem foreign_of_escapable {hi lo : Char} (hhi : isHex hi = true) (hlo : isHex lo = true)
    (h : escapable .host hi lo = true) : Foreign (escapedByte hi lo) := by
  obtain ⟨v, hv, hveq⟩ := hexValue_lt hhi
  obtain ⟨w, hw, hweq⟩ := hexValue_lt hlo
  simp only [escapable, Bool.or_eq_true, Bool.and_eq_true, decide_eq_true_eq, beq_iff_eq, hveq,
    Option.getD_some] at h
  rcases h with h | ⟨rfl, rfl⟩
  · have hall : ∀ v w : Fin 16, 8 ≤ v.val → 0x80 ≤ (Char.ofNat (v.val * 16 + w.val)).toNat := by
      decide +kernel
    refine Or.inr ?_
    rw [escapedByte, hveq, hweq]
    exact hall ⟨v, hv⟩ ⟨w, hw⟩ h
  · exact Or.inl (by decide)

theorem unescape_host_foreign (h : ∀ c ∈ text, Plain c)
    (hu : unescape .host (text ++ '%' :: z) = some host) :
    ∃ c rest, host = text ++ c :: rest ∧ Foreign c := by
  induction text generalizing host with
  | nil =>
    rw [List.nil_append, unescape.eq_def] at hu
    simp only [if_true] at hu
    split at hu
    next hi lo cs =>
      split_ifs at hu with hok
      simp only [Bool.and_eq_true] at hok
      obtain ⟨rest, _, rfl⟩ := Option.map_eq_some_iff.1 hu
      exact ⟨_, rest, rfl, foreign_of_escapable hok.1.1 hok.1.2 hok.2⟩
    next => cases hu
  | cons c text ih =>
    obtain ⟨hpercent, hkept⟩ := h c List.mem_cons_self
    rw [List.cons_append, unescape_cons hpercent, hkept, if_neg (by simp)] at hu
    obtain ⟨host', hu', rfl⟩ := Option.map_eq_some_iff.1 hu
    obtain ⟨d, rest, rfl, hd⟩ := ih (fun e he => h e (List.mem_cons_of_mem c he)) hu'
    exact ⟨d, rest, rfl, hd⟩

/-- Behind an address without brackets a zone leaves a foreign character. -/
theorem parseHost_zone (h : ∀ c ∈ text, IsAddrChar c) (hne : text ≠ [])
    (hp : parseHost (text ++ '%' :: z) = some host) :
    ∃ c rest, host = text ++ c :: rest ∧ Foreign c := by
  have hplain : ∀ c ∈ text, Plain c := fun c hc => plain_of_addrChar (h c hc)
  have hhead : (text ++ '%' :: z).head? ≠ some '[' := by
    rw [List.head?_append_of_ne_nil _ hne]
    exact head?_ne_bracket h
  rw [parseHost, if_neg hhead] at hp
  split at hp
  next => exact unescape_host_foreign hplain hp
  next =>
    split_ifs at hp
    exact unescape_host_foreign hplain hp

/-- And so it does in brackets. -/
theorem parseHost_bracket_zone (h : ∀ c ∈ text, IsAddrChar c)
    (hp : parseHost ('[' :: text ++ '%' :: z) = some host) :
    ∃ c rest, host = '[' :: text ++ c :: rest ∧ Foreign c := by
  have hplain : ∀ c ∈ '[' :: text, Plain c := by
    intro c hc
    rcases List.mem_cons.1 hc with rfl | hc
    · exact ⟨by decide, by decide⟩
    · exact plain_of_addrChar (h c hc)
  rw [parseHost, if_pos (by simp)] at hp
  cases hs : splitLast ']' ('[' :: text ++ '%' :: z) with
  | none =>
    rw [hs] at hp
    cases hp
  | some p =>
    obtain ⟨inner, colonPort⟩ := p
    obtain ⟨heq, _⟩ := splitLast_eq_some hs
    simp only [hs] at hp
    split_ifs at hp
    split at hp
    next before zone hcut =>
      obtain ⟨rfl, rest, rfl⟩ := cutZone_eq_some hcut
      obtain ⟨host₁, h₁, hp⟩ := Option.bind_eq_some_iff.1 hp
      obtain ⟨host₂, h₂, hp⟩ := Option.bind_eq_some_iff.1 hp
      obtain ⟨host₃, h₃, hp⟩ := Option.bind_eq_some_iff.1 hp
      cases hp
      have hbefore : before = '[' :: text ∨ ∃ z', before = '[' :: text ++ '%' :: z' := by
        rw [List.append_assoc] at heq
        rcases List.append_eq_append_iff.1 heq with ⟨a, hbefore, ha⟩ | ⟨a, htext, ha⟩
        · cases a with
          | nil => exact Or.inl (by rw [hbefore, List.append_nil])
          | cons c a =>
            cases (List.cons.inj ha).1
            exact Or.inr ⟨a, hbefore⟩
        · cases a with
          | nil => exact Or.inl (by rw [htext, List.append_nil])
          | cons c a =>
            cases (List.cons.inj ha).1
            have hmem : '%' ∈ '[' :: text := by
              rw [htext]
              exact List.mem_append_right _ List.mem_cons_self
            exact absurd rfl (hplain '%' hmem).1
      rcases hbefore with rfl | ⟨z', rfl⟩
      · rw [unescape_host_plain hplain] at h₁
        cases h₁
        rw [unescape, if_pos rfl, if_pos (by decide)] at h₂
        obtain ⟨rest', _, rfl⟩ := Option.map_eq_some_iff.1 h₂
        exact ⟨escapedByte '2' '5', rest' ++ host₃, by simp, Or.inl (by decide)⟩
      · obtain ⟨c, rest', rfl, hc⟩ := unescape_host_foreign hplain h₁
        exact ⟨c, rest' ++ (host₂ ++ host₃), by simp, hc⟩
    next => exact unescape_host_foreign hplain hp

end Literals

end URL

end Inet

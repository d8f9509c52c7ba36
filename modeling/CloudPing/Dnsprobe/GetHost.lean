import CloudPing.Dnsprobe.ServerAddr

/-!
# What `GetHost` reads

What `GetHost` splits into host and port is the host of the URL, if the text is one, and else
the text itself (`gateHost`).  For each documented form this is settled here: a form is found
(`getHost_ipPort`, `getHost_ipv6Port`, `getHost_https`), or it is found exactly under a
condition on its characters (`getHost_ipv6`, `getHost_tls_ipv6`), or it is lost (`gateHost_v4`).
-/

namespace CloudPing.Utils

open Inet

/-! ## What `GetHost` reads -/

theorem parseIP_ofList (s : List Char) : parseIP (String.ofList s) =
    (parseAddr s).bind fun a => if a.zone = [] then some a.as16 else none := by
  rw [parseIP, String.toList_ofList]
  cases parseAddr s with
  | none => rfl
  | some a => rfl

theorem parseIP_eq_some {s : List Char} {ip : IP} :
    parseIP (String.ofList s) = some ip ↔
      ∃ a, parseAddr s = some a ∧ a.zone = [] ∧ a.as16 = ip := by
  rw [parseIP_ofList, Option.bind_eq_some_iff]
  refine exists_congr fun a => and_congr_right fun _ => ?_
  rw [Option.ite_none_right_eq_some, Option.some_inj]

/-- A text with a character that no address has. -/
theorem parseIP_of_mem {s : List Char} {c : Char} (hc : c ∈ s) (h : ¬IsAddrChar c) :
    parseIP (String.ofList s) = none := by
  cases hp : parseIP (String.ofList s) with
  | none => rfl
  | some ip =>
    obtain ⟨a, ha, hz, _⟩ := parseIP_eq_some.1 hp
    exact absurd (chars_of_parseAddr ha hz c hc) h

/-- The text that is split into host and port. -/
def gateHost (addrport : List Char) : List Char :=
  match URL.parse addrport with
  | some urlObj => URL.stripBrackets urlObj.host
  | none => addrport

theorem getHost_eq_ok {addrport : List Char} {ip : IP} :
    getHost addrport = .ok ip ↔
      parseIP (String.ofList (hostOf (gateHost addrport))) = some ip := by
  have hfrom : ∀ s : List Char, getHostFromIP s = .ok ip ↔ parseIP (String.ofList s) = some ip := by
    intro s
    rw [getHostFromIP]
    cases parseIP (String.ofList s) with
    | none => exact iff_of_false (by rintro ⟨⟩) (by rintro ⟨⟩)
    | some ip' => simp
  have hget : getHost addrport = getHostFromIP (hostOf (gateHost addrport)) := by
    rw [getHost, gateHost, hostOf]
    cases URL.parse addrport with
    | none =>
      dsimp only
      cases splitHostPort addrport <;> rfl
    | some u =>
      dsimp only
      cases splitHostPort (URL.stripBrackets u.host) <;> rfl
  rw [hget, hfrom]

theorem gateHost_of_parse {s : List Char} {u : URL} (h : URL.parse s = some u) :
    gateHost s = URL.stripBrackets u.host := by
  rw [gateHost, h]

theorem gateHost_of_none {s : List Char} (h : URL.parse s = none) : gateHost s = s := by
  rw [gateHost, h]

theorem hostOf_of_ok {s host port : List Char} (h : splitHostPort s = .ok (host, port)) :
    hostOf s = host := by
  rw [hostOf, h]

theorem hostOf_of_error {s : List Char} {err : String} (h : splitHostPort s = .error err) :
    hostOf s = s := by
  rw [hostOf, h]

end CloudPing.Utils

namespace CloudPing.Dnsprobe

open Inet Utils

section Texts

variable {s text port z : List Char} {a : Addr}

theorem IsV4.fields (h : IsV4 s a) : ∃ ip, parseIPv4Fields s = some ip := by
  obtain ⟨ha, ip, hl, rfl⟩ := h
  rcases parseAddr_cases ha with ⟨ip', _, _, hip⟩ | ⟨_, _, heq, _⟩ | ⟨_, _, _, _, _, _, heq, _⟩
  · exact ⟨ip', hip⟩
  · cases heq
  · cases heq

theorem IsV4.zone (h : IsV4 s a) : a.zone = [] := by
  obtain ⟨_, ip, hl, rfl⟩ := h
  rfl

theorem IsV6.zone (h : IsV6 s a) : a.zone = [] := by
  obtain ⟨_, ip, hl, rfl⟩ := h
  rfl

theorem IsV4.chars (h : IsV4 s a) : ∀ c ∈ s, IsAddrChar c := chars_of_parseAddr h.1 h.zone

theorem IsV6.chars (h : IsV6 s a) : ∀ c ∈ s, IsAddrChar c := chars_of_parseAddr h.1 h.zone

theorem IsV4.no_colon (h : IsV4 s a) : ':' ∉ s := by
  obtain ⟨ip, hip⟩ := h.fields
  exact colon_not_mem_of_v4 hip

theorem IsV6.colons (h : IsV6 s a) : 2 ≤ s.count ':' := by
  obtain ⟨ha, ip, hl, rfl⟩ := h
  rcases parseAddr_cases ha with ⟨_, _, heq, _⟩ | ⟨_, _, _, hip⟩ | ⟨_, _, _, _, hne, _, heq, _⟩
  · cases heq
  · exact colons_of_parseIPv6Groups hip
  · cases heq
    exact absurd rfl hne

theorem IsV4.ne_nil (h : IsV4 s a) : s ≠ [] := by
  rintro rfl
  obtain ⟨ip, hip⟩ := h.fields
  cases hip

/-- An address with a zone: the text of the address, and a percent sign behind it. -/
theorem zone_cases (ha : parseAddr s = some a) (hz : a.zone ≠ []) :
    ∃ text z, s = text ++ '%' :: z ∧ (∀ c ∈ text, IsAddrChar c) ∧ 2 ≤ text.count ':' ∧
      ∃ ip hl, a = .v6 ip z hl := by
  rcases parseAddr_cases ha with
    ⟨_, _, rfl, _⟩ | ⟨_, _, rfl, _⟩ | ⟨text, z, ip, hl, _, rfl, rfl, hip⟩
  · exact absurd rfl hz
  · exact absurd rfl hz
  · exact ⟨text, z, rfl, chars_of_parseIPv6Groups hip, colons_of_parseIPv6Groups hip, ip, hl, rfl⟩

theorem isV4_or_isV6 (ha : parseAddr s = some a) (hz : a.zone = []) : IsV4 s a ∨ IsV6 s a := by
  cases a with
  | v4 ip hl => exact Or.inl ⟨ha, ip, hl, rfl⟩
  | v6 ip zone hl =>
    cases hz
    exact Or.inr ⟨ha, ip, hl, rfl⟩

theorem IsPort.digits (h : IsPort port) : port ≠ [] ∧ ∀ c ∈ port, c.isDigit = true :=
  h.elim fun _ hp => isDigit_of_parsePort hp

theorem hostOf_v4 (h : IsV4 s a) : hostOf s = s :=
  hostOf_of_error (splitHostPort_no_colon h.no_colon)

theorem hostOf_colons (hc : 2 ≤ s.count ':') (hb : s.head? ≠ some '[') : hostOf s = s :=
  hostOf_of_error (splitHostPort_colons hc hb)

/-- A text that begins with an address of the long form does not begin with a bracket. -/
theorem head?_of_colons (hchars : ∀ c ∈ text, IsAddrChar c) (hc : 2 ≤ text.count ':')
    (z : List Char) : (text ++ z).head? ≠ some '[' := by
  have hne : text ≠ [] := by
    rintro rfl
    exact absurd hc (by decide)
  rw [List.head?_append_of_ne_nil _ hne]
  exact URL.head?_ne_bracket hchars

theorem hostOf_v6 (h : IsV6 s a) : hostOf s = s :=
  hostOf_colons h.colons (URL.head?_ne_bracket h.chars)

theorem parseIP_v4 (h : IsV4 s a) : parseIP (String.ofList s) = some a.as16 :=
  parseIP_eq_some.2 ⟨a, h.1, h.zone, rfl⟩

theorem parseIP_v6 (h : IsV6 s a) : parseIP (String.ofList s) = some a.as16 :=
  parseIP_eq_some.2 ⟨a, h.1, h.zone, rfl⟩

end Texts

/-! ## Texts that are no URL with a host -/

section Bare

variable {s port : List Char} {a : Addr}

theorem authorityChar_of_addrChar {c : Char} (h : IsAddrChar c) : URL.IsAuthorityChar c := by
  constructor
  · rcases h with h | rfl | rfl
    · exact URL.isCTL_of_schemeChar (Or.inl (URL.isAlphanum_of_isHex h))
    · decide
    · decide
  · have hne : ∀ d : Char, ¬IsAddrChar d → c ≠ d := fun d hd heq => hd (heq ▸ h)
    simp [URL.endsAuthority, hne '/' (by decide), hne '?' (by decide), hne '#' (by decide)]

theorem authorityChars (h : ∀ c ∈ s, IsAddrChar c) : ∀ c ∈ s, URL.IsAuthorityChar c :=
  fun c hc => authorityChar_of_addrChar (h c hc)

theorem isAlpha_of_isDigit {c : Char} (h : c.isDigit = true) : c.isAlpha = false := by
  by_contra halpha
  rw [Bool.not_eq_false, URL.isAlpha_iff] at halpha
  rw [URL.isDigit_iff] at h
  omega

/-- The first character of an address with dots is no letter. -/
theorem IsV4.cons (h : IsV4 s a) : ∃ c cs, s = c :: cs ∧ c.isAlpha = false := by
  obtain ⟨ip, hip⟩ := h.fields
  cases s with
  | nil => cases hip
  | cons c cs =>
    refine ⟨c, cs, rfl, ?_⟩
    rcases chars_of_ipv4Fields hip c List.mem_cons_self with hd | rfl
    · exact isAlpha_of_isDigit hd
    · decide

/-- An address with dots is a path. -/
theorem gateHost_v4 (h : IsV4 s a) : gateHost s = [] := by
  obtain ⟨c, cs, rfl, hc⟩ := h.cons
  obtain ⟨u, hu, hhost⟩ := URL.parse_path hc (authorityChars h.chars)
    h.no_colon (mark_not_mem_host h.chars (by decide)) (by
      rintro rfl
      exact absurd (h.chars '*' List.mem_cons_self) (by decide))
  rw [gateHost_of_parse hu, hhost]
  rfl

/-- A text with a colon that begins with no letter is no URL. -/
theorem gateHost_colon {c : Char} {cs : List Char} (hc : c.isAlpha = false)
    (hchars : ∀ d ∈ c :: cs, URL.IsAuthorityChar d) (hcolon : ':' ∈ c :: cs) :
    gateHost (c :: cs) = c :: cs :=
  gateHost_of_none (URL.parse_eq_none hc hchars hcolon)

theorem IsV6.colon_mem (h : IsV6 s a) : ':' ∈ s :=
  List.count_pos_iff.1 (Nat.lt_of_lt_of_le Nat.zero_lt_two h.colons)

theorem gateHost_v6 (h : IsV6 s a) :
    gateHost s = if (s.head?.any Char.isAlpha) = true then [] else s := by
  have hchars := authorityChars h.chars
  cases s with
  | nil => cases h.colon_mem
  | cons c cs =>
    rw [List.head?_cons, Option.any_some]
    split_ifs with hc
    · have hcolon : ':' ∈ cs := by
        rcases List.mem_cons.1 h.colon_mem with rfl | hmem
        · exact absurd hc (by decide)
        · exact hmem
      obtain ⟨scheme, rest, rfl, hscheme⟩ := List.eq_append_cons_of_mem hcolon
      have hscheme : ∀ d ∈ scheme, URL.SchemeChar d := by
        intro d hd
        rcases h.chars d (List.mem_cons_of_mem _ (List.mem_append_left _ hd)) with hhex | rfl | rfl
        · exact Or.inl (URL.isAlphanum_of_isHex hhex)
        · exact absurd hd hscheme
        · exact Or.inr (Or.inr (Or.inr rfl))
      obtain ⟨u, hu, hhost⟩ := URL.parse_opaque hc hscheme hchars
      rw [← List.cons_append, gateHost_of_parse hu, hhost]
      rfl
    · exact gateHost_colon (Bool.not_eq_true _ ▸ hc) hchars h.colon_mem

theorem gateHost_v4_port (h : IsV4 s a) (hp : IsPort port) :
    gateHost (s ++ ':' :: port) = s ++ ':' :: port := by
  have hchars : ∀ d ∈ s ++ ':' :: port, URL.IsAuthorityChar d := by
    intro d hd
    rcases List.mem_append.1 hd with hd | hd
    · exact authorityChar_of_addrChar (h.chars d hd)
    · rcases List.mem_cons.1 hd with rfl | hd
      · exact ⟨by decide, by decide⟩
      · exact authorityChar_of_addrChar (Or.inl (isHex_of_isDigit (hp.digits.2 d hd)))
  obtain ⟨c, cs, rfl, hc⟩ := h.cons
  exact gateHost_colon hc hchars (by simp)

theorem gateHost_v6_port (h : IsV6 s a) (hp : IsPort port) :
    gateHost ('[' :: s ++ ']' :: ':' :: port) = '[' :: s ++ ']' :: ':' :: port := by
  have hmem : ∀ d, d ∈ '[' :: s ++ ']' :: ':' :: port →
      d = '[' ∨ d ∈ s ∨ d = ']' ∨ d = ':' ∨ d ∈ port := fun d hd => by simpa using hd
  refine gateHost_colon (by decide) (fun d hd => ?_) (by simp)
  replace hd := hmem d hd
  rcases hd with rfl | hd | rfl | rfl | hd
  · exact ⟨by decide, by decide⟩
  · exact authorityChar_of_addrChar (h.chars d hd)
  · exact ⟨by decide, by decide⟩
  · exact ⟨by decide, by decide⟩
  · exact authorityChar_of_addrChar (Or.inl (isHex_of_isDigit (hp.digits.2 d hd)))

end Bare

/-! ## URLs whose host is an address -/

section URLs

variable {s host port : List Char} {a : Addr}

theorem parseAuthority_plain (h : '@' ∉ s) :
    URL.parseAuthority s = (URL.parseHost s).map fun host => (none, host) := by
  rw [URL.parseAuthority, splitLast_eq_none.2 h]

/-- Behind `tls://`, a host that is read as it is. -/
theorem gateHost_tls (hchars : ∀ d ∈ s, URL.IsAuthorityChar d) (hat : '@' ∉ s)
    (hhost : URL.parseHost s = some s) : gateHost (tlsURLPrefix ++ s) = URL.stripBrackets s := by
  obtain ⟨u, hu, huhost, _⟩ := URL.parse_text 't' ['l', 's'] (by decide)
    (URL.schemeChars_of_all (by decide)) hchars .none
    ((parseAuthority_plain hat).trans (by rw [hhost]; rfl))
  have htext : tlsURLPrefix ++ s =
      't' :: ['l', 's'] ++ ':' :: '/' :: '/' :: (s ++ URL.Tail.none.text) := by
    rw [URL.Tail.text_none, List.append_nil]
    rfl
  rw [htext, gateHost_of_parse hu, huhost]

theorem parseAuthority_tls {u : URL} (h : URL.parse (tlsURLPrefix ++ s) = some u) :
    URL.parseAuthority (s.takeWhile fun c => !URL.endsAuthority c) = some (u.user, u.host) :=
  (URL.parse_authority 't' ['l', 's'] (by decide) (URL.schemeChars_of_all (by decide)) h).1

/-- The whole text behind `tls://` is no address. -/
theorem parseIP_tls (s : List Char) :
    parseIP (String.ofList (hostOf (tlsURLPrefix ++ s))) = none := by
  have ht : ¬IsAddrChar 't' := by decide
  cases hs : splitHostPort (tlsURLPrefix ++ s) with
  | error e =>
    rw [hostOf_of_error hs]
    exact parseIP_of_mem List.mem_cons_self ht
  | ok p =>
    obtain ⟨host, port⟩ := p
    rw [hostOf_of_ok hs]
    obtain ⟨_, _, ⟨heq, _⟩ | ⟨heq, _⟩⟩ := splitHostPort_eq_ok hs
    · cases host with
      | nil => cases heq
      | cons c host =>
        cases (List.cons.inj heq).1
        exact parseIP_of_mem List.mem_cons_self ht
    · cases heq

theorem stripBrackets_of_head (h : s.head? ≠ some '[') : URL.stripBrackets s = s := by
  rw [URL.stripBrackets.eq_def]
  split
  next => exact absurd rfl h
  next => rfl

theorem stripBrackets_bracket (s : List Char) : URL.stripBrackets ('[' :: s ++ [']']) = s := by
  rw [List.cons_append, URL.stripBrackets, List.getLast?_concat, if_pos rfl, List.dropLast_concat]

theorem getLast?_port (hp : IsPort port) (s : List Char) :
    ∃ d, (s ++ port).getLast? = some d ∧ d.isDigit = true := by
  obtain ⟨hne, hdigits⟩ := hp.digits
  obtain ⟨d, hd⟩ := Option.isSome_iff_exists.1 (List.getLast?_isSome.2 hne)
  refine ⟨d, ?_, hdigits d (List.mem_of_getLast? hd)⟩
  rw [List.getLast?_append_of_ne_nil _ hne, hd]

/-- With a port behind them brackets are kept. -/
theorem stripBrackets_port (hp : IsPort port) :
    URL.stripBrackets ('[' :: s ++ ']' :: ':' :: port) = '[' :: s ++ ']' :: ':' :: port := by
  obtain ⟨d, hlast, hd⟩ := getLast?_port hp (s ++ [']', ':'])
  rw [List.append_assoc] at hlast
  rw [List.cons_append, URL.stripBrackets, if_neg]
  intro h
  cases hlast.symm.trans h
  exact absurd hd (by decide)

/-- A host that is an address is read as it is, and what is left of it without brackets and
port is the address. -/
theorem LiteralHost.read (h : LiteralHost host a) :
    (∀ d ∈ host, URL.IsAuthorityChar d) ∧ '@' ∉ host ∧ URL.parseHost host = some host ∧
      parseIP (String.ofList (hostOf (URL.stripBrackets host))) = some a.as16 := by
  have hbracket : ∀ {b : Char}, b = '[' ∨ b = ']' ∨ b = ':' → URL.IsAuthorityChar b ∧ b ≠ '@' := by
    rintro b (rfl | rfl | rfl) <;> exact ⟨⟨by decide, by decide⟩, by decide⟩
  have haddr : ∀ {b : Char}, IsAddrChar b → URL.IsAuthorityChar b ∧ b ≠ '@' := fun hb =>
    ⟨authorityChar_of_addrChar hb, by rintro rfl; exact absurd hb (by decide)⟩
  have hdigit : ∀ {port : List Char}, IsPort port → ∀ b ∈ port, URL.IsAuthorityChar b ∧ b ≠ '@' :=
    fun hp b hb => haddr (Or.inl (isHex_of_isDigit (hp.digits.2 b hb)))
  have hread : (∀ d ∈ host, URL.IsAuthorityChar d ∧ d ≠ '@') → URL.parseHost host = some host →
      parseIP (String.ofList (hostOf (URL.stripBrackets host))) = some a.as16 →
      (∀ d ∈ host, URL.IsAuthorityChar d) ∧ '@' ∉ host ∧ URL.parseHost host = some host ∧
        parseIP (String.ofList (hostOf (URL.stripBrackets host))) = some a.as16 :=
    fun hchars hhost hip =>
      ⟨fun d hd => (hchars d hd).1, fun hat => (hchars _ hat).2 rfl, hhost, hip⟩
  cases h with
  | ip hs =>
    refine hread (fun d hd => haddr (hs.chars d hd)) ?_ ?_
    · rw [URL.parseHost_addr hs.chars, URL.endsInDigits, splitLast_eq_none.2 hs.no_colon]
      rfl
    · rw [stripBrackets_of_head (URL.head?_ne_bracket hs.chars), hostOf_v4 hs, parseIP_v4 hs]
  | @ipPort s a port hs hp =>
    refine hread (fun d hd => ?_) (URL.parseHost_port hs.chars hp.digits.2) ?_
    · rcases List.mem_append.1 hd with hd | hd
      · exact haddr (hs.chars d hd)
      · rcases List.mem_cons.1 hd with rfl | hd
        · exact hbracket (Or.inr (Or.inr rfl))
        · exact hdigit hp d hd
    · have hhead : (s ++ ':' :: port).head? ≠ some '[' := by
        rw [List.head?_append_of_ne_nil _ hs.ne_nil]
        exact URL.head?_ne_bracket hs.chars
      rw [stripBrackets_of_head hhead,
        hostOf_of_ok (splitHostPort_plain hs.chars hs.no_colon hp.digits.2), parseIP_v4 hs]
  | @ipv6 s a hs =>
    refine hread (fun d hd => ?_) (URL.parseHost_bracket hs.chars (Or.inl rfl)) ?_
    · have hmem : d = '[' ∨ d ∈ s ∨ d = ']' := by simpa using hd
      rcases hmem with rfl | hd | rfl
      · exact hbracket (Or.inl rfl)
      · exact haddr (hs.chars d hd)
      · exact hbracket (Or.inr (Or.inl rfl))
    · rw [stripBrackets_bracket, hostOf_v6 hs, parseIP_v6 hs]
  | @ipv6Port s a port hs hp =>
    refine hread (fun d hd => ?_)
      (URL.parseHost_bracket hs.chars (Or.inr ⟨port, rfl, hp.digits.2⟩)) ?_
    · have hmem : d = '[' ∨ d ∈ s ∨ d = ']' ∨ d = ':' ∨ d ∈ port := by simpa using hd
      rcases hmem with rfl | hd | rfl | rfl | hd
      · exact hbracket (Or.inl rfl)
      · exact haddr (hs.chars d hd)
      · exact hbracket (Or.inr (Or.inl rfl))
      · exact hbracket (Or.inr (Or.inr rfl))
      · exact hdigit hp d hd
    · rw [stripBrackets_port hp, hostOf_of_ok (splitHostPort_bracket hs.chars hp.digits.2),
        parseIP_v6 hs]

/-- A URL whose host is an address. -/
theorem getHost_https {userPart : List Char} (c : Char) (cs : List Char) (hc : c.isAlpha = true)
    (hcs : ∀ d ∈ cs, URL.SchemeChar d) (huser : IsUserPart userPart) (h : LiteralHost host a)
    (tail : URL.Tail) :
    getHost (c :: cs ++ ':' :: '/' :: '/' :: (userPart ++ host ++ tail.text)) = .ok a.as16 := by
  obtain ⟨hchars, hat, hhost, hip⟩ := h.read
  have hauthority : ∃ user, URL.parseAuthority (userPart ++ host) = some (user, host) ∧
      ∀ d ∈ userPart, URL.IsAuthorityChar d := by
    rcases huser with rfl | ⟨userinfo, rfl, huchars, hu⟩
    · refine ⟨none, ?_, fun d hd => absurd hd List.not_mem_nil⟩
      rw [List.nil_append, parseAuthority_plain hat, hhost]
      rfl
    · obtain ⟨user, huser⟩ := Option.isSome_iff_exists.1 hu
      refine ⟨some user, ?_, fun d hd => ?_⟩
      · rw [List.append_assoc, List.singleton_append, URL.parseAuthority, splitLast_append _ hat]
        simp only [hhost, huser]
        rfl
      · rcases List.mem_append.1 hd with hd | hd
        · exact huchars d hd
        · cases List.mem_singleton.1 hd
          exact ⟨by decide, by decide⟩
  obtain ⟨user, hauthority, huchars⟩ := hauthority
  have hall : ∀ d ∈ userPart ++ host, URL.IsAuthorityChar d := fun d hd =>
    (List.mem_append.1 hd).elim (huchars d) (hchars d)
  obtain ⟨u, hu, huhost, _⟩ := URL.parse_text c cs hc hcs hall tail hauthority
  rw [getHost_eq_ok, gateHost_of_parse hu, huhost]
  exact hip

end URLs

/-! ## The documented forms -/

section Documented

variable {http3Host : List Char → List Char} {transport : Transport} {s : List Char} {a : Addr}

theorem parseIP_nil : parseIP (String.ofList (hostOf [])) = none := by decide

theorem getHost_ipPort {port : List Char} (h : IsV4 s a) (hp : IsPort port) :
    getHost (s ++ ':' :: port) = .ok a.as16 := by
  rw [getHost_eq_ok, gateHost_v4_port h hp,
    hostOf_of_ok (splitHostPort_plain h.chars h.no_colon hp.digits.2), parseIP_v4 h]

theorem getHost_ipv6Port {port : List Char} (h : IsV6 s a) (hp : IsPort port) :
    getHost ('[' :: s ++ ']' :: ':' :: port) = .ok a.as16 := by
  rw [getHost_eq_ok, gateHost_v6_port h hp,
    hostOf_of_ok (splitHostPort_bracket h.chars hp.digits.2), parseIP_v6 h]

/-- A bare address of the long form is found if it does not begin with a letter. -/
theorem getHost_ipv6 (h : IsV6 s a) :
    getHost s = .ok a.as16 ↔ ∀ c, s.head? = some c → c.isAlpha = false := by
  rw [getHost_eq_ok, gateHost_v6 h]
  split_ifs with hany
  · obtain ⟨c, hc, halpha⟩ := (Option.any_eq_true _ _).1 hany
    rw [parseIP_nil]
    refine iff_of_false (by rintro ⟨⟩) fun hall => ?_
    rw [hall c hc] at halpha
    cases halpha
  · rw [hostOf_v6 h, parseIP_v6 h]
    refine iff_of_true rfl fun c hc => ?_
    rw [hc, Option.any_some, Bool.not_eq_true] at hany
    exact hany

theorem getHost_tls {host : List Char} (h : LiteralHost host a) :
    getHost (tlsURLPrefix ++ host) = .ok a.as16 := by
  have := getHost_https 't' ['l', 's'] (by decide) (URL.schemeChars_of_all (by decide))
    (Or.inl rfl) h URL.Tail.none
  rwa [URL.Tail.text_none, List.append_nil] at this

/-- Behind `tls://` it is found if what stands behind its last colon is digits. -/
theorem getHost_tls_ipv6 (h : IsV6 s a) (ip : IP) :
    getHost (tlsURLPrefix ++ s) = .ok ip ↔ URL.endsInDigits s = true ∧ a.as16 = ip := by
  have hchars := authorityChars h.chars
  have hat : '@' ∉ s := mark_not_mem_host h.chars (by decide)
  rw [getHost_eq_ok]
  by_cases hdigits : URL.endsInDigits s = true
  · have hhost : URL.parseHost s = some s := by rw [URL.parseHost_addr h.chars, if_pos hdigits]
    rw [gateHost_tls hchars hat hhost, stripBrackets_of_head (URL.head?_ne_bracket h.chars),
      hostOf_v6 h, parseIP_v6 h, Option.some_inj, and_iff_right hdigits]
  · have hnone : URL.parse (tlsURLPrefix ++ s) = none := by
      cases hu : URL.parse (tlsURLPrefix ++ s) with
      | none => rfl
      | some u =>
        have hauthority := parseAuthority_tls hu
        have htake : s.takeWhile (fun c => !URL.endsAuthority c) = s :=
          List.takeWhile_eq_self_iff.2 fun d hd => by rw [(hchars d hd).2]; rfl
        rw [htake, parseAuthority_plain hat, URL.parseHost_addr h.chars, if_neg hdigits]
          at hauthority
        cases hauthority
    rw [gateHost_of_none hnone, parseIP_tls]
    exact iff_of_false (by rintro ⟨⟩) fun h => hdigits h.1

theorem getHost_documented (hm : ¬Misread http3Host transport s) (h : Documented transport s a) :
    getHost s = .ok a.as16 := by
  cases h with
  | plain ht hs =>
    cases hs with
    | ip hs => exact absurd (.path ht hs) hm
    | ipv6 hs =>
      refine (getHost_ipv6 hs).2 fun c hc => ?_
      by_contra halpha
      exact hm (.scheme ht hs hc (Bool.not_eq_false _ ▸ halpha))
    | ipPort hs hp => exact getHost_ipPort hs hp
    | ipv6Port hs hp => exact getHost_ipv6Port hs hp
  | @tls s a hs =>
    cases hs with
    | ip hs => exact getHost_tls (.ip hs)
    | ipv6 hs =>
      refine (getHost_tls_ipv6 hs _).2 ⟨?_, rfl⟩
      by_contra hdigits
      exact hm (.port hs (Bool.not_eq_true _ ▸ hdigits))
    | ipPort hs hp => exact getHost_tls (.ipPort hs hp)
    | ipv6Port hs hp => exact getHost_tls (.ipv6Port hs hp)
  | https tail _ huser hl =>
    exact getHost_https 'h' ['t', 't', 'p', 's'] (by decide) (URL.schemeChars_of_all (by decide))
      huser hl tail

end Documented

end CloudPing.Dnsprobe

import CloudPing.Dnsprobe.GetHost

/-!
# The gate and the DNS server

The gate reads the address that `LookupDNS` dials, but for five kinds of texts (`Misread`,
`agrees_iff`).  Three are documented forms that it does not find.  In the other two it lets a
server through on the address of another one: the address that is dialed has a zone with an
`@`, or stands in a URL without brackets.

A text that `LookupDNS` parses is an address, or an address with a port (`Accepted`).  Behind
`tls://` the gate reads it as an authority.  Without user information a zone leaves a character
there that no address has; otherwise the authority is the text.
-/

namespace CloudPing.Dnsprobe

open Inet Utils

/-! ## What `LookupDNS` accepts -/

/-- What `LookupDNS` accepts: an address, or one with a port, with a zone or without. -/
inductive Accepted : List Char → Addr → Prop where
  | ip {s a} : parseAddr s = some a → Accepted s a
  | ipPort {s a port} : IsV4 s a → IsPort port → Accepted (s ++ ':' :: port) a
  | ipv6Port {s a port} : parseAddr s = some a → (∃ ip zone hl, a = .v6 ip zone hl) →
      splitHostPort ('[' :: s ++ ']' :: ':' :: port) = .ok (s, port) → IsPort port →
      Accepted ('[' :: s ++ ']' :: ':' :: port) a

section Accepted

variable {s r : List Char} {a : Addr} {transport : Transport}

theorem colon_mem_v6 (ha : parseAddr s = some a) (h6 : ∃ ip zone hl, a = .v6 ip zone hl) :
    2 ≤ s.count ':' ∧ s.head? ≠ some '[' := by
  by_cases hz : a.zone = []
  · rcases isV4_or_isV6 ha hz with ⟨_, ip, hl, rfl⟩ | h
    · obtain ⟨_, _, _, heq⟩ := h6
      cases heq
    · exact ⟨h.colons, URL.head?_ne_bracket h.chars⟩
  · obtain ⟨text, z, rfl, hchars, hcolons, _⟩ := zone_cases ha hz
    refine ⟨?_, head?_of_colons hchars hcolons _⟩
    rw [List.count_append]
    omega

theorem accepted_of_parseAddrPort {p : Nat}
    (h : parseAddrPort (appendDNSPort r transport) = some (a, p)) : Accepted r a := by
  have hdns : ∃ port, ':' ∉ port ∧
      (∀ e, splitHostPort r = .error e → appendDNSPort r transport = joinHostPort r port) ∧
      ∀ q, splitHostPort r = .ok q → appendDNSPort r transport = r := by
    refine ⟨if transport = .tls then ['8', '5', '3'] else ['5', '3'], ?_, ?_, ?_⟩
    · split_ifs
      · decide
      · decide
    · intro e hs
      rw [appendDNSPort, hs]
    · intro q hs
      rw [appendDNSPort, hs]
  obtain ⟨port, hcolon, herror, hok⟩ := hdns
  obtain ⟨ip, text, port', hlast, hp, htext, hform⟩ := parseAddrPort_eq_some h
  cases hs : splitHostPort r with
  | error e =>
    rw [herror e hs, joinHostPort] at hlast
    split_ifs at hlast with hmem
    · have hjoin : '[' :: r ++ ']' :: ':' :: port = ('[' :: r ++ [']']) ++ ':' :: port := by simp
      rw [hjoin, splitLast_append _ hcolon] at hlast
      cases hlast
      rcases hform with ⟨hip, _⟩ | ⟨hip, h6⟩
      · rw [← hip, List.cons_append, parseAddr_bracket] at htext
        cases htext
      · have : r = text := by simpa using hip
        exact .ip (this ▸ htext)
    · rw [splitLast_append _ hcolon] at hlast
      cases hlast
      rcases hform with ⟨rfl, _⟩ | ⟨rfl, h6⟩
      · exact .ip htext
      · have := (colon_mem_v6 htext h6).1
        refine absurd ?_ hmem
        exact List.mem_append_left _ (List.mem_cons_of_mem _
          (List.count_pos_iff.1 (Nat.lt_of_lt_of_le Nat.zero_lt_two this)))
  | ok q =>
    obtain ⟨host, port''⟩ := q
    rw [hok _ hs] at hlast
    obtain ⟨hr, _⟩ := splitLast_eq_some hlast
    rcases hform with ⟨rfl, h4⟩ | ⟨rfl, h6⟩
    · rw [hr]
      exact .ipPort ⟨htext, h4⟩ ⟨p, hp⟩
    · have hr' : r = '[' :: text ++ ']' :: ':' :: port' := by rw [hr]; simp
      obtain ⟨hcolon'', hbracket'', ⟨_, _, hopen, _⟩ | ⟨hr'', _, _⟩⟩ := splitHostPort_eq_ok hs
      · exact absurd (hr' ▸ by simp) hopen
      · have hlast'' : splitLast ':' r = some ('[' :: host ++ [']'], port'') := by
          rw [hr'']
          exact splitLast_bracket host hcolon''
        rw [hlast] at hlast''
        have hhost : text = host ∧ port' = port'' := by simpa using hlast''
        rw [← hhost.1, ← hhost.2] at hs
        rw [hr'] at hs ⊢
        exact .ipv6Port htext h6 hs ⟨p, hp⟩

/-- What the gate and `LookupDNS` both take for an address is the same address. -/
theorem ip_of_hostOf {ip : IP} (h : Accepted r a)
    (hip : parseIP (String.ofList (hostOf r)) = some ip) : a.as16 = ip := by
  have hread : ∀ {s : List Char}, parseAddr s = some a → parseIP (String.ofList s) = some ip →
      a.as16 = ip := by
    intro s ha hip
    obtain ⟨a', ha', _, heq⟩ := parseIP_eq_some.1 hip
    cases ha.symm.trans ha'
    exact heq
  cases h with
  | ip ha =>
    refine hread ha ?_
    by_cases h6 : ∃ ip zone hl, a = .v6 ip zone hl
    · obtain ⟨hc, hb⟩ := colon_mem_v6 ha h6
      rwa [hostOf_colons hc hb] at hip
    · cases a with
      | v4 ip' hl => rwa [hostOf_v4 ⟨ha, ip', hl, rfl⟩] at hip
      | v6 ip' zone hl => exact absurd ⟨ip', zone, hl, rfl⟩ h6
  | ipPort hs hp =>
    rw [hostOf_of_ok (splitHostPort_plain hs.chars hs.no_colon hp.digits.2)] at hip
    exact hread hs.1 hip
  | ipv6Port ha _ hs _ =>
    rw [hostOf_of_ok hs] at hip
    exact hread ha hip

/-- The first of two colons has no slash behind it. -/
theorem ne_slash_of_colons {text z : List Char} (hc : 2 ≤ text.count ':') (hslash : '/' ∉ text)
    (scheme rest : List Char) (hscheme : ':' ∉ scheme) :
    text ++ z ≠ scheme ++ ':' :: '/' :: rest := by
  intro heq
  have hcount := List.count_eq_zero.2 hscheme
  rcases List.append_eq_append_iff.1 heq with ⟨b, rfl, _⟩ | ⟨b, rfl, hb⟩
  · rw [List.count_append] at hcount
    omega
  · match b, hb with
    | [], _ =>
      rw [List.append_nil] at hc
      omega
    | [_], hb =>
      cases (List.cons.inj hb).1
      have : (scheme ++ [':']).count ':' = 1 := by rw [List.count_append, hcount]; rfl
      omega
    | _ :: d :: b, hb =>
      cases (List.cons.inj (List.cons.inj hb).2).1
      exact hslash (List.mem_append_right _ (List.mem_cons_of_mem _ List.mem_cons_self))

/-- What `LookupDNS` accepts without `tls://` is no URL with a host. -/
theorem host_of_accepted {u : URL} (h : Accepted s a) (hu : URL.parse s = some u) :
    u.host = [] := by
  have hplain : '/' ∉ s → u.host = [] := fun hslash =>
    URL.host_of_parse hu (fun hh => hslash (List.mem_of_mem_head? hh)) fun scheme rest _ heq =>
      hslash (heq ▸ by simp)
  have hzone : ∀ {text z : List Char}, s = text ++ z → 2 ≤ text.count ':' → '/' ∉ text →
      u.host = [] := by
    rintro text z rfl hc hslash
    refine URL.host_of_parse hu (fun hh => hslash ?_) (ne_slash_of_colons hc hslash)
    have hne : text ≠ [] := by
      rintro rfl
      exact absurd hc (by decide)
    rw [List.head?_append_of_ne_nil _ hne] at hh
    exact List.mem_of_mem_head? hh
  cases h with
  | ip ha =>
    by_cases hz : a.zone = []
    · exact hplain (mark_not_mem_host (chars_of_parseAddr ha hz) (by decide))
    · obtain ⟨text, z, hs, hchars, hc, _⟩ := zone_cases ha hz
      exact hzone hs hc (mark_not_mem_host hchars (by decide))
  | ipPort hs hp =>
    refine hplain ?_
    simp only [List.mem_append, List.mem_cons, not_or]
    exact ⟨mark_not_mem_host hs.chars (by decide), by decide,
      mark_not_mem_port hp.digits.2 (by decide)⟩
  | @ipv6Port s a port ha _ hs hp =>
    by_cases hz : a.zone = []
    · refine hplain ?_
      simp only [List.mem_append, List.mem_cons, not_or]
      exact ⟨⟨by decide, mark_not_mem_host (chars_of_parseAddr ha hz) (by decide)⟩, by decide,
        by decide, mark_not_mem_port hp.digits.2 (by decide)⟩
    · obtain ⟨text, z, rfl, hchars, hc, _⟩ := zone_cases ha hz
      have hsplit : '[' :: (text ++ '%' :: z) ++ ']' :: ':' :: port =
          '[' :: text ++ ('%' :: z ++ ']' :: ':' :: port) := by simp
      refine hzone hsplit ?_ ?_
      · rw [List.count_cons_of_ne (by decide)]
        exact hc
      · simp only [List.mem_cons, not_or]
        exact ⟨by decide, mark_not_mem_host hchars (by decide)⟩

end Accepted

/-! ## Behind `tls://` -/

section TLS

variable {http3Host : List Char → List Char} {transport : Transport} {r text z : List Char}
  {a : Addr} {u : URL} {ip : IP}

theorem takeWhile_authority (h : ∀ c ∈ text, IsAddrChar c) (z : List Char) :
    ∃ z', (text ++ '%' :: z).takeWhile (fun c => !URL.endsAuthority c) = text ++ '%' :: z' := by
  refine ⟨z.takeWhile fun c => !URL.endsAuthority c, ?_⟩
  rw [List.takeWhile_append_of_pos fun d hd => by rw [(authorityChar_of_addrChar (h d hd)).2]; rfl,
    List.takeWhile_cons_of_pos (by decide)]

theorem parseHost_of_authority {s host : List Char}
    (h : URL.parseAuthority s = some (none, host)) : URL.parseHost s = some host := by
  rw [URL.parseAuthority] at h
  split at h
  next =>
    obtain ⟨host', hhost, heq⟩ := Option.map_eq_some_iff.1 h
    cases heq
    exact hhost
  next =>
    obtain ⟨host', _, h⟩ := Option.bind_eq_some_iff.1 h
    obtain ⟨user, _, h⟩ := Option.bind_eq_some_iff.1 h
    cases h

/-- User information does not begin with a bracket. -/
theorem parseHost_of_bracket {s host : List Char} {user : Option URL.Userinfo}
    (h : URL.parseAuthority ('[' :: s) = some (user, host)) :
    URL.parseHost ('[' :: s) = some host := by
  cases user with
  | none => exact parseHost_of_authority h
  | some user =>
    rw [URL.parseAuthority] at h
    split at h
    next =>
      obtain ⟨host', _, heq⟩ := Option.map_eq_some_iff.1 h
      cases heq
    next userinfo host' hs =>
      obtain ⟨_, _, h⟩ := Option.bind_eq_some_iff.1 h
      obtain ⟨user', huser, _⟩ := Option.bind_eq_some_iff.1 h
      obtain ⟨heq, _⟩ := splitLast_eq_some hs
      cases userinfo with
      | nil => cases heq
      | cons c userinfo =>
        cases (List.cons.inj heq).1
        rw [URL.parseUserinfo, if_neg] at huser
        · cases huser
        · simp [URL.validUserinfo]

/-- What an address with a zone leaves behind `tls://` is no address, unless there is user
information. -/
theorem parseIP_zone (hchars : ∀ c ∈ text, IsAddrChar c) (hc : 2 ≤ text.count ':')
    {c : Char} (hforeign : URL.Foreign c) (rest : List Char) :
    parseIP (String.ofList (hostOf (URL.stripBrackets (text ++ c :: rest)))) = none := by
  have hhead := head?_of_colons hchars hc (c :: rest)
  have hcount : 2 ≤ (text ++ c :: rest).count ':' := by
    rw [List.count_append]
    omega
  rw [stripBrackets_of_head hhead, hostOf_colons hcount hhead]
  exact parseIP_of_mem (List.mem_append_right _ List.mem_cons_self)
    (URL.not_addrChar_of_foreign hforeign)

theorem parseIP_bracket_zone (hchars : ∀ c ∈ text, IsAddrChar c) (hc : 2 ≤ text.count ':')
    {c : Char} (hforeign : URL.Foreign c) (rest : List Char) :
    parseIP (String.ofList (hostOf (URL.stripBrackets ('[' :: text ++ c :: rest)))) = none := by
  have hnot := URL.not_addrChar_of_foreign hforeign
  have hopen : ¬IsAddrChar '[' := by decide
  rw [List.cons_append, URL.stripBrackets]
  split_ifs with hlast
  · have hrest : rest ≠ [] := by
      rintro rfl
      rw [List.getLast?_concat] at hlast
      exact URL.ne_bracket_of_foreign hforeign (Option.some_inj.1 hlast)
    rw [List.dropLast_append_of_ne_nil (List.cons_ne_nil _ _),
      List.dropLast_cons_of_ne_nil hrest]
    have := parseIP_zone hchars hc hforeign rest.dropLast
    rwa [stripBrackets_of_head (head?_of_colons hchars hc _)] at this
  · cases hs : splitHostPort ('[' :: (text ++ c :: rest)) with
    | error e =>
      rw [hostOf_of_error hs]
      exact parseIP_of_mem List.mem_cons_self hopen
    | ok p =>
      obtain ⟨host, port⟩ := p
      rw [hostOf_of_ok hs]
      obtain ⟨_, _, ⟨_, _, hnone, _⟩ | ⟨heq, _⟩⟩ := splitHostPort_eq_ok hs
      · exact absurd List.mem_cons_self hnone
      · have heq : text ++ c :: rest = host ++ ']' :: ':' :: port := List.tail_eq_of_cons_eq heq
        refine parseIP_of_mem (c := c) ?_ hnot
        rcases List.append_eq_append_iff.1 heq with ⟨b, rfl, hb⟩ | ⟨b, rfl, hb⟩
        · cases b with
          | nil =>
            cases (List.cons.inj hb).1
            exact absurd rfl (URL.ne_bracket_of_foreign hforeign)
          | cons d b =>
            cases (List.cons.inj hb).1
            exact List.mem_append_right _ List.mem_cons_self
        · cases b with
          | nil =>
            cases (List.cons.inj hb).1
            exact absurd rfl (URL.ne_bracket_of_foreign hforeign)
          | cons d b =>
            cases (List.cons.inj hb).1
            exact absurd (hchars ']' (List.mem_append_right _ List.mem_cons_self)) (by decide)

/-- Behind `tls://` the gate reads the address that is dialed, unless a zone hides another
server. -/
theorem dialed_tls (hm : ¬Misread http3Host transport (tlsURLPrefix ++ r))
    (ht : transport.IsPlain) (h : Accepted r a) (hip : getHost (tlsURLPrefix ++ r) = .ok ip) :
    a.as16 = ip := by
  have hliteral : LiteralHost r a → a.as16 = ip := fun hl => by
    rw [getHost_tls hl] at hip
    exact Except.ok.inj hip
  cases hu : URL.parse (tlsURLPrefix ++ r) with
  | none =>
    rw [getHost_eq_ok, gateHost_of_none hu, parseIP_tls] at hip
    cases hip
  | some u =>
    have hauthority := parseAuthority_tls hu
    cases h with
    | ip ha =>
      by_cases hz : a.zone = []
      · rcases isV4_or_isV6 ha hz with hs | hs
        · exact hliteral (.ip hs)
        · exact ((getHost_tls_ipv6 hs ip).1 hip).2
      · rw [getHost_eq_ok, gateHost_of_parse hu] at hip
        by_contra hne
        have huser : u.user = none := by
          by_contra hsome
          exact hm (.userinfo ht ha hz hu (Option.isSome_iff_ne_none.2 hsome) hip (Ne.symm hne))
        obtain ⟨text, z, rfl, hchars, hc, _⟩ := zone_cases ha hz
        obtain ⟨z', htake⟩ := takeWhile_authority hchars z
        rw [htake, huser] at hauthority
        have hne : text ≠ [] := by
          rintro rfl
          exact absurd hc (by decide)
        obtain ⟨c, rest, hhost, hforeign⟩ :=
          URL.parseHost_zone hchars hne (parseHost_of_authority hauthority)
        rw [hhost, parseIP_zone hchars hc hforeign] at hip
        cases hip
    | ipPort hs hp => exact hliteral (.ipPort hs hp)
    | @ipv6Port s a port ha h6 hs hp =>
      by_cases hz : a.zone = []
      · rcases isV4_or_isV6 ha hz with ⟨_, _, _, rfl⟩ | hs
        · obtain ⟨_, _, _, heq⟩ := h6
          cases heq
        · exact hliteral (.ipv6Port hs hp)
      · rw [getHost_eq_ok, gateHost_of_parse hu] at hip
        obtain ⟨text, z, rfl, hchars, hc, _⟩ := zone_cases ha hz
        obtain ⟨z', htake⟩ := takeWhile_authority hchars (z ++ ']' :: ':' :: port)
        have hbracket : ('[' :: (text ++ '%' :: z) ++ ']' :: ':' :: port).takeWhile
            (fun c => !URL.endsAuthority c) = '[' :: text ++ '%' :: z' := by
          rw [List.cons_append, List.takeWhile_cons_of_pos (by decide), List.append_assoc,
            List.cons_append, htake, List.cons_append]
        rw [hbracket, List.cons_append] at hauthority
        obtain ⟨c, rest, hhost, hforeign⟩ :=
          URL.parseHost_bracket_zone hchars (parseHost_of_bracket hauthority)
        rw [hhost, parseIP_bracket_zone hchars hc hforeign] at hip
        cases hip

/-- And so it does where the transports have no prefix. -/
theorem dialed_bare {s : List Char} (h : Accepted s a) (hip : getHost s = .ok ip) :
    a.as16 = ip := by
  rw [getHost_eq_ok] at hip
  cases hu : URL.parse s with
  | none =>
    rw [gateHost_of_none hu] at hip
    exact ip_of_hostOf h hip
  | some u =>
    rw [gateHost_of_parse hu, host_of_accepted h hu, stripBrackets_of_head (by simp),
      parseIP_nil] at hip
    cases hip

theorem dialed_plain {s : List Char} (hm : ¬Misread http3Host transport s)
    (ht : transport.IsPlain) (hip : getHost s = .ok ip)
    (hd : lookupDials http3Host transport s = some a) : a.as16 = ip := by
  have hparse : (parseAddrPort (appendDNSPort (stripTLSURLPrefix s) transport)).map Prod.fst =
      some a := by
    rcases ht with rfl | rfl | rfl <;> exact hd
  obtain ⟨⟨a', p⟩, hparse', heq⟩ := Option.map_eq_some_iff.1 hparse
  cases heq
  have haccepted := accepted_of_parseAddrPort hparse'
  rw [stripTLSURLPrefix] at haccepted
  split_ifs at haccepted with hpre
  · obtain ⟨r, rfl⟩ := hpre
    rw [List.drop_left] at haccepted
    exact dialed_tls hm ht haccepted hip
  · exact dialed_bare haccepted hip

end TLS

/-! ## The hosts of the HTTP clients -/

section HTTP

variable {http3Host : List Char → List Char} {transport : Transport} {s host port : List Char}
  {a b : Addr} {ip : IP}

theorem stripBrackets_cases (s : List Char) :
    (∃ inner, s = '[' :: inner ++ [']']) ∨ URL.stripBrackets s = s := by
  rw [URL.stripBrackets.eq_def]
  split
  next inner =>
    split_ifs with hlast
    · refine Or.inl ⟨inner.dropLast, ?_⟩
      rw [List.cons_append, List.dropLast_append_getLast? ']' hlast]
    · exact Or.inr rfl
  next => exact Or.inr rfl

/-- A text in brackets does not split. -/
theorem splitHostPort_brackets (s : List Char) :
    ∃ err, splitHostPort ('[' :: s ++ [']']) = .error err := by
  cases hs : splitHostPort ('[' :: s ++ [']']) with
  | error e => exact ⟨e, rfl⟩
  | ok p =>
    obtain ⟨host, port⟩ := p
    obtain ⟨_, hclose, ⟨_, _, hopen, _⟩ | ⟨heq, _⟩⟩ := splitHostPort_eq_ok hs
    · exact absurd List.mem_cons_self hopen
    · have hlast := congrArg List.getLast? heq
      have hport : ('[' :: host ++ ']' :: ':' :: port).getLast? = (':' :: port).getLast? := by
        rw [show '[' :: host ++ ']' :: ':' :: port = ('[' :: host ++ [']']) ++ ':' :: port by simp,
          List.getLast?_append_of_ne_nil _ (List.cons_ne_nil _ _)]
      rw [hport, List.getLast?_concat] at hlast
      rcases List.mem_cons.1 (List.mem_of_getLast? hlast.symm) with h | h
      · exact absurd h (by decide)
      · exact absurd h hclose

/-- The clients take off the brackets. -/
theorem clientHost_brackets (hh : HTTP3Host http3Host) (s : List Char) :
    clientHost http3Host transport ('[' :: s ++ [']']) = s := by
  have hempty : URL.removeEmptyPort ('[' :: s ++ [']']) = '[' :: s ++ [']'] := by
    have hsplit : splitLast ']' ('[' :: s ++ [']']) = some ('[' :: s, []) :=
      splitLast_append _ List.not_mem_nil
    rw [URL.removeEmptyPort, hsplit]
    exact if_neg fun h => absurd h.1 List.not_mem_nil
  rw [clientHost, hempty]
  split_ifs
  · obtain ⟨err, herr⟩ := splitHostPort_brackets s
    rw [hh.noPort _ _ herr, stripBrackets_bracket]
  · rw [URL.hostname]
    split
    next before port hsplit =>
      have hnot : port.all Char.isDigit = false := by
        obtain ⟨heq, _⟩ := splitLast_eq_some hsplit
        cases hport : port.all Char.isDigit with
        | false => rfl
        | true =>
          have hlast := congrArg List.getLast? heq
          rw [List.getLast?_concat, List.getLast?_append_of_ne_nil _ (List.cons_ne_nil _ _)]
            at hlast
          rcases List.mem_cons.1 (List.mem_of_getLast? hlast.symm) with h | h
          · exact absurd h (by decide)
          · exact absurd (List.all_eq_true.1 hport _ h) (by decide)
      rw [hnot, if_neg Bool.false_ne_true, stripBrackets_bracket]
    next => exact stripBrackets_bracket s

/-- A host without colons and brackets is connected to as it is. -/
theorem clientHost_plain (hh : HTTP3Host http3Host) (hcolon : ':' ∉ s) (hb : s.head? ≠ some '[') :
    clientHost http3Host transport s = s := by
  have hempty : URL.removeEmptyPort s = s :=
    if_neg fun h => hcolon (List.mem_of_getLast? h.2)
  rw [clientHost, hempty]
  split_ifs
  · rw [hh.noPort _ _ (splitHostPort_no_colon hcolon), stripBrackets_of_head hb]
  · rw [URL.hostname, splitLast_eq_none.2 hcolon]
    exact stripBrackets_of_head hb

theorem clientHost_congr {s' : List Char} (h : URL.removeEmptyPort s = URL.removeEmptyPort s') :
    clientHost http3Host transport s = clientHost http3Host transport s' := by
  rw [clientHost, clientHost, h]

theorem removeEmptyPort_of_last (h : s.getLast? ≠ some ':') : URL.removeEmptyPort s = s :=
  if_neg fun hc => h hc.2

theorem removeEmptyPort_colon (h : ']' ∉ host ++ [':'] ∨ ∃ inner, host = inner ++ [']']) :
    URL.removeEmptyPort (host ++ [':']) = host := by
  have hbehind : ':' ∈ ((splitLast ']' (host ++ [':'])).map Prod.snd).getD (host ++ [':']) := by
    rcases h with h | ⟨inner, rfl⟩
    · rw [splitLast_eq_none.2 h]
      exact List.mem_append_right _ List.mem_cons_self
    · have hnone : ']' ∉ [':'] := by decide
      rw [List.append_assoc, List.singleton_append, splitLast_append _ hnone]
      exact List.mem_cons_self
  rw [URL.removeEmptyPort, if_pos ⟨hbehind, List.getLast?_concat⟩, List.dropLast_concat]

theorem getLast?_before (before : List Char) (hne : port ≠ []) :
    (before ++ ':' :: port).getLast? = port.getLast? := by
  rw [show before ++ ':' :: port = (before ++ [':']) ++ port by simp,
    List.getLast?_append_of_ne_nil _ hne]

/-- What the clients make of a host with a port behind it. -/
theorem clientHost_port (hh : HTTP3Host http3Host) {before : List Char} (hne : port ≠ [])
    (hcolon : ':' ∉ port) (hs : splitHostPort (before ++ ':' :: port) = .ok (host, port)) :
    clientHost http3Host transport (before ++ ':' :: port) = host ∨
      clientHost http3Host transport (before ++ ':' :: port) = URL.stripBrackets before ∨
      clientHost http3Host transport (before ++ ':' :: port) =
        URL.stripBrackets (before ++ ':' :: port) := by
  have hempty : URL.removeEmptyPort (before ++ ':' :: port) = before ++ ':' :: port :=
    removeEmptyPort_of_last fun h => by
      rw [getLast?_before before hne] at h
      exact hcolon (List.mem_of_getLast? h)
  rw [clientHost, hempty]
  split_ifs with ht
  · exact Or.inl (hh.hostPort _ _ _ hs)
  · right
    rw [URL.hostname, splitLast_append _ hcolon]
    dsimp only
    split_ifs
    · exact Or.inl rfl
    · exact Or.inr rfl

/-- A host with a port behind it: the clients connect to the host, or to no address. -/
theorem clientHost_split (hh : HTTP3Host http3Host) (hs : splitHostPort s = .ok (host, port))
    (hhost : parseAddr host = some b) (ha : parseAddr (clientHost http3Host transport s) = some a) :
    a = b := by
  obtain ⟨hcolon, hclose, hform⟩ := splitHostPort_eq_ok hs
  have hsame : clientHost http3Host transport s = host → a = b := by
    intro heq
    rw [heq] at ha
    exact Option.some_inj.1 (ha.symm.trans hhost)
  rcases hform with ⟨rfl, hnot, hopen, hclose'⟩ | ⟨rfl, hclose', hopen⟩
  · have hhead : host.head? ≠ some '[' := fun hh =>
      hopen (List.mem_append_left _ (List.mem_of_mem_head? hh))
    by_cases hport : port = []
    · subst hport
      refine hsame ((clientHost_congr ?_).trans (clientHost_plain hh hnot hhead))
      rw [removeEmptyPort_colon (Or.inl hclose'), removeEmptyPort_of_last fun hl =>
        hnot (List.mem_of_getLast? hl)]
    · rcases clientHost_port hh hport hcolon hs with heq | heq | heq
      · exact hsame heq
      · exact hsame (heq.trans (stripBrackets_of_head hhead))
      · have hhead' : (host ++ ':' :: port).head? ≠ some '[' := fun hh =>
          hopen (List.mem_of_mem_head? hh)
        rw [heq, stripBrackets_of_head hhead', parseAddr_append_colon hhost hnot] at ha
        cases ha
  · have hassoc : ∀ p : List Char,
        '[' :: host ++ ']' :: ':' :: p = ('[' :: host ++ [']']) ++ ':' :: p := by simp
    by_cases hport : port = []
    · subst hport
      refine hsame ((clientHost_congr ?_).trans (clientHost_brackets hh host))
      rw [hassoc, removeEmptyPort_colon (Or.inr ⟨'[' :: host, rfl⟩), removeEmptyPort_of_last]
      rw [List.getLast?_concat]
      decide
    · rw [hassoc] at hs hsame ha
      rcases clientHost_port hh hport hcolon hs with heq | heq | heq
      · exact hsame heq
      · exact hsame (heq.trans (stripBrackets_bracket host))
      · have hkept : URL.stripBrackets (('[' :: host ++ [']']) ++ ':' :: port) =
            ('[' :: host ++ [']']) ++ ':' :: port := by
          rcases stripBrackets_cases (('[' :: host ++ [']']) ++ ':' :: port) with
            ⟨inner, hinner⟩ | h
          · have hlast := getLast?_before ('[' :: host ++ [']']) hport
            rw [hinner, List.getLast?_concat] at hlast
            exact absurd (List.mem_of_getLast? hlast.symm) hclose
          · exact h
        rw [heq, hkept, List.cons_append, List.cons_append, parseAddr_bracket] at ha
        cases ha

/-- The gate and the HTTP clients take the same address from a URL, unless the host is an
address without brackets. -/
theorem dialed_http (hh : HTTP3Host http3Host) (hm : ¬Misread http3Host transport s)
    (ht : transport = .http2 ∨ transport = .http3) (hip : getHost s = .ok ip)
    (hd : lookupDials http3Host transport s = some a) : a.as16 = ip := by
  have hclient : ∃ u, URL.parse s = some u ∧ requestable transport u ∧
      parseAddr (clientHost http3Host transport u.host) = some a := by
    have hd : (URL.parse s).bind (fun u => if requestable transport u then
        parseAddr (clientHost http3Host transport u.host) else none) = some a := by
      rcases ht with rfl | rfl <;> exact hd
    obtain ⟨u, hu, hd⟩ := Option.bind_eq_some_iff.1 hd
    obtain ⟨hr, hd⟩ := Option.ite_none_right_eq_some.1 hd
    exact ⟨u, hu, hr, hd⟩
  obtain ⟨u, hu, hr, ha⟩ := hclient
  rw [getHost_eq_ok, gateHost_of_parse hu] at hip
  rcases stripBrackets_cases u.host with ⟨inner, hinner⟩ | hstrip
  · rw [hinner, stripBrackets_bracket] at hip
    rw [hinner, clientHost_brackets hh] at ha
    cases hs : splitHostPort inner with
    | error e =>
      rw [hostOf_of_error hs] at hip
      obtain ⟨b, hb, _, rfl⟩ := parseIP_eq_some.1 hip
      cases ha.symm.trans hb
      rfl
    | ok p =>
      obtain ⟨host, port⟩ := p
      rw [hostOf_of_ok hs] at hip
      obtain ⟨b, hb, _, _⟩ := parseIP_eq_some.1 hip
      obtain ⟨_, _, ⟨rfl, hnot, _⟩ | ⟨rfl, _⟩⟩ := splitHostPort_eq_ok hs
      · rw [parseAddr_append_colon hb hnot] at ha
        cases ha
      · rw [List.cons_append, parseAddr_bracket] at ha
        cases ha
  · rw [hstrip] at hip
    cases hs : splitHostPort u.host with
    | error e =>
      rw [hostOf_of_error hs] at hip
      obtain ⟨b, hb, hz, rfl⟩ := parseIP_eq_some.1 hip
      rcases isV4_or_isV6 hb hz with h4 | h6
      · rw [clientHost_plain hh h4.no_colon (URL.head?_ne_bracket h4.chars)] at ha
        cases ha.symm.trans hb
        rfl
      · by_contra hne
        exact hm (.bareHost ht hu hr h6 ha hne)
    | ok p =>
      obtain ⟨host, port⟩ := p
      rw [hostOf_of_ok hs] at hip
      obtain ⟨b, hb, _, rfl⟩ := parseIP_eq_some.1 hip
      rw [clientHost_split hh hs hb ha]

end HTTP

/-! ## When the gate is right -/

section Main

variable {http3Host : List Char → List Char} {transport : Transport} {s : List Char} {a : Addr}

theorem lookupDials_zone (ht : transport.IsPlain) (ha : parseAddr s = some a) (hz : a.zone ≠ []) :
    lookupDials http3Host transport (tlsURLPrefix ++ s) = some a := by
  have hlong : ∃ ip zone hl, a = .v6 ip zone hl := by
    obtain ⟨_, z, _, _, _, ip, hl, rfl⟩ := zone_cases ha hz
    exact ⟨ip, z, hl, rfl⟩
  obtain ⟨hc, hb⟩ := colon_mem_v6 ha hlong
  obtain ⟨ip, zone, hl, rfl⟩ := hlong
  have hmem : ':' ∈ s := List.count_pos_iff.1 (Nat.lt_of_lt_of_le Nat.zero_lt_two hc)
  have hparse : ∃ p, parseAddrPort (appendDNSPort s transport) = some (.v6 ip zone hl, p) := by
    simp only [appendDNSPort, splitHostPort_colons hc hb, joinHostPort, if_pos hmem]
    split_ifs
    · exact ⟨853, parseAddrPort_bracket ha (by decide)⟩
    · exact ⟨53, parseAddrPort_bracket ha (by decide)⟩
  obtain ⟨p, hparse⟩ := hparse
  have hstrip : stripTLSURLPrefix (tlsURLPrefix ++ s) = s := by
    rw [stripTLSURLPrefix, if_pos (List.prefix_append _ _), List.drop_left]
  have hdials : (parseAddrPort (appendDNSPort (stripTLSURLPrefix (tlsURLPrefix ++ s))
      transport)).map Prod.fst = some (.v6 ip zone hl) := by
    rw [hstrip, hparse, Option.map_some]
  rcases ht with rfl | rfl | rfl <;> exact hdials

/-- What is misread does not agree. -/
theorem Misread.not_agrees (hm : Misread http3Host transport s) :
    ¬Agrees http3Host transport s := by
  intro h
  cases hm with
  | path ht hs =>
    have hget := h.documented _ (.plain ht (.ip hs))
    rw [getHost_eq_ok, gateHost_v4 hs, parseIP_nil] at hget
    cases hget
  | scheme ht hs hc halpha =>
    have hget := (getHost_ipv6 hs).1 (h.documented _ (.plain ht (.ipv6 hs))) _ hc
    rw [halpha] at hget
    cases hget
  | port hs hdigits =>
    have hget := ((getHost_tls_ipv6 hs _).1 (h.documented _ (.tls (.ipv6 hs)))).1
    rw [hdigits] at hget
    cases hget
  | userinfo ht ha hz hu _ hip hne =>
    refine hne (h.dialed _ _ ?_ (lookupDials_zone ht ha hz)).symm
    rw [getHost_eq_ok, gateHost_of_parse hu]
    exact hip
  | @bareHost _ _ u a a' ht hu hr h6 ha' hne =>
    refine hne (h.dialed _ _ ?_ ?_)
    · rw [getHost_eq_ok, gateHost_of_parse hu,
        stripBrackets_of_head (URL.head?_ne_bracket h6.chars), hostOf_v6 h6, parseIP_v6 h6]
    · have hdials : (URL.parse s).bind (fun u => if requestable transport u then
          parseAddr (clientHost http3Host transport u.host) else none) = some a' := by
        rw [hu, Option.bind_some, if_pos hr]
        exact ha'
      rcases ht with rfl | rfl <;> exact hdials

/-- The gate finds the address of a documented server, and reads the address that `LookupDNS`
dials, exactly if the text is not one of those that it misreads. -/
theorem agrees_iff (http3Host : List Char → List Char) (hh : HTTP3Host http3Host)
    (transport : Transport) (addrPort : List Char) :
    Agrees http3Host transport addrPort ↔ ¬Misread http3Host transport addrPort := by
  refine ⟨fun h hm => hm.not_agrees h, fun hm => ⟨fun a => getHost_documented hm, ?_⟩⟩
  intro ip a hip hd
  cases transport with
  | udp => exact dialed_plain hm (Or.inl rfl) hip hd
  | tcp => exact dialed_plain hm (Or.inr (Or.inl rfl)) hip hd
  | tls => exact dialed_plain hm (Or.inr (Or.inr rfl)) hip hd
  | http2 => exact dialed_http hh hm (Or.inl rfl) hip hd
  | http3 => exact dialed_http hh hm (Or.inr rfl) hip hd
  | other s => cases hd

/-- The host of an authority. -/
def authorityHost (authority : List Char) : List Char :=
  match splitHostPort authority with
  | .ok (host, _) => host
  | .error _ => URL.stripBrackets authority

theorem http3Host_authorityHost : HTTP3Host authorityHost where
  hostPort authority host port h := by rw [authorityHost, h]
  noPort authority err h := by rw [authorityHost, h]

theorem agrees_iff_dot : Agrees authorityHost .tls "tls://1.1.1.1".toList := by
  refine (agrees_iff authorityHost http3Host_authorityHost .tls _).2 fun hm => ?_
  have hserver : parseAddr "1.1.1.1".toList = some (.v4 [1, 1, 1, 1] rfl) := rfl
  have hrest : ∀ {s}, tlsURLPrefix ++ s = "tls://1.1.1.1".toList → s = "1.1.1.1".toList :=
    fun hs => List.append_cancel_left (hs.trans (by decide))
  generalize hs : "tls://1.1.1.1".toList = s at hm
  generalize ht : Transport.tls = transport at hm
  cases hm with
  | path _ hv4 =>
    rw [← hs] at hv4
    cases hv4.1
  | scheme _ hv6 =>
    rw [← hs] at hv6
    cases hv6.1
  | port hv6 =>
    obtain rfl := hrest hs.symm
    obtain ⟨ha, ip, hl, rfl⟩ := hv6
    cases hserver.symm.trans ha
  | userinfo _ ha hzone =>
    obtain rfl := hrest hs.symm
    cases hserver.symm.trans ha
    exact hzone rfl
  | bareHost hhttp =>
    subst ht
    rcases hhttp with hhttp | hhttp <;> cases hhttp

/-- An address with dots is documented, and the gate does not find it. -/
theorem bare_address_not_found :
    ¬∀ transport addrPort, Agrees authorityHost transport addrPort := by
  intro hall
  have hv4 : IsV4 "1.1.1.1".toList (.v4 [1, 1, 1, 1] rfl) := ⟨by decide, [1, 1, 1, 1], rfl, rfl⟩
  have hm : Misread authorityHost .udp "1.1.1.1".toList := .path (Or.inl rfl) hv4
  exact hm.not_agrees (hall .udp "1.1.1.1".toList)

-- the gate checks 10.0.0.1, and the server that is asked is another
example : (getHost "tls://2606:4700::1111%41@10.0.0.1".toList).toOption =
      some [0, 0, 0, 0, 0, 0, 0, 0, 0, 0, 255, 255, 10, 0, 0, 1] ∧
    (lookupDials authorityHost .tls "tls://2606:4700::1111%41@10.0.0.1".toList).map Addr.bytes =
      some [38, 6, 71, 0, 0, 0, 0, 0, 0, 0, 0, 0, 0, 0, 17, 17] := by decide +kernel

end Main

end CloudPing.Dnsprobe

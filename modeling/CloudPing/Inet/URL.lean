import CloudPing.Inet.AddrText

/-!
# URLs

A URL is read from the left.  The fragment is cut off behind the first `#`, then comes the
scheme up to a colon, then the query is cut off behind the first `?`.  If `//` follows, the
authority goes to the next slash, and the rest is the path.  Behind a scheme without a slash
the rest stays unread (`opaqueText`); without a scheme, the first segment has no colon.

This is the parser of `net/url` in Go 1.25.0.  Texts are sequences of bytes, and a byte is the
character with its number.
-/

namespace Inet

namespace URL

/-! ## Escapes -/

/-- The parts of a URL, which are escaped in different ways. -/
inductive Encoding where
  | path
  | userPassword
  | host
  | zone
  | fragment
  deriving DecidableEq, Repr

def escapedByte (hi lo : Char) : Char :=
  Char.ofNat ((Wire.hexValue hi).getD 0 * 16 + (Wire.hexValue lo).getD 0)

/-- `shouldEscape` for a host. -/
def shouldEscape (c : Char) : Bool :=
  !(c.isAlphanum ||
    c ∈ ['!', '$', '&', '\'', '(', ')', '*', '+', ',', ';', '=', ':', '[', ']', '<', '>', '"'] ||
    c ∈ ['-', '_', '.', '~'])

/-- An escaped byte that may stand in the part.  In a host these are percent signs and what is
not ASCII, and in a zone what need not be escaped in a host. -/
def escapable (mode : Encoding) (hi lo : Char) : Bool :=
  match mode with
  | .host => 8 ≤ (Wire.hexValue hi).getD 0 || (hi == '2' && lo == '5')
  | .zone => (hi == '2' && lo == '5') || escapedByte hi lo == ' ' ||
      !shouldEscape (escapedByte hi lo)
  | _ => true

def unescape (mode : Encoding) : List Char → Option (List Char)
  | [] => some []
  | c :: cs =>
    if c = '%' then
      match cs with
      | hi :: lo :: cs =>
        if isHex hi && isHex lo && escapable mode hi lo then
          (unescape mode cs).map (escapedByte hi lo :: ·)
        else none
      | _ => none
    else if (mode = .host ∨ mode = .zone) ∧ c.toNat < 0x80 ∧ shouldEscape c = true then none
    else (unescape mode cs).map (c :: ·)

/-! ## The authority -/

structure Userinfo where
  username : List Char
  password : Option (List Char)
  deriving DecidableEq, Repr

def validOptionalPort : List Char → Bool
  | [] => true
  | c :: cs => c == ':' && cs.all Char.isDigit

def validUserinfo (s : List Char) : Bool :=
  s.all fun c => c.isAlphanum ||
    c ∈ ['-', '.', '_', ':', '~', '!', '$', '&', '\'', '(', ')', '*', '+', ',', ';', '=', '%', '@']

/-- What stands before the first escaped percent sign, and the text from there on. -/
def cutZone : List Char → Option (List Char × List Char)
  | [] => none
  | c :: cs =>
    if (c :: cs).take 3 = ['%', '2', '5'] then some ([], c :: cs)
    else (cutZone cs).map fun p => (c :: p.1, p.2)

def parseHost (host : List Char) : Option (List Char) :=
  if host.head? = some '[' then
    match splitLast ']' host with
    | none => none
    | some (inner, colonPort) =>
      if validOptionalPort colonPort then
        match cutZone inner with
        | some (host₁, zone) => do
          let host₁ ← unescape .host host₁
          let host₂ ← unescape .zone zone
          let host₃ ← unescape .host (']' :: colonPort)
          pure (host₁ ++ host₂ ++ host₃)
        | none => unescape .host host
      else none
  else
    match splitLast ':' host with
    | none => unescape .host host
    | some (_, port) => if validOptionalPort (':' :: port) then unescape .host host else none

/-- What stands before the first `c`, and behind it. -/
def cut (c : Char) (s : List Char) : List Char × List Char :=
  (s.takeWhile (· ≠ c), (s.dropWhile (· ≠ c)).tail)

def parseUserinfo (userinfo : List Char) : Option Userinfo :=
  if validUserinfo userinfo then
    if ':' ∈ userinfo then do
      let username ← unescape .userPassword (cut ':' userinfo).1
      let password ← unescape .userPassword (cut ':' userinfo).2
      pure ⟨username, some password⟩
    else (unescape .userPassword userinfo).map (⟨·, none⟩)
  else none

def parseAuthority (authority : List Char) : Option (Option Userinfo × List Char) :=
  match splitLast '@' authority with
  | none => (parseHost authority).map fun host => (none, host)
  | some (userinfo, host) => do
    let host ← parseHost host
    let user ← parseUserinfo userinfo
    pure (some user, host)

end URL

/-! ## The whole text -/

structure URL where
  scheme : List Char := []
  opaqueText : List Char := []
  user : Option URL.Userinfo := none
  host : List Char := []
  path : List Char := []
  rawQuery : List Char := []
  fragment : List Char := []
  deriving DecidableEq, Repr

namespace URL

def isCTL (c : Char) : Bool := c < ' ' || c == Char.ofNat 0x7f

/-- Behind the characters `before` of a scheme. -/
def scanScheme (rawURL before : List Char) : List Char → Option (List Char × List Char)
  | [] => some ([], rawURL)
  | c :: cs =>
    if c.isAlpha then scanScheme rawURL (before ++ [c]) cs
    else if c.isDigit ∨ c = '+' ∨ c = '-' ∨ c = '.' then
      if before = [] then some ([], rawURL) else scanScheme rawURL (before ++ [c]) cs
    else if c = ':' then if before = [] then none else some (before, cs)
    else some ([], rawURL)

/-- The scheme and what stands behind it, `none` where a scheme is missing. -/
def getScheme (rawURL : List Char) : Option (List Char × List Char) := scanScheme rawURL [] rawURL

def setPath (u : URL) (p : List Char) : Option URL :=
  (unescape .path p).map fun path => { u with path := path }

def setFragment (u : URL) (f : List Char) : Option URL :=
  (unescape .fragment f).map fun fragment => { u with fragment := fragment }

/-- What stands behind the scheme, less the query. -/
def parseHier (u : URL) (rest : List Char) : Option URL :=
  if rest.head? ≠ some '/' ∧ u.scheme ≠ [] then some { u with opaqueText := rest }
  else if rest.head? ≠ some '/' ∧ ':' ∈ (cut '/' rest).1 then none
  else
    match rest with
    | '/' :: '/' :: authority =>
      -- three slashes without a scheme begin a path
      if u.scheme = [] ∧ authority.head? = some '/' then setPath u rest
      else
        (parseAuthority (authority.takeWhile (· ≠ '/'))).bind fun p =>
          setPath { u with user := p.1, host := p.2 } (authority.dropWhile (· ≠ '/'))
    | _ => setPath u rest

/-- A URL without its fragment. -/
def parseNoFragment (rawURL : List Char) : Option URL :=
  if rawURL.any isCTL then none
  else if rawURL = ['*'] then some { path := ['*'] }
  else
    (getScheme rawURL).bind fun p =>
      parseHier { scheme := p.1.map Char.toLower, rawQuery := (cut '?' p.2).2 } (cut '?' p.2).1

/-- `url.Parse`. -/
def parse (rawURL : List Char) : Option URL :=
  (parseNoFragment (cut '#' rawURL).1).bind fun u =>
    if (cut '#' rawURL).2 = [] then some u else u.setFragment (cut '#' rawURL).2

example : (parse "https://[2001:db8::1]:8443/dns-query?x#y".toList).map URL.host =
    some "[2001:db8::1]:8443".toList := by decide +kernel
example : (parse "1.1.1.1".toList).map URL.host = some [] := by decide +kernel
example : parse "1.1.1.1:53".toList = none := by decide +kernel

/-- `removeEmptyPort`, which takes off a colon at the end behind which there is no port. -/
def removeEmptyPort (host : List Char) : List Char :=
  let behind := ((splitLast ']' host).map Prod.snd).getD host
  if ':' ∈ behind ∧ host.getLast? = some ':' then host.dropLast else host

/-- The host less the brackets around it. -/
def stripBrackets (host : List Char) : List Char :=
  match host with
  | '[' :: inner => if inner.getLast? = some ']' then inner.dropLast else host
  | _ => host

/-- `URL.Hostname`: without a port and without brackets. -/
def hostname (host : List Char) : List Char :=
  match splitLast ':' host with
  | some (before, port) => stripBrackets (if port.all Char.isDigit then before else host)
  | none => stripBrackets host

/-! ## Characters that stand for themselves -/

theorem isAlpha_iff {c : Char} : c.isAlpha = true ↔
    (65 ≤ c.toNat ∧ c.toNat ≤ 90) ∨ (97 ≤ c.toNat ∧ c.toNat ≤ 122) := by
  have h : c.isAlpha = (decide ('A'.val ≤ c.val ∧ c.val ≤ 'Z'.val) ||
    (decide ('a'.val ≤ c.val) && decide (c.val ≤ 'z'.val))) := rfl
  rw [h, Bool.or_eq_true, Bool.and_eq_true, decide_eq_true_eq, decide_eq_true_eq,
    decide_eq_true_eq]
  rfl

theorem isDigit_iff {c : Char} : c.isDigit = true ↔ 48 ≤ c.toNat ∧ c.toNat ≤ 57 := by
  have h : c.isDigit = (decide ('0'.val ≤ c.val) && decide (c.val ≤ '9'.val)) := rfl
  rw [h, Bool.and_eq_true, decide_eq_true_eq, decide_eq_true_eq]
  rfl

theorem isAlphanum_iff {c : Char} : c.isAlphanum = true ↔ c.isAlpha = true ∨ c.isDigit = true :=
  (Bool.or_eq_true _ _).to_iff

theorem isAlphanum_of_isHex {c : Char} (h : isHex c = true) : c.isAlphanum = true := by
  rw [isHex, Wire.hexValue] at h
  split_ifs at h with hd hl hu
  · exact isAlphanum_iff.2 (Or.inr hd)
  · have hle : c ≤ 'z' := Char.le_trans hl.2 (by decide)
    exact isAlphanum_iff.2 (Or.inl (isAlpha_iff.2 (Or.inr ⟨hl.1, hle⟩)))
  · have hle : c ≤ 'Z' := Char.le_trans hu.2 (by decide)
    exact isAlphanum_iff.2 (Or.inl (isAlpha_iff.2 (Or.inl ⟨hu.1, hle⟩)))
  · cases h

theorem addrChar_ne {c d : Char} (h : IsAddrChar c) (hd : isHex d = false) (hcolon : d ≠ ':')
    (hdot : d ≠ '.') : c ≠ d := by
  rintro rfl
  rcases h with h | h | h
  · rw [hd] at h
    cases h
  · exact hcolon h
  · exact hdot h

/-- The characters of an address are not escaped in a host. -/
theorem shouldEscape_of_addrChar {c : Char} (h : IsAddrChar c) : shouldEscape c = false := by
  rcases h with h | rfl | rfl
  · rw [shouldEscape, isAlphanum_of_isHex h]
    rfl
  · decide
  · decide

/-- The characters of a host that is unescaped as itself. -/
def Plain (c : Char) : Prop := c ≠ '%' ∧ shouldEscape c = false

theorem plain_of_addrChar {c : Char} (h : IsAddrChar c) : Plain c :=
  ⟨addrChar_ne h (by decide) (by decide) (by decide), shouldEscape_of_addrChar h⟩

theorem unescape_cons {mode : Encoding} {c : Char} (h : c ≠ '%') (s : List Char) :
    unescape mode (c :: s) =
      if (mode = .host ∨ mode = .zone) ∧ c.toNat < 0x80 ∧ shouldEscape c = true then none
      else (unescape mode s).map (c :: ·) := by
  rw [unescape.eq_def]
  exact if_neg h

theorem unescape_host_plain {s : List Char} (h : ∀ c ∈ s, Plain c) : unescape .host s = some s := by
  induction s with
  | nil => rfl
  | cons c s ih =>
    obtain ⟨hpercent, hkept⟩ := h c List.mem_cons_self
    rw [unescape_cons hpercent, hkept, if_neg (by simp),
      ih fun d hd => h d (List.mem_cons_of_mem c hd)]
    rfl

theorem unescape_path_plain {s : List Char} (h : '%' ∉ s) : unescape .path s = some s := by
  induction s with
  | nil => rfl
  | cons c s ih =>
    rw [List.mem_cons, not_or] at h
    rw [unescape_cons (Ne.symm h.1), if_neg (by simp), ih h.2]
    rfl

/-! ## The scheme -/

/-- A character of a scheme behind its first letter. -/
def SchemeChar (c : Char) : Prop := c.isAlphanum = true ∨ c = '+' ∨ c = '-' ∨ c = '.'

instance (c : Char) : Decidable (SchemeChar c) := inferInstanceAs (Decidable (_ ∨ _))

theorem schemeChars_of_all {cs : List Char} (h : cs.all Char.isAlphanum = true) :
    ∀ c ∈ cs, SchemeChar c := fun c hc => Or.inl (List.all_eq_true.1 h c hc)

theorem scanScheme_scheme {rawURL before scheme rest : List Char} (hbefore : before ≠ [])
    (h : ∀ c ∈ scheme, SchemeChar c) :
    scanScheme rawURL before (scheme ++ ':' :: rest) = some (before ++ scheme, rest) := by
  induction scheme generalizing before with
  | nil =>
    rw [List.nil_append, scanScheme, if_neg (by decide), if_neg (by decide), if_pos rfl,
      if_neg hbefore, List.append_nil]
  | cons c scheme ih =>
    have hc := h c List.mem_cons_self
    have hnil : before ++ [c] ≠ [] := by simp
    have hnext := ih hnil fun d hd => h d (List.mem_cons_of_mem c hd)
    rw [List.append_assoc, List.singleton_append] at hnext
    rw [List.cons_append, scanScheme]
    split_ifs with halpha hdigit hcolon
    · exact hnext
    · exact hnext
    · subst hcolon
      exact absurd hc (by decide)
    · rcases hc with hc | hc
      · rw [isAlphanum_iff] at hc
        exact absurd hc fun hc => hc.elim halpha fun hd => hdigit (Or.inl hd)
      · exact absurd (Or.inr hc) hdigit

theorem getScheme_scheme {c : Char} {cs rest : List Char} (hc : c.isAlpha = true)
    (hcs : ∀ d ∈ cs, SchemeChar d) :
    getScheme (c :: cs ++ ':' :: rest) = some (c :: cs, rest) := by
  rw [getScheme, List.cons_append, scanScheme, if_pos hc,
    scanScheme_scheme (by simp) hcs, List.nil_append, List.singleton_append]

theorem getScheme_colon (s : List Char) : getScheme (':' :: s) = none := by
  rw [getScheme, scanScheme, if_neg (by decide), if_neg (by decide), if_pos rfl, if_pos rfl]

/-- A text that begins with neither a letter nor a colon has no scheme. -/
theorem getScheme_no_scheme {c : Char} {s : List Char} (hc : c.isAlpha = false) (hcolon : c ≠ ':') :
    getScheme (c :: s) = some ([], c :: s) := by
  rw [getScheme, scanScheme, hc, if_neg Bool.false_ne_true, if_neg hcolon, if_pos rfl, ite_self]

theorem scanScheme_eq_some {rawURL before s scheme rest : List Char} (hc : ':' ∉ before)
    (h : scanScheme rawURL before s = some (scheme, rest)) :
    (scheme = [] ∧ rest = rawURL) ∨ (before ++ s = scheme ++ ':' :: rest ∧ ':' ∉ scheme) := by
  induction s generalizing before with
  | nil =>
    cases h
    exact Or.inl ⟨rfl, rfl⟩
  | cons c s ih =>
    have hnext : c ≠ ':' → scanScheme rawURL (before ++ [c]) s = some (scheme, rest) →
        (scheme = [] ∧ rest = rawURL) ∨
          (before ++ c :: s = scheme ++ ':' :: rest ∧ ':' ∉ scheme) := by
      intro hne hscan
      have hnot : ':' ∉ before ++ [c] := by simp [hc, Ne.symm hne]
      have := ih hnot hscan
      rwa [List.append_assoc, List.singleton_append] at this
    rw [scanScheme] at h
    split_ifs at h with halpha hdigit hnil hcolon hnil'
    · refine hnext ?_ h
      rintro rfl
      exact absurd halpha (by decide)
    · cases h
      exact Or.inl ⟨rfl, rfl⟩
    · refine hnext ?_ h
      rintro rfl
      exact absurd hdigit (by decide)
    · cases h
      exact Or.inr ⟨by rw [hcolon], hc⟩
    · cases h
      exact Or.inl ⟨rfl, rfl⟩

theorem getScheme_eq_some {s scheme rest : List Char} (h : getScheme s = some (scheme, rest)) :
    (scheme = [] ∧ rest = s) ∨ (s = scheme ++ ':' :: rest ∧ ':' ∉ scheme) :=
  scanScheme_eq_some List.not_mem_nil h

/-! ## The parts of a text -/

/-- A character that ends an authority. -/
def endsAuthority (c : Char) : Bool := c = '/' || c = '?' || c = '#'

theorem cut_fst_append {c : Char} {s t : List Char} (h : c ∉ s) :
    (cut c (s ++ t)).1 = s ++ (cut c t).1 :=
  List.takeWhile_append_of_pos fun d hd => by
    simpa using fun heq : d = c => h (heq ▸ hd)

theorem cut_snd_append {c : Char} {s t : List Char} (h : c ∉ s) :
    (cut c (s ++ t)).2 = (cut c t).2 := by
  rw [cut, cut, List.dropWhile_append_of_pos fun d hd => by
    simpa using fun heq : d = c => h (heq ▸ hd)]

theorem setPath_eq_some {u v : URL} {p : List Char} (h : setPath u p = some v) :
    v.user = u.user ∧ v.host = u.host ∧ v.scheme = u.scheme := by
  obtain ⟨path, _, rfl⟩ := Option.map_eq_some_iff.1 h
  exact ⟨rfl, rfl, rfl⟩

/-- Where the text of a URL comes from a scheme and `//`, the authority is read from what
follows. -/
theorem parseHier_authority {u v : URL} {rest : List Char}
    (h : parseHier u ('/' :: '/' :: rest) = some v) (hs : u.scheme ≠ []) :
    parseAuthority (rest.takeWhile (· ≠ '/')) = some (v.user, v.host) ∧ v.scheme = u.scheme := by
  rw [parseHier, if_neg (by simp), if_neg (by simp)] at h
  simp only [hs, false_and, if_false] at h
  obtain ⟨p, hp, hv⟩ := Option.bind_eq_some_iff.1 h
  obtain ⟨huser, hhost, hscheme⟩ := setPath_eq_some hv
  rw [hp, huser, hhost]
  exact ⟨rfl, hscheme⟩

theorem parse_eq_some {rawURL : List Char} {u : URL} (h : parse rawURL = some u) :
    ∃ v, parseNoFragment (cut '#' rawURL).1 = some v ∧ u.user = v.user ∧ u.host = v.host ∧
      u.scheme = v.scheme := by
  obtain ⟨v, hv, hu⟩ := Option.bind_eq_some_iff.1 h
  refine ⟨v, hv, ?_⟩
  split_ifs at hu
  · cases hu
    exact ⟨rfl, rfl, rfl⟩
  · obtain ⟨fragment, _, rfl⟩ := Option.map_eq_some_iff.1 hu
    exact ⟨rfl, rfl, rfl⟩

theorem parseNoFragment_eq_some {rawURL : List Char} {u : URL}
    (h : parseNoFragment rawURL = some u) (hne : rawURL ≠ ['*']) :
    ∃ scheme rest, getScheme rawURL = some (scheme, rest) ∧
      parseHier { scheme := scheme.map Char.toLower, rawQuery := (cut '?' rest).2 }
        (cut '?' rest).1 = some u := by
  rw [parseNoFragment, if_neg hne] at h
  split_ifs at h
  obtain ⟨p, hp, hu⟩ := Option.bind_eq_some_iff.1 h
  exact ⟨p.1, p.2, hp, hu⟩

theorem head?_of_cut {c d : Char} {s : List Char} (h : (cut c s).1.head? = some d) :
    s.head? = some d := by
  cases s with
  | nil => cases h
  | cons e s =>
    by_cases he : e = c
    · rw [cut, List.takeWhile_cons_of_neg (by simpa using he)] at h
      cases h
    · rwa [cut, List.takeWhile_cons_of_pos (by simpa using he)] at h

/-- The authority of a URL is what follows `//`, up to the next mark. -/
theorem parse_authority (c : Char) (cs : List Char) {rest : List Char} {u : URL} (hc : c.isAlpha = true)
    (hcs : ∀ d ∈ cs, SchemeChar d)
    (h : parse (c :: cs ++ ':' :: '/' :: '/' :: rest) = some u) :
    parseAuthority (rest.takeWhile fun c => !endsAuthority c) = some (u.user, u.host) ∧
      u.scheme = (c :: cs).map Char.toLower := by
  obtain ⟨v, hv, huser, hhost, hscheme⟩ := parse_eq_some h
  have hmark : '#' ∉ c :: cs ++ [':', '/', '/'] := by
    simp only [List.mem_append, List.mem_cons, List.not_mem_nil, or_false, not_or]
    refine ⟨⟨?_, fun hm => ?_⟩, by decide, by decide, by decide⟩
    · rintro rfl
      exact absurd hc (by decide)
    · exact absurd (hcs _ hm) (by decide)
  have hcut : (cut '#' (c :: cs ++ ':' :: '/' :: '/' :: rest)).1 =
      c :: cs ++ ':' :: '/' :: '/' :: (cut '#' rest).1 := by
    have := cut_fst_append (t := rest) hmark
    rwa [List.append_assoc, List.append_assoc] at this
  have hquery : (cut '?' ('/' :: '/' :: (cut '#' rest).1)).1 =
      '/' :: '/' :: (cut '?' (cut '#' rest).1).1 :=
    cut_fst_append (s := ['/', '/']) (by decide)
  rw [hcut] at hv
  obtain ⟨scheme, rest', hget, hv⟩ := parseNoFragment_eq_some hv (by simp)
  cases (getScheme_scheme hc hcs).symm.trans hget
  rw [hquery] at hv
  obtain ⟨hauthority, hscheme'⟩ := parseHier_authority hv (by simp)
  refine ⟨?_, hscheme.trans hscheme'⟩
  rw [huser, hhost, ← hauthority, cut, cut, List.takeWhile_takeWhile, List.takeWhile_takeWhile]
  refine congrArg (fun p => parseAuthority (rest.takeWhile p)) ?_
  funext d
  simp [endsAuthority, Bool.and_assoc]

theorem parseHier_no_slash {u : URL} {rest : List Char} (h : rest.head? ≠ some '/') :
    parseHier u rest =
      if u.scheme ≠ [] then some { u with opaqueText := rest }
      else if ':' ∈ (cut '/' rest).1 then none
      else setPath u rest := by
  unfold parseHier
  simp only [h, ne_eq, not_false_eq_true, true_and]
  split
  · rfl
  · split
    · rfl
    · split
      next => exact absurd rfl h
      next => rfl

/-- Without `//` at the start or behind the first colon a URL has no host. -/
theorem host_of_parse {rawURL : List Char} {u : URL} (h : parse rawURL = some u)
    (hslash : rawURL.head? ≠ some '/')
    (hcolon : ∀ scheme rest, ':' ∉ scheme → rawURL ≠ scheme ++ ':' :: '/' :: rest) :
    u.host = [] := by
  obtain ⟨v, hv, _, hhost, _⟩ := parse_eq_some h
  rw [hhost]
  by_cases hstar : (cut '#' rawURL).1 = ['*']
  · rw [hstar] at hv
    cases hv
    rfl
  · obtain ⟨scheme, rest, hscheme, hv⟩ := parseNoFragment_eq_some hv hstar
    have hhead : (cut '?' rest).1.head? ≠ some '/' := by
      intro hhead
      have hrest := head?_of_cut hhead
      rcases getScheme_eq_some hscheme with ⟨_, rfl⟩ | ⟨heq, hc⟩
      · exact hslash (head?_of_cut hrest)
      · obtain ⟨rest', rfl⟩ := List.head?_eq_some_iff.1 hrest
        have hraw := List.takeWhile_append_dropWhile (p := (· ≠ '#')) (l := rawURL)
        have hcut : rawURL.takeWhile (· ≠ '#') = scheme ++ ':' :: '/' :: rest' := heq
        rw [hcut, List.append_assoc] at hraw
        exact hcolon scheme _ hc hraw.symm
    rw [parseHier_no_slash hhead] at hv
    split_ifs at hv
    · cases hv
      rfl
    · exact (setPath_eq_some hv).2.1

/-! ## Texts that are parsed -/

/-- What stands behind the authority of a URL. -/
structure Tail where
  path : List Char
  query : Option (List Char)
  fragment : Option (List Char)
  path_head : path ≠ [] → path.head? = some '/'
  path_chars : ∀ c ∈ path, isCTL c = false ∧ c ≠ '?' ∧ c ≠ '#'
  path_escapes : (unescape .path path).isSome = true
  query_chars : ∀ q ∈ query, ∀ c ∈ q, isCTL c = false ∧ c ≠ '#'
  fragment_escapes : ∀ f ∈ fragment, (unescape .fragment f).isSome = true

namespace Tail

def withoutFragment (t : Tail) : List Char := t.path ++ (t.query.map ('?' :: ·)).getD []

def text (t : Tail) : List Char := t.withoutFragment ++ (t.fragment.map ('#' :: ·)).getD []

/-- Nothing. -/
def none : Tail where
  path := []
  query := .none
  fragment := .none
  path_head h := absurd rfl h
  path_chars _ hc := absurd hc List.not_mem_nil
  path_escapes := rfl
  query_chars q hq := absurd hq (Option.not_mem_none q)
  fragment_escapes f hf := absurd hf (Option.not_mem_none f)

@[simp] theorem text_none : none.text = [] := rfl

theorem chars_withoutFragment (t : Tail) :
    ∀ c ∈ t.withoutFragment, isCTL c = false ∧ c ≠ '#' := by
  intro c hc
  rcases List.mem_append.1 hc with hc | hc
  · obtain ⟨hctl, _, hmark⟩ := t.path_chars c hc
    exact ⟨hctl, hmark⟩
  · cases hq : t.query with
    | none =>
      rw [hq] at hc
      exact absurd hc List.not_mem_nil
    | some q =>
      rw [hq] at hc
      rcases List.mem_cons.1 hc with rfl | hc
      · decide
      · exact t.query_chars q hq c hc

end Tail

/-- A character of an authority. -/
def IsAuthorityChar (c : Char) : Prop := isCTL c = false ∧ endsAuthority c = false

theorem mark_not_mem {s : List Char} (h : ∀ d ∈ s, IsAuthorityChar d) {m : Char}
    (hm : endsAuthority m = true) : m ∉ s := fun hmem => by
  rw [(h m hmem).2] at hm
  cases hm

theorem setPath_of_isSome {p : List Char} (h : (unescape .path p).isSome = true) (u : URL) :
    ∃ path, setPath u p = some { u with path := path } := by
  obtain ⟨path, hp⟩ := Option.isSome_iff_exists.1 h
  exact ⟨path, by rw [setPath, hp]; rfl⟩

theorem takeWhile_append_slash {authority path : List Char} (h : '/' ∉ authority)
    (hp : path ≠ [] → path.head? = some '/') :
    (authority ++ path).takeWhile (· ≠ '/') = authority ∧
      (authority ++ path).dropWhile (· ≠ '/') = path := by
  have hall : ∀ d ∈ authority, decide (d ≠ '/') = true := fun d hd =>
    decide_eq_true fun heq => h (heq ▸ hd)
  rw [List.takeWhile_append_of_pos hall, List.dropWhile_append_of_pos hall]
  cases path with
  | nil => exact ⟨List.append_nil _, rfl⟩
  | cons c path =>
    cases hp (by simp)
    exact ⟨List.append_nil _, rfl⟩

theorem isCTL_of_schemeChar {c : Char} (h : SchemeChar c) : isCTL c = false := by
  rcases h with h | rfl | rfl | rfl
  case inr.inl => decide
  case inr.inr.inl => decide
  case inr.inr.inr => decide
  by_contra hctl
  rw [Bool.not_eq_false, isCTL, Bool.or_eq_true, decide_eq_true_eq, beq_iff_eq] at hctl
  rcases hctl with hlt | rfl
  · have hlt : c.toNat < 32 := hlt
    rw [isAlphanum_iff, isAlpha_iff, isDigit_iff] at h
    omega
  · exact absurd h (by decide)

theorem cut_mark {c : Char} {s : List Char} (h : c ∉ s) (o : Option (List Char)) :
    cut c (s ++ (o.map (c :: ·)).getD []) = (s, o.getD []) := by
  rw [Prod.ext_iff]
  dsimp only
  rw [cut_fst_append h, cut_snd_append h]
  cases o with
  | none => exact ⟨List.append_nil s, rfl⟩
  | some t => simp [cut]

/-- Behind a scheme, an authority and a path. -/
theorem parseHier_text {u : URL} {authority path host : List Char} {user : Option Userinfo}
    (hs : u.scheme ≠ []) (hauthority : '/' ∉ authority) (hhead : path ≠ [] → path.head? = some '/')
    (hpath : (unescape .path path).isSome = true)
    (h : parseAuthority authority = some (user, host)) :
    ∃ v, parseHier u ('/' :: '/' :: (authority ++ path)) = some v ∧
      v.host = host ∧ v.user = user ∧ v.scheme = u.scheme := by
  obtain ⟨htake, hdrop⟩ := takeWhile_append_slash hauthority hhead
  obtain ⟨path', hpath'⟩ := setPath_of_isSome hpath { u with user := user, host := host }
  rw [parseHier, if_neg (by simp), if_neg (by simp)]
  simp only [hs, false_and, if_false, htake, hdrop, h, Option.bind_some, hpath']
  exact ⟨_, rfl, rfl, rfl, rfl⟩

/-- The text of a URL with an authority is parsed, if its authority is. -/
theorem parse_text (c : Char) (cs : List Char) {authority host : List Char}
    {user : Option Userinfo} (hc : c.isAlpha = true) (hcs : ∀ d ∈ cs, SchemeChar d)
    (hchars : ∀ d ∈ authority, IsAuthorityChar d) (t : Tail)
    (h : parseAuthority authority = some (user, host)) :
    ∃ u, parse (c :: cs ++ ':' :: '/' :: '/' :: (authority ++ t.text)) = some u ∧
      u.host = host ∧ u.user = user ∧ u.scheme = (c :: cs).map Char.toLower := by
  have hnot : ∀ {m : Char}, endsAuthority m = true → m ∉ authority := mark_not_mem hchars
  have hscheme : ∀ d ∈ c :: cs, SchemeChar d := by
    intro d hd
    rcases List.mem_cons.1 hd with rfl | hd
    · refine Or.inl ?_
      exact isAlphanum_iff.2 (Or.inl hc)
    · exact hcs d hd
  have hbefore : ∀ d ∈ c :: cs ++ ':' :: '/' :: '/' :: (authority ++ t.withoutFragment),
      isCTL d = false ∧ d ≠ '#' := by
    intro d hd
    rcases List.mem_append.1 hd with hd | hd
    · refine ⟨isCTL_of_schemeChar (hscheme d hd), ?_⟩
      rintro rfl
      exact absurd (hscheme _ hd) (by decide)
    · simp only [List.mem_cons, List.mem_append] at hd
      rcases hd with rfl | rfl | rfl | hd | hd
      · decide
      · decide
      · decide
      · refine ⟨(hchars d hd).1, ?_⟩
        rintro rfl
        exact hnot (by decide) hd
      · exact t.chars_withoutFragment d hd
  have hcut := cut_mark (fun hd => (hbefore _ hd).2 rfl) t.fragment
  have hquery := cut_mark (c := '?') (s := '/' :: '/' :: (authority ++ t.path)) (by
    simp only [List.mem_cons, List.mem_append, not_or]
    exact ⟨by decide, by decide, hnot (by decide), fun hd => (t.path_chars _ hd).2.1 rfl⟩) t.query
  obtain ⟨v, hv, hhost, huser, hvscheme⟩ := parseHier_text
    (u := { scheme := (c :: cs).map Char.toLower, rawQuery := t.query.getD [] })
    (by simp) (hnot (by decide)) t.path_head t.path_escapes h
  have hparse : parseNoFragment
      (c :: cs ++ ':' :: '/' :: '/' :: (authority ++ t.withoutFragment)) = some v := by
    have hctl : ¬(c :: cs ++ ':' :: '/' :: '/' :: (authority ++ t.withoutFragment)).any isCTL := by
      simp only [List.any_eq_true, not_exists, not_and]
      intro d hd
      rw [(hbefore d hd).1]
      exact Bool.false_ne_true
    have hrest : '/' :: '/' :: (authority ++ t.withoutFragment) =
        '/' :: '/' :: (authority ++ t.path) ++ (t.query.map ('?' :: ·)).getD [] := by
      simp [Tail.withoutFragment]
    rw [parseNoFragment, if_neg hctl, if_neg (by simp), getScheme_scheme hc hcs,
      Option.bind_some, hrest, hquery]
    exact hv
  have htext : c :: cs ++ ':' :: '/' :: '/' :: (authority ++ t.text) =
      c :: cs ++ ':' :: '/' :: '/' :: (authority ++ t.withoutFragment) ++
        (t.fragment.map ('#' :: ·)).getD [] := by
    simp [Tail.text]
  rw [htext, parse, hcut]
  simp only [hparse, Option.bind_some]
  cases hf : t.fragment with
  | none => exact ⟨v, rfl, hhost, huser, hvscheme⟩
  | some f =>
    obtain ⟨fragment, hfragment⟩ := Option.isSome_iff_exists.1 (t.fragment_escapes f hf)
    rw [Option.getD_some]
    split_ifs
    · exact ⟨v, rfl, hhost, huser, hvscheme⟩
    · exact ⟨{ v with fragment := fragment }, by rw [setFragment, hfragment]; rfl, hhost, huser,
        hvscheme⟩

/-! ## Texts without an authority -/

theorem cut_of_not_mem {c : Char} {s : List Char} (h : c ∉ s) : cut c s = (s, []) := by
  have hcut := cut_mark h none
  rwa [Option.map_none, Option.getD_none, List.append_nil] at hcut

/-- A text without marks is read as it is. -/
theorem parse_of_no_mark {s : List Char} (h : ∀ d ∈ s, IsAuthorityChar d) (hne : s ≠ ['*']) :
    parse s = (getScheme s).bind fun p =>
      parseHier { scheme := p.1.map Char.toLower, rawQuery := (cut '?' p.2).2 }
        (cut '?' p.2).1 := by
  have hnot : ∀ {m : Char}, endsAuthority m = true → m ∉ s := mark_not_mem h
  have hctl : ¬s.any isCTL := by
    simp only [List.any_eq_true, not_exists, not_and]
    intro d hd
    rw [(h d hd).1]
    exact Bool.false_ne_true
  rw [parse, cut_of_not_mem (hnot (by decide)), parseNoFragment, if_neg hctl, if_neg hne]
  simp only [if_true, Option.bind_fun_some]

/-- Without a scheme the first segment has no colon. -/
theorem parse_eq_none {c : Char} {s : List Char} (hc : c.isAlpha = false)
    (hchars : ∀ d ∈ c :: s, IsAuthorityChar d) (hcolon : ':' ∈ c :: s) : parse (c :: s) = none := by
  have hnot : ∀ {m : Char}, endsAuthority m = true → m ∉ c :: s := mark_not_mem hchars
  have hne : c :: s ≠ ['*'] := fun heq => absurd hcolon (by rw [heq]; decide)
  rw [parse_of_no_mark hchars hne]
  by_cases hstart : c = ':'
  · rw [hstart, getScheme_colon]
    rfl
  · have hslash : (c :: s).head? ≠ some '/' := fun heq =>
      hnot (m := '/') (by decide) (List.mem_of_mem_head? heq)
    rw [getScheme_no_scheme hc hstart, Option.bind_some, cut_of_not_mem (hnot (by decide)),
      parseHier_no_slash hslash, if_neg (by simp), cut_of_not_mem (hnot (by decide)), if_pos hcolon]

/-- Without a colon a text is a path. -/
theorem parse_path {c : Char} {s : List Char} (hc : c.isAlpha = false)
    (hchars : ∀ d ∈ c :: s, IsAuthorityChar d) (hcolon : ':' ∉ c :: s) (hpercent : '%' ∉ c :: s)
    (hstar : c ≠ '*') : ∃ u, parse (c :: s) = some u ∧ u.host = [] := by
  have hnot : ∀ {m : Char}, endsAuthority m = true → m ∉ c :: s := mark_not_mem hchars
  have hslash : (c :: s).head? ≠ some '/' := fun heq =>
    hnot (m := '/') (by decide) (List.mem_of_mem_head? heq)
  have hstart : c ≠ ':' := fun heq => hcolon (heq ▸ List.mem_cons_self)
  rw [parse_of_no_mark hchars fun heq => hstar (List.cons.inj heq).1, getScheme_no_scheme hc hstart,
    Option.bind_some, cut_of_not_mem (hnot (by decide)), parseHier_no_slash hslash,
    if_neg (by simp), cut_of_not_mem (hnot (by decide)), if_neg hcolon, setPath,
    unescape_path_plain hpercent]
  exact ⟨_, rfl, rfl⟩

/-- What stands behind a scheme without a slash has no host. -/
theorem parse_opaque {c : Char} {cs rest : List Char} (hc : c.isAlpha = true)
    (hcs : ∀ d ∈ cs, SchemeChar d)
    (hchars : ∀ d ∈ c :: cs ++ ':' :: rest, IsAuthorityChar d) :
    ∃ u, parse (c :: cs ++ ':' :: rest) = some u ∧ u.host = [] := by
  have hnot : ∀ {m : Char}, endsAuthority m = true → m ∉ rest := mark_not_mem fun d hd =>
    hchars d (List.mem_append_right _ (List.mem_cons_of_mem _ hd))
  have hslash : rest.head? ≠ some '/' := fun heq =>
    hnot (m := '/') (by decide) (List.mem_of_mem_head? heq)
  rw [parse_of_no_mark hchars (by simp), getScheme_scheme hc hcs, Option.bind_some,
    cut_of_not_mem (hnot (by decide)), parseHier_no_slash hslash, if_pos (by simp)]
  exact ⟨_, rfl, rfl⟩

end URL

end Inet

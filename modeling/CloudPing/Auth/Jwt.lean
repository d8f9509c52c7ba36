import CloudPing.Raw.Types
import CloudPing.Wire.PrefixCodec
import CloudPing.Wire.Result

/-!
# Tokens

The issuer and the validator of `pkg/auth/jwt.go` and the nonce issuer of
`pkg/auth/nonce.go`.  Both issuers sign with one key and one method.  A token is told from
a nonce only by the claims that its parser looks at, and the parser of tokens asks for none
of the claims that a nonce lacks.

The JWT library is a parameter (`JWT`): it signs a JSON object, and it gives back the
object of a string whose signature verifies.  More than one string can verify to an object that was
signed once (`respells`): the last character of base64 has bits that are not read.  Its checks of
`exp` and `nbf` are modelled here.  Dates are whole seconds, as in the JSON.
-/

namespace CloudPing.Auth

/-! ## Claims -/

/-- A value in the JSON object of a token. -/
inductive ClaimValue where
  | str (s : String)
  | strs (l : List String)
  | num (n : Int)
  deriving DecidableEq, Repr

/-- `jwt.MapClaims`, the JSON object of a token. -/
abbrev MapClaims := List (String × ClaimValue)

structure RegisteredClaims where
  issuer : String := ""
  subject : String := ""
  audience : List String := []
  expiresAt : Option Int := none
  notBefore : Option Int := none
  issuedAt : Option Int := none
  id : String := ""
  deriving DecidableEq, Repr

structure CustomClaimType extends RegisteredClaims where
  username : String := ""
  deriving DecidableEq, Repr

structure NonceClaimType extends RegisteredClaims where
  randomValue : String := ""
  deriving DecidableEq, Repr

/-- A text field with `omitempty`. -/
def strClaim (key s : String) : MapClaims := if s = "" then [] else [(key, .str s)]

def strsClaim (key : String) (l : List String) : MapClaims :=
  if l = [] then [] else [(key, .strs l)]

def dateClaim (key : String) (d : Option Int) : MapClaims := (d.map fun n => (key, .num n)).toList

def RegisteredClaims.encode (c : RegisteredClaims) : MapClaims :=
  strClaim "iss" c.issuer ++ (strClaim "sub" c.subject ++ (strsClaim "aud" c.audience ++
    (dateClaim "exp" c.expiresAt ++ (dateClaim "nbf" c.notBefore ++
      (dateClaim "iat" c.issuedAt ++ strClaim "jti" c.id)))))

def CustomClaimType.encode (c : CustomClaimType) : MapClaims :=
  c.toRegisteredClaims.encode ++ strClaim "username" c.username

def NonceClaimType.encode (c : NonceClaimType) : MapClaims :=
  c.toRegisteredClaims.encode ++ [("random_value", .str c.randomValue)]

def decodeErr : String := "could not JSON decode claim"

def getStr (m : MapClaims) (key : String) : Except String String :=
  match m.lookup key with
  | none => .ok ""
  | some (.str s) => .ok s
  | some _ => .error decodeErr

def getDate (m : MapClaims) (key : String) : Except String (Option Int) :=
  match m.lookup key with
  | none => .ok none
  | some (.num n) => .ok (some n)
  | some _ => .error decodeErr

/-- `ClaimStrings`: one text, or a list of them. -/
def getStrings (m : MapClaims) (key : String) : Except String (List String) :=
  match m.lookup key with
  | none => .ok []
  | some (.str s) => .ok [s]
  | some (.strs l) => .ok l
  | some (.num _) => .error decodeErr

/-- A claim that is not a field is ignored. -/
def RegisteredClaims.decode (m : MapClaims) : Except String RegisteredClaims := do
  let issuer ← getStr m "iss"
  let subject ← getStr m "sub"
  let audience ← getStrings m "aud"
  let expiresAt ← getDate m "exp"
  let notBefore ← getDate m "nbf"
  let issuedAt ← getDate m "iat"
  let id ← getStr m "jti"
  pure { issuer, subject, audience, expiresAt, notBefore, issuedAt, id }

def CustomClaimType.decode (m : MapClaims) : Except String CustomClaimType := do
  let registered ← RegisteredClaims.decode m
  let username ← getStr m "username"
  pure { registered with username }

def NonceClaimType.decode (m : MapClaims) : Except String NonceClaimType := do
  let registered ← RegisteredClaims.decode m
  let randomValue ← getStr m "random_value"
  pure { registered with randomValue }

/-- `NewMapClaims`: through JSON and back. -/
def newMapClaims (customClaims : CustomClaimType) : MapClaims := customClaims.encode

/-! ## The library -/

abbrev Secret := List UInt8

/-- HS256 tokens of the JWT library. -/
structure JWT where
  /-- `NewWithClaims(..).SignedString(secret)`. -/
  signedString : Secret → MapClaims → String
  /-- The JSON object of a string that is a token signed with the secret. -/
  verify : Secret → String → Except String MapClaims
  verify_signedString : ∀ secret m, verify secret (signedString secret m) = .ok m

section Plain

open Wire

def ClaimValue.codec : PrefixCodec ClaimValue :=
  (PrefixCodec.sum .string (.sum (.list .string) .int)).retract
    (fun
      | .str s => .inl s
      | .strs l => .inr (.inl l)
      | .num n => .inr (.inr n))
    (fun
      | .inl s => .str s
      | .inr (.inl l) => .strs l
      | .inr (.inr n) => .num n)
    (fun v => by cases v <;> rfl)

/-- A key and the object that it signs. -/
def signedCodec : PrefixCodec (Secret × MapClaims) :=
  .prod (.list (PrefixCodec.nat.retract UInt8.toNat UInt8.ofNat fun _ => UInt8.ofNat_toNat))
    (.list (.prod .string ClaimValue.codec))

/-- A library whose signature is the key itself.  The runs below that are given in full use it. -/
def JWT.plain : JWT where
  signedString secret m := String.ofList (signedCodec.encode (secret, m))
  verify secret s :=
    match signedCodec.ofString s with
    | none => .error "token is malformed: token contains an invalid number of segments"
    | some (key, m) =>
      if key = secret then .ok m
      else .error "token signature is invalid: signature is invalid"
  verify_signedString secret m := by
    rw [signedCodec.ofString_encode]
    exact if_pos rfl

end Plain

def second : Int := 1000000000

/-- `jwt.NewNumericDate`. -/
def newNumericDate (t : Time) : Int := t / second

/-- `Validator.Validate` without options: a claim that is absent is not asked for. -/
def RegisteredClaims.validate (c : RegisteredClaims) (now : Time) : Except String Unit :=
  let expired := c.expiresAt.any fun exp => exp * second ≤ now
  let early := c.notBefore.any fun nbf => now < nbf * second
  match expired, early with
  | false, false => .ok ()
  | true, false => .error "token has invalid claims: token is expired"
  | false, true => .error "token has invalid claims: token is not valid yet"
  | true, true => .error "token has invalid claims: token is expired, token is not valid yet"

namespace JWT

variable (jwt : JWT)

/-- The two strings verify to one object. -/
def respells (secret : Secret) (tokenString issued : String) : Bool :=
  match jwt.verify secret tokenString, jwt.verify secret issued with
  | .ok m, .ok m' => m = m'
  | _, _ => false

/-- `jwt.ParseWithClaims` for HS256, with the decoder of the claims. -/
def parseWithClaims {α : Type} (decode : MapClaims → Except String α)
    (registered : α → RegisteredClaims) (secret : Secret) (now : Time) (tokenString : String) :
    Except String α := do
  let m ← jwt.verify secret tokenString
  let claims ← decode m
  (registered claims).validate now
  pure claims

end JWT

/-! ## Issuers and validators -/

def audSession : String := "session"

def visitorSubjectPrefix : String := "visitor:"

structure StaticKeyJWTIssuer where
  jwt : JWT
  issuer : String
  secret : Secret

def StaticKeyJWTIssuer.issueToken (s : StaticKeyJWTIssuer) (mapClaims : MapClaims) :
    Except String String :=
  if s.issuer = "" then .error "issuer is not specified, can not sign token"
  else .ok (s.jwt.signedString s.secret mapClaims)

structure StaticKeyNonceIssuer where
  jwt : JWT
  nonceLifespan : Duration
  secret : Secret

/-- The claims of a nonce: a window of time and random bytes. -/
def StaticKeyNonceIssuer.claims (h : StaticKeyNonceIssuer) (now : Time) (random : String) :
    NonceClaimType where
  notBefore := some (newNumericDate now)
  expiresAt := some (newNumericDate (now + h.nonceLifespan))
  randomValue := random

def StaticKeyNonceIssuer.issueNonce (h : StaticKeyNonceIssuer) (now : Time) (random : String) :
    String :=
  h.jwt.signedString h.secret (h.claims now random).encode

def StaticKeyNonceIssuer.validateNonce (h : StaticKeyNonceIssuer) (now : Time) (nonce : String) :
    Except String Bool :=
  match h.jwt.parseWithClaims NonceClaimType.decode (·.toRegisteredClaims) h.secret now nonce with
  | .error err => .error ("Failed to parse token: " ++ err)
  | .ok _ => .ok true

/-- `CheckBlackList`, which may fail. -/
abbrev BlackListProvider := String → Except String Bool

/-- `NewNullBlackListProvider`: no record. -/
def nullBlackListProvider : BlackListProvider := fun _ => .ok false

structure StaticKeyJWTValidator where
  jwt : JWT
  secret : Secret
  blacklist : BlackListProvider
  rejectVisitor : Bool

namespace StaticKeyJWTValidator

variable (s : StaticKeyJWTValidator)

/-- An error of the provider is a hit. -/
def checkBL (subj : String) : Bool :=
  match s.blacklist subj with
  | .error _ => true
  | .ok hit => hit

/-- The claims of the token, or the reason why it is not valid.  The error that the source
can return next to them is always nil, and the claims always have the custom type. -/
def doValidateToken (now : Time) (tokenString : String) : Except String CustomClaimType :=
  match s.jwt.parseWithClaims CustomClaimType.decode (·.toRegisteredClaims) s.secret now
      tokenString with
  | .error err => .error ("Invalid token: " ++ err)
  | .ok claims =>
    if s.checkBL claims.subject then
      .error ("Token is blacklisted, subj=" ++ claims.subject)
    else if s.rejectVisitor ∧ visitorSubjectPrefix.toList <+: claims.subject.toList then
      .error ("Visitor sessions are not allowed, subj=" ++ claims.subject)
    else .ok claims

/-- `ParseToken`: the reason is lost. -/
def parseToken (now : Time) (tokenString : String) : Except String CustomClaimType :=
  match s.doValidateToken now tokenString with
  | .error _ => .error "token is nil or invalid"
  | .ok claims => .ok claims

end StaticKeyJWTValidator

/-! ## What is read back -/

section Lookup

variable {key k s : String} {l : List String} {d : Option Int} {m : MapClaims}

theorem lookup_strClaim (h : (k == key) = false) :
    (strClaim key s ++ m).lookup k = m.lookup k := by
  rw [strClaim]
  split
  next => rfl
  next => rw [List.singleton_append, List.lookup_cons, h]

theorem lookup_strClaim_self :
    (strClaim key s ++ m).lookup key = if s = "" then m.lookup key else some (.str s) := by
  rw [strClaim]
  split
  next => rfl
  next => rw [List.singleton_append, List.lookup_cons, beq_self_eq_true]

theorem lookup_strsClaim (h : (k == key) = false) :
    (strsClaim key l ++ m).lookup k = m.lookup k := by
  rw [strsClaim]
  split
  next => rfl
  next => rw [List.singleton_append, List.lookup_cons, h]

theorem lookup_strsClaim_self :
    (strsClaim key l ++ m).lookup key = if l = [] then m.lookup key else some (.strs l) := by
  rw [strsClaim]
  split
  next => rfl
  next => rw [List.singleton_append, List.lookup_cons, beq_self_eq_true]

theorem lookup_dateClaim (h : (k == key) = false) :
    (dateClaim key d ++ m).lookup k = m.lookup k := by
  cases d with
  | none => rfl
  | some n =>
    show List.lookup k ((key, ClaimValue.num n) :: m) = _
    rw [List.lookup_cons, h]

theorem lookup_dateClaim_self :
    (dateClaim key d ++ m).lookup key = (d.map ClaimValue.num).or (m.lookup key) := by
  cases d with
  | none => rfl
  | some n =>
    show List.lookup key ((key, ClaimValue.num n) :: m) = _
    rw [List.lookup_cons, beq_self_eq_true]
    rfl

theorem getStr_of (h : m.lookup key = if s = "" then none else some (.str s)) :
    getStr m key = .ok s := by
  rw [getStr, h]
  by_cases hs : s = ""
  · rw [if_pos hs, hs]
  · rw [if_neg hs]

theorem getStrings_of (h : m.lookup key = if l = [] then none else some (.strs l)) :
    getStrings m key = .ok l := by
  rw [getStrings, h]
  by_cases hl : l = []
  · rw [if_pos hl, hl]
  · rw [if_neg hl]

theorem getDate_of (h : m.lookup key = d.map ClaimValue.num) : getDate m key = .ok d := by
  rw [getDate, h]
  cases d with
  | none => rfl
  | some n => rfl

end Lookup

def registeredKeys : List String := ["iss", "sub", "aud", "exp", "nbf", "iat", "jti"]

/-- The registered claims are read back from among others. -/
theorem RegisteredClaims.decode_encode (c : RegisteredClaims) {m : MapClaims}
    (h : ∀ k ∈ registeredKeys, m.lookup k = none) :
    RegisteredClaims.decode (c.encode ++ m) = .ok c := by
  simp only [registeredKeys, List.mem_cons, List.not_mem_nil, or_false, forall_eq_or_imp,
    forall_eq] at h
  simp only [RegisteredClaims.decode, RegisteredClaims.encode, List.append_assoc]
  rw [getStr_of (s := c.issuer), getStr_of (s := c.subject), getStrings_of (l := c.audience),
    getDate_of (d := c.expiresAt), getDate_of (d := c.notBefore), getDate_of (d := c.issuedAt),
    getStr_of (s := c.id)]
  · rfl
  all_goals
    simp (disch := decide) only [lookup_strClaim, lookup_strClaim_self, lookup_strsClaim,
      lookup_strsClaim_self, lookup_dateClaim, lookup_dateClaim_self, h, Option.or_none]

/-- Other claims are found behind the registered ones. -/
theorem RegisteredClaims.lookup_encode (c : RegisteredClaims) {m : MapClaims} {k : String}
    (h : k ∉ registeredKeys) : (c.encode ++ m).lookup k = m.lookup k := by
  have hne : ∀ key ∈ registeredKeys, (k == key) = false := fun key hk =>
    beq_eq_false_iff_ne.2 fun he => h (he ▸ hk)
  simp only [registeredKeys, List.mem_cons, List.not_mem_nil, or_false, forall_eq_or_imp,
    forall_eq] at hne
  simp only [RegisteredClaims.encode, List.append_assoc]
  rw [lookup_strClaim hne.1, lookup_strClaim hne.2.1, lookup_strsClaim hne.2.2.1,
    lookup_dateClaim hne.2.2.2.1, lookup_dateClaim hne.2.2.2.2.1,
    lookup_dateClaim hne.2.2.2.2.2.1, lookup_strClaim hne.2.2.2.2.2.2]

theorem CustomClaimType.decode_encode (c : CustomClaimType) :
    CustomClaimType.decode c.encode = .ok c := by
  have hname (k : String) : (strClaim "username" c.username).lookup k =
      (strClaim "username" c.username ++ []).lookup k := by rw [List.append_nil]
  have hreg : RegisteredClaims.decode c.encode = .ok c.toRegisteredClaims := by
    refine c.toRegisteredClaims.decode_encode fun k hk => ?_
    rw [hname, lookup_strClaim]
    · rfl
    · revert k
      decide
  have huser : getStr c.encode "username" = .ok c.username := by
    refine getStr_of ?_
    rw [CustomClaimType.encode, RegisteredClaims.lookup_encode _ (by decide), hname,
      lookup_strClaim_self]
    rfl
  rw [CustomClaimType.decode, hreg]
  show (getStr c.encode "username" >>= _) = _
  rw [huser]
  rfl

/-- The audience of a token is in it. -/
theorem CustomClaimType.lookup_aud {c : CustomClaimType} (h : c.audience ≠ []) :
    c.encode.lookup "aud" = some (.strs c.audience) := by
  simp only [CustomClaimType.encode, RegisteredClaims.encode, List.append_assoc]
  rw [lookup_strClaim (by decide), lookup_strClaim (by decide), lookup_strsClaim_self, if_neg h]

namespace StaticKeyNonceIssuer

variable (h : StaticKeyNonceIssuer) (now : Time) (random : String)

/-- A nonce has no audience. -/
theorem lookup_aud : (h.claims now random).encode.lookup "aud" = none := rfl

/-- The parser of tokens takes the claims of a nonce for those of a token without subject,
name and audience. -/
theorem decode_claims :
    CustomClaimType.decode (h.claims now random).encode =
      .ok
        { notBefore := some (newNumericDate now)
          expiresAt := some (newNumericDate (now + h.nonceLifespan)) } := rfl

end StaticKeyNonceIssuer

theorem RegisteredClaims.validate_eq_ok {c : RegisteredClaims} {now : Time} :
    c.validate now = .ok () ↔
      (∀ exp ∈ c.expiresAt, now < exp * second) ∧ ∀ nbf ∈ c.notBefore, nbf * second ≤ now := by
  have hexp : (c.expiresAt.any fun exp => exp * second ≤ now) = false ↔
      ∀ exp ∈ c.expiresAt, now < exp * second := by
    simp [Option.any_eq_false]
  have hnbf : (c.notBefore.any fun nbf => now < nbf * second) = false ↔
      ∀ nbf ∈ c.notBefore, nbf * second ≤ now := by
    simp [Option.any_eq_false]
  rw [validate, ← hexp, ← hnbf]
  generalize (c.expiresAt.any fun exp => exp * second ≤ now) = expired
  generalize (c.notBefore.any fun nbf => now < nbf * second) = early
  cases expired <;> cases early <;> simp

namespace JWT

open Wire (bind_eq_ok)

variable {jwt : JWT} {α : Type} {decode : MapClaims → Except String α}
  {registered : α → RegisteredClaims} {secret : Secret} {now : Time} {tokenString : String}

theorem respells_iff {issued : String} : jwt.respells secret tokenString issued = true ↔
    ∃ m, jwt.verify secret tokenString = .ok m ∧ jwt.verify secret issued = .ok m := by
  rw [respells]
  split
  next m m' hv hv' =>
    rw [decide_eq_true_iff]
    constructor
    · rintro rfl
      exact ⟨m, hv, hv'⟩
    · rintro ⟨m₀, h, h'⟩
      exact (Except.ok.inj (hv.symm.trans h)).trans (Except.ok.inj (h'.symm.trans hv'))
  next hnot =>
    refine iff_of_false Bool.false_ne_true ?_
    rintro ⟨m, h, h'⟩
    exact hnot m m h h'

theorem respells_self {m : MapClaims} (h : jwt.verify secret tokenString = .ok m) :
    jwt.respells secret tokenString tokenString = true := respells_iff.2 ⟨m, h, h⟩

/-- A spelling of what was signed. -/
theorem respells_signedString {m : MapClaims} :
    jwt.respells secret tokenString (jwt.signedString secret m) = true ↔
      jwt.verify secret tokenString = .ok m := by
  rw [respells_iff]
  constructor
  · rintro ⟨m', hv, hv'⟩
    cases (jwt.verify_signedString secret m).symm.trans hv'
    exact hv
  · exact fun hv => ⟨m, hv, jwt.verify_signedString secret m⟩

/-- What is parsed is signed, of the right form, and in its window. -/
theorem parse_eq_ok {claims : α} :
    jwt.parseWithClaims decode registered secret now tokenString = .ok claims ↔
      ∃ m, jwt.verify secret tokenString = .ok m ∧ decode m = .ok claims ∧
        (registered claims).validate now = .ok () := by
  rw [parseWithClaims, bind_eq_ok]
  constructor
  · rintro ⟨m, hv, h⟩
    obtain ⟨c, hd, h⟩ := bind_eq_ok.1 h
    obtain ⟨_, hw, ⟨⟩⟩ := bind_eq_ok.1 h
    exact ⟨m, hv, hd, hw⟩
  · rintro ⟨m, hv, hd, hw⟩
    exact ⟨m, hv, bind_eq_ok.2 ⟨claims, hd, bind_eq_ok.2 ⟨(), hw, rfl⟩⟩⟩

/-- A token that was signed with the key. -/
theorem parse_signedString {m : MapClaims} {claims : α} :
    jwt.parseWithClaims decode registered secret now (jwt.signedString secret m) = .ok claims ↔
      decode m = .ok claims ∧ (registered claims).validate now = .ok () := by
  rw [parse_eq_ok]
  constructor
  · rintro ⟨m', hv, h⟩
    cases (jwt.verify_signedString secret m).symm.trans hv
    exact h
  · intro h
    exact ⟨m, jwt.verify_signedString secret m, h⟩

/-- Texts with different claims are different. -/
theorem signedString_inj {m m' : MapClaims}
    (h : jwt.signedString secret m = jwt.signedString secret m') : m = m' := by
  have hv := jwt.verify_signedString secret m
  rw [h, jwt.verify_signedString] at hv
  exact (Except.ok.inj hv).symm

end JWT

namespace StaticKeyJWTValidator

variable {s : StaticKeyJWTValidator} {now : Time} {tokenString : String} {claims : CustomClaimType}

/-- What the validator accepts. -/
theorem doValidateToken_eq_ok :
    s.doValidateToken now tokenString = .ok claims ↔
      s.jwt.parseWithClaims CustomClaimType.decode (·.toRegisteredClaims) s.secret now
          tokenString = .ok claims ∧
        s.checkBL claims.subject = false ∧
        ¬ (s.rejectVisitor ∧ visitorSubjectPrefix.toList <+: claims.subject.toList) := by
  rw [doValidateToken]
  cases s.jwt.parseWithClaims CustomClaimType.decode (·.toRegisteredClaims) s.secret now
      tokenString with
  | error err => exact ⟨nofun, fun h => nomatch h.1⟩
  | ok c =>
    constructor
    · intro h
      split at h
      next heq => cases heq
      next heq =>
        cases heq
        split at h
        next => cases h
        next hb =>
          split at h
          next => cases h
          next hv =>
            cases h
            exact ⟨rfl, by simpa using hb, hv⟩
    · rintro ⟨⟨⟩, hb, hv⟩
      show (if s.checkBL claims.subject = true then _ else _) = _
      rw [if_neg (by simp [hb]), if_neg hv]

/-- All spellings are accepted, or none. -/
theorem doValidateToken_respells {issued : String}
    (h : s.jwt.respells s.secret tokenString issued = true) :
    s.doValidateToken now tokenString = s.doValidateToken now issued := by
  obtain ⟨m, hv, hv'⟩ := JWT.respells_iff.1 h
  simp only [doValidateToken, JWT.parseWithClaims, hv, hv']

/-- A token that was issued is accepted in its window, unless its subject is black-listed or
that of a visitor where these are rejected. -/
theorem doValidateToken_signedString {c : CustomClaimType} :
    s.doValidateToken now (s.jwt.signedString s.secret (newMapClaims c)) = .ok claims ↔
      claims = c ∧ c.validate now = .ok () ∧ s.checkBL c.subject = false ∧
        ¬ (s.rejectVisitor ∧ visitorSubjectPrefix.toList <+: c.subject.toList) := by
  rw [doValidateToken_eq_ok, JWT.parse_signedString, newMapClaims, c.decode_encode]
  constructor
  · rintro ⟨⟨⟨⟩, hw⟩, h⟩
    exact ⟨rfl, hw, h⟩
  · rintro ⟨rfl, hw, h⟩
    exact ⟨⟨rfl, hw⟩, h⟩

/-- A nonce of the same key is a valid token for as long as it is a valid nonce: its claims
have no subject, which is on no black list and not that of a visitor. -/
theorem doValidateToken_issueNonce {h : StaticKeyNonceIssuer} {issuedAt : Time} {random : String}
    (hj : h.jwt = s.jwt) (hs : h.secret = s.secret) (hb : s.checkBL "" = false) :
    (∃ claims, s.doValidateToken now (h.issueNonce issuedAt random) = .ok claims) ↔
      newNumericDate issuedAt * second ≤ now ∧
        now < newNumericDate (issuedAt + h.nonceLifespan) * second := by
  rw [StaticKeyNonceIssuer.issueNonce, hj, hs]
  constructor
  · rintro ⟨claims, hok⟩
    obtain ⟨hd, hw⟩ := JWT.parse_signedString.1 (doValidateToken_eq_ok.1 hok).1
    cases (h.decode_claims issuedAt random).symm.trans hd
    obtain ⟨hexp, hnbf⟩ := RegisteredClaims.validate_eq_ok.1 hw
    exact ⟨hnbf _ rfl, hexp _ rfl⟩
  · rintro ⟨hnbf, hexp⟩
    refine ⟨_, doValidateToken_eq_ok.2 ⟨JWT.parse_signedString.2
      ⟨h.decode_claims issuedAt random, RegisteredClaims.validate_eq_ok.2 ⟨?_, ?_⟩⟩, hb, ?_⟩⟩
    · rintro _ ⟨⟩
      exact hexp
    · rintro _ ⟨⟩
      exact hnbf
    · rintro ⟨_, hpre⟩
      exact absurd (String.toList_eq_nil_iff.1 (List.prefix_nil.1 hpre)) (by decide)

end StaticKeyJWTValidator

end CloudPing.Auth

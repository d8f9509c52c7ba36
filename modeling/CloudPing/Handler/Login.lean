import CloudPing.Auth.Jwt

/-!
# Logins and the session check

The handlers of the web proxy: `WithJWTAuth` and the profile page, which ask for a session,
and the logins, which end with one.  A login with a provider has two requests.  The first,
`handleStart`, hands out a nonce, as a cookie and in the URL of the provider.  The second,
`handleAuthorizationCode`, comes back with both and with a code of the provider.

The four OAuth handlers of the source differ in the texts of their errors, in the prefix of
their subjects, in whether they ask the provider for its configuration first, and in how
they get the identity behind a code.  They are one definition with these as fields.  What a
provider answers is an argument.
-/

namespace CloudPing.Handler

open Auth

/-! ## Requests and responses -/

structure Request where
  /-- The value of `CtxKeyJustIssuedJWTToken` in the context. -/
  justIssuedJWTToken : Option String := none
  authorization : String := ""
  cookies : List (String × String) := []
  query : List (String × String) := []

/-- The first cookie of the name. -/
def Request.cookie (r : Request) (name : String) : Option String := r.cookies.lookup name

/-- The first value of the key, empty if there is none. -/
def Request.queryGet (r : Request) (key : String) : String := (r.query.lookup key).getD ""

structure Response where
  status : Nat
  error : String := ""
  setCookies : List (String × String) := []
  location : String := ""
  deriving DecidableEq, Repr

def statusTemporaryRedirect : Nat := 307
def statusBadRequest : Nat := 400
def statusUnauthorized : Nat := 401
def statusInternalServerError : Nat := 500

def defaultJWTCookieKey : String := "jwt"
def defaultNonceCookieKey : String := "nonce"

/-! ## The session check -/

/-- `strings.TrimPrefix`. -/
def trimPrefix (s pre : String) : String :=
  if pre.toList <+: s.toList then String.ofList (s.toList.drop pre.toList.length) else s

def extractJWTFromRequest (r : Request) : String :=
  match r.justIssuedJWTToken with
  | some token => token
  | none =>
    let tokenString := trimPrefix (trimPrefix r.authorization "Bearer ") "bearer "
    if tokenString ≠ "" then tokenString
    else (r.cookie defaultJWTCookieKey).getD ""

/-- What `WithJWTAuth` puts into the context of a request that it lets through. -/
structure Session where
  username : String
  sessionId : Option String
  subjectId : Option String
  deriving DecidableEq, Repr

def nonEmpty (s : String) : Option String := if s = "" then none else some s

/-- `WithJWTAuth`: the context for the next handler, or why there is none. -/
def withJWTAuth (jwtValidator : StaticKeyJWTValidator) (now : Time) (r : Request) :
    Except String Session :=
  match jwtValidator.parseToken now (extractJWTFromRequest r) with
  | .error err => .error ("Unauthorized: " ++ err)
  | .ok claims =>
    .ok
      { username := claims.username
        sessionId := nonEmpty claims.id
        subjectId := nonEmpty claims.subject }

structure BasicProfile where
  subjectId : String
  username : String

/-- `BasicProfileHandler`.  The subject id of the profile is the id of the token. -/
def basicProfile (tokenValidator : StaticKeyJWTValidator) (now : Time) (r : Request) :
    Except String BasicProfile :=
  match tokenValidator.parseToken now (extractJWTFromRequest r) with
  | .error err => .error ("invalid token: " ++ err)
  | .ok claims => .ok { subjectId := claims.id, username := claims.username }

/-! ## Session claims -/

/-- `GetMapClaims` of every login. -/
def getMapClaims (now : Time) (lifespan : Duration) (id subjectId username : String) :
    MapClaims :=
  newMapClaims
    { id := id
      subject := subjectId
      audience := [audSession]
      notBefore := some (newNumericDate now)
      expiresAt := some (newNumericDate (now + lifespan))
      username := username }

/-! ## Logins with a provider -/

structure OAuthLoginHandler where
  nonceIssuer : StaticKeyNonceIssuer
  tokenIssuer : StaticKeyJWTIssuer
  sessionLifespan : Duration
  loginSuccessRedirectURL : String := ""
  /-- The login page of the provider with the nonce, none if its URL is not valid. -/
  authorizeURL : String → Option String
  subjectPrefix : String
  /-- The configuration of the provider is asked for first. -/
  discovers : Bool := false
  redirErr : String := "Failed to determine redir url (internal error)"
  missingErr : String := "Nonce is not found from the cookies: "
  mismatchErr : String := "Nonce from the cookie does not match the nonce in the request"
  noCodeErr : String := "No authorization code is found in the request"
  clearsNonce : Bool := true

namespace OAuthLoginHandler

variable (h : OAuthLoginHandler)

/-- The response, and the nonce if one was issued: it is in a cookie even where the URL
can not be built. -/
def handleStart (discovered : Bool) (now : Time) (random : String) :
    Response × Option String :=
  if h.discovers ∧ ¬ discovered then
    ({ status := statusInternalServerError
       error := "Failed to fetch OIDC provider configuration" }, none)
  else
    let nonce := h.nonceIssuer.issueNonce now random
    let setCookies := [(defaultNonceCookieKey, nonce)]
    match h.authorizeURL nonce with
    | none => ({ status := statusInternalServerError, error := h.redirErr, setCookies }, some nonce)
    | some redirURL =>
      ({ status := statusTemporaryRedirect, setCookies, location := redirURL }, some nonce)

/-- The response, and the token if the login is completed.  `identity` is the user id and
the name behind the code, or the response where the provider does not tell them. -/
def handleAuthorizationCode (now : Time) (r : Request)
    (identity : Except Response (String × String)) (id : String) : Response × Option String :=
  let err := r.queryGet "error"
  let nonce := r.queryGet "state"
  if err ≠ "" then
    ({ status := statusBadRequest, error := err ++ ": " ++ r.queryGet "error_description" }, none)
  else
    match r.cookie defaultNonceCookieKey with
    | none =>
      ({ status := statusBadRequest
         error := h.missingErr ++ "http: named cookie not present" }, none)
    | some nonceFromCookie =>
      if nonceFromCookie ≠ nonce then
        ({ status := statusUnauthorized, error := h.mismatchErr }, none)
      else
        match h.nonceIssuer.validateNonce now nonce with
        | .error err => ({ status := statusUnauthorized, error := "Invalid nonce: " ++ err }, none)
        | .ok false => ({ status := statusUnauthorized, error := "Invalid nonce" }, none)
        | .ok true =>
          let cleared := if h.clearsNonce then [(defaultNonceCookieKey, "")] else []
          if r.queryGet "code" = "" then
            ({ status := statusUnauthorized, error := h.noCodeErr, setCookies := cleared }, none)
          else
            match identity with
            | .error resp => ({ resp with setCookies := cleared }, none)
            | .ok (userId, username) =>
              match h.tokenIssuer.issueToken (getMapClaims now h.sessionLifespan id
                  (h.subjectPrefix ++ userId) username) with
              | .error err =>
                ({ status := statusInternalServerError, error := "Failed to issue token: " ++ err
                   setCookies := cleared }, none)
              | .ok token =>
                ({ status := statusTemporaryRedirect
                   setCookies := cleared ++ [(defaultJWTCookieKey, token)]
                   location :=
                     if h.loginSuccessRedirectURL ≠ "" then h.loginSuccessRedirectURL else "/" },
                  some token)

end OAuthLoginHandler

section Providers

variable (nonceIssuer : StaticKeyNonceIssuer) (tokenIssuer : StaticKeyJWTIssuer)
  (sessionLifespan : Duration) (authorizeURL : String → Option String)

/-- It leaves the nonce cookie. -/
def githubOAuthLoginHandler : OAuthLoginHandler where
  nonceIssuer := nonceIssuer
  tokenIssuer := tokenIssuer
  sessionLifespan := sessionLifespan
  authorizeURL := authorizeURL
  subjectPrefix := "github:"
  clearsNonce := false

def googleOAuthLoginHandler : OAuthLoginHandler where
  nonceIssuer := nonceIssuer
  tokenIssuer := tokenIssuer
  sessionLifespan := sessionLifespan
  loginSuccessRedirectURL := "/"
  authorizeURL := authorizeURL
  subjectPrefix := "google:"

def genericOIDCLoginHandler (providerName : String) : OAuthLoginHandler where
  nonceIssuer := nonceIssuer
  tokenIssuer := tokenIssuer
  sessionLifespan := sessionLifespan
  loginSuccessRedirectURL := "/"
  authorizeURL := authorizeURL
  subjectPrefix := "oidc-" ++ (if providerName ≠ "" then providerName else "oidc") ++ ":"
  discovers := true
  redirErr := "Failed to build authorization URL (internal error)"
  missingErr := "Nonce not found in cookies: "
  mismatchErr := "Nonce from cookie does not match nonce in request"
  noCodeErr := "No authorization code found in request"

def entraIDLoginHandler (providerName : String) : OAuthLoginHandler where
  nonceIssuer := nonceIssuer
  tokenIssuer := tokenIssuer
  sessionLifespan := sessionLifespan
  loginSuccessRedirectURL := "/"
  authorizeURL := authorizeURL
  subjectPrefix := "entraid-" ++ (if providerName ≠ "" then providerName else "entra") ++ ":"

end Providers

/-! ## Visitors -/

structure VisitorLoginHandler where
  jwtIssuer : StaticKeyJWTIssuer
  validity : Duration

/-- `%05d`. -/
def fmt05d (n : Nat) : String :=
  String.ofList (List.replicate (5 - (toString n).length) '0') ++ toString n

/-- `VisitorLoginHandler.ServeHTTP`: the ticket is the answer of the ticket generator. -/
def VisitorLoginHandler.serveHTTP (h : VisitorLoginHandler) (now : Time)
    (ticket : Except String String) (visitorId : Fin 65536) (id subject : String) :
    Response × Option String :=
  match ticket with
  | .error err =>
    ({ status := statusBadRequest
       error := "can't wait for visitor ticket to be generated: " ++ err }, none)
  | .ok _ =>
    match h.jwtIssuer.issueToken (getMapClaims now h.validity id (visitorSubjectPrefix ++ subject)
        ("visitor-" ++ fmt05d visitorId)) with
    | .error err =>
      ({ status := statusInternalServerError, error := "failed to sign token: " ++ err }, none)
    | .ok token =>
      ({ status := statusTemporaryRedirect
         setCookies := [(defaultJWTCookieKey, token)]
         location := "/" }, some token)

/-! ## What is issued -/

section Issued

variable {h : OAuthLoginHandler} {now : Time} {token : String}

theorem issueToken_eq_ok {s : StaticKeyJWTIssuer} {m : MapClaims}
    (h : s.issueToken m = .ok token) : token = s.jwt.signedString s.secret m := by
  rw [StaticKeyJWTIssuer.issueToken] at h
  split at h
  next => cases h
  next => exact (Except.ok.inj h).symm

theorem handleStart_issues {discovered : Bool} {random nonce : String}
    (hn : (h.handleStart discovered now random).2 = some nonce) :
    nonce = h.nonceIssuer.issueNonce now random := by
  rw [OAuthLoginHandler.handleStart] at hn
  split at hn
  next => cases hn
  next =>
    dsimp only at hn
    split at hn
    next => exact (Option.some.inj hn).symm
    next => exact (Option.some.inj hn).symm

/-- A completed login ends with a token of the issuer, for session claims. -/
theorem handleAuthorizationCode_issues {r : Request}
    {identity : Except Response (String × String)} {id : String}
    (ht : (h.handleAuthorizationCode now r identity id).2 = some token) :
    ∃ subject username, h.tokenIssuer.issueToken
      (getMapClaims now h.sessionLifespan id subject username) = .ok token := by
  simp only [OAuthLoginHandler.handleAuthorizationCode] at ht
  split at ht
  next => cases ht
  next =>
    split at ht
    next => cases ht
    next =>
      split at ht
      next => cases ht
      next =>
        split at ht
        next => cases ht
        next => cases ht
        next =>
          split at ht
          next => cases ht
          next =>
            split at ht
            next => cases ht
            next userId username =>
              split at ht
              next => cases ht
              next heq =>
                cases ht
                exact ⟨_, _, heq⟩

theorem serveHTTP_issues {v : VisitorLoginHandler} {ticket : Except String String}
    {visitorId : Fin 65536} {id subject : String}
    (ht : (v.serveHTTP now ticket visitorId id subject).2 = some token) :
    ∃ username, v.jwtIssuer.issueToken
      (getMapClaims now v.validity id (visitorSubjectPrefix ++ subject) username) =
        .ok token := by
  simp only [VisitorLoginHandler.serveHTTP] at ht
  split at ht
  next => cases ht
  next =>
    split at ht
    next => cases ht
    next heq =>
      cases ht
      exact ⟨_, heq⟩

/-- A request is let through exactly when its token is valid. -/
theorem withJWTAuth_ok {v : StaticKeyJWTValidator} {r : Request} :
    (∃ session, withJWTAuth v now r = .ok session) ↔
      ∃ claims, v.doValidateToken now (extractJWTFromRequest r) = .ok claims := by
  rw [withJWTAuth, StaticKeyJWTValidator.parseToken]
  cases v.doValidateToken now (extractJWTFromRequest r) with
  | error err => exact ⟨nofun, nofun⟩
  | ok claims => exact ⟨fun _ => ⟨claims, rfl⟩, fun _ => ⟨_, rfl⟩⟩

theorem basicProfile_ok {v : StaticKeyJWTValidator} {r : Request} :
    (∃ profile, basicProfile v now r = .ok profile) ↔
      ∃ claims, v.doValidateToken now (extractJWTFromRequest r) = .ok claims := by
  rw [basicProfile, StaticKeyJWTValidator.parseToken]
  cases v.doValidateToken now (extractJWTFromRequest r) with
  | error err => exact ⟨nofun, nofun⟩
  | ok claims => exact ⟨fun _ => ⟨claims, rfl⟩, fun _ => ⟨_, rfl⟩⟩

end Issued

end CloudPing.Handler

import CloudPing.Handler.Login

/-!
# The identity behind a code

What `handleAuthorizationCode` of the generic OIDC login does once it has a code: it exchanges the
code for the tokens of the provider, has the ID token verified, and compares the nonce of the ID
token with the one of the request.  The user id is that of the ID token, and the userinfo endpoint
only helps out with a name.
-/

namespace CloudPing.Oidc

open Handler

structure UserInfoResponse where
  sub : String := ""
  name : String := ""
  preferredUsername : String := ""
  email : String := ""

/-- An ID token whose signature, issuer, audience and expiry are right. -/
structure IDToken where
  nonce : String
  claims : Except String UserInfoResponse

structure TokenResponse where
  accessToken : String := ""
  idToken : String := ""

structure TokenErrorResponse where
  error : String
  errorDescription : String

/-- What comes of the request that exchanges a code: it cannot be made, there is no answer to it,
or one with a status, and a body that decodes or does not. -/
inductive TokenExchange where
  | noRequest
  | noAnswer (err : String)
  | refused (statusCode : Nat) (body : Option TokenErrorResponse)
  | answer (body : Option TokenResponse)

/-- What a provider says in a callback.  Without a userinfo endpoint it is not asked for. -/
structure ProviderAnswers where
  discovered : Bool := true
  exchange : TokenExchange
  provider : Except String Unit := .ok ()
  userinfo : Option (Except String UserInfoResponse) := none

/-- `VerifyIDToken`.  How `%q` quotes is a parameter. -/
def verifyIDToken (quote : String → String) (provider : Except String Unit)
    (verify : String → Except String IDToken) (rawIDToken expectedNonce : String) :
    Except String IDToken :=
  match provider with
  | .error err => .error ("oidc verify: " ++ err)
  | .ok () =>
    match verify rawIDToken with
    | .error err => .error ("failed to verify ID token: " ++ err)
    | .ok token =>
      if expectedNonce ≠ "" ∧ token.nonce ≠ expectedNonce then
        .error ("ID token nonce mismatch: got " ++ quote token.nonce ++ ", want " ++
          quote expectedNonce)
      else .ok token

/-- The name that is shown. -/
def UserInfoResponse.username (userinfo : UserInfoResponse) : String :=
  if userinfo.preferredUsername ≠ "" then userinfo.preferredUsername
  else if userinfo.email ≠ "" then userinfo.email
  else userinfo.name

def unauthorized (error : String) : Except Response (String × String) :=
  .error { status := statusUnauthorized, error }

def internalServerError (error : String) : Except Response (String × String) :=
  .error { status := statusInternalServerError, error }

/-- The user id and the name, or the response if there are none. -/
def identity (quote : String → String) (verify : String → Except String IDToken)
    (answers : ProviderAnswers) (nonce : String) : Except Response (String × String) :=
  if answers.discovered = false then
    internalServerError "Failed to fetch OIDC provider configuration"
  else
    match answers.exchange with
    | .noRequest => internalServerError "Failed to create token exchange request"
    | .noAnswer err => unauthorized ("Failed to exchange token: " ++ err)
    | .refused statusCode none =>
      unauthorized ("Token exchange failed with status " ++ toString statusCode)
    | .refused _ (some tokenErrResp) =>
      unauthorized ("Token exchange failed: " ++ tokenErrResp.error ++ ": " ++
        tokenErrResp.errorDescription)
    | .answer none => unauthorized "Failed to decode token response"
    | .answer (some tokenResp) =>
      if tokenResp.idToken = "" then
        unauthorized "No ID token in token response from OIDC provider"
      else
        match verifyIDToken quote answers.provider verify tokenResp.idToken nonce with
        | .error err => unauthorized ("ID token verification failed: " ++ err)
        | .ok idToken =>
          match idToken.claims with
          | .error err => internalServerError ("Failed to extract ID token claims: " ++ err)
          | .ok claims =>
            if claims.sub = "" then
              unauthorized "Failed to get user ID (sub claim) from ID token"
            else
              match claims.username, answers.userinfo with
              | "", some (.ok userinfo) => .ok (claims.sub, userinfo.username)
              | username, _ => .ok (claims.sub, username)

theorem verifyIDToken_eq_ok {quote : String → String} {provider : Except String Unit}
    {verify : String → Except String IDToken} {rawIDToken expectedNonce : String} {token : IDToken}
    (h : verifyIDToken quote provider verify rawIDToken expectedNonce = .ok token) :
    verify rawIDToken = .ok token ∧ (expectedNonce ≠ "" → token.nonce = expectedNonce) := by
  simp only [verifyIDToken] at h
  split at h
  next => cases h
  next =>
    split at h
    next => cases h
    next token' hverify =>
      split at h
      next => cases h
      next hnonce =>
        cases h
        refine ⟨hverify, fun hne => ?_⟩
        by_contra hdiff
        exact hnonce ⟨hne, hdiff⟩

/-- The identity is that of an ID token of the provider with the nonce. -/
theorem identity_eq_ok {quote : String → String} {verify : String → Except String IDToken}
    {answers : ProviderAnswers} {nonce userId username : String}
    (h : identity quote verify answers nonce = .ok (userId, username)) :
    ∃ tokenResp idToken claims, answers.exchange = .answer (some tokenResp) ∧
      tokenResp.idToken ≠ "" ∧ verify tokenResp.idToken = .ok idToken ∧
        (nonce ≠ "" → idToken.nonce = nonce) ∧ idToken.claims = .ok claims ∧
          claims.sub = userId := by
  rw [identity] at h
  split at h
  next => cases h
  next =>
    split at h
    next => cases h
    next => cases h
    next => cases h
    next => cases h
    next => cases h
    next tokenResp hexchange =>
      split at h
      next => cases h
      next hne =>
        split at h
        next => cases h
        next idToken hid =>
          obtain ⟨hverify, hnonce⟩ := verifyIDToken_eq_ok hid
          split at h
          next => cases h
          next claims hclaims =>
            refine ⟨tokenResp, idToken, claims, hexchange, hne, hverify, hnonce, hclaims, ?_⟩
            split at h
            next => cases h
            next =>
              split at h
              next => exact (Prod.mk.inj (Except.ok.inj h)).1
              next => exact (Prod.mk.inj (Except.ok.inj h)).1

end CloudPing.Oidc

import CloudPing.Conc.System
import CloudPing.Handler.Login

/-!
# The web auth proxy

`startReverseProxy` of `pkg/cli/web.go`: one key for nonces and for session tokens, the
session check in front of the backend, and the logins.  A run is any sequence of requests
of any clients, with time passing between them.

Signatures can not be forged: a client presents only strings that are not signed, or that
verify to an object that the proxy has signed before (`presentable`).  The claim that the proxy
wants is that only session tokens are accepted as sessions (`Separate`).  It does not hold, since a
nonce is handed to everyone who starts a login, and passes for a session token while it is valid.
Nor is another spelling of a session token one that was issued.  `separate` is the exact condition.
-/

namespace CloudPing.Cli

open Auth Handler Conc

inductive Provider where
  | github
  | google
  | iedon
  | kioubit
  | entra
  deriving DecidableEq, Repr

/-- The proxy as `startReverseProxy` sets it up. -/
structure WebAuthProxy where
  jwt : JWT
  secret : Secret
  jwtIssuer : String := "cloudping-web-proxy"
  redirectIfNoAuth : String := "/login"
  rejectVisitor : Bool := false
  visitorSessionValidity : Duration := 168 * 3600 * second
  loginSessionValidity : Duration := 168 * 3600 * second
  nonceValidity : Duration := 5 * 60 * second
  /-- The login page of a provider with a nonce. -/
  authorizeURL : Provider → String → Option String

namespace WebAuthProxy

variable (proxy : WebAuthProxy)

def jwtValidator : StaticKeyJWTValidator where
  jwt := proxy.jwt
  secret := proxy.secret
  blacklist := nullBlackListProvider
  rejectVisitor := proxy.rejectVisitor

def tokenIssuer : StaticKeyJWTIssuer where
  jwt := proxy.jwt
  issuer := proxy.jwtIssuer
  secret := proxy.secret

def nonceIssuer : StaticKeyNonceIssuer where
  jwt := proxy.jwt
  nonceLifespan := proxy.nonceValidity
  secret := proxy.secret

def visitorLoginHandler : VisitorLoginHandler where
  jwtIssuer := proxy.tokenIssuer
  validity := proxy.visitorSessionValidity

def loginHandler (p : Provider) : OAuthLoginHandler :=
  let handler (h : StaticKeyNonceIssuer → StaticKeyJWTIssuer → Duration →
      (String → Option String) → OAuthLoginHandler) :=
    h proxy.nonceIssuer proxy.tokenIssuer proxy.loginSessionValidity (proxy.authorizeURL p)
  match p with
  | .github => handler githubOAuthLoginHandler
  | .google => handler googleOAuthLoginHandler
  | .iedon => handler (genericOIDCLoginHandler · · · · "iedon")
  | .kioubit => handler (genericOIDCLoginHandler · · · · "kioubit")
  | .entra => handler (entraIDLoginHandler · · · · "")

end WebAuthProxy

/-! ## Runs -/

structure ProxyRun where
  now : Time
  /-- The nonces that were issued, with the time. -/
  nonces : List (String × Time) := []
  /-- The tokens that completed logins ended with. -/
  sessions : List String := []
  /-- The strings that were accepted as a session. -/
  accepted : List String := []

inductive ProxyAction where
  | pass (d : Nat)
  | start (p : Provider) (discovered : Bool) (random : String)
  | callback (p : Provider) (r : Request) (identity : Except Response (String × String))
      (id : String)
  | visitor (ticket : Except String String) (visitorId : Fin 65536) (id subject : String)
  | request (r : Request)
  | profile (r : Request)

namespace ProxyRun

/-- What a client can present: strings that do not verify, and spellings of what was issued. -/
def presentable (proxy : WebAuthProxy) (s : ProxyRun) (tokenString : String) : Bool :=
  match proxy.jwt.verify proxy.secret tokenString with
  | .error _ => true
  | .ok _ => s.sessions.any (proxy.jwt.respells proxy.secret tokenString) ||
    s.nonces.any fun n => proxy.jwt.respells proxy.secret tokenString n.1

/-- A request of a client, which sets no value in the context. -/
def fromClient (proxy : WebAuthProxy) (s : ProxyRun) (r : Request) : Bool :=
  r.justIssuedJWTToken.isNone && s.presentable proxy (extractJWTFromRequest r) &&
    s.presentable proxy (r.queryGet "state")

def issuedNonce (s : ProxyRun) : Option String → ProxyRun
  | none => s
  | some nonce => { s with nonces := (nonce, s.now) :: s.nonces }

def issuedSession (s : ProxyRun) : Option String → ProxyRun
  | none => s
  | some token => { s with sessions := token :: s.sessions }

/-- The outcome of a session check. -/
def checked {α : Type} (s : ProxyRun) (r : Request) : Except String α → ProxyRun
  | .error _ => s
  | .ok _ => { s with accepted := extractJWTFromRequest r :: s.accepted }

def step (proxy : WebAuthProxy) (s : ProxyRun) : ProxyAction → Option ProxyRun
  | .pass d => some { s with now := s.now + d }
  | .start p discovered random =>
    some (s.issuedNonce ((proxy.loginHandler p).handleStart discovered s.now random).2)
  | .callback p r identity id =>
    if s.fromClient proxy r then
      some (s.issuedSession
        ((proxy.loginHandler p).handleAuthorizationCode s.now r identity id).2)
    else none
  | .visitor ticket visitorId id subject =>
    some (s.issuedSession
      (proxy.visitorLoginHandler.serveHTTP s.now ticket visitorId id subject).2)
  | .request r =>
    if s.fromClient proxy r then
      -- without a page to redirect to, the backend is not behind the check
      if proxy.redirectIfNoAuth = "" then some s
      else some (s.checked r (withJWTAuth proxy.jwtValidator s.now r))
    else none
  | .profile r =>
    if s.fromClient proxy r then some (s.checked r (basicProfile proxy.jwtValidator s.now r))
    else none

def system (proxy : WebAuthProxy) (start : Time) : System ProxyRun ProxyAction where
  init := { now := start }
  step := step proxy

@[simp] theorem system_step (proxy : WebAuthProxy) (start : Time) :
    (system proxy start).step = step proxy := rfl

/-! ## The property and its condition -/

/-- Every string that was accepted as a session is the token of a completed login. -/
def Separate (s : ProxyRun) : Prop := ∀ tokenString ∈ s.accepted, tokenString ∈ s.sessions

/-- The window of a nonce. -/
def nonceLive (proxy : WebAuthProxy) (issuedAt now : Time) : Prop :=
  newNumericDate issuedAt * second ≤ now ∧
    now < newNumericDate (issuedAt + proxy.nonceValidity) * second

/-- The string is no spelling of a nonce that is still valid. -/
def noLiveNonce (proxy : WebAuthProxy) (s : ProxyRun) (tokenString : String) : Prop :=
  ∀ n ∈ s.nonces, proxy.jwt.respells proxy.secret tokenString n.1 = true →
    ¬ nonceLive proxy n.2 s.now

/-- A session token in its window, and not that of a visitor where these are rejected. -/
def sessionLive (proxy : WebAuthProxy) (now : Time) (token : String) : Prop :=
  ∃ c : CustomClaimType, token = proxy.jwt.signedString proxy.secret (newMapClaims c) ∧
    c.validate now = .ok () ∧
      ¬ (proxy.rejectVisitor ∧ visitorSubjectPrefix.toList <+: c.subject.toList)

/-- The string is no other spelling of a session token that is still valid. -/
def noRespelling (proxy : WebAuthProxy) (s : ProxyRun) (tokenString : String) : Prop :=
  tokenString ∈ s.sessions ∨ ∀ token ∈ s.sessions,
    proxy.jwt.respells proxy.secret tokenString token = true → ¬ sessionLive proxy s.now token

/-- No session check gets a spelling of a nonce that is still valid, nor another spelling of such a
session token. -/
def separate (proxy : WebAuthProxy) : Policy ProxyRun ProxyAction := fun s a =>
  match a with
  | .request r => proxy.redirectIfNoAuth = "" ∨
    s.noLiveNonce proxy (extractJWTFromRequest r) ∧ s.noRespelling proxy (extractJWTFromRequest r)
  | .profile r =>
    s.noLiveNonce proxy (extractJWTFromRequest r) ∧ s.noRespelling proxy (extractJWTFromRequest r)
  | _ => True

/-! ## What is signed -/

/-- The strings that were issued are what their issuers sign. -/
structure Issued (proxy : WebAuthProxy) (s : ProxyRun) : Prop where
  nonces : ∀ n ∈ s.nonces, ∃ random, n.1 = proxy.nonceIssuer.issueNonce n.2 random
  sessions : ∀ token ∈ s.sessions, ∃ c : CustomClaimType, c.audience = [audSession] ∧
    token = proxy.jwt.signedString proxy.secret (newMapClaims c)

variable {proxy : WebAuthProxy} {s t : ProxyRun} {a : ProxyAction}

/-- No spelling of a nonce is a session token: it has no audience. -/
theorem Issued.nonce_notMem (h : s.Issued proxy) {n : String × Time} (hn : n ∈ s.nonces)
    {tokenString : String} (hspell : proxy.jwt.respells proxy.secret tokenString n.1 = true) :
    tokenString ∉ s.sessions := by
  intro ht
  obtain ⟨random, hr⟩ := h.nonces n hn
  obtain ⟨c, ha, hc⟩ := h.sessions _ ht
  rw [hr, StaticKeyNonceIssuer.issueNonce] at hspell
  have hclaims : newMapClaims c = (proxy.nonceIssuer.claims n.2 random).encode := by
    have hv := JWT.respells_signedString.1 hspell
    rw [hc] at hv
    exact Except.ok.inj ((proxy.jwt.verify_signedString _ _).symm.trans hv)
  have hnone := proxy.nonceIssuer.lookup_aud n.2 random
  rw [← hclaims, newMapClaims, CustomClaimType.lookup_aud (by rw [ha]; decide)] at hnone
  cases hnone

theorem Issued.issuedNonce (h : s.Issued proxy) {nonce : Option String}
    (hn : ∀ n, nonce = some n → ∃ random, n = proxy.nonceIssuer.issueNonce s.now random) :
    (s.issuedNonce nonce).Issued proxy := by
  cases nonce with
  | none => exact h
  | some n =>
    refine ⟨fun n' hn' => ?_, h.sessions⟩
    rcases List.mem_cons.1 hn' with rfl | hn'
    · exact hn n rfl
    · exact h.nonces n' hn'

theorem Issued.issuedSession (h : s.Issued proxy) {token : Option String}
    (ht : ∀ tok, token = some tok → ∃ now lifespan id subject username,
      proxy.tokenIssuer.issueToken (getMapClaims now lifespan id subject username) = .ok tok) :
    (s.issuedSession token).Issued proxy := by
  cases token with
  | none => exact h
  | some tok =>
    refine ⟨h.nonces, fun tok' htok' => ?_⟩
    rcases List.mem_cons.1 htok' with rfl | htok'
    · obtain ⟨now, lifespan, id, subject, username, hok⟩ := ht tok' rfl
      exact ⟨_, rfl, issueToken_eq_ok hok⟩
    · exact h.sessions tok' htok'

theorem loginHandler_issuers (proxy : WebAuthProxy) (p : Provider) :
    (proxy.loginHandler p).nonceIssuer = proxy.nonceIssuer ∧
      (proxy.loginHandler p).tokenIssuer = proxy.tokenIssuer := by
  cases p <;> exact ⟨rfl, rfl⟩

/-- The outcome of a check changes neither the clock nor what was issued. -/
theorem checked_issued {α : Type} (r : Request) (x : Except String α) :
    (s.checked r x).nonces = s.nonces ∧ (s.checked r x).sessions = s.sessions := by
  cases x with
  | error err => exact ⟨rfl, rfl⟩
  | ok x => exact ⟨rfl, rfl⟩

theorem Issued.checked {α : Type} (h : s.Issued proxy) (r : Request) (x : Except String α) :
    (s.checked r x).Issued proxy := by
  obtain ⟨hn, hs⟩ := s.checked_issued r x
  exact ⟨hn ▸ h.nonces, hs ▸ h.sessions⟩

theorem Issued.step (h : s.Issued proxy) (hst : step proxy s a = some t) : t.Issued proxy := by
  cases a with
  | pass d =>
    cases hst
    exact ⟨h.nonces, h.sessions⟩
  | start p discovered random =>
    cases hst
    refine h.issuedNonce fun n hn => ⟨random, ?_⟩
    rw [handleStart_issues hn, (loginHandler_issuers proxy p).1]
  | callback p r identity id =>
    simp only [ProxyRun.step] at hst
    split at hst
    next =>
      cases hst
      refine h.issuedSession fun tok htok => ?_
      obtain ⟨subject, username, hok⟩ := handleAuthorizationCode_issues htok
      rw [(loginHandler_issuers proxy p).2] at hok
      exact ⟨_, _, _, _, _, hok⟩
    next => cases hst
  | visitor ticket visitorId id subject =>
    cases hst
    refine h.issuedSession fun tok htok => ?_
    obtain ⟨username, hok⟩ := serveHTTP_issues htok
    exact ⟨_, _, _, _, _, hok⟩
  | request r =>
    simp only [ProxyRun.step] at hst
    split at hst
    next =>
      split at hst
      next =>
        cases hst
        exact h
      next =>
        cases hst
        exact h.checked r _
    next => cases hst
  | profile r =>
    simp only [ProxyRun.step] at hst
    split at hst
    next =>
      cases hst
      exact h.checked r _
    next => cases hst

theorem issued {start : Time} {ok : Policy ProxyRun ProxyAction}
    (h : (system proxy start).Reachable ok s) : s.Issued proxy :=
  System.Reachable.invariant h ⟨nofun, nofun⟩ fun _ _ _ hi _ hst => hi.step hst

/-! ## What is accepted -/

/-- A spelling of a nonce is accepted exactly in its window. -/
theorem Issued.accepts_nonce (h : s.Issued proxy) {n : String × Time} (hn : n ∈ s.nonces)
    {tokenString : String} (hspell : proxy.jwt.respells proxy.secret tokenString n.1 = true)
    (now : Time) :
    (∃ claims, proxy.jwtValidator.doValidateToken now tokenString = .ok claims) ↔
      nonceLive proxy n.2 now := by
  obtain ⟨random, hr⟩ := h.nonces _ hn
  have hsame : proxy.jwtValidator.doValidateToken now tokenString =
      proxy.jwtValidator.doValidateToken now n.1 :=
    StaticKeyJWTValidator.doValidateToken_respells hspell
  rw [hsame, hr]
  exact StaticKeyJWTValidator.doValidateToken_issueNonce rfl rfl rfl

/-- A spelling of a session token is accepted exactly while that is valid. -/
theorem Issued.accepts_session (h : s.Issued proxy) {token : String} (ht : token ∈ s.sessions)
    {tokenString : String} (hspell : proxy.jwt.respells proxy.secret tokenString token = true)
    (now : Time) :
    (∃ claims, proxy.jwtValidator.doValidateToken now tokenString = .ok claims) ↔
      sessionLive proxy now token := by
  obtain ⟨c, -, hc⟩ := h.sessions _ ht
  have hsame : proxy.jwtValidator.doValidateToken now tokenString =
      proxy.jwtValidator.doValidateToken now token :=
    StaticKeyJWTValidator.doValidateToken_respells hspell
  have hsigned (claims : CustomClaimType) :=
    @StaticKeyJWTValidator.doValidateToken_signedString proxy.jwtValidator now claims c
  rw [hsame, hc]
  constructor
  · rintro ⟨claims, hok⟩
    obtain ⟨-, hw, -, hv⟩ := (hsigned claims).1 hok
    exact ⟨c, rfl, hw, hv⟩
  · rintro ⟨c', hc', hw, hv⟩
    have hclaims := proxy.jwt.signedString_inj hc'
    obtain rfl : c' = c := by
      have hd := c'.decode_encode
      rw [← show newMapClaims c' = c'.encode from rfl, ← hclaims, newMapClaims,
        c.decode_encode] at hd
      exact (Except.ok.inj hd).symm
    exact ⟨c', (hsigned c').2 ⟨rfl, hw, rfl, hv⟩⟩

/-- What is accepted from a client is a session token, another spelling of one that is still valid,
or a spelling of a nonce that is. -/
theorem Issued.accepted_cases (h : s.Issued proxy) {r : Request} (hc : s.fromClient proxy r = true)
    (hok : ∃ claims,
      proxy.jwtValidator.doValidateToken s.now (extractJWTFromRequest r) = .ok claims)
    (hno : s.noLiveNonce proxy (extractJWTFromRequest r) ∧
      s.noRespelling proxy (extractJWTFromRequest r)) :
    extractJWTFromRequest r ∈ s.sessions := by
  simp only [fromClient, Bool.and_eq_true] at hc
  have hp := hc.1.2
  generalize extractJWTFromRequest r = tokenString at hok hp hno ⊢
  obtain ⟨claims, hclaims⟩ := hok
  obtain ⟨m, hv, _⟩ := JWT.parse_eq_ok.1 (StaticKeyJWTValidator.doValidateToken_eq_ok.1 hclaims).1
  rw [presentable, show proxy.jwt.verify proxy.secret tokenString = .ok m from hv] at hp
  rcases Bool.or_eq_true_iff.1 hp with hs | hn
  · obtain ⟨token, hmem, hspell⟩ := List.any_eq_true.1 hs
    refine hno.2.resolve_right fun hrespelled => hrespelled token hmem hspell ?_
    exact (h.accepts_session hmem hspell s.now).1 ⟨claims, hclaims⟩
  · obtain ⟨n, hmem, hspell⟩ := List.any_eq_true.1 hn
    exact absurd ((h.accepts_nonce hmem hspell s.now).1 ⟨claims, hclaims⟩) (hno.1 n hmem hspell)

theorem Separate.checked {α : Type} {x : Except String α} {r : Request} (hsep : s.Separate)
    (hx : (∃ y, x = .ok y) → extractJWTFromRequest r ∈ s.sessions) :
    (s.checked r x).Separate := by
  cases x with
  | error err => exact hsep
  | ok y =>
    intro tok htok
    rcases List.mem_cons.1 htok with rfl | htok
    · exact hx ⟨y, rfl⟩
    · exact hsep tok htok

theorem Separate.issuedSession (hsep : s.Separate) (token : Option String) :
    (s.issuedSession token).Separate := by
  cases token with
  | none => exact hsep
  | some tok => exact fun tok' htok' => List.mem_cons_of_mem _ (hsep tok' htok')

theorem Separate.issuedNonce (hsep : s.Separate) (nonce : Option String) :
    (s.issuedNonce nonce).Separate := by
  cases nonce with
  | none => exact hsep
  | some n => exact hsep

theorem Separate.step (hsep : s.Separate) (h : s.Issued proxy) (hok : separate proxy s a)
    (hst : step proxy s a = some t) : t.Separate := by
  cases a with
  | pass d =>
    cases hst
    exact hsep
  | start p discovered random =>
    cases hst
    exact hsep.issuedNonce _
  | callback p r identity id =>
    simp only [ProxyRun.step] at hst
    split at hst
    next =>
      cases hst
      exact hsep.issuedSession _
    next => cases hst
  | visitor ticket visitorId id subject =>
    cases hst
    exact hsep.issuedSession _
  | request r =>
    simp only [ProxyRun.step] at hst
    split at hst
    next hc =>
      split at hst
      next =>
        cases hst
        exact hsep
      next hne =>
        cases hst
        refine hsep.checked fun hy => ?_
        exact h.accepted_cases hc (withJWTAuth_ok.1 hy) (hok.resolve_left hne)
    next => cases hst
  | profile r =>
    simp only [ProxyRun.step] at hst
    split at hst
    next hc =>
      cases hst
      refine hsep.checked fun hy => ?_
      exact h.accepted_cases hc (basicProfile_ok.1 hy) hok
    next => cases hst

/-- A nonce that is still valid is accepted, and is no session token; and so is a respelled session
token. -/
theorem Issued.not_separate {α : Type} (h : s.Issued proxy) {r : Request} {x : Except String α}
    (hn : ¬ (s.noLiveNonce proxy (extractJWTFromRequest r) ∧
      s.noRespelling proxy (extractJWTFromRequest r)))
    (hx : (∃ y, x = .ok y) ↔
      ∃ claims, proxy.jwtValidator.doValidateToken s.now (extractJWTFromRequest r) = .ok claims) :
    ¬ (s.checked r x).Separate := by
  have hbad : (∃ claims,
      proxy.jwtValidator.doValidateToken s.now (extractJWTFromRequest r) = .ok claims) ∧
        extractJWTFromRequest r ∉ s.sessions := by
    rcases not_and_or.1 hn with hn | hn
    · simp only [noLiveNonce, not_forall, not_not] at hn
      obtain ⟨n, hmem, hspell, hlive⟩ := hn
      exact ⟨(h.accepts_nonce hmem hspell s.now).2 hlive, h.nonce_notMem hmem hspell⟩
    · simp only [noRespelling, not_or, not_forall, not_not] at hn
      obtain ⟨hout, token, hmem, hspell, hlive⟩ := hn
      exact ⟨(h.accepts_session hmem hspell s.now).2 hlive, hout⟩
  obtain ⟨y, rfl⟩ := hx.2 hbad.1
  exact fun hsep => hbad.2 (hsep _ List.mem_cons_self)

/-- The condition is exact: in runs that meet it only session tokens are accepted, and each
step that does not meet it has something else accepted. -/
theorem token_separation (proxy : WebAuthProxy) (start : Time) :
    (system proxy start).Guards (separate proxy) Separate where
  safe s h :=
    System.Reachable.invariant_with h (fun _ hr => issued hr) nofun
      fun _ _ _ hi hsep hok hst => hsep.step hi hok hst
  tight s a t h hst hok := by
    refine ⟨t, .refl, ?_⟩
    have hi := issued h
    cases a with
    | pass d => exact absurd trivial hok
    | start p discovered random => exact absurd trivial hok
    | callback p r identity id => exact absurd trivial hok
    | visitor ticket visitorId id subject => exact absurd trivial hok
    | request r =>
      obtain ⟨hne, hn⟩ := not_or.1 hok
      simp only [system_step, ProxyRun.step] at hst
      split at hst
      next =>
        cases hst
        exact hi.not_separate hn withJWTAuth_ok
      next => cases hst
    | profile r =>
      simp only [system_step, ProxyRun.step] at hst
      split at hst
      next =>
        cases hst
        exact hi.not_separate hok basicProfile_ok
      next => cases hst

/-- A proxy with the default settings, at the start of 1970. -/
def plainProxy : WebAuthProxy where
  jwt := .plain
  secret := [115, 101, 99, 114, 101, 116]
  authorizeURL := fun _ nonce => some ("/authorize?state=" ++ nonce)

theorem token_separation_plain : (system plainProxy 0).Guards (separate plainProxy) Separate :=
  token_separation plainProxy 0

/-- A client that presents a string as its session cookie. -/
def cookieRequest (tokenString : String) : Request :=
  { cookies := [(defaultJWTCookieKey, tokenString)] }

theorem extract_cookieRequest (tokenString : String) :
    extractJWTFromRequest (cookieRequest tokenString) = tokenString := by
  have hempty : trimPrefix (trimPrefix "" "Bearer ") "bearer " = "" := by decide
  simp [extractJWTFromRequest, cookieRequest, hempty, Request.cookie]

/-- What was issued can be presented as a cookie. -/
theorem fromClient_cookieRequest {tokenString : String}
    (hn : tokenString ∈ s.nonces.map Prod.fst) :
    s.fromClient plainProxy (cookieRequest tokenString) = true := by
  have htok : s.presentable plainProxy tokenString = true := by
    rw [presentable]
    split
    next => rfl
    next m hv =>
      obtain ⟨n, hmem, rfl⟩ := List.mem_map.1 hn
      have hspell := JWT.respells_self hv
      rw [List.any_eq_true.2 ⟨n, hmem, hspell⟩, Bool.or_true]
  have hstate : s.presentable plainProxy "" = true := rfl
  rw [fromClient, extract_cookieRequest, htok]
  exact hstate

/-- An anonymous client starts a login and presents the nonce as its session cookie. -/
theorem nonce_accepted :
    ∃ nonce s, (system plainProxy 0).Reachable .any s ∧
      (∃ random, nonce = plainProxy.nonceIssuer.issueNonce 0 random) ∧
      nonce ∈ s.accepted ∧ s.sessions = [] := by
  let random := "AAAAAAAAAAAAAAAAAAAAAA=="
  let nonce := plainProxy.nonceIssuer.issueNonce 0 random
  let started : ProxyRun := { now := 0, nonces := [(nonce, 0)] }
  have hstart : (system plainProxy 0).Reachable .any started :=
    System.Reach.tail (a := .start .github true random) .refl trivial rfl
  obtain ⟨session, hok⟩ :
      ∃ session, withJWTAuth plainProxy.jwtValidator 0 (cookieRequest nonce) = .ok session := by
    refine withJWTAuth_ok.2 ?_
    rw [extract_cookieRequest]
    exact (StaticKeyJWTValidator.doValidateToken_issueNonce rfl rfl rfl).2 (by decide)
  have hclient : started.fromClient plainProxy (cookieRequest nonce) = true :=
    fromClient_cookieRequest List.mem_cons_self
  have hne : plainProxy.redirectIfNoAuth ≠ "" := by decide
  have hstep : (system plainProxy 0).step started (.request (cookieRequest nonce)) =
      some (started.checked (cookieRequest nonce) (.ok session)) := by
    simp only [system_step, step, hclient, if_true, if_neg hne, started, hok]
  refine ⟨nonce, _, hstart.tail trivial hstep, ⟨random, rfl⟩, ?_, rfl⟩
  exact List.mem_cons.2 (.inl (extract_cookieRequest nonce).symm)

end ProxyRun

end CloudPing.Cli

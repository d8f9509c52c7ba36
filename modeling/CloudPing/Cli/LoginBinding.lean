import CloudPing.Cli.WebProxy
import CloudPing.Oidc.Identity
import Mathlib.Logic.Function.Basic

/-!
# Whose session a client has

A login with an OIDC provider has three parties.  The browser gets a nonce from the proxy, as a
cookie and in the URL of the provider.  There a user allows the request with that nonce, and the
provider answers with a code.  The browser takes the code to the proxy, which exchanges it for an
ID token of the provider and sets a session cookie.

The proxy compares the nonce of the callback with the cookie and with the ID token.  So a client
has the session of a user only if the user allowed a request with a nonce that the client itself
was given, and did so in the client if that is an honest browser (`session_bound`).  A link puts
nobody else's session into a browser, and a code that gets known is of no use to others.  What the
other providers say does not matter, though they share the nonces and the cookies.

Nor does it help the adversary that a string which is signed has more than one spelling: what it
presents are spellings of its own nonces and tokens (`Given`).
-/

namespace CloudPing.Cli

open Auth Handler Conc Oidc

/-! ## Parties -/

/-- Who sends requests: honest browsers, and everyone else. -/
inductive Client where
  | browser (id : Nat)
  | adversary
  deriving DecidableEq, Repr

/-- A request that a user allowed at the provider, with the code for it. -/
structure Grant where
  client : Client
  user : String
  nonce : String
  code : String

/-- An OIDC provider, and the check of its ID tokens by the library. -/
structure OIDCProvider where
  idToken : Grant → String
  verify : Time → String → Except String IDToken
  verify_idToken : ∀ now g token, verify now (idToken g) = .ok token →
    token.nonce = g.nonce ∧ ∀ claims, token.claims = .ok claims → claims.sub = g.user

/-- The cookies of a browser. -/
abbrev Jar := String → Option String

/-- A cookie is kept, or removed if it is empty, which the proxy also says with its age. -/
def setCookie (jar : Jar) (cookie : String × String) : Jar :=
  Function.update jar cookie.1 (if cookie.2 = "" then none else some cookie.2)

/-- `LogoutHandler.ServeHTTP`. -/
def logoutHandler (redirectAfterLogout method : String) : Response :=
  if method ≠ "POST" then
    { status := 405, error := "method " ++ method ++ " not allowed, use POST" }
  else
    { status := 302
      setCookies := [(defaultJWTCookieKey, ""), (defaultNonceCookieKey, "")]
      location := if redirectAfterLogout ≠ "" then redirectAfterLogout else "/" }

/-! ## Runs -/

structure LoginRun where
  now : Time
  jars : Nat → Jar := fun _ _ => none
  /-- The nonces and the session tokens, with the client that was given each. -/
  issued : List (Client × String) := []
  grants : List Grant := []
  /-- The callbacks that clients have sent. -/
  requests : List (Client × Request) := []

inductive LoginAction where
  | pass (d : Nat)
  | start (client : Client) (q : Provider) (discovered : Bool) (random : String)
  /-- At the provider a user allows a request. -/
  | authorize (g : Grant)
  | send (client : Client) (r : Request)
  /-- The proxy handles a callback. -/
  | callback (i : Nat) (answers : ProviderAnswers) (id : String)
  /-- The same with another provider, which says what it likes. -/
  | otherCallback (i : Nat) (q : Provider) (identity : Except Response (String × String))
      (id : String)
  | visitor (client : Client) (ticket : Except String String) (visitorId : Fin 65536)
      (id subject : String)
  | logout (client : Client) (method : String)

/-- The login, with its provider. -/
structure LoginSetup where
  proxy : WebAuthProxy
  p : Provider
  oidc : p = .iedon ∨ p = .kioubit
  provider : OIDCProvider
  /-- `%q`. -/
  quote : String → String

namespace LoginRun

variable (setup : LoginSetup)

/-- A string that is new is random, and nobody has guessed it. -/
def fresh (s : LoginRun) (str : String) : Bool :=
  s.issued.all (fun e => e.2 ≠ str) && s.grants.all fun g => g.nonce ≠ str

/-- A client does not know what was given to honest browsers other than itself. -/
def knows (s : LoginRun) (client : Client) (str : String) : Bool :=
  s.issued.all fun e => e.2 ≠ str ∨ e.1 = client ∨ e.1 = .adversary

/-- Signatures cannot be forged, but what is signed has more than one spelling. -/
def presentable (s : LoginRun) (client : Client) (str : String) : Bool :=
  match setup.proxy.jwt.verify setup.proxy.secret str with
  | .error _ => true
  | .ok _ => s.issued.any fun e =>
      e.1 = client && setup.proxy.jwt.respells setup.proxy.secret str e.2

/-- The cookies of a request are those of the browser, or what the adversary can present. -/
def fromClient (s : LoginRun) (client : Client) (r : Request) : Bool :=
  r.justIssuedJWTToken.isNone && match client with
  | .browser id => r.authorization = "" &&
      [defaultNonceCookieKey, defaultJWTCookieKey].all fun name => r.cookie name = s.jars id name
  | .adversary => s.presentable setup client (extractJWTFromRequest r) &&
      s.presentable setup client ((r.cookie defaultNonceCookieKey).getD "")

/-- The ID token is for a grant with the code. -/
def honest (s : LoginRun) (code : String) : TokenExchange → Bool
  | .answer (some tokenResp) => tokenResp.idToken = "" ||
      s.grants.any fun g => g.code = code && tokenResp.idToken = setup.provider.idToken g
  | _ => true

/-- A client gets a response, with the nonce or the token in it. -/
def deliver (s : LoginRun) (client : Client) (resp : Response × Option String) :
    Option LoginRun :=
  if resp.2.all s.fresh then
    some { s with
      jars := match client with
        | .browser id => Function.update s.jars id (resp.1.setCookies.foldl setCookie (s.jars id))
        | .adversary => s.jars
      issued := resp.2.toList.map (Prod.mk client) ++ s.issued }
  else none

def step (s : LoginRun) : LoginAction → Option LoginRun
  | .pass d => some { s with now := s.now + d }
  | .start client q discovered random =>
    s.deliver client ((setup.proxy.loginHandler q).handleStart discovered s.now random)
  | .authorize g =>
    if s.knows g.client g.nonce then some { s with grants := g :: s.grants } else none
  | .send client r =>
    if s.fromClient setup client r then some { s with requests := s.requests ++ [(client, r)] }
    else none
  | .callback i answers id =>
    match s.requests[i]? with
    | some (client, r) =>
      if s.honest setup (r.queryGet "code") answers.exchange then
        s.deliver client ((setup.proxy.loginHandler setup.p).handleAuthorizationCode s.now r
          (identity setup.quote (setup.provider.verify s.now) answers (r.queryGet "state")) id)
      else none
    | none => none
  | .otherCallback i q identity id =>
    match s.requests[i]? with
    | some (client, r) =>
      if q ≠ setup.p then
        s.deliver client ((setup.proxy.loginHandler q).handleAuthorizationCode s.now r identity id)
      else none
    | none => none
  | .visitor client ticket visitorId id subject =>
    s.deliver client
      (setup.proxy.visitorLoginHandler.serveHTTP s.now ticket visitorId id subject)
  | .logout client method => s.deliver client (logoutHandler "" method, none)

def system (start : Time) : System LoginRun LoginAction where
  init := { now := start }
  step := step setup

variable {setup} in
/-- One more step of a run. -/
theorem reach_step {start : Time} {ok : Policy LoginRun LoginAction} {s t u : LoginRun}
    {a : LoginAction} (h : (system setup start).Reach ok s t) (hok : ok t a)
    (hst : step setup t a = some u) : (system setup start).Reach ok s u := h.tail hok hst

/-! ## The invariant -/

/-- A browser was given the nonce.  The adversary may spell one of its own anew. -/
def Given (s : LoginRun) : Client → String → Prop
  | .browser id, nonce => (.browser id, nonce) ∈ s.issued
  | .adversary, nonce => ∃ str, (.adversary, str) ∈ s.issued ∧
      setup.proxy.jwt.respells setup.proxy.secret nonce str = true

/-- The user allowed a request with a nonce that the client was given. -/
def Bound (s : LoginRun) (client : Client) (user : String) : Prop :=
  ∃ g ∈ s.grants, g.user = user ∧ s.Given setup client g.nonce

/-- A string that the proxy signed, and if it is a session of a user, one that is bound. -/
def Signed (s : LoginRun) (client : Client) (str : String) : Prop :=
  ∃ m, str = setup.proxy.jwt.signedString setup.proxy.secret m ∧
    ∀ claims, CustomClaimType.decode m = .ok claims →
      ∀ user, claims.subject = (setup.proxy.loginHandler setup.p).subjectPrefix ++ user →
        s.Bound setup client user

structure Intact (s : LoginRun) : Prop where
  jars : ∀ id name str, s.jars id name = some str → (.browser id, str) ∈ s.issued
  grants : ∀ g ∈ s.grants, ∀ client, (client, g.nonce) ∈ s.issued →
    client = g.client ∨ client = .adversary
  issued : ∀ client str, (client, str) ∈ s.issued → s.Signed setup client str
  /-- The nonce of a callback is one that the client was given, if it is signed. -/
  requests : ∀ q ∈ s.requests, ∀ nonce, q.2.cookie defaultNonceCookieKey = some nonce →
    (∃ m, setup.proxy.jwt.verify setup.proxy.secret nonce = .ok m) → s.Given setup q.1 nonce

variable {setup : LoginSetup} {s t : LoginRun} {client : Client} {user : String}

theorem Given.mono {nonce : String} (h : s.Given setup client nonce)
    (hissued : s.issued ⊆ t.issued) : t.Given setup client nonce := by
  cases client with
  | browser id => exact hissued h
  | adversary =>
    obtain ⟨str, hstr, hspell⟩ := h
    exact ⟨str, hissued hstr, hspell⟩

theorem Bound.mono (hb : s.Bound setup client user) (hgrants : s.grants ⊆ t.grants)
    (hissued : s.issued ⊆ t.issued) : t.Bound setup client user := by
  obtain ⟨g, hg, huser, hnonce⟩ := hb
  exact ⟨g, hgrants hg, huser, hnonce.mono hissued⟩

theorem Signed.mono {str : String} (h : s.Signed setup client str) (hgrants : s.grants ⊆ t.grants)
    (hissued : s.issued ⊆ t.issued) : t.Signed setup client str := by
  obtain ⟨m, hm, hbound⟩ := h
  exact ⟨m, hm, fun claims hd user hsub => (hbound claims hd user hsub).mono hgrants hissued⟩

/-! ## Subjects -/

/-- The prefix of the subjects of a provider. -/
def subjectPrefix : Provider → String
  | .github => "github:"
  | .google => "google:"
  | .iedon => "oidc-iedon:"
  | .kioubit => "oidc-kioubit:"
  | .entra => "entraid-entra:"

theorem loginHandler_subjectPrefix (proxy : WebAuthProxy) (q : Provider) :
    (proxy.loginHandler q).subjectPrefix = subjectPrefix q := by
  cases q <;> rfl

/-- Neither is the beginning of the other. -/
def Apart (a b : String) : Prop := ¬ a.toList <+: b.toList ∧ ¬ b.toList <+: a.toList

instance (a b : String) : Decidable (Apart a b) := instDecidableAnd

theorem ne_of_apart {a b : String} (h : Apart a b) (x y : String) : a ++ x ≠ b ++ y := by
  intro heq
  have hlist : a.toList ++ x.toList = b.toList ++ y.toList := by
    rw [← String.toList_append, ← String.toList_append, heq]
  rcases List.prefix_or_prefix_of_prefix (List.prefix_append a.toList x.toList)
    (hlist ▸ List.prefix_append b.toList y.toList) with hpre | hpre
  · exact h.1 hpre
  · exact h.2 hpre

theorem subjectPrefix_apart {p q : Provider} (h : q ≠ p) :
    Apart (subjectPrefix q) (subjectPrefix p) := by
  cases q <;> cases p <;> first | exact absurd rfl h | decide

theorem visitor_apart (p : Provider) : Apart visitorSubjectPrefix (subjectPrefix p) := by
  cases p <;> decide

theorem subjectPrefix_ne_empty (p : Provider) : subjectPrefix p ≠ "" := by
  cases p <;> decide

/-! ## Responses -/

section Responses

variable {h : OAuthLoginHandler} {now : Time} {r : Request} {token : String}

/-- A response sets a cookie to what it gives, or removes it. -/
def Sets (resp : Response × Option String) : Prop :=
  ∀ cookie ∈ resp.1.setCookies, cookie.2 = "" ∨ resp.2 = some cookie.2

theorem handleStart_sets (h : OAuthLoginHandler) (discovered : Bool) (now : Time)
    (random : String) : Sets (h.handleStart discovered now random) := by
  intro cookie hc
  rw [OAuthLoginHandler.handleStart] at hc ⊢
  split at hc
  next hd => exact absurd hc List.not_mem_nil
  next hd =>
    rw [if_neg hd]
    dsimp only at hc ⊢
    split at hc
    next hurl =>
      obtain rfl := List.mem_singleton.1 hc
      exact .inr rfl
    next redirURL hurl =>
      obtain rfl := List.mem_singleton.1 hc
      exact .inr rfl

/-- The cookie that is removed. -/
theorem removed {clears : Bool} {cookie : String × String}
    (hc : cookie ∈ if clears then [(defaultNonceCookieKey, "")] else []) : cookie.2 = "" := by
  split at hc
  next =>
    obtain rfl := List.mem_singleton.1 hc
    rfl
  next => exact absurd hc List.not_mem_nil

theorem handleAuthorizationCode_sets (h : OAuthLoginHandler) (now : Time) (r : Request)
    (identity : Except Response (String × String)) (id : String) :
    Sets (h.handleAuthorizationCode now r identity id) := by
  intro cookie hc
  simp only [OAuthLoginHandler.handleAuthorizationCode] at hc ⊢
  split at hc
  next => exact absurd hc List.not_mem_nil
  next herr =>
    rw [if_neg herr]
    split at hc
    next => exact absurd hc List.not_mem_nil
    next nonceFromCookie hcookie =>
      split at hc
      next => exact absurd hc List.not_mem_nil
      next hnonce =>
        rw [if_neg hnonce]
        split at hc
        next => exact absurd hc List.not_mem_nil
        next => exact absurd hc List.not_mem_nil
        next hvalid =>
          split at hc
          next => exact .inl (removed hc)
          next hcode =>
            rw [if_neg hcode]
            split at hc
            next => exact .inl (removed hc)
            next userId username =>
              split at hc
              next => exact .inl (removed hc)
              next token htoken =>
                rcases List.mem_append.1 hc with hc | hc
                · exact .inl (removed hc)
                · obtain rfl := List.mem_singleton.1 hc
                  exact .inr rfl

theorem serveHTTP_sets (v : VisitorLoginHandler) (now : Time) (ticket : Except String String)
    (visitorId : Fin 65536) (id subject : String) :
    Sets (v.serveHTTP now ticket visitorId id subject) := by
  intro cookie hc
  simp only [VisitorLoginHandler.serveHTTP] at hc ⊢
  split at hc
  next => exact absurd hc List.not_mem_nil
  next =>
    split at hc
    next => exact absurd hc List.not_mem_nil
    next token htoken =>
      obtain rfl := List.mem_singleton.1 hc
      exact .inr rfl

/-- A login is completed with the nonce of the cookie, which is valid, and with the identity. -/
theorem handleAuthorizationCode_completed {identity : Except Response (String × String)}
    {id : String} (ht : (h.handleAuthorizationCode now r identity id).2 = some token) :
    r.cookie defaultNonceCookieKey = some (r.queryGet "state") ∧
      h.nonceIssuer.validateNonce now (r.queryGet "state") = .ok true ∧
        ∃ userId username, identity = .ok (userId, username) ∧
          h.tokenIssuer.issueToken (getMapClaims now h.sessionLifespan id
            (h.subjectPrefix ++ userId) username) = .ok token := by
  simp only [OAuthLoginHandler.handleAuthorizationCode] at ht
  split at ht
  next => cases ht
  next =>
    split at ht
    next => cases ht
    next nonceFromCookie hcookie =>
      split at ht
      next => cases ht
      next hnonce =>
        obtain rfl := not_not.1 hnonce
        split at ht
        next => cases ht
        next => cases ht
        next hvalid =>
          split at ht
          next => cases ht
          next =>
            split at ht
            next => cases ht
            next userId username =>
              split at ht
              next => cases ht
              next heq =>
                cases ht
                exact ⟨hcookie, hvalid, userId, username, rfl, heq⟩

/-- And with these, it is. -/
theorem handleAuthorizationCode_of {identity : Except Response (String × String)}
    {id userId username : String} (herr : r.queryGet "error" = "")
    (hcookie : r.cookie defaultNonceCookieKey = some (r.queryGet "state"))
    (hvalid : h.nonceIssuer.validateNonce now (r.queryGet "state") = .ok true)
    (hcode : r.queryGet "code" ≠ "") (hidentity : identity = .ok (userId, username))
    (hissue : h.tokenIssuer.issueToken (getMapClaims now h.sessionLifespan id
      (h.subjectPrefix ++ userId) username) = .ok token) :
    (h.handleAuthorizationCode now r identity id).2 = some token ∧
      ∃ cleared, (h.handleAuthorizationCode now r identity id).1.setCookies =
        cleared ++ [(defaultJWTCookieKey, token)] := by
  simp only [OAuthLoginHandler.handleAuthorizationCode, herr, hcookie, hvalid, if_neg hcode,
    hidentity, hissue, ne_eq, not_true_eq_false, if_false]
  exact ⟨trivial, _, rfl⟩

/-- A nonce that is valid is signed. -/
theorem verify_of_validateNonce {n : StaticKeyNonceIssuer} {nonce : String}
    (h : n.validateNonce now nonce = .ok true) : ∃ m, n.jwt.verify n.secret nonce = .ok m := by
  rw [StaticKeyNonceIssuer.validateNonce] at h
  split at h
  next => cases h
  next claims hparse =>
    obtain ⟨m, hm, -⟩ := JWT.parse_eq_ok.1 hparse
    exact ⟨m, hm⟩

end Responses

/-! ## Cookies -/

/-- What is in a jar was there, or is a cookie that was set. -/
theorem foldl_setCookie {cookies : List (String × String)} {jar : Jar} {name str : String}
    (h : cookies.foldl setCookie jar name = some str) :
    jar name = some str ∨ str ≠ "" ∧ (name, str) ∈ cookies := by
  induction cookies generalizing jar with
  | nil => exact .inl h
  | cons cookie cookies ih =>
    rcases ih h with hjar | ⟨hne, hmem⟩
    · by_cases hname : name = cookie.1
      · subst hname
        rw [setCookie, Function.update_self] at hjar
        split at hjar
        next => cases hjar
        next hne =>
          obtain rfl := Option.some.inj hjar
          exact .inr ⟨hne, List.mem_cons_self⟩
      · rw [setCookie, Function.update_of_ne hname] at hjar
        exact .inl hjar
    · exact .inr ⟨hne, List.mem_cons_of_mem _ hmem⟩

/-! ## One step -/

section Steps

/-- A client gets what is signed. -/
theorem Intact.deliver {resp : Response × Option String} (hi : s.Intact setup)
    (hsets : Sets resp) (hsigned : ∀ str, resp.2 = some str → s.Signed setup client str)
    (hst : s.deliver client resp = some t) : t.Intact setup := by
  obtain ⟨hfresh, hst⟩ := Option.ite_none_right_eq_some.1 hst
  cases hst
  have hold : s.issued ⊆ resp.2.toList.map (Prod.mk client) ++ s.issued :=
    List.subset_append_right _ _
  have hnew : ∀ {str : String}, resp.2 = some str →
      (client, str) ∈ resp.2.toList.map (Prod.mk client) ++ s.issued := fun {str} h =>
    List.mem_append_left _ (List.mem_map.2 ⟨str, Option.mem_toList.2 h, rfl⟩)
  refine ⟨fun id name str hjar => ?_, fun g hg client' hmem => ?_, fun client' str hmem => ?_,
    fun q hq nonce hcookie hverify => (hi.requests q hq nonce hcookie hverify).mono hold⟩
  · cases client with
    | adversary => exact hold (hi.jars id name str hjar)
    | browser id' =>
      by_cases hid : id = id'
      · subst hid
        dsimp only at hjar
        rw [Function.update_self] at hjar
        rcases foldl_setCookie hjar with hjar | ⟨hne, hcookie⟩
        · exact hold (hi.jars id name str hjar)
        · rcases hsets _ hcookie with hempty | hgiven
          · exact absurd hempty hne
          · exact hnew hgiven
      · dsimp only at hjar
        rw [Function.update_of_ne hid] at hjar
        exact hold (hi.jars id name str hjar)
  · rcases List.mem_append.1 hmem with hmem | hmem
    · obtain ⟨str, hstr, heq⟩ := List.mem_map.1 hmem
      obtain ⟨-, rfl⟩ := Prod.mk.inj heq
      rw [Option.mem_toList.1 hstr] at hfresh
      obtain ⟨-, hgrants⟩ := Bool.and_eq_true_iff.1 hfresh
      exact absurd rfl (of_decide_eq_true (List.all_eq_true.1 hgrants g hg))
    · exact hi.grants g hg client' hmem
  · rcases List.mem_append.1 hmem with hmem | hmem
    · obtain ⟨str', hstr, heq⟩ := List.mem_map.1 hmem
      obtain ⟨rfl, rfl⟩ := Prod.mk.inj heq
      exact (hsigned str' (Option.mem_toList.1 hstr)).mono (List.Subset.refl _) hold
    · exact (hi.issued client' str hmem).mono (List.Subset.refl _) hold

/-- A nonce is the session of nobody. -/
theorem signed_nonce {q : Provider} {now : Time} {random : String} :
    s.Signed setup client ((setup.proxy.loginHandler q).nonceIssuer.issueNonce now random) := by
  rw [(ProxyRun.loginHandler_issuers setup.proxy q).1]
  refine ⟨_, rfl, fun claims hd user hsub => ?_⟩
  cases (StaticKeyNonceIssuer.decode_claims _ now random).symm.trans hd
  rw [loginHandler_subjectPrefix] at hsub
  have hnil := congrArg String.toList hsub.symm
  rw [String.toList_append] at hnil
  exact absurd (String.toList_eq_nil_iff.1 (List.append_eq_nil_iff.1 hnil).1)
    (subjectPrefix_ne_empty setup.p)

/-- A session is bound if its subject is one of the provider. -/
theorem signed_session {now : Time} {lifespan : Duration} {id subject username str : String}
    (hissue : setup.proxy.tokenIssuer.issueToken (getMapClaims now lifespan id subject username) =
      .ok str)
    (hbound : ∀ user, subject = subjectPrefix setup.p ++ user → s.Bound setup client user) :
    s.Signed setup client str := by
  refine ⟨_, issueToken_eq_ok hissue, fun claims hd user hsub => hbound user ?_⟩
  rw [getMapClaims, newMapClaims, CustomClaimType.decode_encode] at hd
  cases hd
  rwa [loginHandler_subjectPrefix] at hsub

/-- A string that verifies is presented by a client that was given a spelling of it. -/
theorem issued_of_presentable {str : String} {m : MapClaims}
    (hpresentable : s.presentable setup client str = true)
    (hm : setup.proxy.jwt.verify setup.proxy.secret str = .ok m) :
    ∃ issued, (client, issued) ∈ s.issued ∧
      setup.proxy.jwt.respells setup.proxy.secret str issued = true := by
  rw [presentable, hm] at hpresentable
  obtain ⟨⟨client', issued⟩, hmem, hsame⟩ := List.any_eq_true.1 hpresentable
  obtain ⟨hclient, hspell⟩ := Bool.and_eq_true_iff.1 hsame
  obtain rfl : client' = client := of_decide_eq_true hclient
  exact ⟨issued, hmem, hspell⟩

/-- What a client sends. -/
theorem given_of_fromClient (hi : s.Intact setup) {r : Request} {nonce : String}
    (hclient : s.fromClient setup client r = true)
    (hcookie : r.cookie defaultNonceCookieKey = some nonce)
    (hverify : ∃ m, setup.proxy.jwt.verify setup.proxy.secret nonce = .ok m) :
    s.Given setup client nonce := by
  obtain ⟨-, hclient⟩ := Bool.and_eq_true_iff.1 hclient
  cases client with
  | browser id =>
    obtain ⟨-, hcookies⟩ := Bool.and_eq_true_iff.1 hclient
    have hjar := of_decide_eq_true
      (List.all_eq_true.1 hcookies defaultNonceCookieKey List.mem_cons_self)
    exact hi.jars id _ nonce (hjar.symm.trans hcookie)
  | adversary =>
    obtain ⟨-, hpresentable⟩ := Bool.and_eq_true_iff.1 hclient
    obtain ⟨m, hm⟩ := hverify
    rw [hcookie, Option.getD_some] at hpresentable
    exact issued_of_presentable hpresentable hm

/-- The login is completed for a user who allowed a request with the nonce. -/
theorem bound_of_callback
    (hempty : ∃ err, setup.proxy.jwt.verify setup.proxy.secret "" = .error err)
    (hi : s.Intact setup) {r : Request} {answers : ProviderAnswers} {userId username : String}
    (hrequest : (client, r) ∈ s.requests)
    (hhonest : s.honest setup (r.queryGet "code") answers.exchange = true)
    (hcookie : r.cookie defaultNonceCookieKey = some (r.queryGet "state"))
    (hvalid : setup.proxy.nonceIssuer.validateNonce s.now (r.queryGet "state") = .ok true)
    (hidentity : identity setup.quote (setup.provider.verify s.now) answers (r.queryGet "state") =
      .ok (userId, username)) : s.Bound setup client userId := by
  have hverify := verify_of_validateNonce hvalid
  have hnonce := hi.requests _ hrequest _ hcookie hverify
  have hne : r.queryGet "state" ≠ "" := by
    intro hnil
    obtain ⟨err, herr⟩ := hempty
    obtain ⟨m, hm⟩ := hverify
    rw [hnil] at hm
    cases herr.symm.trans hm
  obtain ⟨tokenResp, idToken, claims, hexchange, hid, hidToken, hsame, hclaims, hsub⟩ :=
    identity_eq_ok hidentity
  rw [hexchange] at hhonest
  rcases Bool.or_eq_true_iff.1 hhonest with hnone | hgrant
  · exact absurd (of_decide_eq_true hnone) hid
  · obtain ⟨g, hg, hgrant⟩ := List.any_eq_true.1 hgrant
    obtain ⟨-, htoken⟩ := Bool.and_eq_true_iff.1 hgrant
    rw [of_decide_eq_true htoken] at hidToken
    obtain ⟨hgnonce, hguser⟩ := setup.provider.verify_idToken _ _ _ hidToken
    refine ⟨g, hg, (hguser claims hclaims).symm.trans hsub, ?_⟩
    rw [← hgnonce, hsame hne]
    exact hnonce

theorem callback_eq {i : Nat} {answers : ProviderAnswers} {id : String}
    (hst : step setup s (.callback i answers id) = some t) :
    ∃ client r, s.requests[i]? = some (client, r) ∧
      s.honest setup (r.queryGet "code") answers.exchange = true ∧
      s.deliver client ((setup.proxy.loginHandler setup.p).handleAuthorizationCode s.now r
        (identity setup.quote (setup.provider.verify s.now) answers (r.queryGet "state")) id) =
          some t := by
  simp only [step] at hst
  split at hst
  next client r hrequest =>
    obtain ⟨hhonest, hst⟩ := Option.ite_none_right_eq_some.1 hst
    exact ⟨client, r, hrequest, hhonest, hst⟩
  next => cases hst

theorem otherCallback_eq {i : Nat} {q : Provider} {identity : Except Response (String × String)}
    {id : String} (hst : step setup s (.otherCallback i q identity id) = some t) :
    ∃ client r, s.requests[i]? = some (client, r) ∧ q ≠ setup.p ∧
      s.deliver client
        ((setup.proxy.loginHandler q).handleAuthorizationCode s.now r identity id) = some t := by
  simp only [step] at hst
  split at hst
  next client r hrequest =>
    obtain ⟨hq, hst⟩ := Option.ite_none_right_eq_some.1 hst
    exact ⟨client, r, hrequest, hq, hst⟩
  next => cases hst

theorem Intact.step (hempty : ∃ err, setup.proxy.jwt.verify setup.proxy.secret "" = .error err)
    (hi : s.Intact setup) {a : LoginAction} (hst : step setup s a = some t) : t.Intact setup := by
  cases a with
  | pass d =>
    cases hst
    exact ⟨hi.jars, hi.grants, hi.issued, hi.requests⟩
  | start client q discovered random =>
    refine hi.deliver (handleStart_sets _ _ _ _) (fun str hstr => ?_) hst
    rw [handleStart_issues hstr]
    exact signed_nonce
  | authorize g =>
    obtain ⟨hknows, hst⟩ := Option.ite_none_right_eq_some.1 hst
    cases hst
    refine ⟨hi.jars, fun g' hg' client hmem => ?_, fun client str hmem =>
      (hi.issued client str hmem).mono (List.subset_cons_self _ _) (List.Subset.refl _),
      hi.requests⟩
    rcases List.mem_cons.1 hg' with rfl | hg'
    · exact (of_decide_eq_true (List.all_eq_true.1 hknows _ hmem)).resolve_left (absurd rfl)
    · exact hi.grants g' hg' client hmem
  | send client r =>
    obtain ⟨hclient, hst⟩ := Option.ite_none_right_eq_some.1 hst
    cases hst
    refine ⟨hi.jars, hi.grants, hi.issued, fun q hq nonce hcookie hverify => ?_⟩
    rcases List.mem_append.1 hq with hq | hq
    · exact hi.requests q hq nonce hcookie hverify
    · obtain rfl := List.mem_singleton.1 hq
      exact given_of_fromClient hi hclient hcookie hverify
  | callback i answers id =>
    obtain ⟨client, r, hrequest, hhonest, hst⟩ := callback_eq hst
    refine hi.deliver (handleAuthorizationCode_sets _ _ _ _ _) (fun str hstr => ?_) hst
    obtain ⟨hcookie, hvalid, userId, username, hidentity, hissue⟩ :=
      handleAuthorizationCode_completed hstr
    obtain ⟨hnonceIssuer, htokenIssuer⟩ := ProxyRun.loginHandler_issuers setup.proxy setup.p
    rw [hnonceIssuer] at hvalid
    rw [htokenIssuer] at hissue
    refine signed_session hissue fun user hsub => ?_
    rw [loginHandler_subjectPrefix] at hsub
    have huser : userId = user := by
      have hlist := congrArg String.toList hsub
      rw [String.toList_append, String.toList_append] at hlist
      exact String.toList_inj.1 (List.append_cancel_left hlist)
    rw [← huser]
    exact bound_of_callback hempty hi (List.mem_of_getElem? hrequest) hhonest hcookie hvalid
      hidentity
  | otherCallback i q identity id =>
    obtain ⟨client, r, -, hq, hst⟩ := otherCallback_eq hst
    refine hi.deliver (handleAuthorizationCode_sets _ _ _ _ _) (fun str hstr => ?_) hst
    obtain ⟨-, -, userId, username, -, hissue⟩ := handleAuthorizationCode_completed hstr
    rw [(ProxyRun.loginHandler_issuers setup.proxy q).2] at hissue
    refine signed_session hissue fun user hsub => ?_
    rw [loginHandler_subjectPrefix] at hsub
    exact absurd hsub (ne_of_apart (subjectPrefix_apart hq) _ _)
  | visitor client ticket visitorId id subject =>
    refine hi.deliver (serveHTTP_sets _ _ _ _ _ _) (fun str hstr => ?_) hst
    obtain ⟨username, hissue⟩ := serveHTTP_issues hstr
    exact signed_session hissue fun user hsub =>
      absurd hsub (ne_of_apart (visitor_apart setup.p) _ _)
  | logout client method =>
    refine hi.deliver (fun cookie hc => .inl ?_) (fun str hstr => by cases hstr) hst
    rw [logoutHandler] at hc
    split at hc
    next => exact absurd hc List.not_mem_nil
    next =>
      rcases List.mem_cons.1 hc with rfl | hc
      · rfl
      · obtain rfl := List.mem_singleton.1 hc
        rfl

end Steps

/-! ## Sessions -/

/-- The session cookie of a request of a browser. -/
theorem extractJWT_of_cookies {r : Request} {id : Nat}
    (hnone : r.justIssuedJWTToken.isNone = true)
    (hclient : (r.authorization = "" && [defaultNonceCookieKey, defaultJWTCookieKey].all
      fun name => r.cookie name = s.jars id name) = true) :
    extractJWTFromRequest r = (s.jars id defaultJWTCookieKey).getD "" := by
  obtain ⟨hauth, hcookies⟩ := Bool.and_eq_true_iff.1 hclient
  have hjar := of_decide_eq_true (List.all_eq_true.1 hcookies defaultJWTCookieKey
    (List.mem_cons_of_mem _ List.mem_cons_self))
  have htrim : trimPrefix (trimPrefix "" "Bearer ") "bearer " = "" := by decide
  rw [extractJWTFromRequest, Option.isNone_iff_eq_none.1 hnone, of_decide_eq_true hauth]
  simp only [htrim, ne_eq, not_true_eq_false, if_false, hjar]

/-- A token that is accepted spells one that the client was given. -/
theorem issued_of_verify
    (hempty : ∃ err, setup.proxy.jwt.verify setup.proxy.secret "" = .error err)
    (hi : s.Intact setup) {r : Request} (hclient : s.fromClient setup client r = true)
    {m : MapClaims}
    (hm : setup.proxy.jwt.verify setup.proxy.secret (extractJWTFromRequest r) = .ok m) :
    ∃ token, (client, token) ∈ s.issued ∧
      setup.proxy.jwt.verify setup.proxy.secret token = .ok m := by
  obtain ⟨hnone, hclient⟩ := Bool.and_eq_true_iff.1 hclient
  cases client with
  | browser id =>
    rw [extractJWT_of_cookies hnone hclient] at hm
    cases hjar : s.jars id defaultJWTCookieKey with
    | none =>
      obtain ⟨err, herr⟩ := hempty
      rw [hjar] at hm
      cases herr.symm.trans hm
    | some token =>
      rw [hjar] at hm
      exact ⟨token, hi.jars id _ token hjar, hm⟩
  | adversary =>
    obtain ⟨hpresentable, -⟩ := Bool.and_eq_true_iff.1 hclient
    obtain ⟨token, hissued, hspell⟩ := issued_of_presentable hpresentable hm
    obtain ⟨m', hm', htoken⟩ := JWT.respells_iff.1 hspell
    cases hm'.symm.trans hm
    exact ⟨token, hissued, htoken⟩

/-- A request passes the session check as a user of the provider only if that user allowed a login
request with a nonce that the client was given, and in the client itself if it is an honest
browser. -/
theorem session_bound {start now : Time} {r : Request} {session : Session}
    (hempty : ∃ err, setup.proxy.jwt.verify setup.proxy.secret "" = .error err)
    (hr : (system setup start).Reachable .any s) (hclient : s.fromClient setup client r = true)
    (hok : withJWTAuth setup.proxy.jwtValidator now r = .ok session)
    (hsub : session.subjectId = some (subjectPrefix setup.p ++ user)) :
    ∃ g ∈ s.grants, g.user = user ∧ s.Given setup client g.nonce ∧
      (g.client = client ∨ client = .adversary) := by
  have hi : s.Intact setup := hr.invariant ⟨nofun, nofun, nofun, nofun⟩ fun _ _ _ hi _ hst =>
    hi.step hempty hst
  obtain ⟨claims, hclaims, hsession⟩ : ∃ claims, setup.proxy.jwtValidator.doValidateToken now
      (extractJWTFromRequest r) = .ok claims ∧ session.subjectId = nonEmpty claims.subject := by
    rw [withJWTAuth, StaticKeyJWTValidator.parseToken] at hok
    cases hv : setup.proxy.jwtValidator.doValidateToken now (extractJWTFromRequest r) with
    | error err =>
      rw [hv] at hok
      cases hok
    | ok claims =>
      rw [hv] at hok
      cases hok
      exact ⟨claims, rfl, rfl⟩
  have hsubject : claims.subject = subjectPrefix setup.p ++ user := by
    rw [hsession, nonEmpty] at hsub
    exact Option.some.inj (Option.ite_none_left_eq_some.1 hsub).2
  obtain ⟨m, hm, hdecode, -⟩ :=
    JWT.parse_eq_ok.1 (StaticKeyJWTValidator.doValidateToken_eq_ok.1 hclaims).1
  obtain ⟨token, hissued, htoken⟩ := issued_of_verify hempty hi hclient hm
  obtain ⟨m', hsigned, hbound⟩ := hi.issued _ _ hissued
  obtain rfl : m' = m := by
    have hverify := setup.proxy.jwt.verify_signedString setup.proxy.secret m'
    rw [← hsigned] at hverify
    exact Except.ok.inj (hverify.symm.trans htoken)
  rw [loginHandler_subjectPrefix] at hbound
  obtain ⟨g, hg, huser, hnonce⟩ := hbound claims hdecode user hsubject
  refine ⟨g, hg, huser, hnonce, ?_⟩
  cases client with
  | browser id => exact (hi.grants g hg _ hnonce).imp_left Eq.symm
  | adversary => exact .inr rfl

/-! ## A login that is completed -/

/-- Who gets the response of a step. -/
def served (s : LoginRun) : LoginAction → Option Client
  | .start client .. | .visitor client .. | .logout client _ => some client
  | .callback i .. | .otherCallback i .. => (s.requests[i]?).map Prod.fst
  | .pass _ | .authorize _ | .send .. => none

/-- A browser gets no response. -/
def idle (id : Nat) : Policy LoginRun LoginAction := fun s a => s.served a ≠ some (.browser id)

/-- A browser that comes back from the provider. -/
def callbackRequest (jar : Jar) (nonce code : String) : Request where
  cookies := (defaultNonceCookieKey, nonce) ::
    (jar defaultJWTCookieKey).toList.map (Prod.mk defaultJWTCookieKey)
  query := [("state", nonce), ("code", code)]

/-- The session token of a user. -/
def sessionToken (setup : LoginSetup) (now : Time) (tokenId user username : String) : String :=
  setup.proxy.jwt.signedString setup.proxy.secret
    (getMapClaims now setup.proxy.loginSessionValidity tokenId (subjectPrefix setup.p ++ user)
      username)

section Completed

variable {id : Nat} {start : Time}

theorem jars_deliver {resp : Response × Option String} (hst : s.deliver client resp = some t)
    (hne : client ≠ .browser id) : t.jars id = s.jars id := by
  obtain ⟨-, hst⟩ := Option.ite_none_right_eq_some.1 hst
  cases hst
  cases client with
  | adversary => rfl
  | browser id' => exact Function.update_of_ne (fun heq => hne (congrArg _ heq.symm)) _ _

theorem jars_step {a : LoginAction} (hst : step setup s a = some t) (hidle : idle id s a) :
    t.jars id = s.jars id := by
  have hne : ∀ {client : Client}, s.served a = some client → client ≠ .browser id :=
    fun heq h => hidle (heq.trans (congrArg some h))
  cases a with
  | pass d =>
    cases hst
    rfl
  | start client q discovered random => exact jars_deliver hst (hne rfl)
  | authorize g =>
    obtain ⟨-, hst⟩ := Option.ite_none_right_eq_some.1 hst
    cases hst
    rfl
  | send client r =>
    obtain ⟨-, hst⟩ := Option.ite_none_right_eq_some.1 hst
    cases hst
    rfl
  | callback i answers tokenId =>
    obtain ⟨client, r, hrequest, -, hst⟩ := callback_eq hst
    exact jars_deliver hst (hne (congrArg (Option.map Prod.fst) hrequest))
  | otherCallback i q identity tokenId =>
    obtain ⟨client, r, hrequest, -, hst⟩ := otherCallback_eq hst
    exact jars_deliver hst (hne (congrArg (Option.map Prod.fst) hrequest))
  | visitor client ticket visitorId tokenId subject => exact jars_deliver hst (hne rfl)
  | logout client method => exact jars_deliver hst (hne rfl)

/-- The others do not touch the cookies of a browser. -/
theorem jars_reach (h : (system setup start).Reach (idle id) s t) : t.jars id = s.jars id :=
  System.Reach.induct (I := fun u => u.jars id = s.jars id) h rfl fun _ _ _ hi hidle hst =>
    (jars_step hst hidle).trans hi

/-- What is signed is not empty. -/
theorem signedString_ne_empty
    (hempty : ∃ err, setup.proxy.jwt.verify setup.proxy.secret "" = .error err) (m : MapClaims) :
    setup.proxy.jwt.signedString setup.proxy.secret m ≠ "" := by
  intro hnil
  obtain ⟨err, herr⟩ := hempty
  have hverify := setup.proxy.jwt.verify_signedString setup.proxy.secret m
  rw [hnil] at hverify
  cases herr.symm.trans hverify

/-- A browser that starts a login has the nonce. -/
theorem jars_start (hempty : ∃ err, setup.proxy.jwt.verify setup.proxy.secret "" = .error err)
    {random : String} (hst : step setup s (.start (.browser id) setup.p true random) = some t) :
    t.jars id defaultNonceCookieKey = some (setup.proxy.nonceIssuer.issueNonce s.now random) := by
  obtain ⟨-, hst⟩ := Option.ite_none_right_eq_some.1 hst
  cases hst
  have hne := signedString_ne_empty hempty (setup.proxy.nonceIssuer.claims s.now random).encode
  have hcookies : ((setup.proxy.loginHandler setup.p).handleStart true s.now random).1.setCookies =
      [(defaultNonceCookieKey, setup.proxy.nonceIssuer.issueNonce s.now random)] := by
    rw [OAuthLoginHandler.handleStart, if_neg (by simp),
      (ProxyRun.loginHandler_issuers setup.proxy setup.p).1]
    dsimp only
    split <;> rfl
  dsimp only
  rw [Function.update_self, hcookies, List.foldl_cons, List.foldl_nil, setCookie,
    Function.update_self]
  exact if_neg hne

/-- What the proxy makes of a code for which the provider has an ID token. -/
theorem identity_of_grant {g : Grant} {nonce accessToken : String} {now : Time} {token : IDToken}
    {claims : UserInfoResponse} (userinfo : Option (Except String UserInfoResponse))
    (hid : setup.provider.idToken g ≠ "")
    (hverify : setup.provider.verify now (setup.provider.idToken g) = .ok token)
    (hclaims : token.claims = .ok claims) (huser : g.user ≠ "") (hnonce : g.nonce = nonce) :
    ∃ username, identity setup.quote (setup.provider.verify now)
      { exchange := .answer (some { accessToken, idToken := setup.provider.idToken g })
        userinfo } nonce = .ok (g.user, username) := by
  obtain ⟨hsame, hsub⟩ := setup.provider.verify_idToken _ _ _ hverify
  have hverified : verifyIDToken setup.quote (.ok ()) (setup.provider.verify now)
      (setup.provider.idToken g) nonce = .ok token := by
    simp only [verifyIDToken, hverify]
    rw [if_neg fun h => h.2 (hsame.trans hnonce)]
  have hsubject := hsub claims hclaims
  simp only [identity, hverified, hclaims, if_neg hid, hsubject, if_neg huser]
  split
  next => exact absurd ‹_› (by decide)
  next =>
    split
    next => exact ⟨_, rfl⟩
    next => exact ⟨_, rfl⟩

/-- A browser gets a new string as a cookie. -/
theorem exists_deliver {resp : Response × Option String} {name str : String}
    {cleared : List (String × String)} (hgiven : resp.2 = some str)
    (hcookies : resp.1.setCookies = cleared ++ [(name, str)]) (hne : str ≠ "")
    (hfresh : s.fresh str = true) :
    ∃ t, s.deliver (.browser id) resp = some t ∧ t.jars id name = some str := by
  refine ⟨_, if_pos ?_, ?_⟩
  · rw [hgiven, Option.all_some]
    exact hfresh
  · dsimp only
    rw [Function.update_self, hcookies, List.foldl_concat, setCookie, Function.update_self]
    exact if_neg hne

/-- A callback of a browser with a nonce that is valid ends with a session cookie. -/
theorem callback_completes
    (hempty : ∃ err, setup.proxy.jwt.verify setup.proxy.secret "" = .error err)
    {jar : Jar} {i : Nat} {nonce code tokenId : String} {answers : ProviderAnswers}
    {userId username : String}
    (hrequest : s.requests[i]? = some (.browser id, callbackRequest jar nonce code))
    (hvalid : setup.proxy.nonceIssuer.validateNonce s.now nonce = .ok true) (hcode : code ≠ "")
    (hissuer : setup.proxy.jwtIssuer ≠ "") (hhonest : s.honest setup code answers.exchange = true)
    (hidentity : identity setup.quote (setup.provider.verify s.now) answers nonce =
      .ok (userId, username))
    (hfresh : ∀ username, s.fresh (sessionToken setup s.now tokenId userId username) = true) :
    ∃ t username, step setup s (.callback i answers tokenId) = some t ∧
      t.jars id defaultJWTCookieKey = some (sessionToken setup s.now tokenId userId username) := by
  generalize hr : callbackRequest jar nonce code = r at hrequest
  have hcookie : r.cookie defaultNonceCookieKey = some nonce := by
    rw [← hr]
    rfl
  obtain ⟨herr, hstate, hcode'⟩ :
      r.queryGet "error" = "" ∧ r.queryGet "state" = nonce ∧ r.queryGet "code" = code := by
    rw [← hr]
    exact ⟨rfl, rfl, rfl⟩
  obtain ⟨hnonceIssuer, htokenIssuer⟩ := ProxyRun.loginHandler_issuers setup.proxy setup.p
  have htoken : ∀ m, setup.proxy.tokenIssuer.issueToken m =
      .ok (setup.proxy.jwt.signedString setup.proxy.secret m) := fun m => if_neg hissuer
  have hlifespan : (setup.proxy.loginHandler setup.p).sessionLifespan =
      setup.proxy.loginSessionValidity := by
    rcases setup.oidc with hp | hp <;> rw [hp] <;> rfl
  obtain ⟨hgiven, cleared, hcookies⟩ := handleAuthorizationCode_of
    (h := setup.proxy.loginHandler setup.p) herr
    (hstate.symm ▸ hcookie) (hstate.symm ▸ hnonceIssuer.symm ▸ hvalid) (hcode'.symm ▸ hcode)
    hidentity (htokenIssuer.symm ▸ htoken _)
  rw [hlifespan, loginHandler_subjectPrefix] at hgiven hcookies
  obtain ⟨t, ht, hjwt⟩ := exists_deliver hgiven hcookies
    (signedString_ne_empty hempty _) (hfresh username)
  refine ⟨t, username, ?_, hjwt⟩
  simp only [step, hrequest, hcode', hhonest, if_true, hstate]
  exact ht

theorem now_deliver {resp : Response × Option String} (hst : s.deliver client resp = some t) :
    t.now = s.now := by
  obtain ⟨-, hst⟩ := Option.ite_none_right_eq_some.1 hst
  cases hst
  rfl

theorem now_step {a : LoginAction} (hst : step setup s a = some t) : s.now ≤ t.now := by
  cases a with
  | pass d =>
    cases hst
    exact Int.le_add_of_nonneg_right (Int.natCast_nonneg d)
  | start client q discovered random => exact Int.le_of_eq (now_deliver hst).symm
  | authorize g =>
    obtain ⟨-, hst⟩ := Option.ite_none_right_eq_some.1 hst
    cases hst
    exact Int.le_refl _
  | send client r =>
    obtain ⟨-, hst⟩ := Option.ite_none_right_eq_some.1 hst
    cases hst
    exact Int.le_refl _
  | callback i answers tokenId =>
    obtain ⟨client, r, -, -, hst⟩ := callback_eq hst
    exact Int.le_of_eq (now_deliver hst).symm
  | otherCallback i q identity tokenId =>
    obtain ⟨client, r, -, -, hst⟩ := otherCallback_eq hst
    exact Int.le_of_eq (now_deliver hst).symm
  | visitor client ticket visitorId tokenId subject => exact Int.le_of_eq (now_deliver hst).symm
  | logout client method => exact Int.le_of_eq (now_deliver hst).symm

/-- A nonce is valid until it expires. -/
theorem validateNonce_of {n : StaticKeyNonceIssuer} {issuedAt now : Time} {random : String}
    (hle : issuedAt ≤ now) (hlt : now < newNumericDate (issuedAt + n.nonceLifespan) * second) :
    n.validateNonce now (n.issueNonce issuedAt random) = .ok true := by
  have hparse : n.jwt.parseWithClaims NonceClaimType.decode (·.toRegisteredClaims) n.secret now
      (n.issueNonce issuedAt random) = .ok (n.claims issuedAt random) := by
    refine JWT.parse_signedString.2 ⟨rfl, RegisteredClaims.validate_eq_ok.2 ⟨?_, ?_⟩⟩
    · rintro _ ⟨⟩
      exact hlt
    · rintro _ ⟨⟩
      exact Int.le_trans (Int.ediv_mul_le issuedAt (by decide : second ≠ 0)) hle
  rw [StaticKeyNonceIssuer.validateNonce, hparse]

/-- The request of a browser with a session cookie. -/
theorem extractJWT_of_browser {r : Request} {token : String}
    (hclient : t.fromClient setup (.browser id) r = true)
    (hjar : t.jars id defaultJWTCookieKey = some token) : extractJWTFromRequest r = token := by
  obtain ⟨hnone, hclient⟩ := Bool.and_eq_true_iff.1 hclient
  rw [extractJWT_of_cookies hnone hclient, hjar, Option.getD_some]

/-- A session of a user of a provider is accepted in its window. -/
theorem withJWTAuth_session {r : Request} {p : Provider} {issuedAt : Time}
    {lifespan : Duration} {tokenId username : String}
    (hextract : extractJWTFromRequest r = setup.proxy.jwt.signedString setup.proxy.secret
      (getMapClaims issuedAt lifespan tokenId (subjectPrefix p ++ user) username)) (now : Time) :
    (∃ session, withJWTAuth setup.proxy.jwtValidator now r = .ok session ∧
        session.subjectId = some (subjectPrefix p ++ user)) ↔
      newNumericDate issuedAt * second ≤ now ∧
        now < newNumericDate (issuedAt + lifespan) * second := by
  have hnevisitor : ¬ visitorSubjectPrefix.toList <+: (subjectPrefix p ++ user).toList := by
    rintro ⟨rest, hrest⟩
    refine ne_of_apart (visitor_apart p) (String.ofList rest) user ?_
    rw [← String.toList_inj, String.toList_append, String.toList_ofList, hrest]
  have hne : subjectPrefix p ++ user ≠ "" := by
    intro hnil
    have hlist := congrArg String.toList hnil
    rw [String.toList_append] at hlist
    exact subjectPrefix_ne_empty p (String.toList_eq_nil_iff.1 (List.append_eq_nil_iff.1 hlist).1)
  rw [withJWTAuth, StaticKeyJWTValidator.parseToken, hextract]
  constructor
  · rintro ⟨session, hsession, -⟩
    split at hsession
    next => cases hsession
    next hparse =>
      split at hparse
      next => cases hparse
      next hv =>
        obtain ⟨-, hvalidate, -⟩ := StaticKeyJWTValidator.doValidateToken_signedString.1 hv
        obtain ⟨hexp, hnbf⟩ := RegisteredClaims.validate_eq_ok.1 hvalidate
        exact ⟨hnbf _ rfl, hexp _ rfl⟩
  · rintro ⟨hnbf, hexp⟩
    have hv : setup.proxy.jwtValidator.doValidateToken now
        (setup.proxy.jwt.signedString setup.proxy.secret
          (getMapClaims issuedAt lifespan tokenId (subjectPrefix p ++ user) username)) =
        .ok
          { id := tokenId
            subject := subjectPrefix p ++ user
            audience := [audSession]
            notBefore := some (newNumericDate issuedAt)
            expiresAt := some (newNumericDate (issuedAt + lifespan))
            username := username } := by
      refine StaticKeyJWTValidator.doValidateToken_signedString.2 ⟨rfl,
        RegisteredClaims.validate_eq_ok.2 ⟨fun exp he => ?_, fun nbf hn => ?_⟩, rfl,
        fun hvisitor => hnevisitor hvisitor.2⟩
      · cases he
        exact hexp
      · cases hn
        exact hnbf
    rw [hv]
    exact ⟨_, rfl, if_neg hne⟩

/-- What has been sent stays. -/
theorem requests_step {a : LoginAction} (hst : step setup s a = some t) :
    s.requests <+: t.requests := by
  have hdeliver : ∀ {client : Client} {resp : Response × Option String},
      s.deliver client resp = some t → s.requests <+: t.requests := by
    intro client resp hst
    obtain ⟨-, hst⟩ := Option.ite_none_right_eq_some.1 hst
    cases hst
    exact List.prefix_refl _
  cases a with
  | pass d =>
    cases hst
    exact List.prefix_refl _
  | start client q discovered random => exact hdeliver hst
  | authorize g =>
    obtain ⟨-, hst⟩ := Option.ite_none_right_eq_some.1 hst
    cases hst
    exact List.prefix_refl _
  | send client r =>
    obtain ⟨-, hst⟩ := Option.ite_none_right_eq_some.1 hst
    cases hst
    exact List.prefix_append _ _
  | callback i answers tokenId =>
    obtain ⟨client, r, -, -, hst⟩ := callback_eq hst
    exact hdeliver hst
  | otherCallback i q identity tokenId =>
    obtain ⟨client, r, -, -, hst⟩ := otherCallback_eq hst
    exact hdeliver hst
  | visitor client ticket visitorId tokenId subject => exact hdeliver hst
  | logout client method => exact hdeliver hst

theorem requests_reach {ok : Policy LoginRun LoginAction} (h : (system setup start).Reach ok s t) :
    s.requests <+: t.requests :=
  System.Reach.induct (I := fun u => s.requests <+: u.requests) h (List.prefix_refl _)
    fun _ _ _ hi _ hst => hi.trans (requests_step hst)

theorem now_reach {ok : Policy LoginRun LoginAction} (h : (system setup start).Reach ok s t) :
    s.now ≤ t.now :=
  System.Reach.induct (I := fun u => s.now ≤ u.now) h (Int.le_refl _)
    fun _ _ _ hi _ hst => Int.le_trans hi (now_step hst)

/-- A browser with the nonce of a callback can send it. -/
theorem fromClient_callbackRequest {nonce : String} (code : String)
    (hjar : s.jars id defaultNonceCookieKey = some nonce) :
    s.fromClient setup (.browser id) (callbackRequest (s.jars id) nonce code) = true := by
  have hnonce : (callbackRequest (s.jars id) nonce code).cookie defaultNonceCookieKey =
      some nonce := rfl
  have hjwt : (callbackRequest (s.jars id) nonce code).cookie defaultJWTCookieKey =
      s.jars id defaultJWTCookieKey := by
    simp only [callbackRequest, Request.cookie]
    cases s.jars id defaultJWTCookieKey with
    | none => rfl
    | some token => rfl
  simp only [fromClient, List.all_cons, List.all_nil, hnonce, hjwt, hjar, decide_true,
    Bool.and_self]
  rfl

/-- After a browser has started a login with a nonce, a user allowed the request at the provider,
which has an ID token for it, and the nonce has not expired. -/
structure Allowed (setup : LoginSetup) (s₀ s : LoginRun) (g : Grant) : Prop where
  grant : g ∈ s.grants
  live : s.now < newNumericDate (s₀.now + setup.proxy.nonceValidity) * second
  code : g.code ≠ ""
  user : g.user ≠ ""
  idToken : setup.provider.idToken g ≠ ""
  verified : ∃ token claims, setup.provider.verify s.now (setup.provider.idToken g) = .ok token ∧
    token.claims = .ok claims

/-- The provider has the tokens for a grant. -/
def answersFor (setup : LoginSetup) (g : Grant) (accessToken : String)
    (userinfo : Option (Except String UserInfoResponse)) : ProviderAnswers where
  exchange := .answer (some { accessToken, idToken := setup.provider.idToken g })
  userinfo := userinfo

section Allowed

variable {s₀ s₁ s₂ s₃ : LoginRun} {random tokenId : String} {g : Grant}

/-- A browser that has started a login can send its callback. -/
theorem send_of_started
    (hempty : ∃ err, setup.proxy.jwt.verify setup.proxy.secret "" = .error err)
    (hstart : step setup s₀ (.start (.browser id) setup.p true random) = some s₁)
    (hothers : (system setup start).Reach (idle id) s₁ s₂)
    (hnonce : g.nonce = setup.proxy.nonceIssuer.issueNonce s₀.now random) :
    step setup s₂ (.send (.browser id) (callbackRequest (s₂.jars id) g.nonce g.code)) =
      some { s₂ with
        requests := s₂.requests ++
          [(.browser id, callbackRequest (s₂.jars id) g.nonce g.code)] } := by
  have hjar : s₂.jars id defaultNonceCookieKey = some g.nonce := by
    rw [jars_reach hothers, jars_start hempty hstart, hnonce]
  exact if_pos (fromClient_callbackRequest g.code hjar)

/-- The callback of a browser whose user has allowed the request ends with a session cookie. -/
theorem callback_of_allowed
    (hempty : ∃ err, setup.proxy.jwt.verify setup.proxy.secret "" = .error err)
    (hissuer : setup.proxy.jwtIssuer ≠ "")
    (hstart : step setup s₀ (.start (.browser id) setup.p true random) = some s₁)
    (hothers : (system setup start).Reach (idle id) s₁ s₂)
    (hnonce : g.nonce = setup.proxy.nonceIssuer.issueNonce s₀.now random)
    (hsend : step setup s₂ (.send (.browser id) (callbackRequest (s₂.jars id) g.nonce g.code)) =
      some s₃)
    (hmore : (system setup start).Reach (idle id) s₃ s) (hallowed : Allowed setup s₀ s g)
    (accessToken : String) (userinfo : Option (Except String UserInfoResponse))
    (hfresh : ∀ username, s.fresh (sessionToken setup s.now tokenId g.user username) = true) :
    ∃ t username, step setup s (.callback s₂.requests.length
        (answersFor setup g accessToken userinfo) tokenId) = some t ∧
      t.jars id defaultJWTCookieKey = some (sessionToken setup s.now tokenId g.user username) := by
  have hle : s₀.now ≤ s.now := Int.le_trans (now_step hstart)
    (Int.le_trans (now_reach hothers) (Int.le_trans (now_step hsend) (now_reach hmore)))
  have hrequest : s.requests[s₂.requests.length]? =
      some (.browser id, callbackRequest (s₂.jars id) g.nonce g.code) := by
    rw [send_of_started hempty hstart hothers hnonce] at hsend
    cases hsend
    obtain ⟨later, hlater⟩ := requests_reach hmore
    rw [← hlater, List.append_assoc, List.getElem?_append_right (Nat.le_refl _), Nat.sub_self]
    rfl
  have hvalid : setup.proxy.nonceIssuer.validateNonce s.now g.nonce = .ok true := by
    rw [hnonce]
    exact validateNonce_of hle hallowed.live
  obtain ⟨token, claims, hverify, hclaims⟩ := hallowed.verified
  obtain ⟨username, hidentity⟩ := identity_of_grant userinfo hallowed.idToken hverify hclaims
    hallowed.user rfl
  have hhonest : s.honest setup g.code (answersFor setup g accessToken userinfo).exchange =
      true := by
    refine Bool.or_eq_true_iff.2 (.inr (List.any_eq_true.2 ⟨g, hallowed.grant, ?_⟩))
    simp only [decide_true, Bool.and_self]
  exact callback_completes hempty hrequest hvalid hallowed.code hissuer hhonest hidentity hfresh

/-- A login that a browser starts is completed, whatever the others do in the meantime: the browser
can send its callback, and if a user has allowed the request at the provider when the proxy handles
it, and the nonce has not expired, the browser gets a session of the user, and has it until it
expires. -/
theorem login_completes
    (hempty : ∃ err, setup.proxy.jwt.verify setup.proxy.secret "" = .error err)
    (hissuer : setup.proxy.jwtIssuer ≠ "")
    (hstart : step setup s₀ (.start (.browser id) setup.p true random) = some s₁)
    (hothers : (system setup start).Reach (idle id) s₁ s₂)
    (hnonce : g.nonce = setup.proxy.nonceIssuer.issueNonce s₀.now random) :
    ∃ s₃, step setup s₂ (.send (.browser id)
        (callbackRequest (s₂.jars id) g.nonce g.code)) = some s₃ ∧
      ∀ s accessToken userinfo tokenId, (system setup start).Reach (idle id) s₃ s →
        Allowed setup s₀ s g →
        (∀ username, s.fresh (sessionToken setup s.now tokenId g.user username) = true) →
        ∃ t, step setup s (.callback s₂.requests.length
            (answersFor setup g accessToken userinfo) tokenId) = some t ∧
          ∀ r now, t.fromClient setup (.browser id) r = true →
            ((∃ session, withJWTAuth setup.proxy.jwtValidator now r = .ok session ∧
                session.subjectId = some (subjectPrefix setup.p ++ g.user)) ↔
              newNumericDate s.now * second ≤ now ∧
                now < newNumericDate (s.now + setup.proxy.loginSessionValidity) * second) := by
  have hsend := send_of_started hempty hstart hothers hnonce
  refine ⟨_, hsend, fun s accessToken userinfo tokenId hmore hallowed hfresh => ?_⟩
  obtain ⟨t, username, hst, hjwt⟩ := callback_of_allowed hempty hissuer hstart hothers hnonce hsend
    hmore hallowed accessToken userinfo hfresh
  refine ⟨t, hst, fun r now hclient => ?_⟩
  exact withJWTAuth_session (extractJWT_of_browser hclient hjwt) now

end Allowed

end Completed

section Sample

open Wire

/-- What is in an ID token. -/
def idTokenCodec : PrefixCodec (String × String) := .prod .string .string

/-- A provider whose ID tokens have no signature. -/
def plainProvider : OIDCProvider where
  idToken g := String.ofList (idTokenCodec.encode (g.user, g.nonce))
  verify _ rawIDToken :=
    match idTokenCodec.ofString rawIDToken with
    | none => .error "oidc: malformed jwt"
    | some (user, nonce) => .ok { nonce, claims := .ok { sub := user } }
  verify_idToken _ g token h := by
    rw [idTokenCodec.ofString_encode] at h
    cases h
    exact ⟨rfl, fun claims hclaims => by cases hclaims; rfl⟩

/-- The login at a proxy. -/
def plainSetup : LoginSetup where
  proxy := ProxyRun.plainProxy
  p := .iedon
  oidc := .inl rfl
  provider := plainProvider
  quote s := "\"" ++ s ++ "\""

theorem verify_plain (g : Grant) (now : Time) :
    plainSetup.provider.verify now (plainSetup.provider.idToken g) =
      .ok { nonce := g.nonce, claims := .ok { sub := g.user } } := by
  simp only [plainSetup, plainProvider, idTokenCodec.ofString_encode]

theorem idToken_plain_ne (g : Grant) : plainSetup.provider.idToken g ≠ "" := by
  intro hnil
  have hverify := verify_plain g 0
  rw [hnil] at hverify
  cases hverify

theorem plainSetup_empty :
    ∃ err, plainSetup.proxy.jwt.verify plainSetup.proxy.secret "" = .error err := ⟨_, rfl⟩

def sampleNonce : String := plainSetup.proxy.nonceIssuer.issueNonce 0 "AAAAAAAAAAAAAAAAAAAAAA=="

/-- The user allows the request of a browser. -/
def sampleGrant : Grant where
  client := .browser 0
  user := "alice"
  nonce := sampleNonce
  code := "code"

/-- The browser has started a login. -/
def sampleStarted : LoginRun where
  now := 0
  jars := Function.update (fun _ _ => none) 0
    (setCookie (fun _ => none) (defaultNonceCookieKey, sampleNonce))
  issued := [(.browser 0, sampleNonce)]

/-- And the user has allowed it. -/
def sampleAllowed : LoginRun := { sampleStarted with grants := [sampleGrant] }

/-- The browser has come back. -/
def sampleSent : LoginRun := { sampleAllowed with
  requests := sampleAllowed.requests ++
    [(.browser 0, callbackRequest (sampleAllowed.jars 0) sampleGrant.nonce sampleGrant.code)] }

/-- The request of a browser with its cookies. -/
def browserRequest (jar : Jar) : Request where
  cookies := [defaultNonceCookieKey, defaultJWTCookieKey].flatMap fun name =>
    (jar name).toList.map (Prod.mk name)

theorem fromClient_browserRequest {id : Nat} :
    s.fromClient setup (.browser id) (browserRequest (s.jars id)) = true := by
  have hcookies : ∀ jar : Jar,
      (browserRequest jar).cookie defaultNonceCookieKey = jar defaultNonceCookieKey ∧
        (browserRequest jar).cookie defaultJWTCookieKey = jar defaultJWTCookieKey := by
    intro jar
    simp only [browserRequest, Request.cookie, List.flatMap_cons, List.flatMap_nil]
    cases jar defaultNonceCookieKey <;> cases jar defaultJWTCookieKey <;> exact ⟨rfl, rfl⟩
  obtain ⟨hnonce, hjwt⟩ := hcookies (s.jars id)
  simp only [fromClient, List.all_cons, List.all_nil, hnonce, hjwt, decide_true, Bool.and_self]
  rfl

theorem start_sample : step plainSetup { now := 0 }
    (.start (.browser 0) .iedon true "AAAAAAAAAAAAAAAAAAAAAA==") = some sampleStarted := rfl

theorem authorize_sample : step plainSetup sampleStarted (.authorize sampleGrant) =
    some sampleAllowed := by
  have hknows : sampleStarted.knows sampleGrant.client sampleGrant.nonce = true := by
    refine List.all_eq_true.2 fun e he => ?_
    obtain rfl := List.mem_singleton.1 he
    exact decide_eq_true (.inr (.inl rfl))
  rw [step, if_pos hknows]
  rfl

/-- A session token is no nonce. -/
theorem fresh_sample (username : String) :
    sampleSent.fresh (sessionToken plainSetup 0 "id" "alice" username) = true := by
  have hne : sampleNonce ≠ sessionToken plainSetup 0 "id" "alice" username := by
    intro heq
    have hclaims := plainSetup.proxy.jwt.signedString_inj heq
    have hnone := plainSetup.proxy.nonceIssuer.lookup_aud 0 "AAAAAAAAAAAAAAAAAAAAAA=="
    rw [hclaims, getMapClaims, newMapClaims,
      CustomClaimType.lookup_aud (List.cons_ne_nil _ _)] at hnone
    cases hnone
  simp only [LoginRun.fresh, sampleSent, sampleAllowed, sampleStarted, sampleGrant, List.all_cons,
    List.all_nil, decide_eq_true hne, Bool.and_self]

theorem allowed_sample : Allowed plainSetup { now := 0 } sampleSent sampleGrant where
  grant := List.mem_singleton.2 rfl
  live := by decide
  code := by decide
  user := by decide
  idToken := idToken_plain_ne sampleGrant
  verified := ⟨_, _, verify_plain sampleGrant sampleSent.now, rfl⟩

theorem nonce_sample : sampleGrant.nonce = plainSetup.proxy.nonceIssuer.issueNonce
    ({ now := 0 } : LoginRun).now "AAAAAAAAAAAAAAAAAAAAAA==" := rfl

theorem reach_sample : (system plainSetup 0).Reach (idle 0) sampleStarted sampleAllowed :=
  reach_step .refl (fun h => Option.some_ne_none _ h.symm) authorize_sample

theorem send_sample : step plainSetup sampleAllowed (.send (.browser 0)
    (callbackRequest (sampleAllowed.jars 0) sampleGrant.nonce sampleGrant.code)) =
      some sampleSent :=
  send_of_started plainSetup_empty start_sample reach_sample nonce_sample

theorem session_bound_sample : ∃ s r,
    (system plainSetup 0).Reachable .any s ∧ s.fromClient plainSetup (.browser 0) r = true ∧
      (∃ session, withJWTAuth plainSetup.proxy.jwtValidator 0 r = .ok session ∧
        session.subjectId = some (subjectPrefix .iedon ++ "alice")) ∧
      ∃ g ∈ s.grants, g.user = "alice" ∧ (.browser 0, g.nonce) ∈ s.issued ∧
        (g.client = .browser 0 ∨ Client.browser 0 = .adversary) := by
  obtain ⟨t, username, hst, hjwt⟩ := callback_of_allowed plainSetup_empty (by decide) start_sample
    reach_sample nonce_sample send_sample .refl allowed_sample "" none fresh_sample
  have hstarted : (system plainSetup 0).Reachable .any sampleStarted :=
    reach_step .refl trivial start_sample
  have hallowed := hstarted.trans (reach_sample.mono fun _ _ _ => trivial)
  have hr : (system plainSetup 0).Reachable .any t :=
    reach_step (reach_step hallowed trivial send_sample) trivial hst
  have hclient : t.fromClient plainSetup (.browser 0) (browserRequest (t.jars 0)) = true :=
    fromClient_browserRequest
  have hextract := extractJWT_of_browser hclient hjwt
  obtain ⟨session, hok, hsub⟩ := (withJWTAuth_session hextract 0).2 (by decide)
  exact ⟨t, _, hr, hclient, ⟨session, hok, hsub⟩,
    session_bound plainSetup_empty hr hclient hok hsub⟩

theorem login_completes_sample : ∃ t answers,
    step plainSetup sampleSent (.callback 0 answers "id") = some t ∧
      ∀ r now, t.fromClient plainSetup (.browser 0) r = true →
        ((∃ session, withJWTAuth plainSetup.proxy.jwtValidator now r = .ok session ∧
            session.subjectId = some (subjectPrefix .iedon ++ "alice")) ↔
          newNumericDate 0 * second ≤ now ∧
            now < newNumericDate (0 + plainSetup.proxy.loginSessionValidity) * second) := by
  obtain ⟨s, hsend, hcompletes⟩ := login_completes (g := sampleGrant) plainSetup_empty (by decide)
    start_sample reach_sample nonce_sample
  obtain rfl := Option.some.inj (send_sample.symm.trans hsend)
  obtain ⟨t, hst, hsession⟩ := hcompletes sampleSent "" none "id" .refl allowed_sample fresh_sample
  exact ⟨t, _, hst, hsession⟩

end Sample

end LoginRun

end CloudPing.Cli

/-
  Access to the web terminal (`handlers/login.rs`, `handlers/oauth.rs`, `handlers/ws.rs`,
  `handlers/page.rs`, `middleware.rs`, `auth.rs`): the handlers that lead to a session, interleaved
  in any order, and the gate that a session opens.

  * `AppState`, `handle`: what the handlers share and what each of them does until it waits; `Task`
    is what a handler has still to do once it has accepted a proof of identity.
  * `wsHandler`, `serveIndex`: the gate; it looks at the cookie of the request.
  * `grants`, `calls`: the sessions that a run grants, and what it asks of the session store.
  * `Backed`: what a grant rests on; a code that was checked, or an authorization that was started
    here, came back in time and ended in a user who is allowed.
  * `access_run`: in every run the gate opens exactly for the tokens that are in force, each of
    them was granted on such a proof, and no proof is used for two sessions.

  Times are nanoseconds of a monotonic clock, except for the clock that codes are checked by.
-/
import Nexterm.Lib.Trails
import Nexterm.Web.AccessLog
import Nexterm.Web.Auth
import Nexterm.Web.Login
import Nexterm.Web.OauthFlow
import Nexterm.Web.Setup

namespace Nexterm.Web.Access

open TotpManager (Call)
open Setup (Manager Acceptance)

/-! ## Cookies -/

/-- Extract the `nexterm_session` cookie from the `Cookie` header. -/
def extractSessionCookie (cookie : Option String) : Option String :=
  cookie.bind fun header => (header.toList.splitOn ';').findSome? fun part =>
    ((Vt.trim (String.ofList part)).toList.dropPrefix? "nexterm_session=".toList).map String.ofList

/-- Build a Set-Cookie header value (adds the `Secure` flag when HTTPS is in use). -/
def makeSessionCookie (token : String) (secure : Bool) : String :=
  let secureFlag := if secure then "; Secure" else ""
  "nexterm_session=" ++ token ++ "; HttpOnly; Path=/; SameSite=Strict" ++ secureFlag

/-- The Set-Cookie header value used to delete the session cookie. -/
def makeLogoutCookie : String := "nexterm_session=; HttpOnly; Path=/; SameSite=Strict; Max-Age=0"

/-! ## The state -/

/-- What the handlers take from libraries: the codes of a secret, lower case, URLs, and which
    secrets are well formed. -/
structure Library where
  generate : String → ℕ → String
  lower : String → String
  parseUrl : String → Except String Unit
  renderUrl : AuthorizationUrl → String
  validSecret : String → Bool

/-- The part of the configuration that decides on access. -/
structure WebConfig where
  token : Option String
  totpEnabled : Bool
  totpSecret : Option String
  /-- If OAuth is enabled. -/
  oauth : Option OAuthSetup
  sessionTimeoutSecs : ℕ
  maxSessions : ℕ
  tlsEnabled : Bool
  forceHttps : Bool

/-- What somebody proved their identity with. -/
inductive Credential
  | totp (a : Acceptance)
  | oauth (state : String)

/-- What a handler has still to do. -/
inductive Task
  /-- The setup request has to install a manager. -/
  | install (secret : String) (a : Acceptance)
  /-- It has to remove the pending setup. -/
  | finish (a : Acceptance)
  /-- The callback has to exchange its code; its state is accepted. -/
  | exchange (code state : String)
  /-- The session is to be created. -/
  | issue (credential : Credential) (authMethod userId : String)

/-- A session for an OAuth user. -/
def Task.forUser (state : String) (user : OAuthUser) : Task :=
  .issue (.oauth state) ("oauth:" ++ user.provider) (user.login.getD user.userId)

def Task.credential : Task → Credential
  | install _ a | finish a => .totp a
  | exchange _ state => .oauth state
  | issue credential _ _ => credential

structure AppState where
  legacyToken : Option String
  totp : Option Manager
  pendingSetup : Option Manager
  /-- Numbers the managers. -/
  managers : ℕ
  totpEnabled : Bool
  oauthMgr : Option OAuthManager
  authMgr : AuthManager
  totpRateLimiter : RateLimiter
  tlsEnabled : Bool
  forceHttps : Bool
  tasks : List Task

/-- OAuth2 callback query parameters. -/
structure OAuthCallback where
  code : Option String
  state : Option String
  error : Option String
  errorDescription : Option String

/-- What can happen next; what is drawn at random and what the provider answers comes with it. -/
inductive Event
  | login (r : LoginRequest)
  | setupVerify (call : Call)
  /-- An authorization URL is asked for, or the login page, which shows one. -/
  | oauthRedirect (now : ℕ) (state : String)
  | oauthCallback (now : ℕ) (query : OAuthCallback)
  | logout (now : ℕ) (cookie : Option String)
  /-- The setup request at this place goes on. -/
  | proceed (i : ℕ)
  /-- The provider answers the callback at this place. -/
  | exchanged (i : ℕ) (provider : Provider)
  /-- The handler at this place creates its session. -/
  | createSession (i now : ℕ) (token : String) (order : IterOrder)

/-- The answers. -/
inductive Response
  | redirect (location : String)
  | httpsRedirect (location : String)
  | asset (name : String)
  /-- To the main page, with a cookie. -/
  | loggedIn (cookie : String)
  | loggedOut (cookie : String)
  | tooManyRequests
  | notFound
  | unauthorized
  | switchingProtocols (session : String)
  deriving DecidableEq

/-! ## The handlers -/

variable (lib : Library)

/-- Start the web server; `drawn` is the secret that is to be set up if none is configured. -/
def startWebServer (config : WebConfig) (drawn : String) : AppState where
  legacyToken := config.token
  totp := if config.totpEnabled then
      (config.totpSecret.filter lib.validSecret).map (⟨1, ·, ∅⟩)
    else none
  pendingSetup := if config.totpEnabled ∧ config.totpSecret = none ∧ lib.validSecret drawn then
      some ⟨0, drawn, ∅⟩
    else none
  managers := 2
  totpEnabled := config.totpEnabled
  oauthMgr := config.oauth.map (⟨·, []⟩)
  authMgr := AuthManager.new (config.sessionTimeoutSecs * 1000000000) config.maxSessions
  totpRateLimiter := ∅
  tlsEnabled := config.tlsEnabled
  forceHttps := config.forceHttps
  tasks := []

namespace AppState

/-- Verify a TOTP code. -/
def handleLogin (s : AppState) (r : LoginRequest) : AppState × Option Response :=
  match s.totpRateLimiter.checkAndRecord .totpDefault r.key r.now with
  | (false, limiter) => ({ s with totpRateLimiter := limiter }, some .tooManyRequests)
  | (true, limiter) =>
    match s.totp with
    | none =>
      ({ s with totpRateLimiter := limiter }, some (.redirect "/login?error=not_configured"))
    | some m =>
      match (m.check lib.generate ⟨r.code, r.clock⟩).2 with
      | none =>
        ({ s with
            totpRateLimiter := limiter
            totp := some (m.check lib.generate ⟨r.code, r.clock⟩).1 },
          some (.redirect "/login?error=invalid_code"))
      | some a =>
        ({ s with
            totpRateLimiter := limiter.reset r.key
            totp := some (m.check lib.generate ⟨r.code, r.clock⟩).1
            tasks := s.tasks ++ [.issue (.totp a) "totp" ""] }, none)

/-- Verify the first TOTP code. -/
def handleSetupVerify (s : AppState) (call : Call) : AppState × Option Response :=
  match s.pendingSetup with
  | none => (s, some (.redirect "/?setup=done"))
  | some m =>
    let s := { s with pendingSetup := some (m.check lib.generate call).1 }
    match (m.check lib.generate call).2 with
    | none => (s, some (.redirect "/setup?error=invalid_code"))
    | some a => ({ s with tasks := s.tasks ++ [.install m.secret a] }, none)

def handleOauthRedirect (s : AppState) (now : ℕ) (state : String) : AppState × Option Response :=
  match s.oauthMgr with
  | none => (s, some .notFound)
  | some m =>
    ({ s with oauthMgr := some (m.authorizationUrl lib.parseUrl now state).2 },
      match (m.authorizationUrl lib.parseUrl now state).1 with
      | .ok url => some (.redirect (lib.renderUrl url))
      | .error _ => some (.redirect "/login?error=oauth_config"))

/-- The callback up to the requests to the provider. -/
def handleOauthCallback (s : AppState) (now : ℕ) (query : OAuthCallback) :
    AppState × Option Response :=
  match s.oauthMgr, query.error, query.code, query.state with
  | none, _, _, _ => (s, some .notFound)
  | some _, some _, _, _ => (s, some (.redirect "/login?error=oauth_denied"))
  | some _, none, none, _ => (s, some (.redirect "/login?error=oauth_no_code"))
  | some _, none, some _, none => (s, some (.redirect "/login?error=oauth_no_state"))
  | some m, none, some code, some state =>
    let s := { s with oauthMgr := some (m.takeState now state).2 }
    match (m.takeState now state).1, buildClient lib.parseUrl m.setup with
    | .ok (), .ok _ => ({ s with tasks := s.tasks ++ [.exchange code state] }, none)
    | _, _ => (s, some (.redirect "/login?error=oauth_exchange"))

/-- Revoke the session. -/
def handleLogout (s : AppState) (cookie : Option String) : AppState × Option Response :=
  (match extractSessionCookie cookie with
    | some token => { s with authMgr := s.authMgr.revokeSession token }
    | none => s,
    some (.loggedOut makeLogoutCookie))

/-- The setup request installs a manager of the secret, and then removes the pending setup. -/
def proceed (s : AppState) (i : ℕ) : AppState × Option Response :=
  match s.tasks[i]? with
  | some (.install secret a) =>
    ({ s with
        totp := some ⟨s.managers, secret, ∅⟩
        managers := s.managers + 1
        tasks := s.tasks.set i (.finish a) }, none)
  | some (.finish a) =>
    ({ s with pendingSetup := none, tasks := s.tasks.set i (.issue (.totp a) "totp" "") }, none)
  | _ => (s, none)

/-- The callback fetches the user and checks the lists. -/
def exchanged (s : AppState) (i : ℕ) (provider : Provider) : AppState × Option Response :=
  match s.tasks[i]?, s.oauthMgr with
  | some (.exchange code state), some m =>
    match exchangeCode lib.lower m.setup.config provider code with
    | .error _ =>
      ({ s with tasks := s.tasks.eraseIdx i }, some (.redirect "/login?error=oauth_exchange"))
    | .ok user =>
      if isUserAllowed m.setup.config provider user then
        ({ s with tasks := s.tasks.set i (.forUser state user) }, none)
      else
        ({ s with tasks := s.tasks.eraseIdx i }, some (.redirect "/login?error=oauth_forbidden"))
  | _, _ => (s, none)

/-- The session is created, and the cookie goes out. -/
def createSession (s : AppState) (i now : ℕ) (token : String) (order : IterOrder) :
    AppState × Option Response :=
  match s.tasks[i]? with
  | some (.issue _ authMethod userId) =>
    ({ s with
        authMgr := s.authMgr.createSession now authMethod userId token order
        tasks := s.tasks.eraseIdx i },
      some (.loggedIn (makeSessionCookie token s.tlsEnabled)))
  | _ => (s, none)

def handle (s : AppState) : Event → AppState × Option Response
  | .login r => s.handleLogin lib r
  | .setupVerify call => s.handleSetupVerify lib call
  | .oauthRedirect now state => s.handleOauthRedirect lib now state
  | .oauthCallback now query => s.handleOauthCallback lib now query
  | .logout _ cookie => s.handleLogout cookie
  | .proceed i => s.proceed i
  | .exchanged i provider => s.exchanged lib i provider
  | .createSession i now token order => s.createSession i now token order

def step (s : AppState) (e : Event) : AppState := (s.handle lib e).1

/-! ## The gate -/

/-- Check whether the request session is valid when authentication is required. -/
def hasValidSession (s : AppState) (now : ℕ) (cookie : Option String) : Bool :=
  if !(s.totpEnabled || s.oauthMgr.isSome) then true
  else ((extractSessionCookie cookie).map (s.authMgr.isValid now)).getD false

/-- The token of the query, if one is configured. -/
def legacyOk (s : AppState) (provided : String) : Bool :=
  match s.legacyToken with
  | none => true
  | some expected => provided.utf8ByteSize = expected.utf8ByteSize && provided = expected

end AppState

/-- Session metadata (for the access log). -/
def sessionInfo (s : AuthManager) (now : ℕ) (token : String) : Option (String × String) :=
  (s.sessions.find? fun e => e.1 = token).bind fun e =>
    if now < e.2.expiry then some (e.2.authMethod, e.2.userId) else none

/-- A request for a page or a WebSocket: its headers, and the query of the latter. -/
structure Request where
  headers : HeaderMap
  cookie : Option String
  xForwardedProto : Option String
  host : Option String
  session : Option String
  token : Option String

namespace AppState

/-- `GET /ws`: the answer, and the entry in the access log. -/
def wsHandler (s : AppState) (now : ℕ) (request : Request) : Response × Option AccessLogEntry :=
  let addr := clientIp request.headers
  if !s.hasValidSession now request.cookie then
    (.unauthorized, some ⟨addr, "GET", "/ws", 401, "", ""⟩)
  else if !s.legacyOk (request.token.getD "") then (.unauthorized, none)
  else
    let token := extractSessionCookie request.cookie
    let info := (token.bind (sessionInfo s.authMgr now)).getD ("", "")
    (.switchingProtocols (request.session.getD "main"),
      some ⟨addr, "GET", "/ws", 101, info.1, info.2⟩)

/-- `GET /`. -/
def serveIndex (s : AppState) (now : ℕ) (request : Request) : Response :=
  if s.forceHttps && !s.tlsEnabled && request.xForwardedProto.getD "http" ≠ "https" then
    let host := (request.host.getD "localhost").toList.takeWhile (· ≠ ':')
    .httpsRedirect ("https://" ++ String.ofList host ++ ":7681/")
  else if !s.hasValidSession now request.cookie then .redirect "/login"
  else .asset "index.html"

end AppState

/-! ## What a run does -/

/-- A session that was created. -/
structure Grant where
  token : String
  now : ℕ
  credential : Credential
  authMethod : String
  userId : String

namespace AppState

/-- The session that an event creates. -/
def grant (s : AppState) : Event → Option Grant
  | .createSession i now token _ =>
    match s.tasks[i]? with
    | some (.issue credential authMethod userId) =>
      some ⟨token, now, credential, authMethod, userId⟩
    | _ => none
  | _ => none

/-- What an event asks of the session store. -/
def call (s : AppState) : Event → Option AuthCall
  | .createSession i now token order =>
    match s.tasks[i]? with
    | some (.issue _ authMethod userId) =>
      some ⟨now, .createSession authMethod userId token order⟩
    | _ => none
  | .logout now cookie =>
    (extractSessionCookie cookie).map fun token => ⟨now, .revokeSession token⟩
  | _ => none

def run (s : AppState) (es : List Event) : AppState := Runs.run (step lib) s es

def grants (s : AppState) (es : List Event) : List Grant :=
  Runs.outputs (step lib) (fun s e => (s.grant e).toList) s es

def calls (s : AppState) (es : List Event) : List AuthCall :=
  Runs.outputs (step lib) (fun s e => (s.call e).toList) s es

end AppState

namespace Event

/-- The monotonic clock. -/
def time : Event → Option ℕ
  | login r => some r.now
  | oauthRedirect now _ | oauthCallback now _ | logout now _ | createSession _ now _ _ => some now
  | setupVerify _ | proceed _ | exchanged _ _ => none

/-- The check of a code. -/
def check : Event → Option Call
  | login r => some ⟨r.code, r.clock⟩
  | setupVerify call => some call
  | _ => none

/-- The drawn token. -/
def token : Event → Option String
  | createSession _ _ token _ => some token
  | _ => none

/-- The drawn state. -/
def state : Event → Option String
  | oauthRedirect _ state => some state
  | _ => none

end Event

/-- The lifetime of a session. -/
def WebConfig.ttl (config : WebConfig) : ℕ := config.sessionTimeoutSecs * 1000000000

def WebConfig.AuthRequired (config : WebConfig) : Prop :=
  config.totpEnabled = true ∨ config.oauth ≠ none

section

variable (config : WebConfig) (drawn : String)

/-- A secret that codes may be made with: the configured one, or else the one to be set up. -/
def Secret (secret : String) : Prop :=
  config.totpEnabled = true ∧ lib.validSecret secret = true ∧
    (config.totpSecret = some secret ∨ config.totpSecret = none ∧ secret = drawn)

/-- A call presents the code of the window that was accepted. -/
def Presents (call : Call) (a : Acceptance) : Prop :=
  Secret lib config drawn a.secret ∧ call.target (lib.generate a.secret) = some a.window

/-- A state came back before it expired. -/
def Returned (start now : ℕ) (query : OAuthCallback) (code state : String) : Prop :=
  now < start + stateTtl ∧ query.error = none ∧ query.code = some code ∧ query.state = some state

/-- The events that end in a proof of identity, the credential, and who it is. -/
inductive Proof : List Event → Credential → String → String → Prop
  /-- A code was checked. -/
  | login {r : LoginRequest} {a : Acceptance} (h : Presents lib config drawn ⟨r.code, r.clock⟩ a) :
    Proof [.login r] (.totp a) "totp" ""
  /-- The first code was checked, and the manager installed. -/
  | setup {call : Call} {a : Acceptance} {i j : ℕ} (h : Presents lib config drawn call a) :
    Proof [.setupVerify call, .proceed i, .proceed j] (.totp a) "totp" ""
  /-- An authorization was started, its state came back in time, and the user is allowed. -/
  | oauth {setup : OAuthSetup} {start now i : ℕ} {query : OAuthCallback} {code state : String}
      {provider : Provider} {user : OAuthUser} (hsetup : config.oauth = some setup)
      (hreturned : Returned start now query code state)
      (huser : exchangeCode lib.lower setup.config provider code = .ok user)
      (hallowed : Allowed setup.config provider user) :
    Proof [.oauthRedirect start state, .oauthCallback now query, .exchanged i provider]
      (.oauth state) ("oauth:" ++ user.provider) (user.login.getD user.userId)

/-- The session was created after a proof of identity, for the one that it is about. -/
def Backed (es : List Event) (g : Grant) : Prop :=
  ∃ chain i order, Proof lib config drawn chain g.credential g.authMethod g.userId ∧
    (chain ++ [Event.createSession i g.now g.token order]).Sublist es

end

/-- The gate is open for a cookie: no authentication is required, or its token is in force. -/
def Open (config : WebConfig) (history : List Web.Event) (now : ℕ) (cookie : Option String) :
    Prop :=
  config.AuthRequired →
    ∃ token, extractSessionCookie cookie = some token ∧ InForce config.ttl history token now

/-! ## What a step does -/

variable {lib} {s : AppState} {e : Event} {es : List Event} {gs : List Grant}

/-- What an event leads to. -/
inductive Did (lib : Library) (s : AppState) : Event → AppState → Prop
  | limited {r : LoginRequest} {limiter : RateLimiter} :
    Did lib s (.login r) { s with totpRateLimiter := limiter }
  | checked {r : LoginRequest} {limiter : RateLimiter} {m : Manager} (hm : s.totp = some m) :
    Did lib s (.login r)
      { s with
        totpRateLimiter := limiter
        totp := some (m.check lib.generate ⟨r.code, r.clock⟩).1
        tasks := s.tasks ++ ((m.check lib.generate ⟨r.code, r.clock⟩).2.map fun a =>
          Task.issue (.totp a) "totp" "").toList }
  | firstChecked {call : Call} {m : Manager} (hm : s.pendingSetup = some m) :
    Did lib s (.setupVerify call)
      { s with
        pendingSetup := some (m.check lib.generate call).1
        tasks := s.tasks ++ ((m.check lib.generate call).2.map (Task.install m.secret)).toList }
  | authorized {now : ℕ} {state : String} {m : OAuthManager} (hm : s.oauthMgr = some m) :
    Did lib s (.oauthRedirect now state)
      { s with oauthMgr := some (m.authorizationUrl lib.parseUrl now state).2 }
  | returned {now : ℕ} {query : OAuthCallback} {m : OAuthManager} {code state : String}
      {task : Option Task} (hm : s.oauthMgr = some m) (herror : query.error = none)
      (hcode : query.code = some code) (hstate : query.state = some state)
      (htask : ∀ t ∈ task, t = .exchange code state ∧ (m.takeState now state).1 = .ok ()) :
    Did lib s (.oauthCallback now query)
      { s with
        oauthMgr := some (m.takeState now state).2
        tasks := s.tasks ++ task.toList }
  | revoked {now : ℕ} {cookie : Option String} {token : String}
      (htoken : extractSessionCookie cookie = some token) :
    Did lib s (.logout now cookie) { s with authMgr := s.authMgr.revokeSession token }
  | installed {i : ℕ} {secret : String} {a : Acceptance}
      (hi : s.tasks[i]? = some (.install secret a)) :
    Did lib s (.proceed i)
      { s with
        totp := some ⟨s.managers, secret, ∅⟩
        managers := s.managers + 1
        tasks := s.tasks.set i (.finish a) }
  | finished {i : ℕ} {a : Acceptance} (hi : s.tasks[i]? = some (.finish a)) :
    Did lib s (.proceed i)
      { s with pendingSetup := none, tasks := s.tasks.set i (.issue (.totp a) "totp" "") }
  | refused {i : ℕ} {provider : Provider} :
    Did lib s (.exchanged i provider) { s with tasks := s.tasks.eraseIdx i }
  | allowed {i : ℕ} {provider : Provider} {m : OAuthManager} {code state : String}
      {user : OAuthUser} (hi : s.tasks[i]? = some (.exchange code state))
      (hm : s.oauthMgr = some m)
      (huser : exchangeCode lib.lower m.setup.config provider code = .ok user)
      (hallowed : Allowed m.setup.config provider user) :
    Did lib s (.exchanged i provider)
      { s with tasks := s.tasks.set i (.forUser state user) }
  | created {i now : ℕ} {token : String} {order : IterOrder} {credential : Credential}
      {authMethod userId : String}
      (hi : s.tasks[i]? = some (.issue credential authMethod userId)) :
    Did lib s (.createSession i now token order)
      { s with
        authMgr := s.authMgr.createSession now authMethod userId token order
        tasks := s.tasks.eraseIdx i }
  | idle {e : Event} (hgrant : s.grant e = none) (hcall : s.call e = none) : Did lib s e s

theorem did (lib : Library) (s : AppState) (e : Event) : Did lib s e (s.step lib e) := by
  cases e with
  | login r =>
    dsimp only [AppState.step, AppState.handle, AppState.handleLogin]
    rcases s.totpRateLimiter.checkAndRecord .totpDefault r.key r.now with ⟨_ | _, limiter⟩
    · exact .limited
    · dsimp only
      split
      · exact .limited
      · rename_i m hm
        split
        · rename_i ha
          have h := @Did.checked lib s r limiter m hm
          rw [ha] at h
          simpa using h
        · rename_i a ha
          have h := @Did.checked lib s r (limiter.reset r.key) m hm
          rw [ha] at h
          exact h
  | setupVerify call =>
    dsimp only [AppState.step, AppState.handle, AppState.handleSetupVerify]
    split
    · exact .idle rfl rfl
    · rename_i m hm
      have h := @Did.firstChecked lib s call m hm
      split
      · rename_i ha
        rw [ha] at h
        simpa using h
      · rename_i a ha
        rw [ha] at h
        exact h
  | oauthRedirect now state =>
    dsimp only [AppState.step, AppState.handle, AppState.handleOauthRedirect]
    split
    · exact .idle rfl rfl
    · rename_i m hm
      exact .authorized hm
  | oauthCallback now query =>
    dsimp only [AppState.step, AppState.handle, AppState.handleOauthCallback]
    split
    · exact .idle rfl rfl
    · exact .idle rfl rfl
    · exact .idle rfl rfl
    · exact .idle rfl rfl
    · rename_i m code state hm herror hcode hstate
      split
      · rename_i htaken hclient
        refine @Did.returned lib s now query m code state (some (.exchange code state)) hm herror
          hcode hstate fun t ht => ?_
        obtain rfl := Option.some.inj ht
        exact ⟨rfl, htaken⟩
      · simpa using @Did.returned lib s now query m code state none hm herror hcode hstate nofun
  | logout now cookie =>
    dsimp only [AppState.step, AppState.handle, AppState.handleLogout]
    cases htoken : extractSessionCookie cookie with
    | none => exact .idle rfl (by simp [AppState.call, htoken])
    | some token => exact .revoked htoken
  | proceed i =>
    dsimp only [AppState.step, AppState.handle, AppState.proceed]
    split
    · rename_i secret a hi
      exact .installed hi
    · rename_i a hi
      exact .finished hi
    · exact .idle rfl rfl
  | exchanged i provider =>
    dsimp only [AppState.step, AppState.handle, AppState.exchanged]
    split
    · rename_i code state m hi hm
      split
      · exact .refused
      · rename_i user huser
        split_ifs with hallowed
        · exact .allowed hi hm huser ((isUserAllowed_iff _ _ _).1 hallowed)
        · exact .refused
    · exact .idle rfl rfl
  | createSession i now token order =>
    dsimp only [AppState.step, AppState.handle, AppState.createSession]
    split
    · rename_i credential authMethod userId hi
      exact .created hi
    · rename_i hi
      refine .idle ?_ ?_
      · dsimp only [AppState.grant]
        split
        · rename_i hi'
          exact absurd hi' (hi _ _ _)
        · rfl
      · dsimp only [AppState.call]
        split
        · rename_i hi'
          exact absurd hi' (hi _ _ _)
        · rfl

/-- A manager accepts a code exactly if the code is verified. -/
theorem check_isSome (generate : String → ℕ → String) (m : Manager) (call : Call) :
    (m.check generate call).2.isSome =
      (TotpManager.verify (generate m.secret) m.used call).1 := by
  rw [Manager.check_accepted, Option.isSome_map, TotpManager.consumes]
  cases htarget : call.target (generate m.secret) with
  | none =>
    rw [TotpManager.verify, htarget]
    rfl
  | some w => cases (TotpManager.verify (generate m.secret) m.used call).1 <;> rfl

/-- A login does with the counter and the used codes what the handler by itself does. -/
theorem handleLogin_eq (lib : Library) (s : AppState) (r : LoginRequest) (secret : String)
    (hsecret : ∀ m ∈ s.totp, m.secret = secret) :
    LoginState.mk (s.step lib (.login r)).totpRateLimiter
        ((s.step lib (.login r)).totp.map Manager.used) =
      (Web.handleLogin (lib.generate secret) .totpDefault
        ⟨s.totpRateLimiter, s.totp.map Manager.used⟩ r).2 := by
  dsimp only [AppState.step, AppState.handle, AppState.handleLogin, Web.handleLogin]
  rcases s.totpRateLimiter.checkAndRecord .totpDefault r.key r.now with ⟨_ | _, limiter⟩
  · rfl
  · cases hm : s.totp with
    | none => simp
    | some m =>
      obtain rfl := hsecret m hm
      have haccepted := check_isSome lib.generate m ⟨r.code, r.clock⟩
      have hused := @Manager.check_used lib.generate m ⟨r.code, r.clock⟩
      dsimp only [Option.map_some]
      generalize TotpManager.verify (lib.generate m.secret) m.used ⟨r.code, r.clock⟩ = result at *
      obtain ⟨_ | _, used⟩ := result
      · rw [Option.isSome_eq_false_iff, Option.isNone_iff_eq_none] at haccepted
        rw [haccepted]
        simpa using hused
      · obtain ⟨a, ha⟩ := Option.isSome_iff_exists.1 haccepted
        rw [ha]
        simpa using hused

/-! ## What the tasks rest on -/

section

variable (lib) (config : WebConfig) (drawn : String)

/-- The part of a proof of identity that is behind a task. -/
def Task.Sound (es : List Event) : Task → Prop
  | install secret a => secret = a.secret ∧
    ∃ call, Presents lib config drawn call a ∧ [Event.setupVerify call].Sublist es
  | finish a => ∃ call i, Presents lib config drawn call a ∧
    [Event.setupVerify call, .proceed i].Sublist es
  | exchange code state => ∃ start now query, Returned start now query code state ∧
    [Event.oauthRedirect start state, .oauthCallback now query].Sublist es
  | issue credential authMethod userId => ∃ chain,
    Proof lib config drawn chain credential authMethod userId ∧ chain.Sublist es

/-- The managers have the configured secrets, the pending states were drawn here, and every task
    has its part of a proof. -/
structure Grounded (es : List Event) (s : AppState) : Prop where
  totp : ∀ m ∈ s.totp, Secret lib config drawn m.secret
  pending : ∀ m ∈ s.pendingSetup, Secret lib config drawn m.secret
  setup : s.oauthMgr.map OAuthManager.setup = config.oauth
  states : ∀ m ∈ s.oauthMgr, ∀ p ∈ m.pendingStates, ∃ start,
    [Event.oauthRedirect start p.1].Sublist es ∧ p.2 = start + stateTtl
  tasks : ∀ t ∈ s.tasks, t.Sound lib config drawn es

end

variable {config : WebConfig} {drawn : String}

theorem Task.Sound.later {t : Task} (h : t.Sound lib config drawn es) (e : Event) :
    t.Sound lib config drawn (es ++ [e]) := by
  cases t with
  | install secret a =>
    obtain ⟨hsecret, call, hcall, hchain⟩ := h
    exact ⟨hsecret, call, hcall, hchain.later e⟩
  | finish a =>
    obtain ⟨call, i, hcall, hchain⟩ := h
    exact ⟨call, i, hcall, hchain.later e⟩
  | exchange code state =>
    obtain ⟨start, now, query, hreturned, hchain⟩ := h
    exact ⟨start, now, query, hreturned, hchain.later e⟩
  | issue credential authMethod userId =>
    obtain ⟨chain, hproof, hchain⟩ := h
    exact ⟨chain, hproof, hchain.later e⟩

theorem Grounded.later (h : Grounded lib config drawn es s) (e : Event) :
    Grounded lib config drawn (es ++ [e]) s :=
  { h with
    states := fun m hm p hp => (h.states m hm p hp).imp fun _ hp => hp.imp_left (·.later e)
    tasks := fun t ht => (h.tasks t ht).later e }

theorem mem_setup (h : s.oauthMgr.map OAuthManager.setup = config.oauth) {m : OAuthManager}
    (hm : s.oauthMgr = some m) : config.oauth = some m.setup := by
  rw [← h, hm]
  rfl

/-- A task in the place of another one, or after the others. -/
theorem Grounded.set (h : Grounded lib config drawn es s) {i : ℕ} {t : Task}
    (ht : t.Sound lib config drawn es) : ∀ t' ∈ s.tasks.set i t, t'.Sound lib config drawn es := by
  intro t' ht'
  rcases List.mem_or_eq_of_mem_set ht' with ht' | rfl
  · exact h.tasks t' ht'
  · exact ht

theorem Grounded.append (h : Grounded lib config drawn es s) {task : Option Task}
    (ht : ∀ t ∈ task, t.Sound lib config drawn es) :
    ∀ t ∈ s.tasks ++ task.toList, t.Sound lib config drawn es := by
  intro t hmem
  rcases List.mem_append.1 hmem with hmem | hmem
  · exact h.tasks t hmem
  · exact ht t (Option.mem_toList.1 hmem)

theorem presents_of_check {m : Manager} (hsecret : Secret lib config drawn m.secret)
    {call : Call} {a : Acceptance} (ha : a ∈ (m.check lib.generate call).2) :
    a.secret = m.secret ∧ Presents lib config drawn call a := by
  obtain ⟨-, heq, htarget⟩ := Setup.manager_of_check ha
  exact ⟨heq, heq ▸ hsecret, heq ▸ htarget⟩

theorem Grounded.step (h : Grounded lib config drawn es s) (e : Event) :
    Grounded lib config drawn (es ++ [e]) (s.step lib e) := by
  have h' := h.later e
  have hdid := did lib s e
  generalize s.step lib e = s' at hdid
  cases hdid with
  | limited => exact { h' with }
  | @checked r limiter m hm =>
    refine { h' with totp := fun m' hm' => ?_, tasks := h'.append fun t ht => ?_ }
    · obtain rfl := Option.some.inj hm'
      rw [Manager.check_secret]
      exact h.totp m hm
    · obtain ⟨a, ha, rfl⟩ := Option.map_eq_some_iff.1 ht
      exact ⟨_, .login (presents_of_check (h.totp m hm) ha).2, List.sublist_append_right es _⟩
  | @firstChecked call m hm =>
    refine { h' with pending := fun m' hm' => ?_, tasks := h'.append fun t ht => ?_ }
    · obtain rfl := Option.some.inj hm'
      rw [Manager.check_secret]
      exact h.pending m hm
    · obtain ⟨a, ha, rfl⟩ := Option.map_eq_some_iff.1 ht
      obtain ⟨hsecret, hpresents⟩ := presents_of_check (h.pending m hm) ha
      exact ⟨hsecret.symm, call, hpresents, List.sublist_append_right es _⟩
  | @authorized now state m hm =>
    refine { h' with setup := ?_, states := fun m' hm' p hp => ?_ }
    · rw [mem_setup h.setup hm]
      rcases m.authorizationUrl_cases lib.parseUrl now state with heq | ⟨heq, -⟩ <;> simp [heq]
    · obtain rfl := Option.some.inj hm'
      rcases m.authorizationUrl_cases lib.parseUrl now state with heq | ⟨-, hstates⟩
      · rw [heq] at hp
        exact h'.states m hm p hp
      · rcases hstates p hp with rfl | hp
        · exact ⟨now, List.sublist_append_right es _, rfl⟩
        · exact h'.states m hm p hp
  | @returned now query m code state task hm herror hcode hstate htask =>
    refine { h' with setup := ?_, states := fun m' hm' p hp => ?_, tasks := h'.append fun t ht => ?_ }
    · rw [mem_setup h.setup hm]
      simp
    · obtain rfl := Option.some.inj hm'
      rw [OAuthManager.takeState_pendingStates] at hp
      exact h'.states m hm p (List.mem_filter.1 hp).1
    · obtain ⟨rfl, htaken⟩ := htask t ht
      obtain ⟨expiry, hmem, hlive⟩ := OAuthManager.mem_of_takeState htaken
      obtain ⟨start, hchain, rfl⟩ := h.states m hm _ hmem
      exact ⟨start, now, query, ⟨hlive, herror, hcode, hstate⟩, hchain.snoc _⟩
  | revoked => exact { h' with }
  | @installed i secret a hi =>
    obtain ⟨rfl, call, hpresents, hchain⟩ := h.tasks _ (List.mem_of_getElem? hi)
    refine { h' with totp := fun m' hm' => ?_, tasks := h'.set ?_ }
    · obtain rfl := Option.some.inj hm'
      exact hpresents.1
    · exact ⟨call, i, hpresents, hchain.snoc _⟩
  | @finished i a hi =>
    obtain ⟨call, j, hpresents, hchain⟩ := h.tasks _ (List.mem_of_getElem? hi)
    refine { h' with pending := nofun, tasks := h'.set ?_ }
    exact ⟨_, .setup hpresents, hchain.snoc _⟩
  | refused => exact { h' with tasks := fun t ht => h'.tasks t (List.mem_of_mem_eraseIdx ht) }
  | @allowed i provider m code state user hi hm huser hallowed =>
    obtain ⟨start, now, query, hreturned, hchain⟩ := h.tasks _ (List.mem_of_getElem? hi)
    refine { h' with tasks := h'.set ?_ }
    exact ⟨_, .oauth (mem_setup h.setup hm) hreturned huser hallowed, hchain.snoc _⟩
  | created => exact { h' with tasks := fun t ht => h'.tasks t (List.mem_of_mem_eraseIdx ht) }
  | idle => exact h'

theorem Grounded.backed (h : Grounded lib config drawn es s) {e : Event} {g : Grant}
    (hg : s.grant e = some g) : Backed lib config drawn (es ++ [e]) g := by
  cases e with
  | createSession i now token order =>
    dsimp only [AppState.grant] at hg
    split at hg
    · rename_i credential authMethod userId hi
      obtain rfl := Option.some.inj hg
      obtain ⟨chain, hproof, hchain⟩ := h.tasks _ (List.mem_of_getElem? hi)
      exact ⟨chain, i, order, hproof, hchain.snoc _⟩
    · cases hg
  | _ => cases hg

theorem Backed.later {g : Grant} (h : Backed lib config drawn es g) (e : Event) :
    Backed lib config drawn (es ++ [e]) g := by
  obtain ⟨chain, i, order, hproof, hchain⟩ := h
  exact ⟨chain, i, order, hproof, hchain.later e⟩

theorem secret_of_totp {m : Manager} (hm : (startWebServer lib config drawn).totp = some m) :
    Secret lib config drawn m.secret := by
  unfold startWebServer at hm
  dsimp only at hm
  split_ifs at hm with henabled
  obtain ⟨secret, hsecret, rfl⟩ := Option.map_eq_some_iff.1 hm
  obtain ⟨hconfig, hvalid⟩ := Option.filter_eq_some_iff.1 hsecret
  exact ⟨henabled, hvalid, .inl hconfig⟩

theorem secret_of_pending {m : Manager}
    (hm : (startWebServer lib config drawn).pendingSetup = some m) :
    Secret lib config drawn m.secret := by
  unfold startWebServer at hm
  dsimp only at hm
  split_ifs at hm with henabled
  obtain rfl := Option.some.inj hm
  exact ⟨henabled.1, henabled.2.2, .inr ⟨henabled.2.1, rfl⟩⟩

theorem grounded_start : Grounded lib config drawn [] (startWebServer lib config drawn) where
  totp _ := secret_of_totp
  pending _ := secret_of_pending
  setup := by simp [startWebServer, Function.comp_def]
  states m hm p hp := by
    obtain ⟨setup, -, rfl⟩ := Option.map_eq_some_iff.1 hm
    cases hp
  tasks t ht := by cases ht

/-- Every session of a run was created after a proof of identity. -/
theorem backed_run (lib : Library) (config : WebConfig) (drawn : String) (es : List Event) :
    ∀ g ∈ (startWebServer lib config drawn).grants lib es, Backed lib config drawn es g := by
  have htrail : Grounded lib config drawn es ((startWebServer lib config drawn).run lib es) ∧
      ∀ g ∈ (startWebServer lib config drawn).grants lib es, Backed lib config drawn es g := by
    refine Runs.run_trail (I := fun es s gs =>
      Grounded lib config drawn es s ∧ ∀ g ∈ gs, Backed lib config drawn es g) ?_ ?_
    · exact ⟨grounded_start, by simp⟩
    · rintro pre e - ⟨hgrounded, hgrants⟩
      refine ⟨hgrounded.step e, fun g hg => ?_⟩
      rcases List.mem_append.1 hg with hg | hg
      · exact (hgrants g hg).later e
      · exact hgrounded.backed (Option.mem_toList.1 hg)
  exact htrail.2

/-! ## No proof is used twice -/

/-- The credentials of the tasks and of the sessions that were created. -/
def credentials (tasks : List Task) (gs : List Grant) : List Credential :=
  tasks.map Task.credential ++ gs.map Grant.credential

/-- What is known of the credentials in use: they are distinct; the codes among them were accepted;
    the states were drawn here and are not pending any more. -/
structure Used (es : List Event) (mgr : Option OAuthManager) (accepted : List Acceptance)
    (cs : List Credential) : Prop where
  nodup : cs.Nodup
  totp : ∀ a, .totp a ∈ cs → a ∈ accepted
  oauth : ∀ state, .oauth state ∈ cs → state ∈ es.filterMap Event.state ∧
    ∀ m ∈ mgr, ∀ p ∈ m.pendingStates, p.1 ≠ state

section

variable {mgr : Option OAuthManager} {accepted : List Acceptance} {cs cs' : List Credential}

theorem Used.sub (h : Used es mgr accepted cs) (hsub : cs'.Subperm cs) :
    Used es mgr accepted cs' where
  nodup := by
    obtain ⟨l, hperm, hsublist⟩ := hsub
    exact hperm.nodup_iff.1 (h.nodup.sublist hsublist)
  totp a ha := h.totp a (hsub.subset ha)
  oauth state hstate := h.oauth state (hsub.subset hstate)

theorem Used.later (h : Used es mgr accepted cs) (e : Event) :
    Used (es ++ [e]) mgr accepted cs :=
  { h with
    oauth := fun state hstate => (h.oauth state hstate).imp_left fun hmem => by
      rw [List.filterMap_append]
      exact List.mem_append_left _ hmem }

/-- A code that was not accepted before is. -/
theorem Used.code (h : Used es mgr accepted cs) {new : Option Acceptance}
    (hnew : ∀ a ∈ new, a ∉ accepted) :
    Used es mgr (new.toList ++ accepted) ((new.map Credential.totp).toList ++ cs) := by
  cases new with
  | none => exact h
  | some a =>
    refine ⟨List.nodup_cons.2 ⟨fun hmem => hnew a rfl (h.totp a hmem), h.nodup⟩, ?_, ?_⟩
    · intro b hb
      rcases List.mem_cons.1 hb with heq | hb
      · exact Credential.totp.inj heq ▸ List.mem_cons_self
      · exact List.mem_cons_of_mem _ (h.totp b hb)
    · intro state hstate
      rcases List.mem_cons.1 hstate with heq | hstate
      · cases heq
      · exact h.oauth state hstate

/-- A state is drawn that was not drawn before. -/
theorem Used.authorized {m : OAuthManager} (h : Used es (some m) accepted cs) {now : ℕ}
    {state : String} (hstate : state ∉ es.filterMap Event.state) :
    Used es (some (m.authorizationUrl lib.parseUrl now state).2) accepted cs := by
  refine { h with oauth := fun st hst => ⟨(h.oauth st hst).1, fun m' hm' p hp => ?_⟩ }
  obtain rfl := Option.some.inj hm'
  rcases m.authorizationUrl_cases lib.parseUrl now state with heq | ⟨-, hstates⟩
  · rw [heq] at hp
    exact (h.oauth st hst).2 m rfl p hp
  · rcases hstates p hp with rfl | hp
    · rintro rfl
      exact hstate (h.oauth _ hst).1
    · exact (h.oauth st hst).2 m rfl p hp

/-- A pending state is taken. -/
theorem Used.taken {m : OAuthManager} (h : Used es (some m) accepted cs) {now : ℕ}
    {state : String} :
    Used es (some (m.takeState now state).2) accepted cs := by
  refine { h with oauth := fun st hst => ⟨(h.oauth st hst).1, fun m' hm' p hp => ?_⟩ }
  obtain rfl := Option.some.inj hm'
  rw [OAuthManager.takeState_pendingStates] at hp
  exact (h.oauth st hst).2 m rfl p (List.mem_filter.1 hp).1

theorem Used.state {m : OAuthManager} (h : Used es (some m) accepted cs) {now : ℕ} {state : String}
    (hdrawn : state ∈ es.filterMap Event.state) (htaken : (m.takeState now state).1 = .ok ()) :
    Used es (some (m.takeState now state).2) accepted (.oauth state :: cs) := by
  obtain ⟨expiry, hmem, -⟩ := OAuthManager.mem_of_takeState htaken
  refine ⟨List.nodup_cons.2 ⟨fun hused => ?_, h.nodup⟩, fun a ha => ?_, fun st hst => ?_⟩
  · exact (h.oauth state hused).2 m rfl _ hmem rfl
  · rcases List.mem_cons.1 ha with heq | ha
    · cases heq
    · exact h.totp a ha
  · rcases List.mem_cons.1 hst with heq | hst
    · obtain rfl := Credential.oauth.inj heq
      refine ⟨hdrawn, fun m' hm' p hp => ?_⟩
      obtain rfl := Option.some.inj hm'
      rw [OAuthManager.takeState_pendingStates] at hp
      simpa using (List.mem_filter.1 hp).2
    · exact h.taken.oauth st hst

end

/-- A task in the place of another one with the same credential. -/
theorem credentials_set {i : ℕ} {t : Task} (hi : s.tasks[i]? = some t) (t' : Task)
    (heq : t'.credential = t.credential) :
    credentials (s.tasks.set i t') gs = credentials s.tasks gs := by
  refine congrArg (· ++ gs.map Grant.credential) ?_
  refine List.ext_getElem? fun n => ?_
  rw [List.getElem?_map, List.getElem?_map, List.getElem?_set]
  split_ifs with hn hlt
  · subst hn
    simp [hi, heq]
  · subst hn
    rw [List.getElem?_eq_none (by omega)]
  · rfl

/-- The credential of a task that is finished passes to its session. -/
theorem credentials_created {i : ℕ} {t : Task} (hi : s.tasks[i]? = some t) {g : Grant}
    (heq : g.credential = t.credential) :
    (credentials (s.tasks.eraseIdx i) (gs ++ [g])).Perm (credentials s.tasks gs) := by
  have hperm : (t.credential :: (s.tasks.eraseIdx i).map Task.credential).Perm
      (s.tasks.map Task.credential) := by
    obtain ⟨hlt, rfl⟩ := List.getElem?_eq_some_iff.1 hi
    exact (List.getElem_cons_eraseIdx_perm hlt).map Task.credential
  rw [credentials, credentials, List.map_append, ← List.append_assoc, List.map_singleton, heq]
  refine List.perm_append_comm.trans ?_
  exact (hperm.append_right (gs.map Grant.credential))

/-- Tasks that are added, with the credentials of the others. -/
theorem credentials_append (tasks : List Task) (task : Option Task) (gs : List Grant) :
    (credentials (tasks ++ task.toList) gs).Perm
      ((task.map Task.credential).toList ++ credentials tasks gs) := by
  rw [credentials, List.map_append, List.append_assoc, Option.toList_map]
  exact List.perm_append_comm_assoc _ _ _

theorem credentials_eraseIdx (tasks : List Task) (i : ℕ) (gs : List Grant) :
    (credentials (tasks.eraseIdx i) gs).Subperm (credentials tasks gs) :=
  (((List.eraseIdx_sublist tasks i).map Task.credential).append_right _).subperm

/-- The managers, as the setup of codes sees them. -/
def AppState.setup (s : AppState) (underWay : List Setup.Stage) (accepted : List Acceptance) :
    Setup.SetupState where
  pending := s.pendingSetup
  totp := s.totp
  underWay := underWay
  managers := s.managers
  accepted := accepted

/-- No check of a code so far was in a later window. -/
def UpTo (es : List Event) (t : ℤ) : Prop := ∀ call ∈ es.filterMap Event.check, call.window ≤ t

theorem UpTo.before {t : ℤ} (h : UpTo (es ++ [e]) t) : UpTo es t := by
  intro call hcall
  refine h call ?_
  rw [List.filterMap_append]
  exact List.mem_append_left _ hcall

theorem UpTo.check {t : ℤ} {call : Call} (h : UpTo (es ++ [e]) t) (hcheck : e.check = some call) :
    call.window ≤ t := by
  refine h call ?_
  rw [List.filterMap_append]
  exact List.mem_append_right _ (List.mem_filterMap.2 ⟨e, List.mem_singleton_self e, hcheck⟩)

/-- A sound manager accepts no code twice. -/
theorem not_mem_of_check {m : Manager} {accepted : List Acceptance} {t : ℤ} {call : Call}
    (h : m.Sound lib.generate accepted t) (ht : t ≤ call.window) :
    ∀ a ∈ (m.check lib.generate call).2, a ∉ accepted := by
  intro a ha hmem
  obtain ⟨hid, -, -⟩ := Setup.manager_of_check ha
  obtain ⟨w, hw, rfl⟩ := Manager.mem_check.1 ha
  obtain ⟨-, hspent⟩ := h.recorded _ hmem hid
  exact hspent.not_consumes ht hw

/-- The managers are sound for what was accepted, and the credentials in use are distinct. -/
structure SingleUse (lib : Library) (es : List Event) (s : AppState) (gs : List Grant)
    (accepted : List Acceptance) : Prop where
  managers : ∀ t, UpTo es t → Setup.Inv lib.generate t (s.setup [] accepted)
  used : Used es s.oauthMgr accepted (credentials s.tasks gs)

theorem SingleUse.step {accepted : List Acceptance} (h : SingleUse lib es s gs accepted)
    (hgrounded : Grounded lib config drawn es s) (e : Event)
    (hcheck : ∀ call ∈ e.check, UpTo es call.window)
    (hstate : ∀ state ∈ e.state, state ∉ es.filterMap Event.state) :
    ∃ accepted', SingleUse lib (es ++ [e]) (s.step lib e) (gs ++ (s.grant e).toList) accepted' := by
  have hmanagers : ∀ t, UpTo (es ++ [e]) t → Setup.Inv lib.generate t (s.setup [] accepted) :=
    fun t ht => h.managers t ht.before
  have hused := h.used.later e
  have hdid := did lib s e
  generalize s.step lib e = s' at hdid
  cases hdid with
  | limited =>
    rw [show (s.grant (.login _)).toList = [] from rfl, List.append_nil]
    exact ⟨accepted, hmanagers, hused⟩
  | @checked r limiter m hm =>
    rw [show (s.grant (.login r)).toList = [] from rfl, List.append_nil]
    have hinv := h.managers _ (hcheck _ rfl)
    have hnew := not_mem_of_check (hinv.totp m hm).1 le_rfl
    refine ⟨(m.check lib.generate ⟨r.code, r.clock⟩).2.toList ++ accepted, fun t ht => ?_, ?_⟩
    · have hstep := hinv.step (e := .login ⟨r.code, r.clock⟩) fun call hcall => by
        obtain rfl := Option.some.inj hcall
        exact le_rfl
      rw [Setup.SetupState.step, show (s.setup [] accepted).totp = some m from hm] at hstep
      exact hstep.mono (ht.check rfl)
    · refine (hused.code hnew).sub ((credentials_append _ _ _).trans ?_).subperm
      rw [Option.map_map]
      exact List.Perm.refl _
  | @firstChecked call m hm =>
    rw [show (s.grant (.setupVerify call)).toList = [] from rfl, List.append_nil]
    have hinv := h.managers _ (hcheck _ rfl)
    have hnew := not_mem_of_check (hinv.pending m hm).1 le_rfl
    refine ⟨(m.check lib.generate call).2.toList ++ accepted, fun t ht => ?_, ?_⟩
    · have hstep := hinv.step (e := .setupVerify call) fun call' hcall => by
        obtain rfl := Option.some.inj hcall
        exact le_rfl
      rw [Setup.SetupState.step, show (s.setup [] accepted).pending = some m from hm] at hstep
      have hlater := hstep.mono (ht.check rfl)
      exact ⟨hlater.pending, hlater.totp, hlater.distinct, hlater.below⟩
    · refine (hused.code hnew).sub ((credentials_append _ _ _).trans ?_).subperm
      rw [Option.map_map]
      exact List.Perm.refl _
  | @authorized now state m hm =>
    rw [show (s.grant (.oauthRedirect now state)).toList = [] from rfl, List.append_nil]
    have hfresh := h.used
    rw [hm] at hfresh
    exact ⟨accepted, hmanagers, (hfresh.authorized (hstate _ rfl)).later _⟩
  | @returned now query m code state task hm herror hcode hquery htask =>
    rw [show (s.grant (.oauthCallback now query)).toList = [] from rfl, List.append_nil]
    rw [hm] at hused
    refine ⟨accepted, hmanagers, ?_⟩
    cases task with
    | none => simpa using hused.taken
    | some t =>
      obtain ⟨rfl, htaken⟩ := htask t rfl
      obtain ⟨expiry, hmem, -⟩ := OAuthManager.mem_of_takeState htaken
      obtain ⟨start, hchain, -⟩ := hgrounded.states m hm _ hmem
      have hdrawn : state ∈ (es ++ [Event.oauthCallback now query]).filterMap Event.state :=
        List.mem_filterMap.2 ⟨_, (hchain.later _).subset List.mem_cons_self, rfl⟩
      exact (hused.state hdrawn htaken).sub (credentials_append _ (some _) _).subperm
  | @revoked now cookie token htoken =>
    rw [show (s.grant (.logout now cookie)).toList = [] from rfl, List.append_nil]
    exact ⟨accepted, hmanagers, hused⟩
  | @installed i secret a hi =>
    rw [show (s.grant (.proceed i)).toList = [] from rfl, List.append_nil]
    refine ⟨accepted, fun t ht => ?_, ?_⟩
    · have hinv := hmanagers t ht
      have hstep := Setup.Inv.step (s := s.setup [.install secret] accepted) (e := .proceed 0)
        ⟨hinv.pending, hinv.totp, hinv.distinct, hinv.below⟩ nofun
      exact ⟨hstep.pending, hstep.totp, hstep.distinct, hstep.below⟩
    · show Used _ _ _ (credentials (s.tasks.set i _) gs)
      rwa [credentials_set hi (.finish a) rfl]
  | @finished i a hi =>
    rw [show (s.grant (.proceed i)).toList = [] from rfl, List.append_nil]
    refine ⟨accepted, fun t ht => ?_, ?_⟩
    · have hinv := hmanagers t ht
      have hstep := Setup.Inv.step (s := s.setup [.finish] accepted) (e := .proceed 0)
        ⟨hinv.pending, hinv.totp, hinv.distinct, hinv.below⟩ nofun
      exact hstep
    · show Used _ _ _ (credentials (s.tasks.set i _) gs)
      rwa [credentials_set hi (.issue (.totp a) "totp" "") rfl]
  | @refused i provider =>
    rw [show (s.grant (.exchanged i provider)).toList = [] from rfl, List.append_nil]
    exact ⟨accepted, hmanagers, hused.sub (credentials_eraseIdx _ _ _)⟩
  | @allowed i provider m code state user hi hm huser hallowed =>
    rw [show (s.grant (.exchanged i provider)).toList = [] from rfl, List.append_nil]
    refine ⟨accepted, hmanagers, ?_⟩
    show Used _ _ _ (credentials (s.tasks.set i _) gs)
    rwa [credentials_set hi (.forUser state user) rfl]
  | @created i now token order credential authMethod userId hi =>
    have hgrant : s.grant (.createSession i now token order) =
        some ⟨token, now, credential, authMethod, userId⟩ := by
      rw [AppState.grant, hi]
    rw [hgrant]
    exact ⟨accepted, hmanagers, hused.sub (credentials_created hi rfl).subperm⟩
  | idle hgrant =>
    rw [hgrant]
    refine ⟨accepted, hmanagers, ?_⟩
    simpa using hused

theorem start_setup (lib : Library) (config : WebConfig) (drawn : String) :
    (startWebServer lib config drawn).setup [] [] = Setup.SetupState.start
      (if config.totpEnabled ∧ config.totpSecret = none ∧ lib.validSecret drawn then some drawn
        else none)
      (if config.totpEnabled then config.totpSecret.filter lib.validSecret else none) := by
  unfold startWebServer AppState.setup Setup.SetupState.start
  split_ifs <;> rfl

/-- No credential of a run is used for two sessions. -/
theorem credentials_run (lib : Library) (config : WebConfig) (drawn : String) {es : List Event}
    (hcodes : (es.filterMap Event.check).Pairwise fun a b => a.now ≤ b.now)
    (hstates : (es.filterMap Event.state).Nodup) :
    (((startWebServer lib config drawn).grants lib es).map Grant.credential).Nodup := by
  have htrail : Grounded lib config drawn es ((startWebServer lib config drawn).run lib es) ∧
      ∃ accepted, SingleUse lib es ((startWebServer lib config drawn).run lib es)
        ((startWebServer lib config drawn).grants lib es) accepted := by
    refine Runs.run_trail (I := fun es s gs =>
      Grounded lib config drawn es s ∧ ∃ accepted, SingleUse lib es s gs accepted) ?_ ?_
    · refine ⟨grounded_start, [], fun t _ => ?_, ?_⟩
      · rw [start_setup]
        exact Setup.inv_start _ _ t
      · exact ⟨List.nodup_nil, fun a ha => (by cases ha), fun state hstate => (by cases hstate)⟩
    · rintro pre e hpre ⟨hgrounded, accepted, hsingle⟩
      refine ⟨hgrounded.step e, hsingle.step hgrounded e ?_ ?_⟩
      · intro call hcall earlier hmem
        have hsorted := hcodes.sublist (hpre.sublist.filterMap Event.check)
        rw [List.filterMap_append, List.pairwise_append] at hsorted
        exact TotpManager.window_le (hsorted.2.2 earlier hmem call
          (List.mem_filterMap.2 ⟨e, List.mem_singleton_self e, hcall⟩))
      · intro state hstate hmem
        have hnodup := hstates.sublist (hpre.sublist.filterMap Event.state)
        rw [List.filterMap_append, List.nodup_append] at hnodup
        exact hnodup.2.2 state hmem state
          (List.mem_filterMap.2 ⟨e, List.mem_singleton_self e, hstate⟩) rfl
  obtain ⟨-, accepted, hsingle⟩ := htrail
  exact (List.nodup_append.1 hsingle.used.nodup).2.1

/-! ## The session store -/

/-- Without a limit the store is as with one that is never reached. -/
theorem unlimited_eq {s s' : AuthManager} (hsessions : s.sessions = s'.sessions)
    (httl : s.ttl = s'.ttl) (hs : s.maxSessions = 0) {calls : List AuthCall}
    (hs' : s'.sessions.length + calls.length ≤ s'.maxSessions) :
    (s.run calls).sessions = (s'.run calls).sessions ∧ s.history calls = s'.history calls := by
  induction calls generalizing s s' with
  | nil => exact ⟨hsessions, rfl⟩
  | cons call calls ih =>
    rw [List.length_cons] at hs'
    have hlive : ∀ now, s.live now = s'.live now := by
      intro now
      rw [AuthManager.live, AuthManager.live, hsessions]
    have hnone : ∀ now order, s.evictee now order = none := by
      intro now order
      rw [AuthManager.evictee, if_neg (by omega)]
    have hnone' : ∀ now order, s'.evictee now order = none := by
      intro now order
      have := List.length_filter_le (fun e : String × SessionEntry => decide (now < e.2.expiry))
        s'.sessions
      rw [AuthManager.evictee, if_neg]
      rw [AuthManager.live]
      omega
    obtain ⟨now, op⟩ := call
    have hstep : (s.step ⟨now, op⟩).sessions = (s'.step ⟨now, op⟩).sessions ∧
        (s'.step ⟨now, op⟩).sessions.length ≤ s'.sessions.length + 1 ∧
        s.events ⟨now, op⟩ = s'.events ⟨now, op⟩ := by
      cases op with
      | createSession authMethod userId token order =>
        refine ⟨?_, ?_, ?_⟩
        · simp only [AuthManager.step, AuthManager.createSession, hlive, hnone, hnone', httl]
        · refine (List.length_cons ..).trans_le (Nat.succ_le_succ ?_)
          refine (List.length_filter_le _ _).trans ((List.length_filter_le _ _).trans ?_)
          exact List.length_filter_le _ _
        · simp only [AuthManager.events, hnone, hnone']
      | revokeSession token =>
        refine ⟨?_, ?_, rfl⟩
        · simp only [AuthManager.step, AuthManager.revokeSession, hsessions]
        · exact (List.length_filter_le _ _).trans (Nat.le_succ _)
      | isValid token => exact ⟨hsessions, Nat.le_succ _, rfl⟩
    obtain ⟨heq, hlength, hevents⟩ := hstep
    have hconfig := s.step_config ⟨now, op⟩
    have hconfig' := s'.step_config ⟨now, op⟩
    obtain ⟨hrun, hhistory⟩ := ih heq (by rw [hconfig.1, hconfig'.1, httl])
      (hconfig.2.trans hs) (by rw [hconfig'.2]; omega)
    refine ⟨hrun, ?_⟩
    rw [AuthManager.history, AuthManager.history, hevents, hhistory]

/-- A token is valid exactly if it is in force, with a limit or without. -/
theorem isValid_run_iff (ttl m : ℕ) {calls : List AuthCall}
    (htimes : calls.Pairwise fun a b => a.now ≤ b.now)
    (hfresh : (calls.filterMap AuthCall.issues).Nodup) {now : ℕ}
    (hnow : ∀ call ∈ calls, call.now ≤ now) (token : String) :
    ((AuthManager.new ttl m).run calls).isValid now token = true ↔
      InForce ttl ((AuthManager.new ttl m).history calls) token now := by
  have hlimited : ∀ m, 0 < m → (((AuthManager.new ttl m).run calls).isValid now token = true ↔
      InForce ttl ((AuthManager.new ttl m).history calls) token now) := by
    intro m hm
    have hrecords := AuthManager.records_run (s := AuthManager.new ttl m) rfl hm htimes hfresh hnow
    rw [hrecords.isValid_iff le_rfl, ((AuthManager.new ttl m).run_config calls).1]
    exact Iff.rfl
  rcases Nat.eq_zero_or_pos m with rfl | hm
  · have hroom : ([] : List (String × SessionEntry)).length + calls.length ≤ calls.length + 1 :=
      (Nat.zero_add _).trans_le (Nat.le_succ _)
    obtain ⟨hsessions, hhistory⟩ := @unlimited_eq (AuthManager.new ttl 0)
      (AuthManager.new ttl (calls.length + 1)) rfl rfl rfl calls hroom
    rw [hhistory, ← hlimited (calls.length + 1) (Nat.succ_pos _), AuthManager.isValid,
      AuthManager.isValid, hsessions]
  · exact hlimited m hm

/-- An event makes at most one call to the session store. -/
theorem authMgr_step (lib : Library) (s : AppState) (e : Event) :
    (s.step lib e).authMgr = s.authMgr.run (s.call e).toList := by
  have hdid := did lib s e
  generalize s.step lib e = s' at hdid
  cases hdid with
  | revoked htoken =>
    rw [AppState.call, htoken]
    rfl
  | created hi =>
    rw [AppState.call, hi]
    rfl
  | idle _ hcall =>
    rw [hcall]
    rfl
  | _ => rfl

theorem authMgr_run (lib : Library) (s : AppState) (es : List Event) :
    (s.run lib es).authMgr = s.authMgr.run (s.calls lib es) := by
  refine Runs.run_trail (I := fun _ (s' : AppState) calls => s'.authMgr = s.authMgr.run calls)
    rfl ?_
  rintro pre e - h
  rw [authMgr_step, h, AuthManager.run_append]

/-- Every stored session is one that was created, and expires when its lifetime is over. -/
structure Stored (ttl : ℕ) (s : AppState) (gs : List Grant) : Prop where
  ttl_eq : s.authMgr.ttl = ttl
  nodup : (s.authMgr.sessions.map Prod.fst).Nodup
  granted : ∀ p ∈ s.authMgr.sessions, ∃ g ∈ gs,
    p = (g.token, SessionEntry.mk (g.now + ttl) g.authMethod g.userId)

theorem Stored.step {ttl : ℕ} (h : Stored ttl s gs) (e : Event) :
    Stored ttl (s.step lib e) (gs ++ (s.grant e).toList) := by
  have hkept : ∀ p ∈ s.authMgr.sessions, ∃ g ∈ gs ++ (s.grant e).toList,
      p = (g.token, SessionEntry.mk (g.now + ttl) g.authMethod g.userId) := by
    intro p hp
    obtain ⟨g, hg, heq⟩ := h.granted p hp
    exact ⟨g, List.mem_append_left _ hg, heq⟩
  have hdid := did lib s e
  generalize s.step lib e = s' at hdid
  cases hdid with
  | @revoked now cookie token htoken =>
    refine ⟨h.ttl_eq, ?_, fun p hp => hkept p (List.mem_filter.1 hp).1⟩
    exact h.nodup.sublist (List.filter_sublist.map _)
  | @created i now token order credential authMethod userId hi =>
    refine ⟨h.ttl_eq, List.nodup_cons.2 ⟨fun hmem => ?_, ?_⟩, fun p hp => ?_⟩
    · obtain ⟨p, hp, heq⟩ := List.mem_map.1 hmem
      exact absurd heq (by simpa using (List.mem_filter.1 hp).2)
    · exact h.nodup.sublist
        (((List.filter_sublist.trans List.filter_sublist).trans List.filter_sublist).map _)
    rcases List.mem_cons.1 hp with rfl | hp
    · refine ⟨⟨token, now, credential, authMethod, userId⟩, ?_, by rw [h.ttl_eq]⟩
      rw [AppState.grant, hi]
      exact List.mem_append_right _ (List.mem_singleton_self _)
    · exact hkept p (AuthManager.mem_live.1
        (List.mem_filter.1 (List.mem_filter.1 hp).1).1).1
  | _ => exact ⟨h.ttl_eq, h.nodup, hkept⟩

theorem stored_run (lib : Library) (config : WebConfig) (drawn : String) (es : List Event) :
    Stored config.ttl ((startWebServer lib config drawn).run lib es)
      ((startWebServer lib config drawn).grants lib es) := by
  refine Runs.run_trail (I := fun _ s gs => Stored config.ttl s gs) ?_ fun pre e _ h => h.step e
  exact ⟨rfl, List.nodup_nil, fun p hp => by cases hp⟩

/-! ## The gate -/

/-- What no handler changes. -/
structure Configured (config : WebConfig) (s : AppState) : Prop where
  legacyToken : s.legacyToken = config.token
  totpEnabled : s.totpEnabled = config.totpEnabled
  tlsEnabled : s.tlsEnabled = config.tlsEnabled
  forceHttps : s.forceHttps = config.forceHttps
  oauth : s.oauthMgr.isSome = config.oauth.isSome

theorem Configured.step (h : Configured config s) (e : Event) :
    Configured config (s.step lib e) := by
  have hdid := did lib s e
  generalize s.step lib e = s' at hdid
  cases hdid with
  | authorized hm => exact { h with oauth := h.oauth ▸ hm ▸ rfl }
  | returned hm => exact { h with oauth := h.oauth ▸ hm ▸ rfl }
  | idle => exact h
  | _ => exact { h with }

theorem configured_run (lib : Library) (config : WebConfig) (drawn : String) (es : List Event) :
    Configured config ((startWebServer lib config drawn).run lib es) :=
  Runs.run_inv (fun _ e h => h.step e)
    ⟨rfl, rfl, rfl, rfl, by cases config with | mk => simp [startWebServer]⟩

theorem Configured.hasValidSession_iff (h : Configured config s) {now : ℕ}
    {cookie : Option String} : s.hasValidSession now cookie = true ↔
      (config.AuthRequired → ∃ token, extractSessionCookie cookie = some token ∧
        s.authMgr.isValid now token = true) := by
  have hrequired : config.AuthRequired ↔ (s.totpEnabled || s.oauthMgr.isSome) = true := by
    rw [h.totpEnabled, h.oauth, Bool.or_eq_true, Option.isSome_iff_ne_none]
    exact Iff.rfl
  rw [hrequired, AppState.hasValidSession]
  cases s.totpEnabled || s.oauthMgr.isSome with
  | false => simp
  | true => cases extractSessionCookie cookie <;> simp

theorem Configured.legacyOk_iff (h : Configured config s) {provided : String} :
    s.legacyOk provided = true ↔ ∀ token ∈ config.token, provided = token := by
  rw [AppState.legacyOk, h.legacyToken]
  cases config.token with
  | none => simp
  | some expected =>
    simp only [Bool.and_eq_true, decide_eq_true_eq, Option.mem_some_iff, forall_eq']
    exact ⟨And.right, fun heq => ⟨by rw [heq], heq⟩⟩

/-- A WebSocket is opened exactly behind a valid session and with the configured token. -/
theorem wsHandler_iff {now : ℕ} {request : Request} :
    (s.wsHandler now request).1 ≠ .unauthorized ↔
      s.hasValidSession now request.cookie = true ∧
        s.legacyOk (request.token.getD "") = true := by
  unfold AppState.wsHandler
  cases s.hasValidSession now request.cookie <;>
    cases s.legacyOk (request.token.getD "") <;> simp

theorem serveIndex_iff {now : ℕ} {request : Request} :
    s.serveIndex now request = .asset "index.html" ↔
      s.hasValidSession now request.cookie = true ∧
        (s.forceHttps = true → s.tlsEnabled = false → request.xForwardedProto = some "https") := by
  have hproto : request.xForwardedProto.getD "http" = "https" ↔
      request.xForwardedProto = some "https" := by
    cases request.xForwardedProto <;> simp
  rw [← hproto, AppState.serveIndex]
  cases s.forceHttps <;> cases s.tlsEnabled <;> cases s.hasValidSession now request.cookie <;>
    by_cases hhttps : request.xForwardedProto.getD "http" = "https" <;> simp [hhttps]

/-- What the gate is for, after the events `es`. -/
structure Guarded (lib : Library) (config : WebConfig) (drawn : String) (es : List Event) :
    Prop where
  /-- A WebSocket is opened exactly for a token in force (and the configured token). -/
  socket : ∀ now, (∀ t ∈ es.filterMap Event.time, t ≤ now) → ∀ request : Request,
    (((startWebServer lib config drawn).run lib es).wsHandler now request).1 ≠ .unauthorized ↔
      Open config ((AuthManager.new config.ttl config.maxSessions).history
          ((startWebServer lib config drawn).calls lib es)) now request.cookie ∧
        ∀ token ∈ config.token, request.token.getD "" = token
  /-- So is the main page shown. -/
  index : ∀ now, (∀ t ∈ es.filterMap Event.time, t ≤ now) → ∀ request : Request,
    ((startWebServer lib config drawn).run lib es).serveIndex now request = .asset "index.html" ↔
      Open config ((AuthManager.new config.ttl config.maxSessions).history
          ((startWebServer lib config drawn).calls lib es)) now request.cookie ∧
        (config.forceHttps = true → config.tlsEnabled = false →
          request.xForwardedProto = some "https")
  /-- Behind a WebSocket that needed a session there is one that was created less than its
      lifetime ago, and the access log tells whose it is. -/
  granted : ∀ now, (∀ t ∈ es.filterMap Event.time, t ≤ now) → ∀ request : Request,
    config.AuthRequired →
    (((startWebServer lib config drawn).run lib es).wsHandler now request).1 ≠ .unauthorized →
      ∃ g ∈ (startWebServer lib config drawn).grants lib es,
        extractSessionCookie request.cookie = some g.token ∧ now < g.now + config.ttl ∧
        (((startWebServer lib config drawn).run lib es).wsHandler now request).2 =
          some ⟨clientIp request.headers, "GET", "/ws", 101, g.authMethod, g.userId⟩
  /-- Every session was created after a proof of identity. -/
  backed : ∀ g ∈ (startWebServer lib config drawn).grants lib es, Backed lib config drawn es g
  /-- No proof served for two sessions. -/
  singleUse : (((startWebServer lib config drawn).grants lib es).map Grant.credential).Nodup

theorem calls_times (lib : Library) (s : AppState) (es : List Event) :
    ((s.calls lib es).map AuthCall.now).Sublist (es.filterMap Event.time) := by
  rw [← List.filterMap_eq_map]
  refine Runs.outputs_filterMap_sublist (fun s e => ?_) s es
  cases e with
  | createSession i now token order =>
    dsimp only [AppState.call]
    split
    · exact List.Sublist.refl _
    · exact List.nil_sublist _
  | logout now cookie =>
    dsimp only [AppState.call]
    cases extractSessionCookie cookie with
    | none => exact List.nil_sublist _
    | some token => exact List.Sublist.refl _
  | _ => exact List.nil_sublist _

theorem calls_tokens (lib : Library) (s : AppState) (es : List Event) :
    ((s.calls lib es).filterMap AuthCall.issues).Sublist (es.filterMap Event.token) := by
  refine Runs.outputs_filterMap_sublist (fun s e => ?_) s es
  cases e with
  | createSession i now token order =>
    dsimp only [AppState.call]
    split
    · exact List.Sublist.refl _
    · exact List.nil_sublist _
  | logout now cookie =>
    dsimp only [AppState.call]
    cases extractSessionCookie cookie <;> exact List.nil_sublist _
  | _ => exact List.nil_sublist _

/-- A valid token is that of a session that was created, and its metadata are told. -/
theorem Stored.granted_of_isValid {ttl now : ℕ} {token : String} (h : Stored ttl s gs)
    (hvalid : s.authMgr.isValid now token = true) :
    ∃ g ∈ gs, token = g.token ∧ now < g.now + ttl ∧
      sessionInfo s.authMgr now token = some (g.authMethod, g.userId) := by
  obtain ⟨p, hp, rfl, hlive⟩ := AuthManager.isValid_iff.1 hvalid
  obtain ⟨g, hg, rfl⟩ := h.granted p hp
  refine ⟨g, hg, rfl, hlive, ?_⟩
  rw [sessionInfo]
  cases hfind : s.authMgr.sessions.find? fun e => e.1 = g.token with
  | none =>
    have hmiss := List.find?_eq_none.1 hfind _ hp
    simp at hmiss
  | some found =>
    obtain rfl := List.inj_on_of_nodup_map h.nodup (List.mem_of_find?_eq_some hfind) hp
      (by simpa using List.find?_some hfind)
    exact if_pos hlive

end Nexterm.Web.Access

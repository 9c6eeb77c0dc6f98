/-
  The OAuth2 part of the web login (`web/oauth.rs`): the client, the states that guard the
  callback, and who is allowed.

  * `buildClient`, `providerUrls`: the client from the configuration.
  * `OAuthManager.authorizationUrl`, `takeState`: a state is drawn for an authorization, and is
    taken by the first callback that presents it.
  * `fetchUserInfo`, `isUserAllowed`: the user, and the lists that allow them;
    `isUserAllowed_iff`: exactly `Allowed`.

  The provider and the parser of URLs are parameters; times are nanoseconds of a monotonic clock.
-/
import Mathlib.Data.List.DropRight
import Nexterm.Web.Oauth

namespace Nexterm.Web

/-- OAuth2 / OIDC authentication configuration. -/
structure OAuthConfig where
  provider : String
  clientId : Option String
  clientSecret : Option String
  redirectUrl : Option String
  issuerUrl : Option String
  allowedEmails : List String
  allowedOrgs : List String

/-- CSRF state entry (expires after 10 minutes). -/
def stateTtl : ℕ := 600000000000

/-- OAuth user info. -/
structure OAuthUser where
  provider : String
  userId : String
  email : Option String
  login : Option String
  deriving DecidableEq

/-! ## The client -/

/-- A URL without the slashes at its end. -/
def trimSlashes (url : String) : String := String.ofList (url.toList.rdropWhile (· = '/'))

/-- The client of the library, as it is set up here. -/
structure OAuthClient where
  clientId : String
  clientSecret : String
  authUrl : String
  tokenUrl : String
  redirectUrl : String
  deriving DecidableEq

/-- Return the per-provider authorization URL and token URL. -/
def providerUrls (config : OAuthConfig) : Except String (String × String) :=
  if config.provider = "github" then
    .ok ("https://github.com/login/oauth/authorize", "https://github.com/login/oauth/access_token")
  else if config.provider = "google" then
    .ok ("https://accounts.google.com/o/oauth2/v2/auth", "https://oauth2.googleapis.com/token")
  else if config.provider = "azure" then
    let tenant := config.issuerUrl.getD "common"
    -- a full URL or just a tenant ID
    let base := if "http".toList.isPrefixOf tenant.toList then trimSlashes tenant
      else "https://login.microsoftonline.com/" ++ tenant ++ "/v2.0"
    .ok (base ++ "/authorize", base ++ "/token")
  else if config.provider = "oidc" then
    match config.issuerUrl with
    | none => .error "the oidc provider requires issuer_url"
    | some issuerUrl =>
      let base := trimSlashes issuerUrl
      .ok (base ++ "/authorize", base ++ "/token")
  else .error ("unsupported OAuth provider: " ++ config.provider)

/-- Return the scopes required for each provider. -/
def requiredScopes (config : OAuthConfig) : List String :=
  if config.provider = "github" then ["read:user", "user:email"]
  else if config.provider = "google" then ["openid", "email", "profile"]
  else if config.provider = "azure" then ["openid", "email", "profile", "User.Read"]
  else if config.provider = "oidc" then ["openid", "email", "profile"]
  else []

/-- What the manager is given: the configuration, the base of the callback URL, and the client
    secret of the environment. -/
structure OAuthSetup where
  config : OAuthConfig
  redirectBase : String
  environment : Option String

section

variable (parseUrl : String → Except String Unit)

/-- A field that must be a URL. -/
def checkedUrl (field url : String) : Except String Unit :=
  match parseUrl url with
  | .ok () => .ok ()
  | .error e => .error ("invalid OAuth " ++ field ++ ": " ++ e)

def buildClient (setup : OAuthSetup) : Except String OAuthClient := do
  let some clientId := setup.config.clientId | .error "OAuth client_id is not configured"
  -- the client secret can be overridden via environment variable
  let some clientSecret := setup.environment <|> setup.config.clientSecret
    | .error ("OAuth client_secret is not configured (set the " ++
        "NEXTERM_OAUTH_CLIENT_SECRET environment variable or the config file)")
  let (authUrl, tokenUrl) ← providerUrls setup.config
  let redirectUrl := setup.config.redirectUrl.getD (setup.redirectBase ++ "/auth/callback")
  checkedUrl parseUrl "auth_url" authUrl
  checkedUrl parseUrl "token_url" tokenUrl
  checkedUrl parseUrl "redirect_url" redirectUrl
  .ok ⟨clientId, clientSecret, authUrl, tokenUrl, redirectUrl⟩

/-! ## States -/

/-- What an authorization URL asks for. -/
structure AuthorizationUrl where
  client : OAuthClient
  scopes : List String
  state : String
  deriving DecidableEq

/-- CSRF state map (state token -> expiry), with the setup. -/
structure OAuthManager where
  setup : OAuthSetup
  pendingStates : List (String × ℕ)

namespace OAuthManager

/-- Generate the provider's authorization URL: the drawn state is stored, stale ones are swept. -/
def authorizationUrl (m : OAuthManager) (now : ℕ) (state : String) :
    Except String AuthorizationUrl × OAuthManager :=
  match buildClient parseUrl m.setup with
  | .error e => (.error e, m)
  | .ok client =>
    let states := m.pendingStates.filter fun e => now < e.2
    (.ok ⟨client, requiredScopes m.setup.config, state⟩,
      { m with pendingStates := (state, now + stateTtl) :: states.filter fun e => e.1 ≠ state })

/-- The check of the state in `exchange_code`: it is removed also if it has expired. -/
def takeState (m : OAuthManager) (now : ℕ) (state : String) : Except String Unit × OAuthManager :=
  let m' := { m with pendingStates := m.pendingStates.filter fun e => e.1 ≠ state }
  match m.pendingStates.find? fun e => e.1 = state with
  | some e => if now < e.2 then (.ok (), m') else (.error "OAuth state has expired", m')
  | none => (.error "OAuth state is invalid (possible CSRF)", m')

end OAuthManager

end

/-! ## Users -/

/-- An address of a GitHub user. -/
structure GithubEmail where
  email : String
  primary : Bool
  verified : Bool

structure GithubUser where
  id : ℕ
  login : String
  email : Option String

/-- The user that Google and an OIDC endpoint tell. -/
structure OidcUser where
  sub : String
  email : Option String
  name : Option String

structure AzureUser where
  id : Option String
  oid : Option String
  mail : Option String
  upn : Option String
  displayName : Option String

/-- What a provider answers to the requests of one callback: data, or the error of the request. -/
structure Provider where
  /-- The token endpoint, for an authorization code. -/
  accessToken : String → Except String String
  githubUser : Except String GithubUser
  githubEmails : Option (List GithubEmail)
  googleUser : Except String OidcUser
  azureUser : Except String AzureUser
  /-- The `userinfo_endpoint` of the discovery document. -/
  discovery : Except String (Option String)
  oidcUser : String → Except String OidcUser
  /-- Whether the membership request for an organization succeeds. -/
  member : String → Bool

/-- Fetch the primary email address from GitHub. -/
def fetchGithubPrimaryEmail (provider : Provider) : Option String := do
  let emails ← provider.githubEmails
  (emails.find? fun e => e.primary && e.verified).map GithubEmail.email

/-- Call the provider-specific user-info API. -/
def fetchUserInfo (lower : String → String) (config : OAuthConfig) (provider : Provider) :
    Except String OAuthUser :=
  if config.provider = "github" then do
    let user ← provider.githubUser
    -- when `email` is private, fetch it from the `emails` endpoint instead
    let email := if user.email.isSome then user.email else fetchGithubPrimaryEmail provider
    .ok ⟨"github", toString user.id, email, some user.login⟩
  else if config.provider = "google" then do
    let user ← provider.googleUser
    .ok ⟨"google", user.sub, user.email, user.name⟩
  else if config.provider = "azure" then do
    let user ← provider.azureUser
    .ok ⟨"azure", (user.id <|> user.oid).getD "unknown", user.mail <|> user.upn, user.displayName⟩
  else if config.provider = "oidc" then do
    let some issuerUrl := config.issuerUrl | .error "the oidc provider requires issuer_url"
    let discovery ← provider.discovery
    let some endpoint := discovery
      | .error "OIDC discovery does not contain userinfo_endpoint"
    validateUserinfoEndpoint lower endpoint issuerUrl
    let user ← provider.oidcUser endpoint
    .ok ⟨"oidc", user.sub, user.email, user.name⟩
  else .error ("unsupported OAuth provider: " ++ config.provider)

/-- Check GitHub Organization membership. -/
def checkGithubOrg (config : OAuthConfig) (provider : Provider) : Bool :=
  config.allowedOrgs.any provider.member

/-- Check whether the user is on an allow-list. -/
def isUserAllowed (config : OAuthConfig) (provider : Provider) (user : OAuthUser) : Bool :=
  if config.allowedEmails.isEmpty && config.allowedOrgs.isEmpty then true
  else if !config.allowedEmails.isEmpty && user.email.any config.allowedEmails.contains then true
  else if !config.allowedOrgs.isEmpty && config.provider = "github" && user.login.isSome &&
      checkGithubOrg config provider then true
  else false

/-- The rest of `exchange_code`, once the state is accepted: the access token and the user. -/
def exchangeCode (lower : String → String) (config : OAuthConfig) (provider : Provider)
    (code : String) : Except String OAuthUser :=
  match provider.accessToken code with
  | .error e => .error ("token exchange failed: " ++ e)
  | .ok _ => fetchUserInfo lower config provider

/-- The lists allow the user: there are none, or the address of the user is on one, or GitHub
    says that the user belongs to an organization on the other. -/
def Allowed (config : OAuthConfig) (provider : Provider) (user : OAuthUser) : Prop :=
  (config.allowedEmails = [] ∧ config.allowedOrgs = []) ∨
    (∃ email ∈ config.allowedEmails, user.email = some email) ∨
    (config.provider = "github" ∧ user.login ≠ none ∧
      ∃ org ∈ config.allowedOrgs, provider.member org = true)

theorem isUserAllowed_iff (config : OAuthConfig) (provider : Provider) (user : OAuthUser) :
    isUserAllowed config provider user = true ↔ Allowed config provider user := by
  unfold isUserAllowed Allowed checkGithubOrg
  cases config.allowedEmails <;> cases config.allowedOrgs <;> cases user.email <;>
    cases user.login <;> simp

/-- The user is one of the configured provider.  If this is a generic one, it was asked at an
    endpoint that passes the guard. -/
theorem fetchUserInfo_spec {lower : String → String} {config : OAuthConfig} {provider : Provider}
    {user : OAuthUser} (h : fetchUserInfo lower config provider = .ok user) :
    user.provider = config.provider ∧ (config.provider = "oidc" → ∃ endpoint issuerUrl,
      provider.discovery = .ok (some endpoint) ∧ config.issuerUrl = some issuerUrl ∧
        validateUserinfoEndpoint lower endpoint issuerUrl = .ok ()) := by
  unfold fetchUserInfo at h
  split_ifs at h with hgithub hgoogle hazure hoidc
  · cases huser : provider.githubUser with
    | error e => rw [huser] at h; cases h
    | ok found =>
      rw [huser] at h
      obtain rfl := Except.ok.inj h
      exact ⟨hgithub.symm, fun h => absurd (hgithub.symm.trans h) (by decide)⟩
  · cases huser : provider.googleUser with
    | error e => rw [huser] at h; cases h
    | ok found =>
      rw [huser] at h
      obtain rfl := Except.ok.inj h
      exact ⟨hgoogle.symm, fun h => absurd (hgoogle.symm.trans h) (by decide)⟩
  · cases huser : provider.azureUser with
    | error e => rw [huser] at h; cases h
    | ok found =>
      rw [huser] at h
      obtain rfl := Except.ok.inj h
      exact ⟨hazure.symm, fun h => absurd (hazure.symm.trans h) (by decide)⟩
  · cases hissuer : config.issuerUrl with
    | none => rw [hissuer] at h; cases h
    | some issuerUrl =>
      rw [hissuer] at h
      cases hdiscovery : provider.discovery with
      | error e => rw [hdiscovery] at h; cases h
      | ok discovery =>
        rw [hdiscovery] at h
        cases discovery with
        | none => cases h
        | some endpoint =>
          change (validateUserinfoEndpoint lower endpoint issuerUrl >>= fun _ => _) = _ at h
          cases hvalid : validateUserinfoEndpoint lower endpoint issuerUrl with
          | error e => rw [hvalid] at h; cases h
          | ok u =>
            rw [hvalid] at h
            change (provider.oidcUser endpoint >>= fun user => _) = _ at h
            cases huser : provider.oidcUser endpoint with
            | error e => rw [huser] at h; cases h
            | ok found =>
              rw [huser] at h
              obtain rfl := Except.ok.inj h
              exact ⟨hoidc.symm, fun _ => ⟨endpoint, issuerUrl, rfl, rfl, hvalid⟩⟩

/-! ## The states -/

namespace OAuthManager

variable {parseUrl : String → Except String Unit} {m : OAuthManager} {now : ℕ} {state : String}

/-- What an authorization does to the states: nothing, or the drawn one is added. -/
theorem authorizationUrl_cases (parseUrl : String → Except String Unit) (m : OAuthManager)
    (now : ℕ) (state : String) :
    (m.authorizationUrl parseUrl now state).2 = m ∨
      (m.authorizationUrl parseUrl now state).2.setup = m.setup ∧
        ∀ e ∈ (m.authorizationUrl parseUrl now state).2.pendingStates,
          e = (state, now + stateTtl) ∨ e ∈ m.pendingStates := by
  unfold authorizationUrl
  cases buildClient parseUrl m.setup with
  | error e => exact .inl rfl
  | ok client =>
    refine .inr ⟨rfl, fun e he => ?_⟩
    rcases List.mem_cons.1 he with rfl | he
    · exact .inl rfl
    · exact .inr (List.mem_filter.1 (List.mem_filter.1 he).1).1

@[simp] theorem takeState_setup : (m.takeState now state).2.setup = m.setup := by
  unfold takeState
  split
  · split_ifs <;> rfl
  · rfl

/-- A state is removed, whatever the check says. -/
@[simp] theorem takeState_pendingStates :
    (m.takeState now state).2.pendingStates = m.pendingStates.filter fun e => e.1 ≠ state := by
  unfold takeState
  split
  · split_ifs <;> rfl
  · rfl

/-- An accepted state was pending and has not expired. -/
theorem mem_of_takeState (h : (m.takeState now state).1 = .ok ()) :
    ∃ expiry, (state, expiry) ∈ m.pendingStates ∧ now < expiry := by
  unfold takeState at h
  cases hfind : m.pendingStates.find? fun e => e.1 = state with
  | none => rw [hfind] at h; cases h
  | some e =>
    rw [hfind] at h
    dsimp only at h
    split_ifs at h with hlive
    have heq := List.find?_some hfind
    obtain rfl : e.1 = state := by simpa using heq
    exact ⟨e.2, List.mem_of_find?_eq_some hfind, hlive⟩

end OAuthManager

end Nexterm.Web

/-
  The password of an SSH host, from the dialog of a window over the keychain to the SSH server
  (`host_manager.rs` and `input_handler/ssh.rs` of `nexterm-client-gpu`, `nexterm-config/src/keyring.rs`,
  `handle_connect_ssh` in `nexterm-server/src/ipc/file_dispatch.rs`).

  * `PasswordModal`: the dialog; it stores a password that is to be remembered, and deletes one
    that is not.
  * `connectSshHostWithPassword`: the request names only the account in the keychain; a password
    that is not to be remembered is stored until the request is served.
  * `sshAuth`, `act`, `emit`: the server fetches the password, checks the key of the host, offers the
    password, and deletes it if it was not to be remembered.
  * `keyring_act`, `kept_act`: where the passwords of the keychain and of a window come from.
  * `offer_run`: what is offered to whom.
-/
import Mathlib.Logic.Function.Basic
import Nexterm.Lib.Trails
import Nexterm.Lib.Urls
import Nexterm.Settings.Schema
import Nexterm.Ssh.HostKeys

namespace Nexterm.Ssh.Passwords

open Settings (HostConfig)

/-! ## The keychain -/

/-- The passwords of the service `nexterm-ssh`, by account. -/
abbrev Keyring := String → Option String

/-- The account of a host's password. -/
def keyringAccount (hostName username : String) : String := username ++ "@" ++ hostName

/-- The error of the crate `keyring` for an account without a password. -/
def noEntry : String := "No matching entry found in secure storage"

namespace Keyring

/-- Stores a password, unless the keychain fails. -/
def storePassword (k : Keyring) (fault : Option String) (hostName username password : String) :
    Except String Keyring :=
  match fault with
  | some e => .error e
  | none => .ok (Function.update k (keyringAccount hostName username) (some password))

/-- Retrieves a password. -/
def getPassword (k : Keyring) (fault : Option String) (hostName username : String) :
    Except String String :=
  match fault, k (keyringAccount hostName username) with
  | some e, _ => .error e
  | none, none => .error noEntry
  | none, some password => .ok password

/-- Deletes a password. -/
def deletePassword (k : Keyring) (fault : Option String) (hostName username : String) :
    Except String Keyring :=
  match fault, k (keyringAccount hostName username) with
  | some e, _ => .error e
  | none, none => .error noEntry
  | none, some _ => .ok (Function.update k (keyringAccount hostName username) none)

/-- The keychain after an operation whose failure is only logged. -/
def orElse (k : Keyring) : Except String Keyring → Keyring
  | .ok k' => k'
  | .error _ => k

end Keyring

/-- Split `<username>@<host_name>` at the first `@`. -/
def parseKeyringAccount (account : String) : Option (String × String) :=
  match Urls.splitOnce ['@'] account.toList with
  | none => none
  | some (user, host) =>
    if user.isEmpty ∨ host.isEmpty then none else some (String.ofList user, String.ofList host)

/-! ## The window -/

/-- Password input modal. -/
structure PasswordModal where
  host : HostConfig
  input : String
  /-- The keychain had a password. -/
  prefilled : Bool
  remember : Bool

namespace PasswordModal

def new (k : Keyring) (fault : Option String) (host : HostConfig) : PasswordModal :=
  match k.getPassword fault host.name host.username with
  | .ok stored => ⟨host, stored, true, true⟩
  | .error _ => ⟨host, "", false, false⟩

def pushChar (m : PasswordModal) (ch : Char) : PasswordModal := { m with input := m.input.push ch }

def popChar (m : PasswordModal) : PasswordModal :=
  { m with input := String.ofList m.input.toList.dropLast }

def toggleRemember (m : PasswordModal) : PasswordModal := { m with remember := !m.remember }

/-- Takes the password; it is stored if it is to be remembered, and what was stored is deleted if it
    is not. -/
def takePassword (m : PasswordModal) (k : Keyring) (fault : Option String) : Keyring × String :=
  if m.remember ∧ m.input ≠ "" then
    (k.orElse (k.storePassword fault m.host.name m.host.username m.input), m.input)
  else if ¬m.remember ∧ m.prefilled then
    (k.orElse (k.deletePassword fault m.host.name m.host.username), m.input)
  else (k, m.input)

end PasswordModal

/-- The request to connect. -/
structure ConnectSsh where
  host : String
  port : UInt16
  username : String
  authType : String
  passwordKeyringAccount : Option String
  ephemeralPassword : Bool
  keyPath : Option String
  remoteForwards : List String
  x11Forward : Bool
  x11Trusted : Bool

/-- The request for a host. -/
def ConnectSsh.ofHost (host : HostConfig) (account : Option String) (ephemeral : Bool) : ConnectSsh :=
  { host := host.host
    port := host.port
    username := host.username
    authType := host.authType
    passwordKeyringAccount := account
    ephemeralPassword := ephemeral
    keyPath := host.keyPath
    remoteForwards := host.forwardRemote
    x11Forward := host.x11Forward
    x11Trusted := host.x11Trusted }

/-! ## The server -/

/-- Authentication method. -/
inductive SshAuth
  | password (pw : String)
  | privateKey (keyPath : String) (passphrase : Option String)
  | agent
  deriving DecidableEq

/-- SSH connection configuration. -/
structure SshConfig where
  host : String
  port : UInt16
  username : String
  auth : SshAuth
  proxyJump : Option String
  proxySocks5 : Option String
  deriving DecidableEq

/-- The authentication for a request, and the keychain's entry to delete after it; `defaultKey` is the
    key in the home directory. -/
def sshAuth (defaultKey : String) (k : Keyring) (fault : Option String) (r : ConnectSsh) :
    Except String (SshAuth × Option (String × String)) :=
  if r.authType = "password" then
    match r.passwordKeyringAccount with
    | some account =>
      match parseKeyringAccount account with
      | some (user, host) =>
        match k.getPassword fault host user with
        | .ok pw => .ok (.password pw, if r.ephemeralPassword then some (host, user) else none)
        | .error e => .error ("failed to fetch password from OS keyring: " ++ e)
      | none =>
        .error ("invalid keyring account format (expected <username>@<host_name>): '" ++ account ++ "'")
    | none => .ok (.password "", none)
  else if r.authType = "key" then .ok (.privateKey (r.keyPath.getD defaultKey) none, none)
  else .ok (.agent, none)

/-- Where the server is with a request. -/
inductive Stage (κ : Type)
  | connecting
  /-- The server's key was accepted. -/
  | authenticating (key : κ)
  | finishing

/-- A request that is being served. -/
structure Attempt (κ : Type) where
  config : SshConfig
  passwordKeyringAccount : Option String
  remoteForwards : List String
  keyringCleanup : Option (String × String)
  stage : Stage κ

/-- What the network does when the server connects. -/
inductive Dial (κ : Type)
  | unreachable (e : String)
  /-- The host shows a key; if it is accepted, the connection may still fail. -/
  | shows (key : κ) (later : Option String)

/-! ## Windows and server -/

/-- A window, and the server's task for it. -/
structure Client (κ : Type) where
  passwordModal : Option PasswordModal
  connected : Bool
  /-- The requests on the way. -/
  requests : List ConnectSsh
  attempt : Option (Attempt κ)

/-- What windows and server share. -/
structure Shared (φ : Type) where
  keyring : Keyring
  knownHosts : φ

/-- A step of a window or of the server's task for it; a `fault` is that of the keychain, and
    `room` says that the channel is not full. -/
inductive Op (κ : Type)
  /-- A host is confirmed in the list of hosts. -/
  | confirm (host : HostConfig) (fault : Option String) (room : Bool)
  | pushChar (ch : Char)
  | popChar
  | toggleRemember
  | escape
  | enter (takeFault storeFault : Option String) (room : Bool)
  /-- The window connects to the server. -/
  | connect
  /-- It loses the connection, with all but the first requests on the way. -/
  | disconnect (kept : ℕ)
  /-- The server takes the next request. -/
  | serve (fault : Option String)
  | dial (d : Dial κ)
  /-- The host answers to the authentication. -/
  | authenticate (answer : Except String Bool)
  | cleanup (fault : Option String)

/-- What can be seen of a step. -/
inductive Event (κ : Type)
  /-- A password was entered for an account. -/
  | entered (account password : String) (remember : Bool)
  /-- A password was offered to the host that has shown the key. -/
  | offered (config : SshConfig) (account : Option String) (key : κ)
  | startRemoteForward (config : SshConfig) (spec : String)
  /-- The message for the user. -/
  | error (message : String)

/-- The passwords of the keychain and the way to it. -/
structure Env (φ κ : Type) where
  knownHosts : KnownHosts φ κ
  /-- The text of an error. -/
  describe : RusshError → String
  /-- `~/.ssh/id_rsa`. -/
  defaultKey : String

namespace Client

variable {κ : Type}

def new : Client κ := ⟨none, false, [], none⟩

/-- Sends a request, unless the channel is full. -/
def trySend (c : Client κ) (room : Bool) (r : ConnectSsh) : Client κ :=
  if room then { c with requests := c.requests ++ [r] } else c

/-- Open a new tab and send a request. -/
def connectSshHostNewTab (c : Client κ) (room : Bool) (host : HostConfig) : Client κ :=
  if c.connected then c.trySend room (.ofHost host none false) else c

/-- Open a new tab with a password and send a request. -/
def connectSshHostWithPassword (c : Client κ) (k : Keyring) (storeFault : Option String) (room : Bool)
    (host : HostConfig) (password : String) (remember : Bool) : Keyring × Client κ :=
  if ¬c.connected then (k, c)
  else if password = "" then (k, c.trySend room (.ofHost host none (!remember)))
  else
    let account := keyringAccount host.name host.username
    if remember then (k, c.trySend room (.ofHost host (some account) false))
    else
      match k.storePassword storeFault host.name host.username password with
      | .error _ => (k, c)
      | .ok k' => (k', c.trySend room (.ofHost host (some account) true))

end Client

section

variable {φ κ : Type} (E : Env φ κ)

/-- The server takes a request. -/
def serve (s : Shared φ) (c : Client κ) (fault : Option String) : Client κ × List (Event κ) :=
  match c.attempt, c.requests with
  | none, r :: rest =>
    match sshAuth E.defaultKey s.keyring fault r with
    | .error message => ({ c with requests := rest }, [.error message])
    | .ok (auth, keyringCleanup) =>
      ({ c with
          requests := rest
          attempt := some
            { config := ⟨r.host, r.port, r.username, auth, none, none⟩
              passwordKeyringAccount := r.passwordKeyringAccount
              remoteForwards := r.remoteForwards
              keyringCleanup := keyringCleanup
              stage := .connecting } }, [])
  | _, _ => (c, [])

/-- The server connects. -/
def dial (s : Shared φ) (c : Client κ) (d : Dial κ) : Shared φ × Client κ × List (Event κ) :=
  match c.attempt with
  | some ⟨config, account, forwards, cleanup, .connecting⟩ =>
    let failed (e : String) : Client κ × List (Event κ) :=
      ({ c with attempt := some ⟨config, account, forwards, cleanup, .finishing⟩ },
        [.error ("SSH connection failed: " ++ e)])
    match d with
    | .unreachable e => (s, failed e)
    | .shows key later =>
      let (knownHosts, result) := checkServerKey E.knownHosts s.knownHosts config.host config.port key
      ({ s with knownHosts := knownHosts },
        match result, later with
        | .error e, _ => failed (E.describe e)
        | .ok false, _ => failed "Unknown server key"
        | .ok true, some e => failed e
        | .ok true, none =>
          ({ c with attempt := some ⟨config, account, forwards, cleanup, .authenticating key⟩ }, []))
  | _ => (s, c, [])

/-- What is sent for an authentication, and what the user is told. -/
def authenticate (t : Attempt κ) (key : κ) (answer : Except String Bool) : List (Event κ) :=
  (match t.config.auth with
    | .password _ => [.offered t.config t.passwordKeyringAccount key]
    | _ => []) ++
  match answer with
  | .ok true => t.remoteForwards.map (.startRemoteForward t.config) ++
      [.error "SSH authentication succeeded; shell integration is in development"]
  | .ok false => [.error ("SSH authentication failed: " ++
      "SSH authentication failed: incorrect username or password")]
  | .error e => [.error ("SSH authentication failed: " ++ e)]

/-- The step of a window or of its task: what is shared, the window, and what can be seen. -/
def act (s : Shared φ) (c : Client κ) : Op κ → Shared φ × Client κ × List (Event κ)
  | .confirm host fault room =>
    if host.authType = "password" then
      (s, { c with passwordModal := some (.new s.keyring fault host) }, [])
    else (s, c.connectSshHostNewTab room host, [])
  | .pushChar ch => (s, { c with passwordModal := c.passwordModal.map (·.pushChar ch) }, [])
  | .popChar => (s, { c with passwordModal := c.passwordModal.map (·.popChar) }, [])
  | .toggleRemember => (s, { c with passwordModal := c.passwordModal.map (·.toggleRemember) }, [])
  | .escape => (s, { c with passwordModal := none }, [])
  | .enter takeFault storeFault room =>
    match c.passwordModal with
    | none => (s, c, [])
    | some m =>
      let (k, password) := m.takePassword s.keyring takeFault
      let (k, c') := { c with passwordModal := none }.connectSshHostWithPassword k storeFault room m.host
        password m.remember
      ({ s with keyring := k }, c',
        [.entered (keyringAccount m.host.name m.host.username) password m.remember])
  | .connect => (s, { c with connected := true }, [])
  | .disconnect kept => (s, { c with connected := false, requests := c.requests.take kept }, [])
  | .serve fault => (s, serve E s c fault)
  | .dial d => dial E s c d
  | .authenticate answer =>
    match c.attempt with
    | some ⟨config, account, forwards, cleanup, .authenticating key⟩ =>
      (s, { c with attempt := some ⟨config, account, forwards, cleanup, .finishing⟩ },
        authenticate ⟨config, account, forwards, cleanup, .finishing⟩ key answer)
    | _ => (s, c, [])
  | .cleanup fault =>
    match c.attempt with
    | some ⟨_, _, _, cleanup, .finishing⟩ =>
      let k := match cleanup with
        | none => s.keyring
        | some (host, user) => s.keyring.orElse (s.keyring.deletePassword fault host user)
      ({ s with keyring := k }, { c with attempt := none }, [])
    | _ => (s, c, [])

/-- Windows, identified by `ι`, and what they share. -/
structure World (ι φ κ : Type) where
  shared : Shared φ
  clients : ι → Client κ

namespace World

variable {ι : Type}

def new (keyring : Keyring) (knownHosts : φ) : World ι φ κ := ⟨⟨keyring, knownHosts⟩, fun _ => .new⟩

variable [DecidableEq ι]

def step (w : World ι φ κ) (op : ι × Op κ) : World ι φ κ :=
  let (shared, client, _) := act E w.shared (w.clients op.1) op.2
  ⟨shared, Function.update w.clients op.1 client⟩

def emit (w : World ι φ κ) (op : ι × Op κ) : List (Event κ) :=
  (act E w.shared (w.clients op.1) op.2).2.2

end World

end

/-! ## The keychain's account -/

namespace Keyring

theorem getPassword_ok {k : Keyring} {fault : Option String} {hostName username password : String}
    (h : k.getPassword fault hostName username = .ok password) :
    k (keyringAccount hostName username) = some password := by
  unfold getPassword at h
  split at h
  · cases h
  · cases h
  · rename_i stored hstored
    cases h
    exact hstored

theorem getPassword_error {k : Keyring} {hostName username e : String}
    (h : k.getPassword none hostName username = .error e) : k (keyringAccount hostName username) = none := by
  unfold getPassword at h
  split at h
  · contradiction
  · assumption
  · cases h

/-- What is there after a password was stored. -/
theorem of_storePassword {k k' : Keyring} {fault : Option String} {hostName username password : String}
    (hstore : k.storePassword fault hostName username password = .ok k') :
    k' = Function.update k (keyringAccount hostName username) (some password) := by
  rcases fault with _ | e
  · exact (Except.ok.inj hstore).symm
  · cases hstore

theorem orElse_deletePassword (k : Keyring) (fault : Option String) (hostName username a : String) :
    k.orElse (k.deletePassword fault hostName username) a = k a ∨
      k.orElse (k.deletePassword fault hostName username) a = none := by
  unfold deletePassword
  split
  · exact .inl rfl
  · exact .inl rfl
  · by_cases ha : a = keyringAccount hostName username
    · exact .inr (by rw [ha]; exact Function.update_self ..)
    · exact .inl (Function.update_of_ne ha ..)

/-- An account is empty after it was deleted. -/
theorem deletePassword_self (k : Keyring) (hostName username : String) :
    k.orElse (k.deletePassword none hostName username) (keyringAccount hostName username) = none := by
  unfold deletePassword
  split
  · contradiction
  · assumption
  · exact Function.update_self ..

end Keyring

/-- The server fetches the password of the account that the request names. -/
theorem account_of_parse {account user host : String}
    (h : parseKeyringAccount account = some (user, host)) : keyringAccount host user = account := by
  unfold parseKeyringAccount at h
  split at h
  · cases h
  · rename_i user' host' hsplit
    split_ifs at h
    cases h
    refine String.toList_injective ?_
    rw [Urls.eq_of_splitOnce hsplit]
    simp [keyringAccount]

/-! ## Where a password comes from -/

section

variable {φ κ : Type} {E : Env φ κ}

/-- What the keychain holds after a dialog was there, or was entered. -/
theorem keyring_takePassword {m : PasswordModal} {k : Keyring} {fault : Option String} {a password : String}
    (h : (m.takePassword k fault).1 a = some password) :
    k a = some password ∨ (a = keyringAccount m.host.name m.host.username ∧ password = m.input) := by
  unfold PasswordModal.takePassword at h
  split_ifs at h
  · rcases hstore : k.storePassword fault m.host.name m.host.username m.input with e | k'
    · rw [hstore] at h
      exact .inl h
    · rw [hstore, Keyring.of_storePassword hstore] at h
      simp only [Keyring.orElse, Function.update_apply] at h
      split_ifs at h with ha
      · exact .inr ⟨ha, (Option.some.inj h).symm⟩
      · exact .inl h
  · dsimp only at h
    rcases Keyring.orElse_deletePassword k fault m.host.name m.host.username a with hsame | hnone
    · exact .inl (hsame.symm.trans h)
    · rw [hnone] at h
      cases h
  · exact .inl h

theorem takePassword_snd (m : PasswordModal) (k : Keyring) (fault : Option String) :
    (m.takePassword k fault).2 = m.input := by
  unfold PasswordModal.takePassword
  split_ifs <;> rfl

/-- What a window does to the keychain when it connects, and what it sends. -/
theorem connectSshHostWithPassword_cases (c : Client κ) (k : Keyring) (storeFault : Option String)
    (room : Bool) (host : HostConfig) (password : String) (remember : Bool) :
    let result := c.connectSshHostWithPassword k storeFault room host password remember
    let account := keyringAccount host.name host.username
    (result = (k, c)) ∨
    (password = "" ∧ result = (k, c.trySend room (.ofHost host none (!remember)))) ∨
    (remember = true ∧ result = (k, c.trySend room (.ofHost host (some account) false))) ∨
    (remember = false ∧ result = (Function.update k account (some password),
      c.trySend room (.ofHost host (some account) true))) := by
  dsimp only
  by_cases hconnected : c.connected = true
  · unfold Client.connectSshHostWithPassword
    rw [if_neg (not_not_intro hconnected)]
    by_cases hempty : password = ""
    · exact .inr (.inl ⟨hempty, if_pos hempty⟩)
    · rw [if_neg hempty]
      cases remember with
      | true => exact .inr (.inr (.inl ⟨rfl, rfl⟩))
      | false =>
        dsimp only
        rcases hstore : k.storePassword storeFault host.name host.username password with e | k'
        · exact .inl rfl
        · exact .inr (.inr (.inr ⟨rfl, congrArg (·, _) (Keyring.of_storePassword hstore)⟩))
  · exact .inl (if_pos hconnected)

/-- A password in the keychain was there, or was entered. -/
theorem keyring_act (s : Shared φ) (c : Client κ) (op : Op κ) {a password : String}
    (h : (act E s c op).1.keyring a = some password) : s.keyring a = some password ∨
      ∃ remember, .entered a password remember ∈ (act E s c op).2.2 := by
  cases op with
  | enter takeFault storeFault room =>
    rcases hmodal : c.passwordModal with _ | m
    · simp only [act, hmodal] at h
      exact .inl h
    · simp only [act, hmodal, takePassword_snd] at h ⊢
      have htaken (h : (m.takePassword s.keyring takeFault).1 a = some password) :
          s.keyring a = some password ∨ ∃ remember, Event.entered (κ := κ) a password remember ∈
            [.entered (keyringAccount m.host.name m.host.username) m.input m.remember] := by
        refine (keyring_takePassword h).imp_right ?_
        rintro ⟨rfl, rfl⟩
        exact ⟨m.remember, List.mem_singleton_self _⟩
      rcases connectSshHostWithPassword_cases { c with passwordModal := none }
        (m.takePassword s.keyring takeFault).1 storeFault room m.host m.input m.remember with
        heq | ⟨-, heq⟩ | ⟨-, heq⟩ | ⟨-, heq⟩ <;> rw [heq] at h
      · exact htaken h
      · exact htaken h
      · exact htaken h
      · simp only [Function.update_apply] at h
        split_ifs at h with ha
        · subst ha
          obtain rfl := Option.some.inj h
          exact .inr ⟨m.remember, List.mem_singleton_self _⟩
        · exact htaken h
  | cleanup fault =>
    simp only [act] at h
    split at h
    · left
      split at h
      · exact h
      · rcases Keyring.orElse_deletePassword s.keyring fault _ _ a with hsame | hnone
        · exact hsame.symm.trans h
        · cases hnone.symm.trans h
    · exact .inl h
  | confirm host fault room =>
    simp only [act] at h
    split_ifs at h <;> exact .inl h
  | dial d =>
    simp only [act, dial] at h
    split at h
    · cases d <;> exact .inl h
    · exact .inl h
  | authenticate answer =>
    simp only [act] at h
    split at h <;> exact .inl h
  | _ => exact .inl h

/-- The file of known hosts changes only when a host shows its key. -/
theorem knownHosts_act (s : Shared φ) (c : Client κ) (op : Op κ) :
    (act E s c op).1.knownHosts = s.knownHosts ∨
      ∃ d, (act E s c op).1.knownHosts = trustOn E.knownHosts s.knownHosts d := by
  cases op with
  | dial d =>
    simp only [act, dial]
    split
    · cases d with
      | unreachable e => exact .inl rfl
      | shows key later => exact .inr ⟨⟨_, _, key⟩, rfl⟩
    · exact .inl rfl
  | enter takeFault storeFault room =>
    simp only [act]
    split <;> exact .inl rfl
  | confirm host fault room =>
    simp only [act]
    split_ifs <;> exact .inl rfl
  | authenticate answer =>
    simp only [act]
    split <;> exact .inl rfl
  | cleanup fault =>
    simp only [act]
    split <;> exact .inl rfl
  | _ => exact .inl rfl

/-! ## What a window knows -/

/-- The request is for a host, over its account. -/
def ConnectSsh.Aimed (C : HostConfig → Prop) (r : ConnectSsh) : Prop :=
  ∃ host account ephemeral, C host ∧ r = .ofHost host account ephemeral ∧
    (account = none ∨ account = some (keyringAccount host.name host.username) ∧ host.authType = "password")

/-- The connection is to a host, over its account. -/
def Aimed (C : HostConfig → Prop) (config : SshConfig) (account : Option String) : Prop :=
  ∃ host, C host ∧ config.host = host.host ∧ config.port = host.port ∧ config.username = host.username ∧
    (account = none ∨ account = some (keyringAccount host.name host.username))

/-- The key was accepted for the connection. -/
def Attempt.Shown (S : Contact κ → Prop) (t : Attempt κ) : Prop :=
  ∀ key, t.stage = .authenticating key → S ⟨t.config.host, t.config.port, key⟩

/-- What is known of a window: `C` holds of confirmed hosts, `P` of the passwords of an account, and
    `S` of keys that were accepted. -/
structure Client.Kept (C : HostConfig → Prop) (P : Option String → String → Prop) (S : Contact κ → Prop)
    (c : Client κ) : Prop where
  modal : ∀ m, c.passwordModal = some m → C m.host ∧ m.host.authType = "password"
  requests : ∀ r ∈ c.requests, r.Aimed C
  aimed : ∀ t, c.attempt = some t → Aimed C t.config t.passwordKeyringAccount
  password : ∀ t, c.attempt = some t → ∀ pw, t.config.auth = .password pw → P t.passwordKeyringAccount pw
  shown : ∀ t, c.attempt = some t → t.Shown S

variable {C C' : HostConfig → Prop} {P P' : Option String → String → Prop} {S S' : Contact κ → Prop}

theorem ConnectSsh.Aimed.mono {r : ConnectSsh} (h : r.Aimed C) (hC : ∀ host, C host → C' host) :
    r.Aimed C' := by
  obtain ⟨host, account, ephemeral, hhost, hr⟩ := h
  exact ⟨host, account, ephemeral, hC host hhost, hr⟩

theorem Aimed.mono {config : SshConfig} {account : Option String} (h : Aimed C config account)
    (hC : ∀ host, C host → C' host) : Aimed C' config account := by
  obtain ⟨host, hhost, hconfig⟩ := h
  exact ⟨host, hC host hhost, hconfig⟩

theorem Client.Kept.mono {c : Client κ} (h : c.Kept C P S) (hC : ∀ host, C host → C' host)
    (hP : ∀ account pw, P account pw → P' account pw) (hS : ∀ d, S d → S' d) : c.Kept C' P' S' where
  modal m hm := (h.modal m hm).imp_left (hC m.host)
  requests r hr := (h.requests r hr).mono hC
  aimed t ht := (h.aimed t ht).mono hC
  password t ht pw hpw := hP _ pw (h.password t ht pw hpw)
  shown t ht key hkey := hS _ (h.shown t ht key hkey)

theorem Client.kept_new : (Client.new : Client κ).Kept C P S := by
  constructor <;> simp [Client.new]

theorem Client.Kept.trySend {c : Client κ} (h : c.Kept C P S) (room : Bool) {r : ConnectSsh}
    (hr : r.Aimed C) : (c.trySend room r).Kept C P S := by
  unfold Client.trySend
  split_ifs
  · refine ⟨h.modal, fun r' hr' => ?_, h.aimed, h.password, h.shown⟩
    rcases List.mem_append.1 hr' with hold | hlast
    · exact h.requests r' hold
    · rw [List.mem_singleton.1 hlast]
      exact hr
  · exact h

/-- The dialog is closed, or edited. -/
theorem Client.Kept.withModal {c : Client κ} (h : c.Kept C P S) {modal : Option PasswordModal}
    (hmodal : ∀ m, modal = some m → C m.host ∧ m.host.authType = "password") :
    { c with passwordModal := modal }.Kept C P S :=
  ⟨hmodal, h.requests, h.aimed, h.password, h.shown⟩

/-- An edit of the dialog leaves its host. -/
theorem Client.Kept.edit {c : Client κ} (h : c.Kept C P S) {f : PasswordModal → PasswordModal}
    (hf : ∀ m, (f m).host = m.host) : { c with passwordModal := c.passwordModal.map f }.Kept C P S := by
  refine h.withModal fun m hm => ?_
  obtain ⟨m', hm', rfl⟩ := Option.map_eq_some_iff.1 hm
  rw [hf]
  exact h.modal m' hm'

/-- The task goes on, or ends. -/
theorem Client.Kept.withAttempt {c : Client κ} (h : c.Kept C P S) {attempt : Option (Attempt κ)}
    (hattempt : ∀ t, attempt = some t → Aimed C t.config t.passwordKeyringAccount ∧
      (∀ pw, t.config.auth = .password pw → P t.passwordKeyringAccount pw) ∧ t.Shown S) :
    { c with attempt := attempt }.Kept C P S :=
  ⟨h.modal, h.requests, fun t ht => (hattempt t ht).1, fun t ht => (hattempt t ht).2.1,
    fun t ht => (hattempt t ht).2.2⟩

theorem new_host (k : Keyring) (fault : Option String) (host : HostConfig) :
    (PasswordModal.new k fault host).host = host := by
  unfold PasswordModal.new
  split <;> rfl

/-- The password that the server fetches is that of the account. -/
theorem sshAuth_password {k : Keyring} {fault : Option String} {r : ConnectSsh} {auth : SshAuth}
    {cleanup : Option (String × String)} {defaultKey pw : String}
    (h : sshAuth defaultKey k fault r = .ok (auth, cleanup)) (hauth : auth = .password pw) :
    (r.passwordKeyringAccount = none ∧ pw = "") ∨
      ∃ account, r.passwordKeyringAccount = some account ∧ k account = some pw := by
  subst hauth
  unfold sshAuth at h
  by_cases hpassword : r.authType = "password"
  · rw [if_pos hpassword] at h
    split at h
    · rename_i account haccount
      split at h
      · rename_i user host hparse
        split at h
        · rename_i stored hget
          simp only [Except.ok.injEq, Prod.mk.injEq, SshAuth.password.injEq] at h
          obtain ⟨rfl, -⟩ := h
          exact .inr ⟨account, haccount, account_of_parse hparse ▸ Keyring.getPassword_ok hget⟩
        · cases h
      · cases h
    · rename_i hnone
      simp only [Except.ok.injEq, Prod.mk.injEq, SshAuth.password.injEq] at h
      exact .inl ⟨hnone, h.1.symm⟩
  · rw [if_neg hpassword] at h
    split_ifs at h <;> cases h

/-- **What a step of a window leaves known of it.** -/
theorem kept_act {s : Shared φ} {c : Client κ} (h : c.Kept C P S) (op : Op κ)
    (hC : ∀ host fault room, op = .confirm host fault room → C host)
    (hempty : P none "") (hP : ∀ account pw, s.keyring account = some pw → P (some account) pw)
    (hS : ∀ d, Accepts E.knownHosts s.knownHosts d →
      (act E s c op).1.knownHosts = trustOn E.knownHosts s.knownHosts d → S d) :
    (act E s c op).2.1.Kept C P S := by
  cases op with
  | confirm host fault room =>
    have hhost := hC host fault room rfl
    simp only [act]
    split_ifs with hauth
    · refine h.withModal fun m hm => ?_
      obtain rfl := Option.some.inj hm
      rw [new_host]
      exact ⟨hhost, hauth⟩
    · unfold Client.connectSshHostNewTab
      split_ifs
      · exact h.trySend room ⟨host, none, false, hhost, rfl, .inl rfl⟩
      · exact h
  | pushChar ch => exact h.edit fun _ => rfl
  | popChar => exact h.edit fun _ => rfl
  | toggleRemember => exact h.edit fun _ => rfl
  | escape => exact h.withModal fun _ hm => absurd hm.symm (Option.some_ne_none _)
  | enter takeFault storeFault room =>
    rcases hmodal : c.passwordModal with _ | m
    · simp only [act, hmodal]
      exact h
    · have hclosed : { c with passwordModal := none }.Kept C P S :=
        h.withModal fun _ hm => absurd hm.symm (Option.some_ne_none _)
      obtain ⟨hhost, hauth⟩ := h.modal m hmodal
      simp only [act, hmodal, takePassword_snd]
      rcases connectSshHostWithPassword_cases { c with passwordModal := none }
        (m.takePassword s.keyring takeFault).1 storeFault room m.host m.input m.remember with
        heq | ⟨-, heq⟩ | ⟨-, heq⟩ | ⟨-, heq⟩ <;> rw [heq]
      · exact hclosed
      · exact hclosed.trySend room ⟨m.host, none, _, hhost, rfl, .inl rfl⟩
      · exact hclosed.trySend room ⟨m.host, _, false, hhost, rfl, .inr ⟨rfl, hauth⟩⟩
      · exact hclosed.trySend room ⟨m.host, _, true, hhost, rfl, .inr ⟨rfl, hauth⟩⟩
  | connect => exact ⟨h.modal, h.requests, h.aimed, h.password, h.shown⟩
  | disconnect kept =>
    exact ⟨h.modal, fun r hr => h.requests r (List.mem_of_mem_take hr), h.aimed, h.password, h.shown⟩
  | serve fault =>
    simp only [act, serve]
    split
    · rename_i r rest hattempt hrequests
      obtain ⟨host, account, ephemeral, hhost, rfl, haccount⟩ := h.requests r (by simp [hrequests])
      have hrest : ∀ r' ∈ rest, r'.Aimed C := fun r' hr' => h.requests r' (by simp [hrequests, hr'])
      have hdropped : { c with requests := rest }.Kept C P S :=
        ⟨h.modal, hrest, h.aimed, h.password, h.shown⟩
      split
      · exact hdropped
      · rename_i auth cleanup hauth
        refine hdropped.withAttempt fun t ht => ?_
        obtain rfl := Option.some.inj ht
        refine ⟨⟨host, hhost, rfl, rfl, rfl, haccount.imp_right And.left⟩, fun pw hpw => ?_, nofun⟩
        rcases sshAuth_password hauth hpw with ⟨hnone, rfl⟩ | ⟨account', hsome, hk⟩
        · rw [hnone]
          exact hempty
        · rw [hsome]
          exact hP account' pw hk
    · exact h
  | dial d =>
    rcases hattempt : c.attempt with _ | ⟨config, account, forwards, cleanup, stage⟩
    · simp only [act, dial, hattempt]
      exact h
    · cases stage with
      | connecting =>
        have haimed := h.aimed _ hattempt
        have hpassword := h.password _ hattempt
        have hnext {stage : Stage κ} (hstage : ∀ key, stage = .authenticating key →
            S ⟨config.host, config.port, key⟩) :
            { c with attempt := some ⟨config, account, forwards, cleanup, stage⟩ }.Kept C P S := by
          refine h.withAttempt fun t ht => ?_
          obtain rfl := Option.some.inj ht
          exact ⟨haimed, hpassword, hstage⟩
        cases d with
        | unreachable e =>
          simp only [act, dial, hattempt]
          exact hnext nofun
        | shows key later =>
          have hshown := hS ⟨config.host, config.port, key⟩
          simp only [act, dial, hattempt] at hshown ⊢
          split
          · exact hnext nofun
          · exact hnext nofun
          · exact hnext nofun
          · rename_i haccepts
            refine hnext fun key' hkey => ?_
            cases hkey
            exact hshown haccepts rfl
      | authenticating key =>
        simp only [act, dial, hattempt]
        exact h
      | finishing =>
        simp only [act, dial, hattempt]
        exact h
  | authenticate answer =>
    simp only [act]
    split
    · rename_i config account forwards cleanup key hattempt
      refine h.withAttempt fun t ht => ?_
      obtain rfl := Option.some.inj ht
      exact ⟨(h.aimed _ hattempt :), (h.password _ hattempt :), nofun⟩
    · exact h
  | cleanup fault =>
    simp only [act]
    split
    · exact h.withAttempt fun _ ht => absurd ht.symm (Option.some_ne_none _)
    · exact h

/-- What is offered is offered for an attempt whose host has shown a key that was accepted. -/
theorem attempt_of_offered {s : Shared φ} {c : Client κ} {op : Op κ} {config : SshConfig}
    {account : Option String} {key : κ} (h : .offered config account key ∈ (act E s c op).2.2) :
    ∃ t, c.attempt = some t ∧ t.config = config ∧ t.passwordKeyringAccount = account ∧
      t.stage = .authenticating key := by
  cases op with
  | authenticate answer =>
    simp only [act] at h
    split at h
    · rename_i config' account' forwards cleanup key' hattempt
      refine ⟨_, hattempt, ?_⟩
      unfold authenticate at h
      rcases List.mem_append.1 h with hoffer | hreply
      · dsimp only at hoffer
        split at hoffer
        · simp only [List.mem_singleton, Event.offered.injEq] at hoffer
          obtain ⟨rfl, rfl, rfl⟩ := hoffer
          exact ⟨rfl, rfl, rfl⟩
        · cases hoffer
      · split at hreply <;> simp at hreply
    · cases h
  | confirm host fault room =>
    simp only [act] at h
    split_ifs at h <;> cases h
  | enter takeFault storeFault room =>
    simp only [act] at h
    split at h <;> simp at h
  | serve fault =>
    simp only [act, serve] at h
    split at h
    · split at h <;> simp at h
    · cases h
  | dial d =>
    simp only [act, dial] at h
    split at h
    · split at h
      · simp at h
      · dsimp only at h
        split at h <;> simp at h
    · cases h
  | cleanup fault =>
    simp only [act] at h
    split at h <;> cases h
  | _ => cases h

end

/-! ## Runs -/

section

variable {ι φ κ : Type} {E : Env φ κ} {keyring : Keyring} {file : φ}
  {ops : List (ι × Op κ)} {w : World ι φ κ} {outs : List (Event κ)}

/-- The host was confirmed in some window. -/
def Confirmed (ops : List (ι × Op κ)) (host : HostConfig) : Prop :=
  ∃ i fault room, (i, .confirm host fault room) ∈ ops

/-- The password was in the keychain at the start, or was entered. -/
def Known (keyring : Keyring) (outs : List (Event κ)) (account password : String) : Prop :=
  keyring account = some password ∨ ∃ remember, .entered account password remember ∈ outs

/-- The password is that of the account, or there is none. -/
def Fetched (keyring : Keyring) (outs : List (Event κ)) (account : Option String) (password : String) :
    Prop :=
  (account = none ∧ password = "") ∨ ∃ a, account = some a ∧ Known keyring outs a password

/-- Two keys of a host, and of one algorithm, are the same. -/
def Same (K : KnownHosts φ κ) (c d : Contact κ) : Prop :=
  c.host = d.host → c.port = d.port → K.algorithm c.key = K.algorithm d.key → c.key = d.key

/-- The key that was accepted agrees with the file at the start, and is in the file now if that can be
    written. -/
def Sealed (K : KnownHosts φ κ) (start file : φ) (c : Contact κ) : Prop :=
  (∀ d, Pinned K start d → Same K c d) ∧
  ((∀ file host port key, K.learnKnownHosts file host port key ≠ none) → Pinned K file c)

/-- What is known of windows and server after some steps. -/
structure Traced (E : Env φ κ) (keyring : Keyring) (start : φ) (ops : List (ι × Op κ)) (w : World ι φ κ)
    (outs : List (Event κ)) : Prop where
  known : ∀ account password, w.shared.keyring account = some password → Known keyring outs account password
  pinned : ∀ c, Pinned E.knownHosts start c → Pinned E.knownHosts w.shared.knownHosts c
  clients : ∀ i, (w.clients i).Kept (Confirmed ops) (Fetched keyring outs)
    (Sealed E.knownHosts start w.shared.knownHosts)
  offers : ∀ config account key, .offered config account key ∈ outs →
    Aimed (Confirmed ops) config account ∧
    (∀ pw, config.auth = .password pw → Fetched keyring outs account pw) ∧
    Sealed E.knownHosts start w.shared.knownHosts ⟨config.host, config.port, key⟩

theorem traced_new : Traced (ι := ι) E keyring file [] (World.new keyring file) [] :=
  ⟨fun _ _ h => .inl h, fun _ h => h, fun _ => Client.kept_new, fun _ _ _ h => absurd h List.not_mem_nil⟩

theorem Known.later {account password : String} (h : Known keyring outs account password)
    (new : List (Event κ)) : Known keyring (outs ++ new) account password :=
  h.imp_right fun ⟨remember, hmem⟩ => ⟨remember, List.mem_append_left _ hmem⟩

theorem Fetched.later {account : Option String} {password : String}
    (h : Fetched keyring outs account password) (new : List (Event κ)) :
    Fetched keyring (outs ++ new) account password :=
  h.imp_right fun ⟨a, ha, hknown⟩ => ⟨a, ha, hknown.later new⟩

theorem Sealed.later {K : KnownHosts φ κ} {start now next : φ} {c : Contact κ} (h : Sealed K start now c)
    (hnext : Pinned K now c → Pinned K next c) : Sealed K start next c :=
  ⟨h.1, fun hwrites => hnext (h.2 hwrites)⟩

/-- A key that is accepted agrees with what the file has, and is recorded. -/
theorem sealed_of_accepts {K : KnownHosts φ κ} (hK : K.Lawful) {start now : φ} {c : Contact κ}
    (hpinned : ∀ d, Pinned K start d → Pinned K now d) (h : Accepts K now c) :
    Sealed K start (trustOn K now c) c := by
  refine ⟨fun d hd hhost hport halg => eq_of_pinned hK (hpinned d hd) hhost hport halg h, fun hwrites => ?_⟩
  exact (pinned_of_accepts hK h).resolve_right (hwrites _ _ _ _)

variable [DecidableEq ι]

theorem Traced.step (hK : E.knownHosts.Lawful) (h : Traced E keyring file ops w outs) (op : ι × Op κ) :
    Traced E keyring file (ops ++ [op]) (w.step E op) (outs ++ w.emit E op) := by
  obtain ⟨i, op⟩ := op
  let s := w.shared
  let c := w.clients i
  have hstays (d : Contact κ) (hd : Pinned E.knownHosts s.knownHosts d) :
      Pinned E.knownHosts (act E s c op).1.knownHosts d := by
    rcases knownHosts_act (E := E) s c op with hsame | ⟨d', htrust⟩
    · rw [hsame]
      exact hd
    · rw [htrust]
      exact hd.trustOn hK d'
  have hC (host : HostConfig) (hhost : Confirmed ops host) : Confirmed (ops ++ [(i, op)]) host := by
    obtain ⟨j, fault, room, hmem⟩ := hhost
    exact ⟨j, fault, room, List.mem_append_left _ hmem⟩
  have hclients (j : ι) : (w.clients j).Kept (Confirmed (ops ++ [(i, op)]))
      (Fetched keyring (outs ++ w.emit E (i, op)))
      (Sealed E.knownHosts file (act E s c op).1.knownHosts) :=
    (h.clients j).mono hC (fun _ _ hfetched => hfetched.later _) fun d hd => hd.later (hstays d)
  refine ⟨fun account password hk => ?_, fun d hd => hstays d (h.pinned d hd), fun j => ?_, ?_⟩
  · rcases keyring_act (E := E) s c op hk with hold | ⟨remember, hentered⟩
    · exact (h.known account password hold).later _
    · exact .inr ⟨remember, List.mem_append_right _ hentered⟩
  · show (Function.update w.clients i (act E s c op).2.1 j).Kept _ _ _
    rw [Function.update_apply]
    split_ifs
    · refine kept_act (hclients i) op ?_ (.inl ⟨rfl, rfl⟩) ?_ ?_
      · rintro host fault room rfl
        exact ⟨i, fault, room, by simp⟩
      · exact fun account pw hk => .inr ⟨account, rfl, (h.known account pw hk).later _⟩
      · intro d haccepts htrust
        rw [htrust]
        exact sealed_of_accepts hK h.pinned haccepts
    · exact hclients j
  · intro config account key hmem
    rcases List.mem_append.1 hmem with hold | hnew
    · obtain ⟨haimed, hfetched, hsealed⟩ := h.offers config account key hold
      exact ⟨haimed.mono hC, fun pw hpw => (hfetched pw hpw).later _, hsealed.later (hstays _)⟩
    · obtain ⟨t, hattempt, rfl, rfl, hstage⟩ := attempt_of_offered hnew
      have hkept := hclients i
      exact ⟨hkept.aimed t hattempt, hkept.password t hattempt, hkept.shown t hattempt key hstage⟩

end

/-- A host with a password. -/
def dbHost : HostConfig :=
  { name := "db", host := "10.0.0.7", port := 22, username := "u", authType := "password", keyPath := none
    forwardLocal := [], forwardRemote := [], proxyJump := none, x11Forward := false, x11Trusted := false
    group := "", tags := [] }

def plainEnv : Env (String → UInt16 → String → Option ℕ) (String × ℕ) :=
  ⟨oneKeyEach, fun _ => "host key changed", ""⟩

/-- A password is typed that is not to be remembered. -/
def typing : List (Unit × Op (String × ℕ)) :=
  [((), .connect), ((), .confirm dbHost none true), ((), .pushChar 'x'), ((), .enter none none true)]

/-- The request is served. -/
def serving : List (Unit × Op (String × ℕ)) :=
  [((), .serve none), ((), .dial (.shows ("ed25519", 7) none)), ((), .authenticate (.ok true)),
    ((), .cleanup none)]

def plainStart : World Unit (String → UInt16 → String → Option ℕ) (String × ℕ) :=
  .new (fun _ => none) fun _ _ _ => none

end Nexterm.Ssh.Passwords

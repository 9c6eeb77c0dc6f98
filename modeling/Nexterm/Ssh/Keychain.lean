/-
  What of the passwords of SSH hosts stays in the keychain.

  * `entries`: what was entered for an account.
  * `Client.Carries`: a request is on the way that deletes the password of an account.
  * `slot_act`: what one step does to an account.
  * `keyring_run`: what the keychain holds is what was entered last, and was to be remembered or is
    deleted by a request on the way.
-/
import Nexterm.Ssh.Passwords

namespace Nexterm.Ssh.Passwords

open Settings (HostConfig)

/-- What was entered for an account. -/
def entries {κ : Type} (a : String) (outs : List (Event κ)) : List (String × Bool) :=
  outs.filterMap fun
    | .entered account password remember =>
      if account = a ∧ password ≠ "" then some (password, remember) else none
    | _ => none

section

variable {φ κ : Type} {E : Env φ κ}

/-- A request is on the way, or is served, that deletes the password of the account. -/
def Client.Carries (c : Client κ) (a : String) : Prop :=
  (∃ r ∈ c.requests, r.ephemeralPassword = true ∧ r.passwordKeyringAccount = some a) ∨
  ∃ t, c.attempt = some t ∧ ∃ host user, t.keyringCleanup = some (host, user) ∧ keyringAccount host user = a

/-- The name of the account can be split again. -/
def Splits (host : HostConfig) : Prop :=
  host.authType = "password" → (parseKeyringAccount (keyringAccount host.name host.username)).isSome = true

/-- The keychain does what it is asked for, and no request gets lost. -/
def Client.Works (c : Client κ) : Op κ → Prop
  | .confirm host _ _ => Splits host
  | .enter takeFault storeFault room =>
    takeFault = none ∧ storeFault = none ∧ room = true ∧ c.connected = true
  | .disconnect kept => c.requests.length ≤ kept
  | .serve fault => fault = none
  | .cleanup fault => fault = none
  | _ => True

theorem Client.Carries.trySend {c : Client κ} {a : String} (h : c.Carries a) (room : Bool)
    (r : ConnectSsh) : (c.trySend room r).Carries a := by
  unfold Client.trySend
  split_ifs
  · exact h.imp_left fun ⟨r', hr', h'⟩ => ⟨r', List.mem_append_left _ hr', h'⟩
  · exact h

theorem takePassword_of_ne {m : PasswordModal} {a : String}
    (ha : a ≠ keyringAccount m.host.name m.host.username) (k : Keyring) (fault : Option String) :
    (m.takePassword k fault).1 a = k a := by
  unfold PasswordModal.takePassword
  split_ifs
  · rcases hstore : k.storePassword fault m.host.name m.host.username m.input with e | k'
    · rfl
    · rw [Keyring.of_storePassword hstore]
      exact Function.update_of_ne ha ..
  · unfold Keyring.deletePassword
    dsimp only
    split
    · rfl
    · rfl
    · exact Function.update_of_ne ha ..
  · rfl

/-- A password that is to be remembered is stored. -/
theorem takePassword_remember {m : PasswordModal} (hremember : m.remember = true) (hinput : m.input ≠ "")
    (k : Keyring) :
    (m.takePassword k none).1 (keyringAccount m.host.name m.host.username) = some m.input := by
  unfold PasswordModal.takePassword
  rw [if_pos ⟨hremember, hinput⟩]
  exact Function.update_self ..

/-- Without a password, the keychain is as before, or the account is empty. -/
theorem takePassword_empty {m : PasswordModal} (hinput : m.input = "") (k : Keyring) (fault : Option String)
    (a : String) : (m.takePassword k fault).1 a = k a ∨ (m.takePassword k fault).1 a = none := by
  unfold PasswordModal.takePassword
  rw [if_neg fun h => h.2 hinput]
  split_ifs
  · exact Keyring.orElse_deletePassword k fault m.host.name m.host.username a
  · exact .inl rfl

/-- A request that deletes the password is served with it, or the account is empty. -/
theorem sshAuth_ephemeral {k : Keyring} {r : ConnectSsh} {a : String} (hauth : r.authType = "password")
    (haccount : r.passwordKeyringAccount = some a) (hsplits : (parseKeyringAccount a).isSome = true)
    (hephemeral : r.ephemeralPassword = true) (defaultKey : String) :
    k a = none ∨ ∃ auth host user, sshAuth defaultKey k none r = .ok (auth, some (host, user)) ∧
      keyringAccount host user = a := by
  obtain ⟨⟨user, host⟩, hparse⟩ := Option.isSome_iff_exists.1 hsplits
  have hname := account_of_parse hparse
  rcases hget : k.getPassword none host user with e | pw
  · left
    rw [← hname]
    exact Keyring.getPassword_error hget
  · refine .inr ⟨.password pw, host, user, ?_, hname⟩
    simp [sshAuth, hauth, haccount, hparse, hget, hephemeral]

theorem entries_authenticate (a : String) (t : Attempt κ) (key : κ) (answer : Except String Bool) :
    entries a (authenticate t key answer) = [] := by
  refine List.filterMap_eq_nil_iff.2 fun event hevent => ?_
  rcases List.mem_append.1 hevent with hoffer | hreply
  · split at hoffer
    · rw [List.mem_singleton.1 hoffer]
    · cases hoffer
  · split at hreply
    · rcases List.mem_append.1 hreply with hforward | hlast
      · obtain ⟨spec, -, rfl⟩ := List.mem_map.1 hforward
        rfl
      · rw [List.mem_singleton.1 hlast]
    · rw [List.mem_singleton.1 hreply]
    · rw [List.mem_singleton.1 hreply]

/-- An account after a step: nothing was entered for it, and it is as before or empty; or a password
    was entered for it and stored, and is deleted later if it is not to be remembered. -/
def Slot (s : Shared φ) (c : Client κ) (a : String) (r : Shared φ × Client κ × List (Event κ)) : Prop :=
  (entries a r.2.2 = [] ∧
    (r.1.keyring a = none ∨ r.1.keyring a = s.keyring a ∧ (c.Carries a → r.2.1.Carries a))) ∨
  ∃ password remember, entries a r.2.2 = [(password, remember)] ∧ r.1.keyring a = some password ∧
    (remember = false → r.2.1.Carries a)

theorem Slot.same {s : Shared φ} {c : Client κ} {a : String} {r : Shared φ × Client κ × List (Event κ)}
    (hkeyring : r.1.keyring = s.keyring) (hentries : entries a r.2.2 = [])
    (hcarries : c.Carries a → r.2.1.Carries a) : Slot s c a r :=
  .inl ⟨hentries, .inr ⟨congrFun hkeyring a, hcarries⟩⟩

/-- The dialog is confirmed. -/
theorem act_enter (s : Shared φ) {c : Client κ} {m : PasswordModal} (hmodal : c.passwordModal = some m)
    (takeFault storeFault : Option String) (room : Bool) :
    act E s c (.enter takeFault storeFault room) =
      let r := { c with passwordModal := none }.connectSshHostWithPassword
        (m.takePassword s.keyring takeFault).1 storeFault room m.host m.input m.remember
      ({ s with keyring := r.1 }, r.2,
        [.entered (keyringAccount m.host.name m.host.username) m.input m.remember]) := by
  simp only [act, hmodal, takePassword_snd]

/-- A password is entered. -/
theorem slot_enter (s : Shared φ) {c : Client κ} (hconnected : c.connected = true) (a : String) :
    Slot s c a (act E s c (.enter none none true)) := by
  rcases hmodal : c.passwordModal with _ | m
  · refine Slot.same ?_ ?_ ?_ <;> simp [act, hmodal, entries]
  rw [act_enter s hmodal]
  let account := keyringAccount m.host.name m.host.username
  let c₀ : Client κ := { c with passwordModal := none }
  have hkept (h : c.Carries a) (room : Bool) (r : ConnectSsh) : (c₀.trySend room r).Carries a :=
    Client.Carries.trySend (c := c₀) h room r
  by_cases ha : a = account
  · by_cases hinput : m.input = ""
    · -- nothing is stored
      refine .inl ⟨by simp [entries, hinput], ?_⟩
      have hconnect : c₀.connectSshHostWithPassword (m.takePassword s.keyring none).1 none true m.host m.input
          m.remember = ((m.takePassword s.keyring none).1, c₀.trySend true (.ofHost m.host none (!m.remember))) := by
        simp [Client.connectSshHostWithPassword, c₀, hconnected, hinput]
      simp only [c₀] at hconnect
      rw [hconnect]
      exact (takePassword_empty hinput s.keyring none a).symm.imp_right fun hold => ⟨hold, (hkept · _ _)⟩
    · refine .inr ⟨m.input, m.remember, by simp [entries, ha, account, hinput], ?_⟩
      rcases hremember : m.remember
      · refine ⟨?_, fun _ => .inl ⟨.ofHost m.host (some account) true, ?_, rfl, congrArg some ha.symm⟩⟩
        · simp [Client.connectSshHostWithPassword, hconnected, hinput, Keyring.storePassword, ha, account]
        · simp [Client.connectSshHostWithPassword, hconnected, hinput, Keyring.storePassword, account,
            Client.trySend]
      · refine ⟨?_, fun hdeclined => absurd hdeclined (by simp)⟩
        simp only [Client.connectSshHostWithPassword, hconnected, hinput, ha, account]
        exact takePassword_remember hremember hinput s.keyring
  · -- another account
    have htaken := takePassword_of_ne ha s.keyring none
    refine .inl ⟨by simp [entries, Ne.symm ha, account], .inr ?_⟩
    rcases connectSshHostWithPassword_cases c₀ (m.takePassword s.keyring none).1 none true m.host m.input
      m.remember with heq | ⟨-, heq⟩ | ⟨-, heq⟩ | ⟨-, heq⟩ <;> simp only [c₀] at heq <;> rw [heq]
    · exact ⟨htaken, id⟩
    · exact ⟨htaken, (hkept · _ _)⟩
    · exact ⟨htaken, (hkept · _ _)⟩
    · exact ⟨(Function.update_of_ne ha ..).trans htaken, (hkept · _ _)⟩

/-- **What a step does to an account.** -/
theorem slot_act {s : Shared φ} {c : Client κ} {op : Op κ}
    (hkept : c.Kept Splits (fun _ _ => True) (fun _ => True)) (hworks : c.Works op) (a : String) :
    Slot s c a (act E s c op) := by
  cases op with
  | confirm host fault room =>
    simp only [act]
    split_ifs
    · exact Slot.same rfl rfl id
    · refine Slot.same rfl rfl fun h => ?_
      show (Client.connectSshHostNewTab c room host).Carries a
      unfold Client.connectSshHostNewTab
      split_ifs
      · exact h.trySend room _
      · exact h
  | enter takeFault storeFault room =>
    obtain ⟨rfl, rfl, rfl, hconnected⟩ := hworks
    exact slot_enter s hconnected a
  | disconnect kept =>
    refine Slot.same rfl rfl fun h => ?_
    show Client.Carries { c with connected := false, requests := c.requests.take kept } a
    rw [List.take_of_length_le hworks]
    exact h
  | serve fault =>
    obtain rfl : fault = none := hworks
    simp only [act, serve]
    split
    · rename_i r rest hattempt hrequests
      obtain ⟨host, account, ephemeral, hsplits, hr, haccount⟩ := hkept.requests r (by simp [hrequests])
      have hrest {attempt : Option (Attempt κ)} (hne : ¬(r.ephemeralPassword = true ∧
          r.passwordKeyringAccount = some a)) (h : c.Carries a) :
          Client.Carries { c with requests := rest, attempt := attempt } a := by
        rcases h with ⟨r', hr', hcarries⟩ | ⟨t, ht, -⟩
        · rw [hrequests] at hr'
          rcases List.mem_cons.1 hr' with rfl | hmem
          · exact absurd hcarries hne
          · exact .inl ⟨r', hmem, hcarries⟩
        · rw [hattempt] at ht
          cases ht
      by_cases hcarries : r.ephemeralPassword = true ∧ r.passwordKeyringAccount = some a
      · obtain ⟨hephemeral, hname⟩ := hcarries
        have hauth : r.authType = "password" ∧ (parseKeyringAccount a).isSome = true := by
          rcases haccount with rfl | ⟨rfl, hauth⟩
          · rw [hr] at hname
            cases hname
          · rw [hr] at hname ⊢
            exact ⟨hauth, Option.some.inj hname ▸ hsplits hauth⟩
        rcases sshAuth_ephemeral (k := s.keyring) hauth.1 hname hauth.2 hephemeral E.defaultKey with
          hnone | ⟨auth, host', user, hserved, hcleanup⟩
        · refine .inl ⟨?_, .inl ?_⟩ <;> split <;> first | rfl | exact hnone
        · rw [hserved]
          exact Slot.same rfl rfl fun _ => .inr ⟨_, rfl, host', user, rfl, hcleanup⟩
      · split
        · exact Slot.same rfl rfl (hrest hcarries)
        · exact Slot.same rfl rfl (hrest hcarries)
    · exact Slot.same rfl rfl id
  | dial d =>
    simp only [act, dial]
    split
    · rename_i config account forwards cleanup hattempt
      have hnext {stage : Stage κ} (h : c.Carries a) :
          Client.Carries { c with attempt := some ⟨config, account, forwards, cleanup, stage⟩ } a := by
        refine h.imp_right ?_
        rintro ⟨t, ht, hcleanup⟩
        obtain rfl := Option.some.inj (hattempt.symm.trans ht)
        exact ⟨_, rfl, hcleanup⟩
      split
      · exact Slot.same rfl rfl hnext
      · split <;> exact Slot.same rfl rfl hnext
    · exact Slot.same rfl rfl id
  | authenticate answer =>
    simp only [act]
    split
    · rename_i config account forwards cleanup key hattempt
      refine Slot.same rfl (entries_authenticate a _ key answer) fun h => h.imp_right ?_
      rintro ⟨t, ht, hcleanup⟩
      obtain rfl := Option.some.inj (hattempt.symm.trans ht)
      exact ⟨_, rfl, hcleanup⟩
    · exact Slot.same rfl rfl id
  | cleanup fault =>
    obtain rfl : fault = none := hworks
    simp only [act]
    split
    · rename_i config account forwards cleanup hattempt
      have hcarries (hne : ∀ host user, cleanup = some (host, user) → keyringAccount host user ≠ a)
          (h : c.Carries a) : Client.Carries (κ := κ) { c with attempt := none } a := by
        rcases h with hrequest | ⟨t, ht, host, user, hcleanup, hname⟩
        · exact .inl hrequest
        · obtain rfl := Option.some.inj (hattempt.symm.trans ht)
          exact absurd hname (hne host user hcleanup)
      rcases cleanup with _ | ⟨host, user⟩
      · exact Slot.same rfl rfl (hcarries (by simp))
      · by_cases hname : keyringAccount host user = a
        · exact .inl ⟨rfl, .inl (hname ▸ Keyring.deletePassword_self s.keyring host user)⟩
        · refine .inl ⟨rfl, ?_⟩
          rcases Keyring.orElse_deletePassword s.keyring none host user a with hsame | hnone
          · refine .inr ⟨hsame, hcarries ?_⟩
            rintro _ _ ⟨⟩
            exact hname
          · exact .inl hnone
    · exact Slot.same rfl rfl id
  | _ => exact Slot.same rfl rfl id

end

section

variable {ι φ κ : Type} {E : Env φ κ} {keyring : Keyring} {file : φ} {w : World ι φ κ}
  {outs : List (Event κ)}

/-- The keychain does what the window or the server asks for. -/
def Works (w : World ι φ κ) (op : ι × Op κ) : Prop := (w.clients op.1).Works op.2

/-- What the keychain holds after some steps. -/
structure Kept (keyring : Keyring) (w : World ι φ κ) (outs : List (Event κ)) : Prop where
  clients : ∀ i, (w.clients i).Kept Splits (fun _ _ => True) (fun _ => True)
  held : ∀ a password, w.shared.keyring a = some password →
    (entries a outs = [] ∧ keyring a = some password) ∨
    ∃ remember, (entries a outs).getLast? = some (password, remember) ∧
      (remember = false → ∃ i, (w.clients i).Carries a)

theorem kept_new : Kept (ι := ι) keyring (World.new keyring file : World ι φ κ) [] :=
  ⟨fun _ => Client.kept_new, fun _ _ h => .inl ⟨rfl, h⟩⟩

variable [DecidableEq ι]

theorem Kept.step (h : Kept keyring w outs) {op : ι × Op κ} (hworks : Works w op) :
    Kept keyring (w.step E op) (outs ++ w.emit E op) := by
  obtain ⟨i, op⟩ := op
  refine ⟨fun j => ?_, fun a password hk => ?_⟩
  · show (Function.update w.clients i _ j).Kept _ _ _
    rw [Function.update_apply]
    split_ifs
    · refine kept_act (h.clients i) op ?_ trivial (fun _ _ _ => trivial) (fun _ _ _ => trivial)
      rintro host fault room rfl
      exact hworks
    · exact h.clients j
  · have hother (hi : (w.clients i).Carries a → (act E w.shared (w.clients i) op).2.1.Carries a)
        (hsome : ∃ j, (w.clients j).Carries a) : ∃ j, ((w.step E (i, op)).clients j).Carries a := by
      obtain ⟨j, hj⟩ := hsome
      refine ⟨j, ?_⟩
      show (Function.update w.clients i _ j).Carries a
      rw [Function.update_apply]
      split_ifs with hji
      · exact hi (hji ▸ hj)
      · exact hj
    have hentries : entries a (outs ++ w.emit E (i, op)) =
        entries a outs ++ entries a (act E w.shared (w.clients i) op).2.2 := List.filterMap_append
    rcases slot_act (E := E) (s := w.shared) (h.clients i) hworks a with
      ⟨hnew, hnone | ⟨hsame, hcarries⟩⟩ | ⟨password', remember, hnew, hstored, hcarries⟩
    · cases hnone.symm.trans hk
    · rw [hentries, hnew, List.append_nil]
      refine (h.held a password (hsame.symm.trans hk)).imp_right ?_
      rintro ⟨remember, hlast, hlater⟩
      exact ⟨remember, hlast, fun hremember => hother hcarries (hlater hremember)⟩
    · obtain rfl := Option.some.inj (hstored.symm.trans hk)
      rw [hentries, hnew]
      refine .inr ⟨remember, List.getLast?_concat .., fun hremember => ⟨i, ?_⟩⟩
      show (Function.update w.clients i _ i).Carries a
      rw [Function.update_self]
      exact hcarries hremember

theorem kept_run {ops : List (ι × Op κ)}
    (hworks : Runs.Along (World.step E) Works (World.new keyring file) ops) :
    Kept keyring (Runs.run (World.step E) (World.new keyring file) ops)
      (Runs.outputs (World.step E) (World.emit E) (World.new keyring file) ops) := by
  induction ops using List.reverseRecOn with
  | nil => exact kept_new
  | append_singleton ops op ih =>
    obtain ⟨hops, hop⟩ := (Runs.along_concat _ ops op).1 hworks
    rw [Runs.run_concat, Runs.outputs_concat]
    exact (ih hops).step hop

/-- **What the keychain holds.**  When the keychain works, no request gets lost and the names of
    accounts can be split, the keychain holds for an account, after any interleaving of windows and
    server: what was there at the start, if nothing was entered since; or what was entered last, and
    that was to be remembered, or a request that deletes it is on the way or served. -/
theorem keyring_run (E : Env φ κ) (keyring : Keyring) (file : φ) (ops : List (ι × Op κ))
    (hworks : Runs.Along (World.step E) Works (World.new keyring file) ops) (a password : String) :
    let w := Runs.run (World.step E) (World.new keyring file) ops
    let outs := Runs.outputs (World.step E) (World.emit E) (World.new keyring file) ops
    w.shared.keyring a = some password →
    (entries a outs = [] ∧ keyring a = some password) ∨
    ∃ remember, (entries a outs).getLast? = some (password, remember) ∧
      (remember = false → ∃ i, (w.clients i).Carries a) := by
  exact (kept_run hworks).held a password

end

/-- It is in the keychain until the request was served. -/
theorem keyring_run_typing :
    (Runs.run (World.step plainEnv) plainStart typing).shared.keyring "u@db" = some "x" ∧
    (Runs.run (World.step plainEnv) plainStart (typing ++ serving)).shared.keyring "u@db" = none ∧
    ∃ i, ((Runs.run (World.step plainEnv) plainStart typing).clients i).Carries "u@db" := by
  have hworks : Runs.Along (World.step plainEnv) Works plainStart typing :=
    ⟨trivial, fun _ => rfl, trivial, ⟨rfl, rfl, rfl, rfl⟩, trivial⟩
  refine ⟨rfl, rfl, ?_⟩
  rcases keyring_run plainEnv (fun _ => none) (fun _ _ _ => none) typing hworks "u@db" "x" rfl with
    ⟨-, hnone⟩ | ⟨remember, hlast, hcarries⟩
  · cases hnone
  · have hdeclined : some ("x", false) = some ("x", remember) := hlast
    exact hcarries (Prod.ext_iff.1 (Option.some.inj hdeclined)).2.symm

end Nexterm.Ssh.Passwords

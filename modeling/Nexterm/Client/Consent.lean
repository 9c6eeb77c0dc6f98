/-
  Consent to what a program asks for outside of the terminal (`event_handler/consent.rs`,
  `state/consent.rs`, `input_handler/special_modes.rs`): opening a URL, writing the clipboard,
  sending a notification.

  * `requestConsent`: the policy, or what was decided for the session; or else a dialog.
  * `resolvePendingConsent`, `handleConsentDialogKey`: the dialog is answered.
  * `ConsentFlow.step`, `performed`: a request, a key, a new configuration, the end of a fade-out.
  * `pendingConsent_run`, `override_run`: the dialog on the screen and the decisions for the session,
    told by the run.
  * `consent_run`: whatever is performed was asked for and is allowed or answered.
-/
import Nexterm.Client.Links
import Nexterm.Lib.Trails
import Nexterm.Settings.KeyConflicts
import Nexterm.Vt.Text

namespace Nexterm.Client

open Settings Settings.KeyConflicts Vt

/-! ## The dialog -/

/-- The kind of a consent request. -/
inductive ConsentKind
  | openUrl (url : String)
  | clipboardWrite (sourcePane : Option ℕ) (text : String)
  | notification (sourcePane : ℕ) (title body : String)
  deriving DecidableEq

/-- Consent dialog state. -/
structure ConsentDialog where
  kind : ConsentKind
  /-- The selected button (0 = Allow, 1 = Deny, 2 = Always Allow, 3 = Always Deny). -/
  selected : ℕ
  deriving DecidableEq

/-- "Always allow/deny within the session" per consent dialog kind. -/
structure SessionConsentOverrides where
  externalUrl : Option Bool
  osc52Clipboard : Option Bool
  oscNotification : Option Bool
  deriving DecidableEq

/-- What is done outside of the terminal. -/
inductive External
  | openUrl (url : String)
  | setText (text : String)
  | sendNotification (title body : String)
  deriving DecidableEq

/-- The policies and decisions there are. -/
inductive Topic
  | externalUrl
  | osc52Clipboard
  | oscNotification
  deriving DecidableEq

namespace ConsentKind

def topic : ConsentKind → Topic
  | openUrl _ => .externalUrl
  | clipboardWrite _ _ => .osc52Clipboard
  | notification _ _ _ => .oscNotification

/-- What is done when the request is allowed. -/
def action : ConsentKind → External
  | openUrl url => .openUrl url
  | clipboardWrite _ text => .setText text
  | notification _ title body => .sendNotification title body

end ConsentKind

/-- The policy of a topic. -/
def policyOf (security : SecurityConfig) : Topic → ConsentPolicy
  | .externalUrl => security.externalUrl
  | .osc52Clipboard => security.osc52Clipboard
  | .oscNotification => security.oscNotification

namespace SessionConsentOverrides

def get (o : SessionConsentOverrides) : Topic → Option Bool
  | .externalUrl => o.externalUrl
  | .osc52Clipboard => o.osc52Clipboard
  | .oscNotification => o.oscNotification

def set (o : SessionConsentOverrides) (topic : Topic) (allow : Bool) : SessionConsentOverrides :=
  match topic with
  | .externalUrl => { o with externalUrl := some allow }
  | .osc52Clipboard => { o with osc52Clipboard := some allow }
  | .oscNotification => { o with oscNotification := some allow }

theorem get_set (o : SessionConsentOverrides) (topic topic' : Topic) (allow : Bool) :
    (o.set topic allow).get topic' = if topic = topic' then some allow else o.get topic' := by
  cases topic <;> cases topic' <;> rfl

end SessionConsentOverrides

/-- Truncate a string, respecting character boundaries. -/
def truncateUtf8At (s : String) (maxBytes : ℕ) : String :=
  if s.utf8ByteSize ≤ maxBytes then s else String.ofList (takeBytes maxBytes s.toList)

/-- The part of the client that asks for consent. -/
structure ConsentFlow where
  security : SecurityConfig
  sessionConsentOverrides : SessionConsentOverrides
  pendingConsent : Option ConsentDialog
  /-- The dialog that fades out. -/
  pendingConsentClosing : Option ConsentDialog

namespace ConsentFlow

/-- The client at its start. -/
def new (security : SecurityConfig) : ConsentFlow := ⟨security, ⟨none, none, none⟩, none, none⟩

/-- Show a consent dialog. -/
def showConsentDialog (s : ConsentFlow) (dialog : ConsentDialog) : ConsentFlow :=
  { s with pendingConsentClosing := none, pendingConsent := some dialog }

/-- Dismiss the consent dialog, leaving a ghost. -/
def dismissConsentDialog (s : ConsentFlow) : ConsentFlow :=
  match s.pendingConsent with
  | some dialog => { s with pendingConsent := none, pendingConsentClosing := some dialog }
  | none => s

/-- A request under a policy and what was decided for the session; the second part is what is
    done. -/
def requestConsent (s : ConsentFlow) (policy : ConsentPolicy) (sessionOverride : Option Bool)
    (kind : ConsentKind) : ConsentFlow × List External :=
  match policy, sessionOverride with
  | _, some decision => (s, if decision then [kind.action] else [])
  | .allow, none => (s, [kind.action])
  | .deny, none => (s, [])
  | .prompt, none => (s.showConsentDialog ⟨kind, 0⟩, [])

/-- Handle an OSC 9 / 777 desktop-notification request. -/
def handleNotificationRequest (s : ConsentFlow) (paneId : ℕ) (title body : String) :
    ConsentFlow × List External :=
  s.requestConsent s.security.oscNotification s.sessionConsentOverrides.oscNotification
    (.notification paneId title (truncateUtf8At body s.security.notificationMaxBytes))

/-- Handle an OSC 52 clipboard-write request. -/
def handleClipboardWriteRequest (s : ConsentFlow) (paneId : ℕ) (text : String) :
    ConsentFlow × List External :=
  if text.utf8ByteSize > s.security.osc52MaxBytes then (s, [])
  else s.requestConsent s.security.osc52Clipboard s.sessionConsentOverrides.osc52Clipboard
    (.clipboardWrite (some paneId) text)

/-- Handle a request to open an external URL. -/
def requestOpenUrl (s : ConsentFlow) (url : String) : ConsentFlow × List External :=
  s.requestConsent s.security.externalUrl s.sessionConsentOverrides.externalUrl (.openUrl url)

/-- Apply the user's decision from the consent dialog. -/
def resolvePendingConsent (s : ConsentFlow) (decision : Option Bool) (always : Bool) :
    ConsentFlow × List External :=
  match s.pendingConsent with
  | none => (s, [])
  | some dialog =>
    let s := s.dismissConsentDialog
    let allow := decision.getD false
    let s := if always then
      { s with sessionConsentOverrides := s.sessionConsentOverrides.set dialog.kind.topic allow }
      else s
    (s, if allow then [dialog.kind.action] else [])

/-- The decision that a key makes, and whether it is for the session. -/
def decisionOf : WKeyCode → Option (Bool × Bool)
  | .key 24 | .enter => some (true, false)
  | .key 13 | .escape => some (false, false)
  | .key 0 => some (true, true)
  | .key 3 => some (false, true)
  | _ => none

/-- Keyboard handling for the consent dialog. -/
def handleConsentDialogKey (s : ConsentFlow) (code : WKeyCode) : ConsentFlow × List External :=
  match decisionOf code with
  | some (allow, always) => s.resolvePendingConsent (some allow) always
  | none =>
    if code = .arrowLeft ∨ code = .arrowRight ∨ code = .tab then
      let dir := if code = .arrowLeft then 3 else 1
      ({ s with pendingConsent :=
          s.pendingConsent.map fun d => { d with selected := (d.selected + dir) % 4 } }, [])
    else (s, [])

/-! ## Steps -/

/-- What happens to the client. -/
inductive Op
  /-- The server passes on a request of a program. -/
  | desktopNotification (paneId : ℕ) (title body : String)
  | clipboardWriteRequest (paneId : ℕ) (text : String)
  /-- A cell of the focused pane is clicked while Ctrl is held. -/
  | ctrlClick (grid : Grid) (col row : ℕ)
  | key (code : WKeyCode)
  /-- The configuration is reloaded or edited. -/
  | configure (security : SecurityConfig)
  /-- A frame; the fade-out may be over. -/
  | retireGhosts (done : Bool)

/-- The client after a step, and what it does outside. -/
def perform (s : ConsentFlow) : Op → ConsentFlow × List External
  | .desktopNotification paneId title body => s.handleNotificationRequest paneId title body
  | .clipboardWriteRequest paneId text => s.handleClipboardWriteRequest paneId text
  | .ctrlClick grid col row =>
    match findUrlAt grid col row with
    | some url => s.requestOpenUrl url
    | none => (s, [])
  | .key code => if s.pendingConsent.isSome then s.handleConsentDialogKey code else (s, [])
  | .configure security => ({ s with security := security }, [])
  | .retireGhosts done => (if done then { s with pendingConsentClosing := none } else s, [])

def step (s : ConsentFlow) (op : Op) : ConsentFlow := (s.perform op).1

/-- What a step does outside of the terminal. -/
def performed (s : ConsentFlow) (op : Op) : List External := (s.perform op).2

/-! ## Requests and answers -/

/-- What a step asks for, within the limits of the configuration. -/
def asked (s : ConsentFlow) : Op → Option ConsentKind
  | .desktopNotification paneId title body =>
    some (.notification paneId title (truncateUtf8At body s.security.notificationMaxBytes))
  | .clipboardWriteRequest paneId text =>
    if text.utf8ByteSize > s.security.osc52MaxBytes then none else some (.clipboardWrite (some paneId) text)
  | .ctrlClick grid col row => (findUrlAt grid col row).map .openUrl
  | _ => none

/-- What is decided about a topic without asking: the decision for the session, or else the
    policy. -/
def verdict (s : ConsentFlow) (topic : Topic) : Option Bool :=
  s.sessionConsentOverrides.get topic <|> match policyOf s.security topic with
    | .allow => some true
    | .deny => some false
    | .prompt => none

/-- The answer that a step gives to the dialog on the screen. -/
def answered (s : ConsentFlow) : Op → Option (ConsentKind × Bool × Bool)
  | .key code => s.pendingConsent.bind fun d => (decisionOf code).map fun answer => (d.kind, answer)
  | _ => none

/-- The step asks for something that the user has to decide. -/
def Prompts (s : ConsentFlow) (op : Op) (kind : ConsentKind) : Prop :=
  s.asked op = some kind ∧ s.verdict kind.topic = none

/-- The step leaves the dialog alone. -/
def LeavesDialog (s : ConsentFlow) (op : Op) : Prop :=
  (∀ kind, ¬s.Prompts op kind) ∧ s.answered op = none

/-- The step decides a topic for the session. -/
def Decides (s : ConsentFlow) (topic : Topic) (allow : Bool) (op : Op) : Prop :=
  ∃ kind : ConsentKind, kind.topic = topic ∧ s.answered op = some (kind, allow, true)

variable {s : ConsentFlow} {op : Op} {kind : ConsentKind}

/-! ## What one step does -/

theorem requestConsent_eq (s : ConsentFlow) (kind : ConsentKind) :
    s.requestConsent (policyOf s.security kind.topic) (s.sessionConsentOverrides.get kind.topic) kind =
      match s.verdict kind.topic with
      | some allow => (s, if allow then [kind.action] else [])
      | none => (s.showConsentDialog ⟨kind, 0⟩, []) := by
  unfold requestConsent verdict
  cases s.sessionConsentOverrides.get kind.topic with
  | some decision => rfl
  | none => cases policyOf s.security kind.topic <;> rfl

/-- A request. -/
theorem perform_asked (h : s.asked op = some kind) :
    s.perform op = match s.verdict kind.topic with
      | some allow => (s, if allow then [kind.action] else [])
      | none => (s.showConsentDialog ⟨kind, 0⟩, []) := by
  rw [← requestConsent_eq]
  cases op with
  | desktopNotification paneId title body =>
    obtain rfl := Option.some.inj h
    rfl
  | clipboardWriteRequest paneId text =>
    simp only [asked] at h
    split_ifs at h with hsize
    obtain rfl := Option.some.inj h
    exact if_neg hsize
  | ctrlClick grid col row =>
    obtain ⟨url, hurl, rfl⟩ := Option.map_eq_some_iff.1 h
    simp only [perform, hurl]
    rfl
  | key code => cases h
  | configure security => cases h
  | retireGhosts done => cases h

/-- An answer: the dialog goes away. -/
theorem perform_answered {allow always : Bool} (h : s.answered op = some (kind, allow, always)) :
    ∃ dialog, s.pendingConsent = some dialog ∧ dialog.kind = kind ∧
      (s.step op).pendingConsent = none ∧
      (s.step op).sessionConsentOverrides = (if always then
        s.sessionConsentOverrides.set kind.topic allow else s.sessionConsentOverrides) ∧
      s.performed op = if allow then [kind.action] else [] := by
  cases op with
  | key code =>
    obtain ⟨dialog, hdialog, hanswer⟩ := Option.bind_eq_some_iff.1 h
    obtain ⟨answer, hcode, heq⟩ := Option.map_eq_some_iff.1 hanswer
    obtain ⟨rfl, rfl⟩ := Prod.mk.inj heq
    have hperform : s.perform (.key code) = s.resolvePendingConsent (some allow) always := by
      simp [perform, hdialog, handleConsentDialogKey, hcode]
    refine ⟨dialog, hdialog, rfl, ?_⟩
    unfold step performed
    rw [hperform]
    unfold resolvePendingConsent dismissConsentDialog
    rw [hdialog]
    cases always <;> exact ⟨rfl, rfl, rfl⟩
  | desktopNotification paneId title body => cases h
  | clipboardWriteRequest paneId text => cases h
  | ctrlClick grid col row => cases h
  | configure security => cases h
  | retireGhosts done => cases h

/-- Any other step. -/
theorem perform_other (hasked : s.asked op = none) (hanswered : s.answered op = none) :
    (s.step op).pendingConsent.map ConsentDialog.kind = s.pendingConsent.map ConsentDialog.kind ∧
      (s.step op).sessionConsentOverrides = s.sessionConsentOverrides ∧ s.performed op = [] := by
  cases op with
  | desktopNotification paneId title body => cases hasked
  | clipboardWriteRequest paneId text =>
    simp only [asked] at hasked
    split_ifs at hasked with hsize
    simp [step, performed, perform, handleClipboardWriteRequest, hsize]
  | ctrlClick grid col row =>
    have hnone : findUrlAt grid col row = none := Option.map_eq_none_iff.1 hasked
    simp [step, performed, perform, hnone]
  | key code =>
    simp only [step, performed, perform]
    split_ifs with hpending
    · have hcode : decisionOf code = none := by
        obtain ⟨dialog, hdialog⟩ := Option.isSome_iff_exists.1 hpending
        simpa [answered, hdialog] using hanswered
      unfold handleConsentDialogKey
      rw [hcode]
      dsimp only
      split_ifs
      · refine ⟨?_, rfl, rfl⟩
        rw [Option.map_map]
        rfl
      · refine ⟨?_, rfl, rfl⟩
        rw [Option.map_map]
        rfl
      · exact ⟨rfl, rfl, rfl⟩
    · exact ⟨rfl, rfl, rfl⟩
  | configure security => exact ⟨rfl, rfl, rfl⟩
  | retireGhosts done => cases done <;> exact ⟨rfl, rfl, rfl⟩

theorem asked_of_answered {answer : ConsentKind × Bool × Bool} (h : s.answered op = some answer) :
    s.asked op = none := by
  cases op <;> first | rfl | cases h

/-- The dialog after a step. -/
theorem pendingConsent_step (s : ConsentFlow) (op : Op) (kind : ConsentKind) :
    (s.step op).pendingConsent.map ConsentDialog.kind = some kind ↔
      s.Prompts op kind ∨
        (s.pendingConsent.map ConsentDialog.kind = some kind ∧ s.LeavesDialog op) := by
  cases hasked : s.asked op with
  | some kind' =>
    have hanswered : s.answered op = none := by
      cases hanswer : s.answered op with
      | none => rfl
      | some answer => exact absurd (hasked.symm.trans (asked_of_answered hanswer)) nofun
    have hperform := perform_asked hasked
    cases hverdict : s.verdict kind'.topic with
    | none =>
      rw [hverdict] at hperform
      have hstep : s.step op = s.showConsentDialog ⟨kind', 0⟩ := congrArg Prod.fst hperform
      have hprompts : s.Prompts op kind' := ⟨hasked, hverdict⟩
      rw [hstep]
      constructor
      · intro h
        obtain rfl : kind' = kind := Option.some.inj h
        exact .inl hprompts
      · rintro (h | h)
        · exact hasked.symm.trans h.1
        · exact absurd hprompts (h.2.1 kind')
    | some allow =>
      rw [hverdict] at hperform
      have hstep : s.step op = s := congrArg Prod.fst hperform
      have hnot : ∀ k, ¬s.Prompts op k := by
        rintro k ⟨hk, hnone⟩
        obtain rfl := Option.some.inj (hasked.symm.trans hk)
        rw [hverdict] at hnone
        cases hnone
      rw [hstep]
      exact ⟨fun h => .inr ⟨h, hnot, hanswered⟩, fun h => h.elim (fun h => absurd h (hnot kind)) And.left⟩
  | none =>
    have hnot : ∀ k, ¬s.Prompts op k := fun k h => absurd (hasked.symm.trans h.1) nofun
    cases hanswer : s.answered op with
    | some answer =>
      obtain ⟨k, allow, always⟩ := answer
      obtain ⟨-, -, -, hnone, -⟩ := perform_answered hanswer
      rw [hnone]
      refine iff_of_false nofun ?_
      rintro (h | h)
      · exact hnot kind h
      · exact absurd (hanswer.symm.trans h.2.2) nofun
    | none =>
      rw [(perform_other hasked hanswer).1]
      exact ⟨fun h => .inr ⟨h, hnot, hanswer⟩, fun h => h.elim (fun h => absurd h (hnot kind)) And.left⟩

/-- What is decided for the session after a step. -/
theorem override_step (s : ConsentFlow) (op : Op) (topic : Topic) (allow : Bool) :
    (s.step op).sessionConsentOverrides.get topic = some allow ↔
      s.Decides topic allow op ∨
        (s.sessionConsentOverrides.get topic = some allow ∧ ∀ b, ¬s.Decides topic b op) := by
  cases hanswer : s.answered op with
  | some answer =>
    obtain ⟨kind, b, always⟩ := answer
    obtain ⟨-, -, -, -, hoverrides, -⟩ := perform_answered hanswer
    have hdecides : ∀ topic b', s.Decides topic b' op ↔
        kind.topic = topic ∧ b = b' ∧ always = true := by
      intro topic b'
      constructor
      · rintro ⟨kind', rfl, heq⟩
        simp only [hanswer, Option.some.injEq, Prod.mk.injEq] at heq
        exact ⟨congrArg _ heq.1, heq.2.1, heq.2.2⟩
      · rintro ⟨rfl, rfl, rfl⟩
        exact ⟨kind, rfl, hanswer⟩
    rw [hoverrides, hdecides]
    simp only [hdecides]
    cases always with
    | false => simp
    | true =>
      rw [if_pos rfl, SessionConsentOverrides.get_set]
      by_cases htopic : kind.topic = topic <;> simp [htopic]
  | none =>
    have hnot : ∀ b, ¬s.Decides topic b op := by
      rintro b ⟨kind, -, heq⟩
      exact absurd (hanswer.symm.trans heq) nofun
    have hsame : (s.step op).sessionConsentOverrides = s.sessionConsentOverrides := by
      cases hasked : s.asked op with
      | none => exact (perform_other hasked hanswer).2.1
      | some kind =>
        unfold step
        rw [perform_asked hasked]
        cases s.verdict kind.topic <;> rfl
    rw [hsame]
    exact ⟨fun h => .inr ⟨h, hnot⟩, fun h => h.elim (fun h => absurd h (hnot allow)) And.left⟩

/-! ## Runs -/

/-- The dialog on the screen: the last request that the user had to decide, if nothing has been
    answered since. -/
theorem pendingConsent_run (security : SecurityConfig) (ops : List Op) (kind : ConsentKind) :
    (Runs.run step (new security) ops).pendingConsent.map ConsentDialog.kind = some kind ↔
      Runs.Since step (fun s op => s.Prompts op kind) LeavesDialog (new security) ops := by
  induction ops using List.reverseRecOn with
  | nil => exact iff_of_false nofun (Runs.not_since_nil _)
  | append_singleton ops op ih =>
    rw [Runs.since_concat, Runs.run_concat, pendingConsent_step, ih]

/-- What is decided for the session: the last such decision about the topic. -/
theorem override_run (security : SecurityConfig) (ops : List Op) (topic : Topic) (allow : Bool) :
    (Runs.run step (new security) ops).sessionConsentOverrides.get topic = some allow ↔
      Runs.Since step (fun s op => s.Decides topic allow op)
        (fun s op => ∀ b, ¬s.Decides topic b op) (new security) ops := by
  induction ops using List.reverseRecOn with
  | nil =>
    refine iff_of_false ?_ (Runs.not_since_nil _)
    cases topic <;> exact nofun
  | append_singleton ops op ih =>
    rw [Runs.since_concat, Runs.run_concat, override_step, ih]

/-- Why the step that follows `ops` may do something: it asks for it, and that is allowed without
    asking; or it answers a dialog about it, which has been on the screen ever since that was asked
    for. -/
inductive Justified (security : SecurityConfig) (ops : List Op) (op : Op) : External → Prop
  | allowed (kind : ConsentKind) :
    (Runs.run step (new security) ops).asked op = some kind →
    (Runs.run step (new security) ops).verdict kind.topic = some true →
    Justified security ops op kind.action
  | answered (kind : ConsentKind) (always : Bool) :
    (Runs.run step (new security) ops).answered op = some (kind, true, always) →
    Runs.Since step (fun s op => s.Prompts op kind) LeavesDialog (new security) ops →
    Justified security ops op kind.action

/-- The cases of a step that does something. -/
theorem mem_performed {e : External} (h : e ∈ s.performed op) :
    (∃ kind, s.asked op = some kind ∧ s.verdict kind.topic = some true ∧ kind.action = e) ∨
      ∃ kind always, s.answered op = some (kind, true, always) ∧ kind.action = e := by
  cases hasked : s.asked op with
  | some kind =>
    unfold performed at h
    rw [perform_asked hasked] at h
    cases hverdict : s.verdict kind.topic with
    | none =>
      rw [hverdict] at h
      cases h
    | some allow =>
      rw [hverdict] at h
      cases allow with
      | false => cases h
      | true => exact .inl ⟨kind, rfl, hverdict, (List.mem_singleton.1 h).symm⟩
  | none =>
    cases hanswer : s.answered op with
    | none =>
      rw [(perform_other hasked hanswer).2.2] at h
      cases h
    | some answer =>
      obtain ⟨kind, allow, always⟩ := answer
      obtain ⟨-, -, -, -, -, hperformed⟩ := perform_answered hanswer
      rw [hperformed] at h
      cases allow with
      | false => cases h
      | true => exact .inr ⟨kind, always, rfl, (List.mem_singleton.1 h).symm⟩

/-- The dialog that is answered is the one on the screen. -/
theorem pendingConsent_of_answered {answer : Bool × Bool} (h : s.answered op = some (kind, answer)) :
    s.pendingConsent.map ConsentDialog.kind = some kind := by
  obtain ⟨allow, always⟩ := answer
  obtain ⟨dialog, hdialog, rfl, -⟩ := perform_answered h
  rw [hdialog]
  rfl

theorem justified_of_mem (security : SecurityConfig) (ops : List Op) (op : Op) {e : External}
    (h : e ∈ (Runs.run step (new security) ops).performed op) : Justified security ops op e := by
  rcases mem_performed h with ⟨kind, hasked, hverdict, rfl⟩ | ⟨kind, always, hanswer, rfl⟩
  · exact .allowed kind hasked hverdict
  · exact .answered kind always hanswer
      ((pendingConsent_run security ops kind).1 (pendingConsent_of_answered hanswer))

/-- What a step asks for, as something to do. -/
def asks (s : ConsentFlow) (op : Op) : List External := (s.asked op).toList.map ConsentKind.action

/-- The dialog on the screen, as something to do. -/
def waiting (s : ConsentFlow) : List External := s.pendingConsent.toList.map fun d => d.kind.action

/-- What a step does and what waits after it have waited before or are asked for. -/
theorem count_step (s : ConsentFlow) (op : Op) (e : External) :
    (s.performed op).count e + (s.step op).waiting.count e ≤ s.waiting.count e + (s.asks op).count e := by
  cases hasked : s.asked op with
  | some kind =>
    unfold performed step asks
    rw [perform_asked hasked, hasked]
    cases s.verdict kind.topic with
    | none => simp [waiting, showConsentDialog]
    | some allow => cases allow <;> simp [Nat.add_comm]
  | none =>
    unfold asks
    rw [hasked]
    cases hanswer : s.answered op with
    | none =>
      obtain ⟨hsame, -, hperformed⟩ := perform_other hasked hanswer
      have hwaiting : (s.step op).waiting = s.waiting := by
        unfold waiting
        have hmap : ∀ o : Option ConsentDialog, (o.toList.map fun d => d.kind.action) =
            (o.map ConsentDialog.kind).toList.map ConsentKind.action := by
          rintro (_ | d) <;> rfl
        rw [hmap, hmap, hsame]
      rw [hperformed, hwaiting]
      simp
    | some answer =>
      obtain ⟨kind, allow, always⟩ := answer
      obtain ⟨dialog, hdialog, rfl, hnone, -, hperformed⟩ := perform_answered hanswer
      rw [hperformed, waiting, waiting, hnone, hdialog]
      cases allow <;> simp

/-- Nothing is done more often than it was asked for. -/
theorem count_performed_le (security : SecurityConfig) (ops : List Op) (e : External) :
    (Runs.outputs step performed (new security) ops).count e ≤
      (Runs.outputs step asks (new security) ops).count e := by
  have hcount : (Runs.outputs step performed (new security) ops).count e +
      (Runs.run step (new security) ops).waiting.count e ≤
        (Runs.outputs step asks (new security) ops).count e := by
    induction ops using List.reverseRecOn with
    | nil => exact Nat.le_refl 0
    | append_singleton ops op ih =>
      have hstep := count_step (Runs.run step (new security) ops) op e
      rw [Runs.outputs_concat, Runs.outputs_concat, Runs.run_concat, List.count_append,
        List.count_append]
      omega
  omega

/-- What the user is asked about, and what is done, was asked for. -/
theorem mem_outputs_asks (security : SecurityConfig) (ops : List Op) {e : External}
    (h : e ∈ Runs.outputs step performed (new security) ops) :
    e ∈ Runs.outputs step asks (new security) ops :=
  List.count_pos_iff.1 ((List.count_pos_iff.2 h).trans_le (count_performed_le security ops e))

/-- A URL that is asked for is a link where the user has clicked. -/
theorem linkAt_of_mem_asks {url : String} (h : External.openUrl url ∈ s.asks op) :
    ∃ grid col row, op = .ctrlClick grid col row ∧ (Narrow grid → LinkAt grid col row url) := by
  obtain ⟨kind, hkind, haction⟩ := List.mem_map.1 h
  have hasked : s.asked op = some kind := Option.mem_toList.1 hkind
  cases op with
  | ctrlClick grid col row =>
    obtain ⟨url', hurl, rfl⟩ := Option.map_eq_some_iff.1 hasked
    obtain rfl := External.openUrl.inj haction
    exact ⟨grid, col, row, rfl, fun hg => linkAt_of_findUrlAt hg hurl⟩
  | desktopNotification paneId title body =>
    obtain rfl := Option.some.inj hasked
    cases haction
  | clipboardWriteRequest paneId text =>
    simp only [asked] at hasked
    split_ifs at hasked
    obtain rfl := Option.some.inj hasked
    cases haction
  | key code => cases hasked
  | configure security => cases hasked
  | retireGhosts done => cases hasked

/-- What a run may do outside of the terminal. -/
structure Consented (security : SecurityConfig) (ops : List Op) : Prop where
  /-- Every step is justified in what it does. -/
  justified : ∀ pre op rest, ops = pre ++ op :: rest →
    ∀ e ∈ (Runs.run step (new security) pre).performed op, Justified security pre op e
  /-- What is allowed or denied for the session is what the user last decided. -/
  decided : ∀ topic allow,
    (Runs.run step (new security) ops).sessionConsentOverrides.get topic = some allow ↔
      Runs.Since step (fun s op => s.Decides topic allow op)
        (fun s op => ∀ b, ¬s.Decides topic b op) (new security) ops
  /-- Nothing is done more often than it was asked for. -/
  counted : ∀ e, (Runs.outputs step performed (new security) ops).count e ≤
    (Runs.outputs step asks (new security) ops).count e
  /-- A URL that is opened was a link on the screen, where the user has clicked. -/
  clicked : ∀ url, External.openUrl url ∈ Runs.outputs step performed (new security) ops →
    ∃ grid col row, Op.ctrlClick grid col row ∈ ops ∧ (Narrow grid → LinkAt grid col row url)

/-- **Consent.**  In every run of requests, clicks, keys and changes of the configuration, whatever
    is done outside of the terminal is allowed by the policy or by what the user has decided for the
    session, or is the answer to the dialog about it, which nothing has replaced since it was asked
    for; and nothing is done twice for one request. -/
theorem consent_run (security : SecurityConfig) (ops : List Op) : Consented security ops where
  justified pre op _ _ _ h := justified_of_mem security pre op h
  decided := override_run security ops
  counted := count_performed_le security ops
  clicked url h := by
    have hasks := mem_outputs_asks security ops h
    clear h
    generalize new security = s at hasks
    induction ops generalizing s with
    | nil => cases hasks
    | cons op ops ih =>
      rcases List.mem_append.1 hasks with hmem | hmem
      · obtain ⟨grid, col, row, rfl, hlink⟩ := linkAt_of_mem_asks hmem
        exact ⟨grid, col, row, List.mem_cons_self, hlink⟩
      · obtain ⟨grid, col, row, hop, hlink⟩ := ih _ hmem
        exact ⟨grid, col, row, List.mem_cons_of_mem _ hop, hlink⟩

end ConsentFlow

end Nexterm.Client

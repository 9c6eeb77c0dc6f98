/-
  The widgets of the settings panel (`widgets/spec.rs`, `widgets/settings_*.rs`): what the tree of
  the panel is built from.

  * `Locale`: the translations and the number formats.
  * `Panel`: the panel, with its category, its focus and its edit buffers.
  * `WidgetDesc`: a control without its place on the screen.
  * `fontWidgetDescs`, …, `widgetDescs`: the controls of each category.

  The colour of a swatch is left out; the tree does not read it.
-/
import Nexterm.A11y.NodeIds
import Nexterm.Settings.Keybindings

namespace Nexterm.A11y

open Nexterm.Settings (AnimationIntensity AnimationsEnabled BuiltinScheme CloseAction ConsentPolicy
  CursorStyle F32 KeyBinding PresentModeConfig ProfileEntry SettingsPanel SshHostEntry
  WindowBackdrop WindowDecorations keybindingActions)

/-- The translations, and the text of a number. -/
structure Locale where
  fl : String → String
  /-- `settings-keybindings-action-unknown`, for an action. -/
  flActionUnknown : String → String
  /-- `{:.1}`. -/
  fixed1 : F32 → String
  /-- `{:.0}%` of 100 times the number. -/
  percent : F32 → String
  /-- The nearest number. -/
  f32 : ℕ → F32

/-! ## The panel -/

/-- Sidebar category. -/
inductive SettingsCategory
  | startup
  | font
  | theme
  | window
  | ssh
  | keybindings
  | profiles
  | blocks
  | security
  deriving DecidableEq

namespace SettingsCategory

/-- Every category, in sidebar order. -/
def all : List SettingsCategory :=
  [startup, font, theme, window, ssh, keybindings, profiles, blocks, security]

def label (loc : Locale) : SettingsCategory → String
  | startup => loc.fl "settings-category-startup"
  | font => loc.fl "settings-category-font"
  | theme => loc.fl "settings-category-theme"
  | window => loc.fl "settings-category-window"
  | ssh => loc.fl "settings-category-ssh"
  | keybindings => loc.fl "settings-category-keybindings"
  | profiles => loc.fl "settings-category-profiles"
  | blocks => loc.fl "settings-category-blocks"
  | security => loc.fl "settings-category-security"

/-- The position in the sidebar. -/
def index (category : SettingsCategory) : ℕ := all.idxOf category

end SettingsCategory

/-- Inline text-input state. -/
structure TextInputState where
  buffer : String
  /-- Byte index inside the buffer. -/
  cursor : ℕ
  preedit : Option String
  deriving DecidableEq

namespace TextInputState

/-- The buffer, with the preedit inserted at the cursor. -/
def displayString (state : TextInputState) : String :=
  match state.preedit with
  | none => state.buffer
  | some pe =>
    let head := Vt.takeBytes state.cursor state.buffer.toList
    String.ofList (head ++ pe.toList ++ state.buffer.toList.drop head.length)

/-- The cursor inside the display string. -/
def displayCursor (state : TextInputState) : ℕ :=
  match state.preedit with
  | none => state.cursor
  | some pe => state.cursor + pe.utf8ByteSize

end TextInputState

/-- Edit state for the key string of the selected binding. -/
inductive KeyEditMode
  | record
  | text (state : TextInputState)
  deriving DecidableEq

/-- The settings panel, with the state that the tree reads and that no configuration has. -/
structure Panel extends SettingsPanel where
  isOpen : Bool
  category : SettingsCategory
  fontFamilyEditing : Bool
  selectedProfile : ℕ
  selectedHostIndex : ℕ
  /-- The focused widget inside the category. -/
  focusedWidgetIndex : UInt16
  securityFieldEditing : Option TextInputState
  sshFieldEditing : Option TextInputState
  sshDeleteDialogOpen : Bool
  sshDeleteDialogConfirmFocused : Bool
  selectedKeyIndex : ℕ
  keyEditing : Option KeyEditMode
  keyDeleteDialogOpen : Bool
  keyDeleteDialogConfirmFocused : Bool
  /-- What the system last said about animations. -/
  animationsOsReduced : Bool
  fontFallbacksEditing : Option TextInputState
  leaderKeyEditing : Option TextInputState
  shellFieldEditing : Option TextInputState
  deriving DecidableEq

/-! ## Descriptions -/

/-- What a widget is, and the value it currently shows. -/
inductive WidgetKind
  | label
  | toggle (on : Bool)
  | cycle (value : String)
  | slider (value min max step : F32) (display : String)
  | text (value : String) (editing : Bool) (caret : Option ℕ)
  | spinButton (value min max step : F32) (display : String)
  | keyCapture (value : String) (recording : Bool)
  | swatch (selected : Bool)
  | listItem (selected : Bool)
  | button (destructive : Bool)
  deriving DecidableEq

/-- A control's semantics, independent of where it is drawn. -/
structure WidgetDesc where
  id : WidgetId
  kind : WidgetKind
  label : String
  focused : Bool := false
  enabled : Bool := true
  invalid : Bool := false
  tooltip : Option String := none
  deriving DecidableEq

/-- The current value as a plain string. -/
def WidgetDesc.valueText (desc : WidgetDesc) : Option String :=
  match desc.kind with
  | .label => none
  | .toggle on => some (if on then "on" else "off")
  | .cycle value => some value
  | .slider _ _ _ _ display => some display
  | .spinButton _ _ _ _ display => some display
  | .text value _ _ => some value
  | .keyCapture value _ => some value
  | .swatch selected => some (if selected then "selected" else "not selected")
  | .listItem _ | .button _ => none

def startupCategory : UInt8 := 0
def fontCategory : UInt8 := 1
def themeCategory : UInt8 := 2
def windowCategory : UInt8 := 3
def sshCategory : UInt8 := 4
def keybindingsCategory : UInt8 := 5
def profilesCategory : UInt8 := 6
def blocksCategory : UInt8 := 7
def securityCategory : UInt8 := 8

namespace Panel

variable (loc : Locale) (sp : Panel)

/-! ### Rows -/

/-- Display names of the languages. -/
def languageNames : List String :=
  ["Auto (OS)", "English", "日本語", "Français", "Deutsch", "Español", "Italiano", "中文(简体)", "한국어"]

def languageLabel : String := languageNames.getD sp.languageIndex "Auto"

def startupRowCount : ℕ := 4

/-- The controls of the Startup tab. -/
def startupWidgetDescs : List WidgetDesc :=
  let focus := sp.focusedWidgetIndex
  -- Only the focused shell field carries the live edit buffer.
  let shell (index : UInt16) (committed : String) : WidgetKind :=
    match sp.shellFieldEditing with
    | some state =>
      if focus = index then .text state.buffer true (some state.cursor)
      else .text committed false none
    | none => .text committed false none
  [{ id := ⟨startupCategory, 0⟩, kind := .cycle sp.languageLabel,
      label := loc.fl "settings-startup-language", focused := focus = 0 },
    { id := ⟨startupCategory, 1⟩, kind := .toggle sp.autoCheckUpdate,
      label := loc.fl "settings-startup-check-updates", focused := focus = 1 },
    { id := ⟨startupCategory, 2⟩, kind := shell 2 sp.shellProgram,
      label := loc.fl "settings-startup-shell-program", focused := focus = 2 },
    { id := ⟨startupCategory, 3⟩, kind := shell 3 sp.shellArgs,
      label := loc.fl "settings-startup-shell-args", focused := focus = 3 }]

def fontRowCount : ℕ := 4

/-- The controls of the Font tab. -/
def fontWidgetDescs : List WidgetDesc :=
  let focus := sp.focusedWidgetIndex
  [{ id := ⟨fontCategory, 0⟩, kind := .text sp.fontFamily sp.fontFamilyEditing none,
      label := loc.fl "settings-font-family", focused := focus = 0 || sp.fontFamilyEditing },
    -- 8, 32 and 0.5.
    { id := ⟨fontCategory, 1⟩,
      kind := .slider sp.fontSize 0x41000000 0x42000000 0x3F000000 (loc.fixed1 sp.fontSize),
      label := loc.fl "settings-font-size", focused := focus = 1 },
    { id := ⟨fontCategory, 2⟩, kind := .toggle sp.fontLigatures,
      label := loc.fl "settings-font-ligatures", focused := focus = 2 },
    { id := ⟨fontCategory, 3⟩,
      kind := match sp.fontFallbacksEditing with
        | some state => .text state.buffer true (some state.cursor)
        | none => .text sp.fontFallbacksText false none,
      label := loc.fl "settings-font-fallbacks",
      focused := focus = 3 || sp.fontFallbacksEditing.isSome }]

/-- First widget index of the swatches. -/
def themeSwatchBase : UInt16 := 10

/-- The controls of the Theme tab. -/
def themeWidgetDescs : List WidgetDesc :=
  let focus := sp.focusedWidgetIndex
  [{ id := ⟨themeCategory, 0⟩, kind := .cycle sp.schemeName, label := loc.fl "settings-theme-label",
      focused := focus = 0, tooltip := some (loc.fl "settings-theme-tip") },
    { id := ⟨themeCategory, 1⟩, kind := .toggle sp.colorsFollowSystem,
      label := loc.fl "settings-theme-follow-system-label", focused := focus = 1,
      tooltip := some (loc.fl "settings-theme-follow-system-tip") }] ++
  BuiltinScheme.all.mapIdx fun i scheme =>
    { id := ⟨themeCategory, themeSwatchBase + UInt16.ofNat i⟩,
      kind := .swatch (sp.schemeIndex = i), label := scheme.tomlName,
      tooltip := some scheme.tomlName }

def cursorStyleLabel : String :=
  match sp.cursorStyle with
  | .block => loc.fl "settings-value-cursor-block"
  | .beam => loc.fl "settings-value-cursor-beam"
  | .underline => loc.fl "settings-value-cursor-underline"

def presentModeLabel : String :=
  match sp.presentMode with
  | .fifo => loc.fl "settings-value-present-fifo"
  | .mailbox => loc.fl "settings-value-present-mailbox"
  | .auto => loc.fl "settings-value-present-auto"

/-- The value of the row says what the automatic setting comes to. -/
def animationsEnabledLabel (osReduced : Bool) : String :=
  match sp.animationsEnabled with
  | .auto =>
    if osReduced then loc.fl "settings-value-animations-auto-reduced"
    else loc.fl "settings-value-animations-auto-normal"
  | .yes => loc.fl "settings-value-animations-on"
  | .no => loc.fl "settings-value-animations-off"

def animationsIntensityLabel : String :=
  match sp.animationsIntensity with
  | .off => loc.fl "settings-value-animation-off"
  | .subtle => loc.fl "settings-value-animation-subtle"
  | .normal => loc.fl "settings-value-animation-normal"
  | .energetic => loc.fl "settings-value-animation-energetic"

def windowDecorationsLabel : String :=
  match sp.windowDecorations with
  | .full => loc.fl "settings-value-decorations-full"
  | .none => loc.fl "settings-value-decorations-none"
  | .noTitle => loc.fl "settings-value-decorations-notitle"

def windowBackdropLabel : String :=
  match sp.windowBackdrop with
  | .auto => loc.fl "settings-value-backdrop-auto"
  | .mica => loc.fl "settings-value-backdrop-mica"
  | .micaAlt => loc.fl "settings-value-backdrop-mica-alt"
  | .acrylic => loc.fl "settings-value-backdrop-acrylic"
  | .none => loc.fl "settings-value-backdrop-none"

def windowCloseActionLabel : String :=
  match sp.windowCloseAction with
  | .prompt => loc.fl "settings-value-close-prompt"
  | .detach => loc.fl "settings-value-close-detach"
  | .kill => loc.fl "settings-value-close-kill"

/-- "unlimited" at 0, otherwise the numeric value. -/
def fpsLimitLabel : String :=
  if sp.fpsLimit = 0 then loc.fl "settings-value-fps-unlimited" else toString sp.fpsLimit

/-- The rows of the Window tab, with their labels and their values. -/
def windowRows : List (String × WidgetKind) :=
  -- 0.1, 1 and 0.05; 0, 32 and 1; 100, 100000 and 100; 0, 240 and 10; 0, 1 and 0.05.
  [("settings-window-opacity-label",
      .slider sp.opacity 0x3DCCCCCD 0x3F800000 0x3D4CCCCD (loc.percent sp.opacity)),
    ("settings-window-cursor-style", .cycle (sp.cursorStyleLabel loc)),
    ("settings-window-horizontal-padding-label",
      .slider (loc.f32 sp.paddingX.toNat) 0 0x42000000 0x3F800000 (toString sp.paddingX ++ " px")),
    ("settings-window-vertical-padding-label",
      .slider (loc.f32 sp.paddingY.toNat) 0 0x42000000 0x3F800000 (toString sp.paddingY ++ " px")),
    ("settings-window-present-mode", .cycle (sp.presentModeLabel loc)),
    ("settings-window-cursor-blink-label", .toggle sp.cursorBlinkEnabled),
    ("settings-window-scrollback-lines-label",
      .slider (loc.f32 sp.scrollbackLines) 0x42C80000 0x47C35000 0x42C80000
        (toString sp.scrollbackLines)),
    ("settings-window-show-tab-number-label", .toggle sp.tabShowTabNumber),
    ("settings-window-show-new-tab-button-label", .toggle sp.tabShowNewTabButton),
    ("settings-window-animations-enabled-label",
      .cycle (sp.animationsEnabledLabel loc sp.animationsOsReduced)),
    ("settings-window-animation-intensity", .cycle (sp.animationsIntensityLabel loc)),
    ("settings-window-decorations", .cycle (sp.windowDecorationsLabel loc)),
    ("settings-window-close-action", .cycle (sp.windowCloseActionLabel loc)),
    ("settings-window-fps-limit-label",
      .slider (loc.f32 sp.fpsLimit.toNat) 0 0x43700000 0x41200000 (sp.fpsLimitLabel loc)),
    ("settings-window-in-app-blur-label", .toggle sp.inAppBlurEnabled),
    ("settings-window-in-app-blur-strength-label",
      .slider sp.inAppBlurStrength 0 0x3F800000 0x3D4CCCCD (loc.percent sp.inAppBlurStrength)),
    ("settings-window-backdrop", .cycle (sp.windowBackdropLabel loc))]

def windowRowCount : ℕ := 17

/-- The controls of the Window tab. -/
def windowWidgetDescs : List WidgetDesc :=
  (sp.windowRows loc).mapIdx fun i row =>
    { id := ⟨windowCategory, UInt16.ofNat i⟩, kind := row.2, label := loc.fl row.1,
      focused := sp.focusedWidgetIndex = UInt16.ofNat i }

/-- The consent policies, rows 0 to 3. -/
def securityPolicies : List ConsentPolicy :=
  [sp.secExternalUrl, sp.secOsc52Clipboard, sp.secOscNotification, sp.secPluginRead]

/-- The byte caps, rows 4 to 6. -/
def securityBytes : List ℕ :=
  [sp.secOsc52MaxBytes, sp.secNotificationMaxBytes, sp.secPluginReadMaxBytes]

def consentDisplayLabel : ConsentPolicy → String
  | .allow => loc.fl "settings-consent-allow"
  | .deny => loc.fl "settings-consent-deny"
  | .prompt => loc.fl "settings-consent-prompt"

/-- Labels of the rows. -/
def securityFieldLabels : List String :=
  ["settings-security-field-external-url", "settings-security-field-osc52-clipboard",
    "settings-security-field-notification", "settings-security-field-plugin-read",
    "settings-security-field-osc52-max-bytes", "settings-security-field-notification-max-bytes",
    "settings-security-field-plugin-read-max-bytes"]

def securityRowCount : ℕ := 7

/-- A byte cap shows its buffer while it is edited. -/
def securityBytesKind (index : ℕ) (bytes : ℕ) : WidgetKind :=
  match sp.securityFieldEditing with
  | some state =>
    if sp.focusedWidgetIndex = UInt16.ofNat index then .text state.buffer true (some state.cursor)
    else .text (toString bytes) false none
  | none => .text (toString bytes) false none

/-- The values of the rows of the Security tab. -/
def securityKinds : List WidgetKind :=
  (sp.securityPolicies.map fun policy => .cycle (consentDisplayLabel loc policy)) ++
    sp.securityBytes.mapIdx fun i bytes => sp.securityBytesKind (4 + i) bytes

/-- The controls of the Security tab. -/
def securityWidgetDescs : List WidgetDesc :=
  (securityFieldLabels.zip (sp.securityKinds loc)).mapIdx fun i row =>
    { id := ⟨securityCategory, UInt16.ofNat i⟩, kind := row.2, label := loc.fl row.1,
      focused := sp.focusedWidgetIndex = UInt16.ofNat i }

/-- The controls of the Blocks tab. -/
def blocksWidgetDescs : List WidgetDesc :=
  [{ id := ⟨blocksCategory, 0⟩, kind := .toggle sp.blocksEnabled,
      label := loc.fl "settings-blocks-enabled" },
    { id := ⟨blocksCategory, 1⟩, kind := .cycle (toString sp.blocksBorderWidthPx),
      label := loc.fl "settings-blocks-border-width" },
    { id := ⟨blocksCategory, 2⟩, kind := .toggle sp.blocksShowExitCodeBadge,
      label := loc.fl "settings-blocks-status-badge" }]

/-! ### Lists -/

/-- First list entry of the Profiles tab. -/
def profilesListBase : UInt16 := 1

/-- The active profile's name; index 0, and one past the end, is no profile. -/
def activeProfileName : Option String :=
  if sp.activeProfileIndex = 0 then none
  else (sp.profiles[sp.activeProfileIndex - 1]?).map ProfileEntry.name

/-- The controls of the Profiles tab: none while there is no profile. -/
def profilesWidgetDescs : List WidgetDesc :=
  if sp.profiles = [] then []
  else
    { id := ⟨profilesCategory, 0⟩,
      kind := .cycle (sp.activeProfileName.getD (loc.fl "settings-profiles-none")),
      label := loc.fl "settings-profiles-active" } ::
    sp.profiles.mapIdx fun i prof =>
      { id := ⟨profilesCategory, profilesListBase + UInt16.ofNat i⟩,
        kind := .listItem (sp.selectedProfile = i),
        label := if prof.icon = "" then prof.name else prof.icon ++ " " ++ prof.name }

/-- The one-line label of a host. -/
def sshHostLabel (host : SshHostEntry) : String :=
  let userPart := if host.username = "" then host.host else host.username ++ "@" ++ host.host
  let endpoint :=
    if host.port = 22 ∨ host.port = 0 then userPart else userPart ++ ":" ++ toString host.port
  if host.name = "" then endpoint else host.name ++ " (" ++ endpoint ++ ")"

/-- Add-host and delete-host button, and first list entry of the Ssh tab. -/
def sshAdd : UInt16 := 6
def sshDelete : UInt16 := 7
def sshListBase : UInt16 := 8

/-- A text field of the selected host shows its buffer while it is edited. -/
def sshTextKind (field : UInt16) (stored : String) : WidgetKind :=
  match sp.sshFieldEditing with
  | some state =>
    if sp.focusedWidgetIndex = field then .text state.displayString true (some state.displayCursor)
    else .text stored false none
  | none => .text stored false none

/-- The five fields of the selected host. -/
def sshFieldDescs (host : SshHostEntry) : List WidgetDesc :=
  let field (index : UInt16) (kind : WidgetKind) (label : String) : WidgetDesc :=
    { id := ⟨sshCategory, index⟩, kind := kind, label := label,
      focused := sp.focusedWidgetIndex = index }
  [field 1 (sp.sshTextKind 1 host.name) (loc.fl "settings-ssh-field-name"),
    field 2 (sp.sshTextKind 2 host.host) (loc.fl "settings-ssh-field-host"),
    -- 1, 65535 and 1.
    field 3 (.spinButton (loc.f32 host.port.toNat) 0x3F800000 0x477FFF00 0x3F800000
      (toString host.port)) (loc.fl "settings-ssh-field-port"),
    field 4 (sp.sshTextKind 4 host.username) (loc.fl "settings-ssh-field-username"),
    field 5 (.cycle host.authType) (loc.fl "settings-ssh-field-auth-type")]

/-- The selected host. -/
def selectedSshHost : Option SshHostEntry :=
  sp.sshHosts[min sp.selectedHostIndex (sp.sshHosts.length - 1)]?

/-- The controls of the Ssh tab. -/
def sshWidgetDescs : List WidgetDesc :=
  let empty := sp.sshHosts = []
  let sel := min sp.selectedHostIndex (sp.sshHosts.length - 1)
  (sp.sshHosts.mapIdx fun i host =>
    { id := ⟨sshCategory, sshListBase + UInt16.ofNat i⟩, kind := .listItem (sel = i),
      label := sshHostLabel host, focused := sp.focusedWidgetIndex = 0 && sel = i,
      tooltip := if host.authType = "" then none else some ("Auth: " ++ host.authType) }) ++
  (sp.selectedSshHost.elim [] (sp.sshFieldDescs loc)) ++
  [{ id := ⟨sshCategory, sshAdd⟩, kind := .button false, label := loc.fl "settings-ssh-add",
      focused := sp.focusedWidgetIndex = 6 },
    { id := ⟨sshCategory, sshDelete⟩, kind := .button true,
      label := if empty then loc.fl "settings-ssh-delete-disabled" else loc.fl "settings-ssh-delete",
      focused := ¬ empty ∧ sp.focusedWidgetIndex = 7, enabled := ¬ empty }]

/-- The one-line label of a binding. -/
def keyBindingLabel (kb : KeyBinding) : String :=
  (if kb.key = "" then loc.fl "settings-keybinding-unbound" else kb.key) ++ " → " ++
    (if kb.action = "" then loc.fl "settings-keybinding-none" else kb.action)

/-- The action with its position among the known ones. -/
def actionDisplay (action : String) : String :=
  match keybindingActions.idxOf? action with
  | some i =>
    action ++ " (" ++ toString (i + 1) ++ "/" ++ toString keybindingActions.length ++ ")"
  | none => loc.flActionUnknown action

/-- Buttons, leader key and first list entry of the Keybindings tab. -/
def keyAdd : UInt16 := 3
def keyDelete : UInt16 := 4
def keyLeader : UInt16 := 5
def keyListBase : UInt16 := 6

/-- The key and the action of the selected binding. -/
def keyFieldDescs (kb : KeyBinding) : List WidgetDesc :=
  [{ id := ⟨keybindingsCategory, 1⟩,
      kind := match sp.keyEditing with
        | some (.text state) => .text state.displayString true (some state.displayCursor)
        | some .record => .keyCapture kb.key true
        | none => .keyCapture kb.key false,
      label := loc.fl "settings-keybindings-field-key", focused := sp.focusedWidgetIndex = 1 },
    { id := ⟨keybindingsCategory, 2⟩, kind := .cycle (actionDisplay loc kb.action),
      label := loc.fl "settings-keybindings-field-action", focused := sp.focusedWidgetIndex = 2,
      invalid := kb.action ∉ keybindingActions }]

/-- The selected binding. -/
def selectedKeyBinding : Option KeyBinding :=
  sp.keybindings[min sp.selectedKeyIndex (sp.keybindings.length - 1)]?

/-- The controls of the Keybindings tab. -/
def keybindingsWidgetDescs : List WidgetDesc :=
  let empty := sp.keybindings = []
  let sel := min sp.selectedKeyIndex (sp.keybindings.length - 1)
  (sp.keybindings.mapIdx fun i kb =>
    { id := ⟨keybindingsCategory, keyListBase + UInt16.ofNat i⟩, kind := .listItem (sel = i),
      label := keyBindingLabel loc kb, focused := sp.focusedWidgetIndex = 0 && sel = i }) ++
  (sp.selectedKeyBinding.elim [] (sp.keyFieldDescs loc)) ++
  [{ id := ⟨keybindingsCategory, keyAdd⟩, kind := .button false,
      label := loc.fl "settings-keybindings-add", focused := sp.focusedWidgetIndex = 3 },
    { id := ⟨keybindingsCategory, keyDelete⟩, kind := .button true,
      label := if empty then loc.fl "settings-keybindings-delete-disabled"
        else loc.fl "settings-keybindings-delete",
      focused := ¬ empty ∧ sp.focusedWidgetIndex = 4, enabled := ¬ empty },
    { id := ⟨keybindingsCategory, keyLeader⟩,
      kind := match sp.leaderKeyEditing with
        | some state => .text state.displayString true (some state.displayCursor)
        | none => .text sp.leaderKey false none,
      label := loc.fl "settings-keybindings-leader-key", focused := sp.focusedWidgetIndex = 5 }]

/-- The controls of the current category. -/
def widgetDescs : List WidgetDesc :=
  match sp.category with
  | .startup => sp.startupWidgetDescs loc
  | .font => sp.fontWidgetDescs loc
  | .theme => sp.themeWidgetDescs loc
  | .window => sp.windowWidgetDescs loc
  | .ssh => sp.sshWidgetDescs loc
  | .keybindings => sp.keybindingsWidgetDescs loc
  | .profiles => sp.profilesWidgetDescs loc
  | .blocks => sp.blocksWidgetDescs loc
  | .security => sp.securityWidgetDescs loc

end Panel

end Nexterm.A11y

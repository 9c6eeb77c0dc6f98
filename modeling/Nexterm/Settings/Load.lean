/-
  Loading a configuration from a TOML document: the deserializers of `nexterm-config` (`schema`).

  * `TomlEnum`: enumerations that are written as strings.
  * `FontConfig.load`, `WindowConfig.load` and so on: the sections; a missing section is its
    default.
  * `Extra`: the rest of the configuration; `loadConfig`: a document.
  * `Loads`: what it takes for a document to be loaded to a configuration.
-/
import Mathlib.Algebra.Group.Nat.Defs
import Nexterm.Lib.Toml
import Nexterm.Settings.Schema

namespace Nexterm.Settings

open Toml (Table Item)

/-! ## Values -/

/-- Enumerations whose variants are written as strings. -/
class TomlEnum (α : Type) where
  variants : List α
  serdeName : α → String

/-- The variant of this name. -/
def variant (α : Type) [TomlEnum α] (item : Item) : Option α :=
  item.asString.bind fun s => TomlEnum.variants.find? fun a : α => TomlEnum.serdeName a = s

/-- Cursor display style. -/
inductive CursorStyle
  | block
  | beam
  | underline
  deriving DecidableEq

instance : TomlEnum CursorStyle where
  variants := [.block, .beam, .underline]
  serdeName
    | .block => "block"
    | .beam => "beam"
    | .underline => "underline"

inductive PresentModeConfig
  | fifo
  | mailbox
  | auto
  deriving DecidableEq

instance : TomlEnum PresentModeConfig where
  variants := [.fifo, .mailbox, .auto]
  serdeName
    | .fifo => "fifo"
    | .mailbox => "mailbox"
    | .auto => "auto"

/-- Window decoration mode. -/
inductive WindowDecorations
  | full
  | none
  | noTitle
  deriving DecidableEq

instance : TomlEnum WindowDecorations where
  variants := [.full, .none, .noTitle]
  serdeName
    | .full => "full"
    | .none => "none"
    | .noTitle => "notitle"

inductive WindowBackdrop
  | auto
  | mica
  | micaAlt
  | acrylic
  | none
  deriving DecidableEq

instance : TomlEnum WindowBackdrop where
  variants := [.auto, .mica, .micaAlt, .acrylic, .none]
  serdeName
    | .auto => "auto"
    | .mica => "mica"
    | .micaAlt => "mica-alt"
    | .acrylic => "acrylic"
    | .none => "none"

inductive CloseAction
  | prompt
  | detach
  | kill
  deriving DecidableEq

instance : TomlEnum CloseAction where
  variants := [.prompt, .detach, .kill]
  serdeName
    | .prompt => "prompt"
    | .detach => "detach"
    | .kill => "kill"

inductive ConsentPolicy
  | allow
  | deny
  | prompt
  deriving DecidableEq

instance : TomlEnum ConsentPolicy where
  variants := [.allow, .deny, .prompt]
  serdeName
    | .allow => "allow"
    | .deny => "deny"
    | .prompt => "prompt"

inductive AnimationIntensity
  | off
  | subtle
  | normal
  | energetic
  deriving DecidableEq

instance : TomlEnum AnimationIntensity where
  variants := [.off, .subtle, .normal, .energetic]
  serdeName
    | .off => "off"
    | .subtle => "subtle"
    | .normal => "normal"
    | .energetic => "energetic"

/-- Whether animations run. -/
inductive AnimationsEnabled
  | auto
  | yes
  | no
  deriving DecidableEq

/-- A boolean, or one of three names in any case. -/
def AnimationsEnabled.load : Item → Option AnimationsEnabled
  | .boolean true => some yes
  | .boolean false => some no
  | .string s =>
    match String.ofList (s.toList.map Char.toLower) with
    | "auto" => some auto
    | "true" => some yes
    | "false" => some no
    | _ => none
  | _ => none

def asU8 (item : Item) : Option UInt8 := (item.asNat (2 ^ 8)).map UInt8.ofNat

def asU16 (item : Item) : Option UInt16 := (item.asNat (2 ^ 16)).map UInt16.ofNat

def asU32 (item : Item) : Option UInt32 := (item.asNat (2 ^ 32)).map UInt32.ofNat

/-- TOML integers have 64 bits and a sign. -/
def asUsize (item : Item) : Option ℕ := item.asNat (2 ^ 63)

/-- Key-binding definition. -/
structure KeyBinding where
  key : String
  action : String
  deriving DecidableEq

/-- The fields of a profile that the settings panel shows. -/
structure Profile where
  name : String
  icon : String
  shell : Option ShellConfig
  workingDir : Option String
  deriving DecidableEq

/-- The parts of the configuration that the settings panel never writes. -/
structure Others (ρ : Type) where
  keys : List KeyBinding
  profiles : List Profile
  log : LogConfig
  hooks : HooksConfig
  rest : ρ

/-- What is given about the parser, the casts of floats, the platform, and the fields that
    nothing modelled looks at. -/
structure TomlEnv (ρ : Type) where
  parse : String → Option Table
  parse_empty : parse "" = some Table.empty
  asF64 : F32 → UInt64
  asF32 : UInt64 → F32
  /-- Every `f32` is an `f64`. -/
  asF32_asF64 : ∀ x, asF32 (asF64 x) = x
  ofInt : ℤ → F32
  defaultShell : ShellConfig
  defaultDecorations : WindowDecorations
  /-- The other fields of a section. -/
  extra : String → Table → Option ρ
  others : Table → Option (Others ρ)

variable {ρ : Type}

def TomlEnv.f32 (env : TomlEnv ρ) : Item → Option F32
  | .float x => some (env.asF32 x)
  | .integer n => some (env.ofInt n)
  | _ => none

/-- `f32::is_finite`. -/
def F32.isFinite (x : F32) : Bool := x.toNat / 2 ^ 23 % 2 ^ 8 != 2 ^ 8 - 1

/-- Sanitizes non-finite values. -/
def finiteOr (value fallback : F32) : F32 := if value.isFinite then value else fallback

/-! ## Sections -/

/-- A struct may also be written as the array of its fields, in their order. -/
def ofSeq (order : List String) (items : List Item) : Table := fun key =>
  (order.idxOf? key).bind (items[·]?)

/-- The fields of a section; a missing one has none. -/
def asStruct (order : List String) : Option Item → Option Table
  | none => some Table.empty
  | some (.table fields) | some (.inlineTable fields) => some fields
  | some (.array items) => some (ofSeq order items)
  | some (.arrayOfTables rows) => some (ofSeq order (rows.map .table))
  | _ => none

def FontConfig.order : List String := ["family", "size", "ligatures", "font_fallbacks"]

def FontConfig.load (env : TomlEnv ρ) (t : Table) : Option FontConfig := do
  let family ← t.field "family" Item.asString "monospace"
  let size ← t.field "size" env.f32 0x41700000
  let ligatures ← t.field "ligatures" Item.asBool true
  let fontFallbacks ← t.field "font_fallbacks" Item.asStrings
    ["Cascadia Code", "JetBrains Mono", "Fira Code", "Noto Sans Mono CJK JP", "Noto Color Emoji"]
  return { family, size, ligatures, fontFallbacks }

/-- A string, a table with a scheme, or a full custom palette. -/
def ColorScheme.load : Option Item → Option ColorScheme
  | none => some (.builtin .tokyoNight)
  | some (.string value) => some (.builtin (parseBuiltinScheme value))
  | some item => do
    let entries ← item.fields
    match entries "scheme" with
    | some (.string name) => return .builtin (parseBuiltinScheme name)
    | _ =>
      let foreground ← (entries "foreground").bind Item.asString
      let background ← (entries "background").bind Item.asString
      let cursor ← (entries "cursor").bind Item.asString
      let ansi ← (entries "ansi").bind Item.asStrings
      return .custom { foreground, background, cursor, ansi }

def ShellConfig.order : List String := ["program", "args"]

def ShellConfig.load (env : TomlEnv ρ) (t : Table) : Option ShellConfig := do
  let program ← t.field "program" Item.asString env.defaultShell.program
  let args ← t.field "args" Item.asStrings env.defaultShell.args
  return { program, args }

structure WindowConfig (ρ : Type) where
  backgroundOpacity : F32
  backdrop : WindowBackdrop
  decorations : WindowDecorations
  paddingX : UInt32
  paddingY : UInt32
  closeAction : CloseAction
  inAppBlurEnabled : Bool
  inAppBlurStrength : F32
  rest : ρ

def WindowConfig.order : List String :=
  ["background_opacity", "backdrop", "decorations", "layout_mode", "padding_x", "padding_y",
    "background_image", "gradient", "close_action", "in_app_blur_enabled", "in_app_blur_strength"]

def WindowConfig.load (env : TomlEnv ρ) (t : Table) : Option (WindowConfig ρ) := do
  let backgroundOpacity ← t.field "background_opacity"
    (fun item => (env.f32 item).map fun value => finiteOr value 0x3F733333) 0x3F733333
  let backdrop ← t.field "backdrop" (variant WindowBackdrop) .auto
  let decorations ← t.field "decorations" (variant WindowDecorations) env.defaultDecorations
  let paddingX ← t.field "padding_x" asU32 0
  let paddingY ← t.field "padding_y" asU32 0
  let closeAction ← t.field "close_action" (variant CloseAction) .prompt
  let inAppBlurEnabled ← t.field "in_app_blur_enabled" Item.asBool false
  let inAppBlurStrength ← t.field "in_app_blur_strength" env.f32 0x3F19999A
  let rest ← env.extra "window" (t.without ["background_opacity", "backdrop", "decorations",
    "padding_x", "padding_y", "close_action", "in_app_blur_enabled", "in_app_blur_strength"])
  return { backgroundOpacity, backdrop, decorations, paddingX, paddingY, closeAction,
           inAppBlurEnabled, inAppBlurStrength, rest }

def TabBarConfig.order : List String :=
  ["enabled", "height", "active_tab_bg", "inactive_tab_bg", "separator", "activity_tab_bg",
    "active_accent_color", "show_tab_number", "inactive_text_brightness", "hover_highlight",
    "hide_when_single", "show_new_tab_button", "show_process_icon"]

def optionString (item : Item) : Option (Option String) := item.asString.map some

def TabBarConfig.load (env : TomlEnv ρ) (t : Table) : Option TabBarConfig := do
  let enabled ← t.field "enabled" Item.asBool true
  let height ← t.field "height" asU32 32
  let activeTabBg ← t.field "active_tab_bg" optionString none
  let inactiveTabBg ← t.field "inactive_tab_bg" optionString none
  let separator ← t.field "separator" Item.asString "❯"
  let activityTabBg ← t.field "activity_tab_bg" optionString none
  let activeAccentColor ← t.field "active_accent_color" optionString none
  let showTabNumber ← t.field "show_tab_number" Item.asBool false
  let inactiveTextBrightness ← t.field "inactive_text_brightness" env.f32 0x3F0CCCCD
  let hoverHighlight ← t.field "hover_highlight" Item.asBool true
  let hideWhenSingle ← t.field "hide_when_single" Item.asBool false
  let showNewTabButton ← t.field "show_new_tab_button" Item.asBool true
  let showProcessIcon ← t.field "show_process_icon" Item.asBool false
  return { enabled, height, activeTabBg, inactiveTabBg, separator, activityTabBg,
           activeAccentColor, showTabNumber, inactiveTextBrightness, hoverHighlight,
           hideWhenSingle, showNewTabButton, showProcessIcon }

structure GpuConfig (ρ : Type) where
  fpsLimit : UInt32
  atlasSize : UInt32
  presentMode : PresentModeConfig
  rest : ρ

def GpuConfig.order : List String :=
  ["custom_bg_shader", "custom_text_shader", "fps_limit", "atlas_size", "present_mode"]

/-- The defaults of the fields are not those of the type: a missing section has no limit and an
    atlas of size 0. -/
def GpuConfig.load (env : TomlEnv ρ) (missing : Bool) (t : Table) : Option (GpuConfig ρ) := do
  let fpsLimit ← t.field "fps_limit" asU32 (if missing then 0 else 60)
  let atlasSize ← t.field "atlas_size" asU32 (if missing then 0 else 2048)
  let presentMode ← t.field "present_mode" (variant PresentModeConfig) .mailbox
  let rest ← env.extra "gpu" (t.without ["fps_limit", "atlas_size", "present_mode"])
  return { fpsLimit, atlasSize, presentMode, rest }

structure CursorConfig where
  blinkEnabled : Bool
  blinkIntervalMs : UInt32
  smoothMotion : Bool

def CursorConfig.order : List String := ["blink_enabled", "blink_interval_ms", "smooth_motion"]

def CursorConfig.load (t : Table) : Option CursorConfig := do
  let blinkEnabled ← t.field "blink_enabled" Item.asBool true
  let blinkIntervalMs ← t.field "blink_interval_ms" asU32 530
  let smoothMotion ← t.field "smooth_motion" Item.asBool true
  return { blinkEnabled, blinkIntervalMs, smoothMotion }

structure SecurityConfig where
  externalUrl : ConsentPolicy
  osc52Clipboard : ConsentPolicy
  oscNotification : ConsentPolicy
  osc52MaxBytes : ℕ
  notificationMaxBytes : ℕ
  pluginRead : ConsentPolicy
  pluginReadMaxBytes : ℕ

def SecurityConfig.order : List String :=
  ["external_url", "osc52_clipboard", "osc_notification", "osc52_max_bytes",
    "notification_max_bytes", "plugin_read", "plugin_read_max_bytes"]

def SecurityConfig.load (t : Table) : Option SecurityConfig := do
  let externalUrl ← t.field "external_url" (variant ConsentPolicy) .prompt
  let osc52Clipboard ← t.field "osc52_clipboard" (variant ConsentPolicy) .prompt
  let oscNotification ← t.field "osc_notification" (variant ConsentPolicy) .prompt
  let osc52MaxBytes ← t.field "osc52_max_bytes" asUsize (1024 * 1024)
  let notificationMaxBytes ← t.field "notification_max_bytes" asUsize 4096
  let pluginRead ← t.field "plugin_read" (variant ConsentPolicy) .deny
  let pluginReadMaxBytes ← t.field "plugin_read_max_bytes" asUsize (1024 * 1024)
  return { externalUrl, osc52Clipboard, oscNotification, osc52MaxBytes, notificationMaxBytes,
           pluginRead, pluginReadMaxBytes }

/-- The OS preference is not in a file. -/
structure AnimationsConfig where
  enabled : AnimationsEnabled
  intensity : AnimationIntensity

def AnimationsConfig.order : List String := ["enabled", "intensity"]

def AnimationsConfig.load (t : Table) : Option AnimationsConfig := do
  let enabled ← t.field "enabled" AnimationsEnabled.load .auto
  let intensity ← t.field "intensity" (variant AnimationIntensity) .normal
  return { enabled, intensity }

/-- Command-blocks UI configuration. -/
structure BlocksConfig where
  enabled : Bool
  borderWidthPx : UInt8
  showExitCodeBadge : Bool

def BlocksConfig.order : List String := ["enabled", "border_width_px", "show_exit_code_badge"]

def BlocksConfig.load (t : Table) : Option BlocksConfig := do
  let enabled ← t.field "enabled" Item.asBool true
  let borderWidthPx ← t.field "border_width_px" asU8 2
  let showExitCodeBadge ← t.field "show_exit_code_badge" Item.asBool true
  return { enabled, borderWidthPx, showExitCodeBadge }

/-! ## The whole configuration -/

def HostConfig.load (t : Table) : Option HostConfig := do
  let name ← (t "name").bind Item.asString
  let host ← (t "host").bind Item.asString
  let port ← t.field "port" asU16 22
  let username ← (t "username").bind Item.asString
  let authType ← t.field "auth_type" Item.asString "key"
  let keyPath ← t.field "key_path" optionString none
  let forwardLocal ← t.field "forward_local" Item.asStrings []
  let forwardRemote ← t.field "forward_remote" Item.asStrings []
  let proxyJump ← t.field "proxy_jump" optionString none
  let x11Forward ← t.field "x11_forward" Item.asBool false
  let x11Trusted ← t.field "x11_trusted" Item.asBool false
  let group ← t.field "group" Item.asString ""
  let tags ← t.field "tags" Item.asStrings []
  return { name, host, port, username, authType, keyPath, forwardLocal, forwardRemote, proxyJump,
           x11Forward, x11Trusted, group, tags }

/-- The rows of an array of tables or of inline tables. -/
def hostRows : Option Item → Option (List Table)
  | none => some []
  | some (.arrayOfTables rows) => some rows
  | some (.array items) => items.mapM Item.fields
  | _ => none

/-- The fields of `Config` beyond those of the schema module. -/
structure Extra (ρ : Type) where
  colorsFollowSystem : Bool
  window : WindowConfig ρ
  gpu : GpuConfig ρ
  language : String
  cursorStyle : CursorStyle
  cursor : CursorConfig
  autoCheckUpdate : Bool
  security : SecurityConfig
  leaderKey : String
  animations : AnimationsConfig
  blocks : BlocksConfig
  activeProfile : Option String
  keys : List KeyBinding
  profiles : List Profile
  others : ρ

/-- The keys of the fields that are not in `Others`. -/
def topKeys : List String :=
  ["font", "colors", "colors_follow_system", "shell", "scrollback_lines", "window", "tab_bar",
    "hosts", "active_profile", "gpu", "language", "cursor_style", "cursor", "auto_check_update",
    "security", "leader_key", "animations", "blocks"]

/-- Deserializes a document into a configuration. -/
def loadConfig (env : TomlEnv ρ) (d : Table) : Option (Config (Extra ρ)) := do
  let font ← (asStruct FontConfig.order (d "font")).bind (FontConfig.load env)
  let colors ← ColorScheme.load (d "colors")
  let colorsFollowSystem ← d.field "colors_follow_system" Item.asBool false
  let shell ← (asStruct ShellConfig.order (d "shell")).bind (ShellConfig.load env)
  let scrollbackLines ← d.field "scrollback_lines" asUsize 50000
  let window ← (asStruct WindowConfig.order (d "window")).bind (WindowConfig.load env)
  let tabBar ← (asStruct TabBarConfig.order (d "tab_bar")).bind (TabBarConfig.load env)
  let hosts ← (hostRows (d "hosts")).bind fun rows => rows.mapM HostConfig.load
  let activeProfile ← d.field "active_profile" optionString none
  let gpu ← (asStruct GpuConfig.order (d "gpu")).bind (GpuConfig.load env (d "gpu").isNone)
  let language ← d.field "language" Item.asString "auto"
  let cursorStyle ← d.field "cursor_style" (variant CursorStyle) .block
  let cursor ← (asStruct CursorConfig.order (d "cursor")).bind CursorConfig.load
  let autoCheckUpdate ← d.field "auto_check_update" Item.asBool true
  let security ← (asStruct SecurityConfig.order (d "security")).bind SecurityConfig.load
  let leaderKey ← d.field "leader_key" Item.asString "ctrl+b"
  let animations ← (asStruct AnimationsConfig.order (d "animations")).bind AnimationsConfig.load
  let blocks ← (asStruct BlocksConfig.order (d "blocks")).bind BlocksConfig.load
  let others ← env.others (d.without topKeys)
  return { configErrors := [], font, colors, shell, scrollbackLines, tabBar, hosts,
           log := others.log, hooks := others.hooks,
           rest := { colorsFollowSystem, window, gpu, language, cursorStyle, cursor,
                     autoCheckUpdate, security, leaderKey, animations, blocks, activeProfile,
                     keys := others.keys, profiles := others.profiles, others := others.rest } }

/-- Every part of the configuration is what its part of the document is loaded to. -/
structure Loads (env : TomlEnv ρ) (d : Table) (c : Config (Extra ρ)) : Prop where
  font : (asStruct FontConfig.order (d "font")).bind (FontConfig.load env) = some c.font
  colors : ColorScheme.load (d "colors") = some c.colors
  colorsFollowSystem :
    d.field "colors_follow_system" Item.asBool false = some c.rest.colorsFollowSystem
  shell : (asStruct ShellConfig.order (d "shell")).bind (ShellConfig.load env) = some c.shell
  scrollbackLines : d.field "scrollback_lines" asUsize 50000 = some c.scrollbackLines
  window : (asStruct WindowConfig.order (d "window")).bind (WindowConfig.load env) =
    some c.rest.window
  tabBar : (asStruct TabBarConfig.order (d "tab_bar")).bind (TabBarConfig.load env) = some c.tabBar
  hosts : ((hostRows (d "hosts")).bind fun rows => rows.mapM HostConfig.load) = some c.hosts
  activeProfile : d.field "active_profile" optionString none = some c.rest.activeProfile
  gpu : (asStruct GpuConfig.order (d "gpu")).bind (GpuConfig.load env (d "gpu").isNone) =
    some c.rest.gpu
  language : d.field "language" Item.asString "auto" = some c.rest.language
  cursorStyle : d.field "cursor_style" (variant CursorStyle) .block = some c.rest.cursorStyle
  cursor : (asStruct CursorConfig.order (d "cursor")).bind CursorConfig.load = some c.rest.cursor
  autoCheckUpdate : d.field "auto_check_update" Item.asBool true = some c.rest.autoCheckUpdate
  security : (asStruct SecurityConfig.order (d "security")).bind SecurityConfig.load =
    some c.rest.security
  leaderKey : d.field "leader_key" Item.asString "ctrl+b" = some c.rest.leaderKey
  animations : (asStruct AnimationsConfig.order (d "animations")).bind AnimationsConfig.load =
    some c.rest.animations
  blocks : (asStruct BlocksConfig.order (d "blocks")).bind BlocksConfig.load = some c.rest.blocks
  others : env.others (d.without topKeys) = some
    { keys := c.rest.keys, profiles := c.rest.profiles, log := c.log, hooks := c.hooks,
      rest := c.rest.others }
  configErrors : c.configErrors = []

theorem loadConfig_eq_some_iff {env : TomlEnv ρ} {d : Table} {c : Config (Extra ρ)} :
    loadConfig env d = some c ↔ Loads env d c := by
  constructor
  · intro h
    obtain ⟨_, font, h⟩ := Option.bind_eq_some_iff.1 h
    obtain ⟨_, colors, h⟩ := Option.bind_eq_some_iff.1 h
    obtain ⟨_, colorsFollowSystem, h⟩ := Option.bind_eq_some_iff.1 h
    obtain ⟨_, shell, h⟩ := Option.bind_eq_some_iff.1 h
    obtain ⟨_, scrollbackLines, h⟩ := Option.bind_eq_some_iff.1 h
    obtain ⟨_, window, h⟩ := Option.bind_eq_some_iff.1 h
    obtain ⟨_, tabBar, h⟩ := Option.bind_eq_some_iff.1 h
    obtain ⟨_, hosts, h⟩ := Option.bind_eq_some_iff.1 h
    obtain ⟨_, activeProfile, h⟩ := Option.bind_eq_some_iff.1 h
    obtain ⟨_, gpu, h⟩ := Option.bind_eq_some_iff.1 h
    obtain ⟨_, language, h⟩ := Option.bind_eq_some_iff.1 h
    obtain ⟨_, cursorStyle, h⟩ := Option.bind_eq_some_iff.1 h
    obtain ⟨_, cursor, h⟩ := Option.bind_eq_some_iff.1 h
    obtain ⟨_, autoCheckUpdate, h⟩ := Option.bind_eq_some_iff.1 h
    obtain ⟨_, security, h⟩ := Option.bind_eq_some_iff.1 h
    obtain ⟨_, leaderKey, h⟩ := Option.bind_eq_some_iff.1 h
    obtain ⟨_, animations, h⟩ := Option.bind_eq_some_iff.1 h
    obtain ⟨_, blocks, h⟩ := Option.bind_eq_some_iff.1 h
    obtain ⟨_, others, h⟩ := Option.bind_eq_some_iff.1 h
    obtain rfl := Option.some.inj h
    exact { font, colors, colorsFollowSystem, shell, scrollbackLines, window, tabBar, hosts,
            activeProfile, gpu, language, cursorStyle, cursor, autoCheckUpdate, security,
            leaderKey, animations, blocks, others, configErrors := rfl }
  · intro h
    obtain ⟨configErrors, font, colors, shell, scrollbackLines, tabBar, hosts, log, hooks, rest⟩ := c
    obtain rfl : configErrors = [] := h.configErrors
    rw [loadConfig, h.font, h.colors, h.colorsFollowSystem, h.shell, h.scrollbackLines, h.window,
      h.tabBar, h.hosts, h.activeProfile, h.gpu, h.language, h.cursorStyle, h.cursor,
      h.autoCheckUpdate, h.security, h.leaderKey, h.animations, h.blocks, h.others]
    rfl

end Nexterm.Settings

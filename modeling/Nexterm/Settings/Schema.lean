/-
  The configuration (`nexterm-config`, `schema`): the parts that the loader, the Lua bridge, the
  hot reload and the settings panel look at.

  * `BuiltinScheme.fromTomlName`: scheme names, in any case.
  * `Config`: the configuration; `ρ` stands for the fields that nothing modelled looks at.
-/
import Mathlib.Data.Nat.Notation
import Mathlib.Tactic.Common

namespace Nexterm.Settings

/-- The bits of an `f32`. -/
abbrev F32 := UInt32

/-! ## Color schemes -/

/-- Built-in color scheme. -/
inductive BuiltinScheme
  | dark
  | light
  | tokyoNight
  | solarized
  | gruvbox
  | catppuccin
  | dracula
  | nord
  | oneDark
  | highContrast
  deriving DecidableEq

/-- Lower case, as far as ASCII results go: of all other characters only the Kelvin sign has one. -/
def lowerChar (c : Char) : Char := if c = '\u212A' then 'k' else c.toLower

namespace BuiltinScheme

/-- Every built-in scheme. -/
def all : List BuiltinScheme :=
  [dark, light, tokyoNight, solarized, gruvbox, catppuccin, dracula, nord, oneDark, highContrast]

/-- The name of the variant. -/
def debugName : BuiltinScheme → String
  | dark => "Dark"
  | light => "Light"
  | tokyoNight => "TokyoNight"
  | solarized => "Solarized"
  | gruvbox => "Gruvbox"
  | catppuccin => "Catppuccin"
  | dracula => "Dracula"
  | nord => "Nord"
  | oneDark => "OneDark"
  | highContrast => "HighContrast"

/-- The TOML identifier (lower-case) of the scheme. -/
def tomlName : BuiltinScheme → String
  | dark => "dark"
  | light => "light"
  | tokyoNight => "tokyonight"
  | solarized => "solarized"
  | gruvbox => "gruvbox"
  | catppuccin => "catppuccin"
  | dracula => "dracula"
  | nord => "nord"
  | oneDark => "onedark"
  | highContrast => "highcontrast"

/-- The built-in scheme matching the given TOML identifier. -/
def fromTomlName (s : String) : Option BuiltinScheme :=
  all.find? fun b => b.tomlName = String.ofList (s.toList.map lowerChar)

theorem fromTomlName_tomlName (b : BuiltinScheme) : fromTomlName b.tomlName = some b := by
  cases b <;> decide +kernel

end BuiltinScheme

/-- Parses a built-in scheme name; unknown values fall back to `Dark`. -/
def parseBuiltinScheme (s : String) : BuiltinScheme :=
  (BuiltinScheme.fromTomlName s).getD .dark

/-- Custom color palette (defined in TOML). -/
structure CustomPalette where
  foreground : String
  background : String
  cursor : String
  ansi : List String
  deriving DecidableEq

/-- Color-scheme configuration. -/
inductive ColorScheme
  | builtin (scheme : BuiltinScheme)
  | custom (palette : CustomPalette)
  deriving DecidableEq

/-! ## Sections -/

structure FontConfig where
  family : String
  size : F32
  ligatures : Bool
  fontFallbacks : List String
  deriving DecidableEq

structure ShellConfig where
  program : String
  args : List String
  deriving DecidableEq

/-- Tab-bar configuration. -/
structure TabBarConfig where
  enabled : Bool
  height : UInt32
  activeTabBg : Option String
  inactiveTabBg : Option String
  separator : String
  activityTabBg : Option String
  activeAccentColor : Option String
  showTabNumber : Bool
  inactiveTextBrightness : F32
  hoverHighlight : Bool
  hideWhenSingle : Bool
  showNewTabButton : Bool
  showProcessIcon : Bool
  deriving DecidableEq

/-- SSH host configuration. -/
structure HostConfig where
  name : String
  host : String
  port : UInt16
  username : String
  authType : String
  keyPath : Option String
  forwardLocal : List String
  forwardRemote : List String
  proxyJump : Option String
  x11Forward : Bool
  x11Trusted : Bool
  group : String
  tags : List String
  deriving DecidableEq

/-- Logging configuration. -/
structure LogConfig where
  autoLog : Bool
  logDir : Option String
  timestamp : Bool
  stripAnsi : Bool
  fileNameTemplate : Option String
  binaryLog : Bool
  deriving DecidableEq

/-- Terminal hook configuration: shell commands, and names of Lua functions. -/
structure HooksConfig where
  onPaneOpen : Option String
  onPaneClose : Option String
  onSessionStart : Option String
  onAttach : Option String
  onDetach : Option String
  luaOnPaneOpen : Option String
  luaOnPaneClose : Option String
  luaOnSessionStart : Option String
  luaOnAttach : Option String
  luaOnDetach : Option String
  deriving DecidableEq

/-- Top-level configuration; `rest` are the other fields. -/
structure Config (ρ : Type) where
  configErrors : List String
  font : FontConfig
  colors : ColorScheme
  shell : ShellConfig
  scrollbackLines : ℕ
  tabBar : TabBarConfig
  hosts : List HostConfig
  log : LogConfig
  hooks : HooksConfig
  rest : ρ
  deriving DecidableEq

end Nexterm.Settings

/-
  Saving the settings panel (`settings/mod.rs`, `settings/save.rs`).

  * `SettingsPanel`: the fields that come from the configuration; `SettingsPanel.ofConfig`.
  * `edits`, `applyToTomlString`: every managed key is written into the existing document.
  * `Frame`: the keys and tables that the panel does not manage are as they were.
  * `save_keeps_rest_iff`: which texts are saved without a panic and without loss.
-/
import Nexterm.Settings.Load
import Nexterm.Settings.Ssh
import Nexterm.Vt.Text

namespace Nexterm.Settings

open Toml (Table Item Edit)

variable {ρ : Type}

/-! ## The panel -/

/-- Profile entry. -/
structure ProfileEntry where
  name : String
  icon : String
  shellProgram : String
  workingDir : String
  deriving DecidableEq

/-- Settings-panel state, as far as it comes from the configuration. -/
structure SettingsPanel where
  fontSize : F32
  schemeIndex : ℕ
  opacity : F32
  fontFamily : String
  profiles : List ProfileEntry
  sshHosts : List SshHostEntry
  keybindings : List KeyBinding
  languageIndex : ℕ
  autoCheckUpdate : Bool
  blocksEnabled : Bool
  blocksBorderWidthPx : UInt8
  blocksShowExitCodeBadge : Bool
  secExternalUrl : ConsentPolicy
  secOsc52Clipboard : ConsentPolicy
  secOscNotification : ConsentPolicy
  secPluginRead : ConsentPolicy
  secOsc52MaxBytes : ℕ
  secNotificationMaxBytes : ℕ
  secPluginReadMaxBytes : ℕ
  cursorStyle : CursorStyle
  paddingX : UInt32
  paddingY : UInt32
  presentMode : PresentModeConfig
  cursorBlinkEnabled : Bool
  inAppBlurEnabled : Bool
  inAppBlurStrength : F32
  scrollbackLines : ℕ
  tabShowTabNumber : Bool
  tabShowNewTabButton : Bool
  animationsEnabled : AnimationsEnabled
  animationsIntensity : AnimationIntensity
  windowDecorations : WindowDecorations
  windowBackdrop : WindowBackdrop
  windowCloseAction : CloseAction
  fpsLimit : UInt32
  colorsFollowSystem : Bool
  fontLigatures : Bool
  /-- Joined with a comma and a space. -/
  fontFallbacksText : String
  leaderKey : String
  shellProgram : String
  /-- Joined with single spaces. -/
  shellArgs : String
  /-- One more than the index into the profiles; 0 is no profile. -/
  activeProfileIndex : ℕ
  deriving DecidableEq

/-- Languages, by their codes. -/
def languageOptions : List String :=
  ["auto", "en", "ja", "fr", "de", "es", "it", "zh-CN", "ko"]

/-- Convert a color scheme into its index. -/
def schemeNameToIndex : ColorScheme → ℕ
  | .builtin b => BuiltinScheme.all.idxOf b
  | .custom _ => 0

namespace SettingsPanel

def ofConfig (c : Config (Extra ρ)) : SettingsPanel :=
  { fontSize := c.font.size
    schemeIndex := schemeNameToIndex c.colors
    opacity := c.rest.window.backgroundOpacity
    fontFamily := c.font.family
    profiles := c.rest.profiles.map fun p =>
      { name := p.name, icon := p.icon, shellProgram := (p.shell.map (·.program)).getD "",
        workingDir := p.workingDir.getD "" }
    sshHosts := (SshPanel.ofHosts c.hosts).sshHosts
    keybindings := c.rest.keys
    languageIndex := (languageOptions.idxOf? c.rest.language).getD 0
    autoCheckUpdate := c.rest.autoCheckUpdate
    blocksEnabled := c.rest.blocks.enabled
    blocksBorderWidthPx := c.rest.blocks.borderWidthPx
    blocksShowExitCodeBadge := c.rest.blocks.showExitCodeBadge
    secExternalUrl := c.rest.security.externalUrl
    secOsc52Clipboard := c.rest.security.osc52Clipboard
    secOscNotification := c.rest.security.oscNotification
    secPluginRead := c.rest.security.pluginRead
    secOsc52MaxBytes := c.rest.security.osc52MaxBytes
    secNotificationMaxBytes := c.rest.security.notificationMaxBytes
    secPluginReadMaxBytes := c.rest.security.pluginReadMaxBytes
    cursorStyle := c.rest.cursorStyle
    paddingX := min c.rest.window.paddingX 32
    paddingY := min c.rest.window.paddingY 32
    presentMode := c.rest.gpu.presentMode
    cursorBlinkEnabled := c.rest.cursor.blinkEnabled
    inAppBlurEnabled := c.rest.window.inAppBlurEnabled
    inAppBlurStrength := c.rest.window.inAppBlurStrength
    scrollbackLines := c.scrollbackLines
    tabShowTabNumber := c.tabBar.showTabNumber
    tabShowNewTabButton := c.tabBar.showNewTabButton
    animationsEnabled := c.rest.animations.enabled
    animationsIntensity := c.rest.animations.intensity
    windowDecorations := c.rest.window.decorations
    windowBackdrop := c.rest.window.backdrop
    windowCloseAction := c.rest.window.closeAction
    fpsLimit := c.rest.gpu.fpsLimit
    colorsFollowSystem := c.rest.colorsFollowSystem
    fontLigatures := c.font.ligatures
    fontFallbacksText := ", ".intercalate c.font.fontFallbacks
    leaderKey := c.rest.leaderKey
    shellProgram := c.shell.program
    shellArgs := " ".intercalate c.shell.args
    activeProfileIndex :=
      (c.rest.activeProfile.bind fun name =>
        (c.rest.profiles.findIdx? (·.name = name)).map (· + 1)).getD 0 }

/-! ## Values for the document -/

/-- The scheme name for the current index. -/
def schemeName (p : SettingsPanel) : String :=
  (BuiltinScheme.all.getD (p.schemeIndex % BuiltinScheme.all.length) .dark).tomlName

def languageCode (p : SettingsPanel) : String := (languageOptions[p.languageIndex]?).getD "auto"

def presentModeTomlKey (p : SettingsPanel) : String :=
  match p.presentMode with
  | .fifo => "fifo"
  | .mailbox => "mailbox"
  | .auto => "auto"

def cursorStyleTomlKey (p : SettingsPanel) : String :=
  match p.cursorStyle with
  | .block => "block"
  | .beam => "beam"
  | .underline => "underline"

def animationsEnabledTomlValue (p : SettingsPanel) : Item :=
  match p.animationsEnabled with
  | .auto => .string "auto"
  | .yes => .boolean true
  | .no => .boolean false

def animationsIntensityTomlKey (p : SettingsPanel) : String :=
  match p.animationsIntensity with
  | .off => "off"
  | .subtle => "subtle"
  | .normal => "normal"
  | .energetic => "energetic"

def windowDecorationsTomlKey (p : SettingsPanel) : String :=
  match p.windowDecorations with
  | .full => "full"
  | .none => "none"
  | .noTitle => "notitle"

def windowCloseActionTomlKey (p : SettingsPanel) : String :=
  match p.windowCloseAction with
  | .prompt => "prompt"
  | .detach => "detach"
  | .kill => "kill"

def windowBackdropTomlKey (p : SettingsPanel) : String :=
  match p.windowBackdrop with
  | .auto => "auto"
  | .mica => "mica"
  | .micaAlt => "mica-alt"
  | .acrylic => "acrylic"
  | .none => "none"

def consentTomlKey : ConsentPolicy → String
  | .allow => "allow"
  | .deny => "deny"
  | .prompt => "prompt"

/-- Split on commas, trim each entry, and drop empty entries. -/
def fontFallbacksList (text : String) : List String :=
  ((Vt.splitAt ',' text).map Vt.trim).filter (· ≠ "")

/-- `str::split_whitespace`. -/
def splitWhitespace (text : String) : List String :=
  ((text.toList.splitOnP Vt.isWhitespace).filter (· ≠ [])).map String.ofList

def activeProfileName (p : SettingsPanel) : Option String :=
  if p.activeProfileIndex = 0 then none else (p.profiles[p.activeProfileIndex - 1]?).map (·.name)

/-- `n as i64`. -/
def asI64 (n : ℕ) : ℤ := (n : ℤ).bmod (2 ^ 64)

def strings (l : List String) : Item := .array (l.map .string)

/-! ## Saving -/

/-- An empty text is not written. -/
def unlessEmpty (text : String) (e : Edit) : List Edit := if text = "" then [] else [e]

/-- From the font size to the font fallbacks. -/
def displayEdits (env : TomlEnv ρ) (p : SettingsPanel) : List Edit :=
  [.setIn "font" "size" (.float (env.asF64 p.fontSize)),
    .setIn "colors" "scheme" (.string p.schemeName),
    .setIn "window" "background_opacity" (.float (env.asF64 p.opacity)),
    .setIn "window" "padding_x" (.integer p.paddingX.toNat),
    .setIn "window" "padding_y" (.integer p.paddingY.toNat),
    .setIn "gpu" "present_mode" (.string p.presentModeTomlKey),
    .set "cursor_style" (.string p.cursorStyleTomlKey),
    .set "language" (.string p.languageCode),
    .set "auto_check_update" (.boolean p.autoCheckUpdate),
    .setIn "blocks" "enabled" (.boolean p.blocksEnabled),
    .setIn "blocks" "border_width_px" (.integer p.blocksBorderWidthPx.toNat),
    .setIn "blocks" "show_exit_code_badge" (.boolean p.blocksShowExitCodeBadge),
    .setIn "cursor" "blink_enabled" (.boolean p.cursorBlinkEnabled),
    .set "scrollback_lines" (.integer (asI64 p.scrollbackLines)),
    .setIn "tab_bar" "show_tab_number" (.boolean p.tabShowTabNumber),
    .setIn "tab_bar" "show_new_tab_button" (.boolean p.tabShowNewTabButton),
    .setIn "animations" "enabled" p.animationsEnabledTomlValue,
    .setIn "animations" "intensity" (.string p.animationsIntensityTomlKey),
    .setIn "window" "decorations" (.string p.windowDecorationsTomlKey),
    .setIn "window" "close_action" (.string p.windowCloseActionTomlKey),
    .setIn "gpu" "fps_limit" (.integer p.fpsLimit.toNat),
    .setIn "window" "in_app_blur_enabled" (.boolean p.inAppBlurEnabled),
    .setIn "window" "in_app_blur_strength" (.float (env.asF64 p.inAppBlurStrength)),
    .setIn "window" "backdrop" (.string p.windowBackdropTomlKey),
    .set "colors_follow_system" (.boolean p.colorsFollowSystem),
    .setIn "font" "ligatures" (.boolean p.fontLigatures),
    .setIn "font" "font_fallbacks" (strings (fontFallbacksList p.fontFallbacksText))]

/-- The shell arguments, the active profile and the security policies. -/
def sessionEdits (p : SettingsPanel) : List Edit :=
  [.setIn "shell" "args" (strings (splitWhitespace p.shellArgs)),
    match p.activeProfileName with
    | some name => .set "active_profile" (.string name)
    | none => .remove "active_profile",
    .setIn "security" "external_url" (.string (consentTomlKey p.secExternalUrl)),
    .setIn "security" "osc52_clipboard" (.string (consentTomlKey p.secOsc52Clipboard)),
    .setIn "security" "osc_notification" (.string (consentTomlKey p.secOscNotification)),
    .setIn "security" "plugin_read" (.string (consentTomlKey p.secPluginRead)),
    .setIn "security" "osc52_max_bytes" (.integer (asI64 p.secOsc52MaxBytes)),
    .setIn "security" "notification_max_bytes" (.integer (asI64 p.secNotificationMaxBytes)),
    .setIn "security" "plugin_read_max_bytes" (.integer (asI64 p.secPluginReadMaxBytes))]

/-- What is written, in this order; the hosts come last. -/
def edits (env : TomlEnv ρ) (p : SettingsPanel) : List Edit :=
  unlessEmpty p.fontFamily (.setIn "font" "family" (.string p.fontFamily)) ++ p.displayEdits env ++
    unlessEmpty p.leaderKey (.set "leader_key" (.string p.leaderKey)) ++
    unlessEmpty p.shellProgram (.setIn "shell" "program" (.string p.shellProgram)) ++
    p.sessionEdits

/-- Edit a document; `none` is a panic. -/
def applyToDoc (env : TomlEnv ρ) (p : SettingsPanel) (doc : Table) : Option Table :=
  (Toml.run (p.edits env) doc).map (writeSshHostsBack · p.sshHosts)

/-- The document that is printed for an existing text; one that does not parse counts as empty. -/
def applyToTomlString (env : TomlEnv ρ) (p : SettingsPanel) (existing : String) : Option Table :=
  p.applyToDoc env ((env.parse existing).getD Table.empty)

end SettingsPanel

/-! ## Managed keys -/

/-- The keys that the panel manages, beside the hosts. -/
def managedNames : List Nested.Name :=
  [(some "font", "family"), (some "font", "size"), (some "colors", "scheme"),
    (some "window", "background_opacity"), (some "window", "padding_x"),
    (some "window", "padding_y"), (some "gpu", "present_mode"), (none, "cursor_style"),
    (none, "language"), (none, "auto_check_update"), (some "blocks", "enabled"),
    (some "blocks", "border_width_px"), (some "blocks", "show_exit_code_badge"),
    (some "cursor", "blink_enabled"), (none, "scrollback_lines"),
    (some "tab_bar", "show_tab_number"), (some "tab_bar", "show_new_tab_button"),
    (some "animations", "enabled"), (some "animations", "intensity"),
    (some "window", "decorations"), (some "window", "close_action"), (some "gpu", "fps_limit"),
    (some "window", "in_app_blur_enabled"), (some "window", "in_app_blur_strength"),
    (some "window", "backdrop"), (none, "colors_follow_system"), (some "font", "ligatures"),
    (some "font", "font_fallbacks"), (none, "leader_key"), (some "shell", "program"),
    (some "shell", "args"), (none, "active_profile"), (some "security", "external_url"),
    (some "security", "osc52_clipboard"), (some "security", "osc_notification"),
    (some "security", "plugin_read"), (some "security", "osc52_max_bytes"),
    (some "security", "notification_max_bytes"), (some "security", "plugin_read_max_bytes")]

/-- The sections that the panel writes into. -/
def managedSections : List String :=
  ["font", "colors", "window", "gpu", "blocks", "cursor", "tab_bar", "animations", "shell",
    "security"]

theorem managedNames_separate : managedNames.Pairwise Nested.Separate := by
  decide +kernel

theorem managedNames_sections :
    (∀ n ∈ managedNames, ∀ sec ∈ n.1, sec ∈ managedSections) ∧
      (∀ sec ∈ managedSections, (none, sec) ∉ managedNames) ∧
      (none, "hosts") ∉ managedNames ∧ "hosts" ∉ managedSections := by
  decide +kernel

theorem ne_hosts {n : Nested.Name} (hn : n ∈ managedNames) :
    n ≠ (none, "hosts") ∧ n.1 ≠ some "hosts" := by
  obtain ⟨hsections, -, hhosts, hsec⟩ := managedNames_sections
  constructor
  · rintro rfl
    exact hhosts hn
  · intro heq
    exact hsec (hsections n hn _ heq)

theorem names_displayEdits (env : TomlEnv ρ) (p : SettingsPanel) :
    (p.displayEdits env).map Edit.name = (managedNames.drop 1).take 27 := rfl

theorem names_sessionEdits (p : SettingsPanel) :
    p.sessionEdits.map Edit.name = managedNames.drop 30 := by
  unfold SettingsPanel.sessionEdits
  cases p.activeProfileName <;> rfl

theorem names_edits (env : TomlEnv ρ) (p : SettingsPanel) :
    (p.edits env).map Edit.name =
      (if p.fontFamily = "" then [] else [(some "font", "family")]) ++
        (managedNames.drop 1).take 27 ++ (if p.leaderKey = "" then [] else [(none, "leader_key")]) ++
        (if p.shellProgram = "" then [] else [(some "shell", "program")]) ++
        managedNames.drop 30 := by
  simp only [SettingsPanel.edits, List.map_append, names_displayEdits, names_sessionEdits,
    SettingsPanel.unlessEmpty, apply_ite (List.map Edit.name), List.map_nil, List.map_cons,
    Edit.name]

theorem names_sublist (env : TomlEnv ρ) (p : SettingsPanel) :
    ((p.edits env).map Edit.name).Sublist managedNames := by
  have hone : ∀ (c : Prop) [Decidable c] (n : Nested.Name),
      (if c then [] else [n]).Sublist [n] := by
    intro c _ n
    split
    · exact List.nil_sublist _
    · exact List.Sublist.refl _
  rw [names_edits]
  exact ((((hone _ _).append (.refl _)).append (hone _ _)).append (hone _ _)).append
    (.refl (managedNames.drop 30))

/-- The keys that are written in any case. -/
def fixedNames : List Nested.Name := (managedNames.drop 1).take 27 ++ managedNames.drop 30

theorem fixedNames_sublist (env : TomlEnv ρ) (p : SettingsPanel) :
    fixedNames.Sublist ((p.edits env).map Edit.name) := by
  rw [names_edits, fixedNames, List.append_assoc, List.append_assoc, List.append_assoc]
  refine List.sublist_append_of_sublist_right (.append (.refl _) ?_)
  exact List.sublist_append_of_sublist_right (List.sublist_append_right _ _)

theorem exists_fixed {sec : String} (hsec : sec ∈ managedSections) :
    ∃ n ∈ fixedNames, n.1 = some sec := by
  have hwritten : ∀ sec ∈ managedSections, ∃ n ∈ fixedNames, n.1 = some sec := by
    decide +kernel
  exact hwritten sec hsec

theorem names_separate (env : TomlEnv ρ) (p : SettingsPanel) :
    ((p.edits env).map Edit.name).Pairwise Nested.Separate :=
  managedNames_separate.sublist (names_sublist env p)

/-- Every section that the panel writes into is missing or a table. -/
def Fits (doc : Table) : Prop := ∀ sec ∈ managedSections, doc.isSection sec = true

theorem fits_iff (env : TomlEnv ρ) (p : SettingsPanel) (doc : Table) :
    (p.edits env).all (·.fits doc) = true ↔ Fits doc := by
  have hfits : (p.edits env).all (·.fits doc) =
      ((p.edits env).map Edit.name).all fun n => n.1.all doc.isSection := by
    rw [List.all_map]
    rfl
  rw [hfits, List.all_eq_true]
  constructor
  · intro h sec hsec
    obtain ⟨n, hn, hname⟩ := exists_fixed hsec
    have hall := h n ((fixedNames_sublist env p).subset hn)
    rwa [hname] at hall
  · intro h n hn
    rw [Option.all_eq_true]
    intro sec hsec
    exact h sec (managedNames_sections.1 n ((names_sublist env p).subset hn) sec hsec)

/-- A document is saved without a panic if and only if the sections are tables. -/
theorem isSome_applyToDoc (env : TomlEnv ρ) (p : SettingsPanel) (doc : Table) :
    (p.applyToDoc env doc).isSome = true ↔ Fits doc := by
  rw [← fits_iff env p, SettingsPanel.applyToDoc, Toml.run_eq (names_separate env p),
    Option.isSome_map]
  split <;> simp_all

section

variable {env : TomlEnv ρ} {p : SettingsPanel} {doc saved : Table}
  (h : p.applyToDoc env doc = some saved)

include h

theorem read_of_ne_hosts {n : Nested.Name} (hn : n ≠ (none, "hosts")) (hsec : n.1 ≠ some "hosts")
    {doc₁ : Table} (hrun : Toml.run (p.edits env) doc = some doc₁) :
    saved.read n = doc₁.read n := by
  rw [SettingsPanel.applyToDoc, hrun] at h
  obtain rfl := Option.some.inj h
  refine Table.read_congr ?_ ?_
  · exact fun htop => if_neg fun heq => hn (Prod.ext htop heq)
  · exact fun sec hname => if_neg fun heq => hsec (by rw [hname, heq])

theorem exists_run : ∃ doc₁, Toml.run (p.edits env) doc = some doc₁ := by
  obtain ⟨doc₁, hrun, -⟩ := Option.map_eq_some_iff.1 h
  exact ⟨doc₁, hrun⟩

/-- What is written. -/
theorem read_written {e : Edit} (he : e ∈ p.edits env) : saved.read e.name = e.value := by
  obtain ⟨doc₁, hrun⟩ := exists_run h
  have hmem := (names_sublist env p).subset (List.mem_map_of_mem he)
  rw [read_of_ne_hosts h (ne_hosts hmem).1 (ne_hosts hmem).2 hrun,
    Toml.read_run (names_separate env p) hrun he]

/-- What is not managed is as it was. -/
theorem read_unmanaged {n : Nested.Name} (hn : ∀ m ∈ managedNames, Nested.Separate m n)
    (hhosts : n ≠ (none, "hosts")) (hsec : n.1 ≠ some "hosts") : saved.read n = doc.read n := by
  obtain ⟨doc₁, hrun⟩ := exists_run h
  rw [read_of_ne_hosts h hhosts hsec hrun]
  exact Toml.read_run_of_separate (names_separate env p) hrun fun m hm =>
    hn m ((names_sublist env p).subset hm)

/-- A key at the top that is not managed. -/
theorem read_top {key : String} (hkey : (none, key) ∉ managedNames) (hsec : key ∉ managedSections)
    (hhosts : key ≠ "hosts") : saved key = doc key := by
  refine read_unmanaged (n := (none, key)) h ?_ (fun heq => hhosts (congrArg Prod.snd heq))
    (fun heq => nomatch heq)
  intro m hm
  exact ⟨fun heq => hkey (heq ▸ hm), fun _ heq => hsec (managedNames_sections.1 m hm key heq),
    fun _ heq => nomatch heq⟩

/-- A key of a section that is not managed. -/
theorem read_section {sec key : String} (hsec : sec ∈ managedSections)
    (hkey : (some sec, key) ∉ managedNames) :
    saved.read (some sec, key) = doc.read (some sec, key) := by
  obtain ⟨-, htop, -, hhosts⟩ := managedNames_sections
  refine read_unmanaged (n := (some sec, key)) h ?_ (fun heq => nomatch congrArg Prod.fst heq)
    (fun heq => hhosts (Option.some.inj heq ▸ hsec))
  intro m hm
  refine ⟨fun heq => hkey (heq ▸ hm), ?_, fun hm₁ heq => ?_⟩
  · rintro ⟨⟩
  have hm₂ : m = (none, sec) := Prod.ext hm₁ (Option.some.inj heq).symm
  exact htop sec hsec (hm₂ ▸ hm)

/-- The hosts. -/
theorem hosts_written :
    saved "hosts" = some (.arrayOfTables (writeRows p.sshHosts (arrayRows (doc "hosts")))) := by
  obtain ⟨doc₁, hrun⟩ := exists_run h
  have hsep : ∀ m ∈ managedNames, Nested.Separate m (none, "hosts") := fun m hm =>
    ⟨(ne_hosts hm).1, fun _ => (ne_hosts hm).2, fun _ heq => nomatch heq⟩
  have hsame : doc₁ "hosts" = doc "hosts" :=
    Toml.read_run_of_separate (n := (none, "hosts")) (names_separate env p) hrun fun m hm =>
      hsep m ((names_sublist env p).subset hm)
  rw [SettingsPanel.applyToDoc, hrun] at h
  obtain rfl := Option.some.inj h
  rw [← hsame]
  exact Table.insert_self _ _ _

end

/-! ## What is not managed -/

/-- Every key and table that the panel does not manage has the value it had. -/
structure Frame (p : SettingsPanel) (doc saved : Table) : Prop where
  top : ∀ key, (none, key) ∉ managedNames → key ∉ managedSections → key ≠ "hosts" →
    saved key = doc key
  section_ : ∀ sec ∈ managedSections, ∀ key, (some sec, key) ∉ managedNames →
    saved.read (some sec, key) = doc.read (some sec, key)
  rows : ∀ rows rows', hostRows (doc "hosts") = some rows → hostRows (saved "hosts") = some rows' →
    ∀ j < p.sshHosts.length, unmanaged (rowAt rows' j) = unmanaged (rowAt rows j)

/-- Saving into this text is safe: no panic where the loader accepts it, what is not managed is
    kept, and a text that does not parse is not replaced by what an empty one gives. -/
structure SavesWell (env : TomlEnv ρ) (p : SettingsPanel) (text : String) : Prop where
  returns : ∀ doc, env.parse text = some doc → (loadConfig env doc).isSome = true →
    (p.applyToTomlString env text).isSome = true
  frame : ∀ doc saved, env.parse text = some doc → p.applyToTomlString env text = some saved →
    Frame p doc saved
  unparsable : env.parse text = none → p.applyToTomlString env text ≠ p.applyToTomlString env ""

/-- The hosts are an array of tables, or the rows that are rebuilt have only managed keys. -/
def HostsFit (p : SettingsPanel) (doc : Table) : Prop :=
  (∃ rows, doc "hosts" = some (.arrayOfTables rows)) ∨
    ∀ rows, hostRows (doc "hosts") = some rows →
      ∀ j < p.sshHosts.length, unmanaged (rowAt rows j) = Table.empty

theorem unmanaged_empty : unmanaged Table.empty = Table.empty := by
  ext1 key
  simp [unmanaged, Table.empty]

theorem unmanaged_written (p : SettingsPanel) (arr : List Table) {j : ℕ}
    (hj : j < p.sshHosts.length) :
    unmanaged (rowAt (writeRows p.sshHosts arr) j) = unmanaged (rowAt arr j) := by
  rw [rowAt_writeRows (List.getElem?_eq_getElem hj), unmanaged_writeHost]

/-- What is not an array of tables is rebuilt from nothing. -/
theorem arrayRows_cases (item : Option Item) :
    (∃ rows, item = some (.arrayOfTables rows)) ∨ arrayRows item = [] := by
  unfold arrayRows
  split
  · exact .inl ⟨_, rfl⟩
  · exact .inr rfl

theorem frame_iff {env : TomlEnv ρ} {p : SettingsPanel} {doc saved : Table}
    (h : p.applyToDoc env doc = some saved) : Frame p doc saved ↔ HostsFit p doc := by
  have hrows' : hostRows (saved "hosts") =
      some (writeRows p.sshHosts (arrayRows (doc "hosts"))) := by
    rw [hosts_written h]
    rfl
  constructor
  · intro hframe
    rcases arrayRows_cases (doc "hosts") with harray | hnone
    · exact .inl harray
    · refine .inr fun rows hrows j hj => ?_
      rw [← hframe.rows rows _ hrows hrows' j hj, unmanaged_written p _ hj, hnone]
      exact unmanaged_empty
  · intro hfit
    refine ⟨?_, ?_, ?_⟩
    · exact fun key => read_top h
    · exact fun sec hsec key => read_section h hsec
    · intro rows rows' hrows hrows'' j hj
      obtain rfl := Option.some.inj (hrows'.symm.trans hrows'')
      rw [unmanaged_written p _ hj]
      rcases arrayRows_cases (doc "hosts") with ⟨rows₀, hdoc⟩ | hnone
      · rw [hdoc] at hrows ⊢
        obtain rfl := Option.some.inj hrows
        rfl
      · rcases hfit with ⟨rows₀, hdoc⟩ | hempty
        · rw [hdoc] at hrows ⊢
          obtain rfl := Option.some.inj hrows
          rfl
        · rw [hempty rows hrows j hj, hnone]
          exact unmanaged_empty

/-- Saving is safe if and only if the text parses, the sections of a text that the loader accepts
    are tables, and the hosts are an array of tables, unless rebuilding them loses nothing. -/
theorem save_keeps_rest_iff (env : TomlEnv ρ) (p : SettingsPanel) (text : String) :
    SavesWell env p text ↔ ∃ doc, env.parse text = some doc ∧
      ((loadConfig env doc).isSome = true → Fits doc) ∧ (Fits doc → HostsFit p doc) := by
  constructor
  · intro h
    cases hparse : env.parse text with
    | none =>
      refine absurd ?_ (h.unparsable hparse)
      rw [SettingsPanel.applyToTomlString, SettingsPanel.applyToTomlString, hparse, env.parse_empty]
      rfl
    | some doc =>
      have happly : p.applyToTomlString env text = p.applyToDoc env doc := by
        rw [SettingsPanel.applyToTomlString, hparse]
        rfl
      refine ⟨doc, rfl, fun hload => ?_, fun hfits => ?_⟩
      · have hsome := h.returns doc hparse hload
        rwa [happly, isSome_applyToDoc] at hsome
      · obtain ⟨saved, hsaved⟩ := Option.isSome_iff_exists.1 ((isSome_applyToDoc env p doc).2 hfits)
        exact (frame_iff hsaved).1 (h.frame doc saved hparse (happly.trans hsaved))
  · rintro ⟨doc, hparse, hload, hhosts⟩
    have happly : p.applyToTomlString env text = p.applyToDoc env doc := by
      rw [SettingsPanel.applyToTomlString, hparse]
      rfl
    refine ⟨?_, ?_, fun hnone => absurd (hnone.symm.trans hparse) nofun⟩
    · intro doc₁ hparse₁ hload₁
      obtain rfl := Option.some.inj (hparse.symm.trans hparse₁)
      rw [happly, isSome_applyToDoc]
      exact hload hload₁
    · intro doc₁ saved hparse₁ hsaved
      obtain rfl := Option.some.inj (hparse.symm.trans hparse₁)
      rw [happly] at hsaved
      exact (frame_iff hsaved).2 (hhosts ((isSome_applyToDoc env p doc).1 (by rw [hsaved]; rfl)))

/-- A parser that knows two texts. -/
def colorsEnv : TomlEnv Unit :=
  { parse := fun text =>
      if text = "" then some Table.empty
      else if text = "colors = 'tokyonight'" then
        some (Table.empty.insert "colors" (.string "tokyonight"))
      else none
    parse_empty := if_pos rfl
    asF64 := UInt32.toUInt64
    asF32 := UInt64.toUInt32
    asF32_asF64 := UInt32.toUInt32_toUInt64
    ofInt := fun n => UInt32.ofNat n.toNat
    defaultShell := { program := "/bin/sh", args := [] }
    defaultDecorations := .noTitle
    extra := fun _ _ => some ()
    others := fun _ => some
      { keys := [], profiles := [], rest := ()
        log := { autoLog := false, logDir := none, timestamp := false, stripAnsi := false,
                 fileNameTemplate := none, binaryLog := false }
        hooks := { onPaneOpen := none, onPaneClose := none, onSessionStart := none,
                   onAttach := none, onDetach := none, luaOnPaneOpen := none,
                   luaOnPaneClose := none, luaOnSessionStart := none, luaOnAttach := none,
                   luaOnDetach := none } } }

/-- The panel of the default configuration. -/
def defaultPanel : SettingsPanel :=
  ((loadConfig colorsEnv Table.empty).map SettingsPanel.ofConfig).get (by decide +kernel)

/-- A scheme given as a string is loaded, and saving panics; what does not parse is erased. -/
theorem not_saves_well_string :
    ((colorsEnv.parse "colors = 'tokyonight'").bind (loadConfig colorsEnv)).isSome = true ∧
      (defaultPanel.applyToTomlString colorsEnv "colors = 'tokyonight'").isSome = false ∧
      colorsEnv.parse "[font" = none ∧
      (defaultPanel.applyToTomlString colorsEnv "[font").isSome = true ∧
      defaultPanel.applyToTomlString colorsEnv "[font" =
        defaultPanel.applyToTomlString colorsEnv "" ∧
      ¬ SavesWell colorsEnv defaultPanel "colors = 'tokyonight'" := by
  have hparse : colorsEnv.parse "colors = 'tokyonight'" =
      some (Table.empty.insert "colors" (.string "tokyonight")) := rfl
  have hruns : ((colorsEnv.parse "colors = 'tokyonight'").bind
        (loadConfig colorsEnv)).isSome = true ∧
      (defaultPanel.applyToTomlString colorsEnv "colors = 'tokyonight'").isSome = false ∧
      (defaultPanel.applyToTomlString colorsEnv "[font").isSome = true := by
    decide +kernel
  obtain ⟨hload, hpanic, herased⟩ := hruns
  refine ⟨hload, hpanic, rfl, herased, rfl, fun h => ?_⟩
  have hsome := h.returns _ hparse hload
  rw [hpanic] at hsome
  exact nomatch hsome

end Nexterm.Settings

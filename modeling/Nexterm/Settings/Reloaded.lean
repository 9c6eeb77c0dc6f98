/-
  What is loaded from a saved document (`settings/save.rs`, `nexterm-config`).

  * `fields`, `asStruct_of_isSection`: the sections that the panel writes into.
  * `field_written`, `field_kept`: the keys of a section after saving.
  * `variant_*`: the names that the panel writes are those that the loader reads.
  * `reloaded`: a configuration with the values of a panel; `loadConfig_saved`: it is what is loaded
    after saving.
-/
import Nexterm.Settings.Save

namespace Nexterm.Settings

open Toml (Table Item Edit)

variable {ρ : Type}

/-! ## Sections -/

/-- The keys of a section; a missing one has none. -/
def fields (t : Table) (sec : String) : Table := (t.section? sec).getD Table.empty

theorem fields_apply (t : Table) (sec key : String) : fields t sec key = t.read (some sec, key) := by
  show (t.section? sec).getD Table.empty key = (t.section? sec).bind (· key)
  cases t.section? sec <;> rfl

theorem asStruct_of_isSection {t : Table} {sec : String} (h : t.isSection sec = true)
    (order : List String) : asStruct order (t sec) = some (fields t sec) := by
  unfold Table.isSection at h
  unfold fields Table.section?
  generalize t sec = item at h ⊢
  rcases item with _ | item
  · rfl
  · cases item with
    | table | inlineTable => rfl
    | _ => exact absurd h Bool.false_ne_true

theorem isSection_of_read {t : Table} {sec key : String} {v : Item}
    (h : t.read (some sec, key) = some v) : t.isSection sec = true := by
  obtain ⟨section_, hsec, -⟩ := Option.bind_eq_some_iff.1 h
  obtain ⟨item, hitem, hfields⟩ := Option.bind_eq_some_iff.1 hsec
  rw [Table.isSection, hitem, Option.all_some, hfields]
  rfl

/-! ## Keys -/

/-- The edits that always write a value. -/
def fixedEdits (env : TomlEnv ρ) (p : SettingsPanel) : List Edit :=
  p.displayEdits env ++ p.sessionEdits.eraseIdx 1

theorem mem_edits {env : TomlEnv ρ} {p : SettingsPanel} {e : Edit} (he : e ∈ fixedEdits env p) :
    e ∈ p.edits env := by
  simp only [SettingsPanel.edits, List.mem_append]
  rcases List.mem_append.1 he with hdisplay | hsession
  · exact .inl (.inl (.inl (.inr hdisplay)))
  · exact .inr (List.mem_of_mem_eraseIdx hsession)

section

variable {env : TomlEnv ρ} {p : SettingsPanel} {doc saved : Table}
  (h : p.applyToDoc env doc = some saved)

include h

/-- The value that is written under a key in any case. -/
theorem read_fixed {n : Nested.Name} {v : Item}
    (hv : ((fixedEdits env p).find? (·.name = n)).bind Edit.value = some v) :
    saved.read n = some v := by
  obtain ⟨e, hfind, hvalue⟩ := Option.bind_eq_some_iff.1 hv
  have hname : e.name = n := by simpa using List.find?_some hfind
  rw [← hname, read_written h (mem_edits (List.mem_of_find?_eq_some hfind)), hvalue]

/-- A key that is only written for a text that is not empty. -/
theorem read_unlessEmpty {text : String} {e : Edit} {n : Nested.Name} (he : e.name = n)
    (hmanaged : n ∈ managedNames) (hmem : text ≠ "" → e ∈ p.edits env)
    (hnot : text = "" → n ∉ (p.edits env).map Edit.name) :
    saved.read n = if text = "" then doc.read n else e.value := by
  subst he
  split
  · rename_i hempty
    obtain ⟨doc₁, hrun⟩ := exists_run h
    rw [read_of_ne_hosts h (ne_hosts hmanaged).1 (ne_hosts hmanaged).2 hrun]
    refine Toml.read_run_of_separate (names_separate env p) hrun fun m hm => ?_
    refine managedNames_separate.forall ((names_sublist env p).subset hm) hmanaged ?_
    rintro rfl
    exact hnot hempty hm
  · rename_i hne
    exact read_written h (hmem hne)

theorem read_family : saved.read (some "font", "family") =
    if p.fontFamily = "" then doc.read (some "font", "family") else some (.string p.fontFamily) := by
  refine read_unlessEmpty (e := .setIn "font" "family" (.string p.fontFamily)) h rfl
    (by simp [managedNames]) (fun hne => ?_) (fun hempty => ?_)
  · simp [SettingsPanel.edits, SettingsPanel.unlessEmpty, hne]
  · rw [names_edits, if_pos hempty]
    split_ifs <;> simp [managedNames]

theorem read_leaderKey : saved "leader_key" =
    if p.leaderKey = "" then doc "leader_key" else some (.string p.leaderKey) := by
  refine read_unlessEmpty (e := .set "leader_key" (.string p.leaderKey)) (n := (none, "leader_key"))
    h rfl (by simp [managedNames]) (fun hne => ?_) (fun hempty => ?_)
  · simp [SettingsPanel.edits, SettingsPanel.unlessEmpty, hne]
  · rw [names_edits, if_pos hempty]
    split_ifs <;> simp [managedNames]

theorem read_program : saved.read (some "shell", "program") =
    if p.shellProgram = "" then doc.read (some "shell", "program")
    else some (.string p.shellProgram) := by
  refine read_unlessEmpty (e := .setIn "shell" "program" (.string p.shellProgram)) h rfl
    (by simp [managedNames]) (fun hne => ?_) (fun hempty => ?_)
  · simp [SettingsPanel.edits, SettingsPanel.unlessEmpty, hne]
  · rw [names_edits, if_pos hempty]
    split_ifs <;> simp [managedNames]

theorem fits_saved : Fits saved := by
  intro sec hsec
  obtain ⟨⟨_, key⟩, hn, rfl⟩ := exists_fixed hsec
  obtain ⟨e, he, hname⟩ := List.mem_map.1 ((fixedNames_sublist env p).subset hn)
  have hread := read_written h he
  rw [hname] at hread
  cases e with
  | set | remove => exact nomatch hname
  | setIn sec' key' v => exact isSection_of_read hread

variable {α : Type} (sec key : String) (dec : Item → Option α) (dflt : α)

theorem field_fixed {v : Item}
    (hv : ((fixedEdits env p).find? (·.name = (some sec, key))).bind Edit.value = some v) :
    (fields saved sec).field key dec dflt = dec v := by
  rw [Table.field, fields_apply, read_fixed h hv]
  rfl

theorem field_kept (hsec : sec ∈ managedSections) (hkey : (some sec, key) ∉ managedNames) :
    (fields saved sec).field key dec dflt = (fields doc sec).field key dec dflt := by
  rw [Table.field, fields_apply, read_section h hsec hkey, Table.field, fields_apply]

/-- The other fields of a section. -/
theorem without_kept {keys : List String} (hsec : sec ∈ managedSections)
    (hkeys : ∀ n ∈ managedNames, n.1 = some sec → n.2 ∈ keys) :
    (fields saved sec).without keys = (fields doc sec).without keys := by
  ext1 k
  unfold Table.without
  split
  · rfl
  · rename_i hk
    rw [fields_apply, fields_apply, read_section h hsec fun hmem => hk (hkeys _ hmem rfl)]

theorem top_fixed {v : Item}
    (hv : ((fixedEdits env p).find? (·.name = (none, key))).bind Edit.value = some v) :
    saved.field key dec dflt = dec v := by
  have hread : saved key = some v := read_fixed (n := (none, key)) h hv
  rw [Table.field, hread]
  rfl

end

/-! ## Values -/

section

variable (p : SettingsPanel)

theorem variant_presentMode :
    variant PresentModeConfig (.string p.presentModeTomlKey) = some p.presentMode := by
  unfold SettingsPanel.presentModeTomlKey
  cases p.presentMode <;> rfl

theorem variant_cursorStyle :
    variant CursorStyle (.string p.cursorStyleTomlKey) = some p.cursorStyle := by
  unfold SettingsPanel.cursorStyleTomlKey
  cases p.cursorStyle <;> rfl

theorem load_animationsEnabled :
    AnimationsEnabled.load p.animationsEnabledTomlValue = some p.animationsEnabled := by
  unfold SettingsPanel.animationsEnabledTomlValue
  cases p.animationsEnabled <;> rfl

theorem variant_animationsIntensity :
    variant AnimationIntensity (.string p.animationsIntensityTomlKey) =
      some p.animationsIntensity := by
  unfold SettingsPanel.animationsIntensityTomlKey
  cases p.animationsIntensity <;> rfl

theorem variant_windowDecorations :
    variant WindowDecorations (.string p.windowDecorationsTomlKey) = some p.windowDecorations := by
  unfold SettingsPanel.windowDecorationsTomlKey
  cases p.windowDecorations <;> rfl

theorem variant_windowCloseAction :
    variant CloseAction (.string p.windowCloseActionTomlKey) = some p.windowCloseAction := by
  unfold SettingsPanel.windowCloseActionTomlKey
  cases p.windowCloseAction <;> rfl

theorem variant_windowBackdrop :
    variant WindowBackdrop (.string p.windowBackdropTomlKey) = some p.windowBackdrop := by
  unfold SettingsPanel.windowBackdropTomlKey
  cases p.windowBackdrop <;> rfl

end

theorem variant_consent (policy : ConsentPolicy) :
    variant ConsentPolicy (.string (SettingsPanel.consentTomlKey policy)) = some policy := by
  cases policy <;> rfl

theorem asU8_toNat (n : UInt8) : asU8 (.integer n.toNat) = some n := by
  rw [asU8, Item.asNat_ofNat n.toNat_lt, Option.map_some, UInt8.ofNat_toNat]

theorem asU16_toNat (n : UInt16) : asU16 (.integer n.toNat) = some n := by
  rw [asU16, Item.asNat_ofNat n.toNat_lt, Option.map_some, UInt16.ofNat_toNat]

theorem asU32_toNat (n : UInt32) : asU32 (.integer n.toNat) = some n := by
  rw [asU32, Item.asNat_ofNat n.toNat_lt, Option.map_some, UInt32.ofNat_toNat]

/-- A size below the largest `i64` is written as it is. -/
theorem asUsize_asI64 {n : ℕ} (h : n < 2 ^ 63) :
    asUsize (.integer (SettingsPanel.asI64 n)) = some n := by
  have hfit : SettingsPanel.asI64 n = n := by
    unfold SettingsPanel.asI64
    exact Int.bmod_eq_of_le (by omega) (by omega)
  rw [hfit]
  exact Item.asNat_ofNat h

theorem f32_asF64 (env : TomlEnv ρ) (x : F32) : env.f32 (.float (env.asF64 x)) = some x :=
  congrArg some (env.asF32_asF64 x)

theorem asStrings_strings (l : List String) : (SettingsPanel.strings l).asStrings = some l :=
  Item.asStrings_map_string l

/-! ## The sections after saving -/

section

variable {env : TomlEnv ρ} {p : SettingsPanel} {doc saved : Table}
  (h : p.applyToDoc env doc = some saved)

include h

theorem load_font {font : FontConfig} (hload : FontConfig.load env (fields doc "font") = some font) :
    FontConfig.load env (fields saved "font") = some
      { family := if p.fontFamily = "" then font.family else p.fontFamily
        size := p.fontSize
        ligatures := p.fontLigatures
        fontFallbacks := SettingsPanel.fontFallbacksList p.fontFallbacksText } := by
  simp only [FontConfig.load, Option.bind_eq_bind, Option.bind_eq_some_iff] at hload
  obtain ⟨family, hfamily, _, -, _, -, _, -, hfont⟩ := hload
  obtain rfl := Option.some.inj hfont
  have hfamily' : (fields saved "font").field "family" Item.asString "monospace" =
      some (if p.fontFamily = "" then family else p.fontFamily) := by
    rw [Table.field, fields_apply] at hfamily ⊢
    rw [read_family h]
    split
    · exact hfamily
    · rfl
  rw [FontConfig.load, hfamily', field_fixed h "font" "size" _ _ rfl,
    field_fixed h "font" "ligatures" _ _ rfl, field_fixed h "font" "font_fallbacks" _ _ rfl,
    f32_asF64, asStrings_strings]
  rfl

theorem load_colors :
    ColorScheme.load (saved "colors") = some
      (.builtin (BuiltinScheme.all.getD (p.schemeIndex % BuiltinScheme.all.length) .dark)) := by
  have hscheme : saved.read (some "colors", "scheme") = some (.string p.schemeName) :=
    read_fixed h rfl
  obtain ⟨entries, hsec, hentry⟩ := Option.bind_eq_some_iff.1 hscheme
  obtain ⟨item, hitem, hfields⟩ := Option.bind_eq_some_iff.1 hsec
  have hparse : parseBuiltinScheme p.schemeName =
      BuiltinScheme.all.getD (p.schemeIndex % BuiltinScheme.all.length) .dark := by
    rw [parseBuiltinScheme, SettingsPanel.schemeName, BuiltinScheme.fromTomlName_tomlName]
    rfl
  rw [hitem, ← hparse]
  cases item with
  | table | inlineTable =>
    obtain rfl := Option.some.inj hfields
    simp [ColorScheme.load, Item.fields, hentry]
  | _ => exact nomatch hfields

theorem load_shell {shell : ShellConfig}
    (hload : ShellConfig.load env (fields doc "shell") = some shell) :
    ShellConfig.load env (fields saved "shell") = some
      { program := if p.shellProgram = "" then shell.program else p.shellProgram
        args := SettingsPanel.splitWhitespace p.shellArgs } := by
  simp only [ShellConfig.load, Option.bind_eq_bind, Option.bind_eq_some_iff] at hload
  obtain ⟨program, hprogram, _, -, hshell⟩ := hload
  obtain rfl := Option.some.inj hshell
  have hprogram' : (fields saved "shell").field "program" Item.asString env.defaultShell.program =
      some (if p.shellProgram = "" then program else p.shellProgram) := by
    rw [Table.field, fields_apply] at hprogram ⊢
    rw [read_program h]
    split
    · exact hprogram
    · rfl
  rw [ShellConfig.load, hprogram', field_fixed h "shell" "args" _ _ rfl, asStrings_strings]
  rfl

theorem load_window {window : WindowConfig ρ}
    (hload : WindowConfig.load env (fields doc "window") = some window) :
    WindowConfig.load env (fields saved "window") = some
      { backgroundOpacity := finiteOr p.opacity 0x3F733333
        backdrop := p.windowBackdrop
        decorations := p.windowDecorations
        paddingX := p.paddingX
        paddingY := p.paddingY
        closeAction := p.windowCloseAction
        inAppBlurEnabled := p.inAppBlurEnabled
        inAppBlurStrength := p.inAppBlurStrength
        rest := window.rest } := by
  simp only [WindowConfig.load, Option.bind_eq_bind, Option.bind_eq_some_iff] at hload
  obtain ⟨_, -, _, -, _, -, _, -, _, -, _, -, _, -, _, -, rest, hrest, hwindow⟩ := hload
  obtain rfl := Option.some.inj hwindow
  rw [WindowConfig.load, field_fixed h "window" "background_opacity" _ _ rfl,
    field_fixed h "window" "backdrop" _ _ rfl, field_fixed h "window" "decorations" _ _ rfl,
    field_fixed h "window" "padding_x" _ _ rfl, field_fixed h "window" "padding_y" _ _ rfl,
    field_fixed h "window" "close_action" _ _ rfl,
    field_fixed h "window" "in_app_blur_enabled" _ _ rfl,
    field_fixed h "window" "in_app_blur_strength" _ _ rfl,
    without_kept h "window" (by decide) (by decide +kernel), hrest, f32_asF64, f32_asF64,
    variant_windowBackdrop, variant_windowDecorations, variant_windowCloseAction, asU32_toNat,
    asU32_toNat]
  rfl

theorem load_tabBar {tabBar : TabBarConfig}
    (hload : TabBarConfig.load env (fields doc "tab_bar") = some tabBar) :
    TabBarConfig.load env (fields saved "tab_bar") = some
      { tabBar with
        showTabNumber := p.tabShowTabNumber
        showNewTabButton := p.tabShowNewTabButton } := by
  obtain ⟨_, henabled, hload⟩ := Option.bind_eq_some_iff.1 hload
  obtain ⟨_, hheight, hload⟩ := Option.bind_eq_some_iff.1 hload
  obtain ⟨_, hactive, hload⟩ := Option.bind_eq_some_iff.1 hload
  obtain ⟨_, hinactive, hload⟩ := Option.bind_eq_some_iff.1 hload
  obtain ⟨_, hseparator, hload⟩ := Option.bind_eq_some_iff.1 hload
  obtain ⟨_, hactivity, hload⟩ := Option.bind_eq_some_iff.1 hload
  obtain ⟨_, haccent, hload⟩ := Option.bind_eq_some_iff.1 hload
  obtain ⟨_, -, hload⟩ := Option.bind_eq_some_iff.1 hload
  obtain ⟨_, hbrightness, hload⟩ := Option.bind_eq_some_iff.1 hload
  obtain ⟨_, hhover, hload⟩ := Option.bind_eq_some_iff.1 hload
  obtain ⟨_, hhide, hload⟩ := Option.bind_eq_some_iff.1 hload
  obtain ⟨_, -, hload⟩ := Option.bind_eq_some_iff.1 hload
  obtain ⟨_, hprocess, hload⟩ := Option.bind_eq_some_iff.1 hload
  obtain rfl := Option.some.inj hload
  have hkept : ∀ key, (some "tab_bar", key) ∉ managedNames → ∀ {α : Type}
      (dec : Item → Option α) (dflt : α), (fields saved "tab_bar").field key dec dflt =
        (fields doc "tab_bar").field key dec dflt :=
    fun key hkey _ dec dflt => field_kept h "tab_bar" key dec dflt (by decide) hkey
  rw [TabBarConfig.load, field_fixed h "tab_bar" "show_tab_number" _ _ rfl,
    field_fixed h "tab_bar" "show_new_tab_button" _ _ rfl, hkept "enabled" (by simp [managedNames]),
    hkept "height" (by simp [managedNames]), hkept "active_tab_bg" (by simp [managedNames]),
    hkept "inactive_tab_bg" (by simp [managedNames]), hkept "separator" (by simp [managedNames]),
    hkept "activity_tab_bg" (by simp [managedNames]), hkept "active_accent_color" (by simp [managedNames]),
    hkept "inactive_text_brightness" (by simp [managedNames]),
    hkept "hover_highlight" (by simp [managedNames]), hkept "hide_when_single" (by simp [managedNames]),
    hkept "show_process_icon" (by simp [managedNames]), henabled, hheight, hactive, hinactive,
    hseparator, hactivity, haccent, hbrightness, hhover, hhide, hprocess]
  rfl

/-- A section that was missing has an atlas size from now on. -/
theorem load_gpu {gpu : GpuConfig ρ}
    (hload : GpuConfig.load env (doc "gpu").isNone (fields doc "gpu") = some gpu) :
    GpuConfig.load env false (fields saved "gpu") = some
      { gpu with
        fpsLimit := p.fpsLimit
        atlasSize := if (doc "gpu").isNone then 2048 else gpu.atlasSize
        presentMode := p.presentMode } := by
  simp only [GpuConfig.load, Option.bind_eq_bind, Option.bind_eq_some_iff] at hload
  obtain ⟨_, -, atlasSize, hatlas, _, -, rest, hrest, hgpu⟩ := hload
  obtain rfl := Option.some.inj hgpu
  have hatlas' : (fields doc "gpu").field "atlas_size" asU32 2048 =
      some (if (doc "gpu").isNone then 2048 else atlasSize) := by
    cases hgpu : doc "gpu" with
    | none =>
      rw [fields, Table.section?, hgpu]
      rfl
    | some item =>
      rw [hgpu] at hatlas
      exact hatlas
  rw [GpuConfig.load, field_fixed h "gpu" "fps_limit" _ _ rfl,
    field_fixed h "gpu" "present_mode" _ _ rfl,
    without_kept h "gpu" (by decide) (by decide +kernel), hrest, asU32_toNat,
    field_kept h "gpu" "atlas_size" _ _ (by decide) (by simp [managedNames]), variant_presentMode]
  simp only [Bool.false_eq_true, if_false, hatlas']
  rfl

theorem load_cursor {cursor : CursorConfig}
    (hload : CursorConfig.load (fields doc "cursor") = some cursor) :
    CursorConfig.load (fields saved "cursor") = some
      { cursor with blinkEnabled := p.cursorBlinkEnabled } := by
  simp only [CursorConfig.load, Option.bind_eq_bind, Option.bind_eq_some_iff] at hload
  obtain ⟨_, -, _, hinterval, _, hsmooth, hcursor⟩ := hload
  obtain rfl := Option.some.inj hcursor
  rw [CursorConfig.load, field_fixed h "cursor" "blink_enabled" _ _ rfl,
    field_kept h "cursor" "blink_interval_ms" _ _ (by decide) (by simp [managedNames]),
    field_kept h "cursor" "smooth_motion" _ _ (by decide) (by simp [managedNames]), hinterval, hsmooth]
  rfl

theorem load_security (hosc52 : p.secOsc52MaxBytes < 2 ^ 63)
    (hnotification : p.secNotificationMaxBytes < 2 ^ 63)
    (hplugin : p.secPluginReadMaxBytes < 2 ^ 63) :
    SecurityConfig.load (fields saved "security") = some
      { externalUrl := p.secExternalUrl
        osc52Clipboard := p.secOsc52Clipboard
        oscNotification := p.secOscNotification
        osc52MaxBytes := p.secOsc52MaxBytes
        notificationMaxBytes := p.secNotificationMaxBytes
        pluginRead := p.secPluginRead
        pluginReadMaxBytes := p.secPluginReadMaxBytes } := by
  rw [SecurityConfig.load, field_fixed h "security" "external_url" _ _ rfl,
    field_fixed h "security" "osc52_clipboard" _ _ rfl,
    field_fixed h "security" "osc_notification" _ _ rfl,
    field_fixed h "security" "osc52_max_bytes" _ _ rfl,
    field_fixed h "security" "notification_max_bytes" _ _ rfl,
    field_fixed h "security" "plugin_read" _ _ rfl,
    field_fixed h "security" "plugin_read_max_bytes" _ _ rfl, variant_consent, variant_consent,
    variant_consent, variant_consent, asUsize_asI64 hosc52, asUsize_asI64 hnotification,
    asUsize_asI64 hplugin]
  rfl

theorem load_animations :
    AnimationsConfig.load (fields saved "animations") = some
      { enabled := p.animationsEnabled, intensity := p.animationsIntensity } := by
  rw [AnimationsConfig.load, field_fixed h "animations" "enabled" _ _ rfl,
    field_fixed h "animations" "intensity" _ _ rfl, load_animationsEnabled,
    variant_animationsIntensity]
  rfl

theorem load_blocks :
    BlocksConfig.load (fields saved "blocks") = some
      { enabled := p.blocksEnabled
        borderWidthPx := p.blocksBorderWidthPx
        showExitCodeBadge := p.blocksShowExitCodeBadge } := by
  rw [BlocksConfig.load, field_fixed h "blocks" "enabled" _ _ rfl,
    field_fixed h "blocks" "border_width_px" _ _ rfl,
    field_fixed h "blocks" "show_exit_code_badge" _ _ rfl, asU8_toNat]
  rfl

theorem load_leaderKey {leaderKey : String}
    (hload : doc.field "leader_key" Item.asString "ctrl+b" = some leaderKey) :
    saved.field "leader_key" Item.asString "ctrl+b" =
      some (if p.leaderKey = "" then leaderKey else p.leaderKey) := by
  rw [Table.field] at hload ⊢
  rw [read_leaderKey h]
  split
  · exact hload
  · rfl

theorem load_activeProfile :
    saved.field "active_profile" optionString none = some p.activeProfileName := by
  cases hname : p.activeProfileName with
  | none =>
    have hedit : .remove "active_profile" ∈ p.edits env := by
      simp [SettingsPanel.edits, SettingsPanel.sessionEdits, hname]
    have hread : saved "active_profile" = none := read_written h hedit
    rw [Table.field, hread]
    rfl
  | some name =>
    have hedit : .set "active_profile" (.string name) ∈ p.edits env := by
      simp [SettingsPanel.edits, SettingsPanel.sessionEdits, hname]
    have hread : saved "active_profile" = some (.string name) := read_written h hedit
    rw [Table.field, hread]
    rfl

theorem others_kept : saved.without topKeys = doc.without topKeys := by
  have htop : (∀ n ∈ managedNames, n.1 = none → n.2 ∈ topKeys) ∧
      (∀ sec ∈ managedSections, sec ∈ topKeys) ∧ "hosts" ∈ topKeys := by
    decide +kernel
  obtain ⟨hmanaged, hsections, hhosts⟩ := htop
  ext1 key
  unfold Table.without
  split
  · rfl
  · rename_i hkey
    refine read_top h (fun hmem => hkey (hmanaged _ hmem rfl)) (fun hmem => hkey (hsections key hmem))
      ?_
    rintro rfl
    exact hkey hhosts

end

/-! ## Hosts -/

/-- The keys of a host that the panel does not manage are those of `h`. -/
def writeEntry (h : HostConfig) (entry : SshHostEntry) : HostConfig :=
  { h with
    name := entry.name
    host := entry.host
    port := entry.port
    username := entry.username
    authType := entry.authType }

/-- A host with no other keys. -/
def newHost (entry : SshHostEntry) : HostConfig :=
  { name := entry.name, host := entry.host, port := entry.port, username := entry.username,
    authType := entry.authType, keyPath := none, forwardLocal := [], forwardRemote := [],
    proxyJump := none, x11Forward := false, x11Trusted := false, group := "", tags := [] }

/-- The hosts of the panel over the ones that were there, by position. -/
def reloadedHosts : List SshHostEntry → List HostConfig → List HostConfig
  | [], _ => []
  | entry :: entries, [] => newHost entry :: reloadedHosts entries []
  | entry :: entries, h :: hosts => writeEntry h entry :: reloadedHosts entries hosts

theorem writeHost_of_unmanaged (t : Table) (entry : SshHostEntry) {key : String}
    (hkey : key ∉ managedHostKeys) : writeHost t entry key = t key := by
  have h := congrFun (unmanaged_writeHost t entry) key
  rwa [unmanaged, unmanaged, if_neg hkey, if_neg hkey] at h

/-- What is loaded from a written row: the managed keys are those of the panel. -/
theorem load_writeHost_eq (t : Table) (entry : SshHostEntry) :
    HostConfig.load (writeHost t entry) = (do
      let keyPath ← t.field "key_path" optionString none
      let forwardLocal ← t.field "forward_local" Item.asStrings []
      let forwardRemote ← t.field "forward_remote" Item.asStrings []
      let proxyJump ← t.field "proxy_jump" optionString none
      let x11Forward ← t.field "x11_forward" Item.asBool false
      let x11Trusted ← t.field "x11_trusted" Item.asBool false
      let group ← t.field "group" Item.asString ""
      let tags ← t.field "tags" Item.asStrings []
      return { name := entry.name, host := entry.host, port := entry.port,
               username := entry.username, authType := entry.authType, keyPath, forwardLocal,
               forwardRemote, proxyJump, x11Forward, x11Trusted, group, tags }) := by
  have hname : writeHost t entry "name" = some (.string entry.name) := rfl
  have hhost : writeHost t entry "host" = some (.string entry.host) := rfl
  have hport : (writeHost t entry).field "port" asU16 22 = some entry.port := by
    have hread : writeHost t entry "port" = some (.integer entry.port.toNat) := rfl
    rw [Table.field, hread, Option.elim_some, asU16_toNat]
  have husername : writeHost t entry "username" = some (.string entry.username) := rfl
  have hauth : (writeHost t entry).field "auth_type" Item.asString "key" = some entry.authType :=
    rfl
  have hkept : ∀ key ∉ managedHostKeys, ∀ {α : Type} (dec : Item → Option α) (dflt : α),
      (writeHost t entry).field key dec dflt = t.field key dec dflt := by
    intro key hkey _ dec dflt
    rw [Table.field, writeHost_of_unmanaged t entry hkey, Table.field]
  rw [HostConfig.load, hname, hhost, hport, husername, hauth, hkept "key_path" (by simp [managedHostKeys]),
    hkept "forward_local" (by simp [managedHostKeys]), hkept "forward_remote" (by simp [managedHostKeys]),
    hkept "proxy_jump" (by simp [managedHostKeys]), hkept "x11_forward" (by simp [managedHostKeys]),
    hkept "x11_trusted" (by simp [managedHostKeys]), hkept "group" (by simp [managedHostKeys]),
    hkept "tags" (by simp [managedHostKeys])]
  rfl

theorem load_newHost (entry : SshHostEntry) :
    HostConfig.load (writeHost Table.empty entry) = some (newHost entry) :=
  load_writeHost_eq Table.empty entry

theorem load_writeHost {t : Table} {h : HostConfig} (hload : HostConfig.load t = some h)
    (entry : SshHostEntry) : HostConfig.load (writeHost t entry) = some (writeEntry h entry) := by
  obtain ⟨_, -, hload⟩ := Option.bind_eq_some_iff.1 hload
  obtain ⟨_, -, hload⟩ := Option.bind_eq_some_iff.1 hload
  obtain ⟨_, -, hload⟩ := Option.bind_eq_some_iff.1 hload
  obtain ⟨_, -, hload⟩ := Option.bind_eq_some_iff.1 hload
  obtain ⟨_, -, hload⟩ := Option.bind_eq_some_iff.1 hload
  obtain ⟨_, hkeyPath, hload⟩ := Option.bind_eq_some_iff.1 hload
  obtain ⟨_, hlocal, hload⟩ := Option.bind_eq_some_iff.1 hload
  obtain ⟨_, hremote, hload⟩ := Option.bind_eq_some_iff.1 hload
  obtain ⟨_, hproxy, hload⟩ := Option.bind_eq_some_iff.1 hload
  obtain ⟨_, hforward, hload⟩ := Option.bind_eq_some_iff.1 hload
  obtain ⟨_, htrusted, hload⟩ := Option.bind_eq_some_iff.1 hload
  obtain ⟨_, hgroup, hload⟩ := Option.bind_eq_some_iff.1 hload
  obtain ⟨_, htags, hload⟩ := Option.bind_eq_some_iff.1 hload
  obtain rfl := Option.some.inj hload
  rw [load_writeHost_eq, hkeyPath, hlocal, hremote, hproxy, hforward, htrusted, hgroup, htags]
  rfl

theorem load_pairRows (entries : List SshHostEntry) {rows : List Table} {hosts : List HostConfig}
    (hload : rows.mapM HostConfig.load = some hosts) :
    (pairRows entries rows).mapM HostConfig.load = some (reloadedHosts entries hosts) := by
  induction entries generalizing rows hosts with
  | nil => rfl
  | cons entry entries ih =>
    rcases rows with _ | ⟨t, rows⟩
    · obtain rfl : hosts = [] := (Option.some.inj hload).symm
      rw [pairRows, List.mapM_cons, List.headD_nil, load_newHost, List.tail_nil, ih rfl]
      rfl
    · rw [List.mapM_cons] at hload
      obtain ⟨host, hhost, hload⟩ := Option.bind_eq_some_iff.1 hload
      obtain ⟨hosts', hhosts, hload⟩ := Option.bind_eq_some_iff.1 hload
      obtain rfl := Option.some.inj hload
      rw [pairRows, List.mapM_cons, List.headD_cons, load_writeHost hhost, List.tail_cons,
        ih hhosts]
      rfl

/-- The hosts that are kept: those of an array of tables. -/
def keptHosts : Option Item → List HostConfig → List HostConfig
  | some (.arrayOfTables _), hosts => hosts
  | _, _ => []

theorem load_arrayRows {item : Option Item} {hosts : List HostConfig}
    (hload : ((hostRows item).bind fun rows => rows.mapM HostConfig.load) = some hosts) :
    (arrayRows item).mapM HostConfig.load = some (keptHosts item hosts) := by
  rcases item with _ | item
  · rfl
  · cases item with
    | arrayOfTables rows => exact hload
    | _ => rfl

/-! ## The configuration after saving -/

/-- What is loaded after a panel has been saved into a document that is loaded to `c`. -/
def reloaded (doc : Table) (c : Config (Extra ρ)) (p : SettingsPanel) : Config (Extra ρ) :=
  { c with
    font :=
      { family := if p.fontFamily = "" then c.font.family else p.fontFamily
        size := p.fontSize
        ligatures := p.fontLigatures
        fontFallbacks := SettingsPanel.fontFallbacksList p.fontFallbacksText }
    colors := .builtin (BuiltinScheme.all.getD (p.schemeIndex % BuiltinScheme.all.length) .dark)
    shell :=
      { program := if p.shellProgram = "" then c.shell.program else p.shellProgram
        args := SettingsPanel.splitWhitespace p.shellArgs }
    scrollbackLines := p.scrollbackLines
    tabBar :=
      { c.tabBar with
        showTabNumber := p.tabShowTabNumber
        showNewTabButton := p.tabShowNewTabButton }
    hosts := reloadedHosts p.sshHosts (keptHosts (doc "hosts") c.hosts)
    rest :=
      { c.rest with
        colorsFollowSystem := p.colorsFollowSystem
        window :=
          { backgroundOpacity := finiteOr p.opacity 0x3F733333
            backdrop := p.windowBackdrop
            decorations := p.windowDecorations
            paddingX := p.paddingX
            paddingY := p.paddingY
            closeAction := p.windowCloseAction
            inAppBlurEnabled := p.inAppBlurEnabled
            inAppBlurStrength := p.inAppBlurStrength
            rest := c.rest.window.rest }
        gpu :=
          { c.rest.gpu with
            fpsLimit := p.fpsLimit
            atlasSize := if (doc "gpu").isNone then 2048 else c.rest.gpu.atlasSize
            presentMode := p.presentMode }
        language := p.languageCode
        cursorStyle := p.cursorStyle
        cursor := { c.rest.cursor with blinkEnabled := p.cursorBlinkEnabled }
        autoCheckUpdate := p.autoCheckUpdate
        security :=
          { externalUrl := p.secExternalUrl
            osc52Clipboard := p.secOsc52Clipboard
            oscNotification := p.secOscNotification
            osc52MaxBytes := p.secOsc52MaxBytes
            notificationMaxBytes := p.secNotificationMaxBytes
            pluginRead := p.secPluginRead
            pluginReadMaxBytes := p.secPluginReadMaxBytes }
        leaderKey := if p.leaderKey = "" then c.rest.leaderKey else p.leaderKey
        animations := { enabled := p.animationsEnabled, intensity := p.animationsIntensity }
        blocks :=
          { enabled := p.blocksEnabled
            borderWidthPx := p.blocksBorderWidthPx
            showExitCodeBadge := p.blocksShowExitCodeBadge }
        activeProfile := p.activeProfileName } }

/-- The sizes are within the integers of TOML. -/
structure SizesFit (p : SettingsPanel) : Prop where
  scrollbackLines : p.scrollbackLines < 2 ^ 63
  osc52MaxBytes : p.secOsc52MaxBytes < 2 ^ 63
  notificationMaxBytes : p.secNotificationMaxBytes < 2 ^ 63
  pluginReadMaxBytes : p.secPluginReadMaxBytes < 2 ^ 63

/-- The section of a table that can be written into. -/
theorem bind_asStruct {α : Type} {t : Table} {sec : String} (h : t.isSection sec = true)
    (order : List String) (load : Table → Option α) :
    (asStruct order (t sec)).bind load = load (fields t sec) := by
  rw [asStruct_of_isSection h, Option.bind_some]

theorem loads_saved {env : TomlEnv ρ} {p : SettingsPanel} {doc saved : Table} {c : Config (Extra ρ)}
    (hload : Loads env doc c) (hfits : Fits doc) (h : p.applyToDoc env doc = some saved)
    (hsizes : SizesFit p) : Loads env saved (reloaded doc c p) := by
  have hdoc : ∀ sec ∈ managedSections, ∀ (order : List String) {α : Type}
      (load : Table → Option α), (asStruct order (doc sec)).bind load = load (fields doc sec) :=
    fun sec hsec order _ load => bind_asStruct (hfits sec hsec) order load
  have hsaved : ∀ sec ∈ managedSections, ∀ (order : List String) {α : Type}
      (load : Table → Option α), (asStruct order (saved sec)).bind load = load (fields saved sec) :=
    fun sec hsec order _ load => bind_asStruct (fits_saved h sec hsec) order load
  have hgpu : (saved "gpu").isNone = false := by
    have hmode : saved.read (some "gpu", "present_mode") = some (.string p.presentModeTomlKey) :=
      read_fixed h rfl
    obtain ⟨_, hsec, -⟩ := Option.bind_eq_some_iff.1 hmode
    obtain ⟨item, hitem, -⟩ := Option.bind_eq_some_iff.1 hsec
    rw [hitem]
    rfl
  exact
    { font := by
        rw [hsaved "font" (by decide)]
        exact load_font h ((hdoc "font" (by decide) _ _).symm.trans hload.font)
      colors := load_colors h
      colorsFollowSystem := top_fixed h "colors_follow_system" _ _ rfl
      shell := by
        rw [hsaved "shell" (by decide)]
        exact load_shell h ((hdoc "shell" (by decide) _ _).symm.trans hload.shell)
      scrollbackLines :=
        (top_fixed h "scrollback_lines" _ _ rfl).trans (asUsize_asI64 hsizes.scrollbackLines)
      window := by
        rw [hsaved "window" (by decide)]
        exact load_window h ((hdoc "window" (by decide) _ _).symm.trans hload.window)
      tabBar := by
        rw [hsaved "tab_bar" (by decide)]
        exact load_tabBar h ((hdoc "tab_bar" (by decide) _ _).symm.trans hload.tabBar)
      hosts := by
        rw [hosts_written h, writeRows_eq]
        exact load_pairRows p.sshHosts (load_arrayRows hload.hosts)
      activeProfile := load_activeProfile h
      gpu := by
        rw [hsaved "gpu" (by decide), hgpu]
        exact load_gpu h ((hdoc "gpu" (by decide) _ _).symm.trans hload.gpu)
      language := top_fixed h "language" _ _ rfl
      cursorStyle := (top_fixed h "cursor_style" _ _ rfl).trans (variant_cursorStyle p)
      cursor := by
        rw [hsaved "cursor" (by decide)]
        exact load_cursor h ((hdoc "cursor" (by decide) _ _).symm.trans hload.cursor)
      autoCheckUpdate := top_fixed h "auto_check_update" _ _ rfl
      security := by
        rw [hsaved "security" (by decide)]
        exact load_security h hsizes.osc52MaxBytes hsizes.notificationMaxBytes
          hsizes.pluginReadMaxBytes
      leaderKey := load_leaderKey h hload.leaderKey
      animations := by
        rw [hsaved "animations" (by decide)]
        exact load_animations h
      blocks := by
        rw [hsaved "blocks" (by decide)]
        exact load_blocks h
      others := by
        rw [others_kept h]
        exact hload.others
      configErrors := hload.configErrors }

end Nexterm.Settings

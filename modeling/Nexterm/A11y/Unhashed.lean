/-
  What the accessibility tree shows and its hash leaves out.

  * `Panel.SameUnhashed`, `Shown.SameUnhashed`: the overlays agree on it.
  * `Panel.widgetNodes_eq_iff`, `Shown.overlay_eq_iff`: if the same is hashed, the overlays have the
    same nodes if and only if they agree on it.
-/
import Mathlib
import Nexterm.A11y.Feed

namespace Nexterm.A11y

open Nexterm.Settings (HostConfig ProfileEntry)

/-- A function of the places that reads no more than a key of the entries. -/
theorem mapIdx_eq_of_map_eq {α β κ : Type} {k : α → κ} {f : ℕ → α → β}
    (hf : ∀ i x y, k x = k y → f i x = f i y) {l l' : List α} (h : l.map k = l'.map k) :
    l.mapIdx f = l'.mapIdx f := by
  induction l generalizing l' f with
  | nil => rw [List.map_eq_nil_iff.1 h.symm]
  | cons x l ih =>
    cases l' with
    | nil => cases h
    | cons y l' =>
      obtain ⟨hxy, hrest⟩ := List.cons.inj h
      rw [List.mapIdx_cons, List.mapIdx_cons, hf 0 x y hxy, ih (fun i => hf (i + 1)) hrest]

/-! ## The settings panel -/

namespace Panel

/-- The text of a shell field. -/
def shellText (sp : Panel) (index : UInt16) (committed : String) : String :=
  match sp.shellFieldEditing with
  | some state => if sp.focusedWidgetIndex = index then state.buffer else committed
  | none => committed

/-- The text of the fallback fonts. -/
def fallbacksText (sp : Panel) : String :=
  match sp.fontFallbacksEditing with
  | some state => state.buffer
  | none => sp.fontFallbacksText

/-- The text of a byte cap. -/
def securityBytesText (sp : Panel) (index : ℕ) (bytes : ℕ) : String :=
  match sp.securityFieldEditing with
  | some state =>
    if sp.focusedWidgetIndex = UInt16.ofNat index then state.buffer else toString bytes
  | none => toString bytes

variable (loc : Locale) (a b : Panel)

/-- The rows of the Window tab below the presentation mode. -/
structure SameWindow : Prop where
  cursorBlinkEnabled : a.cursorBlinkEnabled = b.cursorBlinkEnabled
  scrollbackLines : a.scrollbackLines = b.scrollbackLines
  tabShowTabNumber : a.tabShowTabNumber = b.tabShowTabNumber
  tabShowNewTabButton : a.tabShowNewTabButton = b.tabShowNewTabButton
  animationsEnabled : a.animationsEnabledLabel loc a.animationsOsReduced =
    b.animationsEnabledLabel loc b.animationsOsReduced
  animationsIntensity : a.animationsIntensityLabel loc = b.animationsIntensityLabel loc
  windowDecorations : a.windowDecorationsLabel loc = b.windowDecorationsLabel loc
  windowCloseAction : a.windowCloseActionLabel loc = b.windowCloseActionLabel loc
  fpsLimit : loc.f32 a.fpsLimit.toNat = loc.f32 b.fpsLimit.toNat
  fpsLimitLabel : a.fpsLimitLabel loc = b.fpsLimitLabel loc
  inAppBlurEnabled : a.inAppBlurEnabled = b.inAppBlurEnabled
  inAppBlurStrength : a.inAppBlurStrength = b.inAppBlurStrength
  windowBackdrop : a.windowBackdropLabel loc = b.windowBackdropLabel loc

/-- The controls of the category that are not hashed. -/
def SameControls : SettingsCategory → Prop
  | .startup =>
    a.shellText 2 a.shellProgram = b.shellText 2 b.shellProgram ∧
    a.shellText 3 a.shellArgs = b.shellText 3 b.shellArgs
  | .font => a.fontLigatures = b.fontLigatures ∧ a.fallbacksText = b.fallbacksText
  | .theme => a.colorsFollowSystem = b.colorsFollowSystem
  | .window => a.SameWindow loc b
  | .blocks =>
    a.blocksEnabled = b.blocksEnabled ∧ a.blocksBorderWidthPx = b.blocksBorderWidthPx ∧
    a.blocksShowExitCodeBadge = b.blocksShowExitCodeBadge
  | .security =>
    a.securityPolicies.map (consentDisplayLabel loc) =
      b.securityPolicies.map (consentDisplayLabel loc) ∧
    a.securityBytes.mapIdx (fun i bytes => a.securityBytesText (4 + i) bytes) =
      b.securityBytes.mapIdx fun i bytes => b.securityBytesText (4 + i) bytes
  | .ssh | .keybindings | .profiles => True

/-- The panels agree on what is not hashed. -/
def SameUnhashed : Prop := a.category = b.category ∧ a.SameControls loc b a.category

end Panel

section Nodes

variable {id : WidgetId} {label : String} {f f' en inv : Bool} {tip : Option String}

theorem toggleNode_inj {on on' : Bool} :
    widgetNode ⟨id, .toggle on, label, f, en, inv, tip⟩ =
      widgetNode ⟨id, .toggle on', label, f', en, inv, tip⟩ ↔ on = on' := by
  cases on <;> cases on' <;> simp [widgetNode, WidgetDesc.valueText]

theorem cycleNode_inj {value value' : String} :
    widgetNode ⟨id, .cycle value, label, f, en, inv, tip⟩ =
      widgetNode ⟨id, .cycle value', label, f', en, inv, tip⟩ ↔ value = value' := by
  simp +contextual [widgetNode, WidgetDesc.valueText, widgetRole]

theorem sliderNode_inj {value value' min max step : Settings.F32} {display display' : String} :
    widgetNode ⟨id, .slider value min max step display, label, f, en, inv, tip⟩ =
      widgetNode ⟨id, .slider value' min max step display', label, f', en, inv, tip⟩ ↔
    display = display' ∧ value = value' := by
  simp +contextual [widgetNode, WidgetDesc.valueText, widgetRole]

theorem textNode_inj {value value' : String} {editing editing' : Bool} {caret caret' : Option ℕ} :
    widgetNode ⟨id, .text value editing caret, label, f, en, inv, tip⟩ =
      widgetNode ⟨id, .text value' editing' caret', label, f', en, inv, tip⟩ ↔
    value = value' := by
  simp +contextual [widgetNode, WidgetDesc.valueText, widgetRole]

end Nodes

theorem Panel.securityBytesKind_eq (sp : Panel) (index bytes : ℕ) : ∃ editing caret,
    sp.securityBytesKind index bytes =
      .text (sp.securityBytesText index bytes) editing caret := by
  unfold securityBytesKind securityBytesText
  rcases sp.securityFieldEditing with _ | state
  · exact ⟨_, _, rfl⟩
  · simp only []
    split_ifs
    · exact ⟨_, _, rfl⟩
    · exact ⟨_, _, rfl⟩

section Controls

variable {env : Env} {a b : Panel} (h : a.SameInputs env.loc b) (hab : a.category = b.category)

include h hab

theorem startupNodes_eq_iff (hcat : b.category = .startup) :
    a.widgetNodes env = b.widgetNodes env ↔ a.SameControls env.loc b .startup := by
  simp only [Panel.widgetNodes, Panel.widgetDescs, hab, hcat, Panel.startupWidgetDescs,
    Panel.SameControls, Panel.shellText, Panel.languageLabel, h.focusedWidgetIndex,
    h.autoCheckUpdate, h.languageIndex]
  rcases a.shellFieldEditing with _ | sa <;> rcases b.shellFieldEditing with _ | sb <;>
    by_cases hf : b.focusedWidgetIndex = 2 <;> by_cases hf' : b.focusedWidgetIndex = 3 <;>
    simp [textNode_inj, hf, hf']

theorem fontNodes_eq_iff (hcat : b.category = .font) :
    a.widgetNodes env = b.widgetNodes env ↔ a.SameControls env.loc b .font := by
  simp only [Panel.widgetNodes, Panel.widgetDescs, hab, hcat, Panel.fontWidgetDescs,
    Panel.SameControls, Panel.fallbacksText, h.focusedWidgetIndex, h.fontFamily,
    h.fontFamilyEditing, h.fontSize]
  rcases a.fontFallbacksEditing with _ | sa <;> rcases b.fontFallbacksEditing with _ | sb <;>
    simp [toggleNode_inj, textNode_inj]

theorem themeNodes_eq_iff (hcat : b.category = .theme) :
    a.widgetNodes env = b.widgetNodes env ↔ a.SameControls env.loc b .theme := by
  simp [Panel.widgetNodes, Panel.widgetDescs, hab, hcat, Panel.themeWidgetDescs,
    Panel.SameControls, Settings.SettingsPanel.schemeName, h.focusedWidgetIndex, h.schemeIndex,
    toggleNode_inj]

omit h in
theorem blocksNodes_eq_iff (hcat : b.category = .blocks) :
    a.widgetNodes env = b.widgetNodes env ↔ a.SameControls env.loc b .blocks := by
  have hwidth {x y : UInt8} : toString x = toString y ↔ x = y := by
    refine ⟨fun hxy => UInt8.toNat_inj.1 (Nat.repr_injective hxy), fun hxy => by rw [hxy]⟩
  simp [Panel.widgetNodes, Panel.widgetDescs, hab, hcat, Panel.blocksWidgetDescs,
    Panel.SameControls, toggleNode_inj, cycleNode_inj, hwidth]

theorem windowNodes_eq_iff (hcat : b.category = .window) :
    a.widgetNodes env = b.widgetNodes env ↔ a.SameControls env.loc b .window := by
  have hlines {x y : ℕ} : toString x = toString y ↔ x = y :=
    ⟨fun hxy => Nat.repr_injective hxy, fun hxy => by rw [hxy]⟩
  simp only [Panel.widgetNodes, Panel.widgetDescs, hab, hcat, Panel.windowWidgetDescs,
    Panel.windowRows, Panel.SameControls, h.focusedWidgetIndex, h.opacity,
    Panel.cursorStyleLabel, h.cursorStyle, h.paddingX, h.paddingY, Panel.presentModeLabel,
    h.presentMode, List.mapIdx_cons, List.map_cons, List.map_nil, List.mapIdx_nil,
    List.cons.injEq, Prod.mk.injEq, toggleNode_inj, cycleNode_inj, sliderNode_inj, hlines,
    true_and, and_true]
  constructor
  · rintro ⟨hblink, ⟨hscroll, -⟩, hnumber, hnewTab, hanim, hintensity, hdecor, hclose, ⟨hlabel, hfps⟩,
      hblur, ⟨-, hstrength⟩, hbackdrop⟩
    exact ⟨hblink, hscroll, hnumber, hnewTab, hanim, hintensity, hdecor, hclose, hfps, hlabel, hblur,
      hstrength, hbackdrop⟩
  · rintro ⟨hblink, hscroll, hnumber, hnewTab, hanim, hintensity, hdecor, hclose, hfps, hlabel, hblur,
      hstrength, hbackdrop⟩
    rw [hscroll, hstrength]
    exact ⟨hblink, ⟨rfl, rfl⟩, hnumber, hnewTab, hanim, hintensity, hdecor, hclose, ⟨hlabel, hfps⟩, hblur,
      ⟨rfl, rfl⟩, hbackdrop⟩

theorem securityNodes_eq_iff (hcat : b.category = .security) :
    a.widgetNodes env = b.widgetNodes env ↔ a.SameControls env.loc b .security := by
  simp only [Panel.widgetNodes, Panel.widgetDescs, hab, hcat, Panel.securityWidgetDescs,
    Panel.securityKinds, Panel.securityPolicies, Panel.securityBytes, Panel.securityFieldLabels,
    Panel.SameControls, h.focusedWidgetIndex, List.map_cons, List.map_nil, List.mapIdx_cons,
    List.mapIdx_nil, List.cons_append, List.nil_append, List.zip_cons_cons, List.zip_nil_left]
  obtain ⟨_, _, ha4⟩ := a.securityBytesKind_eq 4 a.secOsc52MaxBytes
  obtain ⟨_, _, ha5⟩ := a.securityBytesKind_eq 5 a.secNotificationMaxBytes
  obtain ⟨_, _, ha6⟩ := a.securityBytesKind_eq 6 a.secPluginReadMaxBytes
  obtain ⟨_, _, hb4⟩ := b.securityBytesKind_eq 4 b.secOsc52MaxBytes
  obtain ⟨_, _, hb5⟩ := b.securityBytesKind_eq 5 b.secNotificationMaxBytes
  obtain ⟨_, _, hb6⟩ := b.securityBytesKind_eq 6 b.secPluginReadMaxBytes
  simp [ha4, ha5, ha6, hb4, hb5, hb6, cycleNode_inj, textNode_inj, and_assoc]

theorem sshNodes_eq (hcat : b.category = .ssh) : a.widgetNodes env = b.widgetNodes env := by
  have hfields : a.sshFieldDescs env.loc = b.sshFieldDescs env.loc := by
    ext1 host
    simp only [Panel.sshFieldDescs, Panel.sshTextKind, h.focusedWidgetIndex, h.sshFieldEditing]
  simp only [Panel.widgetNodes, Panel.widgetDescs, hab, hcat, Panel.sshWidgetDescs, hfields,
    Panel.selectedSshHost, h.focusedWidgetIndex, h.sshHosts, h.selectedHostIndex]

theorem keybindingsNodes_eq (hcat : b.category = .keybindings) :
    a.widgetNodes env = b.widgetNodes env := by
  have hfields : a.keyFieldDescs env.loc = b.keyFieldDescs env.loc := by
    ext1 kb
    simp only [Panel.keyFieldDescs, h.focusedWidgetIndex, h.keyEditing]
  simp only [Panel.widgetNodes, Panel.widgetDescs, hab, hcat, Panel.keybindingsWidgetDescs,
    hfields, Panel.selectedKeyBinding, h.focusedWidgetIndex, h.keybindings, h.selectedKeyIndex,
    h.leaderKeyEditing, h.leaderKey]

theorem profilesNodes_eq (hcat : b.category = .profiles) :
    a.widgetNodes env = b.widgetNodes env := by
  have hname (i : ℕ) : (a.profiles[i]?).map ProfileEntry.name =
      (b.profiles[i]?).map ProfileEntry.name := by
    have hi := congrArg (fun l => (l[i]?).map Prod.fst) h.profiles
    simpa [Function.comp_def] using hi
  have hempty : a.profiles = [] ↔ b.profiles = [] := by
    rw [← List.map_eq_nil_iff, h.profiles, List.map_eq_nil_iff]
  simp only [Panel.widgetNodes, Panel.widgetDescs, hab, hcat, Panel.profilesWidgetDescs,
    Panel.activeProfileName, hempty, h.activeProfileIndex, h.selectedProfile, hname]
  rw [mapIdx_eq_of_map_eq ?_ h.profiles]
  intro i x y hxy
  obtain ⟨hx, hy⟩ := Prod.mk.inj hxy
  rw [hx, hy]

/-- **The controls of the panel.** -/
theorem widgetNodes_eq_iff :
    a.widgetNodes env = b.widgetNodes env ↔ a.SameControls env.loc b a.category := by
  rw [hab]
  cases hcat : b.category with
  | startup => exact startupNodes_eq_iff h hab hcat
  | font => exact fontNodes_eq_iff h hab hcat
  | theme => exact themeNodes_eq_iff h hab hcat
  | window => exact windowNodes_eq_iff h hab hcat
  | ssh => exact iff_of_true (sshNodes_eq h hab hcat) trivial
  | keybindings => exact iff_of_true (keybindingsNodes_eq h hab hcat) trivial
  | profiles => exact iff_of_true (profilesNodes_eq h hab hcat) trivial
  | blocks => exact blocksNodes_eq_iff hab hcat
  | security => exact securityNodes_eq_iff h hab hcat

/-- The rest of the panel, and the places where it stands. -/
theorem frame_eq : a.panelChildren = b.panelChildren ∧ a.footerNodes env = b.footerNodes env ∧
    a.categoryTabNodes env = b.categoryTabNodes env ∧ a.contentDescription = b.contentDescription ∧
    a.sshDialogNodes = b.sshDialogNodes ∧ a.keyDialogNodes env = b.keyDialogNodes env ∧
    a.panelFocus = b.panelFocus := by
  have hlen : a.profiles.length = b.profiles.length := by
    simpa using congrArg List.length h.profiles
  have hempty : a.profiles = [] ↔ b.profiles = [] := by
    rw [← List.length_eq_zero_iff, hlen, List.length_eq_zero_iff]
  have hssh : a.sshDialogShown = b.sshDialogShown := by
    simp only [Panel.sshDialogShown, h.sshDeleteDialogOpen, hab, h.sshHosts]
  have hkey : a.keyDialogShown = b.keyDialogShown := by
    simp only [Panel.keyDialogShown, h.keyDeleteDialogOpen, hab, h.keybindings]
  have hreset : a.categoryResettable = b.categoryResettable := by
    simp only [Panel.categoryResettable, hab]
  have hfocus : a.widgetFocusId = b.widgetFocusId := by
    simp only [Panel.widgetFocusId, hab, h.fontFamilyEditing, h.focusedWidgetIndex, hempty, hlen,
      h.selectedProfile, h.sshDeleteDialogOpen, h.sshHosts, h.selectedHostIndex,
      h.keyDeleteDialogOpen, h.keybindings, h.selectedKeyIndex]
  refine ⟨?_, ?_, ?_, ?_, ?_, ?_, ?_⟩
  · simp only [Panel.panelChildren, hreset, hssh, hkey]
  · simp only [Panel.footerNodes, hreset, hab]
  · simp only [Panel.categoryTabNodes, hab]
  · simp only [Panel.contentDescription, hab, hempty, hlen, h.sshHosts, h.selectedHostIndex,
      h.keybindings, h.selectedKeyIndex]
  · simp only [Panel.sshDialogNodes, hssh, Panel.selectedSshHost, h.sshHosts,
      h.selectedHostIndex, h.sshDeleteDialogConfirmFocused]
  · simp only [Panel.keyDialogNodes, hkey, Panel.selectedKeyBinding, h.keybindings,
      h.selectedKeyIndex, h.keyDeleteDialogConfirmFocused]
  · simp only [Panel.panelFocus, hfocus, hssh, hkey, hab, h.sshDeleteDialogConfirmFocused,
      h.keyDeleteDialogConfirmFocused]

end Controls

theorem SettingsCategory.getElem?_index (category : SettingsCategory) :
    all[category.index]? = some category := by
  cases category <;> rfl

/-- The footer, the controls and the dialogs are neither tabs nor alerts. -/
theorem panelParts_role (env : Env) (sp : Panel) (role : Role) (hrole : role = .tab ∨ role = .alert) :
    (∀ n ∈ sp.footerNodes env, n.2.role ≠ role) ∧ (∀ n ∈ sp.widgetNodes env, n.2.role ≠ role) ∧
    (∀ n ∈ sp.sshDialogNodes, n.2.role ≠ role) ∧ ∀ n ∈ sp.keyDialogNodes env, n.2.role ≠ role := by
  refine ⟨?_, ?_, ?_, ?_⟩
  · unfold Panel.footerNodes
    rcases hrole with rfl | rfl <;> split_ifs <;> simp
  · intro n hn
    obtain ⟨desc, -, rfl⟩ := List.mem_map.1 hn
    rcases hrole with rfl | rfl <;> cases hkind : desc.kind <;>
      simp [widgetNode, widgetRole, hkind]
  · unfold Panel.sshDialogNodes
    rcases hrole with rfl | rfl <;> split_ifs <;> simp [Panel.deleteDialogNodes]
  · unfold Panel.keyDialogNodes
    rcases hrole with rfl | rfl <;> split_ifs <;> simp [Panel.deleteDialogNodes]

/-- The tabs of the categories are the only tabs of the panel. -/
theorem filter_tab (env : Env) (sp : Panel) :
    (buildSettingsPanelNodes env sp).nodes.filter (·.2.role = .tab) = sp.categoryTabNodes env := by
  have hnil {ns : List (ℕ × Node)} (h : ∀ n ∈ ns, n.2.role ≠ .tab) :
      ns.filter (·.2.role = .tab) = [] := by
    refine List.filter_eq_nil_iff.2 fun n hn => ?_
    simpa using h n hn
  have htabs : (sp.categoryTabNodes env).filter (·.2.role = .tab) = sp.categoryTabNodes env := by
    simp [Panel.categoryTabNodes, SettingsCategory.all]
  obtain ⟨hfooter, hwidgets, hssh, hkey⟩ := panelParts_role env sp .tab (.inl rfl)
  simp [buildSettingsPanelNodes, -List.filter_eq_nil_iff, hnil hfooter, htabs, hnil hwidgets,
    hnil hssh, hnil hkey, Panel.contentNode]

/-- The tabs say which category is shown. -/
theorem category_of_tabs {env : Env} {a b : Panel}
    (h : a.categoryTabNodes env = b.categoryTabNodes env) : a.category = b.category := by
  have hindex : a.category.index = b.category.index := by
    have hat := congrArg (fun l => l[a.category.index]?) h
    simpa [Panel.categoryTabNodes, List.getElem?_mapIdx, SettingsCategory.getElem?_index] using hat
  have hget := a.category.getElem?_index
  rw [hindex, b.category.getElem?_index] at hget
  exact (Option.some.inj hget).symm

theorem sameUnhashed_of_panelNodes {env : Env} {a b : Panel} (h : a.SameInputs env.loc b)
    (hnodes : (buildSettingsPanelNodes env a).nodes = (buildSettingsPanelNodes env b).nodes) :
    a.SameUnhashed env.loc b := by
  have htabs := congrArg (List.filter fun n => n.2.role = .tab) hnodes
  rw [filter_tab, filter_tab] at htabs
  have hcat := category_of_tabs htabs
  refine ⟨hcat, (widgetNodes_eq_iff h hcat).1 ?_⟩
  obtain ⟨-, hfooter, -, -, hssh, hkey, -⟩ := frame_eq h hcat
  simp only [buildSettingsPanelNodes, hfooter, htabs, hssh, hkey, List.append_assoc,
    List.cons_append, List.cons.injEq, List.append_cancel_left_eq, true_and] at hnodes
  exact (List.append_inj' hnodes.2 rfl).1

theorem panelOverlay_eq {env : Env} {a b : Panel} (h : a.SameInputs env.loc b)
    (hu : a.SameUnhashed env.loc b) :
    buildSettingsPanelNodes env a = buildSettingsPanelNodes env b := by
  obtain ⟨hcat, hcontrols⟩ := hu
  have hwidgets := (widgetNodes_eq_iff h hcat).2 hcontrols
  obtain ⟨hchildren, hfooter, htabs, hdesc, hssh, hkey, hfocus⟩ := frame_eq h hcat
  simp only [buildSettingsPanelNodes, Panel.contentNode, hchildren, hfooter, htabs, hdesc, hwidgets,
    hssh, hkey, hfocus, hcat]

/-! ## The other overlays -/

/-- The label of a host and what is said about it. -/
def hostTexts (host : HostConfig) : String × String :=
  (if host.name = "" then host.username ++ "@" ++ host.host else host.name,
    "Host: " ++ host.host ++ ", user: " ++ host.username ++ ", port: " ++ toString host.port)

/-- The overlays show the same of what is hashed. -/
inductive Shown.SameInputs (loc : Locale) : Shown → Shown → Prop
  | closeDialog {d} : SameInputs loc (.closeDialog d) (.closeDialog d)
  | quickSelect {a b} : QuickSelectState.SameInputs a b →
      SameInputs loc (.quickSelect a) (.quickSelect b)
  | contextMenu {a b} : ContextMenu.SameInputs a b →
      SameInputs loc (.contextMenu a) (.contextMenu b)
  | palette {a b} : a.query = b.query → a.selected = b.selected →
      SameInputs loc (.palette a) (.palette b)
  | hostManager {a b} : a.query = b.query → a.selected = b.selected →
      SameInputs loc (.hostManager a) (.hostManager b)
  | macroPicker {a b} : a.query = b.query → a.selected = b.selected →
      SameInputs loc (.macroPicker a) (.macroPicker b)
  | settingsPanel {a b} : Panel.SameInputs loc a b →
      SameInputs loc (.settingsPanel a) (.settingsPanel b)

/-- The overlays agree on what is not hashed: which items of a menu are separators, which entries
    of a list match, and the controls of the panel. -/
def Shown.SameUnhashed (env : Env) (t t' : Clock) : Shown → Shown → Prop
  | .contextMenu a, .contextMenu b =>
    a.items.map (fun item => decide (item.action = .separator)) =
      b.items.map fun item => decide (item.action = .separator)
  | .palette a, .palette b =>
    (a.filtered env t).map PaletteAction.label = (b.filtered env t').map PaletteAction.label
  | .hostManager a, .hostManager b => (a.filtered env).map hostTexts = (b.filtered env).map hostTexts
  | .macroPicker a, .macroPicker b =>
    (a.filtered env).map (fun mac => (mac.name, mac.description)) =
      (b.filtered env).map fun mac => (mac.name, mac.description)
  | .settingsPanel a, .settingsPanel b => a.SameUnhashed env.loc b
  | _, _ => True

theorem shown_sameInputs {loc : Locale} {s s' : ClientState} (h : SameInputs loc s s') :
    Option.Rel (Shown.SameInputs loc) s.shown s'.shown := by
  have hmenu := h.contextMenu
  unfold Surfaces.shown
  rw [h.closeWindowDialog, ← h.quickSelect.1, ← h.palette.1, ← h.hostManager.1, ← h.macroPicker.1,
    ← h.settingsPanel.1]
  generalize s.contextMenu = o, s'.contextMenu = o' at hmenu ⊢
  cases s'.closeWindowDialog with
  | some d => exact .some .closeDialog
  | none =>
    cases hmenu with
    | some hitems =>
      simp only []
      split_ifs with hq
      · exact .some (.quickSelect (h.quickSelect.2 hq))
      · exact .some (.contextMenu hitems)
    | none =>
      simp only []
      split_ifs with hq hp hh hm hs
      · exact .some (.quickSelect (h.quickSelect.2 hq))
      · exact .some (.palette (h.palette.2 hp).1 (h.palette.2 hp).2)
      · exact .some (.hostManager (h.hostManager.2 hh).1 (h.hostManager.2 hh).2)
      · exact .some (.macroPicker (h.macroPicker.2 hm).1 (h.macroPicker.2 hm).2)
      · exact .some (.settingsPanel (h.settingsPanel.2 hs))
      · exact .none

section Lists

variable {α κ : Type} {id : ℕ → ℕ} {node node' : ℕ → α → Node} {k : α → κ} {l l' : List α}

/-- What can be seen of the entries of a list. -/
theorem map_of_optionNodes (key : Node → κ) (hkey : ∀ idx x, key (node idx x) = k x)
    (hkey' : ∀ idx x, key (node' idx x) = k x)
    (h : optionNodes id node l = optionNodes id node' l') : l.map k = l'.map k := by
  refine List.ext_getElem? fun i => ?_
  have hi := congrArg (fun ns => (ns[i]?).map fun n => key n.2) h
  simpa [optionNodes, List.getElem?_mapIdx, Function.comp_def, hkey, hkey'] using hi

theorem optionNodes_eq (hnode : ∀ idx x y, k x = k y → node idx x = node idx y)
    (h : l.map k = l'.map k) : optionNodes id node l = optionNodes id node l' :=
  mapIdx_eq_of_map_eq (fun idx x y hxy => by rw [hnode idx x y hxy]) h

end Lists


variable {env : Env} {t t' : Clock}

theorem quickSelectOverlay_eq {a b : QuickSelectState} (h : a.SameInputs b) :
    buildQuickSelectNodes a = buildQuickSelectNodes b := by
  have hnarrows : a.narrowsTo = b.narrowsTo := by
    ext1 m
    simp only [QuickSelectState.narrowsTo, h.typedLabel]
  have hnode : quickSelectItemNode a = quickSelectItemNode b := by
    ext1 idx
    ext1 m
    simp only [quickSelectItemNode, hnarrows]
  simp only [buildQuickSelectNodes, h.typedLabel, h.quickMatches, hnarrows, hnode]

theorem contextMenuOverlay_eq {a b : ContextMenu} (h : a.SameInputs b)
    (hu : a.items.map (fun item => decide (item.action = .separator)) =
      b.items.map fun item => decide (item.action = .separator)) :
    buildContextMenuNodes a = buildContextMenuNodes b := by
  have hlen : a.items.length = b.items.length := by simpa using congrArg List.length hu
  have hitems : a.items.map
      (fun item => ((item.label, item.hint), decide (item.action = .separator))) =
      b.items.map fun item => ((item.label, item.hint), decide (item.action = .separator)) := by
    rw [← List.zip_map' (f := fun item : ContextMenuItem => (item.label, item.hint)), h.texts, hu,
      List.zip_map']
  simp only [buildContextMenuNodes, hlen, h.hovered]
  rw [optionNodes_eq ?_ hitems]
  rintro idx x y hxy
  simp only [Prod.mk.injEq, decide_eq_decide] at hxy
  simp only [contextItemNode, hxy]

theorem paletteOverlay_eq {a b : CommandPalette} (hquery : a.query = b.query)
    (hselected : a.selected = b.selected)
    (hu : (a.filtered env t).map PaletteAction.label = (b.filtered env t').map PaletteAction.label) :
    buildPaletteNodes env t a = buildPaletteNodes env t' b := by
  have hlen : (a.filtered env t).length = (b.filtered env t').length := by
    simpa using congrArg List.length hu
  have hnode : paletteItemNode a = paletteItemNode b := by
    ext1 idx
    ext1 x
    simp only [paletteItemNode, hselected]
  simp only [buildPaletteNodes, hlen, hquery, hselected, hnode]
  rw [optionNodes_eq ?_ hu]
  rintro idx x y hxy
  simp only [paletteItemNode, hxy]

theorem listDialog_eq {α κ : Type} {root : ℕ} {label : String} {id : ℕ → ℕ} {node : ℕ → α → Node}
    {k : α → κ} {l l' : List α} {selected : ℕ}
    (hnode : ∀ idx x y, k x = k y → node idx x = node idx y) (h : l.map k = l'.map k) :
    listDialog root label id node l selected = listDialog root label id node l' selected := by
  have hlen : l.length = l'.length := by simpa using congrArg List.length h
  simp only [listDialog, hlen, optionNodes_eq hnode h]

theorem Shown.overlay_eq {a b : Shown} (h : a.SameInputs env.loc b)
    (hu : a.SameUnhashed env t t' b) : a.overlay env t = b.overlay env t' := by
  cases h with
  | closeDialog => rfl
  | quickSelect h => exact quickSelectOverlay_eq h
  | contextMenu h => exact contextMenuOverlay_eq h hu
  | palette hquery hselected => exact paletteOverlay_eq hquery hselected hu
  | @hostManager a b hquery hselected =>
    simp only [Shown.overlay, buildHostManagerNodes, hselected]
    refine listDialog_eq ?_ hu
    intro idx x y hxy
    obtain ⟨hlabel, hdesc⟩ := Prod.mk.inj hxy
    simp only [hostItemNode, hlabel, hdesc]
  | @macroPicker a b hquery hselected =>
    simp only [Shown.overlay, buildMacroPickerNodes, hselected]
    refine listDialog_eq ?_ hu
    intro idx x y hxy
    obtain ⟨hname, hdesc⟩ := Prod.mk.inj hxy
    simp only [macroItemNode, hname, hdesc]
  | settingsPanel h => exact panelOverlay_eq h hu

theorem Shown.sameUnhashed_of_nodes {a b : Shown} (h : a.SameInputs env.loc b)
    (hnodes : (a.overlay env t).nodes = (b.overlay env t').nodes) : a.SameUnhashed env t t' b := by
  cases h with
  | closeDialog => trivial
  | quickSelect => trivial
  | contextMenu h =>
    refine map_of_optionNodes (fun n => decide (n.role = .splitter)) ?_ ?_
      (List.cons.inj hnodes).2 <;>
    · intro idx item
      by_cases hitem : item.action = .separator <;> simp [contextItemNode, hitem]
  | palette hquery hselected =>
    exact map_of_optionNodes (fun n => n.label.getD "") (fun _ _ => rfl) (fun _ _ => rfl)
      (List.append_inj hnodes rfl).2
  | hostManager hquery hselected =>
    exact map_of_optionNodes (fun n => (n.label.getD "", n.description.getD ""))
      (fun _ _ => rfl) (fun _ _ => rfl) (List.cons.inj hnodes).2
  | macroPicker hquery hselected =>
    refine map_of_optionNodes (fun n => (n.label.getD "", n.description.getD "")) ?_ ?_
      (List.cons.inj hnodes).2 <;>
    · intro idx mac
      by_cases hmac : mac.description = "" <;> simp [macroItemNode, hmac]
  | settingsPanel h => exact sameUnhashed_of_panelNodes h hnodes

end Nexterm.A11y

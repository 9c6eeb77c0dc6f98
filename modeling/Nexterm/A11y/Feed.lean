/-
  The values from which the client sees that the accessibility tree has changed
  (`compute_tree_state_hash`, `compute_grid_row_hashes`).

  * `HashInput`: a value that is hashed.
  * `ClientState.treeStateInputs`: what is fed to the hasher, in its order.
  * `gridRowTexts`: the texts that are hashed row by row.
  * `SameInputs`: the fields that two states share if the same is fed for both
    (`sameInputs_of_treeStateInputs`).
-/
import Nexterm.Lib.Delimited
import Nexterm.A11y.Tree

namespace Nexterm.A11y

open Nexterm.Settings (KeyBinding ProfileEntry SettingsPanel SshHostEntry)
open Nexterm.Vt (Grid)

/-- A value that is hashed, with its type. -/
inductive HashInput
  | bool (b : Bool)
  | u8 (n : UInt8)
  | u16 (n : ℕ)
  | u32 (n : ℕ)
  | u64 (n : ℕ)
  | usize (n : ℕ)
  | str (text : String)
  | optStr (text : Option String)
  | optUsize (n : Option ℕ)
  | optU32 (n : Option PaneId)
  | vecU32 (ids : List PaneId)
  | slot (slot : InfoBarSlot)
  deriving DecidableEq

/-! ## What is hashed -/

/-- The fields of a pane that affect the structure. -/
def hashPane (p : TreePane) : List HashInput :=
  [.str p.title, .optStr p.cwd, .u16 p.grid.cursorCol, .u16 p.grid.cursorRow,
    .usize p.scrollback.len, .usize p.scrollOffset]

def CloseWindowDialog.hashInputs (d : CloseWindowDialog) : List HashInput :=
  [.str d.message, .str d.killLabel, .str d.cancelLabel, .u8 d.selectedButton]

/-- The actions of the items are not among the inputs. -/
def ContextMenu.hashInputs (m : ContextMenu) : List HashInput :=
  .usize m.items.length :: .optUsize m.hovered ::
    m.items.flatMap fun item => [.str item.label, .str item.hint]

/-- A list with a query: its entries are not among the inputs. -/
def queryInputs (isOpen : Bool) (query : String) (selected : ℕ) : List HashInput :=
  .bool isOpen :: if isOpen then [.str query, .usize selected] else []

def TextInputState.hashInputs (state : TextInputState) : List HashInput :=
  [.str state.buffer, .usize state.cursor, .optStr state.preedit]

def keyEditingInputs : Option KeyEditMode → List HashInput
  | none => [.u8 0]
  | some .record => [.u8 1]
  | some (.text state) => .u8 2 :: state.hashInputs

def hostInputs (host : SshHostEntry) : List HashInput :=
  [.str host.name, .str host.host, .u16 host.port.toNat, .str host.username, .str host.authType]

/-- The fields of the panel, whatever its category. -/
def Panel.hashInputs (loc : Locale) (p : Panel) : List HashInput :=
  ([.str (p.category.label loc), .str p.fontFamily, .bool p.fontFamilyEditing,
    .u32 p.fontSize.toNat, .u32 p.opacity.toNat, .usize p.schemeIndex, .usize p.languageIndex,
    .bool p.autoCheckUpdate, .u16 p.focusedWidgetIndex.toNat,
    .str (p.cursorStyleTomlKey), .str (p.presentModeTomlKey),
    .u32 p.paddingX.toNat, .u32 p.paddingY.toNat,
    .usize p.selectedProfile, .usize p.activeProfileIndex] : List HashInput) ++
  (.usize p.profiles.length :: p.profiles.flatMap fun prof => [.str prof.name, .str prof.icon] :
    List HashInput) ++
  ([.usize p.selectedHostIndex, .u16 p.focusedWidgetIndex.toNat] : List HashInput) ++
  (.usize p.sshHosts.length :: p.sshHosts.flatMap hostInputs : List HashInput) ++
  (p.sshFieldEditing.elim [.u8 0] TextInputState.hashInputs : List HashInput) ++
  ([.bool p.sshDeleteDialogOpen, .bool p.sshDeleteDialogConfirmFocused,
    .usize p.selectedKeyIndex, .u16 p.focusedWidgetIndex.toNat] : List HashInput) ++
  (.usize p.keybindings.length :: p.keybindings.flatMap fun kb => [.str kb.key, .str kb.action] :
    List HashInput) ++
  ([.bool p.keyDeleteDialogOpen, .bool p.keyDeleteDialogConfirmFocused, .str p.leaderKey] :
    List HashInput) ++
  (p.leaderKeyEditing.elim [.u8 0] fun state => .u8 1 :: state.hashInputs : List HashInput) ++
  keyEditingInputs p.keyEditing

def QuickSelectState.hashInputs (qs : QuickSelectState) : List HashInput :=
  .str qs.typedLabel ::
    .usize qs.quickMatches.length :: qs.quickMatches.flatMap fun m => [.str m.label, .str m.text]

/-- The slot of a bar and its text; the offline bar contributes only its presence. -/
def InfoBarKind.hashInputs (kind : InfoBarKind) : List HashInput :=
  .slot kind.slot ::
    match kind with
    | .updateAvailable version => [.str version]
    | .serverError message => [.str message]
    | .offline _ => []

def AlertKind.asU8 : AlertKind → UInt8
  | .bell => 0
  | .notification => 1

namespace ClientState

variable (s : ClientState)

/-- The panes in tab order; without one, in the order of their ids. -/
def hashedPanes : List (PaneId × TreePane) :=
  (if s.tabOrder = [] then s.panes.keys.mergeSort (· ≤ ·) else s.tabOrder).filterMap fun id =>
    (s.panes.get id).map fun p => (id, p)

/-- The bars that are not dismissed, as they are queued. -/
def liveQueue : List InfoBar := s.infoBars.filter (!·.isDismissed)

/-- What `compute_tree_state_hash` feeds to the hasher. -/
def treeStateInputs (loc : Locale) : List HashInput :=
  [.vecU32 s.tabOrder, .optU32 s.focusedPaneId] ++
  (s.hashedPanes.flatMap fun entry => .u32 entry.1.toNat :: hashPane entry.2) ++
  (s.closeWindowDialog.elim [.u8 0] fun d => .u8 1 :: d.hashInputs) ++
  (s.contextMenu.elim [.u8 0] fun m => .u8 1 :: m.hashInputs) ++
  queryInputs s.palette.isOpen s.palette.query s.palette.selected ++
  queryInputs s.hostManager.isOpen s.hostManager.query s.hostManager.selected ++
  queryInputs s.macroPicker.isOpen s.macroPicker.query s.macroPicker.selected ++
  (.bool s.settingsPanel.isOpen ::
    if s.settingsPanel.isOpen then s.settingsPanel.hashInputs loc else []) ++
  (.bool s.quickSelect.isActive ::
    if s.quickSelect.isActive then s.quickSelect.hashInputs else []) ++
  (.usize s.liveQueue.length :: s.liveQueue.flatMap fun bar => bar.kind.hashInputs) ++
  (.usize s.alerts.length :: s.alerts.flatMap fun entry => [.u64 entry.seq, .u8 entry.kind.asU8])

end ClientState

/-- The texts that `compute_grid_row_hashes` hashes, one for each row. -/
def gridRowTexts (grid : Grid) : List String :=
  (List.range (min grid.height grid.rows.length)).map (paneRowText grid)

/-! ## What can be read off -/

theorem delimited_textInput : Delimited TextInputState.hashInputs Eq := by
  rintro ⟨buffer, cursor, preedit⟩ ⟨buffer', cursor', preedit'⟩ r r' h
  simp only [TextInputState.hashInputs, List.cons_append, List.nil_append, List.cons.injEq,
    HashInput.str.injEq, HashInput.usize.injEq, HashInput.optStr.injEq] at h
  obtain ⟨rfl, rfl, rfl, hr⟩ := h
  exact ⟨rfl, hr⟩

theorem delimited_keyEditing : Delimited keyEditingInputs Eq := by
  rintro (_ | _ | state) (_ | _ | state') r r' h <;>
    simp only [keyEditingInputs, List.cons_append, List.nil_append, List.cons.injEq,
      HashInput.u8.injEq] at h
  · exact ⟨rfl, h.2⟩
  · exact absurd h.1 (by decide)
  · exact absurd h.1 (by decide)
  · exact absurd h.1 (by decide)
  · exact ⟨rfl, h.2⟩
  · exact absurd h.1 (by decide)
  · exact absurd h.1 (by decide)
  · exact absurd h.1 (by decide)
  · obtain ⟨rfl, hr⟩ := delimited_textInput h.2
    exact ⟨rfl, hr⟩

theorem delimited_host : Delimited hostInputs Eq := by
  rintro ⟨name, host, port, user, auth⟩ ⟨name', host', port', user', auth'⟩ r r' h
  simp only [hostInputs, List.cons_append, List.nil_append, List.cons.injEq,
    HashInput.str.injEq, HashInput.u16.injEq, UInt16.toNat_inj] at h
  obtain ⟨rfl, rfl, rfl, rfl, rfl, hr⟩ := h
  exact ⟨rfl, hr⟩

/-- Two texts. -/
theorem delimited_pair {α : Type} (f g : α → String) :
    Delimited (fun a => [HashInput.str (f a), .str (g a)]) fun a b => (f a, g a) = (f b, g b) := by
  intro a b r r' h
  simp only [List.cons_append, List.nil_append, List.cons.injEq, HashInput.str.injEq] at h
  exact ⟨Prod.ext h.1 h.2.1, h.2.2⟩

theorem delimited_fieldEditing : Delimited
    (fun o : Option TextInputState => o.elim [.u8 0] TextInputState.hashInputs) Eq := by
  rintro (_ | state) (_ | state') r r' h
  · exact ⟨rfl, (List.cons.inj h).2⟩
  · exact absurd (List.cons.inj h).1 nofun
  · exact absurd (List.cons.inj h).1 nofun
  · obtain ⟨rfl, hr⟩ := delimited_textInput h
    exact ⟨rfl, hr⟩

theorem delimited_leaderKeyEditing : Delimited
    (fun o : Option TextInputState => o.elim [.u8 0] fun state => .u8 1 :: state.hashInputs) Eq := by
  refine (Delimited.optional (by decide) delimited_textInput).mono ?_
  rintro _ _ (rfl | _)
  · rfl
  · rfl

/-- The panels show the same of what is hashed. -/
structure Panel.SameInputs (loc : Locale) (a b : Panel) : Prop where
  categoryLabel : a.category.label loc = b.category.label loc
  fontFamily : a.fontFamily = b.fontFamily
  fontFamilyEditing : a.fontFamilyEditing = b.fontFamilyEditing
  fontSize : a.fontSize = b.fontSize
  opacity : a.opacity = b.opacity
  schemeIndex : a.schemeIndex = b.schemeIndex
  languageIndex : a.languageIndex = b.languageIndex
  autoCheckUpdate : a.autoCheckUpdate = b.autoCheckUpdate
  focusedWidgetIndex : a.focusedWidgetIndex = b.focusedWidgetIndex
  cursorStyle : a.cursorStyle = b.cursorStyle
  presentMode : a.presentMode = b.presentMode
  paddingX : a.paddingX = b.paddingX
  paddingY : a.paddingY = b.paddingY
  selectedProfile : a.selectedProfile = b.selectedProfile
  activeProfileIndex : a.activeProfileIndex = b.activeProfileIndex
  profiles : a.profiles.map (fun prof => (prof.name, prof.icon)) =
    b.profiles.map fun prof => (prof.name, prof.icon)
  selectedHostIndex : a.selectedHostIndex = b.selectedHostIndex
  sshHosts : a.sshHosts = b.sshHosts
  sshFieldEditing : a.sshFieldEditing = b.sshFieldEditing
  sshDeleteDialogOpen : a.sshDeleteDialogOpen = b.sshDeleteDialogOpen
  sshDeleteDialogConfirmFocused :
    a.sshDeleteDialogConfirmFocused = b.sshDeleteDialogConfirmFocused
  selectedKeyIndex : a.selectedKeyIndex = b.selectedKeyIndex
  keybindings : a.keybindings = b.keybindings
  keyDeleteDialogOpen : a.keyDeleteDialogOpen = b.keyDeleteDialogOpen
  keyDeleteDialogConfirmFocused :
    a.keyDeleteDialogConfirmFocused = b.keyDeleteDialogConfirmFocused
  leaderKey : a.leaderKey = b.leaderKey
  leaderKeyEditing : a.leaderKeyEditing = b.leaderKeyEditing
  keyEditing : a.keyEditing = b.keyEditing

theorem cursorStyle_of_tomlKey {p q : SettingsPanel}
    (h : p.cursorStyleTomlKey = q.cursorStyleTomlKey) : p.cursorStyle = q.cursorStyle := by
  unfold SettingsPanel.cursorStyleTomlKey at h
  split at h <;> split at h <;> simp_all

theorem presentMode_of_tomlKey {p q : SettingsPanel}
    (h : p.presentModeTomlKey = q.presentModeTomlKey) : p.presentMode = q.presentMode := by
  unfold SettingsPanel.presentModeTomlKey at h
  split at h <;> split at h <;> simp_all

theorem keybinding_ext_pair {kb kb' : KeyBinding} (h : (kb.key, kb.action) = (kb'.key, kb'.action)) :
    kb = kb' := by
  cases kb
  cases kb'
  cases h
  rfl

theorem delimited_panel (loc : Locale) :
    Delimited (Panel.hashInputs loc) (Panel.SameInputs loc) := by
  intro a b r r' h
  simp only [Panel.hashInputs, List.append_assoc, List.cons_append, List.nil_append,
    List.cons.injEq, HashInput.str.injEq, HashInput.bool.injEq, HashInput.u32.injEq,
    HashInput.u16.injEq, HashInput.usize.injEq, UInt32.toNat_inj, UInt16.toNat_inj] at h
  obtain ⟨hlabel, hfamily, hfamilyEditing, hsize, hopacity, hscheme, hlanguage, hupdate, hfocus,
    hcursor, hpresent, hpadX, hpadY, hprofile, hactive, hprofiles, h⟩ := h
  obtain ⟨hprofiles, h⟩ := (delimited_pair ProfileEntry.name ProfileEntry.icon).entries hprofiles h
  simp only [List.cons.injEq, HashInput.u16.injEq, HashInput.usize.injEq] at h
  obtain ⟨hhost, -, hhosts, h⟩ := h
  obtain ⟨hhosts, h⟩ := (delimited_host.mono (S := fun a b => id a = id b) fun _ _ => id).entries
    hhosts h
  obtain ⟨hfield, h⟩ := delimited_fieldEditing h
  simp only [List.cons.injEq, HashInput.bool.injEq, HashInput.u16.injEq,
    HashInput.usize.injEq] at h
  obtain ⟨hsshOpen, hsshConfirm, hkey, -, hkeys, h⟩ := h
  obtain ⟨hkeys, h⟩ := (delimited_pair KeyBinding.key KeyBinding.action).entries hkeys h
  simp only [List.cons.injEq, HashInput.bool.injEq, HashInput.str.injEq] at h
  obtain ⟨hkeyOpen, hkeyConfirm, hleader, h⟩ := h
  obtain ⟨hleaderEditing, h⟩ := delimited_leaderKeyEditing h
  obtain ⟨hkeyEditing, hr⟩ := delimited_keyEditing h
  refine ⟨⟨hlabel, hfamily, hfamilyEditing, hsize, hopacity, hscheme, hlanguage, hupdate, hfocus,
    cursorStyle_of_tomlKey hcursor, presentMode_of_tomlKey hpresent, hpadX, hpadY,
    hprofile, hactive, hprofiles, hhost, ?_, hfield, hsshOpen, hsshConfirm, hkey, ?_, hkeyOpen,
    hkeyConfirm, hleader, hleaderEditing, hkeyEditing⟩, hr⟩
  · rwa [List.map_id, List.map_id] at hhosts
  · exact List.map_injective_iff.2 (fun _ _ => keybinding_ext_pair) hkeys

theorem delimited_closeDialog : Delimited
    (fun o : Option CloseWindowDialog => o.elim [.u8 0] fun d => .u8 1 :: d.hashInputs) Eq := by
  have hdialog : Delimited CloseWindowDialog.hashInputs Eq := by
    rintro ⟨message, kill, cancel, selected⟩ ⟨message', kill', cancel', selected'⟩ r r' h
    simp only [CloseWindowDialog.hashInputs, List.cons_append, List.nil_append, List.cons.injEq,
      HashInput.str.injEq, HashInput.u8.injEq] at h
    obtain ⟨rfl, rfl, rfl, rfl, hr⟩ := h
    exact ⟨rfl, hr⟩
  refine (Delimited.optional (by decide) hdialog).mono ?_
  rintro _ _ (rfl | _)
  · rfl
  · rfl

structure ContextMenu.SameInputs (a b : ContextMenu) : Prop where
  hovered : a.hovered = b.hovered
  texts : a.items.map (fun item => (item.label, item.hint)) =
    b.items.map fun item => (item.label, item.hint)

theorem delimited_contextMenu : Delimited
    (fun o : Option ContextMenu => o.elim [.u8 0] fun m => .u8 1 :: m.hashInputs)
    (Option.Rel ContextMenu.SameInputs) := by
  refine Delimited.optional (by decide) ?_
  intro a b r r' h
  simp only [ContextMenu.hashInputs, List.cons_append, List.cons.injEq, HashInput.usize.injEq,
    HashInput.optUsize.injEq] at h
  obtain ⟨hlen, hhovered, h⟩ := h
  obtain ⟨htexts, hr⟩ := (delimited_pair ContextMenuItem.label ContextMenuItem.hint).entries hlen h
  exact ⟨⟨hhovered, htexts⟩, hr⟩

theorem of_queryInputs {isOpen isOpen' : Bool} {query query' : String} {selected selected' : ℕ}
    {r r' : List HashInput}
    (h : queryInputs isOpen query selected ++ r = queryInputs isOpen' query' selected' ++ r') :
    (isOpen = isOpen' ∧ (isOpen → query = query' ∧ selected = selected')) ∧ r = r' := by
  have hpair : Delimited (fun q : String × ℕ => [HashInput.str q.1, .usize q.2])
      fun q q' => q.1 = q'.1 ∧ q.2 = q'.2 := by
    intro q q' r r' h
    simp only [List.cons_append, List.nil_append, List.cons.injEq, HashInput.str.injEq,
      HashInput.usize.injEq] at h
    exact ⟨⟨h.1, h.2.1⟩, h.2.2⟩
  have hbool : Function.Injective HashInput.bool := fun _ _ => HashInput.bool.inj
  exact (Delimited.guarded hbool Prod.fst (hpair.comp Prod.snd))
    (a := (isOpen, query, selected)) (b := (isOpen', query', selected')) h

structure QuickSelectState.SameInputs (a b : QuickSelectState) : Prop where
  typedLabel : a.typedLabel = b.typedLabel
  quickMatches : a.quickMatches = b.quickMatches

theorem delimited_quickSelect :
    Delimited QuickSelectState.hashInputs QuickSelectState.SameInputs := by
  intro a b r r' h
  simp only [QuickSelectState.hashInputs, List.cons_append, List.cons.injEq, HashInput.str.injEq,
    HashInput.usize.injEq] at h
  obtain ⟨htyped, hlen, h⟩ := h
  obtain ⟨hmatches, hr⟩ :=
    (delimited_pair QuickSelectMatch.label QuickSelectMatch.text).entries hlen h
  refine ⟨⟨htyped, List.map_injective_iff.2 ?_ hmatches⟩, hr⟩
  rintro ⟨text, label⟩ ⟨text', label'⟩ h
  cases h
  rfl

theorem delimited_infoBar : Delimited (fun bar : InfoBar => bar.kind.hashInputs)
    fun a b => a.kind.hashInputs = b.kind.hashInputs := by
  rintro ⟨kind, _⟩ ⟨kind', _⟩ r r' h
  cases kind <;> cases kind' <;>
    simp_all [InfoBarKind.hashInputs, InfoBarKind.slot]

theorem AlertKind.asU8_injective : Function.Injective asU8 := by
  rintro (_ | _) (_ | _) h <;> first | rfl | exact absurd h (by decide)

theorem delimited_alert :
    Delimited (fun entry : AlertEntry => [HashInput.u64 entry.seq, .u8 entry.kind.asU8])
      fun a b => (a.seq, a.kind) = (b.seq, b.kind) := by
  intro a b r r' h
  simp only [List.cons_append, List.nil_append, List.cons.injEq, HashInput.u64.injEq,
    HashInput.u8.injEq] at h
  exact ⟨Prod.ext h.1 (AlertKind.asU8_injective h.2.1), h.2.2⟩

theorem delimited_paneEntry :
    Delimited (fun entry : PaneId × TreePane => .u32 entry.1.toNat :: hashPane entry.2)
      fun a b => (a.1, hashPane a.2) = (b.1, hashPane b.2) := by
  intro a b r r' h
  obtain ⟨hid, hrest⟩ := List.cons.inj h
  obtain ⟨hpane, hr⟩ := List.append_inj hrest rfl
  exact ⟨Prod.ext (UInt32.toNat_inj.1 (HashInput.u32.inj hid)) hpane, hr⟩

/-- The states have the same of what is hashed. -/
structure SameInputs (loc : Locale) (s s' : ClientState) : Prop where
  tabOrder : s.tabOrder = s'.tabOrder
  focusedPaneId : s.focusedPaneId = s'.focusedPaneId
  panes : s.hashedPanes.map (fun entry => (entry.1, hashPane entry.2)) =
    s'.hashedPanes.map fun entry => (entry.1, hashPane entry.2)
  closeWindowDialog : s.closeWindowDialog = s'.closeWindowDialog
  contextMenu : Option.Rel ContextMenu.SameInputs s.contextMenu s'.contextMenu
  palette : s.palette.isOpen = s'.palette.isOpen ∧ (s.palette.isOpen →
    s.palette.query = s'.palette.query ∧ s.palette.selected = s'.palette.selected)
  hostManager : s.hostManager.isOpen = s'.hostManager.isOpen ∧ (s.hostManager.isOpen →
    s.hostManager.query = s'.hostManager.query ∧ s.hostManager.selected = s'.hostManager.selected)
  macroPicker : s.macroPicker.isOpen = s'.macroPicker.isOpen ∧ (s.macroPicker.isOpen →
    s.macroPicker.query = s'.macroPicker.query ∧ s.macroPicker.selected = s'.macroPicker.selected)
  settingsPanel : s.settingsPanel.isOpen = s'.settingsPanel.isOpen ∧
    (s.settingsPanel.isOpen → s.settingsPanel.SameInputs loc s'.settingsPanel)
  quickSelect : s.quickSelect.isActive = s'.quickSelect.isActive ∧
    (s.quickSelect.isActive → s.quickSelect.SameInputs s'.quickSelect)
  infoBars : s.liveQueue.map (fun bar => bar.kind.hashInputs) =
    s'.liveQueue.map fun bar => bar.kind.hashInputs
  alerts : s.alerts.map (fun entry => (entry.seq, entry.kind)) =
    s'.alerts.map fun entry => (entry.seq, entry.kind)

/-- **What is hashed can be read off what is fed to the hasher.** -/
theorem sameInputs_of_treeStateInputs {loc : Locale} {s s' : ClientState}
    (h : s.treeStateInputs loc = s'.treeStateInputs loc) : SameInputs loc s s' := by
  have hbool : Function.Injective HashInput.bool := fun _ _ => HashInput.bool.inj
  have hcount : Function.Injective HashInput.usize := fun _ _ => HashInput.usize.inj
  -- The entries of the panes end where the dialog begins.
  have hdialog : ∀ (o : Option CloseWindowDialog) (r : List HashInput), ∀ x ∈
      (o.elim [.u8 0] (fun d => .u8 1 :: d.hashInputs) ++ r).head?, ¬ ∃ n, x = .u32 n := by
    rintro (_ | d) r x hx ⟨n, rfl⟩ <;> cases hx
  simp only [ClientState.treeStateInputs, List.append_assoc, List.cons_append, List.nil_append,
    List.cons.injEq, HashInput.vecU32.injEq, HashInput.optU32.injEq] at h
  obtain ⟨htabs, hfocus, h⟩ := h
  obtain ⟨hpanes, h⟩ := delimited_paneEntry.until_stop (P := fun x => ∃ n, x = .u32 n)
    (fun _ => ⟨_, rfl, _, rfl⟩) (hdialog _ _) (hdialog _ _) h
  obtain ⟨hclose, h⟩ := delimited_closeDialog h
  obtain ⟨hmenu, h⟩ := delimited_contextMenu h
  obtain ⟨hpalette, h⟩ := of_queryInputs h
  obtain ⟨hhosts, h⟩ := of_queryInputs h
  obtain ⟨hmacros, h⟩ := of_queryInputs h
  obtain ⟨hpanel, h⟩ := (Delimited.guarded hbool Panel.isOpen (delimited_panel loc)) h
  obtain ⟨hquick, h⟩ :=
    (Delimited.guarded hbool QuickSelectState.isActive delimited_quickSelect) h
  obtain ⟨hbars, h⟩ := (Delimited.counted hcount delimited_infoBar) h
  obtain ⟨halerts, -⟩ := (Delimited.counted hcount delimited_alert)
    (congrArg (· ++ ([] : List HashInput)) h)
  exact ⟨htabs, hfocus, hpanes, hclose, hmenu, hpalette, hhosts, hmacros, hpanel, hquick, hbars,
    halerts⟩

end Nexterm.A11y

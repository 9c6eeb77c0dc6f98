/-
  The client while a screen reader listens (`state/mod.rs`, `state/server_message.rs`,
  `event_handler/accessibility.rs`): messages of the server, actions of the screen reader, bars,
  alerts and overlays.

  * `ClientOp`, `step`: what can happen to the state that the tree is built from.
  * `Meets`: what an operation has to meet for the next tree to be well formed.
  * `Inv.step`: such operations keep everything that a tree needs.
  * `well_formed_of_meets`: in a run of such operations every tree is well formed.
-/
import Nexterm.A11y.Shape
import Nexterm.Lib.Runs

namespace Nexterm.A11y

open Nexterm.Vt (DirtyRow Grid)
open Nexterm.Settings (F32)

/-! ## Panes -/

namespace Panes

variable (ps : Panes)

/-- Change the pane with an id. -/
def modify (paneId : PaneId) (f : TreePane → TreePane) : Panes where
  toList := ps.toList.map fun e => (e.1, if e.1 = paneId then f e.2 else e.2)
  nodup := by
    rw [List.map_map]
    exact ps.nodup

/-- Add a pane under an id that is not there. -/
def insertNew (paneId : PaneId) (pane : TreePane) (h : paneId ∉ ps.keys) : Panes where
  toList := ps.toList ++ [(paneId, pane)]
  nodup := by
    rw [List.map_append, List.nodup_append]
    refine ⟨ps.nodup, List.nodup_singleton _, ?_⟩
    intro k hk k' hk' heq
    rw [List.map_singleton, List.mem_singleton] at hk'
    rw [heq, hk'] at hk
    exact h hk

/-- Change all panes, if none of the changes panics. -/
def mapM (f : TreePane → Option TreePane) : Option Panes :=
  if h : ∀ e ∈ ps.toList, (f e.2).isSome then
    some
      { toList := ps.toList.pmap (fun e he => (e.1, (f e.2).get he)) h
        nodup := by
          rw [List.map_pmap, List.pmap_eq_map]
          exact ps.nodup }
  else none

/-- Walk the map in another order. -/
def reorder (order : List PaneId) : Panes :=
  if h : order.Perm ps.keys then
    { toList := order.filterMap fun k => (ps.get k).map fun pane => (k, pane)
      nodup := (map_fst_filterMap_sublist ps.get order).nodup (h.nodup_iff.2 ps.nodup) }
  else ps

/-! What the operations do to the keys. -/

variable {ps : Panes}

@[simp] theorem keys_modify {paneId : PaneId} {f : TreePane → TreePane} :
    (ps.modify paneId f).keys = ps.keys := by
  simp only [modify, keys, List.map_map, Function.comp_def]

@[simp] theorem keys_insertNew {paneId : PaneId} {pane : TreePane} {h : paneId ∉ ps.keys} :
    (ps.insertNew paneId pane h).keys = ps.keys ++ [paneId] := by
  simp only [insertNew, keys, List.map_append, List.map_cons, List.map_nil]

theorem keys_mapM {f : TreePane → Option TreePane} {ps' : Panes} (h : ps.mapM f = some ps') :
    ps'.keys = ps.keys := by
  unfold mapM at h
  split_ifs at h with hall
  obtain rfl := Option.some.inj h
  simp only [keys, List.map_pmap, List.pmap_eq_map]

theorem keys_reorder {order : List PaneId} : (ps.reorder order).keys.Perm ps.keys := by
  unfold reorder
  split_ifs with h
  · refine List.Perm.trans ?_ h
    have hget : ∀ k ∈ order, ∃ pane, ps.get k = some pane :=
      fun k hk => mem_keys.1 (h.mem_iff.1 hk)
    rw [keys]
    simp only []
    clear h
    induction order with
    | nil => exact List.Perm.refl _
    | cons k order ih =>
      obtain ⟨pane, hpane⟩ := hget k List.mem_cons_self
      rw [List.filterMap_cons, hpane]
      exact (ih fun k' hk' => hget k' (List.mem_cons_of_mem _ hk')).cons k
  · exact List.Perm.refl _

end Panes

/-! ## Actions on the overlays -/

namespace Panel

/-- Set the category; the focus and what is being edited belong to the old one. -/
def setCategory (sp : Panel) (cat : SettingsCategory) : Panel :=
  { sp with
    category := cat
    focusedWidgetIndex := 0
    sshFieldEditing := none
    securityFieldEditing := none
    shellFieldEditing := none
    fontFallbacksEditing := none
    leaderKeyEditing := none
    fontFamilyEditing := false
    keyEditing := none }

/-- The focus index of the panel is set to the index of this widget. -/
def takesFocus (id : WidgetId) : Bool :=
  id.category = themeCategory ||
  (id.category = windowCategory && decide (id.index.toNat < windowRowCount)) ||
  (id.category = fontCategory && decide (id.index.toNat < fontRowCount)) ||
  (id.category = startupCategory && decide (id.index.toNat < startupRowCount)) ||
  (id.category = securityCategory && decide (id.index.toNat < securityRowCount)) ||
  (id.category = sshCategory && decide (1 ≤ id.index ∧ id.index ≤ 7)) ||
  (id.category = keybindingsCategory && decide (1 ≤ id.index ∧ id.index ≤ 5))

/-- The index is one of the entries of a list. -/
def isEntry (base index : UInt16) (count : ℕ) : Bool :=
  base ≤ index && decide ((index - base).toNat < count)

/-- The screen reader focuses a widget.  An entry of a list is selected instead. -/
def focusWidget (sp : Panel) (id : WidgetId) : Panel :=
  if takesFocus id then { sp with focusedWidgetIndex := id.index }
  else if id.category = profilesCategory ∧ isEntry profilesListBase id.index sp.profiles.length then
    { sp with selectedProfile := (id.index - profilesListBase).toNat }
  else if id.category = sshCategory ∧ isEntry sshListBase id.index sp.sshHosts.length then
    { sp with selectedHostIndex := (id.index - sshListBase).toNat, focusedWidgetIndex := 0 }
  else if id.category = keybindingsCategory ∧
      isEntry keyListBase id.index sp.keybindings.length then
    { sp with selectedKeyIndex := (id.index - keyListBase).toNat, focusedWidgetIndex := 0 }
  else sp

/-- The screen reader focuses a part of the panel (`dispatch_settings_action`). -/
def focusOn (sp : Panel) : NodeIdKind → Panel
  | .settingsTab idx => (SettingsCategory.all[idx]?).elim sp sp.setCategory
  | .settingsWidget id => sp.focusWidget id
  | .settingsSshDeleteCancelBtn => { sp with sshDeleteDialogConfirmFocused := false }
  | .settingsSshDeleteConfirmBtn => { sp with sshDeleteDialogConfirmFocused := true }
  | .settingsKeyDeleteCancelBtn => { sp with keyDeleteDialogConfirmFocused := false }
  | .settingsKeyDeleteConfirmBtn => { sp with keyDeleteDialogConfirmFocused := true }
  | _ => sp

end Panel

def CloseWindowDialog.focusOn (dialog : CloseWindowDialog) : NodeIdKind → CloseWindowDialog
  | .closeDialogKill => { dialog with selectedButton := 0 }
  | .closeDialogCancel => { dialog with selectedButton := 1 }
  | _ => dialog

def ContextMenu.focusOn (menu : ContextMenu) : NodeIdKind → ContextMenu
  | .contextItem idx => if idx < menu.items.length then { menu with hovered := some idx } else menu
  | _ => menu

def CommandPalette.focusOn (env : Env) (t : Clock) (palette : CommandPalette) :
    NodeIdKind → CommandPalette
  | .paletteItem idx =>
    if palette.isOpen ∧ idx < (palette.filtered env t).length then { palette with selected := idx }
    else palette
  | _ => palette

def HostManager.focusOn (env : Env) (manager : HostManager) : NodeIdKind → HostManager
  | .hostItem idx =>
    if manager.isOpen ∧ idx < (manager.filtered env).length then { manager with selected := idx }
    else manager
  | _ => manager

def MacroPicker.focusOn (picker : MacroPicker) : NodeIdKind → MacroPicker
  | .macroItem idx => if picker.isOpen then { picker with selected := idx } else picker
  | _ => picker

/-- The screen reader focuses a part of an overlay, shown or not. -/
def Surfaces.focusOn (env : Env) (t : Clock) (o : Surfaces) (kind : NodeIdKind) : Surfaces where
  closeWindowDialog := o.closeWindowDialog.map (·.focusOn kind)
  quickSelect := o.quickSelect
  contextMenu := o.contextMenu.map (·.focusOn kind)
  palette := o.palette.focusOn env t kind
  hostManager := o.hostManager.focusOn env kind
  macroPicker := o.macroPicker.focusOn kind
  settingsPanel := o.settingsPanel.focusOn kind

/-- The overlays of a new client: none is open. -/
def Surfaces.closed (o : Surfaces) : Surfaces where
  closeWindowDialog := none
  quickSelect := { o.quickSelect with isActive := false }
  contextMenu := none
  palette := { o.palette with isOpen := false }
  hostManager := { o.hostManager with isOpen := false }
  macroPicker := { o.macroPicker with isOpen := false }
  settingsPanel := { o.settingsPanel with isOpen := false }

/-! ## Operations -/

/-- What the screen reader asks for. -/
inductive Action
  | focus
  | click
  | scrollUp
  | scrollDown
  deriving DecidableEq

inductive ClientOp
  | fullRefresh (paneId : PaneId) (grid : Grid)
  | gridDiff (paneId : PaneId) (dirtyRows : List DirtyRow) (cursorCol cursorRow : ℕ)
  | semanticMark (paneId : PaneId) (kind : String) (exitCode : Option Int32)
  | titleChanged (paneId : PaneId) (title : String)
  | cwdChanged (paneId : PaneId) (cwd : String)
  | layoutChanged (paneIds : List PaneId) (focusedPaneId : PaneId)
  | bell (paneId : PaneId) (now : ℕ)
  | desktopNotification (paneId : PaneId) (title body : String) (now : ℕ)
  | error (message : String) (now : ℕ)
  /-- A message that changes nothing the tree is built from. -/
  | otherMessage
  /-- An action of the screen reader on a node; `rows` is the height of the window.  A click that
      closes an overlay, and a value that is set, are `surfaces`. -/
  | access (t : Clock) (action : Action) (target rows : ℕ)
  /-- A click on the border of a pane. -/
  | setFocusedPane (paneId : PaneId)
  /-- A scroll, a jump to a prompt or a search hit. -/
  | scrollTo (paneId : PaneId) (offset : ℕ)
  | setScrollbackCapacity (capacity : ℕ)
  /-- The map of the panes is walked in another order. -/
  | reorderPanes (order : List PaneId)
  | expireAlerts (now : ℕ)
  | pushInfoBar (kind : InfoBarKind) (now : ℕ)
  | dismissInfoBar (slot : InfoBarSlot) (exit : ℕ)
  | expireInfoBars (now exit : ℕ)
  | retireInfoBars (now : ℕ)
  | windowButtons (rect : Option (F32 × F32))
  /-- Any change of the overlays: one is opened or closed, a key is pressed, a setting is changed. -/
  | surfaces (o : Surfaces)

def alertsMaxLen : ℕ := 16

/-- Nanoseconds. -/
def alertTtl : ℕ := 5 * 10 ^ 9

/-- Nanoseconds. -/
def infoBarTtl : ℕ := 20 * 10 ^ 9

namespace ClientState

variable (s : ClientState)

/-- A client before the first message. -/
def new (config : Surfaces) (scrollbackCapacity : ℕ) : ClientState where
  toSurfaces := config.closed
  tabOrder := []
  panes := ⟨[], List.nodup_nil⟩
  focusedPaneId := none
  windowCloseHitRect := none
  infoBars := []
  alerts := []
  nextAlertSeq := 0
  scrollbackCapacity := scrollbackCapacity

def modifyPane (paneId : PaneId) (f : TreePane → TreePane) : ClientState :=
  { s with panes := s.panes.modify paneId f }

/-- The first grid of a pane adds it; the first pane gets the focus. -/
def fullRefresh (paneId : PaneId) (grid : Grid) : ClientState :=
  let panes :=
    if h : paneId ∈ s.panes.keys then s.panes
    else
      s.panes.insertNew paneId
        { Client.PaneState.new grid.width grid.height s.scrollbackCapacity with
          title := "", cwd := none } h
  { s with
    panes := panes.modify paneId fun pane =>
      { pane with toPaneState := pane.toPaneState.fullRefresh grid }
    focusedPaneId := s.focusedPaneId <|> some paneId }

def gridDiff (paneId : PaneId) (dirtyRows : List DirtyRow) (cursorCol cursorRow : ℕ) :
    Option ClientState :=
  match s.panes.get paneId with
  | none => some s
  | some pane => do
    let state ← pane.toPaneState.applyDiff dirtyRows cursorCol cursorRow
    some (s.modifyPane paneId fun pane => { pane with toPaneState := state })

/-- Push an alert onto the queue; past the cap the oldest one is dropped. -/
def addAlert (kind : AlertKind) (paneId : PaneId) (title body : String) (now : ℕ) : ClientState :=
  let alerts := s.alerts ++ [⟨s.nextAlertSeq, kind, paneId, title, body, now⟩]
  { s with
    nextAlertSeq := (s.nextAlertSeq + 1) % 2 ^ 64
    alerts := alerts.drop (alerts.length - alertsMaxLen) }

/-- Remove alerts whose TTL has expired, up to the first fresh one. -/
def expireAlerts (now : ℕ) : ClientState :=
  { s with alerts := s.alerts.dropWhile fun a => alertTtl ≤ now - a.createdAt }

def dismissAlert (seq : ℕ) : ClientState :=
  { s with alerts := s.alerts.filter fun a => a.seq ≠ seq }

def removeInfoBar (slot : InfoBarSlot) : ClientState :=
  { s with infoBars := s.infoBars.filter fun bar => bar.kind.slot ≠ slot }

/-- Queue a bar, replacing any bar already in that slot. -/
def pushInfoBar (kind : InfoBarKind) (now : ℕ) : ClientState :=
  if s.infoBars.any fun bar => bar.kind = kind && !bar.isDismissed then s
  else
    let s := s.removeInfoBar kind.slot
    let expiresAt := if kind.severity = .info then some (now + infoBarTtl) else none
    { s with infoBars := s.infoBars ++ [⟨kind, now, none, expiresAt⟩] }

/-- Start the exit of the bar in a slot; `exit` is when it will be over. -/
def dismissInfoBar (slot : InfoBarSlot) (exit : ℕ) : ClientState :=
  match s.infoBars.findIdx? fun bar => bar.kind.slot = slot && !bar.isDismissed with
  | none => s
  | some i => { s with infoBars := s.infoBars.modify i fun bar => { bar with exit := some exit } }

/-- Dismiss every bar whose deadline has passed. -/
def expireInfoBars (now exit : ℕ) : ClientState :=
  let expired := s.infoBars.filter fun bar => !bar.isDismissed && bar.expiresAt.any (· ≤ now)
  (expired.map fun bar => bar.kind.slot).foldl (fun s slot => s.dismissInfoBar slot exit) s

/-- Drop the bars whose exit is over. -/
def retireInfoBars (now : ℕ) : ClientState :=
  { s with infoBars := s.infoBars.filter fun bar => !bar.exit.any (· ≤ now) }

def scrollUp (lines : ℕ) : ClientState :=
  match s.focusedPaneId with
  | none => s
  | some paneId =>
    s.modifyPane paneId fun pane =>
      { pane with scrollOffset := min (pane.scrollOffset + lines) (pane.scrollback.len - 1) }

def scrollDown (lines : ℕ) : ClientState :=
  match s.focusedPaneId with
  | none => s
  | some paneId =>
    s.modifyPane paneId fun pane => { pane with scrollOffset := pane.scrollOffset - lines }

/-- An action of the screen reader, by what its target was decoded to. -/
def handleAccesskitAction (env : Env) (t : Clock) (rows : ℕ) : Action → NodeIdKind → ClientState
  | .focus, .tab paneId | .focus, .pane paneId | .click, .tab paneId | .click, .pane paneId =>
    { s with focusedPaneId := some paneId }
  | .focus, kind => { s with toSurfaces := s.toSurfaces.focusOn env t kind }
  | .click, .settingsTab idx =>
    { s with toSurfaces := s.toSurfaces.focusOn env t (.settingsTab idx) }
  | .click, .alert seq => s.dismissAlert seq
  | .scrollUp, .paneArea => s.scrollUp (max (rows / 2) 1)
  | .scrollDown, .paneArea => s.scrollDown (max (rows / 2) 1)
  | _, _ => s

/-- The client after an operation, if it has not panicked. -/
def step (env : Env) : ClientOp → Option ClientState
  | .fullRefresh paneId grid => some (s.fullRefresh paneId grid)
  | .gridDiff paneId dirtyRows cursorCol cursorRow =>
    s.gridDiff paneId dirtyRows cursorCol cursorRow
  | .semanticMark paneId kind exitCode =>
    some (s.modifyPane paneId fun pane =>
      { pane with toPaneState := pane.toPaneState.semanticMark paneId.toNat kind exitCode })
  | .titleChanged paneId title => some (s.modifyPane paneId fun pane => { pane with title := title })
  | .cwdChanged paneId cwd => some (s.modifyPane paneId fun pane => { pane with cwd := some cwd })
  | .layoutChanged paneIds focusedPaneId =>
    some { s with tabOrder := paneIds, focusedPaneId := some focusedPaneId }
  | .bell paneId now => some (s.addAlert .bell paneId "Bell" "" now)
  | .desktopNotification paneId title body now =>
    some (s.addAlert .notification paneId title body now)
  | .error message now => some (s.pushInfoBar (.serverError message) now)
  | .otherMessage => some s
  | .access t action target rows =>
    some (s.handleAccesskitAction env t rows action (decodeNodeId target))
  | .setFocusedPane paneId => some { s with focusedPaneId := some paneId }
  | .scrollTo paneId offset =>
    some (s.modifyPane paneId fun pane => { pane with scrollOffset := offset })
  | .setScrollbackCapacity capacity => do
    let panes ← s.panes.mapM fun pane =>
      (pane.scrollback.setCapacity capacity).map fun ring => { pane with scrollback := ring }
    some { s with panes := panes, scrollbackCapacity := capacity }
  | .reorderPanes order => some { s with panes := s.panes.reorder order }
  | .expireAlerts now => some (s.expireAlerts now)
  | .pushInfoBar kind now => some (s.pushInfoBar kind now)
  | .dismissInfoBar slot exit => some (s.dismissInfoBar slot exit)
  | .expireInfoBars now exit => some (s.expireInfoBars now exit)
  | .retireInfoBars now => some (s.retireInfoBars now)
  | .windowButtons rect => some { s with windowCloseHitRect := rect }
  | .surfaces o => some { s with toSurfaces := o }

end ClientState

/-- One operation of a client; one that has panicked does nothing any more. -/
def stepOrPanic (env : Env) (s : Option ClientState) (op : ClientOp) : Option ClientState :=
  s.bind fun s => s.step env op

/-! ## What an operation has to meet -/

namespace ClientState

variable (env : Env) (s : ClientState)

/-- A pane may get the focus if it is one of the tabs, or behind an overlay. -/
def MayFocus (paneId : PaneId) : Prop := s.shown = none → paneId ∈ s.effectiveTabOrder

/-- What an action of the screen reader has to meet, by what its target was decoded to. -/
def MeetsAccess : Action → NodeIdKind → Prop
  | .focus, .tab paneId | .focus, .pane paneId | .click, .tab paneId | .click, .pane paneId =>
    s.MayFocus paneId
  | .focus, .settingsTab idx | .click, .settingsTab idx =>
    ∀ sp, s.shown = some (.settingsPanel sp) →
      ∀ cat, SettingsCategory.all[idx]? = some cat → sp.ListFits cat
  | .focus, .settingsWidget id =>
    ∀ sp, s.shown = some (.settingsPanel sp) →
      Panel.takesFocus id → Panel.FocusFits sp.category id.index
  | _, _ => True

/-- A layout names held panes, once each, and the focus is one of them; there are ids for a new
    alert; an overlay that is opened fits, and what was behind it is listed. -/
def Meets : ClientOp → Prop
  | .layoutChanged paneIds focusedPaneId =>
    paneIds.Nodup ∧ (∀ paneId ∈ paneIds, paneId ∈ s.panes.keys) ∧
      (s.shown = none → focusedPaneId ∈ if paneIds = [] then s.panes.keys else paneIds)
  | .bell .. | .desktopNotification .. => s.nextAlertSeq < 2 ^ 64 - alertOffset
  | .access _ action target _ => s.MeetsAccess action (decodeNodeId target)
  | .setFocusedPane paneId => s.MayFocus paneId
  | .surfaces o =>
    (∀ shown, o.shown = some shown → ∀ t, shown.Fits env t) ∧ (o.shown = none → s.FocusListed)
  | _ => True

/-- What a tree needs, and what the operations need to keep it. -/
structure Inv (env : Env) (s : ClientState) : Prop where
  tabs : s.TabsHeld
  focus : s.shown = none → s.FocusListed
  /-- A client with a layout has a focus. -/
  focused : s.tabOrder ≠ [] → s.focusedPaneId ≠ none
  overlay : ∀ shown, s.shown = some shown → ∀ t, shown.Fits env t
  bars : (s.infoBars.map fun bar => bar.kind.slot).Nodup
  alerts : (s.alerts.map AlertEntry.seq).Nodup
  alerts_lt : ∀ a ∈ s.alerts, a.seq < s.nextAlertSeq
  nextAlertSeq_le : s.nextAlertSeq ≤ 2 ^ 64 - alertOffset

variable {env s}

theorem Inv.fits (h : s.Inv env) (t : Clock) : s.Fits env t where
  tabs := h.tabs
  focus := h.focus
  overlay := fun shown hshown => h.overlay shown hshown t
  bars := by
    have hsorted := ((List.mergeSort_perm s.infoBars louder).map fun bar => bar.kind.slot).nodup_iff
    have hlive : (liveBars s.infoBars).Sublist (s.infoBars.mergeSort louder) := List.filter_sublist
    exact (hlive.map _).nodup (hsorted.2 h.bars)
  alerts := h.alerts
  alerts_lt := fun a ha => (h.alerts_lt a ha).trans_le h.nextAlertSeq_le

/-! ## What an operation keeps -/

theorem mem_effectiveTabOrder_perm {ps : Panes} (hk : ps.keys.Perm s.panes.keys) {paneId : PaneId} :
    paneId ∈ ({ s with panes := ps } : ClientState).effectiveTabOrder ↔
      paneId ∈ s.effectiveTabOrder := by
  simp only [effectiveTabOrder]
  split_ifs
  · exact hk.mem_iff
  · exact Iff.rfl

/-- The panes change, but not which panes there are. -/
theorem Inv.setPanes (h : s.Inv env) {ps : Panes} (hk : ps.keys.Perm s.panes.keys) :
    ({ s with panes := ps } : ClientState).Inv env where
  tabs := by
    refine ⟨?_, ?_⟩
    · have hnodup := h.tabs.nodup
      simp only [effectiveTabOrder] at hnodup ⊢
      split_ifs at hnodup ⊢
      · exact hk.nodup_iff.2 hnodup
      · exact hnodup
    · intro paneId hmem
      exact hk.mem_iff.2 (h.tabs.held paneId ((mem_effectiveTabOrder_perm hk).1 hmem))
  focus := fun hshown paneId hpane =>
    (mem_effectiveTabOrder_perm hk).2 (h.focus hshown paneId hpane)
  focused := h.focused
  overlay := h.overlay
  bars := h.bars
  alerts := h.alerts
  alerts_lt := h.alerts_lt
  nextAlertSeq_le := h.nextAlertSeq_le

theorem Inv.modifyPane (h : s.Inv env) (paneId : PaneId) (f : TreePane → TreePane) :
    (s.modifyPane paneId f).Inv env :=
  h.setPanes (by rw [Panes.keys_modify])

/-- A pane is added: without a layout it becomes a tab. -/
theorem Inv.insertNew (h : s.Inv env) {paneId : PaneId} (pane : TreePane)
    (hnew : paneId ∉ s.panes.keys) :
    ({ s with panes := s.panes.insertNew paneId pane hnew } : ClientState).Inv env where
  tabs := by
    have hnodup := h.tabs.nodup
    have hheld := h.tabs.held
    refine ⟨?_, ?_⟩
    · simp only [effectiveTabOrder] at hnodup ⊢
      split_ifs at hnodup ⊢
      · exact (s.panes.insertNew paneId pane hnew).nodup
      · exact hnodup
    · intro p hp
      simp only [effectiveTabOrder] at hheld hp ⊢
      split_ifs at hheld hp with hempty
      · exact hp
      · rw [Panes.keys_insertNew]
        exact List.mem_append_left _ (hheld p hp)
  focus := by
    intro hshown p hp
    have hlisted := h.focus hshown p hp
    simp only [effectiveTabOrder] at hlisted ⊢
    split_ifs at hlisted ⊢
    · rw [Panes.keys_insertNew]
      exact List.mem_append_left _ hlisted
    · exact hlisted
  focused := h.focused
  overlay := h.overlay
  bars := h.bars
  alerts := h.alerts
  alerts_lt := h.alerts_lt
  nextAlertSeq_le := h.nextAlertSeq_le

/-- The first pane gets the focus: there is no layout yet, so it is a tab. -/
theorem Inv.orFocus (h : s.Inv env) {paneId : PaneId} (hheld : paneId ∈ s.panes.keys) :
    ({ s with focusedPaneId := s.focusedPaneId <|> some paneId } : ClientState).Inv env where
  tabs := ⟨h.tabs.nodup, h.tabs.held⟩
  focus := by
    intro hshown p hp
    cases hfocus : s.focusedPaneId with
    | some q =>
      rw [hfocus] at hp
      exact h.focus hshown p (hfocus.trans hp)
    | none =>
      rw [hfocus] at hp
      obtain rfl : paneId = p := Option.some.inj hp
      have hempty : s.tabOrder = [] := by
        by_contra hne
        exact h.focused hne hfocus
      simp only [effectiveTabOrder, hempty, if_true]
      exact hheld
  focused := fun _ => by simp
  overlay := h.overlay
  bars := h.bars
  alerts := h.alerts
  alerts_lt := h.alerts_lt
  nextAlertSeq_le := h.nextAlertSeq_le

theorem Inv.fullRefresh (h : s.Inv env) (paneId : PaneId) (grid : Vt.Grid) :
    (s.fullRefresh paneId grid).Inv env := by
  have hadded : ∀ ps : Panes, ({ s with panes := ps } : ClientState).Inv env →
      paneId ∈ ps.keys → ({ s with
        panes := ps.modify paneId fun pane =>
          { pane with toPaneState := pane.toPaneState.fullRefresh grid }
        focusedPaneId := s.focusedPaneId <|> some paneId } : ClientState).Inv env :=
    fun ps hps hmem => (hps.orFocus hmem).modifyPane paneId _
  unfold ClientState.fullRefresh
  by_cases hheld : paneId ∈ s.panes.keys
  · rw [dif_pos hheld]
    exact hadded s.panes h hheld
  · rw [dif_neg hheld]
    refine hadded _ (h.insertNew _ hheld) ?_
    rw [Panes.keys_insertNew]
    exact List.mem_append_right _ List.mem_cons_self

theorem Inv.gridDiff (h : s.Inv env) {paneId : PaneId} {dirtyRows : List DirtyRow}
    {cursorCol cursorRow : ℕ} {s' : ClientState}
    (hstep : s.gridDiff paneId dirtyRows cursorCol cursorRow = some s') : s'.Inv env := by
  unfold ClientState.gridDiff at hstep
  cases hget : s.panes.get paneId with
  | none =>
    rw [hget] at hstep
    obtain rfl := Option.some.inj hstep
    exact h
  | some pane =>
    rw [hget] at hstep
    obtain ⟨state, -, hstate⟩ := Option.bind_eq_some_iff.1 hstep
    obtain rfl := Option.some.inj hstate
    exact h.modifyPane paneId _

/-- A layout of held panes. -/
theorem Inv.layoutChanged (h : s.Inv env) {paneIds : List PaneId} {focusedPaneId : PaneId}
    (hmeets : s.Meets env (.layoutChanged paneIds focusedPaneId)) :
    ({ s with tabOrder := paneIds, focusedPaneId := some focusedPaneId } : ClientState).Inv env
    where
  tabs := by
    refine ⟨?_, ?_⟩
    · simp only [effectiveTabOrder]
      split_ifs
      · exact s.panes.nodup
      · exact hmeets.1
    · intro p hp
      simp only [effectiveTabOrder] at hp
      split_ifs at hp
      · exact hp
      · exact hmeets.2.1 p hp
  focus := by
    intro hshown p hp
    obtain rfl := Option.some.inj hp
    exact hmeets.2.2 hshown
  focused := fun _ => nofun
  overlay := h.overlay
  bars := h.bars
  alerts := h.alerts
  alerts_lt := h.alerts_lt
  nextAlertSeq_le := h.nextAlertSeq_le

theorem Inv.setFocusedPane (h : s.Inv env) {paneId : PaneId} (hmay : s.MayFocus paneId) :
    ({ s with focusedPaneId := some paneId } : ClientState).Inv env where
  tabs := ⟨h.tabs.nodup, h.tabs.held⟩
  focus := by
    intro hshown p hp
    obtain rfl := Option.some.inj hp
    exact hmay hshown
  focused := fun _ => nofun
  overlay := h.overlay
  bars := h.bars
  alerts := h.alerts
  alerts_lt := h.alerts_lt
  nextAlertSeq_le := h.nextAlertSeq_le

/-- Alerts are dropped. -/
theorem Inv.dropAlerts (h : s.Inv env) {alerts : List AlertEntry}
    (hsub : alerts.Sublist s.alerts) : ({ s with alerts := alerts } : ClientState).Inv env where
  tabs := ⟨h.tabs.nodup, h.tabs.held⟩
  focus := h.focus
  focused := h.focused
  overlay := h.overlay
  bars := h.bars
  alerts := (hsub.map AlertEntry.seq).nodup h.alerts
  alerts_lt := fun a ha => h.alerts_lt a (hsub.subset ha)
  nextAlertSeq_le := h.nextAlertSeq_le

/-- An alert is queued under the next number, which no other one has. -/
theorem Inv.addAlert (h : s.Inv env) (hseq : s.nextAlertSeq < 2 ^ 64 - alertOffset)
    (kind : AlertKind) (paneId : PaneId) (title body : String) (now : ℕ) :
    (s.addAlert kind paneId title body now).Inv env := by
  have hoffset : 0 < alertOffset := by decide
  have hnext : (s.nextAlertSeq + 1) % 2 ^ 64 = s.nextAlertSeq + 1 := Nat.mod_eq_of_lt (by omega)
  have hqueued : ({ s with
      nextAlertSeq := (s.nextAlertSeq + 1) % 2 ^ 64
      alerts := s.alerts ++ [⟨s.nextAlertSeq, kind, paneId, title, body, now⟩] } :
        ClientState).Inv env :=
    { tabs := ⟨h.tabs.nodup, h.tabs.held⟩
      focus := h.focus
      focused := h.focused
      overlay := h.overlay
      bars := h.bars
      alerts := by
        rw [List.map_append, List.nodup_append]
        refine ⟨h.alerts, List.nodup_singleton _, ?_⟩
        intro seq hold seq' hnew heq
        obtain ⟨a, ha, rfl⟩ := List.mem_map.1 hold
        rw [List.map_singleton, List.mem_singleton] at hnew
        exact (h.alerts_lt a ha).ne (heq.trans hnew)
      alerts_lt := by
        intro a ha
        simp only [hnext]
        rcases List.mem_append.1 ha with hold | hnew
        · exact (h.alerts_lt a hold).trans (Nat.lt_succ_self _)
        · rw [List.mem_singleton.1 hnew]
          exact Nat.lt_succ_self _
      nextAlertSeq_le := by
        simp only [hnext]
        exact hseq }
  exact hqueued.dropAlerts (List.drop_sublist _ _)

/-- The bars change, with one bar for each slot. -/
theorem Inv.setInfoBars (h : s.Inv env) {bars : List InfoBar}
    (hbars : (bars.map fun bar => bar.kind.slot).Nodup) :
    ({ s with infoBars := bars } : ClientState).Inv env where
  tabs := ⟨h.tabs.nodup, h.tabs.held⟩
  focus := h.focus
  focused := h.focused
  overlay := h.overlay
  bars := hbars
  alerts := h.alerts
  alerts_lt := h.alerts_lt
  nextAlertSeq_le := h.nextAlertSeq_le

theorem Inv.filterInfoBars (h : s.Inv env) (p : InfoBar → Bool) :
    ({ s with infoBars := s.infoBars.filter p } : ClientState).Inv env :=
  h.setInfoBars ((List.filter_sublist.map _).nodup h.bars)

/-- The bar that was in the slot is replaced. -/
theorem Inv.pushInfoBar (h : s.Inv env) (kind : InfoBarKind) (now : ℕ) :
    (s.pushInfoBar kind now).Inv env := by
  unfold ClientState.pushInfoBar
  split
  · exact h
  · refine h.setInfoBars ?_
    rw [List.map_append, List.nodup_append]
    refine ⟨(h.filterInfoBars _).bars, List.nodup_singleton _, ?_⟩
    intro slot hold slot' hnew heq
    obtain ⟨bar, hbar, rfl⟩ := List.mem_map.1 hold
    rw [List.map_singleton, List.mem_singleton] at hnew
    exact of_decide_eq_true (List.mem_filter.1 hbar).2 (heq.trans hnew)

theorem map_modify_eq {α β : Type} {f : α → β} {g : α → α} (hg : ∀ a, f (g a) = f a) (i : ℕ)
    (l : List α) : (l.modify i g).map f = l.map f := by
  refine List.ext_getElem (by simp) ?_
  intro j h₁ h₂
  simp only [List.getElem_map, List.getElem_modify]
  split_ifs
  · exact hg _
  · rfl

theorem Inv.dismissInfoBar (h : s.Inv env) (slot : InfoBarSlot) (exit : ℕ) :
    (s.dismissInfoBar slot exit).Inv env := by
  unfold ClientState.dismissInfoBar
  split
  · exact h
  · refine h.setInfoBars ?_
    rw [map_modify_eq]
    · exact h.bars
    · intro bar
      rfl

theorem Inv.dismissInfoBars (exit : ℕ) (slots : List InfoBarSlot) : ∀ {s : ClientState},
    s.Inv env → (slots.foldl (fun s slot => s.dismissInfoBar slot exit) s).Inv env := by
  induction slots with
  | nil => exact fun h => h
  | cons slot slots ih =>
    intro s h
    exact ih (h.dismissInfoBar slot exit)

/-- Only the overlays change. -/
theorem Inv.setSurfaces (h : s.Inv env) {o : Surfaces}
    (hfits : ∀ shown, o.shown = some shown → ∀ t, shown.Fits env t)
    (hfocus : o.shown = none → s.FocusListed) :
    ({ s with toSurfaces := o } : ClientState).Inv env where
  tabs := ⟨h.tabs.nodup, h.tabs.held⟩
  focus := hfocus
  focused := h.focused
  overlay := hfits
  bars := h.bars
  alerts := h.alerts
  alerts_lt := h.alerts_lt
  nextAlertSeq_le := h.nextAlertSeq_le

end ClientState

/-! ### The focus of the screen reader -/

/-- What focusing a part does to the overlay that is shown. -/
def Shown.focusOn (env : Env) (t : Clock) (kind : NodeIdKind) : Shown → Shown
  | closeDialog dialog => .closeDialog (dialog.focusOn kind)
  | quickSelect qs => .quickSelect qs
  | contextMenu menu => .contextMenu (menu.focusOn kind)
  | palette p => .palette (p.focusOn env t kind)
  | hostManager manager => .hostManager (manager.focusOn env kind)
  | macroPicker picker => .macroPicker (picker.focusOn kind)
  | settingsPanel sp => .settingsPanel (sp.focusOn kind)

theorem CommandPalette.focusOn_isOpen (env : Env) (t : Clock) (p : CommandPalette)
    (kind : NodeIdKind) : (p.focusOn env t kind).isOpen = p.isOpen := by
  unfold focusOn
  split
  · split_ifs <;> rfl
  · rfl

theorem HostManager.focusOn_isOpen (env : Env) (manager : HostManager) (kind : NodeIdKind) :
    (manager.focusOn env kind).isOpen = manager.isOpen := by
  unfold focusOn
  split
  · split_ifs <;> rfl
  · rfl

theorem MacroPicker.focusOn_isOpen (picker : MacroPicker) (kind : NodeIdKind) :
    (picker.focusOn kind).isOpen = picker.isOpen := by
  unfold focusOn
  split
  · split_ifs <;> rfl
  · rfl

theorem Panel.focusOn_isOpen (sp : Panel) (kind : NodeIdKind) :
    (sp.focusOn kind).isOpen = sp.isOpen := by
  cases kind with
  | settingsTab idx =>
    simp only [focusOn]
    cases SettingsCategory.all[idx]? <;> rfl
  | settingsWidget id =>
    simp only [focusOn, focusWidget]
    split_ifs <;> rfl
  | _ => rfl

/-- Focusing neither opens nor closes an overlay. -/
theorem Surfaces.shown_focusOn (env : Env) (t : Clock) (o : Surfaces) (kind : NodeIdKind) :
    (o.focusOn env t kind).shown = o.shown.map (Shown.focusOn env t kind) := by
  simp only [Surfaces.shown, Surfaces.focusOn, CommandPalette.focusOn_isOpen,
    HostManager.focusOn_isOpen, MacroPicker.focusOn_isOpen, Panel.focusOn_isOpen]
  cases o.closeWindowDialog with
  | some dialog => rfl
  | none =>
    cases o.contextMenu with
    | some menu =>
      simp only [Option.map_none, Option.map_some]
      split_ifs <;> rfl
    | none =>
      simp only [Option.map_none]
      split_ifs <;> rfl

namespace Shown

variable {env : Env}

/-- Only the lists matter. -/
theorem listFits_congr {sp sp' : Panel} (hhosts : sp'.sshHosts = sp.sshHosts)
    (hkeys : sp'.keybindings = sp.keybindings) (hprofiles : sp'.profiles = sp.profiles)
    {cat : SettingsCategory} (h : sp.ListFits cat) : sp'.ListFits cat := by
  cases cat with
  | ssh => simpa only [Panel.ListFits, hhosts] using h
  | keybindings => simpa only [Panel.ListFits, hkeys] using h
  | profiles => simpa only [Panel.ListFits, hprofiles] using h
  | _ => trivial

theorem zero_focusFits (category : SettingsCategory) : Panel.FocusFits category 0 :=
  fun _ => .inl (by decide)

/-- The panel after a widget has been focused: its index, or 0, or the focus that was there. -/
theorem fits_focusWidget {sp : Panel} (h : sp.Fits) {id : WidgetId}
    (hwidget : Panel.takesFocus id → Panel.FocusFits sp.category id.index) :
    (sp.focusWidget id).Fits := by
  unfold Panel.focusWidget
  split_ifs with htakes
  · exact ⟨listFits_congr rfl rfl rfl h.list, hwidget htakes⟩
  · exact ⟨listFits_congr rfl rfl rfl h.list, h.focus⟩
  · exact ⟨listFits_congr rfl rfl rfl h.list, zero_focusFits _⟩
  · exact ⟨listFits_congr rfl rfl rfl h.list, zero_focusFits _⟩
  · exact h

/-- The panel after a part of it has been focused. -/
theorem fits_focusOn_panel {sp : Panel} (h : sp.Fits) {kind : NodeIdKind}
    (htab : ∀ idx, kind = .settingsTab idx →
      ∀ cat, SettingsCategory.all[idx]? = some cat → sp.ListFits cat)
    (hwidget : ∀ id, kind = .settingsWidget id →
      Panel.takesFocus id → Panel.FocusFits sp.category id.index) : (sp.focusOn kind).Fits := by
  cases kind with
  | settingsTab idx =>
    simp only [Panel.focusOn]
    cases hcat : SettingsCategory.all[idx]? with
    | none => exact h
    | some cat => exact ⟨listFits_congr rfl rfl rfl (htab idx rfl cat hcat), zero_focusFits _⟩
  | settingsWidget id => exact fits_focusWidget h (hwidget id rfl)
  | settingsSshDeleteCancelBtn => exact ⟨listFits_congr rfl rfl rfl h.list, h.focus⟩
  | settingsSshDeleteConfirmBtn => exact ⟨listFits_congr rfl rfl rfl h.list, h.focus⟩
  | settingsKeyDeleteCancelBtn => exact ⟨listFits_congr rfl rfl rfl h.list, h.focus⟩
  | settingsKeyDeleteConfirmBtn => exact ⟨listFits_congr rfl rfl rfl h.list, h.focus⟩
  | _ => exact h

/-- Focusing changes no list. -/
theorem fits_focusOn {t t' : Clock} {shown : Shown} (h : shown.Fits env t') {kind : NodeIdKind}
    (hpanel : ∀ sp, shown = .settingsPanel sp → (sp.focusOn kind).Fits) :
    (shown.focusOn env t kind).Fits env t' := by
  cases shown with
  | closeDialog dialog => trivial
  | quickSelect qs => exact h
  | contextMenu menu =>
    simp only [focusOn, ContextMenu.focusOn]
    split
    · split_ifs <;> exact h
    · exact h
  | palette p =>
    simp only [focusOn, CommandPalette.focusOn]
    split
    · split_ifs <;> exact h
    · exact h
  | hostManager manager =>
    simp only [focusOn, HostManager.focusOn]
    split
    · split_ifs <;> exact h
    · exact h
  | macroPicker picker =>
    simp only [focusOn, MacroPicker.focusOn]
    split
    · split_ifs <;> exact h
    · exact h
  | settingsPanel sp => exact hpanel sp rfl

end Shown

namespace ClientState

variable {env : Env} {s : ClientState}

theorem Inv.focusOn (h : s.Inv env) (t : Clock) {kind : NodeIdKind}
    (hmeets : s.MeetsAccess .focus kind) :
    ({ s with toSurfaces := s.toSurfaces.focusOn env t kind } : ClientState).Inv env := by
  refine h.setSurfaces ?_ ?_
  · intro shown hshown t'
    rw [Surfaces.shown_focusOn] at hshown
    obtain ⟨old, hold, rfl⟩ := Option.map_eq_some_iff.1 hshown
    refine Shown.fits_focusOn (h.overlay old hold t') ?_
    rintro sp rfl
    refine Shown.fits_focusOn_panel (h.overlay _ hold t') ?_ ?_
    · rintro idx rfl
      exact hmeets sp hold
    · rintro id rfl
      exact hmeets sp hold
  · intro hshown
    rw [Surfaces.shown_focusOn, Option.map_eq_none_iff] at hshown
    exact h.focus hshown

theorem Inv.scrolled (h : s.Inv env) {f : TreePane → TreePane} :
    (match s.focusedPaneId with
      | none => s
      | some paneId => s.modifyPane paneId f).Inv env := by
  cases s.focusedPaneId with
  | none => exact h
  | some paneId => exact h.modifyPane paneId f

theorem Inv.handleAccesskitAction (h : s.Inv env) (t : Clock) {action : Action}
    {kind : NodeIdKind} (hmeets : s.MeetsAccess action kind) (rows : ℕ) :
    (s.handleAccesskitAction env t rows action kind).Inv env := by
  cases action with
  | focus =>
    cases kind with
    | tab paneId => exact h.setFocusedPane hmeets
    | pane paneId => exact h.setFocusedPane hmeets
    | _ => exact h.focusOn t hmeets
  | click =>
    cases kind with
    | tab paneId => exact h.setFocusedPane hmeets
    | pane paneId => exact h.setFocusedPane hmeets
    | settingsTab idx => exact h.focusOn t hmeets
    | alert seq => exact h.dropAlerts List.filter_sublist
    | _ => exact h
  | scrollUp =>
    cases kind with
    | paneArea => exact h.scrolled
    | _ => exact h
  | scrollDown =>
    cases kind with
    | paneArea => exact h.scrolled
    | _ => exact h

/-- **An operation that meets the condition keeps what the trees need.** -/
theorem Inv.step (h : s.Inv env) {op : ClientOp} (hmeets : s.Meets env op) {s' : ClientState}
    (hstep : s.step env op = some s') : s'.Inv env := by
  cases op with
  | gridDiff paneId dirtyRows cursorCol cursorRow => exact h.gridDiff hstep
  | setScrollbackCapacity capacity =>
    obtain ⟨panes, hpanes, hstate⟩ := Option.bind_eq_some_iff.1 hstep
    obtain rfl := Option.some.inj hstate
    have hset := h.setPanes (List.Perm.of_eq (Panes.keys_mapM hpanes))
    exact ⟨⟨hset.tabs.nodup, hset.tabs.held⟩, hset.focus, hset.focused, hset.overlay, hset.bars,
      hset.alerts, hset.alerts_lt, hset.nextAlertSeq_le⟩
  | fullRefresh paneId grid =>
    obtain rfl := Option.some.inj hstep
    exact h.fullRefresh paneId grid
  | semanticMark paneId kind exitCode =>
    obtain rfl := Option.some.inj hstep
    exact h.modifyPane paneId _
  | titleChanged paneId title =>
    obtain rfl := Option.some.inj hstep
    exact h.modifyPane paneId _
  | cwdChanged paneId cwd =>
    obtain rfl := Option.some.inj hstep
    exact h.modifyPane paneId _
  | scrollTo paneId offset =>
    obtain rfl := Option.some.inj hstep
    exact h.modifyPane paneId _
  | layoutChanged paneIds focusedPaneId =>
    obtain rfl := Option.some.inj hstep
    exact h.layoutChanged hmeets
  | bell paneId now =>
    obtain rfl := Option.some.inj hstep
    exact h.addAlert hmeets _ _ _ _ _
  | desktopNotification paneId title body now =>
    obtain rfl := Option.some.inj hstep
    exact h.addAlert hmeets _ _ _ _ _
  | error message now =>
    obtain rfl := Option.some.inj hstep
    exact h.pushInfoBar _ now
  | otherMessage =>
    obtain rfl := Option.some.inj hstep
    exact h
  | access t action target rows =>
    obtain rfl := Option.some.inj hstep
    exact h.handleAccesskitAction t hmeets rows
  | setFocusedPane paneId =>
    obtain rfl := Option.some.inj hstep
    exact h.setFocusedPane hmeets
  | reorderPanes order =>
    obtain rfl := Option.some.inj hstep
    exact h.setPanes Panes.keys_reorder
  | expireAlerts now =>
    obtain rfl := Option.some.inj hstep
    exact h.dropAlerts (List.dropWhile_sublist _)
  | pushInfoBar kind now =>
    obtain rfl := Option.some.inj hstep
    exact h.pushInfoBar kind now
  | dismissInfoBar slot exit =>
    obtain rfl := Option.some.inj hstep
    exact h.dismissInfoBar slot exit
  | expireInfoBars now exit =>
    obtain rfl := Option.some.inj hstep
    exact h.dismissInfoBars exit _
  | retireInfoBars now =>
    obtain rfl := Option.some.inj hstep
    exact h.filterInfoBars _
  | windowButtons rect =>
    obtain rfl := Option.some.inj hstep
    exact ⟨⟨h.tabs.nodup, h.tabs.held⟩, h.focus, h.focused, h.overlay, h.bars, h.alerts,
      h.alerts_lt, h.nextAlertSeq_le⟩
  | surfaces o =>
    obtain rfl := Option.some.inj hstep
    exact h.setSurfaces hmeets.1 hmeets.2

theorem Inv.new (config : Surfaces) (scrollbackCapacity : ℕ) :
    (ClientState.new config scrollbackCapacity).Inv env where
  tabs := ⟨List.nodup_nil, fun _ hp => absurd hp List.not_mem_nil⟩
  focus := fun _ => nofun
  focused := fun hne => absurd rfl hne
  overlay := fun _ hshown => nomatch hshown
  bars := List.nodup_nil
  alerts := List.nodup_nil
  alerts_lt := fun _ ha => absurd ha List.not_mem_nil
  nextAlertSeq_le := Nat.zero_le _

end ClientState

/-! ## Runs -/

/-- A client that has not panicked has a well-formed tree at any time. -/
def TreeWellFormed (env : Env) (client : Option ClientState) : Prop :=
  ∀ s, client = some s → ∀ t, WellFormed (s.buildTreeFromState env t) (s.targets env t)

/-- An operation meets its condition in a client that has not panicked. -/
def MeetsIfAny (env : Env) (client : Option ClientState) (op : ClientOp) : Prop :=
  ∀ s, client = some s → s.Meets env op

/-- **Every tree of a run is well formed**, if every operation of it meets its condition. -/
theorem well_formed_of_meets (env : Env) (config : Surfaces) (scrollbackCapacity : ℕ)
    (ops : List ClientOp)
    (h : Runs.Along (stepOrPanic env) (MeetsIfAny env) (some (.new config scrollbackCapacity))
      ops) :
    Runs.Always (stepOrPanic env) (TreeWellFormed env) (some (.new config scrollbackCapacity))
      ops := by
  have hinv : Runs.Always (stepOrPanic env) (fun client => ∀ s, client = some s → s.Inv env)
      (some (.new config scrollbackCapacity)) ops := by
    refine Runs.always_of_along ?_ ?_ h
    · intro client op hclient hmeets s' hs'
      obtain ⟨s, hs, hstep⟩ := Option.bind_eq_some_iff.1 hs'
      exact (hclient s hs).step (hmeets s hs) hstep
    · intro s hs
      obtain rfl := Option.some.inj hs
      exact .new config scrollbackCapacity
  refine hinv.imp ?_
  intro client hclient s hs t
  exact ClientState.wellFormed_of_fits ((hclient s hs).fits t)

/-- Texts that are their own translations, and a matcher that matches nothing. -/
def plainEnv : Env where
  loc :=
    { fl := id
      flActionUnknown := id
      fixed1 := fun _ => ""
      percent := fun _ => ""
      f32 := fun _ => 0 }
  fuzzyMatch := fun _ _ => none

/-- The overlays of the default configuration, without hosts and macros. -/
def plainSurfaces : Surfaces where
  closeWindowDialog := none
  quickSelect := ⟨false, [], ""⟩
  contextMenu := none
  palette := ⟨[], "", false, 0, [], []⟩
  hostManager := ⟨[], "", false, 0, [], none, none⟩
  macroPicker := ⟨[], "", false, 0⟩
  settingsPanel :=
    { toSettingsPanel := Settings.defaultPanel
      isOpen := false
      category := .startup
      fontFamilyEditing := false
      selectedProfile := 0
      selectedHostIndex := 0
      focusedWidgetIndex := 0
      securityFieldEditing := none
      sshFieldEditing := none
      sshDeleteDialogOpen := false
      sshDeleteDialogConfirmFocused := false
      selectedKeyIndex := 0
      keyEditing := none
      keyDeleteDialogOpen := false
      keyDeleteDialogConfirmFocused := false
      animationsOsReduced := false
      fontFallbacksEditing := none
      leaderKeyEditing := none
      shellFieldEditing := none }

/-- The layout arrives before the first grid: the pane that is listed and has the focus is not
    held. -/
theorem not_well_formed_layout_first :
    ¬ Runs.Always (stepOrPanic plainEnv) (TreeWellFormed plainEnv)
      (some (.new plainSurfaces 1000)) [.layoutChanged [1] 1] := by
  intro h
  have hheld := (ClientState.held_of_wellFormed (h.2 _ rfl ⟨0, 0⟩)).1.held 1
  exact absurd (hheld List.mem_cons_self) List.not_mem_nil

/-- A pane, its layout, a bell, and the screen reader on its tab. -/
theorem well_formed_of_meets_tab :
    Runs.Always (stepOrPanic plainEnv) (TreeWellFormed plainEnv)
      (some (.new plainSurfaces 1000))
      [.fullRefresh 1 (.new 80 24), .layoutChanged [1] 1, .bell 1 0,
        .access ⟨0, 0⟩ .focus (tabNodeId 1) 24] := by
  refine well_formed_of_meets plainEnv plainSurfaces 1000 _ ⟨?_, ?_, ?_, ?_, trivial⟩
  · intro s hs
    trivial
  · intro s hs
    obtain rfl := Option.some.inj hs
    refine ⟨by decide, ?_, fun _ => List.mem_cons_self⟩
    intro paneId hpane
    rw [List.mem_singleton.1 hpane]
    exact List.mem_cons_self
  · intro s hs
    obtain rfl := Option.some.inj hs
    show 0 < 2 ^ 64 - alertOffset
    decide
  · intro s hs
    obtain rfl := Option.some.inj hs
    intro hshown
    exact List.mem_cons_self

end Nexterm.A11y

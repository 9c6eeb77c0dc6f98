/-
  The accessibility tree of the client (`accessibility.rs`).

  * `ClientState`: what the tree is built from: tabs, panes, the overlays (`Surfaces`), the bars
    and the alerts.
  * `baseNodes`, `Shown.overlay`, `buildInfoBarNodes`, `buildAlertRegionNodes`: the parts of the
    tree.
  * `buildTreeFromState`: the update that the screen reader gets.

  The fuzzy matcher and the texts (`Env`) are any functions; the clock (`Clock`) is read for the
  elapsed seconds of the offline bar and for the recency bonus of the palette.
-/
import Mathlib.Data.List.DropRight
import Nexterm.A11y.Widgets
import Nexterm.Client.Pane

namespace Nexterm.A11y

open Nexterm.Client (PaneState)
open Nexterm.Settings (F32 HostConfig SshHostEntry)
open Nexterm.Vt (Cell Grid)

/-- The translations, and the fuzzy matcher: how well a text matches a query, if it does. -/
structure Env where
  loc : Locale
  fuzzyMatch : String → String → Option ℤ

/-- The clocks: nanoseconds on the monotonic one, seconds on the wall clock. -/
structure Clock where
  instant : ℕ
  unix : ℕ

/-! ## Nodes -/

inductive Role
  | window
  | tabList
  | tab
  | group
  | terminal
  | textRun
  | textInput
  | searchInput
  | button
  | dialog
  | alertDialog
  | alert
  | listBox
  | listBoxOption
  | menu
  | menuItem
  | splitter
  | label
  | checkBox
  | comboBox
  | slider
  | spinButton
  | radioButton
  deriving DecidableEq

inductive Live
  | polite
  | assertive
  deriving DecidableEq

/-- A node of the tree; what is not set is absent. -/
structure Node where
  role : Role
  label : Option String := none
  value : Option String := none
  description : Option String := none
  children : List ℕ := []
  selected : Bool := false
  modal : Bool := false
  disabled : Bool := false
  invalid : Bool := false
  clickable : Bool := false
  live : Option Live := none
  toggled : Option Bool := none
  /-- Value, minimum, maximum and step. -/
  numeric : Option (F32 × F32 × F32 × F32) := none
  characterLengths : List ℕ := []
  /-- The caret: a row, and an index into its characters. -/
  textSelection : Option (ℕ × ℕ) := none
  deriving DecidableEq

/-- A tree update. -/
structure TreeUpdate where
  nodes : List (ℕ × Node)
  root : ℕ
  focus : ℕ
  deriving DecidableEq

/-! ## The state -/

/-- A pane, with its title and its working directory. -/
structure TreePane extends PaneState where
  title : String
  cwd : Option String

/-- The panes, in the order in which the map is walked. -/
structure Panes where
  toList : List (PaneId × TreePane)
  nodup : (toList.map Prod.fst).Nodup

namespace Panes

def keys (ps : Panes) : List PaneId := ps.toList.map Prod.fst

def get (ps : Panes) (paneId : PaneId) : Option TreePane := ps.toList.lookup paneId

end Panes

structure CloseWindowDialog where
  message : String
  killLabel : String
  cancelLabel : String
  /-- 0 and 1 are highlighted, 0xFE and 0xFF confirmed. -/
  selectedButton : UInt8
  deriving DecidableEq

/-- The actions of a context menu; a separator cannot be clicked. -/
inductive ContextMenuAction
  | separator
  | other (name : String)
  deriving DecidableEq

structure ContextMenuItem where
  label : String
  hint : String
  action : ContextMenuAction
  deriving DecidableEq

structure ContextMenu where
  items : List ContextMenuItem
  hovered : Option ℕ
  deriving DecidableEq

structure QuickSelectMatch where
  text : String
  label : String
  deriving DecidableEq

structure QuickSelectState where
  isActive : Bool
  quickMatches : List QuickSelectMatch
  typedLabel : String
  deriving DecidableEq

structure PaletteAction where
  label : String
  action : String
  deriving DecidableEq

structure PaletteHistoryEntry where
  lastUsed : ℕ
  useCount : ℕ
  deriving DecidableEq

structure CommandPalette where
  actions : List PaletteAction
  query : String
  isOpen : Bool
  selected : ℕ
  history : List (String × PaletteHistoryEntry)
  namedBlockActions : List PaletteAction
  deriving DecidableEq

structure HostManager where
  hosts : List HostConfig
  query : String
  isOpen : Bool
  selected : ℕ
  /-- How often a host was connected to. -/
  history : List (String × ℕ)
  tagFilter : Option String
  groupFilter : Option String
  deriving DecidableEq

structure MacroConfig where
  name : String
  description : String
  deriving DecidableEq

structure MacroPicker where
  macros : List MacroConfig
  query : String
  isOpen : Bool
  selected : ℕ
  deriving DecidableEq

/-- The overlays. -/
structure Surfaces where
  closeWindowDialog : Option CloseWindowDialog
  quickSelect : QuickSelectState
  contextMenu : Option ContextMenu
  palette : CommandPalette
  hostManager : HostManager
  macroPicker : MacroPicker
  settingsPanel : Panel
  deriving DecidableEq

/-- What a bar is about. -/
inductive InfoBarKind
  | updateAvailable (version : String)
  | offline (since : ℕ)
  | serverError (message : String)
  deriving DecidableEq

inductive Severity
  | info
  | warning
  | error
  deriving DecidableEq

/-- How loud a bar is. -/
def Severity.rank : Severity → ℕ
  | .info => 0
  | .warning => 1
  | .error => 2

namespace InfoBarKind

def slot : InfoBarKind → InfoBarSlot
  | updateAvailable _ => .update
  | offline _ => .offline
  | serverError _ => .serverError

def severity : InfoBarKind → Severity
  | updateAvailable _ => .info
  | offline _ => .warning
  | serverError _ => .error

/-- The localised one-line message. -/
def label (loc : Locale) (now : ℕ) : InfoBarKind → String
  | updateAvailable version => (loc.fl "update-available").replace "{version}" version
  | offline since =>
    (loc.fl "offline-banner-connecting").replace "{seconds}" (toString ((now - since) / 10 ^ 9))
  | serverError message => loc.fl "error-banner-prefix" ++ " " ++ message

end InfoBarKind

/-- A status bar; one that has been dismissed is drawn until its exit is over. -/
structure InfoBar where
  kind : InfoBarKind
  createdAt : ℕ
  /-- When the exit is over. -/
  exit : Option ℕ
  expiresAt : Option ℕ
  deriving DecidableEq

def InfoBar.isDismissed (bar : InfoBar) : Bool := bar.exit.isSome

inductive AlertKind
  | bell
  | notification
  deriving DecidableEq

structure AlertEntry where
  seq : ℕ
  kind : AlertKind
  paneId : PaneId
  title : String
  body : String
  createdAt : ℕ
  deriving DecidableEq

/-- The state of the client, as far as the tree reads it. -/
structure ClientState extends Surfaces where
  tabOrder : List PaneId
  panes : Panes
  focusedPaneId : Option PaneId
  windowCloseHitRect : Option (F32 × F32)
  infoBars : List InfoBar
  alerts : List AlertEntry
  nextAlertSeq : ℕ
  scrollbackCapacity : ℕ

/-! ## Rows -/

/-- The text of a row without the blanks at its end, and the byte length of every character. -/
def cellsToRowTextWithLengths (cells : List Cell) : String × List ℕ :=
  let text := (cells.map Cell.ch).rdropWhile (· = ' ')
  if text = [] then (" ", [1]) else (String.ofList text, text.map Char.utf8Size)

def paneRowTextWithLengths (grid : Grid) (row : ℕ) : String × List ℕ :=
  match grid.rows[row]? with
  | none => (" ", [1])
  | some cells => cellsToRowTextWithLengths cells

def paneRowText (grid : Grid) (row : ℕ) : String := (paneRowTextWithLengths grid row).1

/-- The cursor column, at most the length of the text. -/
def cursorCharacterIndex (text : String) (cursorCol : ℕ) : ℕ := min cursorCol text.length

def scrollbackWindowRadius : ℕ := 100

/-- The exposed range of the scrollback. -/
def scrollbackWindow (pane : TreePane) : ℕ × ℕ :=
  let center := pane.scrollback.len - (pane.scrollOffset + 1)
  (center - scrollbackWindowRadius,
    min (min (center + scrollbackWindowRadius + 1) pane.scrollback.len) maxScrollbackRowsPerPane)

/-- The lines of the exposed range that the ring still has. -/
def scrollbackLines (pane : TreePane) : List (ℕ × List Cell) :=
  let (start, stop) := scrollbackWindow pane
  (List.range' start (stop - start)).filterMap fun idx =>
    (pane.scrollback.get idx).join.map fun line => (idx, line)

/-- How many rows of the grid are exposed. -/
def viewportRowCount (grid : Grid) : ℕ := min (min grid.height grid.rows.length) maxViewportRowsPerPane

def scrollbackRowNode (line : List Cell) : Node :=
  { role := .textRun
    value := some (cellsToRowTextWithLengths line).1
    characterLengths := (cellsToRowTextWithLengths line).2 }

def viewportRowNode (isCursorRow : Bool) (text : String × List ℕ) : Node :=
  { role := .textRun
    value := some text.1
    characterLengths := text.2
    live := if isCursorRow then some .polite else none }

namespace ClientState

variable (s : ClientState)

/-- Tab order; without one, the panes as the map has them. -/
def effectiveTabOrder : List PaneId := if s.tabOrder = [] then s.panes.keys else s.tabOrder

def isCursorRow (paneId : PaneId) (pane : TreePane) (row : ℕ) : Bool :=
  s.focusedPaneId = some paneId ∧ row = pane.grid.cursorRow

/-- The rows of a pane: the scrollback first, then the grid. -/
def paneRowNodes (paneId : PaneId) (pane : TreePane) : List (ℕ × Node) :=
  ((scrollbackLines pane).map fun entry =>
    (paneScrollbackRowNodeId paneId entry.1, scrollbackRowNode entry.2)) ++
  (List.range (viewportRowCount pane.grid)).map fun row =>
    (paneRowNodeId paneId row,
      viewportRowNode (s.isCursorRow paneId pane row) (paneRowTextWithLengths pane.grid row))

/-- The caret, if the cursor row of the focused pane is exposed. -/
def paneTextSelection (paneId : PaneId) (pane : TreePane) : Option (ℕ × ℕ) :=
  let row := pane.grid.cursorRow
  if s.focusedPaneId = some paneId ∧ row < viewportRowCount pane.grid then
    some (paneRowNodeId paneId row,
      cursorCharacterIndex (paneRowText pane.grid row) pane.grid.cursorCol)
  else none

/-- "Pane" and its id, if the pane has no title. -/
def paneTitle (paneId : PaneId) (pane : TreePane) : String :=
  if pane.title = "" then "Pane " ++ toString paneId else pane.title

def paneNode (paneId : PaneId) (pane : TreePane) : Node :=
  { role := .terminal
    label := some (paneTitle paneId pane)
    description := pane.cwd.map ("Working directory: " ++ ·)
    children := (s.paneRowNodes paneId pane).map Prod.fst
    textSelection := s.paneTextSelection paneId pane }

/-- The nodes of a pane; a pane that the client does not hold has none. -/
def paneNodes (paneId : PaneId) : List (ℕ × Node) :=
  match s.panes.get paneId with
  | none => []
  | some pane => s.paneRowNodes paneId pane ++ [(paneNodeId paneId, s.paneNode paneId pane)]

/-! ## Tabs and panes -/

def tabTitle (paneId : PaneId) : String :=
  ((s.panes.get paneId).map TreePane.title |>.filter (· ≠ "")).getD "Untitled"

def tabNode (idx : ℕ) (paneId : PaneId) : Node :=
  { role := .tab
    label := some ("Tab " ++ toString (idx + 1) ++ ": " ++ s.tabTitle paneId)
    selected := s.focusedPaneId = some paneId }

def tabNodes : List (ℕ × Node) :=
  s.effectiveTabOrder.mapIdx fun idx paneId => (tabNodeId paneId, s.tabNode idx paneId)

/-- Custom title bar: the buttons are visible in this frame. -/
def windowButtonsVisible : Bool := s.windowCloseHitRect.isSome

/-- The window buttons and their labels. -/
def windowButtons : List (ℕ × String) :=
  [(windowMinimizeBtnId, "Minimize window"), (windowMaximizeBtnId, "Maximize or restore window"),
    (windowCloseBtnId, "Close window")]

def windowButtonNodes : List (ℕ × Node) :=
  if s.windowButtonsVisible then
    windowButtons.map fun button =>
      (button.1, { role := .button, label := some button.2, clickable := true })
  else []

def tabBarNode : Node :=
  { role := .tabList
    label := some "Terminal tabs"
    children := s.effectiveTabOrder.map tabNodeId ++
      if s.windowButtonsVisible then windowButtons.map Prod.fst else [] }

def paneAreaNode : Node :=
  { role := .group
    label := some "Panes"
    children := s.effectiveTabOrder.map paneNodeId ++ [paneInputBufferId] }

/-- The title of the focused pane. -/
def paneHint : String :=
  match s.focusedPaneId.bind fun paneId => (s.panes.get paneId).map fun pane => (paneId, pane) with
  | some (paneId, pane) => paneTitle paneId pane
  | none => "No focused pane"

def inputBufferNode : Node :=
  { role := .textInput
    label := some "Terminal input buffer"
    value := some ""
    description := some ("Current pane: " ++ s.paneHint ++
      " — committing input sends the text to the PTY (use \\n for newline)") }

/-- The nodes of the tabs and panes, without the root. -/
def baseNodes : List (ℕ × Node) :=
  [(tabBarId, s.tabBarNode), (paneAreaId, s.paneAreaNode)] ++ s.tabNodes ++ s.windowButtonNodes ++
    s.effectiveTabOrder.flatMap s.paneNodes ++ [(paneInputBufferId, s.inputBufferNode)]

/-- The focus without an overlay: the focused pane, held or not. -/
def defaultFocus : ℕ := s.focusedPaneId.elim rootId paneNodeId

end ClientState

/-! ## Overlays -/

/-- The nodes of an overlay, its root, and the node with the focus. -/
structure Overlay where
  root : ℕ
  nodes : List (ℕ × Node)
  focus : ℕ

/-- The bonus of an action that has been used: by how often, and by how recently. -/
def historyBonus (unix : ℕ) : Option PaletteHistoryEntry → ℤ
  | none => 0
  | some e =>
    let age := unix - e.lastUsed
    min (e.useCount * 10 : ℤ) 100 +
      if age < 86400 then 100 else if age < 86400 * 7 then 50 else 0

/-- Recently used actions first, then the others in their order. -/
def historyLe (history : List (String × PaletteHistoryEntry)) (a b : ℕ × PaletteAction) : Bool :=
  match history.lookup a.2.action, history.lookup b.2.action with
  | some ea, some eb =>
    if ea.lastUsed ≠ eb.lastUsed then eb.lastUsed < ea.lastUsed
    else if ea.useCount ≠ eb.useCount then eb.useCount < ea.useCount
    else a.1 ≤ b.1
  | some _, none => true
  | none, some _ => false
  | none, none => a.1 ≤ b.1

/-- The actions that match a query, the best match first. -/
def rankActions (env : Env) (t : Clock) (actions : List PaletteAction) (query : String)
    (history : List (String × PaletteHistoryEntry)) : List PaletteAction :=
  let indexed := actions.mapIdx fun idx a => (idx, a)
  if query = "" then (indexed.mergeSort (historyLe history)).map Prod.snd
  else
    let scored := indexed.filterMap fun entry =>
      (env.fuzzyMatch entry.2.label query).map fun score =>
        (score + historyBonus t.unix (history.lookup entry.2.action), entry)
    (scored.mergeSort fun a b => b.1 < a.1 || (a.1 = b.1 && a.2.1 ≤ b.2.1)).map fun e => e.2.2

/-- The actions of the palette; `@` searches the named blocks, without a history. -/
def CommandPalette.filtered (env : Env) (t : Clock) (palette : CommandPalette) :
    List PaletteAction :=
  match palette.query.toList with
  | '@' :: sub => rankActions env t palette.namedBlockActions (String.ofList sub) []
  | _ => rankActions env t palette.actions palette.query palette.history

/-- The options of a list: one node for each entry. -/
def optionNodes {α : Type} (id : ℕ → ℕ) (node : ℕ → α → Node) (entries : List α) :
    List (ℕ × Node) :=
  entries.mapIdx fun idx entry => (id idx, node idx entry)

def paletteItemNode (palette : CommandPalette) (idx : ℕ) (action : PaletteAction) : Node :=
  { role := .listBoxOption, label := some action.label, selected := idx = palette.selected }

def buildPaletteNodes (env : Env) (t : Clock) (palette : CommandPalette) : Overlay :=
  let filtered := palette.filtered env t
  { root := paletteId
    nodes :=
      [(paletteId,
          { role := .dialog, label := some "Command palette", modal := true,
            children := [paletteSearchId, paletteListId] }),
        (paletteSearchId,
          { role := .searchInput, label := some "Search", value := some palette.query }),
        (paletteListId,
          { role := .listBox, label := some (toString filtered.length ++ " candidate(s)"),
            children := (List.range filtered.length).map paletteItemId })] ++
      optionNodes paletteItemId (paletteItemNode palette) filtered
    focus := if palette.selected < filtered.length then paletteItemId palette.selected
      else paletteSearchId }

def contextItemNode (_ : ℕ) (item : ContextMenuItem) : Node :=
  { role := if item.action = .separator then .splitter else .menuItem
    label := if item.label = "" then none else some item.label
    description := if item.hint = "" then none else some item.hint }

def buildContextMenuNodes (menu : ContextMenu) : Overlay :=
  { root := contextMenuId
    nodes :=
      (contextMenuId,
        { role := .menu, label := some "Context menu",
          children := (List.range menu.items.length).map contextItemId }) ::
      optionNodes contextItemId contextItemNode menu.items
    focus := ((menu.hovered.filter (· < menu.items.length)).map contextItemId).getD contextMenuId }

def buildCloseDialogNodes (dialog : CloseWindowDialog) : Overlay :=
  { root := closeDialogId
    nodes :=
      [(closeDialogId,
          { role := .alertDialog, label := some "Close window?",
            description := some dialog.message, modal := true,
            children := [closeDialogKillBtn, closeDialogCancelBtn] }),
        (closeDialogKillBtn,
          { role := .button, label := some dialog.killLabel,
            selected := dialog.selectedButton = 0 }),
        (closeDialogCancelBtn,
          { role := .button, label := some dialog.cancelLabel,
            selected := dialog.selectedButton = 1 })]
    focus := if dialog.selectedButton = 1 then closeDialogCancelBtn else closeDialogKillBtn }

/-- The key of a host in the connection history. -/
def historyKey (h : HostConfig) : String := h.username ++ "@" ++ h.host ++ ":" ++ toString h.port

/-- The hosts with the tag and the group that match a query, the best match first. -/
def HostManager.filtered (env : Env) (manager : HostManager) : List HostConfig :=
  let tagFiltered := manager.hosts.filter fun h =>
    manager.tagFilter.all (h.tags.contains ·) && manager.groupFilter.all (h.group = ·)
  let freq (h : HostConfig) := (manager.history.lookup (historyKey h)).getD 0
  let scored := tagFiltered.filterMap fun h =>
    if manager.query = "" then some ((0 : ℤ), freq h, h)
    else
      let haystack := h.name ++ " " ++ h.username ++ "@" ++ h.host ++ " " ++
        String.intercalate " " h.tags ++ " " ++ h.group
      (env.fuzzyMatch haystack manager.query).map fun score => (score, freq h, h)
  (scored.mergeSort fun a b =>
    b.1 < a.1 || (a.1 = b.1 && (b.2.1 < a.2.1 || (a.2.1 = b.2.1 && a.2.2.name ≤ b.2.2.name)))).map
    fun e => e.2.2

def hostItemNode (selected : ℕ) (idx : ℕ) (host : HostConfig) : Node :=
  { role := .listBoxOption
    label := some (if host.name = "" then host.username ++ "@" ++ host.host else host.name)
    description := some ("Host: " ++ host.host ++ ", user: " ++ host.username ++ ", port: " ++
      toString host.port)
    selected := idx = selected }

/-- A dialog that is a list. -/
def listDialog {α : Type} (root : ℕ) (label : String) (id : ℕ → ℕ) (node : ℕ → α → Node)
    (entries : List α) (selected : ℕ) : Overlay :=
  { root := root
    nodes :=
      (root,
        { role := .dialog, label := some label, modal := true,
          children := (List.range entries.length).map id }) :: optionNodes id node entries
    focus := if selected < entries.length then id selected else root }

def buildHostManagerNodes (env : Env) (manager : HostManager) : Overlay :=
  listDialog hostManagerId "SSH host manager" hostItemId (hostItemNode manager.selected)
    (manager.filtered env) manager.selected

/-- The macros that match a query, the best match first. -/
def MacroPicker.filtered (env : Env) (picker : MacroPicker) : List MacroConfig :=
  if picker.query = "" then picker.macros
  else
    let scored := picker.macros.filterMap fun m =>
      (env.fuzzyMatch (m.name ++ " " ++ m.description) picker.query).map fun score => (score, m)
    (scored.mergeSort fun a b => b.1 ≤ a.1).map Prod.snd

def macroItemNode (selected : ℕ) (idx : ℕ) (mac : MacroConfig) : Node :=
  { role := .listBoxOption
    label := some mac.name
    description := if mac.description = "" then none else some mac.description
    selected := idx = selected }

def buildMacroPickerNodes (env : Env) (picker : MacroPicker) : Overlay :=
  listDialog macroPickerId "Lua macro picker" macroItemId (macroItemNode picker.selected)
    (picker.filtered env) picker.selected

/-- The label that is being typed is the start of the label of this match. -/
def QuickSelectState.narrowsTo (qs : QuickSelectState) (m : QuickSelectMatch) : Bool :=
  qs.typedLabel ≠ "" && qs.typedLabel.toList.isPrefixOf m.label.toList

def quickSelectItemNode (qs : QuickSelectState) (_ : ℕ) (m : QuickSelectMatch) : Node :=
  { role := .listBoxOption
    label := some ("[" ++ m.label ++ "] " ++ m.text)
    selected := qs.narrowsTo m }

def buildQuickSelectNodes (qs : QuickSelectState) : Overlay :=
  { root := quickSelectId
    nodes :=
      [(quickSelectId,
          { role := .dialog, label := some "Quick Select", modal := true,
            description := some
              (if qs.typedLabel = "" then "Press a label key to copy an item to the clipboard"
                else "Typing label: '" ++ qs.typedLabel ++ "'"),
            children := [quickSelectListId] }),
        (quickSelectListId,
          { role := .listBox, label := some (toString qs.quickMatches.length ++ " match(es)"),
            children := (List.range qs.quickMatches.length).map quickselectItemId })] ++
      optionNodes quickselectItemId (quickSelectItemNode qs) qs.quickMatches
    focus :=
      match qs.quickMatches.findIdx? qs.narrowsTo with
      | some idx => quickselectItemId idx
      | none => if qs.quickMatches = [] then quickSelectListId else quickselectItemId 0 }

/-! ### The settings panel -/

def widgetRole : WidgetKind → Role
  | .label => .label
  | .toggle _ => .checkBox
  | .cycle _ => .comboBox
  | .slider .. => .slider
  | .spinButton .. => .spinButton
  | .text .. => .textInput
  | .keyCapture .. => .textInput
  | .swatch _ => .radioButton
  | .listItem _ => .listBoxOption
  | .button _ => .button

/-- Convert one widget description into a node. -/
def widgetNode (desc : WidgetDesc) : Node :=
  { role := widgetRole desc.kind
    label := some desc.label
    value := desc.valueText
    description := desc.tooltip
    toggled := match desc.kind with
      | .toggle on => some on
      | _ => none
    selected := match desc.kind with
      | .swatch selected | .listItem selected => selected
      | _ => false
    numeric := match desc.kind with
      | .slider value min max step _ | .spinButton value min max step _ =>
        some (value, min, max, step)
      | _ => none
    disabled := !desc.enabled
    invalid := desc.invalid }

namespace Panel

variable (env : Env) (sp : Panel)

/-- The focused row of a category that counts its rows. -/
def rowFocus (category : UInt8) (index : UInt16) (count : ℕ) : Option ℕ :=
  if index.toNat < count then some (settingsWidgetId ⟨category, index⟩) else none

/-- The widget that the reported focus is on. -/
def widgetFocusId : Option ℕ :=
  match sp.category with
  -- Editing the family field pins the focus there.
  | .font => rowFocus fontCategory (if sp.fontFamilyEditing then 0 else sp.focusedWidgetIndex)
      fontRowCount
  | .startup => rowFocus startupCategory sp.focusedWidgetIndex startupRowCount
  | .theme => rowFocus themeCategory sp.focusedWidgetIndex themeSwatchBase.toNat
  | .window => rowFocus windowCategory sp.focusedWidgetIndex windowRowCount
  | .security => rowFocus securityCategory sp.focusedWidgetIndex securityRowCount
  | .profiles =>
    if sp.profiles = [] then none
    else
      rowFocus profilesCategory
        (profilesListBase + UInt16.ofNat (min sp.selectedProfile (sp.profiles.length - 1)))
        (1 + sp.profiles.length)
  | .ssh =>
    if sp.sshDeleteDialogOpen then none
    else
      let empty : Bool := sp.sshHosts = []
      let widget (index : UInt16) := some (settingsWidgetId ⟨sshCategory, index⟩)
      let f := sp.focusedWidgetIndex
      if f = 0 ∧ !empty then
        widget (sshListBase + UInt16.ofNat (min sp.selectedHostIndex (sp.sshHosts.length - 1)))
      else if 1 ≤ f ∧ f ≤ 5 ∧ !empty then widget f
      else if f = 6 then widget sshAdd
      else if f = 7 ∧ !empty then widget sshDelete
      else none
  | .keybindings =>
    if sp.keyDeleteDialogOpen then none
    else
      let empty : Bool := sp.keybindings = []
      let widget (index : UInt16) := some (settingsWidgetId ⟨keybindingsCategory, index⟩)
      let f := sp.focusedWidgetIndex
      if f = 0 ∧ !empty then
        widget (keyListBase + UInt16.ofNat (min sp.selectedKeyIndex (sp.keybindings.length - 1)))
      else if 1 ≤ f ∧ f ≤ 2 ∧ !empty then widget f
      else if f = 3 then widget keyAdd
      else if f = 4 ∧ !empty then widget keyDelete
      else if f = 5 then widget keyLeader
      else none
  | .blocks => none

/-- The list-based categories have no reset. -/
def categoryResettable : Bool :=
  match sp.category with
  | .ssh | .keybindings | .profiles => false
  | _ => true

/-- The delete dialog of the hosts is shown. -/
def sshDialogShown : Bool :=
  sp.sshDeleteDialogOpen && sp.category = .ssh && !sp.sshHosts.isEmpty

/-- The delete dialog of the bindings is shown. -/
def keyDialogShown : Bool :=
  sp.keyDeleteDialogOpen && sp.category = .keybindings && !sp.keybindings.isEmpty

/-- A delete dialog and its two buttons. -/
def deleteDialogNodes (dialog cancel confirm : ℕ) (label target confirmText : String)
    (confirmFocused : Bool) : List (ℕ × Node) :=
  [(dialog,
      { role := .alertDialog, label := some label, modal := true,
        description := some ("Delete \"" ++ target ++ "\"? This action cannot be undone."),
        children := [cancel, confirm] }),
    (cancel,
      { role := .button, label := some "Cancel", selected := !confirmFocused,
        description := some "Esc / Left / Right / Tab to switch focus; Enter to confirm." }),
    (confirm,
      { role := .button, label := some "Delete", selected := confirmFocused,
        description := some confirmText })]

def sshDialogNodes : List (ℕ × Node) :=
  if sp.sshDialogShown then
    let target := sp.selectedSshHost.elim "" fun h => if h.name = "" then h.host else h.name
    deleteDialogNodes settingsSshDeleteDialogId settingsSshDeleteCancelBtnId
      settingsSshDeleteConfirmBtnId "Delete this host?" target
      "Permanently deletes the selected host." sp.sshDeleteDialogConfirmFocused
  else []

def keyDialogNodes : List (ℕ × Node) :=
  if sp.keyDialogShown then
    let target := sp.selectedKeyBinding.elim "" (keyBindingLabel env.loc)
    deleteDialogNodes settingsKeyDeleteDialogId settingsKeyDeleteCancelBtnId
      settingsKeyDeleteConfirmBtnId "Delete this keybinding?" target
      "Permanently deletes the selected keybinding." sp.keyDeleteDialogConfirmFocused
  else []

def panelChildren : List ℕ :=
  [settingsTablistId, settingsContentId, settingsFooterOpenId] ++
    (if sp.categoryResettable then [settingsFooterResetId] else []) ++
    (if sp.sshDialogShown then [settingsSshDeleteDialogId] else []) ++
    (if sp.keyDialogShown then [settingsKeyDeleteDialogId] else [])

def footerNodes : List (ℕ × Node) :=
  (settingsFooterOpenId,
    { role := .button, label := some (env.loc.fl "settings-open-config-file"),
      clickable := true }) ::
  if sp.categoryResettable then
    [(settingsFooterResetId,
      { role := .button, label := some (env.loc.fl "settings-reset-category"),
        description := some ("Category: " ++ sp.category.label env.loc), clickable := true })]
  else []

def categoryTabNodes : List (ℕ × Node) :=
  SettingsCategory.all.mapIdx fun idx cat =>
    (settingsTabIdAt idx,
      { role := .tab, label := some (cat.label env.loc), selected := idx = sp.category.index })

/-- What is said about a category besides its controls. -/
def contentDescription : Option String :=
  match sp.category with
  | .profiles =>
    some (if sp.profiles = [] then
        "No profiles defined. Add a [[profiles]] entry to nexterm.toml."
      else "Profiles (" ++ toString sp.profiles.length ++ " entries).")
  | .ssh =>
    some (if sp.sshHosts = [] then
        "No SSH hosts are registered. Press the Add new host button (Tab to the end of the list)."
      else
        "Editing host " ++ toString (min sp.selectedHostIndex (sp.sshHosts.length - 1) + 1) ++
          " of " ++ toString sp.sshHosts.length ++
          ". Use Up/Down to move between fields, Enter to save.")
  | .keybindings =>
    some (if sp.keybindings = [] then
        "No keybindings are registered. " ++
          "Press the Add new keybinding button (Tab to the end of the list)."
      else
        "Editing binding " ++ toString (min sp.selectedKeyIndex (sp.keybindings.length - 1) + 1) ++
          " of " ++ toString sp.keybindings.length ++
          ". Use Up/Down to move between fields, Enter to save.")
  | .blocks => some "Direct edits to config.toml [blocks] also live-reload."
  | .security =>
    some "The plugin read policy has no prompt path yet, so prompt behaves as deny."
  | _ => none

def widgetNodes : List (ℕ × Node) :=
  (sp.widgetDescs env.loc).map fun desc => (settingsWidgetId desc.id, widgetNode desc)

def contentNode : Node :=
  let children := (sp.widgetNodes env).map Prod.fst
  { role := .group
    label := some (sp.category.label env.loc)
    description := sp.contentDescription <|>
      if children = [] then some "Details for this category are not implemented yet." else none
    children := children }

def panelFocus : ℕ :=
  match sp.widgetFocusId with
  | some id => id
  | none =>
    if sp.sshDialogShown then
      if sp.sshDeleteDialogConfirmFocused then settingsSshDeleteConfirmBtnId
      else settingsSshDeleteCancelBtnId
    else if sp.keyDialogShown then
      if sp.keyDeleteDialogConfirmFocused then settingsKeyDeleteConfirmBtnId
      else settingsKeyDeleteCancelBtnId
    else settingsTabIdAt sp.category.index

end Panel

def buildSettingsPanelNodes (env : Env) (sp : Panel) : Overlay :=
  { root := settingsPanelId
    nodes :=
      (settingsPanelId,
        { role := .dialog, label := some "Settings", modal := true,
          description := some ("Category: " ++ sp.category.label env.loc),
          children := sp.panelChildren }) ::
      sp.footerNodes env ++
      (settingsTablistId,
        { role := .tabList, label := some "Categories",
          children := (List.range SettingsCategory.all.length).map settingsTabIdAt }) ::
      sp.categoryTabNodes env ++ sp.widgetNodes env ++
      (settingsContentId, sp.contentNode env) :: sp.sshDialogNodes ++ sp.keyDialogNodes env
    focus := sp.panelFocus }

/-- An overlay that is shown. -/
inductive Shown
  | closeDialog (dialog : CloseWindowDialog)
  | quickSelect (qs : QuickSelectState)
  | contextMenu (menu : ContextMenu)
  | palette (palette : CommandPalette)
  | hostManager (manager : HostManager)
  | macroPicker (picker : MacroPicker)
  | settingsPanel (sp : Panel)
  deriving DecidableEq

/-- Only one overlay is visible at a time: the first one that is open. -/
def Surfaces.shown (o : Surfaces) : Option Shown :=
  match o.closeWindowDialog with
  | some dialog => some (.closeDialog dialog)
  | none =>
    if o.quickSelect.isActive then some (.quickSelect o.quickSelect)
    else
      match o.contextMenu with
      | some menu => some (.contextMenu menu)
      | none =>
        if o.palette.isOpen then some (.palette o.palette)
        else if o.hostManager.isOpen then some (.hostManager o.hostManager)
        else if o.macroPicker.isOpen then some (.macroPicker o.macroPicker)
        else if o.settingsPanel.isOpen then some (.settingsPanel o.settingsPanel)
        else none

def Shown.overlay (env : Env) (t : Clock) : Shown → Overlay
  | closeDialog dialog => buildCloseDialogNodes dialog
  | quickSelect qs => buildQuickSelectNodes qs
  | contextMenu menu => buildContextMenuNodes menu
  | palette p => buildPaletteNodes env t p
  | hostManager manager => buildHostManagerNodes env manager
  | macroPicker picker => buildMacroPickerNodes env picker
  | settingsPanel sp => buildSettingsPanelNodes env sp

/-! ## Bars and alerts -/

/-- Loudest first, then oldest first. -/
def louder (a b : InfoBar) : Bool :=
  b.kind.severity.rank < a.kind.severity.rank ||
    (a.kind.severity = b.kind.severity && a.createdAt ≤ b.createdAt)

/-- The bars that have not been dismissed, loudest first. -/
def liveBars (bars : List InfoBar) : List InfoBar :=
  (bars.mergeSort louder).filter (!·.isDismissed)

def infoBarNode (env : Env) (t : Clock) (bar : InfoBar) : Node :=
  { role := .alert
    label := some (bar.kind.label env.loc t.instant)
    live := some (if bar.kind.severity = .error then .assertive else .polite) }

def buildInfoBarNodes (env : Env) (t : Clock) (bars : List InfoBar) : List (ℕ × Node) :=
  (liveBars bars).map fun bar => (infoBarNodeId bar.kind.slot, infoBarNode env t bar)

def alertNode (alert : AlertEntry) : Node :=
  { role := .alert
    label := some (match alert.kind with
      | .bell => alert.title
      | .notification => "Notification: " ++ alert.title)
    description := if alert.body = "" then none else some alert.body }

def buildAlertRegionNodes (alerts : List AlertEntry) : List (ℕ × Node) :=
  if alerts = [] then []
  else
    (alertRegionId,
      { role := .group, label := some "Notifications", live := some .assertive,
        children := alerts.map fun a => alertNodeId a.seq }) ::
    alerts.map fun alert => (alertNodeId alert.seq, alertNode alert)

/-! ## The tree -/

namespace ClientState

variable (env : Env) (t : Clock) (s : ClientState)

def overlay : Option Overlay := s.shown.map (Shown.overlay env t)

def rootChildren : List ℕ :=
  [tabBarId, paneAreaId] ++ (s.overlay env t).elim [] (fun o => [o.root]) ++
    (buildInfoBarNodes env t s.infoBars).map Prod.fst ++
    if s.alerts = [] then [] else [alertRegionId]

def rootNode : Node :=
  { role := .window, label := some "Nexterm", children := s.rootChildren env t }

/-- Build the tree from the state. -/
def buildTreeFromState : TreeUpdate :=
  { nodes :=
      (rootId, s.rootNode env t) :: s.baseNodes ++ (s.overlay env t).elim [] Overlay.nodes ++
        buildInfoBarNodes env t s.infoBars ++ buildAlertRegionNodes s.alerts
    root := rootId
    focus := (s.overlay env t).elim s.defaultFocus Overlay.focus }

end ClientState

end Nexterm.A11y

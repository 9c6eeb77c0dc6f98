/-
  The node ids of the accessibility tree (`accessibility.rs`).

  * The fixed ids, and the ids that are computed from panes, rows, list indices and widgets.
  * `NodeIdKind`, `decodeNodeId`: what an id stands for.
  * `nodeId k`: the id that is built for `k`; `Encodable k`: the ranges within which it is used.
  * `decode_nodeId`: within these ranges an id is decoded to what it was built for, so different
    things have different ids.
-/
import Mathlib.Data.List.Lookmap
import Mathlib.Data.Nat.Bitwise
import Mathlib.Tactic.Common

namespace Nexterm.A11y

/-- A pane of the client. -/
abbrev PaneId := UInt32

/-- Stable identity of a widget: its settings category, and its position in it. -/
structure WidgetId where
  category : UInt8
  index : UInt16
  deriving DecidableEq

/-- Which single-slot surface a bar occupies. -/
inductive InfoBarSlot
  | update
  | offline
  | serverError
  deriving DecidableEq

/-! ## Fixed ids -/

def rootId : ℕ := 1
def tabBarId : ℕ := 2
def paneAreaId : ℕ := 3
def settingsPanelId : ℕ := 4
def paletteId : ℕ := 5
def hostManagerId : ℕ := 6
def macroPickerId : ℕ := 7
def contextMenuId : ℕ := 8
def closeDialogId : ℕ := 9
def quickSelectId : ℕ := 11
def paletteSearchId : ℕ := 12
def paletteListId : ℕ := 13
def closeDialogKillBtn : ℕ := 14
def closeDialogCancelBtn : ℕ := 15
def quickSelectListId : ℕ := 16
def settingsTablistId : ℕ := 17
def settingsContentId : ℕ := 25
def alertRegionId : ℕ := 26
def paneInputBufferId : ℕ := 27
def settingsFooterOpenId : ℕ := 31
def settingsFooterResetId : ℕ := 32
def settingsSshDeleteDialogId : ℕ := 47
def settingsSshDeleteConfirmBtnId : ℕ := 48
def settingsSshDeleteCancelBtnId : ℕ := 49
def settingsKeyDeleteDialogId : ℕ := 54
def settingsKeyDeleteConfirmBtnId : ℕ := 55
def settingsKeyDeleteCancelBtnId : ℕ := 56
def windowMinimizeBtnId : ℕ := 57
def windowMaximizeBtnId : ℕ := 58
def windowCloseBtnId : ℕ := 59

/-- The id of the bar in a slot. -/
def infoBarNodeId : InfoBarSlot → ℕ
  | .update => 28
  | .offline => 29
  | .serverError => 30

/-! ## Computed ids -/

def settingsTabBase : ℕ := 60
def paletteItemOffset : ℕ := 100000000
def hostItemOffset : ℕ := 200000000
def macroItemOffset : ℕ := 300000000
def contextItemOffset : ℕ := 400000000
def quickselectItemOffset : ℕ := 500000000
def settingsWidgetBase : ℕ := 700000000
def tabOffset : ℕ := 1000000000
def paneOffset : ℕ := 10000000000
def paneRowOffset : ℕ := 20000000000
def alertOffset : ℕ := 50000000000000

def maxRowsPerPane : ℕ := 10000
def maxViewportRowsPerPane : ℕ := 1000
def maxScrollbackRowsPerPane : ℕ := maxRowsPerPane - maxViewportRowsPerPane

/-- Flatten to a single integer. -/
def WidgetId.asU32 (id : WidgetId) : ℕ := id.category.toNat <<< 16 ||| id.index.toNat

/-- The widget with this integer, if it has no bits above the category. -/
def WidgetId.fromU32 (raw : ℕ) : Option WidgetId :=
  if raw > 0xFFFFFF then none
  else some ⟨UInt8.ofNat (raw >>> 16), UInt16.ofNat (raw &&& 0xFFFF)⟩

def settingsTabIdAt (idx : ℕ) : ℕ := settingsTabBase + idx
def settingsWidgetId (id : WidgetId) : ℕ := settingsWidgetBase + id.asU32
def paletteItemId (idx : ℕ) : ℕ := paletteItemOffset + idx
def hostItemId (idx : ℕ) : ℕ := hostItemOffset + idx
def macroItemId (idx : ℕ) : ℕ := macroItemOffset + idx
def contextItemId (idx : ℕ) : ℕ := contextItemOffset + idx
def quickselectItemId (idx : ℕ) : ℕ := quickselectItemOffset + idx
def tabNodeId (paneId : PaneId) : ℕ := tabOffset + paneId.toNat
def paneNodeId (paneId : PaneId) : ℕ := paneOffset + paneId.toNat

def paneRowNodeId (paneId : PaneId) (row : ℕ) : ℕ :=
  paneRowOffset + paneId.toNat * maxRowsPerPane + row

def paneScrollbackRowNodeId (paneId : PaneId) (idx : ℕ) : ℕ :=
  paneRowOffset + paneId.toNat * maxRowsPerPane + maxViewportRowsPerPane + idx

/-- Of the ids, this is the only one that can pass the end of the 64-bit range. -/
def alertNodeId (seq : ℕ) : ℕ := (alertOffset + seq) % 2 ^ 64

/-! ## Decoding -/

/-- What a node id stands for. -/
inductive NodeIdKind
  | root
  | tabBar
  | paneArea
  | settingsPanel
  | palette
  | hostManager
  | macroPicker
  | contextMenu
  | closeDialog
  | infoBar (slot : InfoBarSlot)
  | quickSelect
  | paletteSearch
  | paletteList
  | closeDialogKill
  | closeDialogCancel
  | quickSelectList
  | tab (paneId : PaneId)
  | pane (paneId : PaneId)
  | paletteItem (idx : ℕ)
  | hostItem (idx : ℕ)
  | macroItem (idx : ℕ)
  | contextItem (idx : ℕ)
  | quickSelectItem (idx : ℕ)
  | settingsTabList
  | settingsTab (idx : ℕ)
  | windowMinimizeButton
  | windowMaximizeButton
  | windowCloseButton
  | settingsContent
  | settingsFooterOpenConfig
  | settingsFooterResetCategory
  | settingsWidget (id : WidgetId)
  | paneRow (paneId : PaneId) (row : ℕ)
  | paneScrollbackRow (paneId : PaneId) (idx : ℕ)
  | alertRegion
  | alert (seq : ℕ)
  | paneInputBuffer
  | settingsSshDeleteDialog
  | settingsSshDeleteConfirmBtn
  | settingsSshDeleteCancelBtn
  | settingsKeyDeleteDialog
  | settingsKeyDeleteConfirmBtn
  | settingsKeyDeleteCancelBtn
  | unknown
  deriving DecidableEq

/-- The arms of `decodeNodeId` that match a single id. -/
def fixedKinds : List (ℕ × NodeIdKind) :=
  [(1, .root), (2, .tabBar), (3, .paneArea), (4, .settingsPanel), (5, .palette),
    (6, .hostManager), (7, .macroPicker), (8, .contextMenu), (9, .closeDialog),
    (11, .quickSelect), (12, .paletteSearch), (13, .paletteList), (14, .closeDialogKill),
    (15, .closeDialogCancel), (16, .quickSelectList), (17, .settingsTabList),
    (25, .settingsContent), (26, .alertRegion), (27, .paneInputBuffer), (28, .infoBar .update),
    (29, .infoBar .offline), (30, .infoBar .serverError), (31, .settingsFooterOpenConfig),
    (32, .settingsFooterResetCategory), (47, .settingsSshDeleteDialog),
    (48, .settingsSshDeleteConfirmBtn), (49, .settingsSshDeleteCancelBtn),
    (54, .settingsKeyDeleteDialog), (55, .settingsKeyDeleteConfirmBtn),
    (56, .settingsKeyDeleteCancelBtn), (57, .windowMinimizeButton), (58, .windowMaximizeButton),
    (59, .windowCloseButton)]

/-- Width of each dynamic offset range. -/
def dynRange : ℕ := 100000000

/-- A row of a pane, from its place among the ids of the rows. -/
def decodePaneRow (normalized : ℕ) : NodeIdKind :=
  let paneId := UInt32.ofNat (normalized / maxRowsPerPane)
  let offsetInPane := normalized % maxRowsPerPane
  if offsetInPane < maxViewportRowsPerPane then .paneRow paneId offsetInPane
  else .paneScrollbackRow paneId (offsetInPane - maxViewportRowsPerPane)

/-- A range of ids, and what its ids stand for by their place in it. -/
structure IdRange where
  start : ℕ
  width : ℕ
  kind : ℕ → NodeIdKind

/-- An id is in the range. -/
def IdRange.contains (r : IdRange) (raw : ℕ) : Bool := r.start ≤ raw && raw < r.start + r.width

/-- The dynamic offset ranges, in the order in which they are tried. -/
def dynamicRanges : List IdRange :=
  [⟨paletteItemOffset, dynRange, .paletteItem⟩,
    ⟨hostItemOffset, dynRange, .hostItem⟩,
    ⟨macroItemOffset, dynRange, .macroItem⟩,
    ⟨contextItemOffset, dynRange, .contextItem⟩,
    ⟨quickselectItemOffset, dynRange, .quickSelectItem⟩,
    ⟨tabOffset, 2 ^ 32, fun n => .tab (UInt32.ofNat n)⟩,
    ⟨paneOffset, 2 ^ 32, fun n => .pane (UInt32.ofNat n)⟩,
    ⟨paneRowOffset, 2 ^ 32 * maxRowsPerPane, decodePaneRow⟩,
    ⟨alertOffset, 2 ^ 64 - alertOffset, .alert⟩]

/-- Decode dynamic offset ranges. -/
def decodeDynamic (raw : ℕ) : NodeIdKind :=
  match dynamicRanges.find? (·.contains raw) with
  | some r => r.kind (raw - r.start)
  | none => .unknown

/-- What an id stands for. -/
def decodeNodeId (raw : ℕ) : NodeIdKind :=
  match fixedKinds.lookup raw with
  | some kind => kind
  | none =>
    if 60 ≤ raw ∧ raw ≤ 99 then .settingsTab (raw - settingsTabBase)
    else if 700000000 ≤ raw ∧ raw ≤ 799999999 then
      match WidgetId.fromU32 (raw - settingsWidgetBase) with
      | some id => .settingsWidget id
      | none => .unknown
    else decodeDynamic raw

/-! ## What ids are built for -/

/-- The id that is built for a node. -/
def nodeId : NodeIdKind → ℕ
  | .root => rootId
  | .tabBar => tabBarId
  | .paneArea => paneAreaId
  | .settingsPanel => settingsPanelId
  | .palette => paletteId
  | .hostManager => hostManagerId
  | .macroPicker => macroPickerId
  | .contextMenu => contextMenuId
  | .closeDialog => closeDialogId
  | .infoBar slot => infoBarNodeId slot
  | .quickSelect => quickSelectId
  | .paletteSearch => paletteSearchId
  | .paletteList => paletteListId
  | .closeDialogKill => closeDialogKillBtn
  | .closeDialogCancel => closeDialogCancelBtn
  | .quickSelectList => quickSelectListId
  | .tab paneId => tabNodeId paneId
  | .pane paneId => paneNodeId paneId
  | .paletteItem idx => paletteItemId idx
  | .hostItem idx => hostItemId idx
  | .macroItem idx => macroItemId idx
  | .contextItem idx => contextItemId idx
  | .quickSelectItem idx => quickselectItemId idx
  | .settingsTabList => settingsTablistId
  | .settingsTab idx => settingsTabIdAt idx
  | .windowMinimizeButton => windowMinimizeBtnId
  | .windowMaximizeButton => windowMaximizeBtnId
  | .windowCloseButton => windowCloseBtnId
  | .settingsContent => settingsContentId
  | .settingsFooterOpenConfig => settingsFooterOpenId
  | .settingsFooterResetCategory => settingsFooterResetId
  | .settingsWidget id => settingsWidgetId id
  | .paneRow paneId row => paneRowNodeId paneId row
  | .paneScrollbackRow paneId idx => paneScrollbackRowNodeId paneId idx
  | .alertRegion => alertRegionId
  | .alert seq => alertNodeId seq
  | .paneInputBuffer => paneInputBufferId
  | .settingsSshDeleteDialog => settingsSshDeleteDialogId
  | .settingsSshDeleteConfirmBtn => settingsSshDeleteConfirmBtnId
  | .settingsSshDeleteCancelBtn => settingsSshDeleteCancelBtnId
  | .settingsKeyDeleteDialog => settingsKeyDeleteDialogId
  | .settingsKeyDeleteConfirmBtn => settingsKeyDeleteConfirmBtnId
  | .settingsKeyDeleteCancelBtn => settingsKeyDeleteCancelBtnId
  | .unknown => 0

/-- The ranges within which ids are told apart. -/
def Encodable : NodeIdKind → Prop
  | .settingsTab idx => idx < 40
  | .paletteItem idx | .hostItem idx | .macroItem idx | .contextItem idx | .quickSelectItem idx =>
    idx < dynRange
  | .paneRow _ row => row < maxViewportRowsPerPane
  | .paneScrollbackRow _ idx => idx < maxScrollbackRowsPerPane
  | .alert seq => seq < 2 ^ 64 - alertOffset
  | _ => True

theorem WidgetId.asU32_eq (id : WidgetId) :
    id.asU32 = id.category.toNat * 65536 + id.index.toNat := by
  have hindex : id.index.toNat < 2 ^ 16 := id.index.toNat_lt
  rw [asU32, ← Nat.shiftLeft_add_eq_or_of_lt hindex, Nat.shiftLeft_eq]

theorem WidgetId.asU32_le (id : WidgetId) : id.asU32 ≤ 0xFFFFFF := by
  have hcategory : id.category.toNat < 2 ^ 8 := id.category.toNat_lt
  have hindex : id.index.toNat < 2 ^ 16 := id.index.toNat_lt
  rw [asU32_eq]
  omega

@[simp] theorem WidgetId.fromU32_asU32 (id : WidgetId) : fromU32 id.asU32 = some id := by
  have hindex : id.index.toNat < 2 ^ 16 := id.index.toNat_lt
  have hhigh : id.asU32 >>> 16 = id.category.toNat := by
    rw [Nat.shiftRight_eq_div_pow, asU32_eq]
    omega
  have hlow : id.asU32 &&& 0xFFFF = id.index.toNat := by
    rw [show 0xFFFF = 2 ^ 16 - 1 from rfl, Nat.and_two_pow_sub_one_eq_mod, asU32_eq]
    omega
  rw [fromU32, if_neg (Nat.not_lt.2 id.asU32_le), hhigh, hlow, UInt8.ofNat_toNat,
    UInt16.ofNat_toNat]

/-- The single ids are all below the ranges. -/
theorem lookup_fixedKinds {raw : ℕ} (h : 60 ≤ raw) : fixedKinds.lookup raw = none := by
  have hbelow : ∀ p ∈ fixedKinds, p.1 < 60 := by decide
  rw [List.lookup_eq_none_iff]
  intro p hp
  have := hbelow p hp
  rw [bne_iff_ne]
  omega

theorem IdRange.find_eq {r : IdRange} {n : ℕ} (hn : n < r.width) {rs : List IdRange}
    (hdisj : rs.Pairwise fun r r' => r.start + r.width ≤ r'.start) (hr : r ∈ rs) :
    rs.find? (·.contains (r.start + n)) = some r := by
  induction rs with
  | nil => cases hr
  | cons r' rs ih =>
    rw [List.pairwise_cons] at hdisj
    rcases List.mem_cons.1 hr with rfl | hmem
    · rw [List.find?_cons_of_pos]
      simp [contains, hn]
    · have hbelow := hdisj.1 r hmem
      rw [List.find?_cons_of_neg, ih hdisj.2 hmem]
      simp only [contains, Bool.and_eq_true, decide_eq_true_eq]
      omega

/-- A place in one of the ranges is decoded by this range. -/
theorem decodeNodeId_range {r : IdRange} (hr : r ∈ dynamicRanges) {n : ℕ} (hn : n < r.width) :
    decodeNodeId (r.start + n) = r.kind n := by
  have hdisj : dynamicRanges.Pairwise fun r r' => r.start + r.width ≤ r'.start := by
    decide
  have hout : ∀ r ∈ dynamicRanges, 100 ≤ r.start ∧
      (r.start + r.width ≤ 700000000 ∨ 800000000 ≤ r.start) := by
    decide
  obtain ⟨hge, hwidget⟩ := hout r hr
  rw [decodeNodeId, lookup_fixedKinds (by omega)]
  show (if _ then _ else if _ then _ else _) = _
  rw [if_neg (by omega), if_neg (by omega), decodeDynamic, IdRange.find_eq hn hdisj hr]
  exact congrArg r.kind (Nat.add_sub_cancel_left _ _)

theorem decodePaneRow_viewport {paneId : PaneId} {row : ℕ} (h : row < maxViewportRowsPerPane) :
    decodePaneRow (paneId.toNat * maxRowsPerPane + row) = .paneRow paneId row := by
  have hrow : row < 1000 := h
  have hdiv : (paneId.toNat * maxRowsPerPane + row) / maxRowsPerPane = paneId.toNat := by
    simp only [maxRowsPerPane]
    omega
  have hmod : (paneId.toNat * maxRowsPerPane + row) % maxRowsPerPane = row := by
    simp only [maxRowsPerPane]
    omega
  rw [decodePaneRow, hdiv, hmod, UInt32.ofNat_toNat]
  exact if_pos h

theorem decodePaneRow_scrollback {paneId : PaneId} {idx : ℕ}
    (h : idx < maxScrollbackRowsPerPane) :
    decodePaneRow (paneId.toNat * maxRowsPerPane + maxViewportRowsPerPane + idx) =
      .paneScrollbackRow paneId idx := by
  have hidx : idx < 9000 := h
  have hdiv : (paneId.toNat * maxRowsPerPane + maxViewportRowsPerPane + idx) / maxRowsPerPane =
      paneId.toNat := by
    simp only [maxRowsPerPane, maxViewportRowsPerPane]
    omega
  have hmod : (paneId.toNat * maxRowsPerPane + maxViewportRowsPerPane + idx) % maxRowsPerPane =
      maxViewportRowsPerPane + idx := by
    simp only [maxRowsPerPane, maxViewportRowsPerPane]
    omega
  rw [decodePaneRow, hdiv, hmod, UInt32.ofNat_toNat]
  show (if _ then _ else _) = _
  rw [if_neg (by omega), Nat.add_sub_cancel_left]

theorem decodeNodeId_settingsTab {idx : ℕ} (h : idx < 40) :
    decodeNodeId (60 + idx) = .settingsTab idx := by
  rw [decodeNodeId, lookup_fixedKinds (by omega)]
  show (if _ then _ else if _ then _ else _) = _
  rw [if_pos (by omega), settingsTabBase, Nat.add_sub_cancel_left]

theorem decodeNodeId_settingsWidget (id : WidgetId) :
    decodeNodeId (700000000 + id.asU32) = .settingsWidget id := by
  have hid := id.asU32_le
  rw [decodeNodeId, lookup_fixedKinds (by omega)]
  show (if _ then _ else if _ then _ else _) = _
  rw [if_neg (by omega), if_pos (by omega), settingsWidgetBase, Nat.add_sub_cancel_left,
    WidgetId.fromU32_asU32]

/-- **Ids are decoded to what they were built for.** -/
theorem decode_nodeId {kind : NodeIdKind} (h : Encodable kind) :
    decodeNodeId (nodeId kind) = kind := by
  cases kind with
  | infoBar slot => cases slot <;> rfl
  | settingsTab idx => exact decodeNodeId_settingsTab h
  | settingsWidget id => exact decodeNodeId_settingsWidget id
  | paneRow paneId row =>
    have hrow : row < 1000 := h
    have hpane : paneId.toNat < 2 ^ 32 := paneId.toNat_lt
    have hplace : paneId.toNat * maxRowsPerPane + row < 2 ^ 32 * maxRowsPerPane := by
      simp only [maxRowsPerPane]
      omega
    rw [nodeId, paneRowNodeId, Nat.add_assoc, ← decodePaneRow_viewport h]
    exact decodeNodeId_range (r := ⟨paneRowOffset, _, decodePaneRow⟩)
      (by simp [dynamicRanges]) hplace
  | paneScrollbackRow paneId idx =>
    have hidx : idx < 9000 := h
    have hpane : paneId.toNat < 2 ^ 32 := paneId.toNat_lt
    have hplace : paneId.toNat * maxRowsPerPane + maxViewportRowsPerPane + idx <
        2 ^ 32 * maxRowsPerPane := by
      simp only [maxRowsPerPane, maxViewportRowsPerPane]
      omega
    rw [nodeId, paneScrollbackRowNodeId, Nat.add_assoc, Nat.add_assoc, ← Nat.add_assoc (_ * _),
      ← decodePaneRow_scrollback h]
    exact decodeNodeId_range (r := ⟨paneRowOffset, _, decodePaneRow⟩)
      (by simp [dynamicRanges]) hplace
  | tab paneId =>
    rw [nodeId, tabNodeId]
    refine (decodeNodeId_range (r := ⟨tabOffset, _, fun n => .tab (UInt32.ofNat n)⟩)
      (by simp [dynamicRanges]) paneId.toNat_lt).trans ?_
    exact congrArg NodeIdKind.tab UInt32.ofNat_toNat
  | pane paneId =>
    rw [nodeId, paneNodeId]
    refine (decodeNodeId_range (r := ⟨paneOffset, _, fun n => .pane (UInt32.ofNat n)⟩)
      (by simp [dynamicRanges]) paneId.toNat_lt).trans ?_
    exact congrArg NodeIdKind.pane UInt32.ofNat_toNat
  | alert seq =>
    have hseq : seq < 2 ^ 64 - 50000000000000 := h
    rw [nodeId, alertNodeId, alertOffset, Nat.mod_eq_of_lt (by omega)]
    exact decodeNodeId_range (r := ⟨alertOffset, _, .alert⟩) (by simp [dynamicRanges]) h
  | paletteItem idx =>
    exact decodeNodeId_range (r := ⟨paletteItemOffset, dynRange, .paletteItem⟩)
      (by simp [dynamicRanges]) h
  | hostItem idx =>
    exact decodeNodeId_range (r := ⟨hostItemOffset, dynRange, .hostItem⟩)
      (by simp [dynamicRanges]) h
  | macroItem idx =>
    exact decodeNodeId_range (r := ⟨macroItemOffset, dynRange, .macroItem⟩)
      (by simp [dynamicRanges]) h
  | contextItem idx =>
    exact decodeNodeId_range (r := ⟨contextItemOffset, dynRange, .contextItem⟩)
      (by simp [dynamicRanges]) h
  | quickSelectItem idx =>
    exact decodeNodeId_range (r := ⟨quickselectItemOffset, dynRange, .quickSelectItem⟩)
      (by simp [dynamicRanges]) h
  | _ => rfl

end Nexterm.A11y

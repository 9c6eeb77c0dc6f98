/-
  A window: a collection of panes with a BSP tree, a tab order and a focus
  (`window/mod.rs`).

  * `Window`: the state; `panes`, `serialPanes` and `floatingPanes` are the three containers.
  * The operations that change panes, focus, layout mode or zoom, each as a function from
    windows to windows; a fallible one also returns the window it leaves behind on an error.
  * `layoutChangedMsg`: the message built from the layout.

  Opening a PTY or a serial port is an argument of the operation that does it (`opened`), as is
  the pane id that the process-wide counter hands out.
-/
import Nexterm.Lib.Maps
import Nexterm.Server.Tiling

namespace Nexterm.Server

/-- A `HashMap` keyed by `u32` ids. -/
abbrev IdMap (V : Type) := Std.ExtTreeMap ℕ V

/-- A PTY pane: its id and the size last passed to `resize_pty`. -/
structure Pane where
  id : ℕ
  cols : ℕ
  rows : ℕ
  deriving DecidableEq, Repr

/-- Resize the PTY. -/
def Pane.resizePty (p : Pane) (cols rows : ℕ) : Pane := { p with cols := cols, rows := rows }

/-- A serial port pane; its size is the one it was opened with. -/
structure SerialPane where
  id : ℕ
  cols : ℕ
  rows : ℕ
  deriving DecidableEq, Repr

/-- A serial port has no window size: resizing is a no-op. -/
def SerialPane.resizePty (p : SerialPane) (_cols _rows : ℕ) : SerialPane := p

/-- Window layout mode. -/
inductive LayoutMode
  | bsp
  | tiling
  deriving DecidableEq, Repr

/-- One pane of a `LayoutChanged` message. -/
structure PaneLayout where
  paneId : ℕ
  colOffset : ℕ
  rowOffset : ℕ
  cols : ℕ
  rows : ℕ
  isFocused : Bool
  deriving DecidableEq, Repr

/-- The `LayoutChanged` message. -/
structure LayoutChanged where
  panes : List PaneLayout
  focusedPaneId : ℕ
  deriving DecidableEq, Repr

/-- The errors of the window operations. -/
inductive WindowError
  | insertFailed (newId focusedPaneId : ℕ)
  | lastPane
  | spawn (text : String)
  deriving DecidableEq, Repr

/-- The text of an error. -/
def WindowError.message : WindowError → String
  | .insertFailed newId focusedPaneId =>
    "failed to insert pane " ++ toString newId ++ " into the BSP tree next to focused pane " ++
      toString focusedPaneId
  | .lastPane => "cannot remove the last remaining pane"
  | .spawn text => text

/-- Window (container for panes). -/
structure Window (F : Type) where
  id : ℕ
  name : String
  panes : IdMap Pane
  serialPanes : IdMap SerialPane
  focusedPaneId : ℕ
  layout : SplitNode F
  zoomed : Bool
  layoutMode : LayoutMode
  floatingPanes : IdMap (Pane × FloatRect)
  lastCols : ℕ
  lastRows : ℕ
  paneOrder : List ℕ
  deriving DecidableEq

/-! ## Pure helpers -/

/-- Where `insertPaneAt` puts the new tab. -/
def computeInsertPosition (currentLen : ℕ) (requestedPosition focusedIndex : Option ℕ) : ℕ :=
  match requestedPosition with
  | some pos => min pos currentLen
  | none =>
    match focusedIndex with
    | some idx => if idx + 1 < currentLen then idx + 1 else currentLen
    | none => currentLen

/-- Append to `next` the ids that are known and not yet in it. -/
def pickKnown (known : ℕ → Bool) (next ids : List ℕ) : List ℕ :=
  ids.foldl (fun next id => if known id && !next.contains id then next ++ [id] else next) next

/-- The requested ids first, then the rest of `current`, then what is left in ascending order. -/
def computeReordered (current requested known : List ℕ) : List ℕ :=
  let next := pickKnown known.contains (pickKnown known.contains [] requested) current
  next ++ (known.filter fun id => !next.contains id).insertionSort (· ≤ ·)

/-- Resize the PTY panes that have a rectangle. -/
def resizePanes (rects : List PaneRect) (panes : IdMap Pane) : IdMap Pane :=
  rects.foldl (fun m r => m.modify r.paneId (·.resizePty r.cols r.rows)) panes

/-- Resize the serial panes that have a rectangle and are not PTY panes. -/
def resizeSerialPanes (rects : List PaneRect) (panes : IdMap Pane) (serials : IdMap SerialPane) :
    IdMap SerialPane :=
  rects.foldl (fun m r =>
    if r.paneId ∈ panes then m else m.modify r.paneId (·.resizePty r.cols r.rows)) serials

/-- The last rectangle of a pane: the lookup map is collected from the list. -/
def rectById (rects : List PaneRect) (id : ℕ) : Option PaneRect :=
  rects.reverse.find? fun r => r.paneId = id

namespace Window

variable {F : Type} [Ratio F]

/-! ## Layout -/

/-- Compute layouts for all panes. -/
def computeLayouts (w : Window F) (cols rows : ℕ) : List PaneRect :=
  match w.layoutMode with
  | .bsp => w.layout.compute 0 0 cols rows
  | .tiling =>
    computeTilingLayouts ((w.panes.keys ++ w.serialPanes.keys).insertionSort (· ≤ ·)) cols rows

/-- The entry of a rectangle in a `LayoutChanged` message. -/
def paneLayout (w : Window F) (r : PaneRect) : PaneLayout :=
  ⟨r.paneId, r.colOff, r.rowOff, r.cols, r.rows, r.paneId = w.focusedPaneId⟩

/-- Build a `LayoutChanged` message. -/
def layoutChangedMsg (w : Window F) (cols rows : ℕ) : LayoutChanged :=
  if w.zoomed then ⟨[⟨w.focusedPaneId, 0, 0, cols, rows, true⟩], w.focusedPaneId⟩
  else
    let rects := w.computeLayouts cols rows
    let ordered := w.paneOrder.filterMap fun id => (rectById rects id).map w.paneLayout
    let unregistered := rects.filter fun r => !w.paneOrder.contains r.paneId
    ⟨ordered ++ unregistered.map w.paneLayout, w.focusedPaneId⟩

/-- Resize the PTY panes to the current layout. -/
def resizeTiled (w : Window F) (cols rows : ℕ) : Window F :=
  { w with panes := resizePanes (w.computeLayouts cols rows) w.panes }

/-- Resize every pane according to a new total size. -/
def resizeAllPanes (w : Window F) (cols rows : ℕ) : Window F :=
  let w := { w with lastCols := cols, lastRows := rows }
  let layouts := w.computeLayouts cols rows
  { w with
    panes := resizePanes layouts w.panes
    serialPanes := resizeSerialPanes layouts w.panes w.serialPanes
    floatingPanes := w.floatingPanes.map fun _ (pane, rect) =>
      let rect := rect.clampTo cols rows
      (pane.resizePty rect.cols rect.rows, rect) }

/-- Change the layout mode and resize every pane to the new layout. -/
def setLayoutMode (w : Window F) (mode : LayoutMode) (cols rows : ℕ) : Window F :=
  { w with layoutMode := mode }.resizeAllPanes cols rows

/-! ## Creating a window and adding panes -/

/-- The window around a single pane. -/
def ofPane (id : ℕ) (name : String) (pane : Pane) (cols rows : ℕ) : Window F where
  id := id
  name := name
  panes := (∅ : IdMap Pane).insert pane.id pane
  serialPanes := ∅
  focusedPaneId := pane.id
  layout := .pane pane.id
  zoomed := false
  layoutMode := .bsp
  floatingPanes := ∅
  lastCols := cols
  lastRows := rows
  paneOrder := [pane.id]

/-- Construct a window with a single initial pane, spawned under the id `newId`. -/
def new (id : ℕ) (name : String) (cols rows newId : ℕ) (opened : Except String Unit) :
    Except WindowError (Window F) :=
  match opened with
  | .error text => .error (.spawn text)
  | .ok () => .ok (ofPane id name ⟨newId, cols, rows⟩ cols rows)

/-- Construct a window from an existing pane. -/
def newWithPane (id : ℕ) (name : String) (pane : Pane) (cols rows : ℕ) : Window F :=
  (ofPane id name pane cols rows).resizeAllPanes cols rows

/-- Add a pane by splitting the focused one. -/
def addPaneWithOptions (w : Window F) (newId totalCols totalRows : ℕ) (dir : SplitDir)
    (opened : Except String Unit) : Window F × Except WindowError ℕ :=
  let (layout, found) := w.layout.insertAfter w.focusedPaneId newId dir
  let w := { w with layout := layout }
  if !found then (w, .error (.insertFailed newId w.focusedPaneId))
  else
    let layouts := w.computeLayouts totalCols totalRows
    let newRect := (layouts.find? (·.paneId = newId)).getD ⟨newId, 0, 0, totalCols, totalRows⟩
    match opened with
    -- the leaf stays in the tree
    | .error text => (w, .error (.spawn text))
    | .ok () =>
      ({ w with
          panes := resizePanes (layouts.filter (·.paneId ≠ newId))
            (w.panes.insert newId ⟨newId, newRect.cols, newRect.rows⟩)
          focusedPaneId := newId
          paneOrder := w.paneOrder ++ [newId] }, .ok newId)

/-- Add a serial port pane to the tree. -/
def addSerialPane (w : Window F) (newId totalCols totalRows : ℕ) (dir : SplitDir)
    (opened : Except String Unit) : Window F × Except WindowError ℕ :=
  match opened with
  | .error text => (w, .error (.spawn text))
  | .ok () =>
    let w := { w with
      layout := (w.layout.insertAfter w.focusedPaneId newId dir).1
      serialPanes := w.serialPanes.insert newId ⟨newId, totalCols, totalRows⟩
      focusedPaneId := newId
      paneOrder := w.paneOrder ++ [newId] }
    (w.resizeAllPanes totalCols totalRows, .ok newId)

/-- Insert a pane brought in from elsewhere next to the focused one. -/
def insertPaneAt (w : Window F) (pane : Pane) (totalCols totalRows : ℕ) (dir : SplitDir)
    (position : Option ℕ) : Window F :=
  let newId := pane.id
  let w := { w with
    layout := (w.layout.insertAfter w.focusedPaneId newId dir).1
    panes := w.panes.insert newId pane
    focusedPaneId := newId
    zoomed := false }
  -- the focus has already moved to the new pane, which is not in the tab order yet
  let focusedIndex := w.paneOrder.findIdx? (· = w.focusedPaneId)
  let newPos := computeInsertPosition w.paneOrder.length position focusedIndex
  { w with paneOrder := w.paneOrder.insertIdx newPos newId }.resizeTiled totalCols totalRows

/-- Insert a pane brought in from elsewhere after the focused one. -/
def insertPane (w : Window F) (pane : Pane) (totalCols totalRows : ℕ) (dir : SplitDir) : Window F :=
  w.insertPaneAt pane totalCols totalRows dir none

/-! ## Removing panes -/

/-- The smallest remaining PTY id; the callers have made sure that a pane remains. -/
def nextId (w : Window F) : ℕ := w.panes.keys.min?.getD w.focusedPaneId

/-- Remove the focused pane. -/
def removeFocusedPane (w : Window F) (cols rows : ℕ) : Window F × Except WindowError ℕ :=
  if w.panes.size ≤ 1 then (w, .error .lastPane)
  else
    let targetId := w.focusedPaneId
    let w := { w with
      layout := (w.layout.remove targetId).1
      panes := w.panes.erase targetId
      serialPanes := w.serialPanes.erase targetId
      paneOrder := w.paneOrder.filter (· ≠ targetId) }
    ({ w with focusedPaneId := w.nextId }.resizeTiled cols rows, .ok targetId)

/-- Take the focused pane out of the window (break-pane, join-pane). -/
def takeFocusedPane (w : Window F) (cols rows : ℕ) : Window F × Option Pane :=
  if w.panes.size ≤ 1 then (w, none)
  else
    let targetId := w.focusedPaneId
    let w := { w with layout := (w.layout.remove targetId).1 }
    if targetId ∈ w.serialPanes then (w, none)
    else
      match w.panes[targetId]? with
      | none => (w, none)
      | some pane =>
        let w := { w with
          panes := w.panes.erase targetId
          paneOrder := w.paneOrder.filter (· ≠ targetId) }
        ({ w with focusedPaneId := w.nextId, zoomed := false }.resizeTiled cols rows, some pane)

/-- Take a given pane out of the window (move-pane). -/
def takePaneById (w : Window F) (paneId cols rows : ℕ) : Window F × Option Pane :=
  if w.panes.size ≤ 1 then (w, none)
  else
    match w.panes[paneId]? with
    | none => (w, none)
    | some pane =>
      if paneId ∈ w.serialPanes then (w, none)
      else
        let w := { w with
          layout := (w.layout.remove paneId).1
          panes := w.panes.erase paneId
          paneOrder := w.paneOrder.filter (· ≠ paneId) }
        let focusedPaneId := if w.focusedPaneId = paneId then w.nextId else w.focusedPaneId
        ({ w with focusedPaneId := focusedPaneId, zoomed := false }.resizeTiled cols rows, some pane)

/-- Consume the window and take its only PTY pane. -/
def intoSinglePane (w : Window F) : Option Pane :=
  if !w.serialPanes.isEmpty then none
  else if w.panes.size ≠ 1 then none
  else w.panes.toList.head?.map Prod.snd

/-- Return the pane count (PTY + serial). -/
def paneCount (w : Window F) : ℕ := w.panes.size + w.serialPanes.size

/-! ## Focus, zoom, order and ratios -/

/-- Move focus to a PTY pane. -/
def setFocusedPane (w : Window F) (paneId : ℕ) : Window F :=
  if paneId ∈ w.panes then { w with focusedPaneId := paneId } else w

/-- Move focus to the next PTY pane in id order. -/
def focusNext (w : Window F) : Window F :=
  let ids := w.panes.keys
  match ids.findIdx? (· = w.focusedPaneId) with
  | some pos => { w with focusedPaneId := ids.getD ((pos + 1) % ids.length) w.focusedPaneId }
  | none => w

/-- Move focus to the previous PTY pane in id order. -/
def focusPrev (w : Window F) : Window F :=
  let ids := w.panes.keys
  match ids.findIdx? (· = w.focusedPaneId) with
  | some pos =>
    let prev := if pos = 0 then ids.length - 1 else pos - 1
    { w with focusedPaneId := ids.getD prev w.focusedPaneId }
  | none => w

/-- Toggle zoom on the focused pane; also returns the new zoom state. -/
def toggleZoom (w : Window F) (cols rows : ℕ) : Window F × Bool :=
  let w := { w with zoomed := !w.zoomed }
  if w.zoomed then
    ({ w with panes := w.panes.modify w.focusedPaneId (·.resizePty cols rows) }, w.zoomed)
  else (w.resizeAllPanes cols rows, w.zoomed)

/-- Replace the tab display order; also returns whether it changed. -/
def reorderPanes (w : Window F) (newOrder : List ℕ) : Window F × Bool :=
  let known := w.panes.keys ++ w.serialPanes.keys
  let next := computeReordered w.paneOrder newOrder known
  if next = w.paneOrder then (w, false) else ({ w with paneOrder := next }, true)

/-- Adjust the ratio of the split closest to the focused pane. -/
def adjustSplitRatio (w : Window F) (delta : F) (cols rows : ℕ) : Window F :=
  let (layout, adjusted) := w.layout.adjustRatioFor w.focusedPaneId delta
  let w := { w with layout := layout }
  if adjusted then w.resizeTiled cols rows else w

/-- Swap the focused pane with the given pane in the tree. -/
def swapFocusedWith (w : Window F) (targetPaneId : ℕ) : Window F :=
  if w.focusedPaneId ≠ targetPaneId then
    { w with layout := (w.layout.swapIds w.focusedPaneId targetPaneId).1 }
  else w

/-! ## Floating panes -/

/-- Open a floating pane of 60% × 70% of the window in its center. -/
def openFloatingPane (w : Window F) (newId totalCols totalRows : ℕ) (opened : Except String Unit) :
    Window F × Except WindowError (ℕ × FloatRect) :=
  let w := { w with lastCols := totalCols, lastRows := totalRows }
  let fpCols := totalCols * 6 / 10
  let fpRows := totalRows * 7 / 10
  let rect := FloatRect.clampTo
    ⟨(totalCols - fpCols) / 2, (totalRows - fpRows) / 2, fpCols, fpRows⟩ totalCols totalRows
  match opened with
  | .error text => (w, .error (.spawn text))
  | .ok () =>
    ({ w with floatingPanes := w.floatingPanes.insert newId (⟨newId, rect.cols, rect.rows⟩, rect) },
      .ok (newId, rect))

/-- Close a floating pane. -/
def closeFloatingPane (w : Window F) (paneId : ℕ) : Window F × Bool :=
  ({ w with floatingPanes := w.floatingPanes.erase paneId }, w.floatingPanes.contains paneId)

/-- Move a floating pane, clamped to the last known window size. -/
def moveFloatingPane (w : Window F) (paneId colOff rowOff : ℕ) : Window F × Option FloatRect :=
  match w.floatingPanes[paneId]? with
  | none => (w, none)
  | some (pane, rect) =>
    let rect := { rect with colOff := colOff, rowOff := rowOff }.clampTo w.lastCols w.lastRows
    ({ w with floatingPanes := w.floatingPanes.insert paneId (pane, rect) }, some rect)

/-- Resize a floating pane, clamped to the last known window size. -/
def resizeFloatingPane (w : Window F) (paneId cols rows : ℕ) : Window F × Option FloatRect :=
  match w.floatingPanes[paneId]? with
  | none => (w, none)
  | some (pane, rect) =>
    let rect := { rect with cols := cols, rows := rows }.clampTo w.lastCols w.lastRows
    ({ w with
        floatingPanes := w.floatingPanes.insert paneId (pane.resizePty rect.cols rect.rows, rect) },
      some rect)

end Window

end Nexterm.Server

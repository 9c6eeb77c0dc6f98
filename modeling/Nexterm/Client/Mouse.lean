/-
  The left mouse button (`renderer/event_handler/mouse.rs`, `chrome_resize.rs`).

  * `MouseFrame`: what the handlers read, besides the pointer.
  * `pressTarget`: what a press hits; below the tab bar, the borders and the blocks it is a cell.
  * `copyText`: the text of a selection.
  * `MouseState.step`: what a move, a press and a release change, copy and report.

  Pixel coordinates are rational numbers in place of `f32` and `f64`.
-/
import Nexterm.Client.BlockRows
import Nexterm.Client.Borders
import Nexterm.Lib.TextRange

namespace Nexterm.Client

open Nexterm.Vt (Cell Grid isWhitespace)
open TextRange

/-- `as u16`: cut off, and saturated. -/
def asU16 (x : ℚ) : ℕ := min ⌊x⌋₊ 65535

/-! ## The frame -/

/-- The edge of the window that is grabbed to resize it. -/
inductive ResizeDirection
  | northWest
  | northEast
  | southWest
  | southEast
  | north
  | south
  | west
  | east
  deriving DecidableEq

/-- Hit-test the window outline for a resize edge. -/
def resizeEdgeAt (p : Pointer) (winW winH borderPx chromeH : ℚ) (excludedX : List (ℚ × ℚ)) :
    Option ResizeDirection :=
  if p.x < 0 ∨ p.y < 0 ∨ winW ≤ p.x ∨ winH ≤ p.y then none
  else if p.y < chromeH ∧ ∃ r ∈ excludedX, r.1 ≤ p.x ∧ p.x < r.2 then none
  else
    let north := p.y < borderPx
    let south := winH - borderPx ≤ p.y
    let west := p.x < borderPx
    let east := winW - borderPx ≤ p.x
    if north ∧ west then some .northWest
    else if north ∧ east then some .northEast
    else if south ∧ west then some .southWest
    else if south ∧ east then some .southEast
    else if north then some .north
    else if south then some .south
    else if west then some .west
    else if east then some .east
    else none

/-- The window, while there is one. -/
structure OsWindow where
  width : ℚ
  height : ℚ
  scaleFactor : ℚ
  isMaximized : Bool

/-- The configuration of the command blocks. -/
structure BlocksConfig where
  enabled : Bool
  showExitCodeBadge : Bool
  borderWidthPx : ℕ

def BlocksConfig.effectiveBorderWidthPx (cfg : BlocksConfig) : ℕ := max 1 (min cfg.borderWidthPx 8)

/-- What the handlers read: the configuration, the window, the layouts, the focused pane, and what
    lies over the panes. -/
structure MouseFrame where
  cellW : ℚ
  cellH : ℚ
  cellW_pos : 0 < cellW
  cellH_pos : 0 < cellH
  tabBarEnabled : Bool
  hideWhenSingle : Bool
  tabBarHeight : ℕ
  paddingX : ℕ
  paddingY : ℕ
  customTitlebar : Bool
  window : Option OsWindow
  /-- The window buttons in the tab bar. -/
  buttonRects : List (ℚ × ℚ)
  settingsPanelOpen : Bool
  contextMenuOpen : Bool
  blocks : BlocksConfig
  paneLayouts : PaneLayouts
  /-- The focused pane and its layout, which lies within the 16-bit cells of a window. -/
  pane : PaneState
  layout : PaneLayout
  mem : layout ∈ paneLayouts.toList
  fits_cols : layout.colOffset + layout.cols ≤ 65535
  fits_rows : layout.rowOffset + layout.rows ≤ 65535
  shaped : pane.grid.Shaped pane.grid.width pane.grid.height
  /-- There is a connection, and it takes a message. -/
  connected : Bool

namespace MouseFrame

/-- Whether the renderer draws a tab bar; a press goes by it as well. -/
def tabBarVisible (f : MouseFrame) : Bool :=
  f.tabBarEnabled && !(f.hideWhenSingle && f.paneLayouts.toList.length ≤ 1)

def tabBarH (f : MouseFrame) : ℚ := if f.tabBarVisible then f.tabBarHeight else 0

/-- The height of the tab bar for a move and a release. -/
def enabledTabBarH (f : MouseFrame) : ℚ := if f.tabBarEnabled then f.tabBarHeight else 0

/-- The cell of the window under the pointer, below a tab bar. -/
def cellUnder (f : MouseFrame) (tabBarH : ℚ) (p : Pointer) : ℕ × ℕ :=
  (asU16 (p.x / f.cellW), asU16 (max (p.y - tabBarH) 0 / f.cellH))

/-- Resize-edge hit test for the custom title bar. -/
def customTitlebarResizeEdge (f : MouseFrame) (p : Pointer) : Option ResizeDirection :=
  if !f.customTitlebar then none
  else
    match f.window with
    | none => none
    | some w =>
      if w.isMaximized then none
      else resizeEdgeAt p w.width w.height (6 * w.scaleFactor) f.enabledTabBarH f.buttonRects

/-- The first block with the row, up to its end or without one. -/
def blockContainingRow (blocks : List CommandBlock) (absRow : ℕ) : Option CommandBlock :=
  blocks.find? fun b => b.promptRow ≤ absRow && b.endRow.all fun r => absRow ≤ r

/-- Command-block mouse hit-test: whether the click is consumed, by a badge or a left border. -/
def handleBlockMouseClick (f : MouseFrame) (p : Pointer) : Bool :=
  let winW := (f.window.map OsWindow.width).getD 0
  let winH := (f.window.map OsWindow.height).getD 0
  if !f.blocks.enabled ∨ p.y < f.tabBarH ∨ 0 < winH ∧ winH - f.cellH ≤ p.y then false
  else
    let visualRow := ⌊(p.y - f.tabBarH) / f.cellH⌋₊
    let absRow :=
      if 0 < f.pane.scrollOffset then
        resolveClickedScrollbackRow f.pane.blocks f.pane.scrollback.len f.pane.scrollOffset
          visualRow
      else some (f.pane.scrollback.len + visualRow)
    match absRow with
    | none => false
    | some absRow =>
      match blockContainingRow f.pane.blocks absRow with
      | none => false
      | some block =>
        (f.blocks.showExitCodeBadge ∧ 0 < winW ∧ absRow = block.promptRow ∧
            winW - f.cellW * 2 ≤ p.x ∧ p.x < winW) ∨
          p.x < max (f.blocks.effectiveBorderWidthPx : ℚ) 6

/-- What a press of the left button hits. -/
inductive PressTarget
  | outline (direction : ResizeDirection)
  | settingsPanel
  | border (hit : PaneBorderHit)
  | tabBar
  | block
  | cell
  deriving DecidableEq

def pressTarget (f : MouseFrame) (p : Pointer) : PressTarget :=
  match f.customTitlebarResizeEdge p with
  | some direction => .outline direction
  | none =>
    if f.settingsPanelOpen then .settingsPanel
    else
      let originY := f.tabBarH + f.paddingY
      let hit :=
        if originY ≤ p.y then
          hitTestPaneBorder f.paneLayouts p ⟨f.cellW, f.cellH, f.paddingX, originY⟩
        else none
      match hit with
      | some hit => .border hit
      | none =>
        if f.tabBarVisible ∧ p.y < f.tabBarH then .tabBar
        else if f.handleBlockMouseClick p then .block
        else .cell

end MouseFrame

/-! ## The selection -/

namespace MouseSelection

/-- Begin a drag. -/
def begin (cell : ℕ × ℕ) : MouseSelection := ⟨true, cell, cell⟩

/-- Update the end point while dragging. -/
def update (sel : MouseSelection) (cell : ℕ × ℕ) : MouseSelection :=
  if sel.isDragging then { sel with stop := cell } else sel

/-- Finish the drag. -/
def finish (sel : MouseSelection) : MouseSelection := { sel with isDragging := false }

end MouseSelection

/-- The part of a row that is between two positions, both inclusive. -/
def selectedCells (first last : ℕ × ℕ) (row : ℕ) (cells : List Cell) : List Cell :=
  piece (if row = first.2 then first.1 else 0)
    (if row = last.2 then last.1 + 1 else cells.length) cells

/-- A line of text, without the blanks at its end. -/
def lineText (cells : List Cell) : List Char := (cells.map Cell.ch).rdropWhile isWhitespace

/-- The text between two positions, row by row. -/
def rangeText (rows : List (List Cell)) (first last : ℕ × ℕ) : List Char :=
  ['\n'].intercalate
    (lines (fun r cells => lineText (selectedCells first last r cells)) rows first.2
      (last.2 + 1 - first.2))

/-- The text of a selection. -/
def copyText (grid : Grid) (range : (ℕ × ℕ) × ℕ × ℕ) : String :=
  String.ofList (rangeText grid.rows range.1 range.2)

/-! ## The handlers -/

inductive MouseEvent
  | cursorMoved (position : Pointer)
  | leftPressed
  | leftReleased

/-- A mouse event for the program in the pane. -/
structure MouseReport where
  button : ℕ
  /-- Grid column (0-based). -/
  col : ℕ
  /-- Grid row (0-based). -/
  row : ℕ
  /-- Press or release. -/
  pressed : Bool
  motion : Bool
  deriving DecidableEq

/-- What a handler puts on the clipboard and sends. -/
structure MouseOutput where
  copied : Option String
  report : Option MouseReport
  deriving DecidableEq

structure MouseState where
  cursorPosition : Option Pointer
  mouseSel : MouseSelection
  paneResizeDrag : Option PaneBorderHit

namespace MouseState

/-- A report, if there is a connection. -/
def send (f : MouseFrame) (cell : ℕ × ℕ) (pressed motion : Bool) : MouseOutput :=
  ⟨none, if f.connected then some ⟨0, cell.1, cell.2, pressed, motion⟩ else none⟩

/-- Track the cursor position and update the selection while dragging. -/
def onCursorMoved (f : MouseFrame) (s : MouseState) (p : Pointer) : MouseState × MouseOutput :=
  let s := { s with cursorPosition := some p }
  if s.paneResizeDrag.isSome then (s, ⟨none, none⟩)
  else if s.mouseSel.isDragging then
    let cell := f.cellUnder f.enabledTabBarH p
    ({ s with mouseSel := s.mouseSel.update cell }, send f cell true true)
  else (s, ⟨none, none⟩)

/-- A press that hits a cell begins a selection and is reported. -/
def onMouseLeftPressed (f : MouseFrame) (s : MouseState) : MouseState × MouseOutput :=
  match s.cursorPosition with
  | none => (s, ⟨none, none⟩)
  | some p =>
    match f.pressTarget p with
    | .border hit => ({ s with paneResizeDrag := some hit }, ⟨none, none⟩)
    | .cell =>
      let cell := f.cellUnder f.tabBarH p
      ({ s with mouseSel := .begin cell }, send f cell true false)
    | _ => (s, ⟨none, none⟩)

/-- Finalize the selection and copy its text. -/
def onMouseLeftReleased (f : MouseFrame) (s : MouseState) : MouseState × MouseOutput :=
  if s.paneResizeDrag.isSome then ({ s with paneResizeDrag := none }, ⟨none, none⟩)
  else
    match s.cursorPosition with
    | none => (s, ⟨none, none⟩)
    | some p =>
      if f.contextMenuOpen then (s, ⟨none, none⟩)
      else
        let sel := (s.mouseSel.update (f.cellUnder f.enabledTabBarH p)).finish
        let text := match sel.normalized with
          | some range => copyText f.pane.grid range
          | none => ""
        ({ s with mouseSel := sel }, ⟨if text = "" then none else some text, none⟩)

def step (f : MouseFrame) (s : MouseState) : MouseEvent → MouseState × MouseOutput
  | .cursorMoved p => s.onCursorMoved f p
  | .leftPressed => s.onMouseLeftPressed f
  | .leftReleased => s.onMouseLeftReleased f

/-- Some events, each with what there is to read at the time. -/
def run : MouseState → List (MouseFrame × MouseEvent) → MouseState × List MouseOutput
  | s, [] => (s, [])
  | s, (f, e) :: events =>
    let (s, out) := s.step f e
    let (s, outs) := run s events
    (s, out :: outs)

theorem run_append (s : MouseState) (events events' : List (MouseFrame × MouseEvent)) :
    s.run (events ++ events') =
      (((s.run events).1.run events').1, (s.run events).2 ++ ((s.run events).1.run events').2) := by
  induction events generalizing s with
  | nil => rfl
  | cons e events ih =>
    simp only [run, List.cons_append]
    rw [ih]

end MouseState

end Nexterm.Client

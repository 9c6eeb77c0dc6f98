/-
  The pane of the client (`state/pane.rs`, `state/server_message.rs`): its grid, its scrollback,
  its prompt anchors and its command blocks.

  * `fullRefresh`, `applyDiff`, `semanticMark`: what the messages of the server do.  A message that
    makes the client panic answers `none`.
  * `toggleBlockCollapseById`: what the user does to a block.
  * `PaneState.step`: all of these.
-/
import Nexterm.Client.Blocks
import Nexterm.Client.Scrollback
import Nexterm.Vt.Grid

namespace Nexterm.Client

open Nexterm.Vt (Cell DirtyRow Grid)

/-- Pane rendering state. -/
structure PaneState where
  grid : Grid
  cursorCol : ℕ
  cursorRow : ℕ
  scrollback : Scrollback (List Cell)
  /-- Scrollback offset (0 = latest screen). -/
  scrollOffset : ℕ
  /-- The length of the scrollback at the moments prompts arrived. -/
  promptAnchors : List ℕ
  marks : List SemanticMark
  /-- Derived from the marks whenever a new one arrives. -/
  blocks : List CommandBlock
  contentDirty : Bool

/-- What can happen to a pane. -/
inductive PaneOp
  | fullRefresh (grid : Grid)
  | gridDiff (dirtyRows : List DirtyRow) (cursorCol cursorRow : ℕ)
  | semanticMark (kind : String) (exitCode : Option Int32)
  | toggleBlockCollapse (id : ℕ)

namespace PaneState

/-- Cap on retained anchors. -/
def maxPromptAnchors : ℕ := 1024

/-- Soft cap on the mark accumulator. -/
def maxSemanticMarks : ℕ := 8192

def new (cols rows scrollbackCapacity : ℕ) : PaneState where
  grid := .new cols rows
  cursorCol := 0
  cursorRow := 0
  scrollback := .new scrollbackCapacity
  scrollOffset := 0
  promptAnchors := []
  marks := []
  blocks := []
  contentDirty := true

/-- Replace the grid. -/
def fullRefresh (pane : PaneState) (grid : Grid) : PaneState :=
  { pane with
    grid := grid
    cursorCol := grid.cursorCol
    cursorRow := grid.cursorRow
    contentDirty := true }

/-- Replace one row; the row it had is pushed onto the scrollback. -/
def applyDirtyRow (pane : PaneState) (dirty : DirtyRow) : Option PaneState :=
  match pane.grid.rows[dirty.row]? with
  | none => some pane
  | some row => do
    let scrollback ← pane.scrollback.pushLine row
    some { pane with
      scrollback := scrollback
      grid := { pane.grid with rows := pane.grid.rows.set dirty.row dirty.cells } }

def applyDiff (pane : PaneState) (dirtyRows : List DirtyRow) (cursorCol cursorRow : ℕ) :
    Option PaneState := do
  let pane ← dirtyRows.foldlM applyDirtyRow pane
  some { pane with
    cursorCol := cursorCol
    cursorRow := cursorRow
    scrollOffset := 0
    contentDirty := true }

/-- The anchors after a prompt at `absRow`: an anchor that repeats the last one is dropped. -/
def addPromptAnchor (anchors : List ℕ) (absRow : ℕ) : List ℕ :=
  let anchors := if anchors.getLast? ≠ some absRow then anchors ++ [absRow] else anchors
  anchors.drop (anchors.length - maxPromptAnchors)

/-- The accumulator after a mark: past the cap, the oldest quarter is shed. -/
def addMark (marks : List SemanticMark) (m : SemanticMark) : List SemanticMark :=
  let marks := marks ++ [m]
  if marks.length > maxSemanticMarks then marks.drop (maxSemanticMarks / 4) else marks

/-- An OSC 133 mark: anchors and marks record the length of the scrollback, and the blocks are
    extracted again. -/
def semanticMark (paneId : ℕ) (pane : PaneState) (kind : String) (exitCode : Option Int32) :
    PaneState :=
  let absRow := pane.scrollback.len
  let pane := if kind = "A" then
    { pane with promptAnchors := addPromptAnchor pane.promptAnchors absRow } else pane
  match SemanticMarkKind.fromIpc kind with
  | none => pane
  | some parsed =>
    let marks := addMark pane.marks ⟨absRow, parsed, exitCode⟩
    { pane with marks := marks, blocks := extractCommandBlocks paneId marks }

/-- Flip the `collapsed` flag on the first block with the id, once its command has ended. -/
def toggleBlockCollapseById (pane : PaneState) (id : ℕ) : PaneState :=
  match pane.blocks.findIdx? (·.id = id) with
  | none => pane
  | some i =>
    if (pane.blocks[i]?.bind CommandBlock.endRow).isNone then pane
    else
      { pane with
        blocks := pane.blocks.modify i fun b => { b with collapsed := !b.collapsed }
        contentDirty := true }

def step (paneId : ℕ) (pane : PaneState) : PaneOp → Option PaneState
  | .fullRefresh grid => some (pane.fullRefresh grid)
  | .gridDiff dirtyRows cursorCol cursorRow => pane.applyDiff dirtyRows cursorCol cursorRow
  | .semanticMark kind exitCode => some (pane.semanticMark paneId kind exitCode)
  | .toggleBlockCollapse id => some (pane.toggleBlockCollapseById id)

/-- The client after an operation; one that has panicked does nothing any more. -/
def stepOrPanic (paneId : ℕ) (pane : Option PaneState) (op : PaneOp) : Option PaneState :=
  pane.bind (step paneId · op)

end PaneState

end Nexterm.Client

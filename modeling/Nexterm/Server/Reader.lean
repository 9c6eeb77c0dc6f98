/-
  A pane and its PTY reader thread (`pane.rs`): what the reader does with one burst of output.

  * `PtyPane`: the size of the pane, the parser of the reader and the snapshot `latest`.
  * `readBurst`: parse, take the dirty rows, update the snapshot, emit a `GridDiff`.
  * `sizes_run_iff`: what is emitted describes a grid of the size of the pane exactly as long as
    the pane has the size it was spawned with; a resize does not reach the parser.
-/
import Nexterm.Vt.Dirty

namespace Nexterm.Server

open Vt

/-- The contents of a `GridDiff` message. -/
structure GridDiff where
  dirtyRows : List DirtyRow
  cursorCol : ℕ
  cursorRow : ℕ
  deriving DecidableEq, Repr

/-- A PTY pane with its reader thread. -/
structure PtyPane (V : Vte) where
  cols : ℕ
  rows : ℕ
  /-- The parser of the reader thread. -/
  parser : VtParser V
  /-- The snapshot for clients that attach later. -/
  latestGrid : Grid

namespace PtyPane

variable {V : Vte}

/-- Spawns a pane; the reader thread starts with a parser of the same size. -/
def spawn (V : Vte) (cols rows : ℕ) : PtyPane V :=
  ⟨cols, rows, VtParser.new V cols rows, Grid.new cols rows⟩

/-- Resizes the PTY. -/
def resizePty (p : PtyPane V) (cols rows : ℕ) : PtyPane V := { p with cols := cols, rows := rows }

/-- The snapshot after the dirty rows of a burst. -/
def updateLatest (grid : Grid) (dirty : List DirtyRow) (screen : Screen) : Grid :=
  { dirty.foldl Grid.applyDirtyRow grid with
    cursorCol := screen.cursorCol
    cursorRow := screen.cursorRow
    hyperlinks := screen.grid.hyperlinks }

/-- One burst of output; the second part is the `GridDiff` that is broadcast, if any. -/
def readBurst (p : PtyPane V) (bytes : List UInt8) : PtyPane V × Option GridDiff :=
  match (p.parser.advance bytes).takeDirtyRows with
  | ([], parser) => ({ p with parser := parser }, none)
  | (dirty, parser) =>
    ({ p with
        parser := parser
        latestGrid := updateLatest p.latestGrid dirty parser.screen },
      some ⟨dirty, parser.screen.cursorCol, parser.screen.cursorRow⟩)

/-- Build a Full Refresh grid. -/
def makeFullRefresh (p : PtyPane V) : Grid := p.latestGrid

/-- What happens to a pane. -/
inductive Op
  | resizePty (cols rows : ℕ)
  | burst (bytes : List UInt8)

/-- The pane after an operation. -/
def step (p : PtyPane V) : Op → PtyPane V
  | .resizePty cols rows => p.resizePty cols rows
  | .burst bytes => (p.readBurst bytes).1

/-- What a burst emits describes a grid of the size of the pane: the rows of its diff, and the
    full refresh after it. -/
def SizesOk (p : PtyPane V) : Op → Prop
  | .resizePty _ _ => True
  | .burst bytes =>
    (∀ diff, (p.readBurst bytes).2 = some diff →
      ∀ dirty ∈ diff.dirtyRows, dirty.row < p.rows ∧ dirty.cells.length = p.cols) ∧
    (p.readBurst bytes).1.makeFullRefresh.Shaped p.cols p.rows

/-- A burst is read while the pane has the given size. -/
def ReadAt (cols rows : ℕ) (p : PtyPane V) : Op → Prop
  | .resizePty _ _ => True
  | .burst _ => p.cols = cols ∧ p.rows = rows

/-! ## The size of the parser -/

/-- The parser and the snapshot have the size of the spawn. -/
structure Fixed (cols rows : ℕ) (p : PtyPane V) : Prop where
  parser : p.parser.screen.Shaped cols rows
  latestGrid : p.latestGrid.Shaped cols rows

variable {cols rows : ℕ} {p : PtyPane V}

theorem fixed_spawn (V : Vte) (cols rows : ℕ) : (spawn V cols rows).Fixed cols rows :=
  ⟨Screen.shaped_new cols rows, Grid.shaped_new cols rows⟩

theorem shaped_foldl_applyDirtyRow : ∀ (dirty : List DirtyRow) {g : Grid}, g.Shaped cols rows →
    (dirty.foldl Grid.applyDirtyRow g).Shaped cols rows
  | [], _, hg => hg
  | d :: dirty, _, hg => shaped_foldl_applyDirtyRow dirty (hg.applyDirtyRow d)

/-- Every dirty row of a screen lies inside it and is complete. -/
theorem size_takeDirtyRows {s : Screen} (hs : s.Shaped cols rows) :
    ∀ dirty ∈ s.takeDirtyRows.1, dirty.row < rows ∧ dirty.cells.length = cols := by
  intro dirty hdirty
  unfold Screen.takeDirtyRows at hdirty
  split_ifs at hdirty
  · cases hdirty
  · obtain ⟨row, hrow, hsome⟩ := List.mem_filterMap.1 hdirty
    have hlt : row < rows := hs.dirty ▸ List.mem_range.1 hrow
    split_ifs at hsome
    obtain rfl := Option.some.inj hsome
    have hlt' : row < s.grid.rows.length := hs.grid.length_rows ▸ hlt
    refine ⟨hlt, hs.grid.length_row _ ?_⟩
    rw [List.getD_eq_getElem?_getD, List.getElem?_eq_getElem hlt', Option.getD_some]
    exact List.getElem_mem hlt'

theorem readBurst_spec (h : p.Fixed cols rows) (bytes : List UInt8) :
    (p.readBurst bytes).1.Fixed cols rows ∧ ∀ diff, (p.readBurst bytes).2 = some diff →
      ∀ dirty ∈ diff.dirtyRows, dirty.row < rows ∧ dirty.cells.length = cols := by
  have hparser := (VtParser.kept_advance bytes h.parser).shaped
  have htaken : (p.parser.advance bytes).takeDirtyRows.2.screen.Shaped cols rows :=
    Screen.shaped_takeDirtyRows hparser
  have hsize : ∀ dirty ∈ (p.parser.advance bytes).takeDirtyRows.1,
      dirty.row < rows ∧ dirty.cells.length = cols := size_takeDirtyRows hparser
  unfold readBurst
  generalize (p.parser.advance bytes).takeDirtyRows = taken at htaken hsize ⊢
  obtain ⟨dirty, parser⟩ := taken
  cases dirty with
  | nil =>
    refine ⟨⟨htaken, h.latestGrid⟩, ?_⟩
    intro diff hdiff
    cases hdiff
  | cons d dirty =>
    have hg := shaped_foldl_applyDirtyRow (d :: dirty) h.latestGrid
    refine ⟨⟨htaken, hg.width_eq, hg.height_eq, hg.length_rows, hg.length_row⟩, ?_⟩
    intro diff hdiff
    obtain rfl := Option.some.inj hdiff
    exact hsize

theorem Fixed.step (h : p.Fixed cols rows) (op : Op) : (p.step op).Fixed cols rows := by
  cases op with
  | resizePty newCols newRows => exact ⟨h.parser, h.latestGrid⟩
  | burst bytes => exact (readBurst_spec h bytes).1

theorem sizesOk_iff (h : p.Fixed cols rows) (op : Op) : p.SizesOk op ↔ p.ReadAt cols rows op := by
  cases op with
  | resizePty newCols newRows => exact Iff.rfl
  | burst bytes =>
    obtain ⟨hfixed, hdiff⟩ := readBurst_spec h bytes
    constructor
    · rintro ⟨-, hrefresh⟩
      exact ⟨hrefresh.width_eq.symm.trans hfixed.latestGrid.width_eq,
        hrefresh.height_eq.symm.trans hfixed.latestGrid.height_eq⟩
    · rintro ⟨rfl, rfl⟩
      exact ⟨hdiff, hfixed.latestGrid⟩

/-- **Sizes over runs.**  Every burst of a run emits rows and a full refresh of the size of the
    pane exactly if every burst is read while the pane has the size it was spawned with. -/
theorem sizes_run_iff (V : Vte) (cols rows : ℕ) (ops : List Op) :
    Runs.Along step SizesOk (spawn V cols rows) ops ↔
      Runs.Along step (ReadAt cols rows) (spawn V cols rows) ops :=
  Runs.along_congr (fun _ op h => h.step op) (fun _ op h => sizesOk_iff h op)
    (fixed_spawn V cols rows)

/-- A pane that is resized before its first output. -/
theorem resize_ignored : ¬Runs.Along step SizesOk (spawn plainVte 80 24)
    [.resizePty 100 30, .burst [0x61]] := by
  rintro ⟨-, ⟨-, hrefresh⟩, -⟩
  exact absurd hrefresh.width_eq (by decide +kernel)

end PtyPane

end Nexterm.Server

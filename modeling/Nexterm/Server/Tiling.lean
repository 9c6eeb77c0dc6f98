/-
  The tiling layout (`window/tiling.rs`) and the rectangles of floating panes
  (`window/floating.rs`).
-/
import Mathlib.Data.List.Sort
import Nexterm.Server.Bsp

namespace Nexterm.Server

/-! ## Tiling -/

/-- `ceil(sqrt(n))` -/
def ceilSqrt (n : ℕ) : ℕ := ((List.range (n + 1)).find? fun k => n ≤ k * k).getD 0

/-- One cell of the tiling grid. -/
structure TilingSlot where
  colOff : ℕ
  rowOff : ℕ
  cols : ℕ
  rows : ℕ
  deriving DecidableEq, Repr

/-- The slots of the column `colIdx`, from top to bottom. -/
def tilingColumn (n ncols totalCols totalRows colIdx : ℕ) : List TilingSlot :=
  let base := n / ncols
  let extra := n % ncols
  let countInCol := base + if colIdx < extra then 1 else 0
  let colOff := colIdx * totalCols / ncols
  let nextColOff := (colIdx + 1) * totalCols / ncols
  (List.range countInCol).map fun rowIdx =>
    let rowOff := rowIdx * totalRows / countInCol
    let nextRowOff := (rowIdx + 1) * totalRows / countInCol
    ⟨colOff, rowOff, max (nextColOff - colOff) 1, max (nextRowOff - rowOff) 1⟩

/-- Arrange the panes into an even grid, column by column. -/
def computeTilingLayouts (paneIds : List ℕ) (totalCols totalRows : ℕ) : List PaneRect :=
  match paneIds with
  | [] => []
  | [id] => [⟨id, 0, 0, totalCols, totalRows⟩]
  | paneIds =>
    let n := paneIds.length
    let ncols := min (max (ceilSqrt n) 1) n
    let slots := (List.range ncols).flatMap (tilingColumn n ncols totalCols totalRows)
    paneIds.zipWith (fun id s => ⟨id, s.colOff, s.rowOff, s.cols, s.rows⟩) slots

/-! ## Floating panes -/

/-- Rectangle information for a floating pane. -/
structure FloatRect where
  colOff : ℕ
  rowOff : ℕ
  cols : ℕ
  rows : ℕ
  deriving DecidableEq, Repr

namespace FloatRect

def minCols : ℕ := 10

def minRows : ℕ := 5

/-- Clamp the rectangle so that it stays inside a `totalCols × totalRows` window. -/
def clampTo (r : FloatRect) (totalCols totalRows : ℕ) : FloatRect :=
  let cols := max minCols (min (max totalCols minCols) r.cols)
  let rows := max minRows (min (max totalRows minRows) r.rows)
  ⟨min (totalCols - cols) r.colOff, min (totalRows - rows) r.rowOff, cols, rows⟩

end FloatRect

end Nexterm.Server

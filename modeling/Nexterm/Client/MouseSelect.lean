/-
  Selecting text with the mouse: the cells that are highlighted and the text that is copied
  (`renderer/event_handler/mouse.rs`, `renderer/grid_verts.rs`).

  * `MouseFrame.Highlights`: the renderer draws the selection over a cell; `drawnRows`, `InCell`:
    the cells of the focused pane as they are drawn.
  * `Drag`: a press in one cell, moves, and a release in another one.
  * `Faithful`: the cells between the two are highlighted, and their text is copied.
  * `Aligned`: the condition under which they are; `faithful_iff`: it is exact.
  * `aligned_of_unshifted`: it holds in a pane whose corner is that of the window below the tab
    bar.
-/
import Nexterm.Client.Mouse
import Nexterm.Client.Scroll

namespace Nexterm.Client

open Nexterm.Vt (Cell Grid isWhitespace)
open TextRange

/-! ## What is drawn -/

/-- A renderer of the selection alone: a quad is a cell, and whether it is in its colour. -/
def selectionMarks : Rasterizer (Option (ℕ × ℕ)) Bool Unit Unit where
  cellRect _ col row := some (col, row)
  glyphRect _ _ _ _ := none
  cursorRect _ _ := none
  rgb _ := false
  resolveColor _ _ _ := false
  transformCell _ _ _ _ := false
  selectionColor _ := true
  cursorColor _ _ := false
  isWide _ := false
  rasterizeChar _ _ _ _ _ _ := (0, 0)

namespace MouseFrame

/-- The focused pane, with a selection. -/
def view (f : MouseFrame) (sel : MouseSelection) : View where
  colOffset := f.layout.colOffset
  rowOffset := f.layout.rowOffset
  cols := f.layout.cols
  rows := f.layout.rows
  swBits := 0
  shBits := 0
  cellWBits := 0
  cellHBits := 0
  gridOffsetYBits := 0
  isFocused := true
  cursorStyle := .block
  cursorVisible := false
  mouseSel := sel

/-- The selection is drawn over a cell of the focused pane; a scrolled pane has no selection. -/
def Highlights (f : MouseFrame) (sel : MouseSelection) (cell : ℕ × ℕ) : Prop :=
  f.pane.scrollOffset = 0 ∧ ((some cell, true), none) ∈
    selectionMarks.buildGridVertsInRect f.pane.grid ⟨none, none, []⟩ (f.view sel) () ()

/-- The columns and rows of the live screen that are drawn. -/
def drawnCols (f : MouseFrame) : ℕ := min f.layout.cols f.pane.grid.width

def drawnHeight (f : MouseFrame) : ℕ := min f.layout.rows f.pane.grid.height

/-- The rows of the focused pane as they are drawn: of its scrollback, if it has been scrolled. -/
def drawnRows (f : MouseFrame) : List (List Cell) :=
  if f.pane.scrollOffset = 0 then
    (f.pane.grid.rows.take f.drawnHeight).map (·.take f.drawnCols)
  else
    ((f.pane.drawnRows f.layout.rows).getD []).filterMap fun r =>
      (f.pane.scrollback.get r).join.map (·.take f.layout.cols)

def Drawn (f : MouseFrame) (cell : ℕ × ℕ) : Prop :=
  ∃ row, f.drawnRows[cell.2]? = some row ∧ cell.1 < row.length

/-- The pointer is over a cell of the focused pane. -/
structure InCell (f : MouseFrame) (cell : ℕ × ℕ) (p : Pointer) : Prop where
  left : f.layout.colOffset * f.cellW + cell.1 * f.cellW ≤ p.x
  right : p.x < f.layout.colOffset * f.cellW + cell.1 * f.cellW + f.cellW
  top : f.layout.rowOffset * f.cellH + (f.tabBarH + f.paddingY) + cell.2 * f.cellH ≤ p.y
  bottom : p.y <
    f.layout.rowOffset * f.cellH + (f.tabBarH + f.paddingY) + cell.2 * f.cellH + f.cellH

end MouseFrame

/-! ## Drags -/

/-- A press in a cell, which begins a selection, some moves, and a release in another cell; a press
    and a release in one cell are a click. -/
structure Drag where
  frame : MouseFrame
  before : MouseState
  start : ℕ × ℕ
  stop : ℕ × ℕ
  ne : start ≠ stop
  start_drawn : frame.Drawn start
  stop_drawn : frame.Drawn stop
  press : Pointer
  press_in : frame.InCell start press
  moves : List Pointer
  release : Pointer
  release_in : frame.InCell stop release
  /-- Nothing else takes the press, and nothing the release. -/
  hits : frame.pressTarget press = .cell
  idle : before.paneResizeDrag = none
  closed : frame.contextMenuOpen = false

namespace Drag

/-- The smaller of the two cells, in reading order, -/
def first (d : Drag) : ℕ × ℕ := earlier d.start d.stop

/-- and the larger one. -/
def last (d : Drag) : ℕ × ℕ := later d.start d.stop

def events (d : Drag) : List MouseEvent :=
  [.cursorMoved d.press, .leftPressed] ++ d.moves.map .cursorMoved ++
    [.cursorMoved d.release, .leftReleased]

def outcome (d : Drag) : MouseState × List MouseOutput :=
  d.before.run (d.events.map fun e => (d.frame, e))

/-- The texts that are put on the clipboard. -/
def copies (d : Drag) : List String := d.outcome.2.filterMap MouseOutput.copied

/-- The text that is drawn in the cells from the smaller to the larger one. -/
def drawnText (d : Drag) : String := String.ofList (rangeText d.frame.drawnRows d.first d.last)

/-- The cells between the two are highlighted, and what is drawn in them is copied, unless it is
    blank. -/
structure Faithful (d : Drag) : Prop where
  highlights : ∀ cell, d.frame.Highlights d.outcome.1.mouseSel cell ↔
    d.frame.Drawn cell ∧ Reads d.first cell ∧ Reads cell d.last
  copies : d.copies = if d.drawnText = "" then [] else [d.drawnText]

/-- The cells of the window under the press and under the release: pixels are counted from the left
    edge of the window and from a tab bar. -/
def windowStart (d : Drag) : ℕ × ℕ := d.frame.cellUnder d.frame.tabBarH d.press

def windowStop (d : Drag) : ℕ × ℕ := d.frame.cellUnder d.frame.enabledTabBarH d.release

/-- The larger one of the two. -/
def windowLast (d : Drag) : ℕ × ℕ := later d.windowStart d.windowStop

/-- The pane is not scrolled; the smaller cell of the window is that of the pane, and so is the
    larger one, or it is to the right of a cell of the last drawn column, in its row or below the
    grid; and the cells of the grid to the right of the drawn ones are blank. -/
structure Aligned (d : Drag) : Prop where
  live : d.frame.pane.scrollOffset = 0
  first : earlier d.windowStart d.windowStop = d.first
  last : d.windowLast = d.last ∨ d.last.1 + 1 = d.frame.drawnCols ∧ Reads d.last d.windowLast ∧
    (d.windowLast.2 = d.last.2 ∨ d.frame.pane.grid.height ≤ d.last.2 + 1)
  blank : ∀ p : ℕ × ℕ, d.first.2 ≤ p.2 → p.2 ≤ d.last.2 → d.frame.drawnCols ≤ p.1 →
    Reads p d.windowLast → ∀ row cell, d.frame.pane.grid.rows[p.2]? = some row →
    row[p.1]? = some cell → isWhitespace cell.ch = true

end Drag

/-! ## The selection -/

namespace MouseSelection

theorem normalized_eq (sel : MouseSelection) : sel.normalized =
    if sel.start = sel.stop then none
    else some (earlier sel.start sel.stop, later sel.start sel.stop) := by
  have hbefore : before sel.start sel.stop = decide (Reads sel.start sel.stop) := by
    rw [Bool.eq_iff_iff]
    simp only [before, Bool.or_eq_true, Bool.and_eq_true, decide_eq_true_eq]
    rfl
  unfold normalized earlier later
  rw [hbefore]
  split_ifs <;> simp_all

theorem contains_iff {sel : MouseSelection} {cell : ℕ × ℕ} :
    sel.contains cell.1 cell.2 = true ↔ sel.start ≠ sel.stop ∧
      Reads (earlier sel.start sel.stop) cell ∧ Reads cell (later sel.start sel.stop) := by
  unfold contains
  rw [normalized_eq]
  by_cases hne : sel.start = sel.stop
  · simp [hne]
  · have hle := earlier_reads_later sel.start sel.stop
    rw [if_neg hne, and_iff_right hne]
    generalize earlier sel.start sel.stop = first at hle ⊢
    generalize later sel.start sel.stop = last at hle ⊢
    obtain ⟨sc, sr⟩ := first
    obtain ⟨ec, er⟩ := last
    dsimp only
    unfold Reads at hle ⊢
    dsimp only at hle ⊢
    split_ifs <;> simp only [Bool.and_eq_true, decide_eq_true_eq, true_iff, false_iff] <;> omega

end MouseSelection

namespace MouseState

/-- Moves in the middle of a drag change its end. -/
theorem run_moves (f : MouseFrame) (moves : List Pointer) (s : MouseState)
    (hresize : s.paneResizeDrag = none) (hdrag : s.mouseSel.isDragging = true) :
    let r := s.run ((moves.map MouseEvent.cursorMoved).map fun e => (f, e))
    r.1.paneResizeDrag = none ∧ r.1.mouseSel.isDragging = true ∧
      r.1.mouseSel.start = s.mouseSel.start ∧ r.2.filterMap MouseOutput.copied = [] := by
  induction moves generalizing s with
  | nil => exact ⟨hresize, hdrag, rfl, rfl⟩
  | cons p moves ih =>
    have hstep : s.onCursorMoved f p =
        ({ s with cursorPosition := some p,
                  mouseSel := ⟨true, s.mouseSel.start, f.cellUnder f.enabledTabBarH p⟩ },
          send f (f.cellUnder f.enabledTabBarH p) true true) := by
      simp [onCursorMoved, hresize, hdrag, MouseSelection.update]
    simp only [List.map_cons, run, step, hstep]
    exact ih _ hresize rfl

/-- A press at a cell begins a drag. -/
theorem run_press {f : MouseFrame} {s : MouseState} {p : Pointer}
    (hresize : s.paneResizeDrag = none) (hits : f.pressTarget p = .cell) :
    let r := s.run [(f, .cursorMoved p), (f, .leftPressed)]
    r.1 = ⟨some p, .begin (f.cellUnder f.tabBarH p), none⟩ ∧
      r.2.filterMap MouseOutput.copied = [] := by
  cases hdrag : s.mouseSel.isDragging <;>
    simp [run, step, onCursorMoved, onMouseLeftPressed, hresize, hits, hdrag, send]

/-- A release ends a drag and copies what has been selected. -/
theorem run_release {f : MouseFrame} {s : MouseState} (p : Pointer)
    (hresize : s.paneResizeDrag = none) (hdrag : s.mouseSel.isDragging = true)
    (hclosed : f.contextMenuOpen = false) :
    let r := s.run [(f, .cursorMoved p), (f, .leftReleased)]
    let stop := f.cellUnder f.enabledTabBarH p
    r.1.mouseSel = ⟨false, s.mouseSel.start, stop⟩ ∧
      r.2.filterMap MouseOutput.copied =
        let text := if s.mouseSel.start = stop then "" else
          copyText f.pane.grid (earlier s.mouseSel.start stop, later s.mouseSel.start stop)
        if text = "" then [] else [text] := by
  simp only [run, step, onCursorMoved, onMouseLeftReleased, hresize, hdrag, hclosed, send,
    MouseSelection.update, MouseSelection.finish, MouseSelection.normalized_eq, Option.isSome_none,
    Bool.false_eq_true, if_false, if_true]
  split_ifs <;> simp_all

end MouseState

namespace Drag

variable (d : Drag)

/-- The text of the cells between those of the window under the press and the release. -/
def windowText : String :=
  if d.windowStart = d.windowStop then ""
  else copyText d.frame.pane.grid (earlier d.windowStart d.windowStop, d.windowLast)

theorem outcome_eq : d.outcome.1.mouseSel = ⟨false, d.windowStart, d.windowStop⟩ ∧
    d.copies = if d.windowText = "" then [] else [d.windowText] := by
  obtain ⟨hpressed, hpress⟩ := MouseState.run_press d.idle d.hits
  obtain ⟨hresize, hdrag, hstart, hmoves⟩ := MouseState.run_moves d.frame d.moves
    ⟨some d.press, .begin (d.frame.cellUnder d.frame.tabBarH d.press), none⟩ rfl rfl
  obtain ⟨hsel, hrelease⟩ := MouseState.run_release d.release hresize hdrag d.closed
  rw [hstart] at hsel hrelease
  unfold copies outcome events
  rw [List.map_append, List.map_append, MouseState.run_append, MouseState.run_append]
  simp only [List.map_cons, List.map_nil, List.filterMap_append]
  rw [hpressed, hpress, hmoves]
  exact ⟨hsel, hrelease⟩

end Drag

/-! ## The text -/

section

variable {rows : List (List Cell)} {cols height width : ℕ} {first last first' last' : ℕ × ℕ}

/-- A drawn row and its row of the grid. -/
theorem drawn_row (hwidth : ∀ row ∈ rows, row.length = width) (hheight : height ≤ rows.length)
    {r : ℕ} (hr : r < height) : ∃ row, rows[r]? = some row ∧ row.length = width ∧
      ((rows.take height).map (·.take cols))[r]? = some (row.take cols) := by
  have hlt : r < rows.length := by omega
  refine ⟨rows[r], List.getElem?_eq_getElem hlt, hwidth _ (List.getElem_mem hlt), ?_⟩
  rw [List.getElem?_map, List.getElem?_take, if_pos hr, List.getElem?_eq_getElem hlt]
  rfl

/-- A range that goes beyond one of cells that are drawn, to the left or to the right of them. -/
structure Extends (cols height : ℕ) (first last first' last' : ℕ × ℕ) : Prop where
  first_lt : first.1 < cols
  last_lt : last.1 < cols
  le : Reads first last
  start : first' = first ∨ first.1 = 0 ∧ first'.2 + 1 = first.2 ∧ cols ≤ first'.1
  stop : last' = last ∨ last.1 + 1 = cols ∧ Reads last last' ∧
    (last'.2 = last.2 ∨ height ≤ last.2 + 1)

namespace Extends

variable (h : Extends cols height first last first' last')

include h

theorem start_row_le : first'.2 ≤ first.2 := by
  rcases h.start with hstart | ⟨-, hrow, -⟩
  · rw [hstart]
  · omega

theorem stop_row_le : last.2 ≤ last'.2 := by
  rcases h.stop with hstop | ⟨-, hreads, -⟩
  · rw [hstop]
  · exact hreads.row_le

/-- The cells of a row that the longer range has, from those that are drawn. -/
theorem selectedCells_eq {r : ℕ} (hr : first.2 ≤ r) (hr' : r ≤ last.2) {row : List Cell}
    (hrow : row.length = width) (hcols : cols ≤ width) :
    selectedCells first' last' r row = selectedCells first last r (row.take cols) ++
      piece (if r = last.2 then last.1 + 1 else cols) (if r = last'.2 then last'.1 + 1 else width)
        row := by
  have hstart : (if r = first'.2 then first'.1 else 0) = if r = first.2 then first.1 else 0 := by
    rcases h.start with heq | ⟨hzero, hprev, -⟩
    · rw [heq]
    · rw [if_neg (by omega), hzero, ite_self]
  have hlen : (row.take cols).length = cols := by
    rw [List.length_take, hrow, min_eq_left hcols]
  have hle := h.le
  have hlast := h.last_lt
  have hfirst := h.first_lt
  have hstop : (if r = last.2 then last.1 + 1 else cols) ≤ cols := by
    split_ifs
    · exact hlast
    · exact le_rfl
  have hlt : (if r = first.2 then first.1 else 0) ≤ if r = last.2 then last.1 + 1 else cols := by
    unfold Reads at hle
    split_ifs <;> omega
  have hgrown : (if r = last.2 then last.1 + 1 else cols) ≤
      if r = last'.2 then last'.1 + 1 else width := by
    rcases h.stop with heq | ⟨hedge, hreads, -⟩
    · rw [heq]
      split_ifs
      · exact le_rfl
      · exact hcols
    · unfold Reads at hreads
      split_ifs <;> omega
  rw [selectedCells, selectedCells, hstart, hrow, hlen, piece_append hlt hgrown, piece_take hstop]

/-- A line of the longer range is that of the drawn cells exactly if the cells to the right of these
    are blank, as far as the range goes. -/
theorem lineText_eq_iff {r : ℕ} (hr : first.2 ≤ r) (hr' : r ≤ last.2) {row : List Cell}
    (hrow : row.length = width) (hcols : cols ≤ width) :
    lineText (selectedCells first last r (row.take cols)) =
        lineText (selectedCells first' last' r row) ↔
      ∀ c cell, cols ≤ c → Reads (c, r) last' → row[c]? = some cell →
        isWhitespace cell.ch = true := by
  rw [h.selectedCells_eq hr hr' hrow hcols, lineText, lineText, List.map_append,
    trimmed_append_iff, List.forall_mem_map]
  simp only [mem_piece]
  have hlast := h.last_lt
  constructor
  · intro hblank c cell hc hreads hcell
    have hlt : c < width := by
      rw [← hrow]
      exact (List.getElem?_eq_some_iff.1 hcell).1
    refine hblank cell ⟨c, ?_, ?_, hcell⟩
    · split_ifs <;> omega
    · unfold Reads at hreads
      dsimp only at hreads
      split_ifs <;> omega
  · rintro hblank cell ⟨c, hstart, hstop, hcell⟩
    have hle := h.stop_row_le
    refine hblank c cell ?_ ?_ hcell
    · rcases h.stop with heq | ⟨hedge, -, -⟩
      · rw [heq] at hstop
        split_ifs at hstart hstop <;> omega
      · split_ifs at hstart <;> omega
    · unfold Reads
      dsimp only
      split_ifs at hstop <;> omega

theorem length_lineText_le {r : ℕ} (hr : first.2 ≤ r) (hr' : r ≤ last.2) {row : List Cell}
    (hrow : row.length = width) (hcols : cols ≤ width) :
    (lineText (selectedCells first last r (row.take cols))).length ≤
      (lineText (selectedCells first' last' r row)).length := by
  rw [h.selectedCells_eq hr hr' hrow hcols, lineText, lineText, List.map_append]
  exact length_trimmed_le _ _

/-- The text of the longer range is that of the drawn cells if and only if it begins in the same
    row, ends in the same row or in the last one of the grid, and all that it has besides the drawn
    cells is blank. -/
theorem rangeText_eq_iff (hwidth : ∀ row ∈ rows, row.length = width) (hcols : cols ≤ width)
    (hheight : height ≤ rows.length) (hlast : last.2 < height) :
    rangeText rows first' last' =
        rangeText ((rows.take height).map (·.take cols)) first last ↔
      first' = first ∧ (last'.2 = last.2 ∨ rows.length ≤ last.2 + 1) ∧
        ∀ p : ℕ × ℕ, first.2 ≤ p.2 → p.2 ≤ last.2 → cols ≤ p.1 → Reads p last' →
          ∀ row cell, rows[p.2]? = some row → row[p.1]? = some cell →
            isWhitespace cell.ch = true := by
  have hstart := h.start_row_le
  have hstop := h.stop_row_le
  have hle := h.le.row_le
  have hdrawn : ((rows.take height).map (·.take cols)).length = height := by simp [hheight]
  have hmem : ∀ r ∈ List.range' first.2 (last.2 + 1 - first.2), first.2 ≤ r ∧ r ≤ last.2 ∧
      ∃ row, rows[r]? = some row ∧ row.length = width ∧
        ((rows.take height).map (·.take cols))[r]? = some (row.take cols) := by
    intro r hr
    rw [List.mem_range'_1] at hr
    exact ⟨hr.1, by omega, drawn_row hwidth hheight (by omega)⟩
  -- The rows of the longer range: some before, those of the shorter one, and some after.
  have hcount : last'.2 + 1 - first'.2 =
      first.2 - first'.2 + (last.2 + 1 - first.2) + (last'.2 - last.2) := by omega
  have hfrom : first'.2 + (first.2 - first'.2) = first.2 := by omega
  rw [rangeText, rangeText, hcount, lines_append, lines_append, hfrom,
    @lines_eq_map _ _ _ _ first.2 _ (by omega) [],
    @lines_eq_map _ _ _ ((rows.take height).map _) _ _ (by omega) [],
    join_eq_iff '\n' (by simp; omega) ?_, lines_eq_nil_iff, lines_eq_nil_iff]
  · constructor
    · rintro ⟨hlines, hbefore, hafter⟩
      refine ⟨?_, by omega, ?_⟩
      · rcases h.start with heq | ⟨-, hprev, -⟩
        · exact heq
        · omega
      · intro p hp hp' hc hreads row cell hrow hcell
        have hr : p.2 ∈ List.range' first.2 (last.2 + 1 - first.2) :=
          List.mem_range'_1.2 ⟨hp, by omega⟩
        obtain ⟨-, -, row', hrow', hlen, htake⟩ := hmem p.2 hr
        obtain rfl : row' = row := Option.some.inj (hrow'.symm.trans hrow)
        have hline := hlines p.2 hr
        rw [hrow, htake] at hline
        exact (h.lineText_eq_iff hp hp' hlen hcols).1 hline p.1 cell hc hreads hcell
    · rintro ⟨hfirst, hafter, hblank⟩
      refine ⟨fun r hr => ?_, .inl (by rw [hfirst, Nat.sub_self]), by omega⟩
      obtain ⟨hr, hr', row, hrow, hlen, htake⟩ := hmem r hr
      rw [hrow, htake]
      exact (h.lineText_eq_iff hr hr' hlen hcols).2 fun c cell hc hreads hcell =>
        hblank (c, r) hr hr' hc hreads row cell hrow hcell
  · intro r hr
    obtain ⟨hr, hr', row, hrow, hlen, htake⟩ := hmem r hr
    rw [hrow, htake]
    exact h.length_lineText_le hr hr' hlen hcols

end Extends

end

/-! ## The cells -/

namespace MouseFrame

variable {f : MouseFrame} {cell : ℕ × ℕ}

theorem drawnHeight_le (f : MouseFrame) : f.drawnHeight ≤ f.pane.grid.rows.length := by
  rw [f.shaped.length_rows]
  exact min_le_right _ _

theorem drawnRows_live (hlive : f.pane.scrollOffset = 0) : f.drawnRows =
    (f.pane.grid.rows.take f.drawnHeight).map (·.take f.drawnCols) := if_pos hlive

theorem drawn_iff (hlive : f.pane.scrollOffset = 0) :
    f.Drawn cell ↔ cell.1 < f.drawnCols ∧ cell.2 < f.drawnHeight := by
  have hheight := f.drawnHeight_le
  have hwidth : f.drawnCols ≤ f.pane.grid.width := min_le_right _ _
  unfold Drawn
  rw [drawnRows_live hlive]
  constructor
  · rintro ⟨row, hrow, hlt⟩
    rw [List.getElem?_map, List.getElem?_take] at hrow
    split_ifs at hrow with hheight'
    · obtain ⟨row', -, rfl⟩ := Option.map_eq_some_iff.1 hrow
      exact ⟨hlt.trans_le (List.length_take_le _ _), hheight'⟩
    · cases hrow
  · rintro ⟨hcol, hrow⟩
    have hlt : cell.2 < f.pane.grid.rows.length := by omega
    have hlen := f.shaped.length_row _ (List.getElem_mem hlt)
    refine ⟨f.pane.grid.rows[cell.2].take f.drawnCols, ?_, ?_⟩
    · rw [List.getElem?_map, List.getElem?_take, if_pos hrow, List.getElem?_eq_getElem hlt]
      rfl
    · rw [List.length_take, hlen]
      omega

theorem highlights_iff {sel : MouseSelection} (hlive : f.pane.scrollOffset = 0) :
    f.Highlights sel cell ↔
      (cell.1 < f.drawnCols ∧ cell.2 < f.drawnHeight) ∧ sel.contains cell.1 cell.2 = true := by
  have hheight := f.drawnHeight_le
  have hcell : ∀ row col c, ((some cell, true), none) ∈
      selectionMarks.cellQuads none (f.view sel) () () row col c ↔
        cell = (col, row) ∧ sel.contains col row = true := by
    intro row col c
    simp only [Rasterizer.cellQuads, Rasterizer.glyphQuads, selectionMarks, view]
    split_ifs <;> simp_all
  have hcursor : ((some cell, true), none) ∉ selectionMarks.cursorQuads (f.view sel) () () := by
    simp [Rasterizer.cursorQuads, view]
  unfold Highlights Rasterizer.buildGridVertsInRect
  rw [and_iff_right hlive]
  simp only [List.mem_append, List.mem_flatMap, List.mem_range]
  constructor
  · rintro (⟨row, hrow, col, hcol, hquad⟩ | hquad)
    · cases hget : f.pane.grid.rows[row]?.bind (·[col]?) with
      | none =>
        rw [hget] at hquad
        cases hquad
      | some c =>
        rw [hget] at hquad
        obtain ⟨rfl, hsel⟩ := (hcell row col c).1 hquad
        exact ⟨⟨hcol, hrow⟩, hsel⟩
    · exact (hcursor hquad).elim
  · rintro ⟨⟨hcol, hrow⟩, hsel⟩
    refine .inl ⟨cell.2, hrow, cell.1, hcol, ?_⟩
    have hlt : cell.2 < f.pane.grid.rows.length := by omega
    have hlen := f.shaped.length_row _ (List.getElem_mem hlt)
    have hlt' : cell.1 < f.pane.grid.rows[cell.2].length := by
      rw [hlen]
      exact hcol.trans_le (min_le_right _ _)
    rw [List.getElem?_eq_getElem hlt, Option.bind_some, List.getElem?_eq_getElem hlt']
    exact (hcell cell.2 cell.1 _).2 ⟨rfl, hsel⟩

end MouseFrame

/-! ## The condition -/

namespace Drag

variable (d : Drag)

theorem first_reads_last : Reads d.first d.last := earlier_reads_later _ _

theorem first_ne_last : d.first ≠ d.last := by
  have hne := d.ne
  rcases earlier_later_cases d.start d.stop with ⟨hfirst, hlast⟩ | ⟨hfirst, hlast⟩
  · rwa [first, last, hfirst, hlast]
  · rw [first, last, hfirst, hlast]
    exact hne.symm

theorem first_drawn : d.frame.Drawn d.first := by
  rcases earlier_later_cases d.start d.stop with ⟨hfirst, -⟩ | ⟨hfirst, -⟩
  · rw [first, hfirst]
    exact d.start_drawn
  · rw [first, hfirst]
    exact d.stop_drawn

theorem last_drawn : d.frame.Drawn d.last := by
  rcases earlier_later_cases d.start d.stop with ⟨-, hlast⟩ | ⟨-, hlast⟩
  · rw [last, hlast]
    exact d.stop_drawn
  · rw [last, hlast]
    exact d.start_drawn

/-- The cells of the window differ, and their range has the drawn cells of the drag and no other
    ones. -/
theorem highlights_window_iff (hlive : d.frame.pane.scrollOffset = 0) :
    (∀ cell, d.frame.Highlights d.outcome.1.mouseSel cell ↔
      d.frame.Drawn cell ∧ Reads d.first cell ∧ Reads cell d.last) ↔
    d.windowStart ≠ d.windowStop ∧
      Extends d.frame.drawnCols d.frame.drawnHeight d.first d.last
        (earlier d.windowStart d.windowStop) d.windowLast := by
  have hfirst := (MouseFrame.drawn_iff hlive).1 d.first_drawn
  have hlast := (MouseFrame.drawn_iff hlive).1 d.last_drawn
  have hrange := @range_congr_iff _ _ _ _ (earlier d.windowStart d.windowStop) d.windowLast
    hfirst hlast d.first_reads_last
  have hcell : ∀ cell, d.frame.Highlights d.outcome.1.mouseSel cell ↔
      (cell.1 < d.frame.drawnCols ∧ cell.2 < d.frame.drawnHeight) ∧ d.windowStart ≠ d.windowStop ∧
        Reads (earlier d.windowStart d.windowStop) cell ∧ Reads cell d.windowLast := by
    intro cell
    rw [MouseFrame.highlights_iff hlive, MouseSelection.contains_iff, d.outcome_eq.1]
    rfl
  constructor
  · intro h
    have hne := ((hcell d.first).1 ((h d.first).2
      ⟨d.first_drawn, .refl _, d.first_reads_last⟩)).2.1
    refine ⟨hne, ?_⟩
    obtain ⟨hstart, hstop⟩ := hrange.1 fun p hp hp' => by
      have hp' : p.1 < d.frame.drawnCols ∧ p.2 < d.frame.drawnHeight := ⟨hp, hp'⟩
      have hiff := (hcell p).symm.trans (h p)
      rw [MouseFrame.drawn_iff hlive] at hiff
      exact ⟨fun hin => (hiff.1 ⟨hp', hne, hin⟩).2, fun hin => (hiff.2 ⟨hp', hin⟩).2.2⟩
    exact ⟨hfirst.1, hlast.1, d.first_reads_last, hstart, hstop⟩
  · rintro ⟨hne, hext⟩ cell
    have hcongr := hrange.2 ⟨hext.start, hext.stop⟩ cell
    rw [hcell, MouseFrame.drawn_iff hlive]
    exact ⟨fun hin => ⟨hin.1, (hcongr hin.1.1 hin.1.2).1 hin.2.2⟩,
      fun hin => ⟨hin.1, hne, (hcongr hin.1.1 hin.1.2).2 hin.2⟩⟩

theorem copies_window_iff :
    (d.copies = if d.drawnText = "" then [] else [d.drawnText]) ↔ d.windowText = d.drawnText := by
  rw [d.outcome_eq.2]
  constructor
  · intro h
    split_ifs at h with hwindow hdrawn hdrawn
    · rw [hwindow, hdrawn]
    · exact List.singleton_injective h
  · intro h
    rw [h]

/-- What is copied is what is drawn, in terms of the two ranges of cells. -/
theorem windowText_eq_iff (hlive : d.frame.pane.scrollOffset = 0)
    (hne : d.windowStart ≠ d.windowStop) : d.windowText = d.drawnText ↔
      rangeText d.frame.pane.grid.rows (earlier d.windowStart d.windowStop) d.windowLast =
        rangeText ((d.frame.pane.grid.rows.take d.frame.drawnHeight).map
          (·.take d.frame.drawnCols)) d.first d.last := by
  rw [windowText, if_neg hne, drawnText, MouseFrame.drawnRows_live hlive, copyText,
    String.ofList_inj]

variable {d}

theorem Aligned.windowStart_ne (h : d.Aligned) : d.windowStart ≠ d.windowStop := by
  intro heq
  have hsame : d.windowLast = d.first := by
    rw [← h.first, windowLast, heq]
    unfold earlier later
    split_ifs <;> rfl
  rcases h.last with hlast | ⟨-, hreads, -⟩
  · exact d.first_ne_last (hsame.symm.trans hlast)
  · rw [hsame] at hreads
    exact d.first_ne_last (d.first_reads_last.antisymm hreads)

theorem Aligned.toExtends (h : d.Aligned) :
    Extends d.frame.drawnCols d.frame.drawnHeight d.first d.last
      (earlier d.windowStart d.windowStop) d.windowLast := by
  have hfirst := ((MouseFrame.drawn_iff h.live).1 d.first_drawn).1
  have hlast := ((MouseFrame.drawn_iff h.live).1 d.last_drawn).1
  refine ⟨hfirst, hlast, d.first_reads_last, .inl h.first, ?_⟩
  rcases h.last with hstop | ⟨hedge, hreads, hrow⟩
  · exact .inl hstop
  · exact .inr ⟨hedge, hreads, hrow.imp_right fun hle => (min_le_right _ _).trans hle⟩

/-- Only a pane that is not scrolled highlights the cells of its grid. -/
theorem Faithful.live (h : d.Faithful) : d.frame.pane.scrollOffset = 0 :=
  ((h.highlights d.first).2 ⟨d.first_drawn, .refl _, d.first_reads_last⟩).1

variable (d)

/-- **Mouse selection**: in a pane that is not scrolled, the cells under the press and the release
    are highlighted and copied exactly if their distance from the window is that from the pane. -/
theorem faithful_iff : d.Faithful ↔ d.Aligned := by
  have hlen := d.frame.shaped.length_rows
  have hcols : d.frame.drawnCols ≤ d.frame.pane.grid.width := min_le_right _ _
  constructor
  · intro h
    have hlive := h.live
    have hlast := ((MouseFrame.drawn_iff hlive).1 d.last_drawn).2
    obtain ⟨hne, hext⟩ := (d.highlights_window_iff hlive).1 h.highlights
    have heq := (d.windowText_eq_iff hlive hne).1 (d.copies_window_iff.1 h.copies)
    obtain ⟨hfirst, hend, hblank⟩ := (hext.rangeText_eq_iff d.frame.shaped.length_row hcols
      d.frame.drawnHeight_le hlast).1 heq
    refine ⟨hlive, hfirst, ?_, hblank⟩
    rcases hext.stop with hstop | ⟨hedge, hreads, -⟩
    · exact .inl hstop
    · exact .inr ⟨hedge, hreads, by rwa [hlen] at hend⟩
  · intro h
    have hlast := ((MouseFrame.drawn_iff h.live).1 d.last_drawn).2
    have hne := h.windowStart_ne
    refine ⟨(d.highlights_window_iff h.live).2 ⟨hne, h.toExtends⟩, d.copies_window_iff.2 ?_⟩
    rw [d.windowText_eq_iff h.live hne, h.toExtends.rangeText_eq_iff d.frame.shaped.length_row hcols
      d.frame.drawnHeight_le hlast]
    refine ⟨h.first, ?_, h.blank⟩
    rcases h.last with hstop | ⟨-, -, hrow⟩
    · exact .inl (by rw [hstop])
    · rwa [hlen]

end Drag

/-! ## Panes in the corner -/

namespace MouseFrame

variable {f : MouseFrame} {cell : ℕ × ℕ} {p : Pointer}

/-- The column of the window is that of the pane after those on its left. -/
theorem cellUnder_col (h : f.InCell cell p) (hcell : cell.1 < f.layout.cols) (tabBarH : ℚ) :
    (f.cellUnder tabBarH p).1 = f.layout.colOffset + cell.1 := by
  have hpos := f.cellW_pos
  have hfits := f.fits_cols
  have hleft := h.left
  have hright := h.right
  have hfloor : ⌊p.x / f.cellW⌋₊ = f.layout.colOffset + cell.1 := by
    rw [Nat.floor_eq_iff (div_nonneg (le_trans (by positivity) hleft) hpos.le),
      le_div_iff₀ hpos, div_lt_iff₀ hpos]
    push_cast
    constructor <;> linarith
  rw [cellUnder, asU16, hfloor]
  exact min_eq_left (by omega)

/-- Without rows above and without padding, the row of the window is that of the pane. -/
theorem cellUnder_row (h : f.InCell cell p) (hcell : cell.2 < f.layout.rows)
    (hrow : f.layout.rowOffset = 0) (hpadding : f.paddingY = 0) :
    (f.cellUnder f.tabBarH p).2 = cell.2 := by
  have hpos := f.cellH_pos
  have hfits := f.fits_rows
  have htop := h.top
  have hbottom := h.bottom
  rw [hrow, hpadding] at htop hbottom
  have hnonneg : 0 ≤ p.y - f.tabBarH := by
    have : 0 ≤ cell.2 * f.cellH := by positivity
    push_cast at htop
    linarith
  have hfloor : ⌊max (p.y - f.tabBarH) 0 / f.cellH⌋₊ = cell.2 := by
    rw [max_eq_left hnonneg, Nat.floor_eq_iff (div_nonneg hnonneg hpos.le), le_div_iff₀ hpos,
      div_lt_iff₀ hpos]
    push_cast at htop hbottom
    constructor <;> linarith
  rw [cellUnder]
  dsimp only
  rw [asU16, hfloor]
  exact min_eq_left (by omega)

end MouseFrame

namespace Drag

/-- The condition holds in a pane in the corner of a window without padding, if its grid is no wider
    than the pane and the tab bar is drawn whenever it is enabled. -/
theorem aligned_of_unshifted (d : Drag) (hlive : d.frame.pane.scrollOffset = 0)
    (hcol : d.frame.layout.colOffset = 0) (hrow : d.frame.layout.rowOffset = 0)
    (hpadding : d.frame.paddingY = 0) (htab : d.frame.tabBarVisible = d.frame.tabBarEnabled)
    (hwide : d.frame.pane.grid.width ≤ d.frame.layout.cols) : d.Aligned := by
  have hstart := (MouseFrame.drawn_iff hlive).1 d.start_drawn
  have hstop := (MouseFrame.drawn_iff hlive).1 d.stop_drawn
  unfold MouseFrame.drawnCols MouseFrame.drawnHeight at hstart hstop
  have htab' : d.frame.enabledTabBarH = d.frame.tabBarH := by
    rw [MouseFrame.enabledTabBarH, MouseFrame.tabBarH, htab]
  have hwindow : d.windowStart = d.start := by
    refine Prod.ext ?_ (MouseFrame.cellUnder_row d.press_in (by omega) hrow hpadding)
    rw [windowStart, MouseFrame.cellUnder_col d.press_in (by omega), hcol, Nat.zero_add]
  have hwindow' : d.windowStop = d.stop := by
    rw [windowStop, htab']
    refine Prod.ext ?_ (MouseFrame.cellUnder_row d.release_in (by omega) hrow hpadding)
    rw [MouseFrame.cellUnder_col d.release_in (by omega), hcol, Nat.zero_add]
  refine ⟨hlive, by rw [hwindow, hwindow']; rfl, .inl (by rw [windowLast, hwindow, hwindow']; rfl),
    fun p _ _ hright _ row cell hrow hcell => ?_⟩
  -- There is no cell to the right of the drawn ones.
  have hlen := d.frame.shaped.length_row row (List.mem_of_getElem? hrow)
  have hlt := (List.getElem?_eq_some_iff.1 hcell).1
  unfold MouseFrame.drawnCols at hright
  omega

/-! ## A pane on the right -/

/-- Two panes of two columns side by side; the one on the right is focused. -/
def splitFrame : MouseFrame where
  cellW := 8
  cellH := 16
  cellW_pos := by norm_num
  cellH_pos := by norm_num
  tabBarEnabled := true
  hideWhenSingle := true
  tabBarHeight := 32
  paddingX := 0
  paddingY := 0
  customTitlebar := false
  window := none
  buttonRects := []
  settingsPanelOpen := false
  contextMenuOpen := false
  blocks := ⟨false, false, 2⟩
  paneLayouts := ⟨[⟨1, 0, 0, 2, 1⟩, ⟨2, 3, 0, 2, 1⟩], by decide⟩
  pane := { PaneState.new 2 1 10 with
    grid := ⟨2, 1, [[{ ch := 'o' }, { ch := 'k' }]], 0, 0, []⟩ }
  layout := ⟨2, 3, 0, 2, 1⟩
  mem := by simp
  fits_cols := by norm_num
  fits_rows := by norm_num
  shaped := ⟨rfl, rfl, rfl, by simp⟩
  connected := true

/-- No border is between the two panes, which are not next to each other. -/
theorem splitFrame_cell : splitFrame.pressTarget ⟨28, 40⟩ = .cell := by
  have hpass : ∀ axis cursor m, borderPass axis
      (splitFrame.paneLayouts.toList.insertionSort fun a b => a.paneId ≤ b.paneId) cursor m =
        none := by
    intro axis cursor m
    by_contra hsome
    obtain ⟨hit, hhit⟩ := Option.ne_none_iff_exists'.1 hsome
    obtain ⟨a, ha, b, hb, hid, hedge, -⟩ := exists_of_borderPass hhit
    rw [List.mem_insertionSort] at ha hb
    simp only [splitFrame, List.mem_cons, List.not_mem_nil, or_false] at ha hb
    rcases ha with rfl | rfl <;> rcases hb with rfl | rfl <;> cases axis <;>
      simp_all [PaneLayout.along]
  have hborder : ∀ cursor m, hitTestPaneBorder splitFrame.paneLayouts cursor m = none := by
    intro cursor m
    unfold hitTestPaneBorder
    split_ifs
    · rfl
    · dsimp only
      rw [hpass, hpass]
      rfl
  unfold MouseFrame.pressTarget
  dsimp only
  rw [hborder]
  norm_num [splitFrame, MouseFrame.customTitlebarResizeEdge, MouseFrame.tabBarH,
    MouseFrame.tabBarVisible, MouseFrame.handleBlockMouseClick]

/-- From the first cell of the pane on the right to its second one. -/
def splitDrag : Drag where
  frame := splitFrame
  before := ⟨none, ⟨false, (0, 0), (0, 0)⟩, none⟩
  start := (0, 0)
  stop := (1, 0)
  ne := by decide
  start_drawn := ⟨_, rfl, by decide⟩
  stop_drawn := ⟨_, rfl, by decide⟩
  press := ⟨28, 40⟩
  press_in := by constructor <;> norm_num [splitFrame, MouseFrame.tabBarH, MouseFrame.tabBarVisible]
  moves := []
  release := ⟨36, 40⟩
  release_in := by
    constructor <;> norm_num [splitFrame, MouseFrame.tabBarH, MouseFrame.tabBarVisible]
  hits := splitFrame_cell
  idle := rfl
  closed := rfl

/-- The selection is in columns that the pane does not have. -/
theorem splitDrag_not_faithful : ¬splitDrag.Faithful := by
  intro h
  have hin := (h.highlights (0, 0)).2 ⟨splitDrag.start_drawn, by decide, by decide⟩
  rw [MouseFrame.highlights_iff rfl, splitDrag.outcome_eq.1, MouseSelection.contains_iff] at hin
  obtain ⟨-, -, hreads, -⟩ := hin
  have hstart : splitDrag.windowStart.1 = 3 :=
    MouseFrame.cellUnder_col splitDrag.press_in (by decide) _
  have hstop : splitDrag.windowStop.1 = 4 :=
    MouseFrame.cellUnder_col splitDrag.release_in (by decide) _
  dsimp only at hreads
  rcases earlier_later_cases splitDrag.windowStart splitDrag.windowStop with
    ⟨hfirst, -⟩ | ⟨hfirst, -⟩ <;>
  · rw [hfirst] at hreads
    unfold Reads at hreads
    dsimp only at hreads
    omega

end Drag

end Nexterm.Client

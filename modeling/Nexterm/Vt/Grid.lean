/-
  Cells and grids (`nexterm-proto`, `cell.rs` and `grid.rs`).

  * `Cell`, `DirtyRow`, `Grid`: the data of the protocol.
  * `Grid.set`, `clearRow`, `copyRow`, `applyDirtyRow`: the operations; all of them ignore a row
    or a column that does not exist.
  * `Grid.Shaped`: the rows of a grid agree with its width and height.
  * `Grid.OnlyRow`: two grids differ in one row at most.

  Coordinates are natural numbers; where the arithmetic of the code can reach 2^16, the screen
  says so.
-/
import Mathlib.Data.List.Basic
import Mathlib.Data.List.TakeDrop
import Mathlib.Tactic

namespace Nexterm.Vt

/-! ## Cells -/

/-- Terminal color. -/
inductive Color
  | default
  | indexed (index : UInt8)
  | rgb (r g b : UInt8)
  deriving DecidableEq, Repr, Inhabited

/-- Character attributes (bit flags). -/
structure Attrs where
  bits : UInt8
  deriving DecidableEq, Repr, Inhabited

namespace Attrs

/-- SGR 1. -/
def bold : UInt8 := 0b00000001
/-- SGR 3. -/
def italic : UInt8 := 0b00000010
/-- SGR 4. -/
def underline : UInt8 := 0b00000100
/-- SGR 5. -/
def blink : UInt8 := 0b00001000
/-- SGR 7. -/
def reverse : UInt8 := 0b00010000
/-- SGR 9. -/
def strikethrough : UInt8 := 0b00100000

/-- Set the given flag bits. -/
def insert (a : Attrs) (flags : UInt8) : Attrs := ⟨a.bits ||| flags⟩

/-- Clear the given flag bits. -/
def remove (a : Attrs) (flags : UInt8) : Attrs := ⟨a.bits &&& ~~~flags⟩

end Attrs

/-- A single cell; the default cell is a blank. -/
structure Cell where
  ch : Char := ' '
  fg : Color := .default
  bg : Color := .default
  attrs : Attrs := ⟨0⟩
  deriving DecidableEq, Repr

instance : Inhabited Cell := ⟨{}⟩

/-- A dirty row used for differential updates. -/
structure DirtyRow where
  row : ℕ
  cells : List Cell
  deriving DecidableEq, Repr

/-- OSC 8 hyperlink span. -/
structure HyperlinkSpan where
  row : ℕ
  colStart : ℕ
  colEnd : ℕ
  url : String
  deriving DecidableEq, Repr

/-- Full-screen snapshot. -/
structure Grid where
  width : ℕ
  height : ℕ
  rows : List (List Cell)
  cursorCol : ℕ
  cursorRow : ℕ
  hyperlinks : List HyperlinkSpan
  deriving DecidableEq, Repr

/-! ## Operations -/

namespace Grid

/-- A blank row. -/
def blankRow (width : ℕ) : List Cell := List.replicate width {}

/-- Blank rows. -/
def blankRows (width height : ℕ) : List (List Cell) := List.replicate height (blankRow width)

/-- Creates an empty grid. -/
def new (width height : ℕ) : Grid := ⟨width, height, blankRows width height, 0, 0, []⟩

/-- Writes to the given cell. -/
def set (g : Grid) (col row : ℕ) (cell : Cell) : Grid :=
  { g with rows := g.rows.modify row (·.set col cell) }

/-- Fills the entire row with default cells. -/
def clearRow (g : Grid) (row : ℕ) : Grid :=
  { g with rows := g.rows.modify row (·.map fun _ => {}) }

/-- The row after a differential update: its overlapping prefix is copied. -/
def overlay (cells row : List Cell) : List Cell :=
  if row.length = cells.length then cells
  else
    let n := min row.length cells.length
    cells.take n ++ row.drop n

/-- Applies a `DirtyRow` onto this grid. -/
def applyDirtyRow (g : Grid) (dirty : DirtyRow) : Grid :=
  { g with rows := g.rows.modify dirty.row (overlay dirty.cells) }

/-- Copies the contents of row `src` into row `dst`. -/
def copyRow (g : Grid) (dst src : ℕ) : Grid :=
  if dst = src then g
  else
    match g.rows[src]? with
    | none => g
    | some cells => { g with rows := g.rows.set dst cells }

/-! ## Shape -/

/-- The rows of a grid agree with its width and height. -/
structure Shaped (width height : ℕ) (g : Grid) : Prop where
  width_eq : g.width = width
  height_eq : g.height = height
  length_rows : g.rows.length = height
  length_row : ∀ row ∈ g.rows, row.length = width

variable {g g' : Grid} {width height : ℕ}

theorem length_row_blankRows {row : List Cell} (h : row ∈ blankRows width height) :
    row.length = width := by
  rw [List.eq_of_mem_replicate h, blankRow, List.length_replicate]

theorem shaped_new (width height : ℕ) : (new width height).Shaped width height where
  width_eq := rfl
  height_eq := rfl
  length_rows := List.length_replicate
  length_row _ h := length_row_blankRows h

theorem mem_modify {α : Type} {l : List α} {i : ℕ} {f : α → α} {x : α} (h : x ∈ l.modify i f) :
    x ∈ l ∨ ∃ y ∈ l, x = f y := by
  obtain ⟨j, hj⟩ := List.mem_iff_getElem?.1 h
  rw [List.getElem?_modify] at hj
  obtain ⟨y, hy, rfl⟩ := Option.map_eq_some_iff.1 hj
  have hmem := List.mem_of_getElem? hy
  by_cases hij : i = j
  · exact Or.inr ⟨y, hmem, by simp [hij]⟩
  · exact Or.inl (by simpa [hij] using hmem)

/-- Editing a row without changing its length keeps the shape. -/
theorem Shaped.modify (h : g.Shaped width height) (row : ℕ) {f : List Cell → List Cell}
    (hf : ∀ cells : List Cell, cells.length = width → (f cells).length = width) :
    { g with rows := g.rows.modify row f }.Shaped width height where
  width_eq := h.width_eq
  height_eq := h.height_eq
  length_rows := by simpa using h.length_rows
  length_row := by
    intro cells hcells
    rcases mem_modify hcells with hcells | ⟨c, hc, rfl⟩
    · exact h.length_row _ hcells
    · exact hf c (h.length_row c hc)

theorem Shaped.set (h : g.Shaped width height) (col row : ℕ) (cell : Cell) :
    (g.set col row cell).Shaped width height :=
  h.modify row fun _ hc => List.length_set.trans hc

theorem Shaped.clearRow (h : g.Shaped width height) (row : ℕ) :
    (g.clearRow row).Shaped width height :=
  h.modify row fun _ hc => (List.length_map _).trans hc

theorem length_overlay (cells row : List Cell) : (overlay cells row).length = row.length := by
  unfold overlay
  split_ifs with h
  · exact h.symm
  · simp only [List.length_append, List.length_take, List.length_drop]
    omega

theorem Shaped.applyDirtyRow (h : g.Shaped width height) (dirty : DirtyRow) :
    (g.applyDirtyRow dirty).Shaped width height :=
  h.modify dirty.row fun _ hc => (length_overlay _ _).trans hc

theorem Shaped.copyRow (h : g.Shaped width height) (dst src : ℕ) :
    (g.copyRow dst src).Shaped width height := by
  unfold Grid.copyRow
  split_ifs
  · exact h
  · cases hs : g.rows[src]? with
    | none => exact h
    | some cells =>
      refine ⟨h.width_eq, h.height_eq, List.length_set.trans h.length_rows, ?_⟩
      intro row hrow
      rcases List.mem_or_eq_of_mem_set hrow with hrow | rfl
      · exact h.length_row row hrow
      · exact h.length_row row (List.mem_of_getElem? hs)

/-! ## Changes of one row -/

/-- Every other row is unchanged. -/
def OnlyRow (row : ℕ) (g g' : Grid) : Prop := ∀ i, i ≠ row → g'.rows[i]? = g.rows[i]?

theorem OnlyRow.refl (row : ℕ) (g : Grid) : OnlyRow row g g := fun _ _ => rfl

theorem OnlyRow.trans {g'' : Grid} {row : ℕ} (h : OnlyRow row g g') (h' : OnlyRow row g' g'') :
    OnlyRow row g g'' := fun i hi => (h' i hi).trans (h i hi)

theorem onlyRow_modify (g : Grid) (row : ℕ) (f : List Cell → List Cell) :
    OnlyRow row g { g with rows := g.rows.modify row f } := by
  intro i hi
  simp [hi.symm]

theorem onlyRow_set (g : Grid) (col row : ℕ) (cell : Cell) : OnlyRow row g (g.set col row cell) :=
  onlyRow_modify g row _

theorem onlyRow_clearRow (g : Grid) (row : ℕ) : OnlyRow row g (g.clearRow row) :=
  onlyRow_modify g row _

theorem onlyRow_applyDirtyRow (g : Grid) (dirty : DirtyRow) :
    OnlyRow dirty.row g (g.applyDirtyRow dirty) :=
  onlyRow_modify g dirty.row _

theorem onlyRow_copyRow (g : Grid) (dst src : ℕ) : OnlyRow dst g (g.copyRow dst src) := by
  intro i hi
  unfold Grid.copyRow
  split_ifs
  · rfl
  · cases g.rows[src]? with
    | none => rfl
    | some cells => exact List.getElem?_set_ne hi.symm

/-- A row of full length replaces the row of a grid. -/
theorem rows_applyDirtyRow_self (h : g.Shaped width height) {dirty : DirtyRow}
    (hrow : dirty.row < height) (hlen : dirty.cells.length = width) :
    (g.applyDirtyRow dirty).rows[dirty.row]? = some dirty.cells := by
  have hlt : dirty.row < g.rows.length := h.length_rows ▸ hrow
  have hcells := h.length_row _ (List.getElem_mem hlt)
  simp [Grid.applyDirtyRow, List.getElem?_eq_getElem hlt, overlay, hcells, hlen]

end Grid

end Nexterm.Vt

/-
  The vertices of a grid (`renderer/grid_verts.rs`, `color_util.rs`, `state/selection.rs`).

  * `resolveColorWithOverrides`: the colour of a cell in a pane.
  * `MouseSelection.contains`: the selected cells; `contains_swap`: the direction in which they
    have been dragged over does not matter.
  * `buildGridVertsInRect`: the quads of a pane, with the glyph that a quad shows.
  * `build_glyph`: a glyph of the grid is one of the terminal font, and its bitmap is not empty.

  `Rasterizer` is what computes with floating-point numbers or belongs to the font.
-/
import Nexterm.Client.GlyphAtlas
import Nexterm.Vt.Grid

namespace Nexterm.Client

open Nexterm.Vt (Attrs Cell Color Grid)

/-! ## Colours -/

/-- A colour, as the client receives it. -/
abbrev Rgb := UInt8 × UInt8 × UInt8

/-- Dynamic-color overrides of a pane (OSC 4/10/11). -/
structure PaneColorOverrides where
  fg : Option Rgb
  bg : Option Rgb
  /-- Palette overrides keyed by palette index. -/
  palette : List (UInt8 × Rgb)

/-- No override is active. -/
def PaneColorOverrides.isEmpty (overrides : PaneColorOverrides) : Bool :=
  overrides.fg.isNone && overrides.bg.isNone && overrides.palette.isEmpty

inductive CursorStyle
  | block
  | beam
  | underline
  deriving DecidableEq

/-! ## The selection -/

/-- Mouse drag text selection state. -/
structure MouseSelection where
  isDragging : Bool
  /-- Column and row of the selection start cell. -/
  start : ℕ × ℕ
  stop : ℕ × ℕ
  deriving DecidableEq

namespace MouseSelection

/-- The cell comes before the other one in reading order, or is it. -/
def before (cell cell' : ℕ × ℕ) : Bool :=
  cell.2 < cell'.2 || cell.2 = cell'.2 && cell.1 ≤ cell'.1

/-- The normalized selection range, if there is one. -/
def normalized (sel : MouseSelection) : Option ((ℕ × ℕ) × ℕ × ℕ) :=
  if sel.start = sel.stop then none
  else if before sel.start sel.stop then some (sel.start, sel.stop)
  else some (sel.stop, sel.start)

/-- The cell is inside the selection range. -/
def contains (sel : MouseSelection) (col row : ℕ) : Bool :=
  match sel.normalized with
  | none => false
  | some ((sc, sr), ec, er) =>
    if row < sr ∨ row > er then false
    else if row = sr ∧ row = er then sc ≤ col && col ≤ ec
    else if row = sr then sc ≤ col
    else if row = er then col ≤ ec
    else true

theorem before_swap {cell cell' : ℕ × ℕ} (hne : cell ≠ cell') :
    before cell' cell = !before cell cell' := by
  obtain ⟨col, row⟩ := cell
  obtain ⟨col', row'⟩ := cell'
  have hne' : ¬(col = col' ∧ row = row') := fun h => hne (Prod.ext h.1 h.2)
  rw [Bool.eq_iff_iff]
  simp only [before, Bool.or_eq_true, Bool.and_eq_true, decide_eq_true_eq, Bool.not_eq_true',
    Bool.or_eq_false_iff, Bool.and_eq_false_iff, decide_eq_false_iff_not]
  omega

/-- **A selection that is dragged backwards selects the same cells.** -/
theorem contains_swap (dragging : Bool) (start stop : ℕ × ℕ) (col row : ℕ) :
    contains ⟨dragging, start, stop⟩ col row = contains ⟨dragging, stop, start⟩ col row := by
  have hnormalized : normalized ⟨dragging, start, stop⟩ = normalized ⟨dragging, stop, start⟩ := by
    unfold normalized
    by_cases hne : start = stop
    · rw [hne]
    · dsimp only
      rw [if_neg hne, if_neg (Ne.symm hne), before_swap hne]
      cases before start stop <;> rfl
  unfold contains
  rw [hnormalized]

end MouseSelection

/-! ## The builder -/

/-- Where a pane is drawn and how, besides its content: the layout, the metrics of the frame, the
    focus, the cursor and the selection. -/
structure View where
  colOffset : ℕ
  rowOffset : ℕ
  cols : ℕ
  rows : ℕ
  swBits : UInt32
  shBits : UInt32
  cellWBits : UInt32
  cellHBits : UInt32
  gridOffsetYBits : UInt32
  isFocused : Bool
  cursorStyle : CursorStyle
  cursorVisible : Bool
  mouseSel : MouseSelection
  deriving DecidableEq

/-- Which font a cached glyph was rasterised from. -/
inductive FontRole
  | terminal
  | icon
  | chrome
  deriving DecidableEq

/-- Cache key for a single-character glyph. -/
structure GlyphKey where
  ch : Char
  bold : Bool
  italic : Bool
  wide : Bool
  role : FontRole
  sizePx : ℕ
  deriving DecidableEq

/-- Cache key for a ligature. -/
structure LigatureKey where
  col : ℕ
  text : String
  bold : Bool
  italic : Bool
  fgPacked : UInt32
  deriving DecidableEq

/-- Both caches hand out rectangles in one texture. -/
inductive AtlasKey
  | glyph (key : GlyphKey)
  | ligature (key : LigatureKey)
  deriving DecidableEq

/-- A glyph from the terminal font, at the current cell size. -/
def GlyphKey.terminal (ch : Char) (bold italic wide : Bool) : GlyphKey :=
  ⟨ch, bold, italic, wide, .terminal, 0⟩

/-- The computations on pixels and colours, and the font.  `P` is a rectangle on the screen, `C` a
    colour, `Θ` the palette, the tokens, the multipliers of inactive panes and the font, and `M`
    where the cursor and the dimming of the pane are in their animation. -/
structure Rasterizer (P C Θ M : Type) where
  cellRect : View → ℕ → ℕ → P
  glyphRect : View → ℕ → ℕ → ℕ × ℕ → P
  cursorRect : View → M → P
  rgb : Rgb → C
  resolveColor : Θ → Color → Bool → C
  transformCell : Θ → Bool → M → C → C
  selectionColor : Θ → C
  cursorColor : Θ → CursorStyle → C
  isWide : Char → Bool
  /-- The size of the bitmap of a character. -/
  rasterizeChar : Θ → Char → Bool → Bool → C → Bool → ℕ × ℕ

namespace Rasterizer

variable {P C Θ M : Type} (R : Rasterizer P C Θ M)

/-- The colour of a cell, which an override of the pane replaces. -/
def resolveColorWithOverrides (theme : Θ) (color : Color) (isFg : Bool)
    (overrides : Option PaneColorOverrides) : C :=
  let dynamic := overrides.bind fun ov =>
    match color with
    | .default => if isFg then ov.fg else ov.bg
    | .indexed n => ov.palette.lookup n
    | .rgb _ _ _ => none
  match dynamic with
  | some c => R.rgb c
  | none => R.resolveColor theme color isFg

/-- The quad of a character, unless its bitmap is empty. -/
def glyphQuads (view : View) (theme : Θ) (row col : ℕ) (ch : Char) (bold italic : Bool) (fg : C) :
    List ((P × C) × Option (GlyphRequest AtlasKey)) :=
  let wide := R.isWide ch
  let (w, h) := R.rasterizeChar theme ch bold italic fg wide
  if w = 0 ∨ h = 0 then []
  else
    [((R.glyphRect view col row (w, h), fg), some ⟨.glyph (.terminal ch bold italic wide), w, h⟩)]

/-- The quads of a cell: its background, the selection over it and its character. -/
def cellQuads (overrides : Option PaneColorOverrides) (view : View) (motion : M) (theme : Θ)
    (row col : ℕ) (cell : Cell) : List ((P × C) × Option (GlyphRequest AtlasKey)) :=
  let color c isFg := R.transformCell theme view.isFocused motion
    (R.resolveColorWithOverrides theme c isFg overrides)
  let background := [((R.cellRect view col row, color cell.bg false), none)]
  let selection :=
    if view.isFocused ∧ view.mouseSel.contains col row then
      [((R.cellRect view col row, R.selectionColor theme), none)]
    else []
  let glyph :=
    if cell.ch = ' ' then []
    else R.glyphQuads view theme row col cell.ch (cell.attrs.bits &&& Attrs.bold ≠ 0)
      (cell.attrs.bits &&& Attrs.italic ≠ 0) (color cell.fg true)
  background ++ selection ++ glyph

/-- The quad of the cursor, in the focused pane only. -/
def cursorQuads (view : View) (motion : M) (theme : Θ) :
    List ((P × C) × Option (GlyphRequest AtlasKey)) :=
  if view.isFocused ∧ view.cursorVisible then
    [((R.cursorRect view motion, R.cursorColor theme view.cursorStyle), none)]
  else []

/-- Draw the grid inside the given layout rectangle. -/
def buildGridVertsInRect (grid : Grid) (overrides : PaneColorOverrides) (view : View) (motion : M)
    (theme : Θ) : List ((P × C) × Option (GlyphRequest AtlasKey)) :=
  let overrides := if overrides.isEmpty then none else some overrides
  ((List.range (min view.rows grid.height)).flatMap fun row =>
    (List.range (min view.cols grid.width)).flatMap fun col =>
      match grid.rows[row]?.bind (·[col]?) with
      | none => []
      | some cell => R.cellQuads overrides view motion theme row col cell) ++
    R.cursorQuads view motion theme

variable {R}

section

variable {view : View} {theme : Θ} {row col : ℕ} {q : P × C} {r : GlyphRequest AtlasKey}

theorem glyphQuads_glyph {ch : Char} {bold italic : Bool} {fg : C}
    (h : (q, some r) ∈ R.glyphQuads view theme row col ch bold italic fg) :
    0 < r.width ∧ 0 < r.height ∧ r.key = .glyph (.terminal ch bold italic (R.isWide ch)) := by
  unfold glyphQuads at h
  dsimp only at h
  split_ifs at h with hempty
  · cases h
  · rw [List.mem_singleton] at h
    cases h
    rw [not_or] at hempty
    exact ⟨Nat.pos_of_ne_zero hempty.1, Nat.pos_of_ne_zero hempty.2, rfl⟩

theorem cellQuads_glyph {overrides : Option PaneColorOverrides} {motion : M} {cell : Cell}
    (h : (q, some r) ∈ R.cellQuads overrides view motion theme row col cell) :
    0 < r.width ∧ 0 < r.height ∧
      ∃ ch bold italic, r.key = .glyph (.terminal ch bold italic (R.isWide ch)) := by
  unfold cellQuads at h
  dsimp only at h
  rcases List.mem_append.1 h with h | h
  · split_ifs at h <;> simp at h
  · split_ifs at h
    · cases h
    · obtain ⟨hwidth, hheight, hkey⟩ := glyphQuads_glyph h
      exact ⟨hwidth, hheight, _, _, _, hkey⟩

/-- **A glyph of the grid is one of the terminal font, and its bitmap is not empty.** -/
theorem build_glyph {grid : Grid} {overrides : PaneColorOverrides} {motion : M}
    (h : (q, some r) ∈ R.buildGridVertsInRect grid overrides view motion theme) :
    0 < r.width ∧ 0 < r.height ∧
      ∃ ch bold italic, r.key = .glyph (.terminal ch bold italic (R.isWide ch)) := by
  rcases List.mem_append.1 h with h | h
  · obtain ⟨row, -, h⟩ := List.mem_flatMap.1 h
    obtain ⟨col, -, h⟩ := List.mem_flatMap.1 h
    split at h
    · cases h
    · exact cellQuads_glyph h
  · unfold cursorQuads at h
    split_ifs at h <;> simp at h

end

end Rasterizer

end Nexterm.Client

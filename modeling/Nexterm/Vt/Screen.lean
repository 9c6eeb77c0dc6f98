/-
  The virtual screen (`nexterm-vt`, `screen.rs`): a grid, its dirty flags and the cursor.

  * `Screen`: the state, without the queues for titles, images, colors and notifications, which
    no operation on the grid reads.
  * `writeChar`, `advanceLine`, `scrollUp`, `eraseInLine`, `eraseInDisplay`: the operations on the
    grid; `switchToAlt`, `switchToPrimary`, `resize` replace it.
  * `takeDirtyRows`: the rows that changed since the last call.

  Coordinates are natural numbers.  The code has `u16`; no sum below reaches 2^16 except the
  ones written with `saturatingAdd`.
-/
import Nexterm.Vt.Grid

namespace Nexterm.Vt

/-- Addition of `u16` values that stops at the largest one. -/
def saturatingAdd (a b : ℕ) : ℕ := min (a + b) 65535

/-- The current colors and attributes. -/
structure Style where
  fg : Color := .default
  bg : Color := .default
  attrs : Attrs := ⟨0⟩
  deriving DecidableEq, Repr

/-- A cell in the current style. -/
def Style.cell (s : Style) (ch : Char) : Cell := ⟨ch, s.fg, s.bg, s.attrs⟩

/-- Screen-buffer contents. -/
structure ScreenBuffer where
  rows : List (List Cell)
  cursorCol : ℕ
  cursorRow : ℕ
  deriving DecidableEq, Repr

/-- Virtual screen. -/
structure Screen where
  grid : Grid
  /-- Per-row dirty flags. -/
  dirty : List Bool
  /-- Lines that have just scrolled off the top of the primary screen. -/
  pendingScrollback : List (List Cell)
  cursorCol : ℕ
  cursorRow : ℕ
  style : Style
  scrollTop : ℕ
  scrollBottom : ℕ
  /-- The saved primary buffer. -/
  altScreen : Option ScreenBuffer
  altMode : Bool
  bracketedPaste : Bool
  synchronizedOutput : Bool
  mouseMode : ℕ
  currentHyperlinkUrl : Option String
  hyperlinkStartCol : ℕ
  hyperlinkStartRow : ℕ
  keyboardProtocolFlags : UInt8
  keyboardProtocolStack : List UInt8
  /-- Replies owed to the PTY. -/
  pendingResponses : List String
  deriving DecidableEq

namespace Screen

/-- Creates a screen with the given dimensions. -/
def new (cols rows : ℕ) : Screen where
  grid := Grid.new cols rows
  dirty := List.replicate rows false
  pendingScrollback := []
  cursorCol := 0
  cursorRow := 0
  style := {}
  scrollTop := 0
  scrollBottom := rows - 1
  altScreen := none
  altMode := false
  bracketedPaste := false
  synchronizedOutput := false
  mouseMode := 0
  currentHyperlinkUrl := none
  hyperlinkStartCol := 0
  hyperlinkStartRow := 0
  keyboardProtocolFlags := 0
  keyboardProtocolStack := []
  pendingResponses := []

/-! ## Buffers -/

/-- Switches to the alternate screen buffer. -/
def switchToAlt (s : Screen) : Screen :=
  if s.altMode then s
  else
    { s with
      altScreen := some ⟨s.grid.rows, s.cursorCol, s.cursorRow⟩
      grid := Grid.new s.grid.width s.grid.height
      dirty := List.replicate s.grid.height true
      cursorCol := 0
      cursorRow := 0
      scrollTop := 0
      scrollBottom := s.grid.height - 1
      altMode := true }

/-- Returns to the primary screen buffer. -/
def switchToPrimary (s : Screen) : Screen :=
  if !s.altMode then s
  else
    let s :=
      match s.altScreen with
      | none => s
      | some saved =>
        { s with
          altScreen := none
          grid := { s.grid with rows := saved.rows }
          cursorCol := saved.cursorCol
          cursorRow := saved.cursorRow
          dirty := List.replicate s.grid.height true }
    { s with scrollTop := 0, scrollBottom := s.grid.height - 1, altMode := false }

/-- The cells of `rows` that fit, in a blank buffer of the given size. -/
def resizedRows (rows : List (List Cell)) (oldCols oldRows newCols newRows : ℕ) :
    List (List Cell) :=
  let copyRows := min oldRows newRows
  let copyCols := min oldCols newCols
  (rows.take copyRows).map (fun row => row.take copyCols ++ (Grid.blankRow newCols).drop copyCols) ++
    (Grid.blankRows newCols newRows).drop copyRows

/-- Handles a resize. -/
def resize (s : Screen) (newCols newRows : ℕ) : Screen :=
  { s with
    grid := { Grid.new newCols newRows with
      rows := resizedRows s.grid.rows s.grid.width s.grid.height newCols newRows }
    dirty := List.replicate newRows true
    cursorCol := min s.cursorCol (newCols - 1)
    cursorRow := min s.cursorRow (newRows - 1)
    scrollTop := 0
    scrollBottom := newRows - 1
    altScreen := s.altScreen.map fun saved =>
      let oldRows := saved.rows.length
      let oldCols := (saved.rows.head?.map List.length).getD 0
      ⟨resizedRows saved.rows oldCols oldRows newCols newRows,
        min saved.cursorCol (newCols - 1), min saved.cursorRow (newRows - 1)⟩ }

/-! ## Dirty rows -/

/-- Returns whether the given row is dirty. -/
def isDirty (s : Screen) (row : ℕ) : Bool := s.dirty.getD row false

/-- Marks the given row as dirty. -/
def markDirty (s : Screen) (row : ℕ) : Screen := { s with dirty := s.dirty.set row true }

/-- The dirty rows of a grid, in ascending order. -/
def dirtyRows (grid : Grid) (dirty : List Bool) : List DirtyRow :=
  (List.range dirty.length).filterMap fun row =>
    if dirty.getD row false then some ⟨row, grid.rows.getD row []⟩ else none

/-- Collects the dirty rows and clears their flags. -/
def takeDirtyRows (s : Screen) : List DirtyRow × Screen :=
  if s.synchronizedOutput then ([], s)
  else (dirtyRows s.grid s.dirty, { s with dirty := s.dirty.map fun _ => false })

/-! ## Writing and scrolling -/

/-- Retains the line that leaves the top of the screen, for a full-screen scroll on the primary
    buffer. -/
def retainTopLine (s : Screen) : Screen :=
  if !s.altMode && s.scrollTop = 0 then
    match s.grid.rows[s.scrollTop]? with
    | some row => { s with pendingScrollback := s.pendingScrollback ++ [row] }
    | none => s
  else s

/-- Copies each of the given rows from the row below it. -/
def copyUp (s : Screen) (rows : List ℕ) : Screen :=
  rows.foldl (fun s r => { s with grid := s.grid.copyRow r (r + 1) }.markDirty r) s

/-- Clears the given rows. -/
def clearRows (s : Screen) (rows : List ℕ) : Screen :=
  rows.foldl (fun s r => { s with grid := s.grid.clearRow r }.markDirty r) s

/-- Scrolls the region up by one row. -/
def scrollUp (s : Screen) : Screen :=
  (s.retainTopLine.copyUp (List.range' s.scrollTop (s.scrollBottom - s.scrollTop))).clearRows
    [s.scrollBottom]

/-- Advances the cursor to the next row, scrolling if necessary. -/
def advanceLine (s : Screen) : Screen :=
  if s.cursorRow ≥ s.scrollBottom then s.scrollUp else { s with cursorRow := s.cursorRow + 1 }

/-- Wraps to the next row. -/
def wrapLine (s : Screen) : Screen := { s with cursorCol := 0 }.advanceLine

/-- Writes a character of the given display width at the cursor and advances it. -/
def writeChar (s : Screen) (ch : Char) (charWidth : ℕ) : Screen :=
  let s := if s.cursorCol ≥ s.grid.width then s.wrapLine else s
  -- a wide character that would overflow the line goes to the next row
  let s := if charWidth = 2 ∧ s.cursorCol + 1 ≥ s.grid.width then s.wrapLine else s
  let row := s.cursorRow
  let s := { s with grid := s.grid.set s.cursorCol row (s.style.cell ch) }.markDirty row
  let s := { s with cursorCol := s.cursorCol + 1 }
  if charWidth = 2 ∧ s.cursorCol < s.grid.width then
    { s with
      grid := s.grid.set s.cursorCol row (s.style.cell ' ')
      cursorCol := s.cursorCol + 1 }
  else s

/-- Moves the cursor to the given position. -/
def moveCursor (s : Screen) (col row : ℕ) : Screen :=
  { s with
    cursorCol := min col (s.grid.width - 1)
    cursorRow := min row (s.grid.height - 1) }

/-- Sets the scrolling region (DECSTBM). -/
def setScrollRegion (s : Screen) (top bottom : ℕ) : Screen :=
  let last := s.grid.height - 1
  { s with
    scrollTop := min top last
    scrollBottom := min bottom last
    cursorCol := 0
    cursorRow := 0 }

/-! ## Erasing -/

/-- Blanks the given columns of a row. -/
def eraseColumns (s : Screen) (row : ℕ) (cols : List ℕ) : Screen :=
  { s with grid := cols.foldl (fun g col => g.set col row {}) s.grid }

/-- Erases part or all of the current row. -/
def eraseInLine (s : Screen) (mode : ℕ) : Screen :=
  let row := s.cursorRow
  let s :=
    match mode with
    | 0 => s.eraseColumns row (List.range' s.cursorCol (s.grid.width - s.cursorCol))
    | 1 => s.eraseColumns row (List.range (s.cursorCol + 1))
    | 2 => { s with grid := s.grid.clearRow row }
    | _ => s
  s.markDirty row

/-- Erases part or all of the display. -/
def eraseInDisplay (s : Screen) (mode : ℕ) : Screen :=
  match mode with
  | 0 =>
    let s := s.eraseInLine 0
    s.clearRows (List.range' (s.cursorRow + 1) (s.grid.height - (s.cursorRow + 1)))
  | 1 => (s.clearRows (List.range s.cursorRow)).eraseInLine 1
  | 2 => { s.clearRows (List.range s.grid.height) with cursorCol := 0, cursorRow := 0 }
  | 3 => s.clearRows (List.range s.grid.height)
  | _ => s

end Screen

/-! ## SGR -/

/-- The effect of a single SGR parameter. -/
def Style.applyOne (s : Style) (p : ℕ) : Style :=
  if p = 0 then {}
  else if p = 1 then { s with attrs := s.attrs.insert Attrs.bold }
  else if p = 3 then { s with attrs := s.attrs.insert Attrs.italic }
  else if p = 4 then { s with attrs := s.attrs.insert Attrs.underline }
  else if p = 5 then { s with attrs := s.attrs.insert Attrs.blink }
  else if p = 7 then { s with attrs := s.attrs.insert Attrs.reverse }
  else if p = 9 then { s with attrs := s.attrs.insert Attrs.strikethrough }
  else if p = 22 then { s with attrs := s.attrs.remove Attrs.bold }
  else if p = 24 then { s with attrs := s.attrs.remove Attrs.underline }
  else if p = 27 then { s with attrs := s.attrs.remove Attrs.reverse }
  else if 30 ≤ p ∧ p ≤ 37 then { s with fg := .indexed (UInt8.ofNat (p - 30)) }
  else if p = 39 then { s with fg := .default }
  else if 40 ≤ p ∧ p ≤ 47 then { s with bg := .indexed (UInt8.ofNat (p - 40)) }
  else if p = 49 then { s with bg := .default }
  else if 90 ≤ p ∧ p ≤ 97 then { s with fg := .indexed (UInt8.ofNat (p - 90 + 8)) }
  else if 100 ≤ p ∧ p ≤ 107 then { s with bg := .indexed (UInt8.ofNat (p - 100 + 8)) }
  else s

/-- Applies an SGR attribute list; 38 and 48 take the parameters that follow them. -/
def Style.applySgr (s : Style) : List ℕ → Style
  | [] => s
  | p :: params =>
    if p = 38 ∨ p = 48 then
      let set (color : Color) : Style :=
        if p = 38 then { s with fg := color } else { s with bg := color }
      match params with
      | 5 :: n :: rest => (set (.indexed (UInt8.ofNat n))).applySgr rest
      | 2 :: r :: g :: b :: rest =>
        (set (.rgb (UInt8.ofNat r) (UInt8.ofNat g) (UInt8.ofNat b))).applySgr rest
      | params => s.applySgr params
    else (s.applyOne p).applySgr params

end Nexterm.Vt

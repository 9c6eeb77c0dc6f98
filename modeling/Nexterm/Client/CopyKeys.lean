/-
  The keys of copy mode (`input_handler/copy_mode.rs`, `CopyModeState` in `state/selection.rs`).

  * `findNextWordStart`, `findPrevWordStart`, `findWordEnd`: where `w`, `b` and `e` go.
  * `word_keys`: these are the next start, the last start and the next end of a word.
  * `CopyKeys.handleCopyModeKey`, `perform`: the keys, and what they copy to the clipboard.
  * `textBetween`: the text between two positions.
  * `copy_run`: what is copied is the text between the cursor and the place where the selection was
    begun; no key ever enters a query for the search.

  As in `CopyMode`, columns and rows are below 2^16, and no sum of them leaves its type.
-/
import Nexterm.Client.CopyMode
import Nexterm.Lib.Spans
import Nexterm.Lib.Trails
import Nexterm.Settings.KeyConflicts

namespace Nexterm.Client

open Nexterm.Vt (Cell isWhitespace)
open Settings.KeyConflicts (WKeyCode ModifiersState)
open Spans TextRange

/-! ## Words -/

/-- The cell is part of a word. -/
def inWord (cell : Cell) : Bool := !isWhitespace cell.ch

/-- The cell starts a word: the first one of its row, or one after whitespace. -/
def WordStart (rows : List (List Cell)) (p : ℕ × ℕ) : Prop :=
  ∃ cells, rows[p.2]? = some cells ∧ IsStart inWord cells p.1

/-- The cell ends a word. -/
def WordEnd (rows : List (List Cell)) (p : ℕ × ℕ) : Prop :=
  ∃ cells, rows[p.2]? = some cells ∧ IsEnd inWord cells p.1

namespace CopyMode

/-- The start position of the next word. -/
def findNextWordStart (s : CopyMode) (col row maxCol maxRow : ℕ) : Option (ℕ × ℕ) := do
  let pane ← s.focusedPane
  let rows := pane.grid.rows
  -- skip the rest of the word at the cursor
  let here := (rows[row]?).bind fun cells => nextMarked inWord cells (skip inWord cells col)
  let below := (List.range' (row + 1) (maxRow - row)).findSome? fun r =>
    ((rows[r]?).bind (nextMarked inWord · 0)).map (·, r)
  some ((here.map (·, row) <|> below).getD (maxCol, maxRow))

/-- The start position of the previous word. -/
def findPrevWordStart (s : CopyMode) (col row : ℕ) : Option (ℕ × ℕ) := do
  let pane ← s.focusedPane
  let rows := pane.grid.rows
  let here := (rows[row]?).bind (lastStart inWord · col)
  let above := (List.range row).reverse.findSome? fun r =>
    ((rows[r]?).bind fun cells => lastStart inWord cells cells.length).map (·, r)
  some ((here.map (·, row) <|> above).getD (0, 0))

/-- The end position of the current or next word. -/
def findWordEnd (s : CopyMode) (col row maxCol maxRow : ℕ) : Option (ℕ × ℕ) := do
  let pane ← s.focusedPane
  let rows := pane.grid.rows
  let here := (rows[row]?).bind (nextEnd inWord · (col + 1))
  let below := (List.range' (row + 1) (maxRow - row)).findSome? fun r =>
    ((rows[r]?).bind (nextEnd inWord · 0)).map (·, r)
  some ((here.map (·, row) <|> below).getD (maxCol, maxRow))

variable {s : CopyMode} {pane : PaneState}

theorem finds_row {rows : List (List Cell)} {P : List Cell → ℕ → Prop}
    {search : List Cell → Option ℕ} {r start : ℕ} (h : ∀ cells, Finds (P cells) start (search cells)) :
    Finds (fun i => ∃ cells, rows[r]? = some cells ∧ P cells i) start ((rows[r]?).bind search) := by
  cases hr : rows[r]? with
  | none =>
    rintro j - ⟨cells, hcells, -⟩
    cases hcells
  | some cells =>
    simpa using h cells

theorem findsBack_row {rows : List (List Cell)} {P : List Cell → ℕ → Prop}
    {search : List Cell → Option ℕ} {r stop : ℕ}
    (h : ∀ cells, rows[r]? = some cells → FindsBack (P cells) stop (search cells)) :
    FindsBack (fun i => ∃ cells, rows[r]? = some cells ∧ P cells i) stop ((rows[r]?).bind search) := by
  cases hr : rows[r]? with
  | none =>
    rintro j - ⟨cells, hcells, -⟩
    cases hcells
  | some cells =>
    simpa using h cells hr

/-- `w` goes to the next start of a word, or to the last position of the window. -/
theorem findNextWordStart_spec (hpane : s.focusedPane = some pane) (col row maxCol maxRow : ℕ) :
    ∃ found, FindsAt (WordStart pane.grid.rows) (col + 1, row) (max row maxRow) found ∧
      s.findNextWordStart col row maxCol maxRow = some (found.getD (maxCol, maxRow)) := by
  refine ⟨_, findsAt_rows (finds_row fun cells => finds_nextMarked_skip col)
    (fun r => finds_row fun cells => finds_nextMarked (.inl rfl)), ?_⟩
  unfold findNextWordStart
  rw [hpane]
  rfl

/-- `b` goes to the last start of a word before it, or to the first position. -/
theorem findPrevWordStart_spec (hpane : s.focusedPane = some pane) (col row : ℕ) :
    ∃ found, FindsBackAt (WordStart pane.grid.rows) (col, row) found ∧
      s.findPrevWordStart col row = some (found.getD (0, 0)) := by
  let width (r : ℕ) := ((pane.grid.rows[r]?).getD []).length
  have habove : ∀ r, FindsBack (fun i => WordStart pane.grid.rows (i, r)) (width r)
      ((pane.grid.rows[r]?).bind fun cells => lastStart inWord cells cells.length) := by
    refine fun r => findsBack_row fun cells hcells => ?_
    have hwidth : width r = cells.length := by simp [width, hcells]
    rw [hwidth]
    exact findsBack_lastStart cells.length
  have hin : ∀ i r, WordStart pane.grid.rows (i, r) → i < width r := by
    rintro i r ⟨cells, hcells, hstart⟩
    have hwidth : width r = cells.length := by simp [width, show pane.grid.rows[r]? = _ from hcells]
    rw [hwidth]
    exact lt_of_at hstart.1
  refine ⟨_, findsBackAt_rows (findsBack_row fun cells _ => findsBack_lastStart col) habove hin, ?_⟩
  unfold findPrevWordStart
  rw [hpane]
  rfl

/-- `e` goes to the next end of a word, or to the last position of the window. -/
theorem findWordEnd_spec (hpane : s.focusedPane = some pane) (col row maxCol maxRow : ℕ) :
    ∃ found, FindsAt (WordEnd pane.grid.rows) (col + 1, row) (max row maxRow) found ∧
      s.findWordEnd col row maxCol maxRow = some (found.getD (maxCol, maxRow)) := by
  refine ⟨_, findsAt_rows (finds_row fun cells => finds_nextEnd (col + 1))
    (fun r => finds_row fun cells => finds_nextEnd 0), ?_⟩
  unfold findWordEnd
  rw [hpane]
  rfl

end CopyMode

/-! ## The keys -/

/-- Visual selection mode variant. -/
inductive ViMode
  | normal
  | visual
  | visualLine
  deriving DecidableEq

/-- Copy mode and the window it is in. -/
structure CopyKeys extends CopyMode where
  isActive : Bool
  viMode : ViMode
  /-- Where `v` or `V` was pressed. -/
  selectionStart : Option (ℕ × ℕ)
  /-- The query while the user types it. -/
  searchInput : Option String
  /-- `g` was pressed once. -/
  ggPending : Bool

/-- What a key does: whether it is consumed, and what is copied to the clipboard. -/
structure KeyOutcome where
  next : CopyKeys
  consumed : Bool
  copied : Option String

namespace CopyKeys

/-- Copy mode at the start of the client. -/
def new (cols rows : ℕ) (focusedPane : Option PaneState) : CopyKeys where
  cols := cols
  rows := rows
  focusedPane := focusedPane
  cursorCol := 0
  cursorRow := 0
  lastSearchQuery := ""
  searchBackward := false
  isActive := false
  viMode := .normal
  selectionStart := none
  searchInput := none
  ggPending := false

/-- The cursor. -/
def cursor (s : CopyKeys) : ℕ × ℕ := (s.cursorCol, s.cursorRow)

/-- Enter copy mode and align the cursor to the pane cursor. -/
def enter (s : CopyKeys) (paneCursorCol paneCursorRow : ℕ) : CopyKeys :=
  { s with
    isActive := true
    cursorCol := paneCursorCol
    cursorRow := paneCursorRow
    viMode := .normal
    selectionStart := none
    ggPending := false }

/-- Exit copy mode and reset all transient state. -/
def exit (s : CopyKeys) : CopyKeys :=
  { s with
    isActive := false
    viMode := .normal
    selectionStart := none
    searchInput := none
    ggPending := false }

/-- Toggle a visual selection: character-wise for `v`, line-wise for `V`. -/
def toggle (s : CopyKeys) (mode : ViMode) : CopyKeys :=
  if s.viMode = mode then { s with viMode := .normal, selectionStart := none }
  else { s with viMode := mode, selectionStart := some s.cursor }

def toggleSelection (s : CopyKeys) : CopyKeys := s.toggle .visual

def toggleVisualLine (s : CopyKeys) : CopyKeys := s.toggle .visualLine

/-- The normalized character-wise selection range. -/
def normalizedSelection (s : CopyKeys) : Option ((ℕ × ℕ) × (ℕ × ℕ)) :=
  s.selectionStart.map fun start =>
    if start.2 < s.cursorRow ∨ start.2 = s.cursorRow ∧ start.1 ≤ s.cursorCol then (start, s.cursor)
    else (s.cursor, start)

/-- The row range of a line-wise selection. -/
def normalizedVisualLineRange (s : CopyKeys) : Option (ℕ × ℕ) :=
  s.selectionStart.map fun start =>
    if start.2 ≤ s.cursorRow then (start.2, s.cursorRow) else (s.cursorRow, start.2)

/-- The rows from `first` to `last`, as far as they exist, each turned into a line. -/
def joinRows (rows : List (List Cell)) (first last : ℕ) (line : ℕ → List Cell → List Cell) : String :=
  "\n".intercalate ((List.range' first (last + 1 - first)).filterMap fun r =>
    (rows[r]?).map fun row => String.ofList (cellChars (line r row)))

/-- The selected text. -/
def selectedText (s : CopyKeys) : String :=
  match s.viMode with
  | .visualLine =>
    match s.normalizedVisualLineRange with
    | some (sr, er) =>
      s.focusedPane.elim "" fun pane => joinRows pane.grid.rows sr er fun _ row => row
    | none => ""
  | _ =>
    match s.normalizedSelection with
    | some ((sc, sr), (ec, er)) =>
      s.focusedPane.elim "" fun pane => joinRows pane.grid.rows sr er fun r row =>
        let colStart := if r = sr then sc else 0
        let colEnd := if r = er then ec + 1 else row.length
        (row.take (min colEnd row.length)).drop (min colStart row.length)
    | none => ""

/-- The row of the cursor. -/
def currentLine (s : CopyKeys) : String :=
  s.focusedPane.elim "" fun pane =>
    ((pane.grid.rows[s.cursorRow]?).map fun row => String.ofList (cellChars row)).getD ""

/-- Copies a text, unless it is empty, and exits copy mode. -/
def yank (s : CopyKeys) (text : String) : KeyOutcome :=
  ⟨s.exit, true, if text.isEmpty then none else some text⟩

/-- Yank the selected text. -/
def yankSelection (s : CopyKeys) : KeyOutcome := s.yank s.selectedText

/-- Yank the entire cursor row. -/
def yankCurrentLine (s : CopyKeys) : KeyOutcome := s.yank s.currentLine

/-- A key that is consumed and copies nothing. -/
def done (s : CopyKeys) : KeyOutcome := ⟨s, true, none⟩

/-- The cursor goes to a position, if there is one. -/
def goTo (s : CopyKeys) : Option (ℕ × ℕ) → CopyKeys
  | some (col, row) => { s with cursorCol := col, cursorRow := row }
  | none => s

/-- Handle keys while the search query is typed. -/
def handleCopyModeSearchKey (s : CopyKeys) (code : WKeyCode) : KeyOutcome :=
  match code with
  | .escape => done { s with searchInput := none }
  | .enter =>
    let q := s.searchInput.getD ""
    let backward := s.searchBackward
    let s := { s with searchInput := none }
    if q.isEmpty then s.done
    else
      let maxCol := s.cols - 1
      let maxRow := s.rows - 1
      let result :=
        if backward then s.searchPrev q s.cursorCol s.cursorRow maxCol maxRow
        else s.searchForward q s.cursorCol s.cursorRow maxCol maxRow
      match result with
      | some p => done { s.goTo (some p) with lastSearchQuery := q }
      | none => s.done
  | .backspace => done { s with searchInput := s.searchInput.map fun q => String.ofList q.toList.dropLast }
  | _ => ⟨s, false, none⟩

/-- There are letters. -/
local instance neZeroLetters : NeZero 26 := ⟨by simp⟩

/-- The keys of copy mode; letters are numbered from `a`. -/
def handleNavigationKey (s : CopyKeys) (code : WKeyCode) (mods : ModifiersState) : KeyOutcome :=
  let maxCol := s.cols - 1
  let maxRow := s.rows - 1
  match code with
  | .key 16 | .escape => s.exit.done
  -- h, l, j, k
  | .key 7 | .arrowLeft => done { s with cursorCol := s.cursorCol - 1 }
  | .key 11 | .arrowRight =>
    done (if s.cursorCol < maxCol then { s with cursorCol := s.cursorCol + 1 } else s)
  | .key 9 | .arrowDown =>
    done (if s.cursorRow < maxRow then { s with cursorRow := s.cursorRow + 1 } else s)
  | .key 10 | .arrowUp => done { s with cursorRow := s.cursorRow - 1 }
  -- the beginning of the line, its end and its first character
  | .digit 0 => done { s with cursorCol := 0 }
  | .digit 4 => done { s with cursorCol := maxCol }
  | .digit 6 =>
    let firstNonblank := (s.focusedPane.bind fun pane => (pane.grid.rows[s.cursorRow]?).bind fun row =>
      row.findIdx? inWord).getD 0
    done { s with cursorCol := firstNonblank }
  -- g, u, d
  | .key 6 =>
    if mods.shift then done { s with cursorRow := maxRow, cursorCol := 0 }
    else done { s with ggPending := true }
  | .key 20 =>
    if mods.control then done { s with cursorRow := s.cursorRow - max (maxRow / 2) 1 }
    else ⟨s, false, none⟩
  | .key 3 =>
    if mods.control then done { s with cursorRow := min (s.cursorRow + max (maxRow / 2) 1) maxRow }
    else ⟨s, false, none⟩
  -- w, b, e
  | .key 22 => done (s.goTo (s.findNextWordStart s.cursorCol s.cursorRow maxCol maxRow))
  | .key 1 => done (s.goTo (s.findPrevWordStart s.cursorCol s.cursorRow))
  | .key 4 => done (s.goTo (s.findWordEnd s.cursorCol s.cursorRow maxCol maxRow))
  -- v, y
  | .key 21 => if mods.shift then s.toggleVisualLine.done else s.toggleSelection.done
  | .key 24 => if mods.shift then s.yankCurrentLine else s.yankSelection
  | .slash => done { s with searchInput := some "", searchBackward := mods.shift }
  | .key 13 => done { s with toCopyMode := s.toCopyMode.keyN mods.shift }
  | _ => ⟨s, false, none⟩

/-- Handle key input in copy mode. -/
def handleCopyModeKey (s : CopyKeys) (code : WKeyCode) (mods : ModifiersState) : KeyOutcome :=
  if s.searchInput.isSome then s.handleCopyModeSearchKey code
  else
    let wasGgPending := s.ggPending
    let s := { s with ggPending := false }
    if wasGgPending ∧ code = .key 6 ∧ mods.shift = false then
      done { s with cursorRow := 0, cursorCol := 0 }
    else s.handleNavigationKey code mods

/-- What happens to the client. -/
inductive Op
  /-- `Ctrl+[`. -/
  | ctrlBracket
  /-- Any other key that reaches copy mode. -/
  | key (code : WKeyCode) (mods : ModifiersState)
  /-- The focused pane has changed, or is another one. -/
  | pane (focusedPane : Option PaneState)
  | resize (cols rows : ℕ)

/-- What an operation does. -/
def perform (s : CopyKeys) : Op → KeyOutcome
  | .ctrlBracket =>
    if s.isActive then s.done
    else
      let (col, row) := s.focusedPane.elim (0, 0) fun pane => (pane.cursorCol, pane.cursorRow)
      (s.enter col row).done
  | .key code mods => if s.isActive then s.handleCopyModeKey code mods else ⟨s, false, none⟩
  | .pane focusedPane => ⟨{ s with focusedPane := focusedPane }, false, none⟩
  | .resize cols rows => ⟨{ s with cols := cols, rows := rows }, false, none⟩

def step (s : CopyKeys) (op : Op) : CopyKeys := (s.perform op).next

variable {s : CopyKeys} {pane : PaneState} {mods : ModifiersState}

/-! ## Words -/

/-- Copy mode is in a pane, and no query is typed. -/
structure Navigates (s : CopyKeys) (pane : PaneState) : Prop where
  isActive : s.isActive = true
  searchInput : s.searchInput = none
  focusedPane : s.focusedPane = some pane
  /-- The way back leads past the end of an empty row, which panics. -/
  nonempty : ∀ cells ∈ pane.grid.rows, cells ≠ []

/-- The last position of the window. -/
def corner (s : CopyKeys) : ℕ × ℕ := (s.cols - 1, s.rows - 1)

/-- A key that only moves the cursor. -/
theorem step_key (h : s.Navigates pane) {code : WKeyCode} (hcode : code ≠ .key 6) :
    s.step (.key code mods) = (handleNavigationKey { s with ggPending := false } code mods).next := by
  have hgg : ¬(s.ggPending = true ∧ code = .key 6 ∧ mods.shift = false) := fun hg => hcode hg.2.1
  simp only [step, perform, h.isActive, if_true, handleCopyModeKey, h.searchInput, Option.isSome_none,
    Bool.false_eq_true, if_false, hgg]

theorem step_w (h : s.Navigates pane) (mods : ModifiersState) : ∃ found,
    FindsAt (WordStart pane.grid.rows) (s.cursorCol + 1, s.cursorRow) (max s.cursorRow (s.rows - 1)) found ∧
      s.step (.key (.key 22) mods) = { s with
        ggPending := false
        cursorCol := (found.getD s.corner).1
        cursorRow := (found.getD s.corner).2 } := by
  obtain ⟨found, hfound, heq⟩ := s.toCopyMode.findNextWordStart_spec h.focusedPane s.cursorCol
    s.cursorRow (s.cols - 1) (s.rows - 1)
  refine ⟨found, hfound, ?_⟩
  rw [@step_key s pane mods h (.key 22) (by simp)]
  show (goTo { s with ggPending := false } _) = _
  rw [heq]
  rfl

theorem step_b (h : s.Navigates pane) (mods : ModifiersState) : ∃ found,
    FindsBackAt (WordStart pane.grid.rows) s.cursor found ∧
      (s.step (.key (.key 1) mods)).cursor = found.getD (0, 0) := by
  obtain ⟨found, hfound, heq⟩ := s.toCopyMode.findPrevWordStart_spec h.focusedPane s.cursorCol
    s.cursorRow
  refine ⟨found, hfound, ?_⟩
  rw [@step_key s pane mods h (.key 1) (by simp)]
  show (goTo { s with ggPending := false } _).cursor = _
  rw [heq]
  rfl

theorem step_e (h : s.Navigates pane) (mods : ModifiersState) : ∃ found,
    FindsAt (WordEnd pane.grid.rows) (s.cursorCol + 1, s.cursorRow) (max s.cursorRow (s.rows - 1)) found ∧
      (s.step (.key (.key 4) mods)).cursor = found.getD s.corner := by
  obtain ⟨found, hfound, heq⟩ := s.toCopyMode.findWordEnd_spec h.focusedPane s.cursorCol
    s.cursorRow (s.cols - 1) (s.rows - 1)
  refine ⟨found, hfound, ?_⟩
  rw [@step_key s pane mods h (.key 4) (by simp)]
  show (goTo { s with ggPending := false } _).cursor = _
  rw [heq]
  rfl

/-- The state after `w` has been pressed some times. -/
def pressW (mods : ModifiersState) (s : CopyKeys) (n : ℕ) : CopyKeys :=
  Runs.run step s (List.replicate n (.key (.key 22) mods))

/-- **Pressing `w` again and again** reaches every start of a word after the cursor.  Each press
    comes nearer to it, to another row or in its row. -/
theorem exists_pressW {q : ℕ × ℕ} (hq : WordStart pane.grid.rows q) (mods : ModifiersState)
    {s : CopyKeys} (h : s.Navigates pane) (hrow : q.2 ≤ max s.cursorRow (s.rows - 1))
    (hreads : Reads (s.cursorCol + 1, s.cursorRow) q) : ∃ n, (pressW mods s (n + 1)).cursor = q := by
  obtain ⟨found, hfound, hstep⟩ := step_w h mods
  cases found with
  | none => exact absurd hq (hfound q hreads hrow)
  | some p =>
    obtain ⟨hp, hnext, hprow, hleast⟩ := hfound
    have hpq : Reads p q := hleast q hq hreads hrow
    rw [Option.getD_some] at hstep
    by_cases heq : p = q
    · refine ⟨0, ?_⟩
      show (s.step _).cursor = q
      rw [hstep]
      exact heq
    · have hgap : Reads (p.1 + 1, p.2) q := by
        have hne : p.2 = q.2 → p.1 ≠ q.1 := fun hr hc => heq (Prod.ext hc hr)
        unfold Reads at hpq ⊢
        dsimp only
        omega
      have hlt : p.1 < ((pane.grid.rows[p.2]?).getD []).length := by
        obtain ⟨cells, hcells, hstart⟩ := hp
        rw [hcells]
        exact lt_of_at hstart.1
      have hmono := hnext.row_le
      have hend := hpq.row_le
      obtain ⟨n, hn⟩ := exists_pressW hq mods (s := { s with
        ggPending := false
        cursorCol := p.1
        cursorRow := p.2 }) ⟨h.isActive, h.searchInput, h.focusedPane, h.nonempty⟩
        (by dsimp only at hmono ⊢; omega) hgap
      refine ⟨n + 1, ?_⟩
      rw [← hn, ← hstep]
      rfl
termination_by (q.2 - s.cursorRow, ((pane.grid.rows[s.cursorRow]?).getD []).length - s.cursorCol)
decreasing_by
  rcases hnext with hbelow | ⟨hsame, hcol⟩
  · exact Prod.Lex.left _ _ (by dsimp only at hbelow ⊢; omega)
  · have hsame' : p.2 = s.cursorRow := hsame.symm
    rw [hsame'] at hlt ⊢
    exact Prod.Lex.right _ (by dsimp only at hcol ⊢; omega)

/-- **The keys for words.**  `w` goes to the next start of a word, `b` to the last one before the
    cursor, and `e` to the next end; from a start, `b` takes `w` back; and pressing `w` again and
    again comes to every start after the cursor. -/
theorem word_keys (h : s.Navigates pane) (mods : ModifiersState) :
    let rows := pane.grid.rows
    let next := (s.cursorCol + 1, s.cursorRow)
    let maxRow := max s.cursorRow (s.rows - 1)
    (∃ found, FindsAt (WordStart rows) next maxRow found ∧
      (s.step (.key (.key 22) mods)).cursor = found.getD s.corner) ∧
    (∃ found, FindsBackAt (WordStart rows) s.cursor found ∧
      (s.step (.key (.key 1) mods)).cursor = found.getD (0, 0)) ∧
    (∃ found, FindsAt (WordEnd rows) next maxRow found ∧
      (s.step (.key (.key 4) mods)).cursor = found.getD s.corner) ∧
    ∀ q, WordStart rows q → q.2 ≤ maxRow → Reads next q →
      (WordStart rows s.cursor →
        (Runs.run step s [.key (.key 22) mods, .key (.key 1) mods]).cursor = s.cursor) ∧
      ∃ n, (pressW mods s (n + 1)).cursor = q := by
  intro rows next maxRow
  obtain ⟨found, hfound, hstep⟩ := step_w h mods
  have hcursor : (s.step (.key (.key 22) mods)).cursor = found.getD s.corner := by
    rw [hstep]
    rfl
  refine ⟨⟨found, hfound, hcursor⟩, step_b h mods, step_e h mods, fun q hq hrow hreads => ⟨?_, ?_⟩⟩
  · intro hstart
    cases found with
    | none => exact absurd hq (hfound q hreads hrow)
    | some p =>
      have hnav : (s.step (.key (.key 22) mods)).Navigates pane := by
        rw [hstep]
        exact ⟨h.isActive, h.searchInput, h.focusedPane, h.nonempty⟩
      obtain ⟨back, hback, hb⟩ := step_b hnav mods
      rw [hcursor] at hback
      rw [eq_of_findsAt hstart hfound hback] at hb
      exact hb
  · exact exists_pressW hq mods h hrow hreads

/-- Copy mode in a pane that shows some lines of four characters. -/
def inPane (lines : List String) : CopyKeys :=
  { CopyKeys.new 4 lines.length (some (paneOf lines)) with isActive := true }

def plain : ModifiersState := ⟨false, false, false, false⟩

/-- There and back again, and on to the last word. -/
theorem word_keys_two :
    let s := inPane ["ab c", "d  e"]
    (Runs.run step s [.key (.key 22) plain, .key (.key 1) plain]).cursor = (0, 0) ∧
      ∃ n, (pressW plain s (n + 1)).cursor = (3, 1) := by
  intro s
  have hnav : s.Navigates (paneOf ["ab c", "d  e"]) := ⟨rfl, rfl, rfl, by decide⟩
  obtain ⟨-, -, -, hwords⟩ := word_keys hnav plain
  have hfirst : WordStart (paneOf ["ab c", "d  e"]).grid.rows (0, 0) := ⟨_, rfl, rfl, .inl rfl⟩
  have hlast : WordStart (paneOf ["ab c", "d  e"]).grid.rows (3, 1) := ⟨_, rfl, rfl, .inr nofun⟩
  obtain ⟨hback, hreach⟩ := hwords (3, 1) hlast (by decide) (by decide)
  exact ⟨hback hfirst, hreach⟩

/-! ## Selections -/

/-- The text of the cells between two positions, row by row. -/
def textBetween (rows : List (List Cell)) (first last : ℕ × ℕ) : String :=
  joinRows rows first.2 last.2 fun r row =>
    (row.zipIdx.filter fun x => Reads first (x.2, r) ∧ Reads (x.2, r) last).map (·.1)

/-- The text from where a selection was begun to the cursor, in one of the visual modes. -/
def selection (rows : List (List Cell)) (mode : ViMode) (anchor cursor : ℕ × ℕ) : String :=
  if mode = .visualLine then
    joinRows rows (min anchor.2 cursor.2) (max anchor.2 cursor.2) fun _ row => row
  else textBetween rows (earlier anchor cursor) (later anchor cursor)

/-- The user begins a selection at the cursor. -/
def Begins (mode : ViMode) (anchor : ℕ × ℕ) (s : CopyKeys) (op : Op) : Prop :=
  s.isActive = true ∧ s.searchInput = none ∧ s.viMode ≠ mode ∧ s.cursor = anchor ∧
    ∃ mods : ModifiersState, op = .key (.key 21) mods ∧
      mode = if mods.shift then .visualLine else .visual

/-- The operation leaves a selection alone: it is no `v`, `y`, `q` or escape. -/
def Keeps (s : CopyKeys) : Op → Prop
  | .ctrlBracket => s.isActive = true
  | .key code _ => s.isActive = true → s.searchInput = none → code ∉ [.key 21, .key 24, .key 16, .escape]
  | _ => True

/-- What a key does that only moves the cursor or starts a search. -/
structure Quiet (s : CopyKeys) (out : KeyOutcome) : Prop where
  copied : out.copied = none
  isActive : out.next.isActive = s.isActive
  viMode : out.next.viMode = s.viMode
  selectionStart : out.next.selectionStart = s.selectionStart
  lastSearchQuery : s.lastSearchQuery = "" → out.next.lastSearchQuery = ""
  searchInput : (∀ q ∈ s.searchInput, q = "") → ∀ q ∈ out.next.searchInput, q = ""

theorem quiet_goTo (s : CopyKeys) (p : Option (ℕ × ℕ)) : Quiet s (s.goTo p).done := by
  cases p <;> exact ⟨rfl, rfl, rfl, rfl, id, id⟩

theorem keyN_eq_self {s : CopyMode} (h : s.lastSearchQuery = "") (shift : Bool) : s.keyN shift = s := by
  rw [CopyMode.keyN, h]
  rfl

/-- Every other key of copy mode. -/
theorem quiet_navigation (hquery : s.lastSearchQuery = "") {code : WKeyCode}
    (h : code ∉ [.key 21, .key 24, .key 16, .escape]) (mods : ModifiersState) :
    Quiet s (s.handleNavigationKey code mods) := by
  have hself : Quiet s ⟨s, false, none⟩ := ⟨rfl, rfl, rfl, rfl, id, id⟩
  unfold handleNavigationKey
  dsimp only
  split
  -- q, escape
  case h_1 | h_2 => simp at h
  -- h, l, j, k and the arrows
  case h_3 | h_4 | h_9 | h_10 => exact ⟨rfl, rfl, rfl, rfl, id, id⟩
  case h_5 | h_6 | h_7 | h_8 => split_ifs <;> exact ⟨rfl, rfl, rfl, rfl, id, id⟩
  -- 0, 4, 6
  case h_11 | h_12 | h_13 => exact ⟨rfl, rfl, rfl, rfl, id, id⟩
  -- g, u, d
  case h_14 | h_15 | h_16 => split_ifs <;> exact ⟨rfl, rfl, rfl, rfl, id, id⟩
  -- w, b, e
  case h_17 | h_18 | h_19 => exact quiet_goTo s _
  -- v, y
  case h_20 | h_21 => simp at h
  case h_22 => exact ⟨rfl, rfl, rfl, rfl, id, fun _ q hq => (Option.some_inj.1 hq).symm⟩
  case h_23 =>
    rw [keyN_eq_self hquery]
    exact ⟨rfl, rfl, rfl, rfl, id, id⟩
  case h_24 => exact hself

/-- The keys while the search is open.  None of them puts a character into the query. -/
theorem quiet_search (hinput : ∀ q ∈ s.searchInput, q = "") (code : WKeyCode) :
    Quiet s (s.handleCopyModeSearchKey code) := by
  unfold handleCopyModeSearchKey
  split
  case h_1 => exact ⟨rfl, rfl, rfl, rfl, id, nofun⟩
  case h_2 =>
    have hempty : s.searchInput.getD "" = "" := by
      cases hs : s.searchInput with
      | none => rfl
      | some q => exact hinput q hs
    rw [hempty]
    exact ⟨rfl, rfl, rfl, rfl, id, nofun⟩
  case h_3 =>
    refine ⟨rfl, rfl, rfl, rfl, id, fun _ q hq => ?_⟩
    obtain ⟨q', hq', rfl⟩ := Option.mem_map.1 hq
    rw [hinput q' hq']
    rfl
  case h_4 => exact ⟨rfl, rfl, rfl, rfl, id, id⟩

/-- No query has been entered. -/
structure Unsearched (s : CopyKeys) : Prop where
  lastSearchQuery : s.lastSearchQuery = ""
  searchInput : ∀ q ∈ s.searchInput, q = ""

theorem Quiet.unsearched {out : KeyOutcome} (h : Quiet s out) (hs : s.Unsearched) :
    out.next.Unsearched := ⟨h.lastSearchQuery hs.lastSearchQuery, h.searchInput hs.searchInput⟩

theorem Unsearched.toggle (h : s.Unsearched) (mode : ViMode) :
    (CopyKeys.toggle { s with ggPending := false } mode).Unsearched := by
  unfold CopyKeys.toggle
  split_ifs <;> exact ⟨h.lastSearchQuery, h.searchInput⟩

/-- What a step does to the selection. -/
inductive Effect (s : CopyKeys) (op : Op) (s' : CopyKeys) : Prop
  | kept (keeps : Keeps s op) (viMode : s'.viMode = s.viMode)
    (selectionStart : s'.selectionStart = s.selectionStart)
  | begun (mode : ViMode) (begins : Begins mode s.cursor s op) (viMode : s'.viMode = mode)
    (selectionStart : s'.selectionStart = some s.cursor)
  | ended (ends : ¬Keeps s op) (viMode : s'.viMode = .normal) (selectionStart : s'.selectionStart = none)
    (notBegins : ∀ mode anchor, ¬Begins mode anchor s op)

theorem Quiet.effect {out : KeyOutcome} {op : Op} (h : Quiet s out) (hkeeps : Keeps s op) :
    Effect s op out.next := .kept hkeeps h.viMode h.selectionStart

/-- `v` and `V`. -/
theorem toggle_effect (hactive : s.isActive = true) (hinput : s.searchInput = none)
    (mods : ModifiersState) {mode : ViMode} (hmode : mode = if mods.shift then .visualLine else .visual) :
    Effect s (.key (.key 21) mods) (toggle { s with ggPending := false } mode) := by
  unfold toggle
  split_ifs with heq
  · refine .ended (fun h => h hactive hinput (by simp)) rfl rfl ?_
    rintro mode' anchor ⟨-, -, hne, -, mods', hop, hmode'⟩
    cases hop
    exact hne (heq.trans (hmode.trans hmode'.symm))
  · exact .begun mode ⟨hactive, hinput, heq, rfl, mods, rfl, hmode⟩ rfl rfl

/-- The key leads out of copy mode. -/
theorem exit_effect {code : WKeyCode} (hactive : s.isActive = true) (hinput : s.searchInput = none)
    (hcode : code ∈ [.key 24, .key 16, .escape]) (mods : ModifiersState) :
    Effect s (.key code mods) (exit { s with ggPending := false }) := by
  refine .ended (fun h => h hactive hinput (List.mem_cons_of_mem _ hcode)) rfl rfl ?_
  rintro mode anchor ⟨-, -, -, -, mods', hop, -⟩
  cases hop
  simp at hcode

theorem perform_key (hactive : s.isActive = true) (code : WKeyCode) (mods : ModifiersState) :
    s.perform (.key code mods) = s.handleCopyModeKey code mods := by
  simp only [perform, hactive, if_true]

theorem handleCopyModeKey_none (hinput : s.searchInput = none) (code : WKeyCode) (mods : ModifiersState) :
    s.handleCopyModeKey code mods =
      if s.ggPending = true ∧ code = .key 6 ∧ mods.shift = false then
        done { s with ggPending := false, cursorRow := 0, cursorCol := 0 }
      else handleNavigationKey { s with ggPending := false } code mods := by
  simp only [handleCopyModeKey, hinput, Option.isSome_none, Bool.false_eq_true, if_false]

/-- The keys that begin or end a selection. -/
theorem marking_spec (hs : s.Unsearched) (hactive : s.isActive = true) (hinput : s.searchInput = none)
    {code : WKeyCode} (hcode : code ∈ [.key 21, .key 24, .key 16, .escape]) (mods : ModifiersState) :
    let s' := (handleNavigationKey { s with ggPending := false } code mods).next
    s'.Unsearched ∧ Effect s (.key code mods) s' := by
  intro s'
  rcases List.mem_cons.1 hcode with rfl | hexit
  · have htoggle : s' = toggle { s with ggPending := false }
        (if mods.shift then .visualLine else .visual) := by
      show (if mods.shift then toggleVisualLine { s with ggPending := false } |>.done
        else toggleSelection { s with ggPending := false } |>.done).next = _
      split_ifs <;> rfl
    rw [htoggle]
    exact ⟨hs.toggle _, toggle_effect hactive hinput mods rfl⟩
  · have hleave : s' = exit { s with ggPending := false } := by
      simp only [List.mem_cons, List.not_mem_nil, or_false] at hexit
      rcases hexit with rfl | rfl | rfl
      · show (if mods.shift then yankCurrentLine { s with ggPending := false }
          else yankSelection { s with ggPending := false }).next = _
        split_ifs <;> rfl
      · rfl
      · rfl
    rw [hleave]
    exact ⟨⟨hs.lastSearchQuery, nofun⟩, exit_effect hactive hinput hexit mods⟩

theorem step_spec (hs : s.Unsearched) (op : Op) : (s.step op).Unsearched ∧ Effect s op (s.step op) := by
  cases op with
  | ctrlBracket =>
    unfold step
    simp only [perform]
    split_ifs with hactive
    · exact ⟨hs, .kept hactive rfl rfl⟩
    · exact ⟨⟨hs.lastSearchQuery, hs.searchInput⟩, .ended hactive rfl rfl nofun⟩
  | pane focusedPane => exact ⟨⟨hs.lastSearchQuery, hs.searchInput⟩, .kept trivial rfl rfl⟩
  | resize cols rows => exact ⟨⟨hs.lastSearchQuery, hs.searchInput⟩, .kept trivial rfl rfl⟩
  | key code mods =>
    unfold step
    by_cases hactive : s.isActive = true
    · rw [perform_key hactive]
      cases hinput : s.searchInput with
      | some q =>
        rw [handleCopyModeKey, hinput, Option.isSome_some, if_pos rfl]
        have hquiet := quiet_search hs.searchInput code
        exact ⟨hquiet.unsearched hs, hquiet.effect fun _ hnone => by rw [hinput] at hnone; cases hnone⟩
      | none =>
        rw [handleCopyModeKey_none hinput]
        split_ifs with hgg
        · exact ⟨⟨hs.lastSearchQuery, hs.searchInput⟩, .kept (fun _ _ => by simp [hgg.2.1]) rfl rfl⟩
        · by_cases hcode : code ∈ [.key 21, .key 24, .key 16, .escape]
          · exact marking_spec hs hactive hinput hcode mods
          · have hquiet := @quiet_navigation { s with ggPending := false } hs.lastSearchQuery code hcode mods
            exact ⟨hquiet.unsearched ⟨hs.lastSearchQuery, hs.searchInput⟩,
              .kept (fun _ _ => hcode) hquiet.viMode hquiet.selectionStart⟩
    · simp only [perform, if_neg hactive]
      exact ⟨hs, .kept (fun h => absurd h hactive) rfl rfl⟩

theorem Begins.not_keeps {mode : ViMode} {anchor : ℕ × ℕ} {op : Op} (h : Begins mode anchor s op) :
    ¬Keeps s op := by
  obtain ⟨hactive, hinput, -, -, mods, rfl, -⟩ := h
  intro hkeeps
  exact hkeeps hactive hinput (by simp)

theorem Begins.unique {mode mode' : ViMode} {anchor anchor' : ℕ × ℕ} {op : Op}
    (h : Begins mode anchor s op) (h' : Begins mode' anchor' s op) : mode = mode' ∧ anchor = anchor' := by
  obtain ⟨-, -, -, hanchor, mods, rfl, hmode⟩ := h
  obtain ⟨-, -, -, hanchor', mods', hop, hmode'⟩ := h'
  cases hop
  exact ⟨hmode.trans hmode'.symm, hanchor.symm.trans hanchor'⟩

theorem Begins.ne_normal {mode : ViMode} {anchor : ℕ × ℕ} {op : Op} (h : Begins mode anchor s op) :
    mode ≠ .normal := by
  obtain ⟨-, -, -, -, mods, -, rfl⟩ := h
  split_ifs <;> simp

/-- Where the selection of a run was begun. -/
structure Marked (s₀ : CopyKeys) (ops : List Op) (s : CopyKeys) : Prop where
  unsearched : s.Unsearched
  normal : s.viMode = .normal ↔ s.selectionStart = none
  since : ∀ mode anchor, s.viMode = mode ∧ s.selectionStart = some anchor ↔
    Runs.Since step (Begins mode anchor) Keeps s₀ ops

theorem marked_step {s₀ : CopyKeys} {ops : List Op} (h : Marked s₀ ops (Runs.run step s₀ ops)) (op : Op) :
    Marked s₀ (ops ++ [op]) ((Runs.run step s₀ ops).step op) := by
  obtain ⟨hs, heffect⟩ := step_spec h.unsearched op
  have hconcat : ∀ mode anchor, Runs.Since step (Begins mode anchor) Keeps s₀ (ops ++ [op]) ↔
      Begins mode anchor (Runs.run step s₀ ops) op ∨
        ((Runs.run step s₀ ops).viMode = mode ∧ (Runs.run step s₀ ops).selectionStart = some anchor) ∧
          Keeps (Runs.run step s₀ ops) op := by
    intro mode anchor
    rw [Runs.since_concat, h.since]
  cases heffect with
  | kept hkeeps hmode hstart =>
    refine ⟨hs, by rw [hmode, hstart]; exact h.normal, fun mode anchor => ?_⟩
    have hnot : ¬Begins mode anchor (Runs.run step s₀ ops) op := fun hb => hb.not_keeps hkeeps
    rw [hconcat, hmode, hstart, or_iff_right hnot, and_iff_left hkeeps]
  | begun mode hbegins hmode hstart =>
    refine ⟨hs, by simp [hmode, hstart, hbegins.ne_normal], fun mode' anchor => ?_⟩
    rw [hconcat, hmode, hstart]
    constructor
    · rintro ⟨rfl, hanchor⟩
      obtain rfl := Option.some_inj.1 hanchor
      exact .inl hbegins
    · rintro (hb | ⟨-, hkeeps⟩)
      · exact (hbegins.unique hb).imp_right (congrArg some)
      · exact absurd hkeeps hbegins.not_keeps
  | ended hends hmode hstart hnot =>
    refine ⟨hs, by simp [hmode, hstart], fun mode anchor => ?_⟩
    rw [hconcat, hstart]
    constructor
    · rintro ⟨-, hnone⟩
      cases hnone
    · rintro (hb | ⟨-, hkeeps⟩)
      · exact absurd hb (hnot mode anchor)
      · exact absurd hkeeps hends

theorem marked_run (cols rows : ℕ) (focusedPane : Option PaneState) (ops : List Op) :
    Marked (new cols rows focusedPane) ops (Runs.run step (new cols rows focusedPane) ops) := by
  induction ops using List.reverseRecOn with
  | nil =>
    refine ⟨⟨rfl, nofun⟩, by simp [Runs.run, new], fun mode anchor => ?_⟩
    refine iff_of_false (fun h => ?_) (Runs.not_since_nil _)
    cases h.2
  | append_singleton ops op ih =>
    rw [Runs.run_concat]
    exact marked_step ih op

/-! ## The text -/

/-- The cells of a selected row, as `selectedText` cuts them out, are those between the ends. -/
theorem selected_row {first last : ℕ × ℕ} {r : ℕ} (hfirst : first.2 ≤ r) (hlast : r ≤ last.2)
    (row : List Cell) :
    (row.take (min (if r = last.2 then last.1 + 1 else row.length) row.length)).drop
        (min (if r = first.2 then first.1 else 0) row.length) =
      (row.zipIdx.filter fun x => Reads first (x.2, r) ∧ Reads (x.2, r) last).map (·.1) := by
  have hpiece := take_drop_eq_filter (min (if r = first.2 then first.1 else 0) row.length)
    (min (if r = last.2 then last.1 + 1 else row.length) row.length) row 0
  rw [Nat.sub_zero, Nat.sub_zero] at hpiece
  rw [hpiece]
  refine congrArg _ (List.filter_congr fun x hx => ?_)
  have hlt : x.2 < row.length := by
    obtain ⟨-, hlt, -⟩ := List.mem_zipIdx hx
    simpa using hlt
  unfold Reads
  rw [decide_eq_decide]
  dsimp only
  split_ifs <;> omega

theorem joinRows_congr {rows : List (List Cell)} {first last : ℕ} {line line' : ℕ → List Cell → List Cell}
    (h : ∀ r row, first ≤ r → r ≤ last → line r row = line' r row) :
    joinRows rows first last line = joinRows rows first last line' := by
  unfold joinRows
  refine congrArg _ (List.filterMap_congr fun r hr => ?_)
  have hr' := List.mem_range'_1.1 hr
  simp only [h r _ hr'.1 (by omega)]

theorem selectedText_eq {anchor : ℕ × ℕ} (hmode : s.viMode ≠ .normal)
    (hstart : s.selectionStart = some anchor) :
    s.selectedText = s.focusedPane.elim "" fun pane => selection pane.grid.rows s.viMode anchor s.cursor := by
  unfold selectedText selection
  cases hs : s.viMode with
  | normal => exact absurd hs hmode
  | visualLine =>
    have hrange : s.normalizedVisualLineRange =
        some (min anchor.2 s.cursor.2, max anchor.2 s.cursor.2) := by
      rw [normalizedVisualLineRange, hstart, Option.map_some]
      have hrow : s.cursor.2 = s.cursorRow := rfl
      split_ifs with hle
      · rw [hrow, min_eq_left hle, max_eq_right hle]
      · rw [hrow, min_eq_right (not_le.1 hle).le, max_eq_left (not_le.1 hle).le]
    rw [hrange]
    rfl
  | visual =>
    have hrange : s.normalizedSelection = some (earlier anchor s.cursor, later anchor s.cursor) := by
      rw [normalizedSelection, hstart, Option.map_some]
      unfold earlier later
      by_cases hreads : Reads anchor s.cursor
      · rw [if_pos hreads, if_pos hreads]
        exact congrArg some (if_pos hreads)
      · rw [if_neg hreads, if_neg hreads]
        exact congrArg some (if_neg hreads)
    rw [hrange]
    cases s.focusedPane with
    | none => rfl
    | some pane => exact joinRows_congr fun r row hfirst hlast => selected_row hfirst hlast row

/-- Without a selection nothing is selected. -/
theorem selectedText_none (hmode : s.viMode = .normal) (hstart : s.selectionStart = none) :
    s.selectedText = "" := by
  rw [selectedText, hmode, normalizedSelection, hstart]
  rfl

theorem selectedText_unfocused (h : s.focusedPane = none) : s.selectedText = "" := by
  unfold selectedText
  rw [h]
  split <;> split <;> rfl

theorem yank_copied (s : CopyKeys) (text text' : String) :
    (s.yank text).copied = some text' ↔ text' ≠ "" ∧ text' = text := by
  unfold yank
  dsimp only
  split_ifs with hempty
  · rw [String.isEmpty_iff] at hempty
    simp only [hempty, ne_eq, false_iff, not_and]
    exact id
  · rw [String.isEmpty_iff] at hempty
    rw [Option.some_inj]
    constructor
    · rintro rfl
      exact ⟨hempty, rfl⟩
    · rintro ⟨-, rfl⟩
      rfl

theorem perform_y (hactive : s.isActive = true) (hinput : s.searchInput = none) (mods : ModifiersState) :
    s.perform (.key (.key 24) mods) =
      yank { s with ggPending := false } (if mods.shift then s.currentLine else s.selectedText) := by
  rw [perform_key hactive, handleCopyModeKey_none hinput, if_neg (by simp)]
  show (if mods.shift then yankCurrentLine { s with ggPending := false }
    else yankSelection { s with ggPending := false }) = _
  split_ifs <;> rfl

/-- Any other operation copies nothing. -/
theorem copied_eq_none (hs : s.Unsearched) {op : Op}
    (h : s.isActive = true → s.searchInput = none → ∀ mods, op ≠ .key (.key 24) mods) :
    (s.perform op).copied = none := by
  cases op with
  | ctrlBracket =>
    simp only [perform]
    split_ifs <;> rfl
  | pane focusedPane => rfl
  | resize cols rows => rfl
  | key code mods =>
    by_cases hactive : s.isActive = true
    · rw [perform_key hactive]
      cases hinput : s.searchInput with
      | some q =>
        rw [handleCopyModeKey, hinput, Option.isSome_some, if_pos rfl]
        exact (quiet_search hs.searchInput code).copied
      | none =>
        rw [handleCopyModeKey_none hinput]
        split_ifs with hgg
        · rfl
        · by_cases hcode : code ∈ [.key 21, .key 24, .key 16, .escape]
          · have hy : code ≠ .key 24 := fun hy => h hactive hinput mods (hy ▸ rfl)
            simp only [List.mem_cons, List.not_mem_nil, or_false, hy, false_or] at hcode
            rcases hcode with rfl | rfl | rfl
            · show (if mods.shift then toggleVisualLine { s with ggPending := false } |>.done
                else toggleSelection { s with ggPending := false } |>.done).copied = none
              split_ifs <;> rfl
            · rfl
            · rfl
          · exact (@quiet_navigation { s with ggPending := false } hs.lastSearchQuery code hcode mods).copied
    · simp only [perform, if_neg hactive]

/-- What is copied in a run that has come to this state. -/
def Copies (start : CopyKeys) (ops : List Op) (pane : PaneState) (shift : Bool) (text : String) : Prop :=
  let s := Runs.run step start ops
  if shift then ∃ row, pane.grid.rows[s.cursorRow]? = some row ∧ text = String.ofList (cellChars row)
  else ∃ mode anchor, Runs.Since step (Begins mode anchor) Keeps start ops ∧
    text = selection pane.grid.rows mode anchor s.cursor

theorem copies_iff {start : CopyKeys} {ops : List Op} (h : Marked start ops (Runs.run step start ops))
    {text : String} (htext : text ≠ "") (shift : Bool) :
    let s := Runs.run step start ops
    text = (if shift then s.currentLine else s.selectedText) ↔
      ∃ pane, s.focusedPane = some pane ∧ Copies start ops pane shift text := by
  intro s
  have hpane : ∀ pane, s.focusedPane = some pane →
      (text = (if shift then s.currentLine else s.selectedText) ↔ Copies start ops pane shift text) := by
    intro pane hpane
    unfold Copies
    dsimp only
    split_ifs with hshift
    · rw [currentLine, hpane]
      cases hrow : pane.grid.rows[s.cursorRow]? with
      | none => simpa [s, hrow] using htext
      | some row => simp [s, hrow]
    · by_cases hmode : s.viMode = .normal
      · have hnone := h.normal.1 hmode
        refine iff_of_false ?_ ?_
        · rw [selectedText_none hmode hnone]
          exact htext
        · rintro ⟨mode, anchor, hsince, -⟩
          have hstart := ((h.since mode anchor).2 hsince).2
          rw [hnone] at hstart
          cases hstart
      · obtain ⟨anchor, hanchor⟩ := Option.ne_none_iff_exists'.1 fun hnone => hmode (h.normal.2 hnone)
        rw [selectedText_eq hmode hanchor, hpane]
        constructor
        · intro heq
          exact ⟨s.viMode, anchor, (h.since _ _).1 ⟨rfl, hanchor⟩, heq⟩
        · rintro ⟨mode, anchor', hsince, heq⟩
          obtain ⟨hmode', hanchor'⟩ := (h.since mode anchor').2 hsince
          obtain rfl := Option.some_inj.1 (hanchor.symm.trans hanchor')
          rw [heq, ← hmode']
          rfl
  cases hfocus : s.focusedPane with
  | none =>
    refine iff_of_false ?_ ?_
    · rw [currentLine, selectedText_unfocused hfocus, hfocus, Option.elim_none, ite_self]
      exact htext
    · rintro ⟨pane, hnone, -⟩
      cases hnone
  | some pane =>
    rw [hpane pane hfocus]
    constructor
    · intro hcopies
      exact ⟨pane, rfl, hcopies⟩
    · rintro ⟨pane', hpane', hcopies⟩
      obtain rfl := Option.some_inj.1 hpane'
      exact hcopies

/-- **What copy mode copies.**  In every run of the client, `Y` copies the row of the cursor, and
    `y` the text between the cursor and where a selection was begun that nothing has ended since;
    no other key copies anything, and no query is ever entered. -/
theorem copy_run (cols rows : ℕ) (focusedPane : Option PaneState) (ops : List Op) :
    let start := new cols rows focusedPane
    let s := Runs.run step start ops
    s.Unsearched ∧ ∀ op text, (s.perform op).copied = some text ↔
      s.isActive = true ∧ s.searchInput = none ∧ text ≠ "" ∧ ∃ mods pane,
        op = .key (.key 24) mods ∧ s.focusedPane = some pane ∧
          Copies start ops pane mods.shift text := by
  intro start s
  have hmarked := marked_run cols rows focusedPane ops
  refine ⟨hmarked.unsearched, fun op text => ?_⟩
  constructor
  · intro hcopied
    by_cases hy : s.isActive = true ∧ s.searchInput = none ∧ ∃ mods, op = .key (.key 24) mods
    · obtain ⟨hactive, hinput, mods, rfl⟩ := hy
      rw [perform_y hactive hinput, yank_copied] at hcopied
      obtain ⟨htext, heq⟩ := hcopied
      obtain ⟨pane, hpane, hcopies⟩ := (copies_iff hmarked htext mods.shift).1 heq
      exact ⟨hactive, hinput, htext, mods, pane, rfl, hpane, hcopies⟩
    · have hnone : (s.perform op).copied = none := copied_eq_none hmarked.unsearched
        fun hactive hinput mods hop => hy ⟨hactive, hinput, mods, hop⟩
      rw [hnone] at hcopied
      cases hcopied
  · rintro ⟨hactive, hinput, htext, mods, pane, rfl, hpane, hcopies⟩
    rw [perform_y hactive hinput, yank_copied]
    exact ⟨htext, (copies_iff hmarked htext mods.shift).2 ⟨pane, hpane, hcopies⟩⟩

end CopyKeys

end Nexterm.Client

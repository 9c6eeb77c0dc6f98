/-
  The primary screen as a window on a roll of paper (`screen.rs`).

  * `Roll`: every row there has been, of which the last ones are in the window.  A line feed at the
    bottom of the window adds a row; no operation reaches a row above the window.
  * `Roll.perform`: what an action means on the roll.
  * `Screen.Front`, `Screen.Back`: a screen shows the window, or the alternate screen is in front
    of it.
  * `Log.roll_run`: the lines that a screen hands out, those that wait for it and the rows of its
    primary buffer are the rows of the roll, over runs that keep the region of the primary screen
    whole and the size as it is.

  The screen scrolls by copying each row from the row below and retains the first one.
-/
import Nexterm.Vt.Scrollback

namespace Nexterm.Vt

/-- A roll of paper; the last `height` rows are in the window, and the cursor is in one of them. -/
structure Roll where
  width : ℕ
  height : ℕ
  rows : List (List Cell)
  col : ℕ
  line : ℕ
  style : Style
  /-- Something else is in front of the window. -/
  away : Bool

namespace Roll

/-- A blank roll. -/
def new (width height : ℕ) : Roll := ⟨width, height, Grid.blankRows width height, 0, 0, {}, false⟩

/-- How many rows are above the window. -/
def top (r : Roll) : ℕ := r.rows.length - r.height

/-- The rows above the window. -/
def gone (r : Roll) : List (List Cell) := r.rows.take r.top

/-- The rows in the window. -/
def window (r : Roll) : List (List Cell) := r.rows.drop r.top

/-- Edits the rows in the window. -/
def onWindow (r : Roll) (f : List (List Cell) → List (List Cell)) : Roll :=
  { r with rows := r.gone ++ f r.window }

/-- Moves the cursor to a place in the window. -/
def moveTo (r : Roll) (col line : ℕ) : Roll :=
  { r with col := min col (r.width - 1), line := min line (r.height - 1) }

/-- Goes down a line; at the bottom of the window the roll gets a row. -/
def feed (r : Roll) : Roll :=
  if r.line + 1 ≥ r.height then { r with rows := r.rows ++ [Grid.blankRow r.width] }
  else { r with line := r.line + 1 }

/-- Writes a cell and goes right. -/
def put (r : Roll) (cell : Cell) : Roll :=
  { r.onWindow (·.modify r.line (·.set r.col cell)) with col := r.col + 1 }

/-- Goes to the start of the next line. -/
def nextLine (r : Roll) : Roll := { r with col := 0 }.feed

/-- Goes to the next line if the condition holds. -/
def wrapIf (r : Roll) (c : Prop) [Decidable c] : Roll := if c then r.nextLine else r

/-- Writes a character; what does not fit goes to the next line. -/
def print (r : Roll) (ch : Char) (charWidth : ℕ) : Roll :=
  let r := r.wrapIf (r.col ≥ r.width)
  let r := r.wrapIf (charWidth = 2 ∧ r.col + 1 ≥ r.width)
  let r := r.put (r.style.cell ch)
  if charWidth = 2 ∧ r.col < r.width then r.put (r.style.cell ' ') else r

/-- The rows with the cells blanked where `P` holds. -/
def blanked (P : ℕ → ℕ → Bool) (rows : List (List Cell)) : List (List Cell) :=
  rows.mapIdx fun i cells => cells.mapIdx fun j cell => if P i j then {} else cell

/-- The cells of the window that an erase of the given mode blanks: from the cursor on in reading
    order, up to the cursor, or all. -/
def erased (mode col line : ℕ) (i j : ℕ) : Bool :=
  match mode with
  | 0 => line < i || line = i && col ≤ j
  | 1 => i < line || i = line && j ≤ col
  | 2 | 3 => true
  | _ => false

/-- Erases in the line of the cursor. -/
def eraseInLine (r : Roll) (mode : ℕ) : Roll :=
  r.onWindow (blanked fun i j => i = r.line && mode ≠ 3 && erased mode r.col r.line i j)

/-- Erases in the window. -/
def eraseInDisplay (r : Roll) (mode : ℕ) : Roll :=
  let erasedRoll := r.onWindow (blanked (erased mode r.col r.line))
  if mode = 2 then erasedRoll.moveTo 0 0 else erasedRoll

/-- Handles a control character. -/
def execute (r : Roll) (byte : UInt8) : Roll :=
  if byte = 0x08 then r.moveTo (r.col - 1) r.line
  else if byte = 0x09 then r.moveTo ((r.col / 8 + 1) * 8 % 65536) r.line
  else if 0x0a ≤ byte ∧ byte ≤ 0x0c then r.feed
  else if byte = 0x0d then r.moveTo 0 r.line
  else r

/-- Handles the CSI sequences that are about the rows or the cursor.  (A region is the whole
    window here.) -/
def csiAction (r : Roll) (p : List ℕ) (action : Char) : Roll :=
  let p1 := Screen.paramOr p 0
  match action with
  | 'H' | 'f' => r.moveTo (Screen.paramOr p 1 1 - 1) (p1 1 - 1)
  | 'A' => r.moveTo r.col (r.line - p1 1)
  | 'B' => r.moveTo r.col (saturatingAdd r.line (p1 1))
  | 'C' => r.moveTo (saturatingAdd r.col (p1 1)) r.line
  | 'D' => r.moveTo (r.col - p1 1) r.line
  | 'G' => r.moveTo (p1 1 - 1) r.line
  | 'd' => r.moveTo r.col (p1 1 - 1)
  | 'J' => r.eraseInDisplay (p1 0)
  | 'K' => r.eraseInLine (p1 0)
  | 'r' => r.moveTo 0 0
  | _ => r

/-- Sets one DEC private mode. -/
def setMode (r : Roll) (enable : Bool) (mode : ℕ) : Roll :=
  if mode = 47 ∨ mode = 1047 ∨ mode = 1049 then { r with away := enable } else r

/-- Sets DEC private modes. -/
def decPrivateMode (r : Roll) (params : List (List ℕ)) (enable : Bool) : Roll :=
  params.foldl (fun r param => r.setMode enable (param.head?.getD 0)) r

/-- Handles a CSI sequence.  The style is that of the next cell, wherever it goes. -/
def csiDispatch (r : Roll) (params : List (List ℕ)) (intermediates : List UInt8) (action : Char) :
    Roll :=
  let p := params.map fun sub => sub.head?.getD 0
  if intermediates.head? = some 0x3f ∧ action = 'h' then r.decPrivateMode params true
  else if intermediates.head? = some 0x3f ∧ action = 'l' then r.decPrivateMode params false
  else if action = 'm' then { r with style := r.style.applySgr p }
  else if r.away then r
  else r.csiAction p action

/-- The roll after an action. -/
def perform (V : Vte) (r : Roll) : Perform → Roll
  | .print c => if r.away then r else r.print c ((V.width c).getD 1)
  | .execute byte => if r.away then r else r.execute byte
  | .csiDispatch params intermediates _ action => r.csiDispatch params intermediates action
  | _ => r

/-- The roll after an operation on the screen. -/
def step (V : Vte) (r : Roll) : ScreenOp → Roll
  | .perform action => r.perform V action
  | _ => r

variable {r : Roll}

theorem gone_append_window (r : Roll) : r.gone ++ r.window = r.rows := List.take_append_drop _ _

theorem length_window (h : r.height ≤ r.rows.length) : r.window.length = r.height := by
  simp only [window, top, List.length_drop]
  omega

theorem length_gone (r : Roll) : r.gone.length = r.top := by
  simp only [gone, top, List.length_take]
  omega

/-- An edit of the window leaves what is above it alone. -/
theorem onWindow_spec {f : List (List Cell) → List (List Cell)}
    (hf : (f r.window).length = r.window.length) :
    (r.onWindow f).gone = r.gone ∧ (r.onWindow f).window = f r.window ∧
      (r.onWindow f).rows.length = r.rows.length := by
  have hlen : (r.onWindow f).rows.length = r.rows.length := by
    simp only [onWindow, List.length_append, hf]
    rw [← List.length_append, gone_append_window]
  have htop : (r.onWindow f).top = r.gone.length := by
    rw [length_gone]
    simp only [top, hlen]
    rfl
  refine ⟨?_, ?_, hlen⟩
  · rw [gone, htop]
    exact List.take_left
  · rw [window, htop]
    exact List.drop_left

/-- A new row takes the first row out of the window. -/
theorem feed_spec (h : r.height ≤ r.rows.length) (hpos : 0 < r.height)
    (hline : r.line + 1 ≥ r.height) :
    r.feed.gone = r.gone ++ r.window.take 1 ∧
      r.feed.window = r.window.drop 1 ++ [Grid.blankRow r.width] := by
  have hfeed : r.feed = { r with rows := r.rows ++ [Grid.blankRow r.width] } := if_pos hline
  have htop : r.feed.top = r.top + 1 := by
    rw [hfeed]
    simp only [top, List.length_append, List.length_singleton]
    omega
  have hle : r.top + 1 ≤ r.rows.length := by
    simp only [top]
    omega
  constructor
  · rw [gone, htop, hfeed]
    simp only [gone, window]
    rw [List.take_append_of_le_length hle, List.take_add]
  · rw [window, htop, hfeed]
    simp only [window, List.drop_drop]
    rw [List.drop_append_of_le_length hle]

end Roll

namespace Screen

open Roll (blanked)

variable {width height : ℕ} {s s' : Screen}

/-! ## What the operations do to the rows -/

theorem getElem?_blanked (P : ℕ → ℕ → Bool) (rows : List (List Cell)) (i : ℕ) :
    (blanked P rows)[i]? =
      rows[i]?.map fun cells => cells.mapIdx fun j cell => if P i j then {} else cell := by
  simp [blanked]

theorem length_blanked (P : ℕ → ℕ → Bool) (rows : List (List Cell)) :
    (blanked P rows).length = rows.length := List.length_mapIdx

theorem blanked_blanked (P Q : ℕ → ℕ → Bool) (rows : List (List Cell)) :
    blanked P (blanked Q rows) = blanked (fun i j => P i j || Q i j) rows := by
  simp only [blanked, List.mapIdx_mapIdx]
  congr 1
  funext i cells
  simp only [Function.comp_apply, List.mapIdx_mapIdx]
  congr 1
  funext j cell
  by_cases hP : P i j <;> simp [hP]

theorem blanked_none {P : ℕ → ℕ → Bool} (hP : ∀ i j, P i j = false) (rows : List (List Cell)) :
    blanked P rows = rows := by
  have hid : ∀ cells : List Cell, (cells.mapIdx fun _ cell => cell) = cells := by
    intro cells
    refine List.ext_getElem? fun j => ?_
    rw [List.getElem?_mapIdx, Option.map_id']
  refine List.ext_getElem? fun i => ?_
  simp [getElem?_blanked, hP, hid]

theorem blanked_congr {P Q : ℕ → ℕ → Bool} {g : Grid} (hg : g.Shaped width height)
    (h : ∀ i < height, ∀ j < width, P i j = Q i j) : blanked P g.rows = blanked Q g.rows := by
  refine List.ext_getElem? fun i => ?_
  rw [getElem?_blanked, getElem?_blanked]
  cases hrow : g.rows[i]? with
  | none => rfl
  | some cells =>
    have hi : i < height := hg.length_rows ▸ (List.getElem?_eq_some_iff.1 hrow).1
    have hlen := hg.length_row cells (List.mem_of_getElem? hrow)
    refine congrArg some (List.ext_getElem? fun j => ?_)
    rw [List.getElem?_mapIdx, List.getElem?_mapIdx]
    by_cases hj : j < cells.length
    · rw [h i hi j (hlen ▸ hj)]
    · rw [List.getElem?_eq_none (not_lt.1 hj)]
      rfl

theorem rows_set_blank (g : Grid) (col row : ℕ) :
    (g.set col row {}).rows = blanked (fun i j => i = row && j = col) g.rows := by
  refine List.ext_getElem? fun i => ?_
  rw [getElem?_blanked]
  show (g.rows.modify row _)[i]? = _
  rw [List.getElem?_modify]
  refine congrArg (Option.map · _) (funext fun cells => List.ext_getElem? fun j => ?_)
  rw [List.getElem?_mapIdx]
  by_cases hi : row = i
  · by_cases hj : j = col
    · subst hj
      by_cases hlt : j < cells.length
      · simp [hi, hlt]
      · simp [hi, hlt]
    · simp [hi, Ne.symm hj, hj]
  · simp [hi, Ne.symm hi]

theorem rows_clearRow (g : Grid) (row : ℕ) :
    (g.clearRow row).rows = blanked (fun i _ => i = row) g.rows := by
  refine List.ext_getElem? fun i => ?_
  rw [getElem?_blanked]
  show (g.rows.modify row _)[i]? = _
  rw [List.getElem?_modify]
  refine congrArg (Option.map · _) (funext fun cells => List.ext_getElem? fun j => ?_)
  rw [List.getElem?_mapIdx]
  by_cases hi : row = i
  · simp only [hi, if_true, decide_true, List.getElem?_map]
  · simp [hi, Ne.symm hi]

theorem rows_eraseColumns (s : Screen) (row : ℕ) (cols : List ℕ) :
    (s.eraseColumns row cols).grid.rows =
      blanked (fun i j => i = row && cols.contains j) s.grid.rows := by
  have h : ∀ (cols : List ℕ) (g : Grid), (cols.foldl (fun g col => g.set col row {}) g).rows =
      blanked (fun i j => i = row && cols.contains j) g.rows := by
    intro cols
    induction cols with
    | nil => exact fun g => (blanked_none (by simp) g.rows).symm
    | cons col cols ih =>
      intro g
      rw [List.foldl_cons, ih, rows_set_blank, blanked_blanked]
      congr 1
      funext i j
      by_cases hi : i = row <;> simp [hi, Bool.or_comm]
  exact h cols s.grid

theorem rows_clearRows (s : Screen) (rows : List ℕ) :
    (s.clearRows rows).grid.rows = blanked (fun i _ => rows.contains i) s.grid.rows := by
  induction rows generalizing s with
  | nil => exact (blanked_none (by simp) s.grid.rows).symm
  | cons row rows ih =>
    have hstep : s.clearRows (row :: rows) =
        ({ s with grid := s.grid.clearRow row }.markDirty row).clearRows rows := rfl
    rw [hstep, ih]
    show blanked _ (s.grid.clearRow row).rows = _
    rw [rows_clearRow, blanked_blanked]
    congr 1
    funext i _
    simp [Bool.or_comm]

/-- An erase in the line of the cursor. -/
theorem rows_eraseInLine (hs : s.Shaped width height) (mode : ℕ) :
    (s.eraseInLine mode).grid.rows = blanked (fun i j =>
      i = s.cursorRow && mode ≠ 3 && Roll.erased mode s.cursorCol s.cursorRow i j) s.grid.rows := by
  have hw := hs.grid.width_eq
  match mode with
  | 0 =>
    refine (rows_eraseColumns s _ _).trans (blanked_congr hs.grid fun i _ j hj => ?_)
    by_cases hi : i = s.cursorRow
    · simp only [hi, Roll.erased, List.contains_eq_mem, List.mem_range'_1]
      simp
      omega
    · simp [hi]
  | 1 =>
    refine (rows_eraseColumns s _ _).trans (blanked_congr hs.grid fun i _ j _ => ?_)
    by_cases hi : i = s.cursorRow
    · simp [hi, Roll.erased, List.contains_eq_mem]
    · simp [hi]
  | 2 =>
    refine (rows_clearRow s.grid _).trans (blanked_congr hs.grid fun i _ j _ => ?_)
    simp [Roll.erased]
  | 3 | _ + 4 =>
    exact (blanked_none (by simp [Roll.erased]) s.grid.rows).symm

/-- An erase in the display. -/
theorem rows_eraseInDisplay (hs : s.Shaped width height) (mode : ℕ) :
    (s.eraseInDisplay mode).grid.rows =
      blanked (Roll.erased mode s.cursorCol s.cursorRow) s.grid.rows := by
  have hh := hs.grid.height_eq
  match mode with
  | 0 =>
    refine (rows_clearRows _ _).trans ?_
    rw [rows_eraseInLine hs, blanked_blanked, (edited_eraseInLine s 0).steady.height,
      (edited_eraseInLine s 0).cursor.2]
    refine blanked_congr hs.grid fun i hi j _ => ?_
    simp only [List.contains_eq_mem, List.mem_range'_1, Roll.erased]
    by_cases hrow : i = s.cursorRow
    · simp [hrow]
    · simp [hrow, Ne.symm hrow]
      omega
  | 1 =>
    have hcursor := (edited_clearRows s (List.range s.cursorRow)).cursor
    refine (rows_eraseInLine (kept_clearRows hs _).shaped 1).trans ?_
    rw [rows_clearRows, blanked_blanked, hcursor.1, hcursor.2]
    refine blanked_congr hs.grid fun i hi j _ => ?_
    simp only [List.contains_eq_mem, List.mem_range, Roll.erased]
    by_cases hrow : i = s.cursorRow
    · simp [hrow]
    · simp [hrow]
  | 2 | 3 =>
    refine (rows_clearRows s _).trans (blanked_congr hs.grid fun i hi j _ => ?_)
    simp [Roll.erased, hh, hi]
  | _ + 4 =>
    exact (blanked_none (by simp [Roll.erased]) s.grid.rows).symm

theorem rows_copyUp (s : Screen) (n : ℕ) (hn : n < s.grid.rows.length) (i : ℕ) :
    (s.copyUp (List.range' 0 n)).grid.rows[i]? =
      if i < n then s.grid.rows[i + 1]? else s.grid.rows[i]? := by
  induction n generalizing i with
  | zero => simp [copyUp]
  | succ n ih =>
    have ih := ih (by omega)
    have hstep : (s.copyUp (List.range' 0 (n + 1))).grid =
        (s.copyUp (List.range' 0 n)).grid.copyRow n (n + 1) := by
      rw [List.range'_1_concat, copyUp, List.foldl_append, Nat.zero_add]
      rfl
    have hsrc : (s.copyUp (List.range' 0 n)).grid.rows[n + 1]? = some s.grid.rows[n + 1] := by
      rw [ih, if_neg (by omega), List.getElem?_eq_getElem hn]
    have hlt := (List.getElem?_eq_some_iff.1 hsrc).1
    rw [hstep, Grid.copyRow, if_neg (by omega), hsrc]
    show (List.set _ _ _)[i]? = _
    rw [List.getElem?_set, ih]
    by_cases hin : n = i
    · subst hin
      rw [if_pos rfl, if_pos (by omega), if_pos (by omega), List.getElem?_eq_getElem hn]
    · rw [if_neg hin]
      by_cases hlt : i < n
      · rw [if_pos hlt, if_pos (by omega)]
      · rw [if_neg hlt, if_neg (by omega)]

/-- A scroll of the whole screen. -/
theorem rows_scrollUp (hs : s.Shaped width height) (htop : s.scrollTop = 0)
    (hbottom : s.scrollBottom + 1 = height) :
    s.scrollUp.grid.rows = s.grid.rows.drop 1 ++ [Grid.blankRow width] := by
  have hlen : s.grid.rows.length = height := hs.grid.length_rows
  have hret : s.retainTopLine.grid = s.grid := by rw [retainTopLine_eq]
  have hcopied := rows_copyUp s.retainTopLine s.scrollBottom (by rw [hret]; omega)
  have hkept := (kept_copyUp (kept_retainTopLine hs).shaped
    (List.range' 0 s.scrollBottom)).shaped.grid
  have hrows : s.scrollUp.grid.rows =
      (s.retainTopLine.copyUp (List.range' 0 s.scrollBottom)).grid.rows.modify s.scrollBottom
        (·.map fun _ => {}) := by
    rw [scrollUp, htop]
    rfl
  refine List.ext_getElem? fun i => ?_
  rw [hrows, List.getElem?_modify, hcopied, hret, List.getElem?_append, List.length_drop, hlen,
    List.getElem?_drop]
  by_cases hi : i < s.scrollBottom
  · have hne : s.scrollBottom ≠ i := by omega
    have hlt : i < height - 1 := by omega
    simp [hi, hne, hlt, Nat.add_comm]
  · have hge : ¬i < height - 1 := by omega
    by_cases hlast : s.scrollBottom = i
    · have hlt : i < s.grid.rows.length := by omega
      have hcells := hs.grid.length_row _ (List.getElem_mem hlt)
      have hzero : i - (height - 1) = 0 := by omega
      simp [hlast, hge, hzero, List.getElem?_eq_getElem hlt, Grid.blankRow, List.map_const', hcells]
    · rw [List.getElem?_eq_none (l := [Grid.blankRow width]) (by simp; omega)]
      simp [hi, hge, List.getElem?_eq_none (show s.grid.rows.length ≤ i by omega)]

end Screen

namespace Screen

open Roll (blanked)

variable {handed lines : List (List Cell)} {r : Roll} {s s' : Screen}

/-! ## The style -/

theorem Edited.style (h : Edited s s') : s'.style = s.style := by
  obtain ⟨rows, dirty, rfl⟩ := h
  rfl

theorem style_advanceLine (s : Screen) : s.advanceLine.style = s.style := by
  unfold advanceLine
  split_ifs
  · exact (scrollUp_eq s).style
  · rfl

theorem style_wrapIf (s : Screen) (c : Prop) [Decidable c] :
    (if c then s.wrapLine else s).style = s.style := by
  split_ifs
  · exact style_advanceLine _
  · rfl

theorem style_writeChar (s : Screen) (ch : Char) (charWidth : ℕ) :
    (s.writeChar ch charWidth).style = s.style := by
  have h₁ := style_wrapIf s (s.cursorCol ≥ s.grid.width)
  unfold writeChar
  dsimp only
  generalize (if s.cursorCol ≥ s.grid.width then s.wrapLine else s) = s₁ at h₁ ⊢
  have h₂ := (style_wrapIf s₁ (charWidth = 2 ∧ s₁.cursorCol + 1 ≥ s₁.grid.width)).trans h₁
  generalize (if charWidth = 2 ∧ s₁.cursorCol + 1 ≥ s₁.grid.width then s₁.wrapLine else s₁) = s₂
    at h₂ ⊢
  split_ifs
  · exact h₂
  · exact h₂

theorem style_execute (s : Screen) (byte : UInt8) : (s.execute byte).style = s.style := by
  unfold execute
  split_ifs
  · rfl
  · rfl
  · exact style_advanceLine s
  · rfl
  · rfl

theorem style_eraseInDisplay (s : Screen) (mode : ℕ) : (s.eraseInDisplay mode).style = s.style := by
  match mode with
  | 0 => exact (edited_clearRows _ _).style.trans (edited_eraseInLine s 0).style
  | 1 => exact (edited_eraseInLine _ 1).style.trans (edited_clearRows s _).style
  | 2 => exact (edited_clearRows s _).style
  | 3 => exact (edited_clearRows s _).style
  | _ + 4 => rfl

theorem popKeyboardProtocolFlags_eq : ∀ (n : ℕ) (s : Screen),
    ∃ flags stack, s.popKeyboardProtocolFlags n =
      { s with keyboardProtocolFlags := flags, keyboardProtocolStack := stack }
  | 0, s => ⟨_, _, rfl⟩
  | n + 1, s => by
    unfold popKeyboardProtocolFlags
    split
    · exact ⟨0, s.keyboardProtocolStack, rfl⟩
    · rename_i prev rest _
      obtain ⟨flags, stack, h⟩ := popKeyboardProtocolFlags_eq n
        { s with keyboardProtocolStack := rest, keyboardProtocolFlags := prev }
      exact ⟨flags, stack, h⟩

theorem style_csiAction (s : Screen) (params : List (List ℕ)) (intermediates : List UInt8)
    (action : Char) : (s.csiAction params intermediates action).style =
      if action = 'm' then s.style.applySgr (params.map fun sub => sub.head?.getD 0)
      else s.style := by
  have hsame : ∀ {t : Screen} {c : Char} {style : Style}, c ≠ 'm' → t.style = s.style →
      t.style = if c = 'm' then style else s.style := by
    intro t c style hc ht
    rw [if_neg hc, ht]
  unfold csiAction
  dsimp only
  split
  any_goals rfl
  · exact style_eraseInDisplay s _
  · exact (edited_eraseInLine s _).style
  · refine hsame (by decide) ?_
    split_ifs
    · rfl
    · obtain ⟨flags, stack, h⟩ := popKeyboardProtocolFlags_eq
        (max ((params.head?.bind List.head?).getD 1) 1) s
      rw [h]
    · rfl
  · refine hsame (by decide) ?_
    split_ifs <;> rfl
  · refine hsame (by decide) ?_
    split_ifs <;> rfl
  · rw [if_neg (by assumption)]

theorem style_decPrivateMode (enable : Bool) : ∀ (params : List (List ℕ)) (s : Screen),
    (s.decPrivateMode params enable).style = s.style
  | [], _ => rfl
  | param :: params, s => by
    refine (style_decPrivateMode enable params (s.setMode enable _)).trans ?_
    unfold setMode switchToAlt switchToPrimary
    cases s.altScreen <;> split_ifs <;> rfl

/-! ## The window in front -/

/-- The screen shows the window of the roll, and its region is the whole screen.  `handed` are the
    lines that it has handed out. -/
structure Front (handed : List (List Cell)) (r : Roll) (s : Screen) : Prop where
  shaped : s.Shaped r.width r.height
  altMode : s.altMode = false
  altScreen : s.altScreen = none
  away : r.away = false
  scrollTop : s.scrollTop = 0
  scrollBottom : s.scrollBottom + 1 = r.height
  style : s.style = r.style
  full : r.height ≤ r.rows.length
  gone : handed ++ s.pendingScrollback = r.gone
  rows : s.grid.rows = r.window
  cursorCol : s.cursorCol = r.col
  cursorRow : s.cursorRow = r.line
  line : r.line < r.height

/-- An edit of the cells. -/
theorem Front.edit (h : Front handed r s) (hsteady : Steady [] s s')
    (hs' : s'.Shaped r.width r.height) (hstyle : s'.style = s.style)
    {f : List (List Cell) → List (List Cell)} (hf : ∀ rows, (f rows).length = rows.length)
    (hrows : s'.grid.rows = f s.grid.rows) {col line : ℕ} (hcol : s'.cursorCol = col)
    (hrow : s'.cursorRow = line) (hline : line < r.height) :
    Front handed { r.onWindow f with col := col, line := line } s' := by
  obtain ⟨hgone, hwindow, hlen⟩ := Roll.onWindow_spec (hf r.window)
  exact {
    shaped := hs'
    altMode := hsteady.altMode.trans h.altMode
    altScreen := hsteady.altScreen.trans h.altScreen
    away := h.away
    scrollTop := hsteady.scrollTop.trans h.scrollTop
    scrollBottom := hsteady.scrollBottom ▸ h.scrollBottom
    style := hstyle.trans h.style
    full := by
      show r.height ≤ (r.onWindow f).rows.length
      rw [hlen]
      exact h.full
    gone := by
      rw [hsteady.pending, List.append_nil, h.gone]
      exact hgone.symm
    rows := by
      rw [hrows, h.rows]
      exact hwindow.symm
    cursorCol := hcol
    cursorRow := hrow
    line := hline }

/-- A step that touches neither the cells nor the cursor. -/
theorem Front.frame (h : Front handed r s) (hs' : s'.Shaped r.width r.height)
    (hsteady : Steady [] s s') (hrows : s'.grid.rows = s.grid.rows)
    (hcol : s'.cursorCol = s.cursorCol) (hrow : s'.cursorRow = s.cursorRow) {style : Style}
    (hstyle : s'.style = style) : Front handed { r with style := style } s' where
  shaped := hs'
  altMode := hsteady.altMode.trans h.altMode
  altScreen := hsteady.altScreen.trans h.altScreen
  away := h.away
  scrollTop := hsteady.scrollTop.trans h.scrollTop
  scrollBottom := hsteady.scrollBottom ▸ h.scrollBottom
  style := hstyle
  full := h.full
  gone := by
    rw [hsteady.pending, List.append_nil]
    exact h.gone
  rows := hrows.trans h.rows
  cursorCol := hcol.trans h.cursorCol
  cursorRow := hrow.trans h.cursorRow
  line := h.line

theorem Front.moveTo (h : Front handed r s) (col line : ℕ) :
    Front handed (r.moveTo col line) (s.moveCursor col line) := by
  have hline := h.line
  exact {
    shaped := (kept_moveCursor h.shaped col line).shaped
    altMode := h.altMode
    altScreen := h.altScreen
    away := h.away
    scrollTop := h.scrollTop
    scrollBottom := h.scrollBottom
    style := h.style
    full := h.full
    gone := h.gone
    rows := h.rows
    cursorCol := by rw [moveCursor, h.shaped.grid.width_eq]; rfl
    cursorRow := by rw [moveCursor, h.shaped.grid.height_eq]; rfl
    line := by
      show min line (r.height - 1) < r.height
      omega }

theorem Front.feed (h : Front handed r s) : Front handed r.feed s.advanceLine := by
  have hline := h.line
  have hbottom := h.scrollBottom
  by_cases hlast : r.line + 1 ≥ r.height
  · -- the first row leaves the window
    have hscroll : s.advanceLine = s.scrollUp := if_pos (by rw [h.cursorRow]; omega)
    have hfeed : r.feed = { r with rows := r.rows ++ [Grid.blankRow r.width] } := if_pos hlast
    obtain ⟨hgone, hwindow⟩ := Roll.feed_spec h.full (by omega) hlast
    have hsteady := steady_scrollUp s
    have hcursor := (scrollUp_eq s).cursor
    have hretained : s.retained = r.window.take 1 := by
      unfold retained
      rw [if_pos (by simp [h.altMode, h.scrollTop]), h.scrollTop, h.rows]
      cases r.window <;> rfl
    rw [hscroll]
    exact {
      shaped := by
        rw [hfeed]
        exact (kept_scrollUp h.shaped).shaped
      altMode := hsteady.altMode.trans h.altMode
      altScreen := hsteady.altScreen.trans h.altScreen
      away := by rw [hfeed]; exact h.away
      scrollTop := hsteady.scrollTop.trans h.scrollTop
      scrollBottom := by rw [hsteady.scrollBottom, hfeed]; exact h.scrollBottom
      style := by rw [(scrollUp_eq s).style, hfeed]; exact h.style
      full := by
        have := h.full
        rw [hfeed]
        simp only [List.length_append]
        omega
      gone := by rw [hsteady.pending, ← List.append_assoc, h.gone, hretained, hgone]
      rows := by rw [rows_scrollUp h.shaped h.scrollTop h.scrollBottom, h.rows, hwindow]
      cursorCol := by rw [hcursor.1, hfeed]; exact h.cursorCol
      cursorRow := by rw [hcursor.2, hfeed]; exact h.cursorRow
      line := by rw [hfeed]; exact h.line }
  · have hdown : s.advanceLine = { s with cursorRow := s.cursorRow + 1 } :=
      if_neg (by rw [h.cursorRow]; omega)
    have hfeed : r.feed = { r with line := r.line + 1 } := if_neg hlast
    rw [hdown, hfeed]
    exact { h with
      shaped := ⟨h.shaped.grid, h.shaped.dirty, h.shaped.saved⟩
      cursorRow := congrArg (· + 1) h.cursorRow
      line := not_le.1 hlast }

theorem Front.wrapIf (h : Front handed r s) {c c' : Prop} [Decidable c] [Decidable c']
    (hc : c ↔ c') : Front handed (r.wrapIf c') (if c then s.wrapLine else s) := by
  unfold Roll.wrapIf
  by_cases hc' : c'
  · rw [if_pos hc', if_pos (hc.2 hc')]
    refine Front.feed (r := { r with col := 0 }) { h with shaped := ?_, cursorCol := rfl }
    exact ⟨h.shaped.grid, h.shaped.dirty, h.shaped.saved⟩
  · rw [if_neg hc', if_neg (mt hc.1 hc')]
    exact h

/-- A cell is written and the cursor goes right, with any dirty flags. -/
theorem Front.put (h : Front handed r s) (cell : Cell) {dirty : List Bool}
    (hdirty : dirty.length = r.height) :
    Front handed (r.put cell)
      { s with
        grid := s.grid.set s.cursorCol s.cursorRow cell
        dirty := dirty
        cursorCol := s.cursorCol + 1 } := by
  have hsteady : Steady [] s { s with
      grid := s.grid.set s.cursorCol s.cursorRow cell
      dirty := dirty
      cursorCol := s.cursorCol + 1 } :=
    ⟨rfl, rfl, rfl, rfl, rfl, rfl, (List.append_nil _).symm⟩
  refine h.edit hsteady ⟨h.shaped.grid.set _ _ cell, hdirty, h.shaped.saved⟩ rfl
    (fun _ => List.length_modify (·.set r.col cell) _ r.line) ?_ (congrArg (· + 1) h.cursorCol)
    h.cursorRow h.line
  show s.grid.rows.modify s.cursorRow (·.set s.cursorCol cell) = _
  rw [h.cursorRow, h.cursorCol]

theorem Front.print (h : Front handed r s) (ch : Char) (charWidth : ℕ) :
    Front handed (r.print ch charWidth) (s.writeChar ch charWidth) := by
  have h₁ : Front handed (r.wrapIf (r.col ≥ r.width))
      (if s.cursorCol ≥ s.grid.width then s.wrapLine else s) :=
    h.wrapIf (by rw [h.cursorCol, h.shaped.grid.width_eq])
  unfold writeChar Roll.print
  dsimp only
  generalize (if s.cursorCol ≥ s.grid.width then s.wrapLine else s) = s₁ at h₁ ⊢
  generalize r.wrapIf (r.col ≥ r.width) = r₁ at h₁ ⊢
  have h₂ : Front handed (r₁.wrapIf (charWidth = 2 ∧ r₁.col + 1 ≥ r₁.width))
      (if charWidth = 2 ∧ s₁.cursorCol + 1 ≥ s₁.grid.width then s₁.wrapLine else s₁) :=
    h₁.wrapIf (by rw [h₁.cursorCol, h₁.shaped.grid.width_eq])
  generalize (if charWidth = 2 ∧ s₁.cursorCol + 1 ≥ s₁.grid.width then s₁.wrapLine else s₁) = s₂
    at h₂ ⊢
  generalize r₁.wrapIf (charWidth = 2 ∧ r₁.col + 1 ≥ r₁.width) = r₂ at h₂ ⊢
  have hdirty : (s₂.dirty.set s₂.cursorRow true).length = r₂.height :=
    List.length_set.trans h₂.shaped.dirty
  have h₃ := h₂.put (s₂.style.cell ch) hdirty
  have hcond : (charWidth = 2 ∧ s₂.cursorCol + 1 < s₂.grid.width) ↔
      charWidth = 2 ∧ r₂.col + 1 < r₂.width := by
    rw [h₂.cursorCol, h₂.shaped.grid.width_eq]
  rw [← h₂.style]
  split_ifs with hroll hscreen hscreen
  · show Front handed ((r₂.put (s₂.style.cell ch)).put (r₂.style.cell ' ')) _
    rw [← h₂.style]
    exact h₃.put (s₂.style.cell ' ') hdirty
  · exact absurd (hcond.2 hroll) hscreen
  · exact absurd (hcond.1 hscreen) hroll
  · exact h₃

theorem Front.eraseInLine (h : Front handed r s) (mode : ℕ) :
    Front handed (r.eraseInLine mode) (s.eraseInLine mode) := by
  have hedited := edited_eraseInLine s mode
  refine h.edit hedited.steady (kept_eraseInLine h.shaped mode).shaped hedited.style
    (length_blanked _) ?_ (hedited.cursor.1.trans h.cursorCol) (hedited.cursor.2.trans h.cursorRow)
    h.line
  rw [rows_eraseInLine h.shaped, h.cursorCol, h.cursorRow]

theorem Front.eraseInDisplay (h : Front handed r s) (mode : ℕ) :
    Front handed (r.eraseInDisplay mode) (s.eraseInDisplay mode) := by
  have hline := h.line
  have hrows := rows_eraseInDisplay h.shaped mode
  rw [h.cursorCol, h.cursorRow] at hrows
  have hedit : ∀ {col line : ℕ}, (s.eraseInDisplay mode).cursorCol = col →
      (s.eraseInDisplay mode).cursorRow = line → line < r.height →
      Front handed { r.onWindow (blanked (Roll.erased mode r.col r.line)) with
        col := col, line := line } (s.eraseInDisplay mode) :=
    h.edit (steady_eraseInDisplay s mode) (kept_eraseInDisplay h.shaped mode).shaped
      (style_eraseInDisplay s mode) (length_blanked _) hrows
  unfold Roll.eraseInDisplay
  dsimp only
  by_cases hhome : mode = 2
  · subst hhome
    rw [if_pos rfl]
    have hzero : ∀ n, min 0 n = 0 := fun n => Nat.zero_min n
    rw [Roll.moveTo, hzero, hzero]
    exact hedit rfl rfl (by omega)
  · rw [if_neg hhome]
    have hcursor : (s.eraseInDisplay mode).cursorCol = s.cursorCol ∧
        (s.eraseInDisplay mode).cursorRow = s.cursorRow := by
      match mode with
      | 0 => exact ((edited_eraseInLine s 0).trans (edited_clearRows _ _)).cursor
      | 1 => exact ((edited_clearRows s _).trans (edited_eraseInLine _ 1)).cursor
      | 3 => exact (edited_clearRows s _).cursor
      | _ + 4 => exact ⟨rfl, rfl⟩
    exact hedit (hcursor.1.trans h.cursorCol) (hcursor.2.trans h.cursorRow) h.line

theorem Front.execute (h : Front handed r s) (byte : UInt8) :
    Front handed (r.execute byte) (s.execute byte) := by
  have hmin : ∀ {col : ℕ}, s.moveCursor (min col (s.grid.width - 1)) s.cursorRow =
      s.moveCursor col s.cursorRow := by
    intro col
    simp [moveCursor]
  unfold Screen.execute Roll.execute
  dsimp only
  rw [hmin, h.cursorCol, h.cursorRow]
  by_cases h₁ : byte = 0x08
  · subst h₁
    by_cases hcol : r.col > 0
    · rw [if_pos rfl, if_pos ⟨rfl, hcol⟩]
      exact h.moveTo _ _
    · -- at the left edge the move is none
      have hno : ¬((0x08 : UInt8) = 0x08 ∧ r.col > 0) := fun hand => hcol hand.2
      rw [if_pos rfl, if_neg hno, if_neg (by decide), if_neg (by decide), if_neg (by decide)]
      have hline := h.line
      have hstay : r.moveTo (r.col - 1) r.line = r := by
        obtain ⟨width, height, rows, col, line, style, away⟩ := r
        simp only [Roll.moveTo, Roll.mk.injEq, true_and, and_true]
        dsimp only at hcol hline
        omega
      rw [hstay]
      exact h
  · have hno : ¬(byte = 0x08 ∧ r.col > 0) := fun hand => h₁ hand.1
    rw [if_neg h₁, if_neg hno]
    split_ifs
    · exact h.moveTo _ _
    · exact h.feed
    · exact h.moveTo _ _
    · exact h

end Screen

namespace Screen

variable {handed : List (List Cell)} {r : Roll} {s s' : Screen} {V : Vte}

/-! ## The alternate screen in front -/

/-- The window of the roll is saved behind the alternate screen. -/
structure Back (handed : List (List Cell)) (r : Roll) (s : Screen) : Prop where
  shaped : s.Shaped r.width r.height
  altMode : s.altMode = true
  away : r.away = true
  style : s.style = r.style
  full : r.height ≤ r.rows.length
  gone : handed ++ s.pendingScrollback = r.gone
  saved : s.altScreen = some ⟨r.window, r.col, r.line⟩
  line : r.line < r.height

/-- A roll and a screen that belong together. -/
def Shows (handed : List (List Cell)) (r : Roll) (s : Screen) : Prop :=
  Front handed r s ∨ Back handed r s

/-- A step on the alternate screen. -/
theorem Back.frame (h : Back handed r s) (hs' : s'.Shaped r.width r.height)
    (hsteady : Steady [] s s') {style : Style} (hstyle : s'.style = style) :
    Back handed { r with style := style } s' where
  shaped := hs'
  altMode := hsteady.altMode.trans h.altMode
  away := h.away
  style := hstyle
  full := h.full
  gone := by
    rw [hsteady.pending, List.append_nil]
    exact h.gone
  saved := hsteady.altScreen.trans h.saved
  line := h.line

theorem Shows.frame (h : Shows handed r s) (hs' : s'.Shaped r.width r.height)
    (hsteady : Steady [] s s') (hrows : s'.grid.rows = s.grid.rows)
    (hcol : s'.cursorCol = s.cursorCol) (hrow : s'.cursorRow = s.cursorRow) {style : Style}
    (hstyle : s'.style = style) : Shows handed { r with style := style } s' :=
  h.imp (·.frame hs' hsteady hrows hcol hrow hstyle) (·.frame hs' hsteady hstyle)

theorem Shows.shaped (h : Shows handed r s) : s.Shaped r.width r.height :=
  h.elim Front.shaped Back.shaped

theorem Shows.style (h : Shows handed r s) : s.style = r.style := h.elim Front.style Back.style

theorem Shows.away (h : Shows handed r s) : s.altMode = r.away := by
  rcases h with h | h
  · rw [h.altMode, h.away]
  · rw [h.altMode, h.away]

theorem Shows.setMode (h : Shows handed r s) (enable : Bool) (mode : ℕ) :
    Shows handed (r.setMode enable mode) (s.setMode enable mode) := by
  have hshaped := (kept_setMode h.shaped enable mode).shaped
  by_cases halt : mode = 47 ∨ mode = 1047 ∨ mode = 1049
  · rw [Roll.setMode, if_pos halt]
    rw [Screen.setMode, if_pos halt] at hshaped ⊢
    cases enable with
    | true =>
      rw [if_pos rfl] at hshaped ⊢
      rcases h with h | h
      · refine .inr ?_
        rw [switchToAlt, if_neg (by simp [h.altMode])] at hshaped ⊢
        exact ⟨hshaped, rfl, rfl, h.style, h.full, h.gone,
          by rw [h.rows, h.cursorCol, h.cursorRow]; rfl, h.line⟩
      · refine .inr ?_
        rw [switchToAlt, if_pos h.altMode]
        exact { h with away := rfl }
    | false =>
      rw [if_neg Bool.false_ne_true] at hshaped ⊢
      have hheight := h.shaped.grid.height_eq
      rcases h with h | h
      · refine .inl ?_
        rw [switchToPrimary, if_pos (by simp [h.altMode])]
        exact { h with away := rfl }
      · refine .inl ?_
        have hline := h.line
        rw [switchToPrimary, if_neg (by simp [h.altMode]), h.saved] at hshaped ⊢
        exact ⟨hshaped, rfl, rfl, rfl, rfl, by show s.grid.height - 1 + 1 = r.height; omega, h.style,
          h.full, h.gone, rfl, rfl, rfl, h.line⟩
  · rw [Roll.setMode, if_neg halt]
    rw [Screen.setMode, if_neg halt] at hshaped ⊢
    have hframe : ∀ s', s'.Shaped r.width r.height → Steady [] s s' →
        s'.grid.rows = s.grid.rows → s'.cursorCol = s.cursorCol → s'.cursorRow = s.cursorRow →
        s'.style = s.style → Shows handed r s' := by
      intro s' hs' hsteady hrows hcol hrow hstyle
      exact h.frame hs' hsteady hrows hcol hrow (hstyle.trans h.style)
    have hsteady : ∀ {s' : Screen}, s'.grid = s.grid → s'.scrollTop = s.scrollTop →
        s'.scrollBottom = s.scrollBottom → s'.altMode = s.altMode → s'.altScreen = s.altScreen →
        s'.pendingScrollback = s.pendingScrollback → Steady [] s s' := by
      intro s' hg ht hb hm ha hp
      exact ⟨hg ▸ rfl, hg ▸ rfl, ht, hb, hm, ha, by rw [hp, List.append_nil]⟩
    refine hframe _ hshaped ?_ ?_ ?_ ?_ ?_
    · split_ifs <;> exact hsteady rfl rfl rfl rfl rfl rfl
    all_goals split_ifs <;> rfl

theorem Shows.decPrivateMode (enable : Bool) : ∀ (params : List (List ℕ)) {r : Roll} {s : Screen},
    Shows handed r s → Shows handed (r.decPrivateMode params enable) (s.decPrivateMode params enable)
  | [], _, _, h => h
  | param :: params, _, _, h =>
    Shows.decPrivateMode enable params (h.setMode enable (param.head?.getD 0))

/-! ## Actions -/

/-- The region of the primary screen stays whole. -/
def KeepsWhole (s : Screen) : ScreenOp → Prop
  | .perform action => s.altMode = false → ∀ top bottom, s.regionAsked action = some (top, bottom) →
      min top (s.grid.height - 1) = 0 ∧ min bottom (s.grid.height - 1) = s.grid.height - 1
  | .resize _ _ => False
  | _ => True

theorem Front.setScrollRegion (h : Front handed r s) {top bottom : ℕ}
    (htop : min top (s.grid.height - 1) = 0)
    (hbottom : min bottom (s.grid.height - 1) = s.grid.height - 1) :
    Front handed (r.moveTo 0 0) (s.setScrollRegion top bottom) := by
  have hline := h.line
  have hheight := h.shaped.grid.height_eq
  have hzero : ∀ n, min 0 n = 0 := fun n => Nat.zero_min n
  rw [Roll.moveTo, hzero, hzero]
  exact { h with
    shaped := ⟨h.shaped.grid, h.shaped.dirty, h.shaped.saved⟩
    scrollTop := htop
    scrollBottom := by
      show min bottom (s.grid.height - 1) + 1 = r.height
      omega
    cursorCol := rfl
    cursorRow := rfl
    line := by
      show 0 < r.height
      omega }

theorem Front.csiAction (h : Front handed r s) (params : List (List ℕ)) (intermediates : List UInt8)
    {action : Char} (hstyle : action ≠ 'm')
    (hregion : s.KeepsWhole (.perform (.csiDispatch params intermediates false action))) :
    Front handed (r.csiAction (params.map fun sub => sub.head?.getD 0) action)
      (s.csiAction params intermediates action) := by
  have hcol : ∀ col line, s.moveCursor (min col (s.grid.width - 1)) line = s.moveCursor col line := by
    simp [moveCursor]
  have hrow : ∀ col line, s.moveCursor col (min line (s.grid.height - 1)) =
      s.moveCursor col line := by
    simp [moveCursor]
  have hframe : ∀ {s' : Screen}, s'.grid = s.grid → s'.dirty = s.dirty →
      s'.altScreen = s.altScreen → Steady [] s s' → s'.cursorCol = s.cursorCol →
      s'.cursorRow = s.cursorRow → s'.style = s.style → Front handed r s' := by
    intro s' hg hd ha hsteady hcol hrow hstyle
    refine h.frame ⟨hg ▸ h.shaped.grid, hd ▸ h.shaped.dirty, ha ▸ h.shaped.saved⟩ hsteady (by rw [hg])
      hcol hrow (hstyle.trans h.style)
  have hreply : ∀ reply, Front handed r (s.pushPendingResponse reply) := fun _ =>
    hframe rfl rfl rfl ⟨rfl, rfl, rfl, rfl, rfl, rfl, (List.append_nil _).symm⟩ rfl rfl rfl
  unfold Screen.csiAction Roll.csiAction
  dsimp only
  rw [hcol, hrow, h.cursorCol, h.cursorRow]
  split
  any_goals exact h.moveTo _ _
  · exact h.eraseInDisplay _
  · exact h.eraseInLine _
  · obtain ⟨htop, hbottom⟩ := hregion h.altMode _ _ rfl
    exact h.setScrollRegion htop hbottom
  · -- the other ones do not touch the window
    split
    any_goals exact absurd rfl (by assumption)
    · split_ifs
      · exact hframe rfl rfl rfl ⟨rfl, rfl, rfl, rfl, rfl, rfl, (List.append_nil _).symm⟩ rfl rfl rfl
      · have hsteady := steady_popKeyboardProtocolFlags
          (max ((params.head?.bind List.head?).getD 1) 1) s
        obtain ⟨flags, stack, hpop⟩ := popKeyboardProtocolFlags_eq
          (max ((params.head?.bind List.head?).getD 1) 1) s
        rw [hpop] at hsteady ⊢
        exact hframe rfl rfl rfl hsteady rfl rfl rfl
      · exact h
    · split_ifs
      · exact hreply _
      · exact hreply _
      · exact h
    · split_ifs
      · exact h
      · exact hreply _
      · exact hreply _
      · exact h
    · exact h

/-- An OSC sequence touches the hyperlinks only. -/
theorem oscDispatch_eq (s : Screen) (params : List (List UInt8)) :
    ∃ links url col row, s.oscDispatch params =
      { s with
        grid := { s.grid with hyperlinks := links }
        currentHyperlinkUrl := url
        hyperlinkStartCol := col
        hyperlinkStartRow := row } := by
  have hfinish : ∃ links url, s.finishHyperlink =
      { s with grid := { s.grid with hyperlinks := links }, currentHyperlinkUrl := url } := by
    unfold finishHyperlink
    split
    · exact ⟨_, _, rfl⟩
    · exact ⟨_, _, rfl⟩
  have hset : ∀ url, ∃ links url' col row, s.setHyperlink url =
      { s with
        grid := { s.grid with hyperlinks := links }
        currentHyperlinkUrl := url'
        hyperlinkStartCol := col
        hyperlinkStartRow := row } := by
    intro url
    obtain ⟨links, url', h⟩ := hfinish
    unfold setHyperlink
    rw [h]
    cases url with
    | none => exact ⟨_, _, _, _, rfl⟩
    | some url =>
      dsimp only
      split <;> exact ⟨_, _, _, _, rfl⟩
  unfold oscDispatch
  split
  · exact ⟨_, _, _, _, rfl⟩
  · split_ifs
    · exact hset _
    · exact ⟨_, _, _, _, rfl⟩

theorem Back.fed (h : Back handed r s) (action : Perform) :
    (s.feeds V action).flatMap fedLine = [] := by
  rw [List.flatMap_eq_nil_iff]
  intro t ht
  obtain ⟨-, -, -, halt⟩ := feeds_frame ht
  simp [fedLine, retained, halt, h.altMode]

theorem Shows.csiDispatch (h : Shows handed r s) (params : List (List ℕ))
    (intermediates : List UInt8) {action : Char}
    (hwhole : s.KeepsWhole (.perform (.csiDispatch params intermediates false action)))
    (hshaped : (s.csiDispatch params intermediates action).Shaped r.width r.height) :
    Shows handed (r.csiDispatch params intermediates action)
      (s.csiDispatch params intermediates action) := by
  unfold Screen.csiDispatch at hshaped ⊢
  unfold Roll.csiDispatch
  dsimp only
  by_cases h₁ : intermediates.head? = some 0x3f ∧ action = 'h'
  · rw [if_pos h₁, if_pos h₁]
    exact .decPrivateMode true params h
  by_cases h₂ : intermediates.head? = some 0x3f ∧ action = 'l'
  · rw [if_neg h₁, if_neg h₁, if_pos h₂, if_pos h₂]
    exact .decPrivateMode false params h
  rw [if_neg h₁, if_neg h₂] at hshaped ⊢
  rw [if_neg h₁, if_neg h₂]
  have hstyle := style_csiAction s params intermediates action
  by_cases hm : action = 'm'
  · subst hm
    rw [if_pos rfl] at hstyle ⊢
    refine h.frame hshaped (steady_csiAction s params intermediates (by decide)) rfl rfl rfl ?_
    rw [hstyle, h.style]
  · rw [if_neg hm] at hstyle ⊢
    rcases h with h | h
    · rw [if_neg (by simp [h.away])]
      exact .inl (h.csiAction params intermediates hm hwhole)
    · rw [if_pos h.away]
      refine .inr ?_
      by_cases hr : action = 'r'
      · subst hr
        exact { h with shaped := hshaped }
      · exact h.frame hshaped (steady_csiAction s params intermediates hr) (hstyle.trans h.style)

theorem Shows.perform (h : Shows handed r s) (action : Perform)
    (hwhole : s.KeepsWhole (.perform action)) :
    Shows handed (r.perform V action) (s.perform V action) := by
  have hshaped := (kept_perform V h.shaped action).shaped
  cases action with
  | print c =>
    rcases h with h | h
    · rw [Roll.perform, if_neg (by simp [h.away])]
      exact .inl (h.print c _)
    · have hsteady := steady_writeChar s c ((V.width c).getD 1)
      rw [show (s.wrapFeeds ((V.width c).getD 1)).flatMap fedLine = [] from h.fed (V := V) (.print c)]
        at hsteady
      rw [Roll.perform, if_pos h.away]
      exact .inr (h.frame hshaped hsteady ((style_writeChar s c _).trans h.style))
  | execute byte =>
    rcases h with h | h
    · rw [Roll.perform, if_neg (by simp [h.away])]
      exact .inl (h.execute byte)
    · have hsteady := steady_execute V s byte
      rw [h.fed] at hsteady
      rw [Roll.perform, if_pos h.away]
      exact .inr (h.frame hshaped hsteady ((style_execute s byte).trans h.style))
  | csiDispatch params intermediates ignore action =>
    exact h.csiDispatch params intermediates hwhole hshaped
  | oscDispatch params bellTerminated =>
    have hsteady := steady_oscDispatch s params
    obtain ⟨links, url, col, row, hosc⟩ := oscDispatch_eq s params
    show Shows handed r (s.oscDispatch params)
    have hshaped : (s.oscDispatch params).Shaped r.width r.height := hshaped
    rw [hosc] at hshaped hsteady ⊢
    exact h.frame hshaped hsteady rfl rfl rfl h.style
  | escDispatch intermediates ignore byte => exact h
  | hook params intermediates ignore action => exact h
  | put byte => exact h
  | unhook => exact h

end Screen

/-! ## Runs -/

namespace Screen

/-- The primary buffer: the one on display, or the one saved behind the alternate screen. -/
def primary (s : Screen) : ScreenBuffer :=
  s.altScreen.getD ⟨s.grid.rows, s.cursorCol, s.cursorRow⟩

end Screen

namespace Log

variable {V : Vte} {l : Log} {r : Roll}

theorem shows_step (h : l.screen.Shows l.handed r) {op : ScreenOp} (hop : l.screen.KeepsWhole op) :
    (l.step V op).screen.Shows (l.step V op).handed (r.step V op) := by
  cases op with
  | perform action => exact h.perform action hop
  | resize cols rows => exact hop.elim
  | takeDirtyRows =>
    have hdirty : ∃ dirty, l.screen.takeDirtyRows.2 = { l.screen with dirty := dirty } := by
      unfold Screen.takeDirtyRows
      split_ifs
      · exact ⟨_, rfl⟩
      · exact ⟨_, rfl⟩
    have hshaped := Screen.shaped_takeDirtyRows h.shaped
    obtain ⟨dirty, hdirty⟩ := hdirty
    show l.screen.takeDirtyRows.2.Shows l.handed r
    rw [hdirty] at hshaped ⊢
    exact h.frame hshaped ⟨rfl, rfl, rfl, rfl, rfl, rfl, (List.append_nil _).symm⟩ rfl rfl rfl h.style
  | takeScrolledOffLines =>
    rcases h with h | h
    · refine .inl { h with shaped := ?_, gone := ?_ }
      · exact ⟨h.shaped.grid, h.shaped.dirty, h.shaped.saved⟩
      · exact (List.append_nil _).trans h.gone
    · refine .inr { h with shaped := ?_, gone := ?_ }
      · exact ⟨h.shaped.grid, h.shaped.dirty, h.shaped.saved⟩
      · exact (List.append_nil _).trans h.gone

theorem shows_run : ∀ (ops : List ScreenOp) {l : Log} {r : Roll}, l.screen.Shows l.handed r →
    Runs.Along (step V) (fun l op => l.screen.KeepsWhole op) l ops →
    (Runs.run (step V) l ops).screen.Shows (Runs.run (step V) l ops).handed
      (Runs.run (Roll.step V) r ops)
  | [], _, _, h, _ => h
  | _ :: ops, _, _, h, hops => shows_run ops (shows_step h hops.1) hops.2

theorem shows_new (cols : ℕ) {rows : ℕ} (hrows : 0 < rows) :
    (Screen.new cols rows).Shows [] (Roll.new cols rows) := by
  have htop : (Roll.new cols rows).top = 0 := by
    simp [Roll.top, Roll.new, Grid.blankRows]
  refine .inl ⟨Screen.shaped_new cols rows, rfl, rfl, rfl, rfl, ?_, rfl, ?_, ?_, ?_, rfl, rfl, hrows⟩
  · show rows - 1 + 1 = rows
    omega
  · simp [Roll.new, Grid.blankRows]
  · rw [Roll.gone, htop]
    rfl
  · rw [Roll.window, htop]
    rfl

/-- **The primary screen is a window on a roll of paper.**  At the end of every run that keeps the
    size, and the region of the primary screen whole, the lines handed out, those that wait for it
    and the rows of the primary buffer are the rows of the roll in order, and the two cursors, the
    styles and the buffers on display agree. -/
theorem roll_run (V : Vte) (cols : ℕ) {rows : ℕ} (hrows : 0 < rows) (ops : List VtParser.Op)
    (hops : Runs.Along (step V) (fun l op => l.screen.KeepsWhole op) ⟨Screen.new cols rows, [], []⟩
      ((VtParser.new V cols rows).trace ops)) :
    let l := Runs.run (step V) ⟨Screen.new cols rows, [], []⟩ ((VtParser.new V cols rows).trace ops)
    let r := Runs.run (Roll.step V) (Roll.new cols rows) ((VtParser.new V cols rows).trace ops)
    l.handed ++ l.screen.pendingScrollback ++ l.screen.primary.rows = r.rows ∧
      l.screen.primary.cursorCol = r.col ∧ l.screen.primary.cursorRow = r.line ∧
      l.screen.style = r.style ∧ l.screen.altMode = r.away := by
  have h := shows_run (V := V) _ (l := ⟨Screen.new cols rows, [], []⟩) (shows_new cols hrows) hops
  dsimp only
  generalize Runs.run (step V) _ _ = l at h ⊢
  generalize Runs.run (Roll.step V) _ _ = r at h ⊢
  have hprimary : l.handed ++ l.screen.pendingScrollback = r.gone ∧
      l.screen.primary = ⟨r.window, r.col, r.line⟩ := by
    rcases h with h | h
    · refine ⟨h.gone, ?_⟩
      rw [Screen.primary, h.altScreen, Option.getD_none, h.rows, h.cursorCol, h.cursorRow]
    · refine ⟨h.gone, ?_⟩
      rw [Screen.primary, h.saved, Option.getD_some]
  refine ⟨?_, ?_, ?_, h.style, h.away⟩
  · rw [hprimary.1, hprimary.2, Roll.gone_append_window]
  · rw [hprimary.2]
  · rw [hprimary.2]

/-- Three characters and two line feeds on a screen of two columns and two rows. -/
theorem roll_run_lines :
    let ops : List VtParser.Op := [.advance [0x61, 0x62, 0x63, 0x0a], .takeScrolledOffLines,
      .advance [0x0a]]
    let trace := (VtParser.new plainVte 2 2).trace ops
    let l := Runs.run (step plainVte) ⟨Screen.new 2 2, [], []⟩ trace
    let r := Runs.run (Roll.step plainVte) (Roll.new 2 2) trace
    l.handed ++ l.screen.pendingScrollback ++ l.screen.primary.rows = r.rows ∧
      l.screen.primary.cursorCol = r.col ∧ l.screen.primary.cursorRow = r.line ∧
      l.screen.style = r.style ∧ l.screen.altMode = r.away := by
  have hkeeps : ∀ {s : Screen} {action : Perform}, s.regionAsked action = none →
      s.KeepsWhole (.perform action) := by
    intro s action h _ top bottom hasked
    rw [h] at hasked
    cases hasked
  exact roll_run plainVte 2 (by decide) _
    ⟨hkeeps rfl, hkeeps rfl, hkeeps rfl, hkeeps rfl, trivial, hkeeps rfl, trivial⟩

end Log

end Nexterm.Vt

/-
  The shape of the screen and the bounds of the cursor.

  * `Screen.Bounded`: the cursor, the saved cursor and the bottom of the region lie on the screen.
  * `Bounded.perform`, `Bounded.step`: every operation keeps the bounds.
  * `dirtyRowsIndexed`, `resizedRowsIndexed`: the two loops that index rows and cells without a
    check, where `none` is an index out of bounds; on a screen of the right shape there is none.
  * `VtParser.bounds_run`: all of it over runs.
-/
import Nexterm.Vt.Trace

namespace Nexterm.Vt

/-- An operation of the screen that is not a resize to an empty one. -/
def ScreenOp.Nonzero : ScreenOp → Prop
  | .resize cols rows => 0 < cols ∧ 0 < rows
  | _ => True

namespace Screen

/-- The cursor and the saved cursor lie on the screen; a column equal to the width is a wrap that
    is still to come.  The saved buffer exists while the alternate one is shown. -/
structure Bounded (width height : ℕ) (s : Screen) : Prop where
  cursorRow : s.cursorRow < height
  cursorCol : s.cursorCol ≤ width
  scrollBottom : s.scrollBottom < height
  saved : ∀ b, s.altScreen = some b → b.cursorRow < height ∧ b.cursorCol ≤ width
  altMode : s.altMode = s.altScreen.isSome

variable {width height : ℕ} {s s' : Screen}

/-- A step that only moves the cursor and edits cells. -/
theorem Bounded.of_steady (hb : s.Bounded width height) {lines : List (List Cell)}
    (h : Steady lines s s') (hrow : s'.cursorRow < height) (hcol : s'.cursorCol ≤ width) :
    s'.Bounded width height where
  cursorRow := hrow
  cursorCol := hcol
  scrollBottom := h.scrollBottom ▸ hb.scrollBottom
  saved := h.altScreen ▸ hb.saved
  altMode := by rw [h.altMode, h.altScreen, hb.altMode]

/-- A step that leaves the cursor alone. -/
theorem Bounded.frame (hb : s.Bounded width height) {lines : List (List Cell)}
    (h : Steady lines s s') (hcursor : s'.cursorCol = s.cursorCol ∧ s'.cursorRow = s.cursorRow) :
    s'.Bounded width height :=
  hb.of_steady h (hcursor.2 ▸ hb.cursorRow) (hcursor.1 ▸ hb.cursorCol)

theorem Bounded.edited (hb : s.Bounded width height) (h : Edited s s') :
    s'.Bounded width height := hb.frame h.steady h.cursor

/-! ## The cursor -/

theorem Bounded.moveCursor (hs : s.Shaped width height) (hb : s.Bounded width height)
    (col row : ℕ) : (s.moveCursor col row).Bounded width height := by
  have hrow := hb.cursorRow
  have hw := hs.grid.width_eq
  have hh := hs.grid.height_eq
  refine hb.of_steady (steady_moveCursor s col row) ?_ ?_
  · show min row (s.grid.height - 1) < height
    omega
  · show min col (s.grid.width - 1) ≤ width
    omega

theorem Bounded.advanceLine (hb : s.Bounded width height) : s.advanceLine.Bounded width height := by
  obtain ⟨hcol, hrow⟩ := cursor_advanceLine s
  have hlt := hb.cursorRow
  have hbottom := hb.scrollBottom
  refine hb.of_steady (steady_advanceLine s) ?_ (hcol ▸ hb.cursorCol)
  rw [hrow]
  split_ifs <;> omega

theorem Bounded.wrapLine (hb : s.Bounded width height) :
    s.wrapLine.Bounded width height ∧ s.wrapLine.cursorCol = 0 := by
  have h : Bounded width height { s with cursorCol := 0 } :=
    ⟨hb.cursorRow, Nat.zero_le _, hb.scrollBottom, hb.saved, hb.altMode⟩
  exact ⟨h.advanceLine, (cursor_advanceLine _).1⟩

/-- After the wraps there is room for a cell. -/
theorem Bounded.writeChar (hs : s.Shaped width height) (hb : s.Bounded width height)
    (hpos : 0 < width) (ch : Char) (charWidth : ℕ) :
    (s.writeChar ch charWidth).Bounded width height := by
  have hwrap : ∀ {s : Screen} (c : Prop) [Decidable c], s.Bounded width height →
      s.grid.width = width → (¬c → s.cursorCol < width) →
      (if c then s.wrapLine else s).Bounded width height ∧
        (if c then s.wrapLine else s).grid.width = width ∧
          (if c then s.wrapLine else s).cursorCol < width := by
    intro s c _ hb hw hcol
    split_ifs with hc
    · exact ⟨hb.wrapLine.1, (steady_wrapLine s).width.trans hw, hb.wrapLine.2.symm ▸ hpos⟩
    · exact ⟨hb, hw, hcol hc⟩
  have hw := hs.grid.width_eq
  have h₁ := hwrap (s.cursorCol ≥ s.grid.width) hb hw fun h => hw ▸ not_le.1 h
  unfold Screen.writeChar
  dsimp only
  generalize (if s.cursorCol ≥ s.grid.width then s.wrapLine else s) = s₁ at h₁ ⊢
  obtain ⟨hb₁, hw₁, hcol₁⟩ := h₁
  have h₂ := hwrap (charWidth = 2 ∧ s₁.cursorCol + 1 ≥ s₁.grid.width) hb₁ hw₁ fun _ => hcol₁
  generalize (if charWidth = 2 ∧ s₁.cursorCol + 1 ≥ s₁.grid.width then s₁.wrapLine else s₁) = s₂
    at h₂ ⊢
  obtain ⟨hb₂, hw₂, hcol₂⟩ := h₂
  split_ifs with hwide
  · -- the placeholder fits as well
    have hroom : s₂.cursorCol + 1 < s₂.grid.width := hwide.2
    exact ⟨hb₂.cursorRow, by show s₂.cursorCol + 1 + 1 ≤ width; omega, hb₂.scrollBottom, hb₂.saved,
      hb₂.altMode⟩
  · exact ⟨hb₂.cursorRow, hcol₂, hb₂.scrollBottom, hb₂.saved, hb₂.altMode⟩

theorem Bounded.setScrollRegion (hs : s.Shaped width height) (hb : s.Bounded width height)
    (top bottom : ℕ) : (s.setScrollRegion top bottom).Bounded width height := by
  have hrow := hb.cursorRow
  have hh := hs.grid.height_eq
  refine ⟨by show 0 < height; omega, Nat.zero_le _, ?_, hb.saved, hb.altMode⟩
  show min bottom (s.grid.height - 1) < height
  omega

theorem Bounded.eraseInDisplay (hb : s.Bounded width height) (mode : ℕ) :
    (s.eraseInDisplay mode).Bounded width height := by
  have hrow := hb.cursorRow
  have hsteady := steady_eraseInDisplay s mode
  match mode with
  | 0 => exact hb.edited ((edited_eraseInLine s 0).trans (edited_clearRows _ _))
  | 1 => exact hb.edited ((edited_clearRows s _).trans (edited_eraseInLine _ 1))
  | 2 => exact hb.of_steady hsteady (by show 0 < height; omega) (Nat.zero_le _)
  | 3 => exact hb.edited (edited_clearRows s _)
  | _ + 4 => exact hb

/-! ## Buffers -/

theorem Bounded.switchToAlt (hs : s.Shaped width height) (hb : s.Bounded width height) :
    s.switchToAlt.Bounded width height := by
  have hrow := hb.cursorRow
  have hh := hs.grid.height_eq
  unfold Screen.switchToAlt
  split_ifs
  · exact hb
  · refine ⟨by show 0 < height; omega, Nat.zero_le _, ?_, ?_, rfl⟩
    · show s.grid.height - 1 < height
      omega
    · intro b hsaved
      cases hsaved
      exact ⟨hrow, hb.cursorCol⟩

theorem Bounded.switchToPrimary (hs : s.Shaped width height) (hb : s.Bounded width height) :
    s.switchToPrimary.Bounded width height := by
  have hrow := hb.cursorRow
  have hh := hs.grid.height_eq
  unfold Screen.switchToPrimary
  by_cases halt : s.altMode
  swap
  · simp only [halt, Bool.not_false, if_true]
    exact hb
  simp only [halt, Bool.not_true, Bool.false_eq_true, if_false]
  have hsome := hb.altMode ▸ halt
  obtain ⟨saved, hsaved⟩ := Option.isSome_iff_exists.1 hsome
  obtain ⟨hsrow, hscol⟩ := hb.saved saved hsaved
  simp only [hsaved]
  refine ⟨hsrow, hscol, ?_, ?_, rfl⟩
  · show s.grid.height - 1 < height
    omega
  · intro b hnone
    cases hnone

theorem Bounded.setMode (hs : s.Shaped width height) (hb : s.Bounded width height) (enable : Bool)
    (mode : ℕ) : (s.setMode enable mode).Bounded width height := by
  unfold Screen.setMode
  split_ifs
  · exact hb.switchToAlt hs
  · exact hb.switchToPrimary hs
  all_goals exact ⟨hb.cursorRow, hb.cursorCol, hb.scrollBottom, hb.saved, hb.altMode⟩

theorem Bounded.decPrivateMode (enable : Bool) : ∀ (params : List (List ℕ)) {s : Screen},
    s.Shaped width height → s.Bounded width height →
      (s.decPrivateMode params enable).Bounded width height
  | [], _, _, hb => hb
  | _ :: params, _, hs, hb =>
    Bounded.decPrivateMode enable params (kept_setMode hs enable _).shaped (hb.setMode hs enable _)

theorem Bounded.resize (hb : s.Bounded width height) {cols rows : ℕ} (hrows : 0 < rows) :
    (s.resize cols rows).Bounded cols rows := by
  refine ⟨?_, ?_, ?_, ?_, ?_⟩
  · show min s.cursorRow (rows - 1) < rows
    omega
  · show min s.cursorCol (cols - 1) ≤ cols
    omega
  · show rows - 1 < rows
    omega
  · intro b hsaved
    obtain ⟨saved, -, rfl⟩ := Option.map_eq_some_iff.1 hsaved
    constructor
    · show min saved.cursorRow (rows - 1) < rows
      omega
    · show min saved.cursorCol (cols - 1) ≤ cols
      omega
  · show s.altMode = (s.altScreen.map _).isSome
    rw [Option.isSome_map, hb.altMode]

/-! ## Actions -/

theorem Bounded.execute (hs : s.Shaped width height) (hb : s.Bounded width height) (byte : UInt8) :
    (s.execute byte).Bounded width height := by
  unfold Screen.execute
  split_ifs
  · exact hb.moveCursor hs _ _
  · exact hb.moveCursor hs _ _
  · exact hb.advanceLine
  · exact hb.moveCursor hs _ _
  · exact hb

theorem cursor_popKeyboardProtocolFlags : ∀ (n : ℕ) (s : Screen),
    (s.popKeyboardProtocolFlags n).cursorCol = s.cursorCol ∧
      (s.popKeyboardProtocolFlags n).cursorRow = s.cursorRow
  | 0, _ => ⟨rfl, rfl⟩
  | n + 1, s => by
    unfold popKeyboardProtocolFlags
    split
    · exact ⟨rfl, rfl⟩
    · exact cursor_popKeyboardProtocolFlags n _

theorem Bounded.csiAction (hs : s.Shaped width height) (hb : s.Bounded width height)
    (params : List (List ℕ)) (intermediates : List UInt8) (action : Char) :
    (s.csiAction params intermediates action).Bounded width height := by
  have hreply : ∀ reply, (s.pushPendingResponse reply).Bounded width height :=
    fun _ => ⟨hb.cursorRow, hb.cursorCol, hb.scrollBottom, hb.saved, hb.altMode⟩
  unfold Screen.csiAction
  dsimp only
  split
  any_goals exact hb.moveCursor hs _ _
  · exact hb.eraseInDisplay _
  · exact hb.edited (edited_eraseInLine s _)
  · exact ⟨hb.cursorRow, hb.cursorCol, hb.scrollBottom, hb.saved, hb.altMode⟩
  · exact hb.setScrollRegion hs _ _
  · split_ifs
    · exact ⟨hb.cursorRow, hb.cursorCol, hb.scrollBottom, hb.saved, hb.altMode⟩
    · exact hb.frame (steady_popKeyboardProtocolFlags _ s) (cursor_popKeyboardProtocolFlags _ s)
    · exact hb
  · split_ifs
    · exact hreply _
    · exact hreply _
    · exact hb
  · split_ifs
    · exact hb
    · exact hreply _
    · exact hreply _
    · exact hb
  · exact hb

theorem cursor_setHyperlink (s : Screen) (url : Option String) :
    (s.setHyperlink url).cursorCol = s.cursorCol ∧ (s.setHyperlink url).cursorRow = s.cursorRow := by
  have hfinish : s.finishHyperlink.cursorCol = s.cursorCol ∧
      s.finishHyperlink.cursorRow = s.cursorRow := by
    unfold finishHyperlink
    split <;> exact ⟨rfl, rfl⟩
  unfold setHyperlink
  cases url with
  | none => exact hfinish
  | some url =>
    dsimp only
    split <;> exact hfinish

theorem cursor_oscDispatch (s : Screen) (params : List (List UInt8)) :
    (s.oscDispatch params).cursorCol = s.cursorCol ∧
      (s.oscDispatch params).cursorRow = s.cursorRow := by
  unfold oscDispatch
  cases params with
  | nil => exact ⟨rfl, rfl⟩
  | cons code args =>
    dsimp only
    by_cases hcode : (fromUtf8 code).map trim = some "8"
    · rw [if_pos hcode]
      exact cursor_setHyperlink s _
    · rw [if_neg hcode]
      exact ⟨rfl, rfl⟩

theorem Bounded.perform (V : Vte) (hs : s.Shaped width height) (hb : s.Bounded width height)
    (hpos : 0 < width) (action : Perform) : (s.perform V action).Bounded width height := by
  cases action with
  | print c => exact hb.writeChar hs hpos c _
  | execute byte => exact hb.execute hs byte
  | csiDispatch params intermediates ignore action =>
    show (s.csiDispatch params intermediates action).Bounded width height
    unfold csiDispatch
    split_ifs
    · exact Bounded.decPrivateMode true params hs hb
    · exact Bounded.decPrivateMode false params hs hb
    · exact hb.csiAction hs params intermediates action
  | oscDispatch params bellTerminated =>
    exact hb.frame (steady_oscDispatch s params) (cursor_oscDispatch s params)
  | escDispatch intermediates ignore byte => exact hb
  | hook params intermediates ignore action => exact hb
  | put byte => exact hb
  | unhook => exact hb

theorem Bounded.takeDirtyRows (hb : s.Bounded width height) :
    s.takeDirtyRows.2.Bounded width height := by
  unfold Screen.takeDirtyRows
  split_ifs
  · exact hb
  · exact ⟨hb.cursorRow, hb.cursorCol, hb.scrollBottom, hb.saved, hb.altMode⟩

theorem cursor_takeDirtyRows (s : Screen) : s.takeDirtyRows.2.cursorCol = s.cursorCol ∧
    s.takeDirtyRows.2.cursorRow = s.cursorRow := by
  unfold Screen.takeDirtyRows
  split_ifs <;> exact ⟨rfl, rfl⟩

/-! ## Indices -/

/-- The loop of `take_dirty_rows`, which indexes the rows by the dirty flags. -/
def dirtyRowsIndexed (grid : Grid) (dirty : List Bool) : Option (List DirtyRow) :=
  ((List.range dirty.length).filter fun row => dirty.getD row false).mapM fun row =>
    grid.rows[row]?.map fun cells => ⟨row, cells⟩

/-- An assignment of `resize`: `new[r][c] = old[r][c]`. -/
def assignIndexed (old new : List (List Cell)) (r c : ℕ) : Option (List (List Cell)) := do
  let cell ← old[r]?.bind (·[c]?)
  let row ← new[r]?
  if c < row.length then some (new.set r (row.set c cell)) else none

/-- The inner loop of `resize`. -/
def assignRowIndexed (old new : List (List Cell)) (r copyCols : ℕ) : Option (List (List Cell)) :=
  (List.range copyCols).foldlM (fun new c => assignIndexed old new r c) new

/-- The loops of `resize`. -/
def resizedRowsIndexed (old : List (List Cell)) (oldCols oldRows newCols newRows : ℕ) :
    Option (List (List Cell)) :=
  (List.range (min oldRows newRows)).foldlM
    (fun new r => assignRowIndexed old new r (min oldCols newCols)) (Grid.blankRows newCols newRows)

theorem dirtyRowsIndexed_eq (hs : s.Shaped width height) :
    dirtyRowsIndexed s.grid s.dirty = some (dirtyRows s.grid s.dirty) := by
  have h : ∀ l : List ℕ, (∀ row ∈ l, row < height) →
      ((l.filter fun row => s.dirty.getD row false).mapM fun row =>
        s.grid.rows[row]?.map fun cells => (⟨row, cells⟩ : DirtyRow)) =
      some (l.filterMap fun row =>
        if s.dirty.getD row false then some ⟨row, s.grid.rows.getD row []⟩ else none) := by
    intro l
    induction l with
    | nil => exact fun _ => rfl
    | cons row l ih =>
      intro hl
      have hrow : row < s.grid.rows.length := hs.grid.length_rows ▸ hl row List.mem_cons_self
      have ih := ih fun r hr => hl r (List.mem_cons_of_mem _ hr)
      by_cases hd : s.dirty.getD row false
      · rw [List.filter_cons, if_pos hd, List.mapM_cons, ih, List.filterMap_cons, if_pos hd]
        simp [List.getElem?_eq_getElem hrow, List.getD_eq_getElem?_getD]
      · rw [List.filter_cons, if_neg hd, ih, List.filterMap_cons, if_neg hd]
  exact h _ fun row hrow => hs.dirty ▸ List.mem_range.1 hrow

/-- The inner loop copies the first cells of a row. -/
theorem assignRowIndexed_eq {old new : List (List Cell)} {r : ℕ} {src dst : List Cell}
    (hsrc : old[r]? = some src) (hdst : new[r]? = some dst) : ∀ k, k ≤ src.length →
    k ≤ dst.length → assignRowIndexed old new r k = some (new.set r (src.take k ++ dst.drop k)) := by
  obtain ⟨hr, hdst⟩ := List.getElem?_eq_some_iff.1 hdst
  intro k
  induction k with
  | zero =>
    intro _ _
    simp [assignRowIndexed, ← hdst]
  | succ k ih =>
    intro hk hk'
    have ih := ih (Nat.le_of_lt hk) (Nat.le_of_lt hk')
    have hcell :
        (src.take k ++ dst.drop k).set k src[k] = src.take (k + 1) ++ dst.drop (k + 1) := by
      refine List.ext_getElem? ?_
      intro i
      simp only [List.getElem?_set, List.getElem?_append, List.getElem?_take, List.getElem?_drop,
        List.length_append, List.length_take, List.length_drop]
      grind
    unfold assignRowIndexed at ih ⊢
    rw [List.range_succ, List.foldlM_append, ih]
    simp only [Option.bind_eq_bind, Option.bind_some, List.foldlM_cons, List.foldlM_nil]
    have hlen : k < (src.take k ++ dst.drop k).length := by
      simp only [List.length_append, List.length_take, List.length_drop]
      omega
    have hstep : assignIndexed old (new.set r (src.take k ++ dst.drop k)) r k =
        some (new.set r (src.take (k + 1) ++ dst.drop (k + 1))) := by
      simp only [assignIndexed, hsrc, Option.bind_eq_bind, Option.bind_some,
        List.getElem?_eq_getElem hk, List.getElem?_set_self hr, if_pos hlen, hcell, List.set_set]
    rw [hstep]
    rfl

/-- Neither loop of `resize` leaves the grids, and they compute what the model says. -/
theorem resizedRowsIndexed_eq {old : List (List Cell)} {oldCols oldRows : ℕ}
    (hlen : old.length = oldRows) (hrow : ∀ row ∈ old, row.length = oldCols)
    (newCols newRows : ℕ) :
    resizedRowsIndexed old oldCols oldRows newCols newRows =
      some (resizedRows old oldCols oldRows newCols newRows) := by
  have hblank : (Grid.blankRow newCols).length = newCols := List.length_replicate
  have h : ∀ k, k ≤ min oldRows newRows →
      (List.range k).foldlM (fun new r => assignRowIndexed old new r (min oldCols newCols))
        (Grid.blankRows newCols newRows) =
      some ((old.take k).map (fun row =>
        row.take (min oldCols newCols) ++ (Grid.blankRow newCols).drop (min oldCols newCols)) ++
          (Grid.blankRows newCols newRows).drop k) := by
    intro k
    induction k with
    | zero =>
      intro _
      rfl
    | succ k ih =>
      intro hk
      have hold : k < old.length := by omega
      have hsrc : old[k]? = some old[k] := List.getElem?_eq_getElem hold
      have hcols := hrow _ (List.getElem_mem hold)
      have hlen' : ((old.take k).map fun row => row.take (min oldCols newCols) ++
          (Grid.blankRow newCols).drop (min oldCols newCols)).length = k := by
        rw [List.length_map, List.length_take]
        omega
      have hdst : (Grid.blankRows newCols newRows).drop k =
          Grid.blankRow newCols :: (Grid.blankRows newCols newRows).drop (k + 1) := by
        have hlt : k < (Grid.blankRows newCols newRows).length := by
          rw [Grid.blankRows, List.length_replicate]
          omega
        rw [List.drop_eq_getElem_cons hlt]
        simp [Grid.blankRows]
      rw [List.range_succ, List.foldlM_append, ih (by omega), hdst]
      simp only [Option.bind_eq_bind, Option.bind_some, List.foldlM_cons, List.foldlM_nil]
      rw [assignRowIndexed_eq hsrc (List.getElem?_append_right (by omega) |>.trans (by
        rw [hlen', Nat.sub_self]; rfl)) _ (by omega) (by omega)]
      simp only [Option.bind_some, List.set_append_right _ _ (Nat.le_of_eq hlen'), hlen',
        Nat.sub_self, List.set_cons_zero, List.take_add_one, hsrc, Option.toList_some, List.map_append,
        List.map_cons, List.map_nil, List.append_assoc, List.singleton_append]
      rfl
  exact h _ le_rfl

/-! ## Runs -/

/-- The shape, the bounds, and no index that leaves the screen. -/
structure Sound (s : Screen) : Prop where
  shaped : s.Shaped s.grid.width s.grid.height
  bounded : s.Bounded s.grid.width s.grid.height
  takeDirtyRows : dirtyRowsIndexed s.grid s.dirty = some (dirtyRows s.grid s.dirty)
  resize : ∀ cols rows, resizedRowsIndexed s.grid.rows s.grid.width s.grid.height cols rows =
    some (s.resize cols rows).grid.rows

theorem Shaped.sound (hs : s.Shaped width height) (hb : s.Bounded width height) : s.Sound := by
  have hw := hs.grid.width_eq
  have hh := hs.grid.height_eq
  refine ⟨by rwa [hw, hh], by rwa [hw, hh], dirtyRowsIndexed_eq hs, ?_⟩
  intro cols rows
  refine resizedRowsIndexed_eq (hs.grid.length_rows.trans hh.symm) ?_ cols rows
  intro row hrow
  rw [hs.grid.length_row row hrow, hw]

/-- The screen has a size, and the cursor lies on it. -/
def Fits (s : Screen) : Prop :=
  ∃ width height, 0 < width ∧ s.Shaped width height ∧ s.Bounded width height

theorem Fits.step (V : Vte) (h : s.Fits) {op : ScreenOp} (hop : op.Nonzero) :
    (s.step V op).Fits := by
  obtain ⟨width, height, hpos, hs, hb⟩ := h
  cases op with
  | perform action =>
    exact ⟨width, height, hpos, (kept_perform V hs action).shaped, hb.perform V hs hpos action⟩
  | resize cols rows =>
    exact ⟨cols, rows, hop.1, shaped_resize hs cols rows, hb.resize hop.2⟩
  | takeDirtyRows =>
    exact ⟨width, height, hpos, shaped_takeDirtyRows hs, hb.takeDirtyRows⟩
  | takeScrolledOffLines =>
    exact ⟨width, height, hpos, ⟨hs.grid, hs.dirty, hs.saved⟩,
      ⟨hb.cursorRow, hb.cursorCol, hb.scrollBottom, hb.saved, hb.altMode⟩⟩

theorem fits_new {cols rows : ℕ} (hcols : 0 < cols) (hrows : 0 < rows) : (new cols rows).Fits := by
  refine ⟨cols, rows, hcols, shaped_new cols rows, hrows, Nat.zero_le _, ?_, ?_, rfl⟩
  · show rows - 1 < rows
    omega
  · intro b hb
    cases hb

end Screen

namespace VtParser

variable {V : Vte}

/-- An operation of the parser that is not a resize to an empty screen. -/
def Op.Nonzero : Op → Prop
  | .resize cols rows => 0 < cols ∧ 0 < rows
  | _ => True

theorem nonzero_trace : ∀ (ops : List Op) {p : VtParser V}, (∀ op ∈ ops, op.Nonzero) →
    ∀ op ∈ p.trace ops, op.Nonzero
  | [], _, _ => fun op hop => by cases hop
  | op :: ops, p, h => by
    intro o ho
    rcases List.mem_append.1 ho with ho | ho
    · have hop := h op List.mem_cons_self
      cases op with
      | advance bytes =>
        obtain ⟨action, -, rfl⟩ := List.mem_map.1 ho
        trivial
      | resize cols rows =>
        obtain rfl := List.mem_singleton.1 ho
        exact hop
      | takeDirtyRows =>
        obtain rfl := List.mem_singleton.1 ho
        trivial
      | takeScrolledOffLines =>
        obtain rfl := List.mem_singleton.1 ho
        trivial
    · exact nonzero_trace ops (fun o ho => h o (List.mem_cons_of_mem _ ho)) o ho

/-- **Shape and bounds over runs.**  In a run of a parser in which every size is positive, the
    screen has its shape, its cursor is within bounds and no index leaves it, before and after
    every single action. -/
theorem bounds_run (V : Vte) {cols rows : ℕ} (hcols : 0 < cols) (hrows : 0 < rows) (ops : List Op)
    (hops : ∀ op ∈ ops, op.Nonzero) :
    Runs.Always (Screen.step V) Screen.Sound (Screen.new cols rows)
      ((new V cols rows).trace ops) := by
  have hnonzero := nonzero_trace ops (p := new V cols rows) hops
  have h := Runs.always_of_along (P := Screen.Fits) (fun s op hs hop => hs.step V hop)
    (Screen.fits_new hcols hrows) (Runs.along_of_forall (D := ScreenOp.Nonzero) hnonzero)
  refine h.imp ?_
  rintro s ⟨width, height, -, hs, hb⟩
  exact hs.sound hb

/-- A line that fills a small screen, and a smaller screen after it. -/
theorem bounds_run_wrap : Runs.Always (Screen.step plainVte) Screen.Sound (Screen.new 2 2)
    ((new plainVte 2 2).trace [.advance [0x61, 0x62, 0x63], .resize 1 1, .takeDirtyRows]) :=
  bounds_run plainVte (by decide) (by decide)
    [.advance [0x61, 0x62, 0x63], .resize 1 1, .takeDirtyRows] (by simp [Op.Nonzero])

end VtParser

end Nexterm.Vt

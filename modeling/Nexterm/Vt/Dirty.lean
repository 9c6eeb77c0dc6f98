/-
  Incremental screen synchronisation: a mirror that applies the dirty rows follows the screen.

  * `Screen.Shaped`: the rows of the grid, of the saved buffer and the dirty flags agree with
    the dimensions.
  * `Kept`: what every operation on the screen guarantees, a preorder: the shape is kept, and a
    row whose flag is off afterwards was off before and has not changed.
  * `kept_perform`, `VtParser.kept_advance`: every action, every byte stream.
  * `Screen.rows_takeDirtyRows`: what the dirty rows do to a mirror.
  * `mirror_rows`: the mirror over runs.
-/
import Nexterm.Vt.Performer
import Nexterm.Lib.Runs

namespace Nexterm.Vt

namespace Screen

/-- The buffers and the dirty flags have the given dimensions. -/
structure Shaped (width height : ℕ) (s : Screen) : Prop where
  grid : s.grid.Shaped width height
  dirty : s.dirty.length = height
  saved : ∀ b, s.altScreen = some b → b.rows.length = height ∧ ∀ row ∈ b.rows, row.length = width

/-- From `s` to `s'` the shape is kept, and every row that is not dirty in `s'` is as it was in
    `s`, where it was not dirty either. -/
structure Kept (width height : ℕ) (s s' : Screen) : Prop where
  shaped : s'.Shaped width height
  clean : ∀ i, s'.isDirty i = false → s.isDirty i = false ∧ s'.grid.rows[i]? = s.grid.rows[i]?

variable {width height : ℕ} {s s' s'' : Screen}

theorem Kept.refl (hs : s.Shaped width height) : Kept width height s s :=
  ⟨hs, fun _ hi => ⟨hi, rfl⟩⟩

theorem Kept.trans (h : Kept width height s s') (h' : Kept width height s' s'') :
    Kept width height s s'' := by
  refine ⟨h'.shaped, ?_⟩
  intro i hi
  obtain ⟨hi', hrow'⟩ := h'.clean i hi
  obtain ⟨hi'', hrow⟩ := h.clean i hi'
  exact ⟨hi'', hrow'.trans hrow⟩

theorem kept_foldl {α : Type} {f : Screen → α → Screen}
    (hf : ∀ s a, s.Shaped width height → Kept width height s (f s a)) :
    ∀ (l : List α) {s : Screen}, s.Shaped width height → Kept width height s (l.foldl f s)
  | [], _, hs => .refl hs
  | a :: l, s, hs => (hf s a hs).trans (kept_foldl hf l (hf s a hs).shaped)

/-- A step that does not touch the cells, the flags and the saved buffer. -/
theorem Kept.frame (h : Kept width height s s') (hg : s''.grid = s'.grid)
    (hd : s''.dirty = s'.dirty) (ha : s''.altScreen = s'.altScreen) : Kept width height s s'' := by
  refine ⟨⟨hg ▸ h.shaped.grid, hd ▸ h.shaped.dirty, ha ▸ h.shaped.saved⟩, ?_⟩
  intro i hi
  rw [hg]
  refine h.clean i ?_
  unfold isDirty at hi ⊢
  rwa [hd] at hi

/-- A step that edits one row and marks it. -/
theorem kept_row (hs : s.Shaped width height) {row : ℕ} {g : Grid} (hg : g.Shaped width height)
    (honly : s.grid.OnlyRow row g) :
    Kept width height s ({ s with grid := g }.markDirty row) := by
  refine ⟨⟨hg, List.length_set.trans hs.dirty, hs.saved⟩, ?_⟩
  intro i hi
  simp only [isDirty, markDirty, List.getD_eq_getElem?_getD, List.getElem?_set] at hi ⊢
  by_cases hrow : row = i
  · -- the flag is on, unless there is no such row
    subst hrow
    have hlt : ¬row < s.dirty.length := by
      intro hlt
      simp [hlt] at hi
    have hnone : ∀ rows : List (List Cell), rows.length = height → rows[row]? = none := by
      intro rows hlen
      exact List.getElem?_eq_none (by rw [hlen, ← hs.dirty]; omega)
    refine ⟨by simp [List.getElem?_eq_none (not_lt.1 hlt)], ?_⟩
    rw [hnone _ hg.length_rows, hnone _ hs.grid.length_rows]
  · rw [if_neg hrow] at hi
    exact ⟨hi, honly i (Ne.symm hrow)⟩

/-- A step that marks every row. -/
theorem kept_all (hs : s.Shaped width height) (hs' : s'.Shaped width height)
    (hd : s'.dirty = List.replicate height true) : Kept width height s s' := by
  refine ⟨hs', ?_⟩
  intro i hi
  have hle : height ≤ i := by
    by_contra hlt
    simp [isDirty, hd, List.getD_eq_getElem?_getD, not_le.1 hlt] at hi
  have hnone : s.dirty[i]? = none := List.getElem?_eq_none (by rw [hs.dirty]; exact hle)
  refine ⟨by simp [isDirty, List.getD_eq_getElem?_getD, hnone], ?_⟩
  rw [List.getElem?_eq_none (by rw [hs'.grid.length_rows]; exact hle),
    List.getElem?_eq_none (by rw [hs.grid.length_rows]; exact hle)]

/-! ## Buffers -/

theorem shaped_new (cols rows : ℕ) : (new cols rows).Shaped cols rows where
  grid := Grid.shaped_new cols rows
  dirty := List.length_replicate
  saved := by
    intro b hb
    cases hb

theorem kept_switchToAlt (hs : s.Shaped width height) : Kept width height s s.switchToAlt := by
  unfold switchToAlt
  split_ifs
  · exact .refl hs
  · have hw := hs.grid.width_eq
    have hh := hs.grid.height_eq
    refine kept_all hs ⟨?_, ?_, ?_⟩ (by rw [hh])
    · rw [hw, hh]
      exact Grid.shaped_new width height
    · rw [List.length_replicate, hh]
    · intro b hb
      cases hb
      exact ⟨hs.grid.length_rows, hs.grid.length_row⟩

theorem kept_switchToPrimary (hs : s.Shaped width height) :
    Kept width height s s.switchToPrimary := by
  unfold switchToPrimary
  by_cases halt : s.altMode
  swap
  · simp only [halt, Bool.not_false, if_true]
    exact .refl hs
  simp only [halt, Bool.not_true, Bool.false_eq_true, if_false]
  cases hb : s.altScreen with
  | none => exact (Kept.refl hs).frame rfl rfl rfl
  | some saved =>
    obtain ⟨hlen, hrows⟩ := hs.saved saved hb
    refine kept_all hs ⟨⟨hs.grid.width_eq, hs.grid.height_eq, hlen, hrows⟩, ?_, ?_⟩ ?_
    · exact List.length_replicate.trans hs.grid.height_eq
    · intro b hb
      cases hb
    · exact congrArg (List.replicate · true) hs.grid.height_eq

theorem length_resizedRows {rows : List (List Cell)} {oldCols oldRows newCols newRows : ℕ}
    (h : rows.length = oldRows) :
    (resizedRows rows oldCols oldRows newCols newRows).length = newRows := by
  simp only [resizedRows, Grid.blankRows, List.length_append, List.length_map, List.length_take,
    List.length_drop, List.length_replicate]
  omega

theorem length_row_resizedRows {rows : List (List Cell)} {oldCols oldRows newCols newRows : ℕ}
    (h : ∀ row ∈ rows, row.length = oldCols) :
    ∀ row ∈ resizedRows rows oldCols oldRows newCols newRows, row.length = newCols := by
  intro row hrow
  rcases List.mem_append.1 hrow with hrow | hrow
  · obtain ⟨r, hr, rfl⟩ := List.mem_map.1 hrow
    have := h r (List.mem_of_mem_take hr)
    simp only [Grid.blankRow, List.length_append, List.length_take, List.length_drop,
      List.length_replicate]
    omega
  · exact Grid.length_row_blankRows (List.mem_of_mem_drop hrow)

theorem shaped_resize (hs : s.Shaped width height) (cols rows : ℕ) :
    (s.resize cols rows).Shaped cols rows := by
  refine ⟨⟨rfl, rfl, ?_, ?_⟩, List.length_replicate, ?_⟩
  · exact length_resizedRows (hs.grid.length_rows.trans hs.grid.height_eq.symm)
  · refine length_row_resizedRows ?_
    intro row hrow
    rw [hs.grid.length_row row hrow, hs.grid.width_eq]
  · intro b hb
    obtain ⟨saved, hsaved, rfl⟩ := Option.map_eq_some_iff.1 hb
    obtain ⟨-, hrows⟩ := hs.saved saved hsaved
    refine ⟨length_resizedRows rfl, length_row_resizedRows ?_⟩
    intro row hrow
    cases hsr : saved.rows with
    | nil => simp [hsr] at hrow
    | cons r rs =>
      rw [hrows row hrow]
      exact (hrows r (by simp [hsr])).symm

/-! ## Writing, scrolling, erasing -/

theorem kept_clearRows (hs : s.Shaped width height) (rows : List ℕ) :
    Kept width height s (s.clearRows rows) :=
  kept_foldl (fun _ r hs => kept_row hs (hs.grid.clearRow r) (Grid.onlyRow_clearRow _ r)) rows hs

theorem kept_copyUp (hs : s.Shaped width height) (rows : List ℕ) :
    Kept width height s (s.copyUp rows) :=
  kept_foldl (fun _ r hs => kept_row hs (hs.grid.copyRow r (r + 1)) (Grid.onlyRow_copyRow _ r _))
    rows hs

theorem kept_retainTopLine (hs : s.Shaped width height) : Kept width height s s.retainTopLine := by
  unfold retainTopLine
  split_ifs
  · cases s.grid.rows[s.scrollTop]? with
    | none => exact .refl hs
    | some row => exact (Kept.refl hs).frame rfl rfl rfl
  · exact .refl hs

theorem kept_scrollUp (hs : s.Shaped width height) : Kept width height s s.scrollUp := by
  have htop := kept_retainTopLine hs
  have hcopy := kept_copyUp htop.shaped
    (List.range' s.scrollTop (s.scrollBottom - s.scrollTop))
  exact (htop.trans hcopy).trans (kept_clearRows hcopy.shaped [s.scrollBottom])

theorem kept_advanceLine (hs : s.Shaped width height) : Kept width height s s.advanceLine := by
  unfold advanceLine
  split_ifs
  · exact kept_scrollUp hs
  · exact (Kept.refl hs).frame rfl rfl rfl

theorem kept_wrapLine (hs : s.Shaped width height) : Kept width height s s.wrapLine := by
  have h : Kept width height s { s with cursorCol := 0 } := (Kept.refl hs).frame rfl rfl rfl
  exact h.trans (kept_advanceLine h.shaped)

theorem kept_writeChar (hs : s.Shaped width height) (ch : Char) (charWidth : ℕ) :
    Kept width height s (s.writeChar ch charWidth) := by
  have hwrap : ∀ {s : Screen} (c : Prop) [Decidable c], s.Shaped width height →
      Kept width height s (if c then s.wrapLine else s) := by
    intro s c _ hs
    split_ifs
    · exact kept_wrapLine hs
    · exact .refl hs
  unfold writeChar
  have h₁ := hwrap (s.cursorCol ≥ s.grid.width) hs
  generalize (if s.cursorCol ≥ s.grid.width then s.wrapLine else s) = s₁ at h₁ ⊢
  have h₂ := h₁.trans (hwrap (charWidth = 2 ∧ s₁.cursorCol + 1 ≥ s₁.grid.width) h₁.shaped)
  dsimp only
  generalize (if charWidth = 2 ∧ s₁.cursorCol + 1 ≥ s₁.grid.width then s₁.wrapLine else s₁) = s₂
    at h₂ ⊢
  have hg := h₂.shaped.grid
  split_ifs
  · -- the placeholder is written to the row that is already marked
    have hone := kept_row h₂.shaped
      ((hg.set s₂.cursorCol s₂.cursorRow (s₂.style.cell ch)).set (s₂.cursorCol + 1) s₂.cursorRow
        (s₂.style.cell ' '))
      ((Grid.onlyRow_set _ _ _ _).trans (Grid.onlyRow_set _ _ _ _))
    exact h₂.trans (hone.frame rfl rfl rfl)
  · have hone := kept_row h₂.shaped (hg.set s₂.cursorCol s₂.cursorRow (s₂.style.cell ch))
      (Grid.onlyRow_set _ _ _ _)
    exact h₂.trans (hone.frame rfl rfl rfl)

theorem shaped_eraseColumns (hg : s.grid.Shaped width height) (row : ℕ) (cols : List ℕ) :
    (s.eraseColumns row cols).grid.Shaped width height ∧
      s.grid.OnlyRow row (s.eraseColumns row cols).grid := by
  have h : ∀ (cols : List ℕ) (g : Grid), g.Shaped width height →
      (cols.foldl (fun g col => g.set col row {}) g).Shaped width height ∧
        g.OnlyRow row (cols.foldl (fun g col => g.set col row {}) g) := by
    intro cols
    induction cols with
    | nil => exact fun g hg => ⟨hg, Grid.OnlyRow.refl row g⟩
    | cons col cols ih =>
      intro g hg
      obtain ⟨hshaped, honly⟩ := ih _ (hg.set col row {})
      exact ⟨hshaped, (Grid.onlyRow_set g col row {}).trans honly⟩
  exact h cols s.grid hg

theorem kept_eraseInLine (hs : s.Shaped width height) (mode : ℕ) :
    Kept width height s (s.eraseInLine mode) := by
  have herase : ∀ cols, Kept width height s
      ((s.eraseColumns s.cursorRow cols).markDirty s.cursorRow) := by
    intro cols
    obtain ⟨hshaped, honly⟩ := shaped_eraseColumns hs.grid s.cursorRow cols
    exact kept_row hs hshaped honly
  unfold eraseInLine
  match mode with
  | 0 => exact herase _
  | 1 => exact herase _
  | 2 => exact kept_row hs (hs.grid.clearRow s.cursorRow) (Grid.onlyRow_clearRow _ _)
  | _ + 3 => exact kept_row hs hs.grid (Grid.OnlyRow.refl _ _)

theorem kept_eraseInDisplay (hs : s.Shaped width height) (mode : ℕ) :
    Kept width height s (s.eraseInDisplay mode) := by
  unfold eraseInDisplay
  match mode with
  | 0 =>
    have h := kept_eraseInLine hs 0
    exact h.trans (kept_clearRows h.shaped _)
  | 1 =>
    have h := kept_clearRows hs (List.range s.cursorRow)
    exact h.trans (kept_eraseInLine h.shaped 1)
  | 2 => exact (kept_clearRows hs _).frame rfl rfl rfl
  | 3 => exact kept_clearRows hs _
  | _ + 4 => exact .refl hs

/-! ## Actions -/

theorem kept_setMode (hs : s.Shaped width height) (enable : Bool) (mode : ℕ) :
    Kept width height s (s.setMode enable mode) := by
  unfold setMode
  split_ifs
  · exact kept_switchToAlt hs
  · exact kept_switchToPrimary hs
  all_goals exact (Kept.refl hs).frame rfl rfl rfl

theorem kept_popKeyboardProtocolFlags : ∀ (n : ℕ) {s : Screen}, s.Shaped width height →
    Kept width height s (s.popKeyboardProtocolFlags n)
  | 0, _, hs => .refl hs
  | n + 1, s, hs => by
    unfold popKeyboardProtocolFlags
    split
    · exact (Kept.refl hs).frame rfl rfl rfl
    · rename_i prev rest _
      have h : Kept width height s
          { s with keyboardProtocolStack := rest, keyboardProtocolFlags := prev } :=
        (Kept.refl hs).frame rfl rfl rfl
      exact h.trans (kept_popKeyboardProtocolFlags n h.shaped)

theorem kept_moveCursor (hs : s.Shaped width height) (col row : ℕ) :
    Kept width height s (s.moveCursor col row) := (Kept.refl hs).frame rfl rfl rfl

theorem kept_execute (hs : s.Shaped width height) (byte : UInt8) :
    Kept width height s (s.execute byte) := by
  unfold execute
  split_ifs
  · exact kept_moveCursor hs _ _
  · exact kept_moveCursor hs _ _
  · exact kept_advanceLine hs
  · exact kept_moveCursor hs _ _
  · exact .refl hs

theorem kept_csiAction (hs : s.Shaped width height) (params : List (List ℕ))
    (intermediates : List UInt8) (action : Char) :
    Kept width height s (s.csiAction params intermediates action) := by
  have hreply : ∀ reply, Kept width height s (s.pushPendingResponse reply) :=
    fun reply => (Kept.refl hs).frame rfl rfl rfl
  unfold csiAction
  dsimp only
  split
  any_goals exact kept_moveCursor hs _ _
  · exact kept_eraseInDisplay hs _
  · exact kept_eraseInLine hs _
  · exact (Kept.refl hs).frame rfl rfl rfl
  · exact (Kept.refl hs).frame rfl rfl rfl
  · split_ifs
    · exact (Kept.refl hs).frame rfl rfl rfl
    · exact kept_popKeyboardProtocolFlags _ hs
    · exact .refl hs
  · split_ifs
    · exact hreply _
    · exact hreply _
    · exact .refl hs
  · split_ifs
    · exact .refl hs
    · exact hreply _
    · exact hreply _
    · exact .refl hs
  · exact .refl hs

theorem kept_csiDispatch (hs : s.Shaped width height) (params : List (List ℕ))
    (intermediates : List UInt8) (action : Char) :
    Kept width height s (s.csiDispatch params intermediates action) := by
  have hmode : ∀ enable, Kept width height s (s.decPrivateMode params enable) :=
    fun enable =>
      kept_foldl (fun _ param hs => kept_setMode hs enable (param.head?.getD 0)) params hs
  unfold csiDispatch
  split_ifs
  · exact hmode true
  · exact hmode false
  · exact kept_csiAction hs params intermediates action

theorem kept_finishHyperlink (hs : s.Shaped width height) :
    Kept width height s s.finishHyperlink := by
  unfold finishHyperlink
  split
  · exact .refl hs
  · have hg := hs.grid
    refine ⟨⟨⟨hg.width_eq, hg.height_eq, hg.length_rows, hg.length_row⟩, hs.dirty, hs.saved⟩, ?_⟩
    exact fun i hi => ⟨hi, rfl⟩

theorem kept_setHyperlink (hs : s.Shaped width height) (url : Option String) :
    Kept width height s (s.setHyperlink url) := by
  have h := kept_finishHyperlink hs
  unfold setHyperlink
  cases url with
  | none => exact h
  | some url =>
    dsimp only
    split <;> exact h.frame rfl rfl rfl

theorem kept_oscDispatch (hs : s.Shaped width height) (params : List (List UInt8)) :
    Kept width height s (s.oscDispatch params) := by
  unfold oscDispatch
  cases params with
  | nil => exact .refl hs
  | cons code args =>
    dsimp only
    by_cases hcode : (fromUtf8 code).map trim = some "8"
    · rw [if_pos hcode]
      exact kept_setHyperlink hs _
    · rw [if_neg hcode]
      exact .refl hs

theorem kept_perform (V : Vte) (hs : s.Shaped width height) (action : Perform) :
    Kept width height s (s.perform V action) := by
  cases action with
  | print c => exact kept_writeChar hs c _
  | execute byte => exact kept_execute hs byte
  | csiDispatch params intermediates ignore action =>
    exact kept_csiDispatch hs params intermediates action
  | oscDispatch params bellTerminated =>
    exact kept_oscDispatch hs params
  | escDispatch intermediates ignore byte => exact .refl hs
  | hook params intermediates ignore action => exact .refl hs
  | put byte => exact .refl hs
  | unhook => exact .refl hs

/-! ## Dirty rows -/

/-- What a list of row indices contributes to a mirror. -/
theorem rows_foldl_dirtyRows {grid : Grid} {dirty : List Bool}
    (hg : grid.Shaped width height) (hd : dirty.length = height) (l : List ℕ) :
    ∀ {mirror : Grid}, mirror.Shaped width height →
      let rows := l.filterMap fun row =>
        if dirty.getD row false then some (⟨row, grid.rows.getD row []⟩ : DirtyRow) else none
      (rows.foldl Grid.applyDirtyRow mirror).Shaped width height ∧
        ∀ i, (rows.foldl Grid.applyDirtyRow mirror).rows[i]? =
          if i ∈ l ∧ dirty.getD i false then grid.rows[i]? else mirror.rows[i]? := by
  induction l with
  | nil => exact fun hm => ⟨hm, fun i => by simp⟩
  | cons a l ih =>
    intro mirror hm
    by_cases ha : dirty.getD a false
    · have hlt : a < height := by
        by_contra hge
        simp [List.getD_eq_getElem?_getD, List.getElem?_eq_none (hd ▸ not_lt.1 hge)] at ha
      have hrow : grid.rows[a]? = some (grid.rows.getD a []) := by
        rw [List.getD_eq_getElem?_getD, List.getElem?_eq_getElem (hg.length_rows ▸ hlt),
          Option.getD_some]
      have hlen : (grid.rows.getD a []).length = width :=
        hg.length_row _ (List.mem_of_getElem? hrow)
      have hm' := hm.applyDirtyRow ⟨a, grid.rows.getD a []⟩
      obtain ⟨hshaped, hrows⟩ := ih hm'
      simp only [List.filterMap_cons, ha, if_true, List.foldl_cons]
      refine ⟨hshaped, ?_⟩
      intro i
      rw [hrows i]
      by_cases hi : i = a
      · subst hi
        have hmem : i ∈ i :: l ∧ dirty.getD i false := ⟨List.mem_cons_self, ha⟩
        rw [Grid.rows_applyDirtyRow_self hm hlt hlen, if_pos hmem, ← hrow, ite_self]
      · rw [Grid.onlyRow_applyDirtyRow _ _ i hi]
        simp [hi]
    · obtain ⟨hshaped, hrows⟩ := ih hm
      simp only [List.filterMap_cons, ha, Bool.false_eq_true, if_false]
      refine ⟨hshaped, ?_⟩
      intro i
      rw [hrows i]
      by_cases hi : i = a
      · subst hi
        rw [if_neg fun h => ha h.2, if_neg fun h => ha h.2]
      · simp [hi]

/-- **The dirty rows bring a mirror up to date**, provided that it is right on the clean ones. -/
theorem rows_takeDirtyRows (hs : s.Shaped width height) {mirror : Grid}
    (hm : mirror.Shaped width height) (hsync : s.synchronizedOutput = false)
    (hclean : ∀ i, s.isDirty i = false → mirror.rows[i]? = s.grid.rows[i]?) :
    (s.takeDirtyRows.1.foldl Grid.applyDirtyRow mirror).Shaped width height ∧
      (s.takeDirtyRows.1.foldl Grid.applyDirtyRow mirror).rows = s.grid.rows := by
  obtain ⟨hshaped, hrows⟩ := rows_foldl_dirtyRows hs.grid hs.dirty (List.range s.dirty.length) hm
  have htake : s.takeDirtyRows.1 = dirtyRows s.grid s.dirty := by
    simp [takeDirtyRows, hsync]
  rw [htake]
  refine ⟨hshaped, List.ext_getElem? ?_⟩
  intro i
  rw [dirtyRows, hrows i]
  split_ifs with h
  · rfl
  · refine hclean i ?_
    rw [isDirty]
    by_contra hd
    refine h ⟨List.mem_range.2 ?_, by simpa using hd⟩
    by_contra hge
    simp [List.getD_eq_getElem?_getD, List.getElem?_eq_none (not_lt.1 hge)] at hd

theorem takeDirtyRows_screen (s : Screen) :
    s.takeDirtyRows.2.grid = s.grid ∧ s.takeDirtyRows.2.altScreen = s.altScreen ∧
      s.takeDirtyRows.2.dirty.length = s.dirty.length ∧
      s.takeDirtyRows.2.synchronizedOutput = s.synchronizedOutput := by
  unfold takeDirtyRows
  split_ifs
  · exact ⟨rfl, rfl, rfl, rfl⟩
  · exact ⟨rfl, rfl, List.length_map _, rfl⟩

theorem shaped_takeDirtyRows (hs : s.Shaped width height) :
    s.takeDirtyRows.2.Shaped width height := by
  obtain ⟨hg, ha, hd, -⟩ := takeDirtyRows_screen s
  exact ⟨hg ▸ hs.grid, hd.trans hs.dirty, ha ▸ hs.saved⟩

end Screen

/-! ## The parser -/

namespace VtParser

variable {V : Vte} {width height : ℕ} {p : VtParser V}

theorem apcPush_screen (p : VtParser V) (byte : UInt8) : (p.apcPush byte).screen = p.screen := by
  unfold apcPush
  split_ifs <;> rfl

theorem kept_feed (hp : p.screen.Shaped width height) (byte : UInt8) :
    Screen.Kept width height p.screen (p.feed byte).screen :=
  Screen.kept_foldl (fun _ action hs => Screen.kept_perform V hs action) _ hp

theorem kept_advanceByte (hp : p.screen.Shaped width height) (byte : UInt8) :
    Screen.Kept width height p.screen (p.advanceByte byte).screen := by
  unfold advanceByte
  dsimp only
  split_ifs
  · exact .refl hp
  · exact .refl hp
  · rw [apcPush_screen, apcPush_screen]
    exact .refl hp
  · have h := kept_feed (p := { p with apcPendingEsc := false }) hp 0x1b
    exact h.trans (kept_feed h.shaped byte)
  · exact .refl hp
  · rw [apcPush_screen]
    exact .refl hp
  · exact kept_feed hp byte

theorem kept_advance : ∀ (bytes : List UInt8) {p : VtParser V}, p.screen.Shaped width height →
    Screen.Kept width height p.screen (p.advance bytes).screen
  | [], _, hp => .refl hp
  | byte :: bytes, _, hp =>
    (kept_advanceByte hp byte).trans (kept_advance bytes (kept_advanceByte hp byte).shaped)

/-- The parsers that a program can reach, resizes included. -/
inductive Reachable (V : Vte) : VtParser V → Prop
  | new (cols rows : ℕ) : Reachable V (new V cols rows)
  | advance {p : VtParser V} (bytes : List UInt8) : Reachable V p → Reachable V (p.advance bytes)
  | resize {p : VtParser V} (cols rows : ℕ) : Reachable V p → Reachable V (p.resize cols rows)
  | takeDirtyRows {p : VtParser V} : Reachable V p → Reachable V p.takeDirtyRows.2

theorem Reachable.shaped (h : Reachable V p) :
    p.screen.Shaped p.screen.grid.width p.screen.grid.height := by
  have fits : ∀ {w h} {s : Screen}, s.Shaped w h → s.Shaped s.grid.width s.grid.height := by
    intro w h s hs
    rwa [hs.grid.width_eq, hs.grid.height_eq]
  induction h with
  | new cols rows => exact Screen.shaped_new cols rows
  | advance bytes _ ih => exact fits (kept_advance bytes ih).shaped
  | resize cols rows _ ih => exact Screen.shaped_resize ih cols rows
  | takeDirtyRows _ ih => exact fits (Screen.shaped_takeDirtyRows ih)

end VtParser

/-! ## The mirror -/

/-- What happens between a screen and a mirror of it. -/
inductive MirrorOp
  | advance (bytes : List UInt8)
  | takeDirtyRows

/-- A parser and a mirror of its grid. -/
structure Mirrored (V : Vte) where
  parser : VtParser V
  mirror : Grid

namespace Mirrored

variable {V : Vte}

/-- The mirror applies the dirty rows that are taken. -/
def step (m : Mirrored V) : MirrorOp → Mirrored V
  | .advance bytes => { m with parser := m.parser.advance bytes }
  | .takeDirtyRows =>
    let (rows, parser) := m.parser.takeDirtyRows
    ⟨parser, rows.foldl Grid.applyDirtyRow m.mirror⟩

/-- The invariant: the mirror is right on every row that is not dirty. -/
structure InStep (width height : ℕ) (m : Mirrored V) : Prop where
  shaped : m.parser.screen.Shaped width height
  mirror : m.mirror.Shaped width height
  clean : ∀ i, m.parser.screen.isDirty i = false →
    m.mirror.rows[i]? = m.parser.screen.grid.rows[i]?

variable {width height : ℕ} {m : Mirrored V}

theorem InStep.take (h : m.InStep width height) :
    (m.step .takeDirtyRows).InStep width height ∧
      (m.parser.screen.synchronizedOutput = false →
        (m.step .takeDirtyRows).mirror.rows =
          (m.step .takeDirtyRows).parser.screen.grid.rows) := by
  obtain ⟨hg, -, -, -⟩ := Screen.takeDirtyRows_screen m.parser.screen
  have hshaped := Screen.shaped_takeDirtyRows h.shaped
  cases hsync : m.parser.screen.synchronizedOutput with
  | true =>
    -- nothing is taken, and the flags stay
    refine ⟨?_, fun hfalse => by cases hfalse⟩
    have htake : m.parser.screen.takeDirtyRows = ([], m.parser.screen) := by
      simp [Screen.takeDirtyRows, hsync]
    simp only [step, VtParser.takeDirtyRows, htake]
    exact h
  | false =>
    obtain ⟨hm, hrows⟩ := Screen.rows_takeDirtyRows h.shaped h.mirror hsync h.clean
    refine ⟨⟨hshaped, hm, ?_⟩, fun _ => ?_⟩
    · intro i _
      exact congrArg (·[i]?) (hrows.trans (congrArg Grid.rows hg).symm)
    · exact hrows.trans (congrArg Grid.rows hg).symm

theorem InStep.step (h : m.InStep width height) (op : MirrorOp) :
    (m.step op).InStep width height := by
  cases op with
  | takeDirtyRows => exact h.take.1
  | advance bytes =>
    have hkept := VtParser.kept_advance bytes h.shaped
    refine ⟨hkept.shaped, h.mirror, ?_⟩
    intro i hi
    obtain ⟨hi', hrow⟩ := hkept.clean i hi
    exact (h.clean i hi').trans hrow.symm

/-- **Incremental synchronisation.**  A mirror that starts equal to the grid of a reachable screen
    has the rows of the grid after every `takeDirtyRows` made while synchronized output is off,
    whatever was parsed and taken in between. -/
theorem mirror_rows {p : VtParser V} (hp : VtParser.Reachable V p) (ops : List MirrorOp)
    (hsync : (Runs.run step ⟨p, p.screen.grid⟩ ops).parser.screen.synchronizedOutput = false) :
    (step (Runs.run step ⟨p, p.screen.grid⟩ ops) .takeDirtyRows).mirror.rows =
      (step (Runs.run step ⟨p, p.screen.grid⟩ ops) .takeDirtyRows).parser.screen.grid.rows := by
  have hstart : InStep p.screen.grid.width p.screen.grid.height ⟨p, p.screen.grid⟩ :=
    ⟨hp.shaped, hp.shaped.grid, fun _ _ => rfl⟩
  have hrun : (Runs.run step ⟨p, p.screen.grid⟩ ops).InStep _ _ :=
    Runs.run_inv (fun m op h => h.step op) hstart
  exact hrun.take.2 hsync

end Mirrored

/-- A parser for plain text: printable ASCII is printed, a control character executed. -/
def plainVte : Vte where
  State := Unit
  init := ()
  advance _ byte :=
    ((), [if byte < 0x20 then .execute byte else .print (Char.ofNat byte.toNat)])
  width _ := some 1

/-- Two lines on a small screen, taken one by one. -/
theorem Mirrored.mirror_rows_lines :
    let m : Mirrored plainVte := Runs.run step ⟨VtParser.new plainVte 4 2, Grid.new 4 2⟩
      [.advance [0x61, 0x62], .takeDirtyRows, .advance [0x0d, 0x0a, 0x63]]
    (step m .takeDirtyRows).mirror.rows = (step m .takeDirtyRows).parser.screen.grid.rows :=
  mirror_rows (.new 4 2) [.advance [0x61, 0x62], .takeDirtyRows, .advance [0x0d, 0x0a, 0x63]]
    (by decide +kernel)

end Nexterm.Vt

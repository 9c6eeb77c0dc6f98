/-
  One pane and one client that receives everything its reader emits (`pane.rs`, `state/pane.rs` of
  the client).

  * `Shown`: the pane and its copy at the client.
  * `Shown.Synced`: the invariant: the copy is the snapshot of the pane, which is right on every row
    that is not dirty.
  * `PtyPane.CursorSent`: the condition on one burst.
  * `Shown.agrees_run_iff`: the condition is exact over runs.

  The rows always agree.  The cursor travels inside a diff, and a burst that dirties no row emits
  none.
-/
import Nexterm.Ipc.Stream
import Nexterm.Vt.Scrollback

namespace Nexterm.Server.PtyPane

open Vt

variable {V : Vte} {p : PtyPane V} {cols rows : ℕ}

/-- The snapshot is a mirror of the screen. -/
def Mirrors (cols rows : ℕ) (p : PtyPane V) : Prop :=
  (⟨p.parser, p.latestGrid⟩ : Mirrored V).InStep cols rows

theorem mirrors_spawn (V : Vte) (cols rows : ℕ) : (spawn V cols rows).Mirrors cols rows :=
  ⟨Screen.shaped_new cols rows, Grid.shaped_new cols rows, fun _ _ => rfl⟩

/-- The screen after a burst. -/
def screenAfter (p : PtyPane V) (bytes : List UInt8) : Screen := (p.parser.advance bytes).screen

/-- A burst leaves the snapshot a mirror, and an equal one if synchronized output is off. -/
theorem mirrors_readBurst (h : p.Mirrors cols rows) (bytes : List UInt8) :
    (p.readBurst bytes).1.Mirrors cols rows ∧
      ((p.screenAfter bytes).synchronizedOutput = false →
        (p.readBurst bytes).1.latestGrid.rows = (p.screenAfter bytes).grid.rows) := by
  have hadv : (Mirrored.step ⟨p.parser, p.latestGrid⟩ (.advance bytes)).InStep cols rows :=
    Mirrored.InStep.step h (.advance bytes)
  obtain ⟨htake, heq⟩ := hadv.take
  have hscreen : (p.parser.advance bytes).takeDirtyRows.2.screen.grid =
      (p.screenAfter bytes).grid := (Screen.takeDirtyRows_screen _).1
  rw [← hscreen]
  simp only [Mirrored.step] at htake heq
  change (p.screenAfter bytes).synchronizedOutput = false → _ at heq
  unfold readBurst
  generalize (p.parser.advance bytes).takeDirtyRows = taken at htake heq ⊢
  obtain ⟨dirty, parser⟩ := taken
  cases dirty with
  | nil => exact ⟨htake, heq⟩
  | cons d dirty =>
    obtain ⟨hs, ⟨hw, hh, hlen, hrow⟩, hclean⟩ := htake
    exact ⟨⟨hs, ⟨hw, hh, hlen, hrow⟩, hclean⟩, heq⟩

theorem parser_readBurst (p : PtyPane V) (bytes : List UInt8) :
    (p.readBurst bytes).1.parser = (p.parser.advance bytes).takeDirtyRows.2 := by
  unfold readBurst
  generalize (p.parser.advance bytes).takeDirtyRows = taken
  obtain ⟨dirty, parser⟩ := taken
  cases dirty <;> rfl

theorem takeDirtyRows_eq_nil {s : Screen} (hsync : s.synchronizedOutput = false) :
    s.takeDirtyRows.1 = [] ↔ ∀ row, s.isDirty row = false := by
  have htake : s.takeDirtyRows.1 = Screen.dirtyRows s.grid s.dirty := by
    simp [Screen.takeDirtyRows, hsync]
  rw [htake, Screen.dirtyRows, List.filterMap_eq_nil_iff]
  constructor
  · intro h row
    by_cases hrow : row < s.dirty.length
    · simpa [Screen.isDirty] using h row (List.mem_range.2 hrow)
    · simp [Screen.isDirty, List.getD_eq_getElem?_getD, List.getElem?_eq_none (not_lt.1 hrow)]
  · intro h row _
    exact if_neg (by simpa [Screen.isDirty] using h row)

/-- What a burst emits and does to the snapshot. -/
theorem readBurst_out (p : PtyPane V) (bytes : List UInt8) :
    ((p.screenAfter bytes).takeDirtyRows.1 = [] ∧ (p.readBurst bytes).2 = none ∧
      (p.readBurst bytes).1.latestGrid = p.latestGrid) ∨
    ((p.screenAfter bytes).takeDirtyRows.1 ≠ [] ∧
      (p.readBurst bytes).2 = some ⟨(p.screenAfter bytes).takeDirtyRows.1,
        (p.screenAfter bytes).cursorCol, (p.screenAfter bytes).cursorRow⟩ ∧
      (p.readBurst bytes).1.latestGrid.cursorCol = (p.screenAfter bytes).cursorCol ∧
      (p.readBurst bytes).1.latestGrid.cursorRow = (p.screenAfter bytes).cursorRow) := by
  obtain ⟨hcol, hrow⟩ := Screen.cursor_takeDirtyRows (p.screenAfter bytes)
  have hpair : (p.parser.advance bytes).takeDirtyRows =
      ((p.screenAfter bytes).takeDirtyRows.1,
        { p.parser.advance bytes with screen := (p.screenAfter bytes).takeDirtyRows.2 }) := rfl
  unfold readBurst
  rw [hpair, ← hcol, ← hrow]
  cases (p.screenAfter bytes).takeDirtyRows.1 with
  | nil => exact .inl ⟨rfl, rfl, rfl⟩
  | cons d dirty => exact .inr ⟨by simp, rfl, rfl, rfl⟩

/-- A burst marks a row, or leaves the cursor where the snapshot has it. -/
def CursorSent (p : PtyPane V) (bytes : List UInt8) : Prop :=
  (p.screenAfter bytes).synchronizedOutput = false →
    (∃ row, (p.screenAfter bytes).isDirty row) ∨
      ((p.screenAfter bytes).cursorCol = p.latestGrid.cursorCol ∧
        (p.screenAfter bytes).cursorRow = p.latestGrid.cursorRow)

end Nexterm.Server.PtyPane

namespace Nexterm.Ipc

open Overwrite Server Vt

/-- A pane and its copy at a client. -/
structure Shown (V : Vte) where
  pane : PtyPane V
  client : PaneState

namespace Shown

variable {V : Vte} {v : Shown V} {cols rows : ℕ}

/-- The client starts from the full refresh of the pane. -/
def refresh (p : PtyPane V) : Shown V :=
  ⟨p, ⟨p.makeFullRefresh, p.makeFullRefresh.cursorCol, p.makeFullRefresh.cursorRow⟩⟩

/-- A burst of output; the client applies the diff, if there is one. -/
def step (v : Shown V) (bytes : List UInt8) : Shown V :=
  ⟨(v.pane.readBurst bytes).1, (v.pane.readBurst bytes).2.elim v.client v.client.applyDiff⟩

/-- Unless output is being synchronized, the client shows the rows and the cursor of the screen. -/
def Agrees (v : Shown V) : Prop :=
  v.pane.parser.screen.synchronizedOutput = false →
    v.client.grid.rows = v.pane.parser.screen.grid.rows ∧
      v.client.cursorCol = v.pane.parser.screen.cursorCol ∧
        v.client.cursorRow = v.pane.parser.screen.cursorRow

/-- The copy is the snapshot of the pane, and the snapshot mirrors the screen. -/
structure Synced (cols rows : ℕ) (v : Shown V) : Prop where
  mirrors : v.pane.Mirrors cols rows
  items : v.client.grid.rows = v.pane.latestGrid.rows
  cursorCol : v.client.cursorCol = v.pane.latestGrid.cursorCol
  cursorRow : v.client.cursorRow = v.pane.latestGrid.cursorRow

theorem synced_refresh {p : PtyPane V} (h : p.Mirrors cols rows) :
    (refresh p).Synced cols rows := ⟨h, rfl, rfl, rfl⟩

theorem Synced.step (h : v.Synced cols rows) (bytes : List UInt8) :
    (v.step bytes).Synced cols rows := by
  have hmirrors := (PtyPane.mirrors_readBurst h.mirrors bytes).1
  have hcases := Reader.readBurst_cases ⟨h.mirrors.shaped, h.mirrors.mirror⟩ bytes
  rcases PtyPane.readBurst_out v.pane bytes with ⟨-, hdiff, hgrid⟩ | ⟨-, hdiff, hcol, hrow⟩
  · have hclient : (v.step bytes).client = v.client := by
      simp [Shown.step, hdiff]
    refine ⟨hmirrors, ?_, ?_, ?_⟩
    · rw [hclient, h.items]
      exact congrArg Grid.rows hgrid.symm
    · rw [hclient, h.cursorCol]
      exact congrArg Grid.cursorCol hgrid.symm
    · rw [hclient, h.cursorRow]
      exact congrArg Grid.cursorRow hgrid.symm
  · rw [hdiff] at hcases
    have hrows := hcases rowsView
    have hclient : (v.step bytes).client = v.client.applyDiff
        ⟨(v.pane.screenAfter bytes).takeDirtyRows.1, (v.pane.screenAfter bytes).cursorCol,
          (v.pane.screenAfter bytes).cursorRow⟩ := by
      simp [Shown.step, hdiff]
    refine ⟨hmirrors, ?_, ?_, ?_⟩
    · rw [hclient, PaneState.rows_applyDiff, h.items]
      exact hrows.symm
    · rw [hclient]
      exact hcol.symm
    · rw [hclient]
      exact hrow.symm

theorem agrees_step_iff (h : v.Synced cols rows) (bytes : List UInt8) :
    (v.step bytes).Agrees ↔ v.pane.CursorSent bytes := by
  have hafter := h.step bytes
  obtain ⟨-, hlatest⟩ := PtyPane.mirrors_readBurst h.mirrors bytes
  have hparser : (v.step bytes).pane.parser.screen = (v.pane.screenAfter bytes).takeDirtyRows.2 :=
    congrArg VtParser.screen (PtyPane.parser_readBurst v.pane bytes)
  obtain ⟨hgrid, -, -, hsync⟩ := Screen.takeDirtyRows_screen (v.pane.screenAfter bytes)
  obtain ⟨hcol, hrow⟩ := Screen.cursor_takeDirtyRows (v.pane.screenAfter bytes)
  unfold Agrees PtyPane.CursorSent
  rw [hparser, hsync, hgrid, hcol, hrow, hafter.cursorCol, hafter.cursorRow]
  refine forall_congr' fun hoff => ?_
  have hrows : (v.step bytes).client.grid.rows = (v.pane.screenAfter bytes).grid.rows :=
    hafter.items.trans (hlatest hoff)
  have hnil := PtyPane.takeDirtyRows_eq_nil hoff
  rw [and_iff_right hrows]
  change (v.pane.readBurst bytes).1.latestGrid.cursorCol = _ ∧
    (v.pane.readBurst bytes).1.latestGrid.cursorRow = _ ↔ _
  rcases PtyPane.readBurst_out v.pane bytes with ⟨hd, -, hsame⟩ | ⟨hd, -, hc, hr⟩
  · -- nothing is emitted, so the cursor must not have moved
    have hclean := hnil.1 hd
    rw [hsame]
    constructor
    · rintro ⟨hc, hr⟩
      exact .inr ⟨hc.symm, hr.symm⟩
    · rintro (⟨row, hdirty⟩ | ⟨hc, hr⟩)
      · rw [hclean row] at hdirty
        cases hdirty
      · exact ⟨hc.symm, hr.symm⟩
  · refine iff_of_true ⟨hc, hr⟩ (.inl ?_)
    by_contra hnone
    refine hd (hnil.2 fun row => ?_)
    exact Bool.eq_false_iff.2 fun hdirty => hnone ⟨row, hdirty⟩

/-- **The client's view of a pane.**  The client starts from the full refresh of a pane that has
    read any bursts, and receives every diff.  After each further burst it shows the rows and the
    cursor of the screen, unless output is being synchronized, exactly if each burst marks a row or
    leaves the cursor where the snapshot has it. -/
theorem agrees_run_iff (V : Vte) (cols rows : ℕ) (before : List PtyPane.Op)
    (bursts : List (List UInt8)) :
    Runs.Along step (fun v bytes => (v.step bytes).Agrees)
        (refresh (Runs.run PtyPane.step (PtyPane.spawn V cols rows) before)) bursts ↔
      Runs.Along step (fun v bytes => v.pane.CursorSent bytes)
        (refresh (Runs.run PtyPane.step (PtyPane.spawn V cols rows) before)) bursts := by
  have hmirrors : (Runs.run PtyPane.step (PtyPane.spawn V cols rows) before).Mirrors cols rows := by
    refine Runs.run_inv ?_ (PtyPane.mirrors_spawn V cols rows)
    intro p op hp
    cases op with
    | resizePty newCols newRows => exact hp
    | burst bytes => exact (PtyPane.mirrors_readBurst hp bytes).1
  exact Runs.along_congr (I := Synced cols rows) (fun _ bytes h => h.step bytes)
    (fun _ bytes h => agrees_step_iff h bytes) (synced_refresh hmirrors)

/-- A burst that only moves the cursor, `CSI 5 ; 5 H`. -/
theorem agrees_run_cursor : ¬Runs.Along step (fun v bytes => (v.step bytes).Agrees)
    (refresh (PtyPane.spawn miniVte 80 24)) [[0x1b, 0x5b, 0x35, 0x3b, 0x35, 0x48]] := by
  rintro ⟨hagrees, -⟩
  exact absurd (hagrees (by decide +kernel)).2.1 (by decide +kernel)

end Shown

end Nexterm.Ipc

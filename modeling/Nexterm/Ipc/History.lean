/-
  The history of a pane at the client (`state/pane.rs`, `PaneState::apply_diff`).

  * `pushedLines`: what applying the rows of a diff pushes onto the scrollback.
  * `History`: the pane and its client, with the lines pushed and the rows that have left the top of
    the primary screen.
  * `History.Replaced`: the condition on one burst.
  * `History.exact_run_iff`: the condition is exact over runs.

  The client sees only rewritten rows and pushes the old contents of every one of them, whether the
  screen has scrolled or not.
-/
import Nexterm.Ipc.Cursor

namespace Nexterm.Ipc

open Server Vt

theorem filterMap_range {α : Type} (l : List α) : (List.range l.length).filterMap (l[·]?) = l := by
  induction l with
  | nil => rfl
  | cons a l ih =>
    rw [List.length_cons, List.range_succ_eq_map, List.filterMap_cons]
    simpa [List.filterMap_map, Function.comp_def] using ih

/-- The lines that are pushed while the dirty rows are applied one by one. -/
def pushedLines (rows : List (List Cell)) : List DirtyRow → List (List Cell)
  | [] => []
  | dirty :: rest => rows[dirty.row]?.toList ++ pushedLines (rows.set dirty.row dirty.cells) rest

/-- Distinct rows are pushed as they are before the diff. -/
theorem pushedLines_eq : ∀ {dirty : List DirtyRow} {rows : List (List Cell)},
    (dirty.map DirtyRow.row).Nodup →
      pushedLines rows dirty = (dirty.map DirtyRow.row).filterMap (rows[·]?)
  | [], _, _ => rfl
  | d :: dirty, rows, h => by
    obtain ⟨hnot, hnodup⟩ := List.nodup_cons.1 h
    have hrest : (dirty.map DirtyRow.row).filterMap ((rows.set d.row d.cells)[·]?) =
        (dirty.map DirtyRow.row).filterMap (rows[·]?) := by
      refine List.filterMap_congr fun row hrow => ?_
      refine List.getElem?_set_ne ?_
      rintro rfl
      exact hnot hrow
    rw [pushedLines, pushedLines_eq hnodup, hrest, List.map_cons, List.filterMap_cons]
    cases rows[d.row]? <;> rfl

theorem map_row_dirtyRows (grid : Grid) (dirty : List Bool) :
    (Screen.dirtyRows grid dirty).map DirtyRow.row =
      (List.range dirty.length).filter fun row => dirty.getD row false := by
  rw [Screen.dirtyRows, List.map_filterMap, ← List.filterMap_eq_filter]
  refine List.filterMap_congr fun row _ => ?_
  rw [Option.guard]
  split_ifs <;> simp_all

/-- The rows that are dirty on a screen, as another grid of the same size has them. -/
theorem pushedLines_takeDirtyRows {s : Screen} (hsync : s.synchronizedOutput = false)
    (rows : List (List Cell)) :
    pushedLines rows s.takeDirtyRows.1 =
      ((List.range s.dirty.length).filter s.isDirty).filterMap (rows[·]?) := by
  have htake : s.takeDirtyRows.1 = Screen.dirtyRows s.grid s.dirty := by
    simp [Screen.takeDirtyRows, hsync]
  have hmap := map_row_dirtyRows s.grid s.dirty
  rw [htake, pushedLines_eq, hmap]
  · rfl
  · rw [hmap]
    exact List.nodup_range.filter _

/-- A pane with its client, and what the client has pushed and should have. -/
structure History (V : Vte) where
  shown : Shown V
  /-- The lines the client has pushed. -/
  pushed : List (List Cell)
  /-- The rows that have left the top of the primary screen. -/
  left : List (List Cell)
  /-- Those of them that have left since output was last not being synchronized. -/
  due : List (List Cell)

namespace History

variable {V : Vte} {h : History V} {cols rows : ℕ}

/-- The rows that leave the screen during a burst. -/
def leavingIn (p : PtyPane V) (bytes : List UInt8) : List (List Cell) :=
  p.parser.screen.leftBy V (p.parser.actions bytes)

/-- A burst of output. -/
def step (h : History V) (bytes : List UInt8) : History V where
  shown := h.shown.step bytes
  pushed := h.pushed ++
    match (h.shown.pane.readBurst bytes).2 with
    | none => []
    | some diff => pushedLines h.shown.client.grid.rows diff.dirtyRows
  left := h.left ++ leavingIn h.shown.pane bytes
  due :=
    if (h.shown.pane.screenAfter bytes).synchronizedOutput then
      h.due ++ leavingIn h.shown.pane bytes
    else []

/-- Unless output is being synchronized, the lines pushed are the rows that have left. -/
def Exact (h : History V) : Prop :=
  h.shown.pane.parser.screen.synchronizedOutput = false → h.pushed = h.left

/-- Either no row is marked and none has left, or the rows that have left are all the rows of the
    snapshot. -/
def Replaced (h : History V) (bytes : List UInt8) : Prop :=
  (h.shown.pane.screenAfter bytes).synchronizedOutput = false →
    ((∀ row, (h.shown.pane.screenAfter bytes).isDirty row = false) ∧
        h.due ++ leavingIn h.shown.pane bytes = []) ∨
      (h.due ++ leavingIn h.shown.pane bytes ≠ [] ∧
        h.due ++ leavingIn h.shown.pane bytes = h.shown.pane.latestGrid.rows)

/-- The history of a new pane. -/
def spawn (V : Vte) (cols rows : ℕ) : History V :=
  ⟨Shown.refresh (PtyPane.spawn V cols rows), [], [], []⟩

/-- The copy is in step, and every row is dirty if one has left that the client has not been told
    of. -/
structure Tracked (cols rows : ℕ) (h : History V) : Prop where
  synced : h.shown.Synced cols rows
  due : h.due ≠ [] → h.shown.pane.parser.screen.AllDirty rows

/-- The lines that are due are those that have not been pushed. -/
def Owed (h : History V) : Prop := h.left = h.pushed ++ h.due

theorem screenAfter_eq (p : PtyPane V) (bytes : List UInt8) :
    p.screenAfter bytes = (p.parser.actions bytes).foldl (Screen.perform V) p.parser.screen :=
  p.parser.screen_advance bytes

/-- If a row has left, every row is dirty after the burst. -/
theorem Tracked.allDirty (ht : h.Tracked cols rows) {bytes : List UInt8}
    (hdue : h.due ++ leavingIn h.shown.pane bytes ≠ []) :
    (h.shown.pane.screenAfter bytes).AllDirty rows := by
  have hshaped := ht.synced.mirrors.shaped
  by_cases hnew : leavingIn h.shown.pane bytes = []
  · rw [hnew, List.append_nil] at hdue
    exact (VtParser.kept_advance bytes hshaped).allDirty (ht.due hdue)
  · rw [screenAfter_eq]
    exact Screen.allDirty_leftBy _ hshaped hnew

theorem parser_step (h : History V) (bytes : List UInt8) :
    (h.step bytes).shown.pane.parser.screen =
      (h.shown.pane.screenAfter bytes).takeDirtyRows.2 :=
  congrArg VtParser.screen (PtyPane.parser_readBurst h.shown.pane bytes)

theorem Tracked.step (ht : h.Tracked cols rows) (bytes : List UInt8) :
    (h.step bytes).Tracked cols rows := by
  refine ⟨ht.synced.step bytes, ?_⟩
  rw [parser_step]
  intro hdue
  cases hsync : (h.shown.pane.screenAfter bytes).synchronizedOutput with
  | false => simp [History.step, hsync] at hdue
  | true =>
    have htake : (h.shown.pane.screenAfter bytes).takeDirtyRows.2 =
        h.shown.pane.screenAfter bytes := by
      simp [Screen.takeDirtyRows, hsync]
    rw [htake]
    refine ht.allDirty ?_
    simpa [History.step, hsync] using hdue

/-- What a burst pushes. -/
theorem pushed_step (h : History V) (bytes : List UInt8) :
    (h.step bytes).pushed = h.pushed ++
      pushedLines h.shown.client.grid.rows (h.shown.pane.screenAfter bytes).takeDirtyRows.1 := by
  rcases PtyPane.readBurst_out h.shown.pane bytes with ⟨hd, hdiff, -⟩ | ⟨-, hdiff, -⟩
  · simp [History.step, hdiff, hd, pushedLines]
  · simp [History.step, hdiff]

/-- A burst pushes what is due exactly if it replaces the whole screen or nothing. -/
theorem pushed_iff (ht : h.Tracked cols rows) {bytes : List UInt8}
    (hsync : (h.shown.pane.screenAfter bytes).synchronizedOutput = false) :
    pushedLines h.shown.client.grid.rows (h.shown.pane.screenAfter bytes).takeDirtyRows.1 =
        h.due ++ leavingIn h.shown.pane bytes ↔ h.Replaced bytes := by
  have hshaped : (h.shown.pane.screenAfter bytes).Shaped cols rows :=
    (VtParser.kept_advance bytes ht.synced.mirrors.shaped).shaped
  have hlatest : h.shown.pane.latestGrid.rows.length = rows :=
    ht.synced.mirrors.mirror.length_rows
  have hall : h.due ++ leavingIn h.shown.pane bytes ≠ [] → _ := fun hdue => ht.allDirty hdue
  unfold Replaced
  rw [pushedLines_takeDirtyRows hsync, ht.synced.items, hshaped.dirty]
  simp only [hsync, forall_const]
  generalize h.due ++ leavingIn h.shown.pane bytes = due at hall ⊢
  generalize h.shown.pane.screenAfter bytes = s at hshaped hall ⊢
  by_cases hdue : due = []
  · -- nothing may be pushed, so no row may be marked
    subst hdue
    simp only [ne_eq, not_true_eq_false, and_true, false_and, or_false]
    rw [List.filterMap_eq_nil_iff]
    constructor
    · intro hnone row
      by_contra hdirty
      have hrow : row < rows := by
        by_contra hge
        rw [← hshaped.dirty] at hge
        simp [Screen.isDirty, List.getD_eq_getElem?_getD, List.getElem?_eq_none (not_lt.1 hge)]
          at hdirty
      have hnil := hnone row
        (List.mem_filter.2 ⟨List.mem_range.2 hrow, by simpa using hdirty⟩)
      rw [List.getElem?_eq_none_iff] at hnil
      omega
    · intro hclean row hrow
      have := (List.mem_filter.1 hrow).2
      rw [hclean row] at this
      cases this
  · -- every row is marked, so the whole snapshot is pushed
    have hfilter : (List.range rows).filter s.isDirty = List.range rows :=
      List.filter_eq_self.2 fun row hrow => hall hdue row (List.mem_range.1 hrow)
    have hrows : (List.range rows).filterMap (h.shown.pane.latestGrid.rows[·]?) =
        h.shown.pane.latestGrid.rows := by
      rw [← hlatest]
      exact filterMap_range _
    rw [hfilter, hrows]
    simp only [hdue, and_false, false_or, ne_eq, not_false_eq_true, true_and]
    exact eq_comm

theorem exact_step_iff (ht : h.Tracked cols rows) (howed : h.Owed) (bytes : List UInt8) :
    (h.step bytes).Exact ↔ h.Replaced bytes := by
  have hsync := (Screen.takeDirtyRows_screen (h.shown.pane.screenAfter bytes)).2.2.2
  unfold Exact
  rw [parser_step, hsync]
  cases hoff : (h.shown.pane.screenAfter bytes).synchronizedOutput with
  | true =>
    -- the claim and the condition are silent
    refine iff_of_true (fun h => by cases h) fun h => ?_
    rw [hoff] at h
    cases h
  | false =>
    rw [← pushed_iff ht hoff, pushed_step]
    show (false = false → _ = h.left ++ _) ↔ _
    rw [howed, List.append_assoc]
    simp

theorem Owed.step (howed : h.Owed) {bytes : List UInt8} (hexact : (h.step bytes).Exact) :
    (h.step bytes).Owed := by
  have hsync := (Screen.takeDirtyRows_screen (h.shown.pane.screenAfter bytes)).2.2.2
  unfold Owed at howed ⊢
  cases hoff : (h.shown.pane.screenAfter bytes).synchronizedOutput with
  | true =>
    have htake : (h.shown.pane.screenAfter bytes).takeDirtyRows.1 = [] := by
      simp [Screen.takeDirtyRows, hoff]
    rw [pushed_step, htake]
    simp only [History.step, hoff, if_true, pushedLines, List.append_nil]
    rw [howed, List.append_assoc]
  | false =>
    have hleft := hexact (by rw [parser_step, hsync, hoff])
    rw [← hleft]
    simp [History.step, hoff]

/-- **The history of a pane.**  For a new pane and a client that receives everything: after each
    burst the lines the client has pushed are the rows that have left the screen, unless output is
    being synchronized, exactly if every burst replaces the whole screen or nothing. -/
theorem exact_run_iff (V : Vte) (cols rows : ℕ) (bursts : List (List UInt8)) :
    Runs.Along step (fun h bytes => (h.step bytes).Exact) (spawn V cols rows) bursts ↔
      Runs.Along step Replaced (spawn V cols rows) bursts := by
  have hspawn : (spawn V cols rows).Tracked cols rows :=
    ⟨Shown.synced_refresh (PtyPane.mirrors_spawn V cols rows), fun h => absurd rfl h⟩
  refine Runs.along_iff (P := fun h => h.Tracked cols rows ∧ h.Owed) ?_ ?_ ⟨hspawn, rfl⟩
  · rintro h bytes ⟨ht, howed⟩ hexact
    exact ⟨ht.step bytes, howed.step hexact⟩
  · rintro h bytes ⟨ht, howed⟩
    exact exact_step_iff ht howed bytes

/-- A character is written on a blank screen. -/
theorem exact_run_edit : ¬Runs.Along step (fun h bytes => (h.step bytes).Exact)
    (spawn miniVte 80 24) [[0x61]] := by
  rintro ⟨hexact, -⟩
  exact absurd (congrArg List.length (hexact (by decide +kernel))) (by decide +kernel)

end History

end Nexterm.Ipc

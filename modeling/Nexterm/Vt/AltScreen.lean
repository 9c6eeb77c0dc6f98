/-
  The alternate screen does not touch the primary one.

  * `Shown`, `Behind`: a primary screen that is on display, or saved behind the alternate one.
  * `around_setMode`: DEC private modes only take it from one to the other.
  * `Behind.resize`: the saved rows are resized as the primary screen alone would be.
  * `alt_screen_isolated`: what is on display after the alternate screen is what the resizes
    alone would have made of the primary one.
-/
import Nexterm.Vt.Trace

namespace Nexterm.Vt

/-- An operation that changes the size. -/
def ScreenOp.isResize : ScreenOp → Bool
  | .resize _ _ => true
  | _ => false

namespace Screen

/-- The rows and the cursor of `p` are on display. -/
structure Shown (p s : Screen) : Prop where
  altMode : s.altMode = false
  rows : s.grid.rows = p.grid.rows
  cursorCol : s.cursorCol = p.cursorCol
  cursorRow : s.cursorRow = p.cursorRow
  width : s.grid.width = p.grid.width
  height : s.grid.height = p.grid.height

/-- The rows and the cursor of `p` are saved behind the alternate screen. -/
structure Behind (p s : Screen) : Prop where
  altMode : s.altMode = true
  saved : s.altScreen = some ⟨p.grid.rows, p.cursorCol, p.cursorRow⟩
  width : s.grid.width = p.grid.width
  height : s.grid.height = p.grid.height

variable {p s : Screen}

/-! ## Switching -/

theorem Shown.switchToAlt (h : Shown p s) : Behind p s.switchToAlt := by
  unfold Screen.switchToAlt
  rw [if_neg (by simp [h.altMode]), h.rows, h.cursorCol, h.cursorRow]
  exact ⟨rfl, rfl, h.width, h.height⟩

theorem Behind.switchToPrimary (h : Behind p s) : Shown p s.switchToPrimary := by
  unfold Screen.switchToPrimary
  rw [if_neg (by simp [h.altMode]), h.saved]
  exact ⟨rfl, rfl, rfl, rfl, h.width, h.height⟩

theorem around_setMode (h : Behind p s ∨ Shown p s) (enable : Bool) (mode : ℕ) :
    Behind p (s.setMode enable mode) ∨ Shown p (s.setMode enable mode) := by
  unfold setMode
  split_ifs
  · -- the alternate screen is set
    rcases h with h | h
    · rw [switchToAlt, if_pos h.altMode]
      exact .inl h
    · exact .inl h.switchToAlt
  · -- and reset
    rcases h with h | h
    · exact .inr h.switchToPrimary
    · rw [switchToPrimary, if_pos (by simp [h.altMode])]
      exact .inr h
  all_goals
    exact h.imp (fun h => ⟨h.altMode, h.saved, h.width, h.height⟩)
      fun h => ⟨h.altMode, h.rows, h.cursorCol, h.cursorRow, h.width, h.height⟩

theorem around_decPrivateMode (enable : Bool) : ∀ (params : List (List ℕ)) {s : Screen},
    Behind p s ∨ Shown p s →
    Behind p (s.decPrivateMode params enable) ∨ Shown p (s.decPrivateMode params enable)
  | [], _, h => h
  | _ :: params, _, h => around_decPrivateMode enable params (around_setMode h enable _)

/-! ## What happens meanwhile -/

/-- An action on the alternate screen leaves the saved buffer alone or shows it. -/
theorem Behind.perform (V : Vte) (h : Behind p s) (action : Perform) :
    Behind p (s.perform V action) ∨ Shown p (s.perform V action) := by
  cases perform_cases V s action with
  | steady _ hsteady =>
    exact .inl ⟨hsteady.altMode.trans h.altMode, hsteady.altScreen.trans h.saved,
      hsteady.width.trans h.width, hsteady.height.trans h.height⟩
  | region top bottom _ _ hregion =>
    rw [hregion]
    exact .inl ⟨h.altMode, h.saved, h.width, h.height⟩
  | switched _ _ params enable hmodes =>
    rw [hmodes]
    exact around_decPrivateMode enable params (.inl h)

/-- An action that enters the alternate screen saves the primary one. -/
theorem behind_of_enters (V : Vte) (hs : s.altMode = false) {action : Perform}
    (henter : (s.perform V action).altMode = true) : Behind s (s.perform V action) := by
  cases perform_cases V s action with
  | steady _ hsteady =>
    rw [hsteady.altMode, hs] at henter
    cases henter
  | region top bottom _ _ hregion =>
    rw [hregion] at henter
    exact absurd (hs.symm.trans henter) Bool.false_ne_true
  | switched _ _ params enable hmodes =>
    rw [hmodes] at henter ⊢
    obtain h | h := around_decPrivateMode (p := s) enable params
      (.inr ⟨hs, rfl, rfl, rfl, rfl, rfl⟩)
    · exact h
    · exact absurd (h.altMode.symm.trans henter) Bool.false_ne_true

theorem altMode_takeDirtyRows (s : Screen) : s.takeDirtyRows.2.altMode = s.altMode := by
  unfold takeDirtyRows
  split_ifs <;> rfl

/-- Only an action leaves the alternate screen, and it shows the saved buffer. -/
theorem Behind.leave (V : Vte) (h : Behind p s) {op : ScreenOp}
    (hleave : (s.step V op).altMode = false) : Shown p (s.step V op) := by
  have hstays : ∀ {t : Screen}, t.altMode = s.altMode → t.altMode ≠ false := by
    intro t ht hfalse
    exact absurd (hfalse.symm.trans (ht.trans h.altMode)) Bool.false_ne_true
  cases op with
  | perform action =>
    obtain hbehind | hshown := h.perform V action
    · exact absurd hleave (hstays (hbehind.altMode.trans h.altMode.symm))
    · exact hshown
  | resize cols rows => exact absurd hleave (hstays rfl)
  | takeDirtyRows => exact absurd hleave (hstays (altMode_takeDirtyRows s))
  | takeScrolledOffLines => exact absurd hleave (hstays rfl)

/-- The saved rows have no size of their own: it is read off them, and it is that of `p`. -/
theorem Behind.resize {width height : ℕ} (hp : p.Shaped width height) (h : Behind p s)
    (cols rows : ℕ) : Behind (p.resize cols rows) (s.resize cols rows) := by
  refine ⟨h.altMode, ?_, rfl, rfl⟩
  show s.altScreen.map _ = some _
  rw [h.saved, Option.map_some]
  have hheight : p.grid.rows.length = p.grid.height :=
    hp.grid.length_rows.trans hp.grid.height_eq.symm
  have hrows : resizedRows p.grid.rows ((p.grid.rows.head?.map List.length).getD 0)
      p.grid.rows.length cols rows =
      resizedRows p.grid.rows p.grid.width p.grid.height cols rows := by
    rw [hheight]
    cases hcons : p.grid.rows with
    | nil => simp [resizedRows]
    | cons row rest =>
      have hwidth : row.length = p.grid.width :=
        (hp.grid.length_row row (hcons ▸ List.mem_cons_self)).trans hp.grid.width_eq.symm
      rw [List.head?_cons, Option.map_some, Option.getD_some, hwidth]
  exact congrArg some (congrArg (fun rows' => ScreenBuffer.mk rows' _ _) hrows)

theorem shaped_step (V : Vte) {width height : ℕ} (hs : s.Shaped width height) (op : ScreenOp) :
    ∃ width height, (s.step V op).Shaped width height := by
  cases op with
  | perform action => exact ⟨width, height, (kept_perform V hs action).shaped⟩
  | resize cols rows => exact ⟨cols, rows, shaped_resize hs cols rows⟩
  | takeDirtyRows => exact ⟨width, height, shaped_takeDirtyRows hs⟩
  | takeScrolledOffLines => exact ⟨width, height, hs.grid, hs.dirty, hs.saved⟩

/-- A step that stays on the alternate screen: only a resize reaches the primary one. -/
theorem Behind.step (V : Vte) {width height : ℕ} (hp : p.Shaped width height) (h : Behind p s)
    (op : ScreenOp) (halt : (s.step V op).altMode = true) :
    Behind (Runs.run (Screen.step V) p ([op].filter ScreenOp.isResize)) (s.step V op) := by
  cases op with
  | perform action =>
    obtain h | h := h.perform V action
    · exact h
    · exact absurd (h.altMode.symm.trans halt) Bool.false_ne_true
  | resize cols rows => exact h.resize hp cols rows
  | takeDirtyRows =>
    obtain hsame | ⟨dirty, hdirty⟩ : s.takeDirtyRows.2 = s ∨
        ∃ dirty, s.takeDirtyRows.2 = { s with dirty := dirty } := by
      unfold takeDirtyRows
      split_ifs
      · exact .inl rfl
      · exact .inr ⟨_, rfl⟩
    · show Behind p s.takeDirtyRows.2
      rw [hsame]
      exact h
    · show Behind p s.takeDirtyRows.2
      rw [hdirty]
      exact ⟨h.altMode, h.saved, h.width, h.height⟩
  | takeScrolledOffLines => exact ⟨h.altMode, h.saved, h.width, h.height⟩

/-- While the alternate screen is on display, the primary one is where the resizes take it. -/
theorem Behind.run (V : Vte) {ops : List ScreenOp} {width height : ℕ} (hp : p.Shaped width height)
    (h : Behind p s) (halt : Runs.Always (Screen.step V) (fun s => s.altMode = true) s ops) :
    Behind (Runs.run (Screen.step V) p (ops.filter ScreenOp.isResize))
      (Runs.run (Screen.step V) s ops) := by
  induction ops generalizing p s width height with
  | nil => exact h
  | cons op ops ih =>
    have hnext := h.step V hp op halt.2.head
    obtain ⟨width', height', hp'⟩ : ∃ width height,
        (Runs.run (Screen.step V) p ([op].filter ScreenOp.isResize)).Shaped width height := by
      cases op with
      | resize cols rows => exact shaped_step V hp (.resize cols rows)
      | _ => exact ⟨width, height, hp⟩
    rw [show op :: ops = [op] ++ ops from rfl, List.filter_append, Runs.run_append,
      Runs.run_append]
    exact ih hp' hnext halt.2

theorem shaped_run (V : Vte) (cols rows : ℕ) (ops : List ScreenOp) :
    ∃ width height, (Runs.run (Screen.step V) (new cols rows) ops).Shaped width height :=
  Runs.run_inv (P := fun s : Screen => ∃ width height, s.Shaped width height)
    (fun _ op ⟨_, _, hs⟩ => shaped_step V hs op) ⟨cols, rows, shaped_new cols rows⟩

/-- **Alternate-screen isolation.**  Between an operation that enters the alternate screen and one
    that leaves it anything may happen; the rows and the cursor are then what the resizes among
    all this would have made of the rows and the cursor before. -/
theorem alt_screen_isolated (V : Vte) (cols rows : ℕ) (before : List ScreenOp)
    (enter leave : ScreenOp) (ops : List ScreenOp)
    (hprimary : (Runs.run (Screen.step V) (new cols rows) before).altMode = false)
    (halt : Runs.Always (Screen.step V) (fun s => s.altMode = true)
      (Runs.run (Screen.step V) (new cols rows) (before ++ [enter])) ops)
    (hleave : (Runs.run (Screen.step V) (new cols rows)
      (before ++ [enter] ++ ops ++ [leave])).altMode = false) :
    let after := Runs.run (Screen.step V) (new cols rows) (before ++ [enter] ++ ops ++ [leave])
    let resized := Runs.run (Screen.step V) (new cols rows)
      (before ++ ops.filter ScreenOp.isResize)
    after.grid.rows = resized.grid.rows ∧ after.cursorCol = resized.cursorCol ∧
      after.cursorRow = resized.cursorRow := by
  obtain ⟨width, height, hshaped⟩ := shaped_run V cols rows before
  dsimp only
  rw [Runs.run_append] at halt hleave ⊢
  rw [Runs.run_append, Runs.run_append] at hleave ⊢
  rw [Runs.run_append _ before (ops.filter ScreenOp.isResize)]
  generalize Runs.run (Screen.step V) (new cols rows) before = s at hprimary halt hleave hshaped ⊢
  have hentered : Behind s (s.step V enter) := by
    have henter : (s.step V enter).altMode = true := halt.head
    cases enter with
    | perform action => exact behind_of_enters V hprimary henter
    | resize cols rows => exact absurd (hprimary.symm.trans henter) Bool.false_ne_true
    | takeDirtyRows =>
      have hsame := (altMode_takeDirtyRows s).symm.trans henter
      exact absurd (hprimary.symm.trans hsame) Bool.false_ne_true
    | takeScrolledOffLines => exact absurd (hprimary.symm.trans henter) Bool.false_ne_true
  have hshown := (hentered.run V hshaped halt).leave V hleave
  exact ⟨hshown.rows, hshown.cursorCol, hshown.cursorRow⟩

/-- A line on the primary screen, another one on the alternate screen, and a smaller screen. -/
theorem alt_screen_isolated_line :
    let text (s : String) : List ScreenOp := s.toList.map fun c => .perform (.print c)
    let mode (action : Char) : ScreenOp := .perform (.csiDispatch [[1049]] [0x3f] false action)
    let after := Runs.run (Screen.step plainVte) (new 4 2)
      (text "abc" ++ [mode 'h'] ++ (text "vim" ++ [mode 'h', .resize 2 3]) ++ [mode 'l'])
    let resized := Runs.run (Screen.step plainVte) (new 4 2) (text "abc" ++ [.resize 2 3])
    after.grid.rows = resized.grid.rows ∧ after.cursorCol = resized.cursorCol ∧
      after.cursorRow = resized.cursorRow :=
  alt_screen_isolated plainVte 4 2 _ _ _ _ (by decide +kernel)
    ⟨by decide +kernel, by decide +kernel, by decide +kernel, by decide +kernel, by decide +kernel,
      show Screen.altMode _ = true by decide +kernel⟩ (by decide +kernel)

end Screen

end Nexterm.Vt

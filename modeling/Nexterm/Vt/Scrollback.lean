/-
  The lines that scroll off the screen (`screen.rs`, `scroll_up` and `take_scrolled_off_lines`).

  * `Screen.leaving`: the row that leaves the top of the primary screen.
  * `Log`: a screen, with the lines it has handed out and the rows that have left it.
  * `Screen.ScrollsWhole`: the condition on one operation.
  * `Log.complete_run_iff`: the condition is exact over runs.

  `scroll_up` looks only at the top of the region, so a region that starts at the first row and ends
  above the last one retains its lines too.
-/
import Nexterm.Vt.Region

namespace Nexterm.Vt

namespace Screen

/-- The region is the whole primary screen. -/
def Whole (s : Screen) : Prop :=
  s.altMode = false ∧ s.scrollTop = 0 ∧ s.scrollBottom + 1 = s.grid.height

instance (s : Screen) : Decidable s.Whole := inferInstanceAs (Decidable (_ ∧ _ ∧ _))

/-- The row that leaves the top of the primary screen when a line is advanced. -/
def leaving (s : Screen) : List (List Cell) :=
  if s.cursorRow ≥ s.scrollBottom ∧ s.Whole then s.grid.rows[0]?.toList else []

/-- A scroll of the primary screen from its first row scrolls down to its last one. -/
def ScrollsWhole (V : Vte) (s : Screen) : ScreenOp → Prop
  | .perform action =>
    0 < s.linesFed V action → s.scrollBottom < s.cursorRow + s.linesFed V action →
      s.altMode = false → s.scrollTop = 0 → 0 < s.grid.height → s.scrollBottom + 1 = s.grid.height
  | _ => True

variable {V : Vte} {s t : Screen} {width height : ℕ}

/-- An action scrolls if it advances more lines than there are below the cursor. -/
theorem scrolls_feeds (action : Perform) :
    (∃ t ∈ s.feeds V action, t.cursorRow ≥ t.scrollBottom) ↔
      0 < s.linesFed V action ∧ s.scrollBottom < s.cursorRow + s.linesFed V action := by
  cases action with
  | print c =>
    obtain ⟨hcol, hrow⟩ := cursor_advanceLine { s with cursorCol := 0 }
    have hsteady := steady_wrapLine s
    change s.wrapLine.cursorCol = 0 at hcol
    change s.wrapLine.cursorRow =
      if s.cursorRow ≥ s.scrollBottom then s.cursorRow else s.cursorRow + 1 at hrow
    simp only [feeds, wrapFeeds, linesFed, List.mem_append]
    by_cases hwrap : s.cursorCol ≥ s.grid.width
    · simp only [hwrap, if_true, hcol, hsteady.width]
      by_cases hwide : (V.width c).getD 1 = 2 ∧ 0 + 1 ≥ s.grid.width
      · -- two lines: the second one scrolls if the first one did or reached the bottom
        simp only [hwide, and_self, if_true, List.mem_singleton]
        constructor
        · rintro ⟨t, rfl | rfl, ht⟩
          · have : s.cursorRow ≥ s.scrollBottom := ht
            omega
          · have : s.wrapLine.cursorRow ≥ s.wrapLine.scrollBottom := ht
            rw [hrow, hsteady.scrollBottom] at this
            split_ifs at this <;> omega
        · rintro ⟨-, hlt⟩
          refine ⟨_, Or.inr rfl, ?_⟩
          show s.wrapLine.cursorRow ≥ s.wrapLine.scrollBottom
          rw [hrow, hsteady.scrollBottom]
          split_ifs <;> omega
      · simp only [hwide, if_false, List.mem_singleton, List.not_mem_nil, or_false, exists_eq_left]
        omega
    · simp only [hwrap, if_false, List.not_mem_nil, false_or]
      split_ifs
      · simp only [List.mem_singleton, exists_eq_left]
        omega
      · simp
  | execute byte =>
    simp only [feeds, linesFed]
    split_ifs
    · simp only [List.mem_singleton, exists_eq_left]
      omega
    · simp
  | _ => simp [feeds, linesFed]

theorem shaped_feeds (hs : s.Shaped width height) {action : Perform} (ht : t ∈ s.feeds V action) :
    t.grid.Shaped width height := by
  rcases feeds_cases ht with rfl | rfl | rfl
  · exact hs.grid
  · exact hs.grid
  · exact (kept_wrapLine hs).shaped.grid

/-- The lines that an action retains are those that leave the screen. -/
theorem retained_iff (hs : s.Shaped width height) (action : Perform) :
    (s.feeds V action).flatMap fedLine = (s.feeds V action).flatMap leaving ↔
      s.ScrollsWhole V (.perform action) := by
  by_cases hwhole : s.altMode = false ∧ s.scrollTop = 0 ∧ 0 < s.grid.height →
      s.scrollBottom + 1 = s.grid.height
  · -- whatever scrolls is the whole screen, or retains nothing
    refine iff_of_true (List.flatMap_congr ?_) fun _ _ h₁ h₂ h₃ => hwhole ⟨h₁, h₂, h₃⟩
    intro t ht
    obtain ⟨hheight, htop, hbottom, halt⟩ := feeds_frame ht
    rw [← hheight, ← htop, ← hbottom, ← halt] at hwhole
    have hlen : t.grid.rows.length = t.grid.height :=
      (shaped_feeds hs ht).length_rows.trans (shaped_feeds hs ht).height_eq.symm
    unfold fedLine leaving retained Whole
    by_cases h : t.cursorRow ≥ t.scrollBottom ∧ t.altMode = false ∧ t.scrollTop = 0
    · obtain ⟨hrow, halt, htop⟩ := h
      by_cases hpos : 0 < t.grid.height
      · simp [hrow, halt, htop, hwhole ⟨halt, htop, hpos⟩]
      · have hnone : t.grid.rows[0]? = none := List.getElem?_eq_none (by omega)
        simp [htop, hnone]
    · grind
  · -- nothing leaves, so nothing may scroll
    obtain ⟨⟨halt, htop, hpos⟩, hbottom⟩ := Classical.not_imp.1 hwhole
    have hleaving : (s.feeds V action).flatMap leaving = [] := by
      rw [List.flatMap_eq_nil_iff]
      intro t ht
      obtain ⟨hheight, -, hbottom', -⟩ := feeds_frame ht
      refine if_neg ?_
      rintro ⟨-, -, -, h⟩
      exact hbottom (by rwa [← hheight, ← hbottom'])
    have hiff := scrolls_feeds (V := V) (s := s) action
    rw [hleaving, List.flatMap_eq_nil_iff]
    constructor
    · intro h hfed hlt
      obtain ⟨t, ht, hrow⟩ := hiff.2 ⟨hfed, hlt⟩
      obtain ⟨hheight, htop', -, halt'⟩ := feeds_frame ht
      have hlen : 0 < t.grid.rows.length := by
        rw [(shaped_feeds hs ht).length_rows, ← hs.grid.height_eq]
        exact hpos
      have hnil := h t ht
      rw [fedLine, if_pos hrow] at hnil
      simp [retained, halt', halt, htop', htop, List.getElem?_eq_getElem hlen] at hnil
    · intro h t ht
      refine if_neg fun hrow => hbottom ?_
      obtain ⟨hfed, hlt⟩ := hiff.1 ⟨t, ht, hrow⟩
      exact h hfed hlt halt htop hpos

/-! ## What a scroll marks -/

/-- The rows that leave the top of the primary screen during some actions. -/
def leftBy (V : Vte) (s : Screen) : List Perform → List (List Cell)
  | [] => []
  | action :: actions =>
    (s.feeds V action).flatMap leaving ++ (s.perform V action).leftBy V actions

/-- A row that is dirty stays so. -/
theorem Kept.isDirty {s' : Screen} (h : Kept width height s s') {row : ℕ}
    (hdirty : s.isDirty row) : s'.isDirty row := by
  by_contra hoff
  obtain ⟨hclean, -⟩ := h.clean row (Bool.eq_false_iff.2 hoff)
  rw [hdirty] at hclean
  cases hclean

/-- Every row is dirty. -/
def AllDirty (height : ℕ) (s : Screen) : Prop := ∀ row < height, s.isDirty row

theorem Kept.allDirty {s' : Screen} (h : Kept width height s s') (hd : s.AllDirty height) :
    s'.AllDirty height := by
  intro row hrow
  exact h.isDirty (hd row hrow)

theorem isDirty_markDirty {row : ℕ} (hrow : row < s.dirty.length) :
    (s.markDirty row).isDirty row := by
  simp [isDirty, markDirty, List.getD_eq_getElem?_getD, hrow]

/-- A loop over rows that marks each of them leaves all of them marked. -/
theorem isDirty_foldl {f : Screen → ℕ → Screen}
    (hf : ∀ s r, s.Shaped width height →
      Kept width height s (f s r) ∧ (r < height → (f s r).isDirty r)) {row : ℕ}
    (hrow : row < height) : ∀ (rows : List ℕ) {s : Screen}, s.Shaped width height → row ∈ rows →
    (rows.foldl f s).isDirty row
  | [], _, _, hmem => by cases hmem
  | r :: rows, s, hs, hmem => by
    obtain ⟨hkept, hmark⟩ := hf s r hs
    rcases List.mem_cons.1 hmem with rfl | hmem
    · have hrest := kept_foldl (fun s r hs => (hf s r hs).1) rows hkept.shaped
      exact hrest.isDirty (hmark hrow)
    · exact isDirty_foldl hf hrow rows hkept.shaped hmem

/-- A scroll of the whole screen marks every row. -/
theorem allDirty_scrollUp (hs : s.Shaped width height) (hwhole : s.Whole) :
    s.scrollUp.AllDirty height := by
  obtain ⟨-, htop, hbottom⟩ := hwhole
  rw [hs.grid.height_eq] at hbottom
  have hs' := (kept_retainTopLine hs).shaped
  have hmark : ∀ (s : Screen) (g : Grid) (r : ℕ), s.Shaped width height → r < height →
      ({ s with grid := g }.markDirty r).isDirty r := by
    intro s g r hs hr
    exact isDirty_markDirty (by rw [hs.dirty]; exact hr)
  have hcopied := kept_copyUp hs' (List.range' s.scrollTop (s.scrollBottom - s.scrollTop))
  intro row hrow
  unfold scrollUp
  by_cases hlast : row = s.scrollBottom
  · refine isDirty_foldl ?_ hrow _ hcopied.shaped (by simp [hlast])
    intro s r hs
    exact ⟨kept_row hs (hs.grid.clearRow r) (Grid.onlyRow_clearRow _ r), hmark s _ r hs⟩
  · have hdirty : (s.retainTopLine.copyUp
        (List.range' s.scrollTop (s.scrollBottom - s.scrollTop))).isDirty row := by
      refine isDirty_foldl ?_ hrow _ hs' ?_
      · intro s r hs
        exact ⟨kept_row hs (hs.grid.copyRow r (r + 1)) (Grid.onlyRow_copyRow _ r _),
          hmark s _ r hs⟩
      · rw [List.mem_range'_1]
        omega
    exact (kept_clearRows hcopied.shaped [s.scrollBottom]).isDirty hdirty

theorem allDirty_advanceLine (hs : s.Shaped width height) (h : s.leaving ≠ []) :
    s.advanceLine.AllDirty height := by
  have hscroll : s.cursorRow ≥ s.scrollBottom ∧ s.Whole := by
    by_contra hnot
    exact h (if_neg hnot)
  rw [advanceLine, if_pos hscroll.1]
  exact allDirty_scrollUp hs hscroll.2

/-- An action by which a row leaves the screen marks every row. -/
theorem allDirty_perform (hs : s.Shaped width height) {action : Perform}
    (h : (s.feeds V action).flatMap leaving ≠ []) : (s.perform V action).AllDirty height := by
  obtain ⟨t, ht, hleaving⟩ : ∃ t ∈ s.feeds V action, t.leaving ≠ [] := by
    by_contra hnone
    refine h (List.flatMap_eq_nil_iff.2 fun t ht => ?_)
    by_contra hne
    exact hnone ⟨t, ht, hne⟩
  cases action with
  | print c =>
    have hset : ∀ {t : Screen} (grid : Grid) (row col : ℕ), t.AllDirty height →
        Screen.AllDirty height { t with grid := grid, dirty := t.dirty.set row true, cursorCol := col } := by
      intro t grid row col ht i hi
      have := ht i hi
      simp only [isDirty, List.getD_eq_getElem?_getD, List.getElem?_set] at this ⊢
      grind
    -- each wrap keeps what is dirty, and the one that scrolls marks every row
    have hwrap : ∀ {s : Screen} (p : Prop) [Decidable p], s.Shaped width height →
        Kept width height s (if p then s.wrapLine else s) ∧
          (t ∈ (if p then [{ s with cursorCol := 0 }] else []) →
            (if p then s.wrapLine else s).AllDirty height) := by
      intro s p _ hs
      split_ifs
      · refine ⟨kept_wrapLine hs, ?_⟩
        intro hmem
        obtain rfl := List.mem_singleton.1 hmem
        exact allDirty_advanceLine ⟨hs.grid, hs.dirty, hs.saved⟩ hleaving
      · exact ⟨.refl hs, fun hmem => by cases hmem⟩
    show (s.writeChar c ((V.width c).getD 1)).AllDirty height
    simp only [feeds, wrapFeeds, List.mem_append] at ht
    unfold writeChar
    dsimp only
    obtain ⟨hkept₁, hdirty₁⟩ := hwrap (s.cursorCol ≥ s.grid.width) hs
    generalize (if s.cursorCol ≥ s.grid.width then s.wrapLine else s) = s₁
      at ht hkept₁ hdirty₁ ⊢
    obtain ⟨hkept₂, hdirty₂⟩ :=
      hwrap ((V.width c).getD 1 = 2 ∧ s₁.cursorCol + 1 ≥ s₁.grid.width) hkept₁.shaped
    generalize (if (V.width c).getD 1 = 2 ∧ s₁.cursorCol + 1 ≥ s₁.grid.width then s₁.wrapLine
      else s₁) = s₂ at hkept₂ hdirty₂ ⊢
    have hdirty : s₂.AllDirty height := by
      rcases ht with ht | ht
      · exact hkept₂.allDirty (hdirty₁ ht)
      · exact hdirty₂ ht
    split_ifs
    · exact hset _ _ _ hdirty
    · exact hset _ _ _ hdirty
  | execute byte =>
    simp only [feeds] at ht
    split_ifs at ht with hbyte
    · obtain rfl := List.mem_singleton.1 ht
      show (t.execute byte).AllDirty height
      have h₁ : ¬(byte = 0x08 ∧ t.cursorCol > 0) := by
        rintro ⟨rfl, -⟩
        revert hbyte
        decide
      have h₂ : byte ≠ 0x09 := by
        rintro rfl
        revert hbyte
        decide
      rw [execute, if_neg h₁, if_neg h₂, if_pos hbyte]
      exact allDirty_advanceLine hs hleaving
    · cases ht
  | _ => cases ht

/-- Once a row has left the screen, every row is dirty. -/
theorem allDirty_leftBy : ∀ (actions : List Perform) {s : Screen}, s.Shaped width height →
    s.leftBy V actions ≠ [] → (actions.foldl (perform V) s).AllDirty height
  | [], _, _, h => absurd rfl h
  | action :: actions, s, hs, h => by
    have hkept := kept_perform V hs action
    by_cases hfirst : (s.feeds V action).flatMap leaving = []
    · rw [leftBy, hfirst, List.nil_append] at h
      exact allDirty_leftBy actions hkept.shaped h
    · have hrest := kept_foldl (fun s a hs => kept_perform V hs a) actions hkept.shaped
      exact hrest.allDirty (allDirty_perform hs hfirst)

end Screen

/-! ## The log -/

/-- A screen, the lines it has handed out and the rows that have left its top. -/
structure Log where
  screen : Screen
  handed : List (List Cell)
  left : List (List Cell)

namespace Log

/-- The log after an operation. -/
def step (V : Vte) (l : Log) : ScreenOp → Log
  | .perform action =>
    { l with
      screen := l.screen.perform V action
      left := l.left ++ (l.screen.feeds V action).flatMap Screen.leaving }
  | .takeScrolledOffLines =>
    { l with
      screen := l.screen.takeScrolledOffLines.2
      handed := l.handed ++ l.screen.takeScrolledOffLines.1 }
  | .resize cols rows => { l with screen := l.screen.resize cols rows }
  | .takeDirtyRows => { l with screen := l.screen.takeDirtyRows.2 }

/-- The lines handed out and those that wait for it are the rows that have left. -/
def Complete (l : Log) : Prop := l.handed ++ l.screen.pendingScrollback = l.left

variable {V : Vte} {l : Log}

theorem screen_step (l : Log) (op : ScreenOp) : (l.step V op).screen = l.screen.step V op := by
  cases op <;> rfl

/-- The screen has a shape. -/
def Shaped (l : Log) : Prop := ∃ width height, l.screen.Shaped width height

theorem Shaped.step (h : l.Shaped) (op : ScreenOp) : (l.step V op).Shaped := by
  obtain ⟨width, height, hs⟩ := h
  cases op with
  | perform action => exact ⟨width, height, (Screen.kept_perform V hs action).shaped⟩
  | resize cols rows => exact ⟨cols, rows, Screen.shaped_resize hs cols rows⟩
  | takeDirtyRows => exact ⟨width, height, Screen.shaped_takeDirtyRows hs⟩
  | takeScrolledOffLines => exact ⟨width, height, hs.grid, hs.dirty, hs.saved⟩

theorem complete_step_iff (hs : l.Shaped) (h : l.Complete) (op : ScreenOp) :
    (l.step V op).Complete ↔ l.screen.ScrollsWhole V op := by
  obtain ⟨width, height, hs⟩ := hs
  unfold Complete at h ⊢
  cases op with
  | perform action =>
    rw [← Screen.retained_iff hs]
    show l.handed ++ (l.screen.perform V action).pendingScrollback = l.left ++ _ ↔ _
    rw [Screen.pending_perform, ← List.append_assoc, h]
    exact List.append_right_inj l.left
  | resize cols rows => exact iff_of_true h trivial
  | takeDirtyRows =>
    refine iff_of_true ?_ trivial
    show l.handed ++ l.screen.takeDirtyRows.2.pendingScrollback = l.left
    unfold Screen.takeDirtyRows
    split_ifs <;> exact h
  | takeScrolledOffLines =>
    refine iff_of_true ?_ trivial
    show (l.handed ++ l.screen.pendingScrollback) ++ [] = l.left
    rw [List.append_nil, h]

/-- **Scrollback over runs.**  The lines that a screen hands out are the rows that have left its
    top, at every moment of a run, exactly if every scroll of the primary screen from its first row
    scrolls down to its last one. -/
theorem complete_run_iff (V : Vte) (cols rows : ℕ) (ops : List VtParser.Op) :
    Runs.Always (step V) Complete ⟨Screen.new cols rows, [], []⟩
        ((VtParser.new V cols rows).trace ops) ↔
      Runs.Along (step V) (fun l op => l.screen.ScrollsWhole V op) ⟨Screen.new cols rows, [], []⟩
        ((VtParser.new V cols rows).trace ops) :=
  Runs.always_iff_along_of_inv (I := Shaped) (fun _ op h => h.step op)
    (fun _ op hs h => complete_step_iff hs h op) ⟨cols, rows, Screen.shaped_new cols rows⟩ rfl

/-- A line feed at the bottom of the region of the first two rows, after `CSI 1 ; 2 r`. -/
theorem complete_run_restricted : ¬Runs.Always (step miniVte) Complete ⟨Screen.new 80 10, [], []⟩
    ((VtParser.new miniVte 80 10).trace
      [.advance [0x1b, 0x5b, 0x31, 0x3b, 0x32, 0x72, 0x0a, 0x0a]]) := by
  intro h
  have hlast : (_ : List (List Cell)) = _ := h.last
  exact absurd (congrArg List.length hlast) (by decide +kernel)

end Log

end Nexterm.Vt

/-
  The rectangles of the floating panes over runs of a window.

  * `clampTo_inside`, `clampTo_clampTo`: what a clamped rectangle is.
  * `Snug`: every floating pane has its clamped rectangle and its size; `SnugFor` says when opening
    another one keeps that.
  * `floats_inside`: along a run whose openings are `SnugFor`, every floating pane is inside the
    window.
-/
import Nexterm.Server.Focus

namespace Nexterm.Server

open Std.ExtTreeMap

/-! ## Clamping -/

namespace FloatRect

variable (r : FloatRect) (totalCols totalRows : ℕ)

theorem clampTo_clampTo :
    (r.clampTo totalCols totalRows).clampTo totalCols totalRows = r.clampTo totalCols totalRows := by
  simp only [clampTo, mk.injEq]
  omega

/-- Neither the offset nor the end of a clamped rectangle is past the window, or past the smallest
    rectangle. -/
theorem clampTo_inside :
    (r.clampTo totalCols totalRows).colOff + (r.clampTo totalCols totalRows).cols ≤
        max totalCols minCols ∧
      (r.clampTo totalCols totalRows).rowOff + (r.clampTo totalCols totalRows).rows ≤
        max totalRows minRows := by
  simp only [clampTo]
  omega

/-- Moving a clamped rectangle does not change its size. -/
theorem clampTo_move (h : r.clampTo totalCols totalRows = r) (colOff rowOff : ℕ) :
    ({ r with colOff := colOff, rowOff := rowOff }.clampTo totalCols totalRows).cols = r.cols ∧
      ({ r with colOff := colOff, rowOff := rowOff }.clampTo totalCols totalRows).rows = r.rows :=
  ⟨(congrArg cols h :), (congrArg rows h :)⟩

end FloatRect

namespace Window

variable {F : Type}

/-- Every floating pane has a clamped rectangle and the size of it. -/
structure Snug (w : Window F) : Prop where
  clamped : ∀ (id : ℕ) (pane : Pane) (rect : FloatRect), w.floatingPanes[id]? = some (pane, rect) →
    rect.clampTo w.lastCols w.lastRows = rect ∧ pane.cols = rect.cols ∧ pane.rows = rect.rows
  cols : w.lastCols < 2 ^ 16
  rows : w.lastRows < 2 ^ 16

/-- Every floating pane is inside the window, where the window has room for the smallest one, its
    end is a `u16`, and its PTY has its size. -/
def FloatsInside (w : Window F) : Prop :=
  ∀ (id : ℕ) (pane : Pane) (rect : FloatRect), w.floatingPanes[id]? = some (pane, rect) →
    (FloatRect.minCols ≤ w.lastCols → rect.colOff + rect.cols ≤ w.lastCols) ∧
    (FloatRect.minRows ≤ w.lastRows → rect.rowOff + rect.rows ≤ w.lastRows) ∧
    rect.colOff + rect.cols < 2 ^ 16 ∧ rect.rowOff + rect.rows < 2 ^ 16 ∧
    pane.cols = rect.cols ∧ pane.rows = rect.rows

theorem Snug.inside {w : Window F} (h : w.Snug) : w.FloatsInside := by
  intro id pane rect hid
  obtain ⟨hclamp, hcols, hrows⟩ := h.clamped id pane rect hid
  have hin := rect.clampTo_inside w.lastCols w.lastRows
  have hc := h.cols
  have hr := h.rows
  rw [hclamp] at hin
  simp only [FloatRect.minCols, FloatRect.minRows] at hin ⊢
  refine ⟨fun _ => ?_, fun _ => ?_, ?_, ?_, hcols, hrows⟩ <;> omega

theorem Snug.congr {w w' : Window F} (h : w.Snug) (hf : w'.floatingPanes = w.floatingPanes)
    (hc : w'.lastCols = w.lastCols) (hr : w'.lastRows = w.lastRows) : w'.Snug where
  clamped := by
    rw [hf, hc, hr]
    exact h.clamped
  cols := hc ▸ h.cols
  rows := hr ▸ h.rows

/-- One floating pane is stored anew. -/
theorem Snug.insert {w w' : Window F} (h : w.Snug) {id : ℕ} {pane : Pane} {rect : FloatRect}
    (hf : w'.floatingPanes = w.floatingPanes.insert id (pane, rect))
    (hc : w'.lastCols = w.lastCols) (hr : w'.lastRows = w.lastRows)
    (hnew : rect.clampTo w.lastCols w.lastRows = rect ∧ pane.cols = rect.cols ∧
      pane.rows = rect.rows) : w'.Snug where
  clamped := by
    intro id' pane' rect' hid
    rw [hf, getElem?_insert_eq] at hid
    rw [hc, hr]
    split_ifs at hid
    · obtain ⟨rfl, rfl⟩ := Prod.mk.inj (Option.some.inj hid)
      exact hnew
    · exact h.clamped id' pane' rect' hid
  cols := hc ▸ h.cols
  rows := hr ▸ h.rows

variable [Ratio F] {w : Window F}

theorem snug_resizeAllPanes (w : Window F) {cols rows : ℕ} (hcols : cols < 2 ^ 16)
    (hrows : rows < 2 ^ 16) : (w.resizeAllPanes cols rows).Snug where
  clamped := by
    intro id pane rect hid
    simp only [resizeAllPanes, getElem?_map] at hid
    obtain ⟨⟨old, oldRect⟩, -, hnew⟩ := Option.map_eq_some_iff.1 hid
    obtain ⟨rfl, rfl⟩ := Prod.mk.inj hnew
    exact ⟨oldRect.clampTo_clampTo cols rows, rfl, rfl⟩
  cols := hcols
  rows := hrows

/-! ## Runs -/

/-- The sizes in an operation are `u16`. -/
def U16Sizes : WindowOp F → Prop
  | .toggleZoom cols rows | .setLayoutMode _ cols rows | .resizeAllPanes cols rows
  | .addSerialPane _ cols rows _ _ | .openFloatingPane _ cols rows _ => cols < 2 ^ 16 ∧ rows < 2 ^ 16
  | _ => True

/-- Where an operation opens a floating pane, the others are inside the window of the new size. -/
def SnugFor (w : Window F) : WindowOp F → Prop
  | .openFloatingPane _ cols rows _ => ∀ (id : ℕ) (pane : Pane) (rect : FloatRect),
    w.floatingPanes[id]? = some (pane, rect) → rect.clampTo cols rows = rect
  | _ => True

theorem Snug.step (h : w.Snug) (op : WindowOp F) (hsizes : U16Sizes op) (hop : w.SnugFor op) :
    (w.step op).Snug := by
  cases op with
  | addPane newId totalCols totalRows dir opened =>
    simp only [Window.step, addPaneWithOptions]
    split_ifs
    · exact h.congr rfl rfl rfl
    · cases opened <;> exact h.congr rfl rfl rfl
  | addSerialPane newId totalCols totalRows dir opened =>
    cases opened with
    | error text => exact h
    | ok u => exact snug_resizeAllPanes _ hsizes.1 hsizes.2
  | insertPaneAt pane totalCols totalRows dir position => exact h.congr rfl rfl rfl
  | removeFocusedPane cols rows =>
    simp only [Window.step, removeFocusedPane]
    split_ifs <;> exact h.congr rfl rfl rfl
  | takeFocusedPane cols rows =>
    simp only [Window.step, takeFocusedPane]
    split_ifs
    · exact h
    · exact h.congr rfl rfl rfl
    · split <;> exact h.congr rfl rfl rfl
  | takePaneById paneId cols rows =>
    rw [Window.step, takePaneById]
    by_cases hsize : w.panes.size ≤ 1
    · rwa [if_pos hsize]
    rw [if_neg hsize]
    cases w.panes[paneId]? with
    | none => exact h
    | some pane =>
      dsimp only
      split_ifs <;> exact h.congr rfl rfl rfl
  | swapFocusedWith targetPaneId =>
    simp only [Window.step, swapFocusedWith]
    split_ifs <;> exact h.congr rfl rfl rfl
  | reorderPanes newOrder =>
    simp only [Window.step, reorderPanes]
    split_ifs <;> exact h.congr rfl rfl rfl
  | setFocusedPane paneId =>
    simp only [Window.step, setFocusedPane]
    split_ifs <;> exact h.congr rfl rfl rfl
  | focusNext =>
    simp only [Window.step, focusNext]
    split <;> exact h.congr rfl rfl rfl
  | focusPrev =>
    simp only [Window.step, focusPrev]
    split <;> exact h.congr rfl rfl rfl
  | toggleZoom cols rows =>
    simp only [Window.step, toggleZoom]
    split_ifs
    · exact h.congr rfl rfl rfl
    · exact snug_resizeAllPanes _ hsizes.1 hsizes.2
  | setLayoutMode mode cols rows => exact snug_resizeAllPanes _ hsizes.1 hsizes.2
  | adjustSplitRatio delta cols rows =>
    simp only [Window.step, adjustSplitRatio]
    split_ifs <;> exact h.congr rfl rfl rfl
  | resizeAllPanes cols rows => exact snug_resizeAllPanes _ hsizes.1 hsizes.2
  | openFloatingPane newId totalCols totalRows opened =>
    -- the other panes are not resized here
    have hresized : Snug { w with lastCols := totalCols, lastRows := totalRows } :=
      ⟨fun id pane rect hid => ⟨hop id pane rect hid, (h.clamped id pane rect hid).2⟩,
        hsizes.1, hsizes.2⟩
    cases opened with
    | error text => exact hresized
    | ok u =>
      exact hresized.insert rfl rfl rfl ⟨FloatRect.clampTo_clampTo _ _ _, rfl, rfl⟩
  | closeFloatingPane paneId =>
    refine ⟨fun id pane rect hid => ?_, h.cols, h.rows⟩
    have hid : (w.floatingPanes.erase paneId)[id]? = some (pane, rect) := hid
    rw [getElem?_erase_eq] at hid
    split_ifs at hid
    exact h.clamped id pane rect hid
  | moveFloatingPane paneId colOff rowOff =>
    simp only [Window.step, moveFloatingPane]
    split
    · exact h
    · rename_i pane rect hid
      obtain ⟨hclamp, hcols, hrows⟩ := h.clamped paneId pane rect hid
      obtain ⟨hmovecols, hmoverows⟩ := rect.clampTo_move _ _ hclamp colOff rowOff
      exact h.insert rfl rfl rfl
        ⟨FloatRect.clampTo_clampTo _ _ _, hcols.trans hmovecols.symm, hrows.trans hmoverows.symm⟩
  | resizeFloatingPane paneId cols rows =>
    simp only [Window.step, resizeFloatingPane]
    split
    · exact h
    · exact h.insert rfl rfl rfl ⟨FloatRect.clampTo_clampTo _ _ _, rfl, rfl⟩

theorem Started.snug (h : w.Started) (hcols : w.lastCols < 2 ^ 16) (hrows : w.lastRows < 2 ^ 16) :
    w.Snug := by
  have hempty : w.floatingPanes = ∅ := by
    rcases h with (⟨id, name, cols, rows, newId, opened, hnew⟩ | ⟨id, name, pane, cols, rows, rfl⟩) |
      ⟨snap, cols, rows, opened, hrestore⟩
    · cases opened with
      | error text => cases hnew
      | ok u =>
        cases hnew
        rfl
    · exact keys_eq_nil_iff.1 keys_map
    · obtain ⟨-, rfl⟩ := restoreFromSnapshot_ok_iff.1 hrestore
      rfl
  refine ⟨fun id pane rect hid => ?_, hcols, hrows⟩
  rw [hempty] at hid
  simp at hid

/-- **Floating panes over runs.**  From any window that the program starts with, in every state of a
    run with `u16` sizes in which a floating pane is opened only while the others are inside the
    window of the new size: every floating pane is inside the window, and its PTY has its size. -/
theorem floats_inside (h : w.Started) (hcols : w.lastCols < 2 ^ 16) (hrows : w.lastRows < 2 ^ 16)
    {ops : List (WindowOp F)} (hsizes : ∀ op ∈ ops, U16Sizes op)
    (hops : Runs.Along step SnugFor w ops) : Runs.Always step FloatsInside w ops := by
  have hsnug : Runs.Always step Snug w ops := by
    have hboth : Runs.Along step (fun w op => U16Sizes op ∧ w.SnugFor op) w ops :=
      (Runs.along_of_forall hsizes).and hops
    exact Runs.always_of_along (fun w op hw hop => hw.step op hop.1 hop.2)
      (h.snug hcols hrows) hboth
  exact hsnug.imp fun w hw => hw.inside

/-- Two floating panes in a window that shrinks in between. -/
theorem floats_inside_two : Runs.Always step FloatsInside
    (ofPane 1 "main" ⟨1, 100, 50⟩ 100 50 : Window ℚ)
    [.openFloatingPane 2 100 50 (.ok ()), .resizeAllPanes 20 10,
      .openFloatingPane 3 20 10 (.ok ()), .moveFloatingPane 2 500 500] := by
  refine floats_inside (.inl (.inl ⟨1, "main", 100, 50, 1, .ok (), rfl⟩)) (by decide) (by decide)
    ?_ ?_
  · simp [U16Sizes]
  · refine ⟨fun id pane rect hid => ?_, trivial, fun id pane rect hid => ?_, trivial, trivial⟩
    · simp [ofPane] at hid
    · exact ((snug_resizeAllPanes _ (by decide) (by decide)).clamped id pane rect hid).1

/-- A second floating pane is opened after the window has shrunk: the first one stays outside, and
    moving it gives it a size that its PTY does not have. -/
theorem not_floats_inside :
    Started (ofPane 1 "main" ⟨1, 100, 50⟩ 100 50 : Window ℚ) ∧ ∃ w : Window ℚ,
      w = Runs.run step (ofPane 1 "main" ⟨1, 100, 50⟩ 100 50)
        [.openFloatingPane 2 100 50 (.ok ()), .openFloatingPane 3 20 10 (.ok ())] ∧
      w.lastCols = 20 ∧ w.floatingPanes[2]? = some (⟨2, 60, 35⟩, ⟨20, 7, 60, 35⟩) ∧
      ¬ w.FloatsInside ∧
      (w.step (.moveFloatingPane 2 0 0)).floatingPanes[2]? =
        some (⟨2, 60, 35⟩, ⟨0, 0, 20, 10⟩) := by
  obtain ⟨w, hw, hcols, hrect, hmoved⟩ : ∃ w : Window ℚ,
      w = Runs.run step (ofPane 1 "main" ⟨1, 100, 50⟩ 100 50)
        [.openFloatingPane 2 100 50 (.ok ()), .openFloatingPane 3 20 10 (.ok ())] ∧
      w.lastCols = 20 ∧ w.floatingPanes[2]? = some (⟨2, 60, 35⟩, ⟨20, 7, 60, 35⟩) ∧
      (w.step (.moveFloatingPane 2 0 0)).floatingPanes[2]? =
        some (⟨2, 60, 35⟩, ⟨0, 0, 20, 10⟩) :=
    ⟨_, rfl, by decide +kernel⟩
  refine ⟨.inl (.inl ⟨1, "main", 100, 50, 1, .ok (), rfl⟩), w, hw, hcols, hrect, fun h => ?_, hmoved⟩
  have hinside := (h 2 _ _ hrect).1
  rw [hcols] at hinside
  exact absurd (hinside (by decide)) (by decide)

end Window

end Nexterm.Server

/-
  Windows are stored under their own ids: no request changes the id of a window, and every new
  window is stored under the id it is made with.

  * `Window.id_step`: the operations of a window keep its id.
  * `Session.windowsKeyed_step`, `windowsKeyed_run`: so every reachable session is keyed by id.
-/
import Nexterm.Server.Conserve

namespace Nexterm.Server

open Std.ExtTreeMap

variable {F : Type} [Ratio F]

namespace Window

variable (w : Window F)

theorem id_takeFocusedPane (cols rows : ℕ) : (w.takeFocusedPane cols rows).1.id = w.id := by
  rw [takeFocusedPane]
  by_cases hsize : w.panes.size ≤ 1
  · rw [if_pos hsize]
  rw [if_neg hsize]
  dsimp only
  by_cases hserial : w.focusedPaneId ∈ w.serialPanes
  · rw [if_pos hserial]
  rw [if_neg hserial]
  cases w.panes[w.focusedPaneId]? <;> rfl

theorem id_takePaneById (paneId cols rows : ℕ) : (w.takePaneById paneId cols rows).1.id = w.id := by
  rw [takePaneById]
  by_cases hsize : w.panes.size ≤ 1
  · rw [if_pos hsize]
  rw [if_neg hsize]
  cases w.panes[paneId]? with
  | none => rfl
  | some pane =>
    dsimp only
    split_ifs <;> rfl

/-- No operation changes the id of a window. -/
theorem id_step (op : WindowOp F) : (w.step op).id = w.id := by
  cases op with
  | addPane newId totalCols totalRows dir opened =>
    simp only [step, addPaneWithOptions]
    split_ifs
    · rfl
    · cases opened <;> rfl
  | addSerialPane newId totalCols totalRows dir opened => cases opened <;> rfl
  | insertPaneAt pane totalCols totalRows dir position => rfl
  | removeFocusedPane cols rows =>
    simp only [step, removeFocusedPane]
    split_ifs <;> rfl
  | takeFocusedPane cols rows => exact w.id_takeFocusedPane cols rows
  | takePaneById paneId cols rows => exact w.id_takePaneById paneId cols rows
  | swapFocusedWith targetPaneId =>
    simp only [step, swapFocusedWith]
    split_ifs <;> rfl
  | reorderPanes newOrder =>
    simp only [step, reorderPanes]
    split_ifs <;> rfl
  | setFocusedPane paneId =>
    simp only [step, setFocusedPane]
    split_ifs <;> rfl
  | focusNext =>
    simp only [step, focusNext]
    cases w.panes.keys.findIdx? (· = w.focusedPaneId) <;> rfl
  | focusPrev =>
    simp only [step, focusPrev]
    cases w.panes.keys.findIdx? (· = w.focusedPaneId) <;> rfl
  | toggleZoom cols rows =>
    simp only [step, toggleZoom]
    split_ifs <;> rfl
  | setLayoutMode mode cols rows => rfl
  | adjustSplitRatio delta cols rows =>
    simp only [step, adjustSplitRatio]
    split_ifs <;> rfl
  | resizeAllPanes cols rows => rfl
  | openFloatingPane newId totalCols totalRows opened => cases opened <;> rfl
  | closeFloatingPane paneId => rfl
  | moveFloatingPane paneId colOff rowOff =>
    simp only [step, moveFloatingPane]
    cases w.floatingPanes[paneId]? <;> rfl
  | resizeFloatingPane paneId cols rows =>
    simp only [step, resizeFloatingPane]
    cases w.floatingPanes[paneId]? <;> rfl

end Window

/-- Every window is stored under its own id. -/
def WindowsKeyed (m : IdMap (Window F)) : Prop :=
  ∀ (k : ℕ) (w : Window F), m[k]? = some w → w.id = k

namespace WindowsKeyed

variable {m : IdMap (Window F)} {k : ℕ} {w : Window F}

omit [Ratio F] in
theorem insert (h : WindowsKeyed m) (hw : w.id = k) : WindowsKeyed (m.insert k w) := by
  intro a v ha
  rw [getElem?_insert_eq] at ha
  split_ifs at ha with hk
  · cases ha
    exact hw.trans hk
  · exact h a v ha

omit [Ratio F] in
theorem erase (h : WindowsKeyed m) : WindowsKeyed (m.erase k) := by
  intro a v ha
  rw [getElem?_erase_eq] at ha
  split_ifs at ha
  exact h a v ha

omit [Ratio F] in
theorem modify (h : WindowsKeyed m) {f : Window F → Window F} (hf : ∀ w, (f w).id = w.id) :
    WindowsKeyed (m.modify k f) := by
  intro a v ha
  rw [getElem?_modify_eq] at ha
  split_ifs at ha
  · obtain ⟨w, hw, rfl⟩ := Option.map_eq_some_iff.1 ha
    exact (hf w).trans (h a w hw)
  · exact h a v ha

end WindowsKeyed

namespace Session

variable {s : Session F}

theorem windowsKeyed_breakPane (h : WindowsKeyed s.windows) (newId : ℕ) :
    WindowsKeyed (s.breakPane newId).1.windows := by
  rw [breakPane]
  cases hw : s.windows[s.focusedWindowId]? with
  | none => exact h
  | some w =>
    have hid := (w.id_takeFocusedPane s.cols s.rows).trans (h _ _ hw)
    dsimp only
    generalize w.takeFocusedPane s.cols s.rows = taken at hid
    obtain ⟨w', pane⟩ := taken
    cases pane with
    | none => exact h.insert hid
    | some pane => exact (h.insert hid).insert rfl

theorem windowsKeyed_joinPane (h : WindowsKeyed s.windows) (target : ℕ) :
    WindowsKeyed (s.joinPane target).1.windows := by
  rw [joinPane]
  split_ifs
  · exact h
  cases hw : s.windows[s.focusedWindowId]? with
  | none => exact h
  | some w =>
    have hid := (w.id_takeFocusedPane s.cols s.rows).trans (h _ _ hw)
    dsimp only
    generalize w.takeFocusedPane s.cols s.rows = taken at hid
    obtain ⟨w', pane⟩ := taken
    cases pane with
    | none => exact h.insert hid
    | some pane =>
      have h' : WindowsKeyed (s.windows.insert s.focusedWindowId w') := h.insert hid
      dsimp only
      cases hwt : (s.windows.insert s.focusedWindowId w')[target]? with
      | none => exact h'
      | some t =>
        have ht : t.id = target := h' _ _ hwt
        exact h'.insert ht

theorem windowsKeyed_takeFrom (h : WindowsKeyed s.windows) (source paneId : ℕ) :
    WindowsKeyed (s.takeFrom source paneId).1.windows := by
  rw [takeFrom]
  cases hw : s.windows[source]? with
  | none => exact h
  | some w =>
    dsimp only
    split_ifs
    · exact h.erase
    · exact h.insert ((w.id_takePaneById paneId s.cols s.rows).trans (h _ _ hw))

theorem windowsKeyed_putInto (h : WindowsKeyed s.windows) (pane : Pane) (target : ℕ)
    (insertAt : Option ℕ) (newId : ℕ) :
    WindowsKeyed (s.putInto pane target insertAt newId).1.windows := by
  rw [putInto]
  split_ifs
  · exact h.insert rfl
  · cases hw : s.windows[target]? with
    | none => exact h
    | some w =>
      have ht : w.id = target := h _ _ hw
      exact h.insert ht

theorem windowsKeyed_movePane (h : WindowsKeyed s.windows) (paneId target : ℕ)
    (insertAt : Option ℕ) (newId pick : ℕ) :
    WindowsKeyed (s.movePane paneId target insertAt newId pick).1.windows := by
  rw [movePane]
  cases s.sourceWindow paneId pick with
  | none => exact h
  | some source =>
    have h' := windowsKeyed_takeFrom h source paneId
    dsimp only
    by_cases hsame : source = target
    · rw [if_pos hsame]
      exact h
    rw [if_neg hsame]
    generalize s.takeFrom source paneId = taken at h'
    obtain ⟨s', pane⟩ := taken
    cases pane with
    | error e => exact h'
    | ok pane =>
      have h'' := windowsKeyed_putInto h' pane target insertAt newId
      dsimp only at h'' ⊢
      generalize s'.putInto pane target insertAt newId = put at h''
      obtain ⟨s'', destination⟩ := put
      cases destination <;> exact h''

/-- A request leaves every window stored under its own id. -/
theorem windowsKeyed_step (h : WindowsKeyed s.windows) (r : Request F) :
    WindowsKeyed (s.step r).windows := by
  cases r with
  | window r => exact h.modify fun w => w.id_step _
  | newWindow windowId paneId opened =>
    cases opened with
    | error text => exact h
    | ok u => exact h.insert rfl
  | closeWindow windowId pick =>
    simp only [step, removeWindow]
    split_ifs
    · exact h
    · exact h.erase
    · exact h.erase
    · exact h
  | focusWindow windowId =>
    simp only [step, focusWindow]
    split_ifs <;> exact h
  | renameWindow windowId name =>
    simp only [step, renameWindow]
    split_ifs
    · exact h.modify (f := ({ · with name := name })) fun w => rfl
    · exact h
  | resize cols rows =>
    simp only [step, resizeFocused]
    split_ifs
    · exact h.modify (f := (·.resizeAllPanes cols rows)) fun w => rfl
    · exact h
  | breakPane newId => exact windowsKeyed_breakPane h newId
  | movePane paneId target insertAt newId pick =>
    exact windowsKeyed_movePane h paneId target insertAt newId pick
  | joinPane target => exact windowsKeyed_joinPane h target

theorem windowsKeyed_run {cols rows windowId paneId : ℕ} {opened : Except String Unit}
    (h : new cols rows windowId paneId opened = .ok s) (ops : List (Request F)) :
    WindowsKeyed (Runs.run step s ops).windows := by
  refine Runs.run_inv (P := fun s : Session F => WindowsKeyed s.windows)
    (fun s r hs => windowsKeyed_step hs r) ?_
  rw [new_ok h]
  refine WindowsKeyed.insert ?_ rfl
  intro k w hw
  simp at hw

end Session

end Nexterm.Server

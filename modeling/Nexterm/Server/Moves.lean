/-
  Moving panes between windows: what a call that fails leaves behind.

  * `takeFocusedPane_of_can`, `takeFocusedPane_of_not`, `takePaneById_of_can`, …: the two
    answers of a take, with everything they do to the window.
  * `call_unchanged_iff`: when a call that fails leaves the session as it was.
-/
import Nexterm.Server.Session

namespace Nexterm.Server

open Std.ExtTreeMap

variable {F : Type}

/-! ## Taking a pane out of a window -/

theorem SplitNode.remove_eq_self_iff {t : SplitNode F} {id : ℕ} :
    (t.remove id).1 = t ↔ t = .pane id ∨ t.contains id = false := by
  rcases t.remove_spec id with ⟨rfl, hr⟩ | ⟨hm, hr⟩ | ⟨hm, -, hl⟩
  · simp [hr]
  · rw [hr]
    exact ⟨fun _ => Or.inr (contains_eq_false_iff.2 hm), fun _ => rfl⟩
  · refine ⟨fun h => ?_, ?_⟩
    · have := List.length_erase_of_mem hm
      rw [← hl, h] at this
      have := List.length_pos_of_mem hm
      omega
    · rintro (rfl | h)
      · rw [remove] at hl
        simp [leaves] at hl
      · exact absurd hm (contains_eq_false_iff.1 h)

/-- Every pane is stored under its own id. -/
def KeyedById (panes : IdMap Pane) : Prop :=
  ∀ (id : ℕ) (pane : Pane), panes[id]? = some pane → pane.id = id

theorem KeyedById.insert {panes : IdMap Pane} (h : KeyedById panes) (pane : Pane) :
    KeyedById (panes.insert pane.id pane) := by
  intro id p hp
  rw [getElem?_insert_eq] at hp
  split_ifs at hp with he
  · cases hp; exact he
  · exact h id p hp

theorem KeyedById.erase {panes : IdMap Pane} (h : KeyedById panes) (target : ℕ) :
    KeyedById (panes.erase target) := by
  intro id p hp
  rw [getElem?_erase_eq] at hp
  split_ifs at hp
  exact h id p hp

theorem KeyedById.modify {panes : IdMap Pane} (h : KeyedById panes) (target cols rows : ℕ) :
    KeyedById (panes.modify target (·.resizePty cols rows)) := by
  intro id p hp
  rw [getElem?_modify_eq] at hp
  split_ifs at hp
  · obtain ⟨q, hq, rfl⟩ := Option.map_eq_some_iff.1 hp
    exact h id q hq
  · exact h id p hp

theorem KeyedById.resize {panes : IdMap Pane} (h : KeyedById panes) (rects : List PaneRect) :
    KeyedById (resizePanes rects panes) := by
  induction rects generalizing panes with
  | nil => exact h
  | cons r rects ih => exact ih (h.modify _ _ _)

namespace Window

/-- `takeFocusedPane` succeeds: two PTY panes, and the focused pane is one of them. -/
def CanTakeFocused (w : Window F) : Prop :=
  2 ≤ w.panes.size ∧ w.focusedPaneId ∈ w.panes ∧ w.focusedPaneId ∉ w.serialPanes

/-- `takeFocusedPane` fails after it has removed the focused leaf from the tree. -/
def TakeSpoils (w : Window F) : Prop :=
  2 ≤ w.panes.size ∧ ¬(w.focusedPaneId ∈ w.panes ∧ w.focusedPaneId ∉ w.serialPanes) ∧
    w.layout ≠ .pane w.focusedPaneId ∧ w.layout.contains w.focusedPaneId = true

/-- The focused pane is a pane of the window. -/
def FocusHeld (w : Window F) : Prop :=
  w.focusedPaneId ∈ w.panes ∨ w.focusedPaneId ∈ w.serialPanes

/-- What a successful take leaves behind. -/
structure Took (w : Window F) (paneId : ℕ) (w' : Window F) (pane : Pane) : Prop where
  pane : w.panes[paneId]? = some pane
  panes : w'.panes.keys = (w.panes.erase paneId).keys
  serialPanes : w'.serialPanes = w.serialPanes
  floatingPanes : w'.floatingPanes = w.floatingPanes
  keyed : KeyedById w.panes → KeyedById w'.panes
  focus : w.FocusHeld → w'.FocusHeld

variable {w w' : Window F} {pane : Pane} {paneId cols rows : ℕ}

theorem mem_paneIds {id : ℕ} : id ∈ w.paneIds ↔ id ∈ w.panes ∨ id ∈ w.serialPanes := by
  rw [paneIds, List.mem_append, mem_keys, mem_keys]

/-- The last pane of a window can be extracted unless it is a serial pane. -/
theorem intoSinglePane_cases (hcount : w.paneCount ≤ 1) (h : paneId ∈ w.paneIds) :
    (paneId ∈ w.serialPanes ∧ w.intoSinglePane = none) ∨
    (paneId ∉ w.serialPanes ∧ w.serialPanes = ∅ ∧
      ∃ pane, w.intoSinglePane = some pane ∧ w.panes.toList = [(paneId, pane)]) := by
  unfold paneCount at hcount
  unfold intoSinglePane
  by_cases hser : paneId ∈ w.serialPanes
  · have hne : w.serialPanes.isEmpty = false :=
      isEmpty_eq_false_iff.2 fun h0 => by rw [h0] at hser; simp at hser
    exact Or.inl ⟨hser, by simp [hne]⟩
  · have hp : paneId ∈ w.panes := (mem_paneIds.1 h).resolve_right hser
    have h1 := size_erase_mem hp
    have h0 : w.serialPanes = ∅ := eq_empty_iff_size_eq_zero.2 (by omega)
    have he : w.panes.erase paneId = ∅ := eq_empty_iff_size_eq_zero.2 (by omega)
    obtain ⟨pane, hpane⟩ := mem_iff_getElem?.1 hp
    have hl : w.panes.toList = [(paneId, pane)] := by
      have := toList_erase_perm hpane
      rw [he] at this
      exact List.perm_singleton.1 this
    refine Or.inr ⟨hser, h0, pane, ?_, hl⟩
    have hs : w.panes.size = 1 := by omega
    simp [h0, hs, hl]

/-- Taking a pane changes the window. -/
theorem Took.ne (h : w.Took paneId w' pane) : w' ≠ w := by
  rintro rfl
  have hmem : paneId ∈ w'.panes := mem_iff_getElem?.2 ⟨pane, h.pane⟩
  have := size_erase_mem hmem
  rw [← length_keys, ← length_keys, h.panes] at this
  omega

theorem with_layout_eq_iff {layout : SplitNode F} :
    { w with layout := layout } = w ↔ layout = w.layout :=
  ⟨fun h => congrArg Window.layout h, fun h => by rw [h]⟩

variable [Ratio F]

theorem takeFocusedPane_some (h : w.takeFocusedPane cols rows = (w', some pane)) :
    w.CanTakeFocused ∧ w.Took w.focusedPaneId w' pane := by
  unfold takeFocusedPane at h
  by_cases hsize : w.panes.size ≤ 1
  · simp [hsize] at h
  by_cases hser : w.focusedPaneId ∈ w.serialPanes
  · simp [hsize, hser] at h
  cases hp : w.panes[w.focusedPaneId]? with
  | none => simp [hsize, hser, hp] at h
  | some p =>
    simp only [hsize, hser, hp, if_false, Prod.mk.injEq, Option.some.injEq] at h
    obtain ⟨rfl, rfl⟩ := h
    have hmem := mem_iff_getElem?.2 ⟨p, hp⟩
    refine ⟨⟨by omega, hmem, hser⟩, hp, keys_resizePanes _ _, rfl, rfl,
      fun hk => (hk.erase _).resize _, fun _ => Or.inl ?_⟩
    have := size_erase_mem hmem
    exact (mem_resizePanes _ _).2 (nextId_mem (w := { w with panes := w.panes.erase _ })
      (by dsimp only; omega))

theorem takeFocusedPane_of_can (h : w.CanTakeFocused) (cols rows : ℕ) :
    ∃ w' pane, w.takeFocusedPane cols rows = (w', some pane) := by
  obtain ⟨hsize, hmem, hser⟩ := h
  obtain ⟨pane, hpane⟩ := mem_iff_getElem?.1 hmem
  unfold takeFocusedPane
  rw [if_neg (by omega)]
  simp only [hser, if_false, hpane]
  exact ⟨_, _, rfl⟩

/-- A take that fails may already have removed the leaf. -/
theorem takeFocusedPane_of_not (h : ¬w.CanTakeFocused) (cols rows : ℕ) :
    ∃ layout, w.takeFocusedPane cols rows = ({ w with layout := layout }, none) ∧
      (layout = w.layout ↔ ¬w.TakeSpoils) := by
  unfold takeFocusedPane
  by_cases hsize : w.panes.size ≤ 1
  · rw [if_pos hsize]
    exact ⟨w.layout, rfl, iff_of_true rfl fun hs => by have := hs.1; omega⟩
  · have hnot : ¬(w.focusedPaneId ∈ w.panes ∧ w.focusedPaneId ∉ w.serialPanes) := fun hm =>
      h ⟨by omega, hm⟩
    rw [if_neg hsize]
    refine ⟨(w.layout.remove w.focusedPaneId).1, ?_, ?_⟩
    · by_cases hser : w.focusedPaneId ∈ w.serialPanes
      · simp [hser]
      · have : w.panes[w.focusedPaneId]? = none :=
          not_mem_iff_getElem?.1 fun hm => hnot ⟨hm, hser⟩
        simp [hser, this]
    · rw [SplitNode.remove_eq_self_iff, TakeSpoils, ← Bool.not_eq_true]
      constructor
      · rintro (h1 | h1) ⟨-, -, h2, h3⟩
        · exact h2 h1
        · exact h1 h3
      · intro hs
        by_contra hc
        push Not at hc
        exact hs ⟨by omega, hnot, hc.1, hc.2⟩

/-- `takePaneById` succeeds: two PTY panes, and the given one is one of them. -/
def CanTake (w : Window F) (paneId : ℕ) : Prop :=
  2 ≤ w.panes.size ∧ paneId ∈ w.panes ∧ paneId ∉ w.serialPanes

theorem takePaneById_some (h : w.takePaneById paneId cols rows = (w', some pane)) :
    w.CanTake paneId ∧ w.Took paneId w' pane := by
  unfold takePaneById at h
  by_cases hsize : w.panes.size ≤ 1
  · simp [hsize] at h
  by_cases hser : paneId ∈ w.serialPanes
  · cases hp : w.panes[paneId]? <;> simp [hsize, hp, hser] at h
  cases hp : w.panes[paneId]? with
  | none => simp [hsize, hp] at h
  | some p =>
    simp only [hsize, hp, hser, if_false, Prod.mk.injEq, Option.some.injEq] at h
    obtain ⟨rfl, rfl⟩ := h
    have hmem := mem_iff_getElem?.2 ⟨p, hp⟩
    refine ⟨⟨by omega, hmem, hser⟩, hp, keys_resizePanes _ _, rfl, rfl,
      fun hk => (hk.erase _).resize _, fun hf => ?_⟩
    unfold FocusHeld resizeTiled
    simp only [mem_resizePanes]
    split_ifs with he
    · have := size_erase_mem hmem
      exact Or.inl (nextId_mem (w := { w with panes := w.panes.erase _ }) (by dsimp only; omega))
    · rw [mem_erase_eq]
      exact hf.imp_left fun h => ⟨Ne.symm he, h⟩

theorem takePaneById_of_can (h : w.CanTake paneId) (cols rows : ℕ) :
    ∃ w' pane, w.takePaneById paneId cols rows = (w', some pane) := by
  obtain ⟨hsize, hmem, hser⟩ := h
  obtain ⟨pane, hpane⟩ := mem_iff_getElem?.1 hmem
  unfold takePaneById
  rw [if_neg (by omega), hpane]
  simp only [hser, if_false]
  exact ⟨_, _, rfl⟩

/-- `takePaneById` checks before it touches anything. -/
theorem takePaneById_of_not (h : ¬w.CanTake paneId) (cols rows : ℕ) :
    w.takePaneById paneId cols rows = (w, none) := by
  unfold takePaneById
  by_cases hsize : w.panes.size ≤ 1
  · rw [if_pos hsize]
  rw [if_neg hsize]
  cases hp : w.panes[paneId]? with
  | none => rfl
  | some pane =>
    have hser : paneId ∈ w.serialPanes := by
      by_contra hser
      exact h ⟨by omega, mem_iff_getElem?.2 ⟨pane, hp⟩, hser⟩
    simp only [hser, if_true]

end Window

/-! ## Atomicity -/

/-- The calls that move a pane between windows. -/
inductive PaneMove
  | breakPane (newId : ℕ)
  | movePane (paneId target : ℕ) (insertAt : Option ℕ) (newId pick : ℕ)
  | joinPane (target : ℕ)

/-- The error of an answer, if it is one. -/
def errorOf {ε α : Type} : Except ε α → Option ε
  | .error e => some e
  | .ok _ => none

namespace Session

variable [Ratio F]

/-- The session after a call, and its error if it fails. -/
def call (s : Session F) : PaneMove → Session F × Option SessionError
  | .breakPane newId => ((s.breakPane newId).1, errorOf (s.breakPane newId).2)
  | .movePane paneId target insertAt newId pick =>
    ((s.movePane paneId target insertAt newId pick).1,
      errorOf (s.movePane paneId target insertAt newId pick).2)
  | .joinPane target => ((s.joinPane target).1, errorOf (s.joinPane target).2)

omit [Ratio F] in
/-- The call fails after it has changed the session. -/
def FailsHalfway (s : Session F) : PaneMove → Prop
  | .breakPane _ => ∃ w, s.windows[s.focusedWindowId]? = some w ∧ w.TakeSpoils
  | .joinPane target => s.focusedWindowId ≠ target ∧
      ∃ w, s.windows[s.focusedWindowId]? = some w ∧
        (w.TakeSpoils ∨ w.CanTakeFocused ∧ target ∉ s.windows)
  | .movePane paneId target _ _ pick => ∃ source w, s.sourceWindow paneId pick = some source ∧
      source ≠ target ∧ s.windows[source]? = some w ∧
        (w.paneCount ≤ 1 ∧ paneId ∈ w.serialPanes ∨
          (w.paneCount ≤ 1 ∨ w.CanTake paneId) ∧ target ≠ 0 ∧ target ∉ s.windows)

variable {s : Session F}

theorem breakPane_unchanged_iff (newId : ℕ) :
    ((s.call (.breakPane newId)).2.isSome → (s.call (.breakPane newId)).1 = s) ↔
      ¬s.FailsHalfway (.breakPane newId) := by
  simp only [call, breakPane, FailsHalfway]
  cases hw : s.windows[s.focusedWindowId]? with
  | none => simp
  | some w =>
    simp only [Option.some.injEq, exists_eq_left']
    by_cases hcan : w.CanTakeFocused
    · obtain ⟨w', pane, ht⟩ := Window.takeFocusedPane_of_can hcan s.cols s.rows
      simp only [ht, errorOf, Option.isSome_none, Bool.false_eq_true, false_implies, true_iff]
      exact fun hs => hs.2.1 hcan.2
    · obtain ⟨layout, ht, hiff⟩ := Window.takeFocusedPane_of_not hcan s.cols s.rows
      simp only [ht, errorOf, Option.isSome_some, true_implies]
      rw [← hiff, ← Window.with_layout_eq_iff, ← insert_eq_self_iff hw]
      exact ⟨fun h => congrArg Session.windows h, fun h => by rw [h]⟩

theorem joinPane_unchanged_iff (target : ℕ) :
    ((s.call (.joinPane target)).2.isSome → (s.call (.joinPane target)).1 = s) ↔
      ¬s.FailsHalfway (.joinPane target) := by
  simp only [call, joinPane, FailsHalfway]
  by_cases hsame : s.focusedWindowId = target
  · simp [hsame]
  cases hw : s.windows[s.focusedWindowId]? with
  | none => simp [hsame]
  | some w =>
    simp only [hsame, if_false, ne_eq, not_false_eq_true, true_and, Option.some.injEq,
      exists_eq_left']
    by_cases hcan : w.CanTakeFocused
    · obtain ⟨w', pane, ht⟩ := Window.takeFocusedPane_of_can hcan s.cols s.rows
      have hns : ¬w.TakeSpoils := fun hs => hs.2.1 hcan.2
      have hne := (Window.takeFocusedPane_some ht).2.ne
      simp only [ht, hcan, hns, true_and, false_or]
      rw [getElem?_insert_eq, if_neg hsame]
      cases hwt : s.windows[target]? with
      | none =>
        -- the pane has been taken, and there is nowhere to put it
        simp only [errorOf, Option.isSome_some, true_implies, not_mem_iff_getElem?.2 hwt,
          not_true_eq_false, not_false_eq_true, iff_false]
        exact fun h => hne ((insert_eq_self_iff hw).1 (congrArg Session.windows h))
      | some t => simp [errorOf, mem_iff_getElem?.2 ⟨t, hwt⟩]
    · obtain ⟨layout, ht, hiff⟩ := Window.takeFocusedPane_of_not hcan s.cols s.rows
      simp only [ht, errorOf, Option.isSome_some, true_implies, hcan, false_and, or_false]
      rw [← hiff, ← Window.with_layout_eq_iff, ← insert_eq_self_iff hw]
      exact ⟨fun h => congrArg Session.windows h, fun h => by rw [h]⟩

omit [Ratio F] in
theorem sourceWindow_some {paneId pick source : ℕ} (h : s.sourceWindow paneId pick = some source) :
    ∃ w, s.windows[source]? = some w ∧ paneId ∈ w.paneIds := by
  obtain ⟨⟨k, w⟩, hmem, rfl⟩ := Option.map_eq_some_iff.1 h
  obtain ⟨hl, hc⟩ := List.mem_filter.1 (List.mem_of_getElem? hmem)
  exact ⟨w, mem_toList_iff_getElem?_eq_some.1 hl, by simpa using hc⟩

/-- `putInto` fails exactly on a missing target, and then leaves the session alone. -/
theorem putInto_cases (pane : Pane) (target : ℕ) (insertAt : Option ℕ) (newId : ℕ) :
    (target ≠ 0 ∧ target ∉ s.windows ∧
      s.putInto pane target insertAt newId = (s, .error (.windowNotFound target))) ∨
    (¬(target ≠ 0 ∧ target ∉ s.windows) ∧
      ∃ s' destination, s.putInto pane target insertAt newId = (s', .ok destination)) := by
  unfold putInto
  by_cases h0 : target = 0
  · exact Or.inr ⟨fun h => h.1 h0, _, _, if_pos h0⟩
  · rw [if_neg h0]
    cases ht : s.windows[target]? with
    | none => exact Or.inl ⟨h0, not_mem_iff_getElem?.2 ht, rfl⟩
    | some w => exact Or.inr ⟨fun h => h.2 (mem_iff_getElem?.2 ⟨w, ht⟩), _, _, rfl⟩

/-- The three answers of `takeFrom`. -/
theorem takeFrom_cases {source paneId : ℕ} {w : Window F} (hw : s.windows[source]? = some w)
    (hmem : paneId ∈ w.paneIds) :
    (w.paneCount ≤ 1 ∧ paneId ∈ w.serialPanes ∧ ∃ e,
      s.takeFrom source paneId = ({ s with windows := s.windows.erase source }, .error e)) ∨
    (¬w.paneCount ≤ 1 ∧ ¬w.CanTake paneId ∧ ∃ e, s.takeFrom source paneId = (s, .error e)) ∨
    (∃ windows pane, (w.paneCount ≤ 1 ∧ paneId ∉ w.serialPanes ∧ w.serialPanes = ∅ ∧
          w.panes.toList = [(paneId, pane)] ∧ windows = s.windows.erase source ∨
        ¬w.paneCount ≤ 1 ∧ w.CanTake paneId ∧
          ∃ w', w.Took paneId w' pane ∧ windows = s.windows.insert source w') ∧
      s.takeFrom source paneId = ({ s with windows := windows }, .ok pane)) := by
  unfold takeFrom
  simp only [hw]
  by_cases hcount : w.paneCount ≤ 1
  · rw [if_pos hcount]
    rcases Window.intoSinglePane_cases hcount hmem with ⟨hser, hi⟩ | ⟨hser, h0, pane, hi, hl⟩
    · exact Or.inl ⟨hcount, hser, .cannotExtract source, by rw [hi]⟩
    · exact Or.inr (Or.inr ⟨_, pane, Or.inl ⟨hcount, hser, h0, hl, rfl⟩, by rw [hi]⟩)
  · rw [if_neg hcount]
    refine Or.inr ?_
    by_cases hcan : w.CanTake paneId
    · obtain ⟨w', pane, ht⟩ := Window.takePaneById_of_can hcan s.cols s.rows
      have htook := (Window.takePaneById_some ht).2
      exact Or.inr ⟨_, pane, Or.inr ⟨hcount, hcan, w', htook, rfl⟩, by rw [ht]⟩
    · rw [Window.takePaneById_of_not hcan]
      exact Or.inl ⟨hcount, hcan, .cannotTake paneId source, by simp only [insert_eq_self hw]⟩

theorem movePane_unchanged_iff (paneId target : ℕ) (insertAt : Option ℕ) (newId pick : ℕ) :
    ((s.call (.movePane paneId target insertAt newId pick)).2.isSome →
        (s.call (.movePane paneId target insertAt newId pick)).1 = s) ↔
      ¬s.FailsHalfway (.movePane paneId target insertAt newId pick) := by
  simp only [call, movePane, FailsHalfway]
  cases hsource : s.sourceWindow paneId pick with
  | none => simp
  | some source =>
    obtain ⟨w, hw, hids⟩ := sourceWindow_some hsource
    by_cases hsame : source = target
    · simp [hsame]
    have hmem : source ∈ s.windows := mem_iff_getElem?.2 ⟨w, hw⟩
    simp only [hsame, if_false, Option.some.injEq, exists_eq_left', hw, ne_eq, not_false_eq_true,
      true_and, exists_and_left]
    rcases takeFrom_cases hw hids with
      ⟨hcount, hser, e, ht⟩ | ⟨hcount, hcan, e, ht⟩ | ⟨windows, pane, hcase, ht⟩
    · -- the window is gone, its pane cannot be extracted
      simp only [ht, errorOf, Option.isSome_some, true_implies, hcount, hser, true_and, true_or,
        not_true_eq_false, iff_false]
      exact fun h => erase_ne_self hmem (congrArg Session.windows h)
    · simp [ht, errorOf, hcount, hcan]
    · have hne : windows ≠ s.windows := by
        rcases hcase with ⟨-, -, -, -, rfl⟩ | ⟨-, -, w', htook, rfl⟩
        · exact erase_ne_self hmem
        · exact fun h => htook.ne ((insert_eq_self_iff hw).1 h)
      have htarget : target ∈ windows ↔ target ∈ s.windows := by
        rcases hcase with ⟨-, -, -, -, rfl⟩ | ⟨-, -, w', htook, rfl⟩
        · rw [mem_erase_eq]; exact and_iff_right hsame
        · rw [mem_insert_eq]; exact or_iff_right hsame
      have hcond : (w.paneCount ≤ 1 ∧ paneId ∈ w.serialPanes ∨
          (w.paneCount ≤ 1 ∨ w.CanTake paneId) ∧ ¬target = 0 ∧ target ∉ s.windows) ↔
          target ≠ 0 ∧ target ∉ windows := by
        rw [htarget]
        rcases hcase with ⟨h1, h2, -, -, -⟩ | ⟨h1, h2, -⟩ <;> simp [h1, h2]
      simp only [ht]
      rw [hcond]
      rcases putInto_cases (s := { s with windows := windows }) pane target insertAt newId with
        ⟨h0, hnot, hp⟩ | ⟨hnot, s', d, hp⟩
      · simp only [hp, errorOf, Option.isSome_some, true_implies]
        exact iff_of_false (fun h => hne (congrArg Session.windows h)) (not_not.2 ⟨h0, hnot⟩)
      · simp only [hp, errorOf]
        exact iff_of_true (by simp) hnot

/-- **Atomicity of the moves.**  A call that fails leaves the session as it was, unless it fails
    halfway. -/
theorem call_unchanged_iff (s : Session F) (m : PaneMove) :
    ((s.call m).2.isSome → (s.call m).1 = s) ↔ ¬s.FailsHalfway m := by
  cases m with
  | breakPane newId => exact breakPane_unchanged_iff newId
  | movePane paneId target insertAt newId pick => exact movePane_unchanged_iff ..
  | joinPane target => exact joinPane_unchanged_iff target

/-- A fresh session whose window has been split once. -/
def twoPanes : Session ℚ :=
  step ⟨(∅ : IdMap (Window ℚ)).insert 1 (.ofPane 1 "window-1" ⟨1, 80, 24⟩ 80 24), 1, 80, 24⟩
    (.window (.split .vertical 2 (.ok ())))

/-- Joining into a window that does not exist fails, and drops the focused pane. -/
theorem join_drops_pane :
    (∃ s₀, Session.new 80 24 1 1 (.ok ()) = .ok s₀ ∧
      twoPanes = s₀.step (.window (.split .vertical 2 (.ok ())))) ∧
    (twoPanes.call (.joinPane 9)).2 = some (.windowNotFound 9) ∧
    twoPanes.windows.toList.map (·.2.paneIds) = [[1, 2]] ∧
    (twoPanes.call (.joinPane 9)).1.windows.toList.map (·.2.paneIds) = [[1]] ∧
    (twoPanes.call (.joinPane 9)).1 ≠ twoPanes :=
  ⟨⟨_, rfl, rfl⟩, by decide +kernel⟩

end Session

end Nexterm.Server

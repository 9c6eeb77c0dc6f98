/-
  The sizes of the panes and the layout that is sent: every PTY pane of the `LayoutChanged`
  message of the focused window has the size that the message gives it.

  * `resizePanes_getElem?`: a resize stores the last rectangle of a pane.
  * `InSync`: the property, for one window and one total size; `inSync_iff` splits it into the
    zoomed and the tiled case.
  * `Alone`: when the message names the focused pane only.
  * `SyncOk`: when an operation of the focused window keeps it in sync.
-/
import Nexterm.Server.Conserve

namespace Nexterm.Server

open Std.ExtTreeMap

/-! ## Rectangles and resizes -/

theorem rectById_append_singleton (rects : List PaneRect) (r : PaneRect) (id : ℕ) :
    rectById (rects ++ [r]) id = if r.paneId = id then some r else rectById rects id := by
  rw [rectById, List.reverse_append, List.reverse_singleton, List.singleton_append, List.find?_cons]
  by_cases h : r.paneId = id <;> simp [h, rectById]

theorem rectById_mem {rects : List PaneRect} {id : ℕ} {r : PaneRect}
    (h : rectById rects id = some r) : r ∈ rects ∧ r.paneId = id :=
  ⟨List.mem_reverse.1 (List.mem_of_find?_eq_some h), by simpa using List.find?_some h⟩

theorem rectById_eq_none_iff {rects : List PaneRect} {id : ℕ} :
    rectById rects id = none ↔ id ∉ rects.map PaneRect.paneId := by
  simp [rectById]

/-- The size of a pane after a resize to the rectangle it is given, if any. -/
def Pane.fit (p : Pane) : Option PaneRect → Pane
  | some r => p.resizePty r.cols r.rows
  | none => p

/-- **The last rectangle of a pane wins**, as it does in the lookup map of the message. -/
theorem resizePanes_getElem? (rects : List PaneRect) (panes : IdMap Pane) (id : ℕ) :
    (resizePanes rects panes)[id]? = panes[id]?.map (·.fit (rectById rects id)) := by
  induction rects using List.reverseRecOn with
  | nil => simp [resizePanes, rectById, Pane.fit]
  | append_singleton rects r ih =>
    have happ : resizePanes (rects ++ [r]) panes =
        (resizePanes rects panes).modify r.paneId (·.resizePty r.cols r.rows) := by
      simp [resizePanes]
    rw [happ, getElem?_modify_eq, ih, rectById_append_singleton]
    by_cases h : r.paneId = id
    · rw [if_pos h, if_pos h, Option.map_map]
      refine congrArg (fun f => Option.map f _) (funext fun p => ?_)
      cases rectById rects id <;> rfl
    · rw [if_neg h, if_neg h]

namespace Window

variable {F : Type} [Ratio F] {w : Window F}

/-! ## One window -/

/-- Every PTY pane of the layout message has the size that the message gives it. -/
def InSync (w : Window F) (cols rows : ℕ) : Prop :=
  ∀ e ∈ (w.layoutChangedMsg cols rows).panes, ∀ p, w.panes[e.paneId]? = some p →
    p.cols = e.cols ∧ p.rows = e.rows

instance (w : Window F) (cols rows : ℕ) : Decidable (w.InSync cols rows) :=
  decidable_of_iff (∀ e ∈ (w.layoutChangedMsg cols rows).panes, (w.panes[e.paneId]?).all
    fun p => decide (p.cols = e.cols ∧ p.rows = e.rows)) (by simp [InSync, Option.all_eq_true])

/-- Every PTY pane is in the tab order. -/
def Ordered (w : Window F) : Prop := ∀ id ∈ w.panes, id ∈ w.paneOrder

omit [Ratio F] in
theorem Ordered.erase (h : w.Ordered) (target : ℕ) :
    ∀ id ∈ w.panes.erase target, id ∈ w.paneOrder.filter (· ≠ target) := fun id hid => by
  obtain ⟨hne, hmem⟩ := mem_erase_eq.1 hid
  exact List.mem_filter.2 ⟨h id hmem, by simpa using Ne.symm hne⟩

/-- Every PTY pane with a rectangle has its size. -/
def TiledSync (w : Window F) (cols rows : ℕ) : Prop :=
  ∀ id p r, w.panes[id]? = some p → rectById (w.computeLayouts cols rows) id = some r →
    p.cols = r.cols ∧ p.rows = r.rows

/-- A focused PTY pane has the size of the whole window. -/
def ZoomSync (w : Window F) (cols rows : ℕ) : Prop :=
  ∀ p, w.panes[w.focusedPaneId]? = some p → p.cols = cols ∧ p.rows = rows

theorem inSync_zoomed {cols rows : ℕ} (h : w.zoomed = true) :
    w.InSync cols rows ↔ w.ZoomSync cols rows := by
  simp [InSync, layoutChangedMsg, h, ZoomSync]

theorem inSync_tiled {cols rows : ℕ} (ho : w.Ordered) (h : w.zoomed = false) :
    w.InSync cols rows ↔ w.TiledSync cols rows := by
  simp only [InSync, layoutChangedMsg, h, Bool.false_eq_true, if_false, List.mem_append,
    List.mem_filterMap, List.mem_map, List.mem_filter, Option.map_eq_some_iff]
  constructor
  · intro hs id p r hp hr
    have hid := (rectById_mem hr).2
    subst hid
    exact hs _ (Or.inl ⟨_, ho _ (mem_iff_getElem?.2 ⟨p, hp⟩), r, hr, rfl⟩) p hp
  · rintro hs e (⟨id, -, r, hr, rfl⟩ | ⟨r, ⟨-, hnot⟩, rfl⟩) p hp
    · have hid := (rectById_mem hr).2
      subst hid
      exact hs _ p r hp hr
    · -- a PTY pane is never one of the unregistered rectangles
      have : r.paneId ∈ w.paneOrder := ho _ (mem_iff_getElem?.2 ⟨p, hp⟩)
      simp [this] at hnot

theorem computeLayouts_congr (w' w : Window F) (hm : w'.layoutMode = w.layoutMode)
    (hl : w'.layout = w.layout) (hp : w'.panes.keys = w.panes.keys)
    (hs : w'.serialPanes.keys = w.serialPanes.keys) (cols rows : ℕ) :
    w'.computeLayouts cols rows = w.computeLayouts cols rows := by
  unfold computeLayouts
  rw [hm, hl, hp, hs]

theorem tiledSync_resizePanes {w' : Window F} {cols rows : ℕ} (panes : IdMap Pane)
    (hp : w'.panes = resizePanes (w'.computeLayouts cols rows) panes) : w'.TiledSync cols rows := by
  intro id p r hid hr
  rw [hp, resizePanes_getElem?, hr] at hid
  obtain ⟨q, -, rfl⟩ := Option.map_eq_some_iff.1 hid
  exact ⟨rfl, rfl⟩

theorem tiledSync_resizeTiled (cols rows : ℕ) : (w.resizeTiled cols rows).TiledSync cols rows := by
  have h : (w.resizeTiled cols rows).computeLayouts cols rows = w.computeLayouts cols rows :=
    computeLayouts_congr (w.resizeTiled cols rows) w rfl rfl (keys_resizePanes _ _) rfl _ _
  exact tiledSync_resizePanes w.panes (by rw [h]; rfl)

theorem tiledSync_resizeAllPanes (cols rows : ℕ) :
    (w.resizeAllPanes cols rows).TiledSync cols rows := by
  have h : (w.resizeAllPanes cols rows).computeLayouts cols rows = w.computeLayouts cols rows :=
    computeLayouts_congr (w.resizeAllPanes cols rows) w rfl rfl (keys_resizePanes _ _)
      (keys_resizeSerialPanes _ _ _) _ _
  exact tiledSync_resizePanes w.panes (by rw [h]; rfl)

theorem Ordered.resizeTiled (h : w.Ordered) (cols rows : ℕ) : (w.resizeTiled cols rows).Ordered :=
  fun id hid => h id ((mem_resizePanes _ _).1 hid)

theorem Ordered.resizeAllPanes (h : w.Ordered) (cols rows : ℕ) :
    (w.resizeAllPanes cols rows).Ordered :=
  fun id hid => h id ((mem_resizePanes _ _).1 hid)

theorem inSync_resizeTiled {cols rows : ℕ} (ho : w.Ordered) (h : w.zoomed = false) :
    (w.resizeTiled cols rows).InSync cols rows :=
  (inSync_tiled (ho.resizeTiled cols rows) h).2 (tiledSync_resizeTiled cols rows)

theorem inSync_resizeAllPanes {cols rows : ℕ} (ho : w.Ordered) (h : w.zoomed = false) :
    (w.resizeAllPanes cols rows).InSync cols rows :=
  (inSync_tiled (ho.resizeAllPanes cols rows) h).2 (tiledSync_resizeAllPanes cols rows)

/-- A take leaves the window laid out for the given size. -/
theorem takeFocusedPane_laidOut {w' : Window F} {pane : Pane} {cols rows : ℕ} (ho : w.Ordered)
    (h : w.takeFocusedPane cols rows = (w', some pane)) : w'.Ordered ∧ w'.InSync cols rows := by
  obtain ⟨⟨hsize, -, hser⟩, htook⟩ := takeFocusedPane_some h
  unfold takeFocusedPane at h
  simp only [show ¬w.panes.size ≤ 1 by omega, hser, htook.pane, if_false, Prod.mk.injEq] at h
  obtain ⟨rfl, -⟩ := h
  refine ⟨Ordered.resizeTiled ?_ cols rows, inSync_resizeTiled ?_ rfl⟩ <;>
  exact ho.erase w.focusedPaneId

theorem takePaneById_laidOut {w' : Window F} {pane : Pane} {paneId cols rows : ℕ} (ho : w.Ordered)
    (h : w.takePaneById paneId cols rows = (w', some pane)) : w'.Ordered ∧ w'.InSync cols rows := by
  obtain ⟨⟨hsize, -, hser⟩, htook⟩ := takePaneById_some h
  unfold takePaneById at h
  simp only [show ¬w.panes.size ≤ 1 by omega, hser, htook.pane, if_false, Prod.mk.injEq] at h
  obtain ⟨rfl, -⟩ := h
  refine ⟨Ordered.resizeTiled ?_ cols rows, inSync_resizeTiled ?_ rfl⟩ <;>
  exact ho.erase paneId

theorem insertPaneAt_laidOut (ho : w.Ordered) (pane : Pane) (cols rows : ℕ) (dir : SplitDir)
    (position : Option ℕ) : (w.insertPaneAt pane cols rows dir position).Ordered ∧
      (w.insertPaneAt pane cols rows dir position).InSync cols rows := by
  unfold insertPaneAt
  refine ⟨Ordered.resizeTiled ?_ cols rows, inSync_resizeTiled ?_ rfl⟩ <;>
  · intro id hid
    dsimp only at hid ⊢
    rw [List.mem_insertIdx (computeInsertPosition_le _ _ _)]
    exact (mem_insert_eq.1 hid).imp Eq.symm (ho id)

omit [Ratio F] in
theorem ordered_ofPane (id : ℕ) (name : String) (pane : Pane) (cols rows : ℕ) :
    (ofPane id name pane cols rows : Window F).Ordered := fun i hi =>
  (mem_insert_eq.1 hi).elim (fun he => List.mem_singleton.2 he.symm) fun h => by simp at h

theorem newWithPane_laidOut (id : ℕ) (name : String) (pane : Pane) (cols rows : ℕ) :
    (newWithPane id name pane cols rows : Window F).Ordered ∧
      (newWithPane id name pane cols rows : Window F).InSync cols rows :=
  ⟨(ordered_ofPane _ _ _ _ _).resizeAllPanes _ _,
    inSync_resizeAllPanes (ordered_ofPane _ _ _ _ _) rfl⟩

/-- A new window is spawned at the size it is laid out for. -/
theorem new_laidOut (id : ℕ) (name : String) (newId cols rows : ℕ) :
    (ofPane id name ⟨newId, cols, rows⟩ cols rows : Window F).Ordered ∧
      (ofPane id name ⟨newId, cols, rows⟩ cols rows : Window F).InSync cols rows := by
  have ho : (ofPane id name ⟨newId, cols, rows⟩ cols rows : Window F).Ordered :=
    ordered_ofPane _ _ _ _ _
  refine ⟨ho, (inSync_tiled ho rfl).2 fun i p r hp hr => ?_⟩
  obtain ⟨hmem, -⟩ := rectById_mem hr
  obtain rfl : r = ⟨newId, 0, 0, cols, rows⟩ := List.mem_singleton.1 hmem
  rw [ofPane, getElem?_insert_eq] at hp
  split_ifs at hp
  · cases hp
    exact ⟨rfl, rfl⟩
  · simp at hp

theorem Ordered.step (h : w.Ordered) (op : WindowOp F) : (w.step op).Ordered := by
  cases op with
  | addPane newId totalCols totalRows dir opened =>
    simp only [Window.step, addPaneWithOptions]
    split_ifs
    · exact h
    · cases opened with
      | error text => exact h
      | ok u =>
        intro id hid
        refine (mem_insert_eq.1 ((mem_resizePanes _ _).1 hid)).elim (fun he => ?_) fun hid => ?_
        · exact List.mem_append_right _ (List.mem_singleton.2 he.symm)
        · exact List.mem_append_left _ (h id hid)
  | addSerialPane newId totalCols totalRows dir opened =>
    simp only [Window.step, addSerialPane]
    cases opened with
    | error text => exact h
    | ok u =>
      refine Ordered.resizeAllPanes (fun id hid => ?_) _ _
      exact List.mem_append_left _ (h id hid)
  | insertPaneAt pane totalCols totalRows dir position => exact (insertPaneAt_laidOut h ..).1
  | removeFocusedPane cols rows =>
    simp only [Window.step, removeFocusedPane]
    split_ifs
    · exact h
    · refine Ordered.resizeTiled ?_ cols rows
      exact h.erase w.focusedPaneId
  | takeFocusedPane cols rows =>
    simp only [Window.step]
    by_cases hcan : w.CanTakeFocused
    · obtain ⟨w', pane, ht⟩ := takeFocusedPane_of_can hcan cols rows
      rw [ht]
      exact (takeFocusedPane_laidOut h ht).1
    · obtain ⟨layout, ht, -⟩ := takeFocusedPane_of_not hcan cols rows
      rw [ht]
      exact h
  | takePaneById paneId cols rows =>
    simp only [Window.step]
    by_cases hcan : w.CanTake paneId
    · obtain ⟨w', pane, ht⟩ := takePaneById_of_can hcan cols rows
      rw [ht]
      exact (takePaneById_laidOut h ht).1
    · rwa [takePaneById_of_not hcan]
  | swapFocusedWith targetPaneId =>
    simp only [Window.step, swapFocusedWith]
    split_ifs <;> exact h
  | reorderPanes newOrder =>
    simp only [Window.step, reorderPanes]
    split_ifs
    · exact h
    · intro id hid
      exact mem_computeReordered.2 (List.mem_append_left _ (mem_keys.2 hid))
  | setFocusedPane paneId =>
    simp only [Window.step, setFocusedPane]
    split_ifs <;> exact h
  | focusNext =>
    simp only [Window.step, focusNext]
    split <;> exact h
  | focusPrev =>
    simp only [Window.step, focusPrev]
    split <;> exact h
  | toggleZoom cols rows =>
    simp only [Window.step, toggleZoom]
    split_ifs
    · exact fun id hid => h id (mem_modify.1 hid)
    · exact Ordered.resizeAllPanes (w := { w with zoomed := !w.zoomed }) h cols rows
  | setLayoutMode mode cols rows =>
    exact Ordered.resizeAllPanes (w := { w with layoutMode := mode }) h cols rows
  | adjustSplitRatio delta cols rows =>
    simp only [Window.step, adjustSplitRatio]
    split_ifs
    · exact Ordered.resizeTiled
        (w := { w with layout := (w.layout.adjustRatioFor w.focusedPaneId delta).1 }) h cols rows
    · exact h
  | resizeAllPanes cols rows => exact h.resizeAllPanes cols rows
  | openFloatingPane newId totalCols totalRows opened => cases opened <;> exact h
  | closeFloatingPane paneId => exact h
  | moveFloatingPane paneId colOff rowOff =>
    simp only [Window.step, moveFloatingPane]
    split <;> exact h
  | resizeFloatingPane paneId cols rows =>
    simp only [Window.step, resizeFloatingPane]
    split <;> exact h

/-! ## Which panes a layout names -/

/-- The panes that the layout mode gives a rectangle. -/
def shownIds (w : Window F) : List ℕ :=
  match w.layoutMode with
  | .bsp => w.layout.leaves
  | .tiling => w.paneIds

/-- The window shows its focused pane only: it is zoomed, or there is no other pane. -/
def Alone (w : Window F) : Prop := w.zoomed = true ∨ ∀ id ∈ w.shownIds, id = w.focusedPaneId

theorem paneId_mem_of_tiling {ids : List ℕ} {cols rows : ℕ} {rect : PaneRect}
    (h : rect ∈ computeTilingLayouts ids cols rows) : rect.paneId ∈ ids := by
  unfold computeTilingLayouts at h
  split at h
  · cases h
  · obtain rfl := List.mem_singleton.1 h
    exact List.mem_singleton.2 rfl
  · rw [← List.map_uncurry_zip_eq_zipWith] at h
    obtain ⟨⟨id, slot⟩, hzip, rfl⟩ := List.mem_map.1 h
    exact (List.of_mem_zip hzip).1

theorem paneId_mem_shownIds {w : Window F} {cols rows : ℕ} {rect : PaneRect}
    (h : rect ∈ w.computeLayouts cols rows) : rect.paneId ∈ w.shownIds := by
  unfold computeLayouts at h
  unfold shownIds
  cases hmode : w.layoutMode with
  | bsp =>
    rw [hmode] at h
    dsimp only at h ⊢
    rw [← w.layout.map_paneId_compute 0 0 cols rows]
    exact List.mem_map_of_mem h
  | tiling =>
    rw [hmode] at h
    exact (List.perm_insertionSort _ _).mem_iff.1 (paneId_mem_of_tiling h)

theorem Alone.paneId_eq {w : Window F} (h : w.Alone) {cols rows : ℕ} {layout : PaneLayout}
    (hmem : layout ∈ (w.layoutChangedMsg cols rows).panes) : layout.paneId = w.focusedPaneId := by
  unfold layoutChangedMsg at hmem
  split_ifs at hmem with hzoomed
  · obtain rfl := List.mem_singleton.1 hmem
    rfl
  · have honly := h.resolve_left hzoomed
    rcases List.mem_append.1 hmem with hmem | hmem
    · obtain ⟨id, -, hlayout⟩ := List.mem_filterMap.1 hmem
      obtain ⟨rect, hrect, rfl⟩ := Option.map_eq_some_iff.1 hlayout
      exact honly _ (paneId_mem_shownIds (rectById_mem hrect).1)
    · obtain ⟨rect, hrect, rfl⟩ := List.mem_map.1 hmem
      exact honly _ (paneId_mem_shownIds (List.mem_of_mem_filter hrect))

/-! ## A single pane -/

/-- A well-formed window with one pane is laid out as that pane alone. -/
theorem computeLayouts_alone (hw : w.WellFormed) (hc : w.paneCount = 1) (cols rows : ℕ) :
    w.computeLayouts cols rows = [⟨w.focusedPaneId, 0, 0, cols, rows⟩] := by
  have hlen : (w.panes.keys ++ w.serialPanes.keys).length = 1 := by
    rw [List.length_append, length_keys, length_keys]; exact hc
  obtain ⟨x, hx⟩ := List.length_eq_one_iff.1 hlen
  have hmem : ∀ id, id ∈ w.layout.leaves ↔ id = x := fun id => by
    rw [hw.mem_leaves, ← mem_keys, ← mem_keys, ← List.mem_append, hx, List.mem_singleton]
  have hf : w.focusedPaneId = x := (hmem _).1 hw.focus
  unfold computeLayouts
  cases w.layoutMode with
  | bsp =>
    have hleaves : w.layout.leaves = [x] := List.perm_singleton.1
      ((List.perm_ext_iff_of_nodup hw.nodup_leaves (List.nodup_singleton x)).2 fun id => by
        rw [hmem, List.mem_singleton])
    dsimp only
    rw [SplitNode.eq_pane hleaves, hf]
    rfl
  | tiling =>
    dsimp only
    rw [hx, hf]
    rfl

/-- Tiled sizes are what the message promises, zoomed or not, in a window with one pane. -/
theorem inSync_of_tiled {cols rows : ℕ} (ho : w.Ordered) (ht : w.TiledSync cols rows)
    (h : w.zoomed = true → w.focusedPaneId ∈ w.panes → w.WellFormed ∧ w.paneCount = 1) :
    w.InSync cols rows := by
  cases hz : w.zoomed with
  | false => exact (inSync_tiled ho hz).2 ht
  | true =>
    refine (inSync_zoomed hz).2 fun p hp => ?_
    obtain ⟨hw, hc⟩ := h hz (mem_iff_getElem?.2 ⟨p, hp⟩)
    refine ht _ p ⟨w.focusedPaneId, 0, 0, cols, rows⟩ hp ?_
    rw [computeLayouts_alone hw hc]
    simp [rectById]

theorem paneCount_resizeTiled {cols rows : ℕ} : (w.resizeTiled cols rows).paneCount = w.paneCount := by
  unfold paneCount resizeTiled
  rw [← length_keys, keys_resizePanes, length_keys]

theorem paneCount_resizeAllPanes {cols rows : ℕ} :
    (w.resizeAllPanes cols rows).paneCount = w.paneCount := by
  unfold paneCount resizeAllPanes
  rw [← length_keys, ← length_keys, keys_resizePanes, keys_resizeSerialPanes, length_keys,
    length_keys]

/-! ## When a request keeps the focused window in sync -/

/-- The rectangles of two panes have the same size. -/
def SameRect (w : Window F) (cols rows a b : ℕ) : Prop :=
  ∃ r s, rectById (w.computeLayouts cols rows) a = some r ∧
    rectById (w.computeLayouts cols rows) b = some s ∧ r.cols = s.cols ∧ r.rows = s.rows

/-- When a request keeps the window in sync. -/
def SyncOk (w : Window F) (cols rows : ℕ) : WindowRequest F → Prop
  | .split _ newId (.ok _) => w.layout.contains w.focusedPaneId = true →
      w.zoomed = false ∧ w.layoutMode = .bsp ∧ newId ∉ w.layout.leaves
  | .split _ _ (.error _) => w.layout.contains w.focusedPaneId = true →
      w.zoomed = true ∨ w.layoutMode = .tiling
  | .connectSerial _ newId (.ok _) => newId ∉ w.panes
  | .closePane => w.zoomed = true → w.panes.size ≤ 1 ∨ w.WellFormed ∧ w.paneCount = 2
  | .swapPane target => w.zoomed = true ∨ w.layoutMode = .tiling ∨ target = w.focusedPaneId ∨
      target ∉ w.panes ∧ w.layout.contains target = false ∨
      w.SameRect cols rows w.focusedPaneId target
  | .focusPane paneId => w.zoomed = true → paneId = w.focusedPaneId ∨ paneId ∉ w.panes
  | .focusNextPane => w.zoomed = true → w.panes.size ≤ 1 ∨ w.focusedPaneId ∉ w.panes
  | .focusPrevPane => w.zoomed = true → w.panes.size ≤ 1 ∨ w.focusedPaneId ∉ w.panes
  | .setLayoutMode _ => w.zoomed = true → w.focusedPaneId ∈ w.panes → w.WellFormed ∧ w.paneCount = 1
  | .resizeSplit delta => w.zoomed = true → w.focusedPaneId ∈ w.panes →
      (w.layout.adjustRatioFor w.focusedPaneId delta).2 = false
  | _ => True

variable {cols rows : ℕ}

/-- A step that moves no size, no zoom and, as far as it is shown, neither focus nor layout. -/
theorem InSync.frame (hs : w.InSync cols rows) (ho : w.Ordered) {v : Window F} (ho' : v.Ordered)
    (hp : v.panes = w.panes) (hz : v.zoomed = w.zoomed)
    (hf : w.zoomed = true → v.focusedPaneId = w.focusedPaneId)
    (hl : w.zoomed = false → v.computeLayouts cols rows = w.computeLayouts cols rows) :
    v.InSync cols rows := by
  cases h : w.zoomed with
  | true =>
    rw [inSync_zoomed (hz.trans h)]
    rw [inSync_zoomed h] at hs
    intro p hpane
    rw [hp, hf h] at hpane
    exact hs p hpane
  | false =>
    rw [inSync_tiled ho' (hz.trans h)]
    rw [inSync_tiled ho h] at hs
    intro id p r hpane hr
    rw [hp] at hpane
    rw [hl h] at hr
    exact hs id p r hpane hr

/-- Two rectangles of an id that occurs once are the same. -/
theorem rectById_eq_find? {rects : List PaneRect} {id : ℕ}
    (h : (rects.map PaneRect.paneId).count id ≤ 1) :
    rectById rects id = rects.find? (·.paneId = id) := by
  induction rects with
  | nil => rfl
  | cons r rects ih =>
    rw [rectById, List.reverse_cons, List.find?_append, ← rectById, List.find?_cons]
    rw [List.map_cons, List.count_cons] at h
    by_cases hr : r.paneId = id
    · have hz : id ∉ rects.map PaneRect.paneId := List.count_eq_zero.1 (by simp [hr] at h; exact h)
      rw [rectById_eq_none_iff.2 hz]
      simp [hr]
    · rw [ih (by omega)]
      simp [hr]

theorem rectById_filter_ne {rects : List PaneRect} {id new : ℕ} (h : id ≠ new) :
    rectById (rects.filter (·.paneId ≠ new)) id = rectById rects id := by
  induction rects using List.reverseRecOn with
  | nil => rfl
  | append_singleton rects r ih =>
    rw [rectById_append_singleton, List.filter_append, ← ih]
    by_cases hr : r.paneId = new
    · have : r.paneId ≠ id := fun he => h (he.symm.trans hr)
      simp [hr, Ne.symm h]
    · simp [hr, rectById_append_singleton]

theorem inSync_split (ho : w.Ordered) (hs : w.InSync cols rows) (dir : SplitDir) (newId : ℕ)
    (opened : Except String Unit) (hok : w.SyncOk cols rows (.split dir newId opened)) :
    (w.addPaneWithOptions newId cols rows dir opened).1.InSync cols rows := by
  by_cases hmem : w.focusedPaneId ∈ w.layout.leaves
  · obtain ⟨hfound, hperm⟩ := w.layout.insertAfter_of_mem newId dir hmem
    have hc := SplitNode.contains_iff.2 hmem
    unfold addPaneWithOptions
    simp only [hfound, Bool.not_true, Bool.false_eq_true, if_false]
    cases opened with
    | error text =>
      refine hs.frame ho ho rfl rfl (fun _ => rfl) fun hz => ?_
      have hm : w.layoutMode = .tiling := (hok hc).resolve_left (by simp [hz])
      simp [computeLayouts, hm]
    | ok u =>
      obtain ⟨hz, hm, hnew⟩ := hok hc
      have hocc : (((w.layout.insertAfter w.focusedPaneId newId dir).1.compute 0 0 cols rows).map
          PaneRect.paneId).count newId ≤ 1 := by
        rw [SplitNode.map_paneId_compute, hperm.count_eq, List.count_cons,
          List.count_eq_zero.2 hnew]
        simp
      have ho' : ∀ id ∈ w.panes.insert newId ⟨newId, 0, 0⟩, id ∈ w.paneOrder ++ [newId] :=
        fun id hid => (mem_insert_eq.1 hid).elim
          (fun he => List.mem_append_right _ (List.mem_singleton.2 he.symm))
          fun hid => List.mem_append_left _ (ho id hid)
      dsimp only
      refine (inSync_tiled ?_ ?_).2 ?_
      · exact fun id hid => ho' id (mem_insert_eq.2 (mem_insert_eq.1 ((mem_resizePanes _ _).1 hid)))
      · exact hz
      · -- the new pane is spawned at its rectangle, the others are resized to theirs
        intro id p r hp hr
        simp only [computeLayouts, hm] at hp hr
        rw [resizePanes_getElem?] at hp
        obtain ⟨q, hq, rfl⟩ := Option.map_eq_some_iff.1 hp
        by_cases hid : id = newId
        · subst hid
          have hnone : rectById (((w.layout.insertAfter w.focusedPaneId id dir).1.compute 0 0 cols
              rows).filter (·.paneId ≠ id)) id = none := by
            rw [rectById_eq_none_iff]; simp
          rw [getElem?_insert_self, Option.some.injEq] at hq
          rw [hnone, ← hq]
          rw [rectById_eq_find? hocc] at hr
          simp [hr, Pane.fit]
        · rw [rectById_filter_ne hid, hr]
          exact ⟨rfl, rfl⟩
  · unfold addPaneWithOptions
    rw [SplitNode.insertAfter_of_not_mem newId dir hmem]
    exact hs

theorem compute_swapIds (a b : ℕ) : ∀ (t : SplitNode F) (colOff rowOff cols rows : ℕ),
    (t.swapIds a b).1.compute colOff rowOff cols rows =
      (t.compute colOff rowOff cols rows).map fun r => { r with paneId := Equiv.swap a b r.paneId }
  | .pane id, _, _, _, _ => by
    simp only [SplitNode.swapIds, SplitNode.compute, List.map_cons, List.map_nil,
      Equiv.swap_apply_def]
    split_ifs <;> rfl
  | .split .vertical _ l r, _, _, _, _ => by
    simp [SplitNode.swapIds, SplitNode.compute, compute_swapIds a b l, compute_swapIds a b r]
  | .split .horizontal _ l r, _, _, _, _ => by
    simp [SplitNode.swapIds, SplitNode.compute, compute_swapIds a b l, compute_swapIds a b r]

/-- Renaming the panes of a list of rectangles. -/
theorem rectById_map (e : Equiv.Perm ℕ) (rects : List PaneRect) (id : ℕ) :
    rectById (rects.map fun r => { r with paneId := e r.paneId }) id =
      (rectById rects (e.symm id)).map fun r => { r with paneId := e r.paneId } := by
  rw [rectById, rectById, ← List.map_reverse, List.find?_map]
  congr 2
  funext r
  simp only [Function.comp_apply, decide_eq_decide]
  exact (Equiv.eq_symm_apply e).symm

theorem inSync_swap (ho : w.Ordered) (hs : w.InSync cols rows) (target : ℕ)
    (hok : w.SyncOk cols rows (.swapPane target)) :
    (w.swapFocusedWith target).InSync cols rows := by
  unfold swapFocusedWith
  split_ifs with hne
  swap
  · exact hs
  by_cases htiled : w.zoomed = false ∧ w.layoutMode = .bsp
  swap
  · -- neither a zoomed window nor the tiling layout shows the tree
    refine hs.frame ho ho rfl rfl (fun _ => rfl) fun hz => ?_
    have hm : w.layoutMode = .tiling := by
      cases h : w.layoutMode with
      | tiling => rfl
      | bsp => exact absurd ⟨hz, h⟩ htiled
    simp [computeLayouts, hm]
  · obtain ⟨hz, hm⟩ := htiled
    rw [inSync_tiled ho hz] at hs
    refine (inSync_tiled (by exact ho) (by exact hz)).2 fun id p r hp hr => ?_
    have hlay : w.computeLayouts cols rows = w.layout.compute 0 0 cols rows := by
      simp [computeLayouts, hm]
    simp only [computeLayouts, hm] at hr
    rw [compute_swapIds, rectById_map, Equiv.symm_swap, ← hlay] at hr
    obtain ⟨r', hr', rfl⟩ := Option.map_eq_some_iff.1 hr
    simp only [SyncOk, hz, hm, Bool.false_eq_true, reduceCtorEq, false_or, hne.symm] at hok
    by_cases h1 : id = w.focusedPaneId
    · -- the focused pane is now where the target was
      rw [h1, Equiv.swap_apply_left] at hr'
      rcases hok with ⟨-, hc⟩ | ⟨a, b, ha, hb, hcols, hrows⟩
      · have hnot := SplitNode.contains_eq_false_iff.1 hc
        rw [hlay] at hr'
        obtain ⟨hmem, hid⟩ := rectById_mem hr'
        rw [← SplitNode.map_paneId_compute w.layout 0 0 cols rows] at hnot
        exact absurd (hid ▸ List.mem_map_of_mem hmem) hnot
      · rw [hr', Option.some.injEq] at hb
        subst hb
        have := hs _ p a (h1 ▸ hp) ha
        exact ⟨this.1.trans hcols, this.2.trans hrows⟩
    · by_cases h2 : id = target
      · rw [h2, Equiv.swap_apply_right] at hr'
        rcases hok with ⟨hnot, -⟩ | ⟨a, b, ha, hb, hcols, hrows⟩
        · exact absurd (mem_iff_getElem?.2 ⟨p, h2 ▸ hp⟩) hnot
        · rw [hr', Option.some.injEq] at ha
          subst ha
          have := hs _ p b (h2 ▸ hp) hb
          exact ⟨this.1.trans hcols.symm, this.2.trans hrows.symm⟩
      · rw [Equiv.swap_apply_of_ne_of_ne h1 h2] at hr'
        exact hs _ p r' hp hr'

theorem inSync_close (ho : w.Ordered) (hs : w.InSync cols rows)
    (hok : w.SyncOk cols rows .closePane) : (w.removeFocusedPane cols rows).1.InSync cols rows := by
  by_cases hsize : w.panes.size ≤ 1
  · unfold removeFocusedPane
    rwa [if_pos hsize]
  refine inSync_of_tiled (ho.step (.removeFocusedPane cols rows)) ?_ fun hz => ?_
  · unfold removeFocusedPane
    rw [if_neg hsize]
    exact tiledSync_resizeTiled cols rows
  · intro _
    have hz' : w.zoomed = true := by
      unfold removeFocusedPane at hz
      rwa [if_neg hsize] at hz
    obtain ⟨hw, hc⟩ := (hok hz').resolve_left hsize
    refine ⟨wellFormed_removeFocusedPane hw cols rows, ?_⟩
    have hser : w.serialPanes = ∅ := by
      unfold paneCount at hc
      exact eq_empty_iff_size_eq_zero.2 (by omega)
    have hmem : w.focusedPaneId ∈ w.panes :=
      ((hw.mem_leaves _).1 hw.focus).resolve_right fun h => by rw [hser] at h; simp at h
    have := size_erase_mem hmem
    unfold removeFocusedPane
    rw [if_neg hsize, paneCount_resizeTiled]
    unfold paneCount at hc ⊢
    have h0 : (w.serialPanes.erase w.focusedPaneId).size = 0 := by rw [hser]; rfl
    dsimp only
    rw [hser] at hc
    have h0' : (∅ : IdMap SerialPane).size = 0 := rfl
    omega

theorem inSync_connectSerial (ho : w.Ordered) (hs : w.InSync cols rows) (dir : SplitDir)
    (newId : ℕ) (opened : Except String Unit)
    (hok : w.SyncOk cols rows (.connectSerial dir newId opened)) :
    (w.addSerialPane newId cols rows dir opened).1.InSync cols rows := by
  cases opened with
  | error text => exact hs
  | ok u =>
    have ho' := ho.step (.addSerialPane newId cols rows dir (.ok u))
    cases hz : w.zoomed with
    | false => exact (inSync_tiled ho' hz).2 (tiledSync_resizeAllPanes cols rows)
    | true =>
      -- the focus is on the new serial pane
      refine (inSync_zoomed (by exact hz)).2 fun p hp => ?_
      have hmem : newId ∈ w.panes := (mem_resizePanes _ _).1 (mem_iff_getElem?.2 ⟨p, hp⟩)
      exact absurd hmem hok

/-- Moving the focus. -/
theorem InSync.refocus (hs : w.InSync cols rows) (ho : w.Ordered) {id : ℕ}
    (h : w.zoomed = true → id = w.focusedPaneId) :
    { w with focusedPaneId := id }.InSync cols rows :=
  hs.frame ho ho rfl rfl h fun _ => rfl

theorem inSync_focusPane (ho : w.Ordered) (hs : w.InSync cols rows) (paneId : ℕ)
    (hok : w.SyncOk cols rows (.focusPane paneId)) :
    (w.setFocusedPane paneId).InSync cols rows := by
  unfold setFocusedPane
  split_ifs with hmem
  · exact hs.refocus ho fun hz => (hok hz).resolve_right fun h => h hmem
  · exact hs

omit [Ratio F] in
/-- In a window with at most one PTY pane, the focus can only move to the focused pane. -/
theorem focus_unchanged {pos i : ℕ}
    (hpos : w.panes.keys.findIdx? (· = w.focusedPaneId) = some pos)
    (h : w.panes.size ≤ 1 ∨ w.focusedPaneId ∉ w.panes) :
    w.panes.keys.getD i w.focusedPaneId = w.focusedPaneId := by
  obtain ⟨hlt, hf, -⟩ := List.findIdx?_eq_some_iff_getElem.1 hpos
  simp only [decide_eq_true_eq] at hf
  have hmem : w.focusedPaneId ∈ w.panes := mem_keys.1 (hf ▸ List.getElem_mem hlt)
  have hsize : w.panes.keys.length ≤ 1 := length_keys.trans_le (h.resolve_right fun h => h hmem)
  rw [List.getD_eq_getElem?_getD]
  by_cases hi : i < w.panes.keys.length
  · rw [List.getElem?_eq_getElem hi, Option.getD_some]
    obtain rfl : pos = i := by omega
    exact hf
  · rw [List.getElem?_eq_none (by omega), Option.getD_none]

theorem inSync_focusNext (ho : w.Ordered) (hs : w.InSync cols rows)
    (hok : w.SyncOk cols rows .focusNextPane) : w.focusNext.InSync cols rows := by
  unfold focusNext
  dsimp only
  split
  · rename_i pos hpos
    exact hs.refocus ho fun hz => focus_unchanged hpos (hok hz)
  · exact hs

theorem inSync_focusPrev (ho : w.Ordered) (hs : w.InSync cols rows)
    (hok : w.SyncOk cols rows .focusPrevPane) : w.focusPrev.InSync cols rows := by
  unfold focusPrev
  dsimp only
  split
  · rename_i pos hpos
    exact hs.refocus ho fun hz => focus_unchanged hpos (hok hz)
  · exact hs

/-- A zoom toggle lays the window out again, on and off. -/
theorem inSync_toggleZoom (ho : w.Ordered) : (w.toggleZoom cols rows).1.InSync cols rows := by
  unfold toggleZoom
  dsimp only
  split_ifs with hz
  · refine (inSync_zoomed (by exact hz)).2 fun p hp => ?_
    rw [getElem?_modify_eq, if_pos rfl] at hp
    obtain ⟨q, -, rfl⟩ := Option.map_eq_some_iff.1 hp
    exact ⟨rfl, rfl⟩
  · exact inSync_resizeAllPanes (by exact ho) (by simpa using hz)

theorem inSync_resizeAll (ho : w.Ordered)
    (h : w.zoomed = true → w.focusedPaneId ∈ w.panes → w.WellFormed ∧ w.paneCount = 1) :
    (w.resizeAllPanes cols rows).InSync cols rows := by
  refine inSync_of_tiled (ho.resizeAllPanes cols rows) (tiledSync_resizeAllPanes cols rows) ?_
  intro hz hmem
  obtain ⟨hw, hc⟩ := h hz ((mem_resizePanes _ _).1 hmem)
  exact ⟨wellFormed_resizeAllPanes.2 hw, paneCount_resizeAllPanes.trans hc⟩

theorem inSync_setLayoutMode (ho : w.Ordered) (mode : LayoutMode)
    (hok : w.SyncOk cols rows (.setLayoutMode mode)) :
    (w.setLayoutMode mode cols rows).InSync cols rows := by
  have ho' : { w with layoutMode := mode }.Ordered := ho
  refine inSync_resizeAll ho' fun hz hmem => ?_
  obtain ⟨hw, hc⟩ := hok hz hmem
  have h : { w with layoutMode := mode }.WellFormed ↔ w.WellFormed :=
    wellFormed_congr rfl (fun _ => Iff.rfl) (fun _ => Iff.rfl) rfl rfl
  exact ⟨h.2 hw, hc⟩

theorem inSync_resizeSplit (ho : w.Ordered) (hs : w.InSync cols rows) (delta : F)
    (hok : w.SyncOk cols rows (.resizeSplit delta)) :
    (w.adjustSplitRatio delta cols rows).InSync cols rows := by
  unfold adjustSplitRatio
  dsimp only
  split_ifs with hadj
  · refine inSync_of_tiled (Ordered.resizeTiled (by exact ho) _ _) (tiledSync_resizeTiled _ _) ?_
    intro hz hmem
    rw [hok hz ((mem_resizePanes _ _).1 hmem)] at hadj
    exact absurd hadj (by decide)
  · rw [SplitNode.adjustRatioFor_of_false (by simpa using hadj)]
    exact hs

/-- **A request on the window keeps it in sync.** -/
theorem InSync.request (hs : w.InSync cols rows) (ho : w.Ordered) (r : WindowRequest F)
    (hok : w.SyncOk cols rows r) : (w.step (r.op cols rows)).InSync cols rows := by
  cases r with
  | split dir newId opened => exact inSync_split ho hs dir newId opened hok
  | connectSerial dir newId opened => exact inSync_connectSerial ho hs dir newId opened hok
  | closePane => exact inSync_close ho hs hok
  | swapPane targetPaneId => exact inSync_swap ho hs targetPaneId hok
  | reorderPanes paneIds =>
    have ho' := ho.step (.reorderPanes paneIds)
    simp only [WindowRequest.op, Window.step, reorderPanes] at ho' ⊢
    split_ifs at ho' ⊢
    · exact hs
    · exact hs.frame ho ho' rfl rfl (fun _ => rfl) fun _ => rfl
  | focusPane paneId => exact inSync_focusPane ho hs paneId hok
  | focusNextPane => exact inSync_focusNext ho hs hok
  | focusPrevPane => exact inSync_focusPrev ho hs hok
  | toggleZoom => exact inSync_toggleZoom ho
  | setLayoutMode mode => exact inSync_setLayoutMode ho mode hok
  | resizeSplit delta => exact inSync_resizeSplit ho hs delta hok
  | openFloatingPane newId opened =>
    cases opened <;> exact hs.frame ho ho rfl rfl (fun _ => rfl) fun _ => rfl
  | closeFloatingPane paneId => exact hs.frame ho ho rfl rfl (fun _ => rfl) fun _ => rfl
  | moveFloatingPane paneId colOff rowOff =>
    simp only [WindowRequest.op, Window.step, moveFloatingPane]
    split
    · exact hs
    · exact hs.frame ho ho rfl rfl (fun _ => rfl) fun _ => rfl
  | resizeFloatingPane paneId fpCols fpRows =>
    simp only [WindowRequest.op, Window.step, resizeFloatingPane]
    split
    · exact hs
    · exact hs.frame ho ho rfl rfl (fun _ => rfl) fun _ => rfl

end Window

end Nexterm.Server

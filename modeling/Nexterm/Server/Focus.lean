/-
  Moving the focus through a window.

  * `focusAt`: the window with the focus on the `i`-th PTY pane; `focusNext` and `focusPrev` add
    and subtract one there.
  * `Cycles`: what moving the focus should do; `Stocked`: what every reachable window has, a PTY
    pane and no id twice.
  * `cycles_iff`: in every state of a run, the focus cycles exactly if it is on a PTY pane and
    there is no serial pane.
-/
import Mathlib.Data.List.Rotate
import Nexterm.Server.Restore

namespace Nexterm.Server

open Std.ExtTreeMap

variable {F : Type}

namespace Window

/-! ## The focus at an index -/

/-- The window with the focus on the `i`-th PTY pane. -/
def focusAt (w : Window F) (i : ℕ) : Window F :=
  { w with focusedPaneId := w.panes.keys.getD i w.focusedPaneId }

section

variable {w : Window F} {i : ℕ}

theorem focusedPaneId_focusAt (hi : i < w.panes.keys.length) :
    (w.focusAt i).focusedPaneId = w.panes.keys[i] := List.getD_eq_getElem _ _ hi

theorem focusAt_focusAt (j : ℕ) (hi : i < w.panes.keys.length) :
    (w.focusAt j).focusAt i = w.focusAt i := by
  have hfocus : (w.focusAt j).panes.keys.getD i (w.focusAt j).focusedPaneId =
      w.panes.keys.getD i w.focusedPaneId := by
    rw [List.getD_eq_getElem _ _ hi]
    exact List.getD_eq_getElem _ _ hi
  rw [focusAt, hfocus]
  rfl

theorem exists_focusAt (h : w.focusedPaneId ∈ w.panes) :
    ∃ i < w.panes.keys.length, w = w.focusAt i := by
  obtain ⟨i, hi, hfocus⟩ := List.getElem_of_mem (mem_keys.2 h)
  refine ⟨i, hi, ?_⟩
  rw [focusAt, List.getD_eq_getElem _ _ hi, hfocus]

theorem findIdx_focusAt (hi : i < w.panes.keys.length) :
    w.panes.keys.findIdx? (· = (w.focusAt i).focusedPaneId) = some i := by
  rw [focusedPaneId_focusAt hi, List.findIdx?_eq_some_iff_getElem]
  refine ⟨hi, decide_eq_true rfl, fun j hj => ?_⟩
  have hne : w.panes.keys[j] ≠ w.panes.keys[i] := by
    intro heq
    exact hj.ne ((nodup_keys.getElem_inj_iff).1 heq)
  simpa using hne

theorem focusNext_focusAt (hi : i < w.panes.keys.length) :
    (w.focusAt i).focusNext = w.focusAt ((i + 1) % w.panes.keys.length) := by
  have hnext := Nat.mod_lt (i + 1) (Nat.zero_lt_of_lt hi)
  rw [focusNext]
  have hfind : (w.focusAt i).panes.keys.findIdx? (· = (w.focusAt i).focusedPaneId) = some i :=
    findIdx_focusAt hi
  simp only [hfind]
  exact focusAt_focusAt i hnext

theorem focusPrev_focusAt (hi : i < w.panes.keys.length) :
    (w.focusAt i).focusPrev =
      w.focusAt ((i + (w.panes.keys.length - 1)) % w.panes.keys.length) := by
  have hprev : (if i = 0 then w.panes.keys.length - 1 else i - 1) =
      (i + (w.panes.keys.length - 1)) % w.panes.keys.length := by
    split
    · rename_i hzero
      rw [hzero, Nat.zero_add, Nat.mod_eq_of_lt (by omega)]
    · rename_i hpos
      have hsum : i + (w.panes.keys.length - 1) = i - 1 + w.panes.keys.length := by omega
      rw [hsum, Nat.add_mod_right, Nat.mod_eq_of_lt (by omega)]
  have hlt := Nat.mod_lt (i + (w.panes.keys.length - 1)) (Nat.zero_lt_of_lt hi)
  rw [focusPrev]
  have hfind : (w.focusAt i).panes.keys.findIdx? (· = (w.focusAt i).focusedPaneId) = some i :=
    findIdx_focusAt hi
  simp only [hfind]
  rw [← hprev] at hlt ⊢
  exact focusAt_focusAt i hlt

theorem focusNext_iterate (hi : i < w.panes.keys.length) (k : ℕ) :
    focusNext^[k] (w.focusAt i) = w.focusAt ((i + k) % w.panes.keys.length) := by
  induction k with
  | zero => rw [Function.iterate_zero_apply, Nat.add_zero, Nat.mod_eq_of_lt hi]
  | succ k ih =>
    rw [Function.iterate_succ_apply', ih,
      focusNext_focusAt (Nat.mod_lt _ (Nat.zero_lt_of_lt hi)), Nat.mod_add_mod, Nat.add_assoc]

/-- Away from the PTY panes the focus does not move. -/
theorem focusNext_of_not_mem (h : w.focusedPaneId ∉ w.panes) : w.focusNext = w := by
  have hfind : w.panes.keys.findIdx? (· = w.focusedPaneId) = none := by
    rw [List.findIdx?_eq_none_iff]
    intro id hid
    have hne : id ≠ w.focusedPaneId := by
      rintro rfl
      exact h (mem_keys.1 hid)
    simpa using hne
  rw [focusNext]
  simp only [hfind]

end

/-! ## Cycling -/

/-- Moving the focus reaches every pane of the window, in both directions. -/
structure Cycles (w : Window F) : Prop where
  next_prev : w.focusNext.focusPrev = w
  prev_next : w.focusPrev.focusNext = w
  visits : ((List.range w.paneCount).map fun k => (focusNext^[k] w).focusedPaneId).Perm w.paneIds
  returns : focusNext^[w.paneCount] w = w
  reaches : ∀ id ∈ w.paneIds, (w.setFocusedPane id).focusedPaneId = id

/-- A PTY pane, and no id in both maps. -/
structure Stocked (w : Window F) : Prop where
  pos : 0 < w.panes.size
  disjoint : ∀ id ∈ w.panes, id ∉ w.serialPanes

variable {w : Window F}

/-- A cycle visits a PTY pane, so it starts at one. -/
theorem Cycles.focus_mem (h : w.Cycles) (hpos : 0 < w.panes.size) : w.focusedPaneId ∈ w.panes := by
  by_contra hfocus
  have hid : w.nextId ∈ w.paneIds := mem_paneIds.2 (.inl (nextId_mem hpos))
  obtain ⟨k, -, hvisit⟩ := List.mem_map.1 (h.visits.mem_iff.2 hid)
  rw [Function.iterate_fixed (focusNext_of_not_mem hfocus)] at hvisit
  exact hfocus (hvisit ▸ nextId_mem hpos)

theorem Cycles.serialPanes_eq (h : w.Cycles) (hw : w.Stocked) : w.serialPanes = ∅ := by
  refine keys_eq_nil_iff.1 (List.eq_nil_iff_forall_not_mem.2 fun id hid => ?_)
  have hserial : id ∈ w.serialPanes := mem_keys.1 hid
  have hpane : id ∉ w.panes := fun hmem => hw.disjoint id hmem hserial
  have hreach := h.reaches id (mem_paneIds.2 (.inr hserial))
  rw [setFocusedPane, if_neg hpane] at hreach
  exact hpane (hreach ▸ h.focus_mem hw.pos)

theorem cycles_of_pty (hserial : w.serialPanes = ∅) (hfocus : w.focusedPaneId ∈ w.panes) :
    w.Cycles := by
  have hids : w.paneIds = w.panes.keys := by
    rw [paneIds, hserial]
    exact List.append_nil _
  have hcount : w.paneCount = w.panes.keys.length := by
    rw [paneCount, hserial, length_keys]
    rfl
  obtain ⟨i, hi, hw⟩ := exists_focusAt hfocus
  have hpos := Nat.zero_lt_of_lt hi
  constructor
  · conv_lhs => rw [hw]
    rw [focusNext_focusAt hi, focusPrev_focusAt (Nat.mod_lt _ hpos), Nat.mod_add_mod,
      show i + 1 + (w.panes.keys.length - 1) = i + w.panes.keys.length by omega,
      Nat.add_mod_right, Nat.mod_eq_of_lt hi]
    exact hw.symm
  · conv_lhs => rw [hw]
    rw [focusPrev_focusAt hi, focusNext_focusAt (Nat.mod_lt _ hpos), Nat.mod_add_mod,
      show i + (w.panes.keys.length - 1) + 1 = i + w.panes.keys.length by omega,
      Nat.add_mod_right, Nat.mod_eq_of_lt hi]
    exact hw.symm
  · rw [hids, hcount]
    have hrotate : ((List.range w.panes.keys.length).map fun k =>
        (focusNext^[k] w).focusedPaneId) = w.panes.keys.rotate i := by
      refine List.ext_getElem (by simp) fun k hk hk' => ?_
      rw [List.getElem_map, List.getElem_range, List.getElem_rotate]
      conv_lhs => rw [hw]
      rw [focusNext_iterate hi, focusedPaneId_focusAt (Nat.mod_lt _ hpos)]
      simp only [Nat.add_comm]
    rw [hrotate]
    exact List.rotate_perm _ _
  · have hround := focusNext_iterate hi w.panes.keys.length
    rw [Nat.add_mod_right, Nat.mod_eq_of_lt hi, ← hw] at hround
    rw [hcount, hround]
  · intro id hid
    rw [hids] at hid
    rw [setFocusedPane, if_pos (mem_keys.1 hid)]

theorem Stocked.cycles_exactly (hw : w.Stocked) :
    w.Cycles ↔ w.serialPanes = ∅ ∧ w.focusedPaneId ∈ w.panes :=
  ⟨fun h => ⟨h.serialPanes_eq hw, h.focus_mem hw.pos⟩, fun h => cycles_of_pty h.1 h.2⟩

/-! ## Runs -/

/-- The ids of all panes, the floating ones included. -/
def allIds (w : Window F) : Multiset ℕ := w.holdings.map Prod.snd

/-- No pane id occurs twice. -/
theorem disjoint_of_nodup (h : w.allIds.Nodup) : ∀ id ∈ w.panes, id ∉ w.serialPanes := by
  intro id hpane hserial
  rw [allIds, holdings, Multiset.map_add, Multiset.map_add] at h
  have hboth := (Multiset.nodup_add.1 (Multiset.nodup_add.1 h).1).2.2
  exact Multiset.disjoint_left.1 hboth
    (Multiset.mem_map.2 ⟨(.pty, id), mem_tagged.2 ⟨rfl, hpane⟩, rfl⟩)
    (Multiset.mem_map.2 ⟨(.serial, id), mem_tagged.2 ⟨rfl, hserial⟩, rfl⟩)

variable [Ratio F]

/-- The ids that an operation brings are new. -/
def Fresh (w : Window F) (op : WindowOp F) : Prop :=
  ((brings op).map Prod.snd + w.allIds).Nodup

instance (w : Window F) (op : WindowOp F) : Decidable (w.Fresh op) :=
  inferInstanceAs (Decidable (Multiset.Nodup _))

theorem nodup_step (w : Window F) (op : WindowOp F) (h : w.Fresh op) : (w.step op).allIds.Nodup := by
  refine Multiset.nodup_of_le ?_ h
  rw [allIds, allIds, ← Multiset.map_add]
  exact Multiset.map_le_map (holdings_step_le w op)

/-- The last PTY pane stays. -/
theorem pos_step (hpos : 0 < w.panes.size) (op : WindowOp F) : 0 < (w.step op).panes.size := by
  have same : ∀ {panes : IdMap Pane}, panes.keys = w.panes.keys → 0 < panes.size := by
    intro panes h
    rwa [← length_keys, h, length_keys]
  have gained : ∀ {panes : IdMap Pane} (id : ℕ), id ∈ panes → 0 < panes.size := by
    intro panes id h
    rw [← length_keys]
    exact List.length_pos_of_mem (mem_keys.2 h)
  have erased : ∀ {panes : IdMap Pane} {id : ℕ}, 2 ≤ w.panes.size →
      panes.keys = (w.panes.erase id).keys → 0 < panes.size := by
    intro panes id hsize h
    have hrest := size_le_size_erase (t := w.panes) (k := id)
    rw [← length_keys, h, length_keys]
    omega
  cases op with
  | addPane newId totalCols totalRows dir opened =>
    simp only [step, addPaneWithOptions]
    split_ifs
    · exact hpos
    · cases opened with
      | error text => exact hpos
      | ok u => exact gained newId ((mem_resizePanes _ _).2 (mem_insert_eq.2 (.inl rfl)))
  | addSerialPane newId totalCols totalRows dir opened =>
    cases opened with
    | error text => exact hpos
    | ok u => exact same (keys_resizePanes _ _)
  | insertPaneAt pane totalCols totalRows dir position =>
    exact gained pane.id ((mem_resizePanes _ _).2 (mem_insert_eq.2 (.inl rfl)))
  | removeFocusedPane cols rows =>
    simp only [step, removeFocusedPane]
    split_ifs with hsize
    · exact hpos
    · exact erased (not_le.1 hsize) (keys_resizePanes _ _)
  | takeFocusedPane cols rows =>
    by_cases hcan : w.CanTakeFocused
    · obtain ⟨w', pane, htake⟩ := takeFocusedPane_of_can hcan cols rows
      rw [step, htake]
      exact erased hcan.1 (takeFocusedPane_some htake).2.panes
    · obtain ⟨layout, htake, -⟩ := takeFocusedPane_of_not hcan cols rows
      rw [step, htake]
      exact hpos
  | takePaneById paneId cols rows =>
    by_cases hcan : w.CanTake paneId
    · obtain ⟨w', pane, htake⟩ := takePaneById_of_can hcan cols rows
      rw [step, htake]
      exact erased hcan.1 (takePaneById_some htake).2.panes
    · rw [step, takePaneById_of_not hcan]
      exact hpos
  | swapFocusedWith targetPaneId =>
    simp only [step, swapFocusedWith]
    split_ifs <;> exact hpos
  | reorderPanes newOrder =>
    simp only [step, reorderPanes]
    split_ifs <;> exact hpos
  | setFocusedPane paneId =>
    simp only [step, setFocusedPane]
    split_ifs <;> exact hpos
  | focusNext =>
    simp only [step, focusNext]
    split <;> exact hpos
  | focusPrev =>
    simp only [step, focusPrev]
    split <;> exact hpos
  | toggleZoom cols rows =>
    simp only [step, toggleZoom]
    split_ifs
    · exact same keys_modify
    · exact same (keys_resizePanes _ _)
  | setLayoutMode mode cols rows => exact same (keys_resizePanes _ _)
  | adjustSplitRatio delta cols rows =>
    simp only [step, adjustSplitRatio]
    split_ifs
    · exact same (keys_resizePanes _ _)
    · exact hpos
  | resizeAllPanes cols rows => exact same (keys_resizePanes _ _)
  | openFloatingPane newId totalCols totalRows opened => cases opened <;> exact hpos
  | closeFloatingPane paneId => exact hpos
  | moveFloatingPane paneId colOff rowOff =>
    simp only [step, moveFloatingPane]
    split <;> exact hpos
  | resizeFloatingPane paneId cols rows =>
    simp only [step, resizeFloatingPane]
    split <;> exact hpos

/-- A window as the program starts with it: created, or restored from a snapshot. -/
def Started (w : Window F) : Prop :=
  w.Created ∨ ∃ snap cols rows opened, restoreFromSnapshot snap cols rows opened = .ok w

omit [Ratio F] in
theorem pos_ofPane (id : ℕ) (name : String) (pane : Pane) (cols rows : ℕ) :
    0 < (ofPane id name pane cols rows : Window F).panes.size := by
  rw [← length_keys]
  exact List.length_pos_of_mem (mem_keys.2 (mem_insert_self (t := ∅)))

theorem Started.stocked (h : w.Started) : 0 < w.panes.size ∧ w.allIds.Nodup := by
  have single : ∀ id name (pane : Pane) cols rows,
      0 < (ofPane id name pane cols rows : Window F).panes.size ∧
        (ofPane id name pane cols rows : Window F).allIds.Nodup := by
    intro id name pane cols rows
    refine ⟨pos_ofPane id name pane cols rows, ?_⟩
    rw [allIds, holdings_ofPane]
    exact Multiset.nodup_singleton _
  rcases h with (⟨id, name, cols, rows, newId, opened, hnew⟩ | ⟨id, name, pane, cols, rows, rfl⟩) |
    ⟨snap, cols, rows, opened, hrestore⟩
  · cases opened with
    | error text => cases hnew
    | ok u =>
      cases hnew
      exact single id name ⟨newId, cols, rows⟩ cols rows
  · obtain ⟨hpos, hnodup⟩ := single id name pane cols rows
    refine ⟨pos_step hpos (.resizeAllPanes cols rows), ?_⟩
    rwa [allIds, newWithPane, holdings_resizeAllPanes]
  · obtain ⟨hrestorable, rfl⟩ := restoreFromSnapshot_ok_iff.1 hrestore
    have hperm := paneIds_ofSnapshot hrestorable.nodup cols rows
    have hids : (ofSnapshot snap cols rows : Window F).paneIds =
        (ofSnapshot snap cols rows : Window F).panes.keys := List.append_nil _
    rw [hids] at hperm
    constructor
    · rw [← length_keys, hperm.length_eq, ← SplitNode.leaves_fromSnapshot]
      exact List.length_pos_of_ne_nil (SplitNode.leaves_ne_nil _)
    · have hall : (ofSnapshot snap cols rows : Window F).allIds =
          ((ofSnapshot snap cols rows : Window F).panes.keys : Multiset ℕ) := by
        show ((tagged .pty _ + tagged .serial (∅ : IdMap SerialPane) +
          tagged .floating (∅ : IdMap (Pane × FloatRect))).map Prod.snd) = _
        rw [tagged_empty, tagged_empty, add_zero, add_zero, tagged, Multiset.map_coe, List.map_map]
        exact congrArg _ (List.map_id _)
      rw [hall]
      exact hperm.nodup_iff.2 hrestorable.nodup

/-- **Cycling over runs.**  From any window that the program starts with, in every state of a run
    whose operations bring new ids: moving the focus reaches every pane exactly if no pane is a
    serial pane and the focus is on a pane of the window. -/
theorem cycles_iff (h : w.Started) {ops : List (WindowOp F)} (hfresh : Runs.Along step Fresh w ops) :
    Runs.Always step (fun w => w.Cycles ↔ w.serialPanes = ∅ ∧ w.focusedPaneId ∈ w.panes) w ops := by
  obtain ⟨hpos, hnodup⟩ := h.stocked
  have hstocked : Runs.Always step (fun w : Window F => 0 < w.panes.size ∧ w.allIds.Nodup) w ops :=
    Runs.always_of_along (fun w op hw hop => ⟨pos_step hw.1 op, nodup_step w op hop⟩)
      ⟨hpos, hnodup⟩ hfresh
  exact hstocked.imp fun w hw => Stocked.cycles_exactly ⟨hw.1, disjoint_of_nodup hw.2⟩

/-- Two splits of a fresh window. -/
theorem cycles_iff_split : Runs.Always step
    (fun w : Window ℚ => w.Cycles ↔ w.serialPanes = ∅ ∧ w.focusedPaneId ∈ w.panes)
    (ofPane 1 "main" ⟨1, 80, 24⟩ 80 24)
    [.addPane 2 80 24 .vertical (.ok ()), .addPane 3 80 24 .vertical (.ok ())] :=
  cycles_iff (.inl (.inl ⟨1, "main", 80, 24, 1, .ok (), rfl⟩)) 
    ⟨by decide +kernel, by decide +kernel, trivial⟩

/-- The focus stays on a serial pane. -/
theorem not_cycles_serial :
    Started (ofPane 1 "main" ⟨1, 80, 24⟩ 80 24 : Window ℚ) ∧ ∃ w : Window ℚ,
      w = (ofPane 1 "main" ⟨1, 80, 24⟩ 80 24).step (.addSerialPane 2 80 24 .vertical (.ok ())) ∧
      w.paneIds = [1, 2] ∧ w.focusedPaneId = 2 ∧ w.focusNext = w ∧ ¬ w.Cycles := by
  refine ⟨.inl (.inl ⟨1, "main", 80, 24, 1, .ok (), rfl⟩), _, rfl, ?_⟩
  have hstate : ((ofPane 1 "main" ⟨1, 80, 24⟩ 80 24 : Window ℚ).step
        (.addSerialPane 2 80 24 .vertical (.ok ()))).paneIds = [1, 2] ∧
      ((ofPane 1 "main" ⟨1, 80, 24⟩ 80 24 : Window ℚ).step
        (.addSerialPane 2 80 24 .vertical (.ok ()))).focusedPaneId = 2 ∧
      2 ∉ ((ofPane 1 "main" ⟨1, 80, 24⟩ 80 24 : Window ℚ).step
        (.addSerialPane 2 80 24 .vertical (.ok ()))).panes := by
    decide +kernel
  obtain ⟨hids, hfocus, hmem⟩ := hstate
  rw [← hfocus] at hmem
  refine ⟨hids, hfocus, focusNext_of_not_mem hmem, fun h => hmem (h.focus_mem ?_)⟩
  exact pos_step (pos_ofPane 1 "main" ⟨1, 80, 24⟩ 80 24) _

end Window

end Nexterm.Server

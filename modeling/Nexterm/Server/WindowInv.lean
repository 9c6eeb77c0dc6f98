/-
  The structural invariant of a window: the BSP tree, the two pane maps, the tab order and the
  focus name the same panes (`WellFormed`).

  * `leaves_remove`, `keys_resizePanes`, `mem_computeReordered`, …: what the helpers of the
    operations do to these five pieces of state.
  * `WindowOp`, `step`: the operations of a window as one step function.
  * `OpOk`: when an operation keeps the invariant, and `wellFormed_step_iff`: exactly then.
-/
import Nexterm.Lib.Runs
import Nexterm.Server.Window

namespace Nexterm.Server

open Std.ExtTreeMap

/-! ## Resizing keeps the panes -/

theorem mem_resizePanes {id : ℕ} (rects : List PaneRect) (panes : IdMap Pane) :
    id ∈ resizePanes rects panes ↔ id ∈ panes := by
  induction rects generalizing panes with
  | nil => rfl
  | cons r rects ih => exact (ih (panes.modify r.paneId _)).trans mem_modify

theorem keys_resizePanes (rects : List PaneRect) (panes : IdMap Pane) :
    (resizePanes rects panes).keys = panes.keys := 
  keys_eq_of_mem_iff fun _ => mem_resizePanes _ _

theorem mem_resizeSerialPanes {id : ℕ} (rects : List PaneRect) (panes : IdMap Pane)
    (serials : IdMap SerialPane) : id ∈ resizeSerialPanes rects panes serials ↔ id ∈ serials := by
  induction rects generalizing serials with
  | nil => rfl
  | cons r rects ih =>
    refine (ih _).trans ?_
    dsimp only
    split_ifs
    · rfl
    · exact mem_modify

/-! ## Trees and tab orders -/

variable {F : Type}

/-- Away from a lone leaf, `remove` erases the id from the leaves (if it is there). -/
theorem SplitNode.leaves_remove {t : SplitNode F} {id : ℕ} (h : t ≠ .pane id) :
    (t.remove id).1.leaves = t.leaves.erase id := by
  rcases t.remove_spec id with ⟨ht, -⟩ | ⟨hm, hr⟩ | ⟨-, -, hl⟩
  · exact absurd ht h
  · rw [hr, List.erase_of_not_mem hm]
  · exact hl

theorem mem_pickKnown {known : ℕ → Bool} {id : ℕ} (ids next : List ℕ) :
    id ∈ pickKnown known next ids ↔ id ∈ next ∨ known id ∧ id ∈ ids := by
  induction ids generalizing next with
  | nil => simp [pickKnown]
  | cons i ids ih =>
    rw [pickKnown, List.foldl_cons, ← pickKnown, ih]
    by_cases hi : known i && !next.contains i
    · rw [if_pos hi, List.mem_append, List.mem_singleton, List.mem_cons]
      have : known i = true := by simp_all
      constructor
      · rintro ((h | rfl) | ⟨h, h'⟩) <;> simp_all
      · rintro (h | ⟨h, rfl | h'⟩) <;> simp_all
    · rw [if_neg hi, List.mem_cons]
      constructor
      · rintro (h | ⟨h, h'⟩) <;> simp_all
      · -- an id that is skipped here is unknown or already picked
        rintro (h | ⟨h, rfl | h'⟩) <;> simp_all

theorem nodup_pickKnown {known : ℕ → Bool} {next : List ℕ} (ids : List ℕ) (h : next.Nodup) :
    (pickKnown known next ids).Nodup := by
  induction ids generalizing next with
  | nil => exact h
  | cons i ids ih =>
    rw [pickKnown, List.foldl_cons, ← pickKnown]
    refine ih ?_
    split_ifs with hi
    · have : i ∉ next := by simp_all
      exact (List.perm_append_singleton i next).nodup_iff.2 (List.nodup_cons.2 ⟨this, h⟩)
    · exact h

theorem mem_computeReordered {current requested known : List ℕ} {id : ℕ} :
    id ∈ computeReordered current requested known ↔ id ∈ known := by
  simp only [computeReordered, List.mem_append, List.mem_insertionSort, List.mem_filter]
  constructor
  · rintro (h | h)
    · rw [mem_pickKnown, mem_pickKnown] at h
      rcases h with (h | h) | h
      · cases h
      · simpa using h.1
      · simpa using h.1
    · exact h.1
  · intro h
    by_cases hp : id ∈ pickKnown known.contains (pickKnown known.contains [] requested) current
    · exact Or.inl hp
    · exact Or.inr ⟨h, by simpa using hp⟩

theorem nodup_computeReordered {current requested known : List ℕ} (h : known.Nodup) :
    (computeReordered current requested known).Nodup := by
  refine List.nodup_append.2 ⟨nodup_pickKnown _ (nodup_pickKnown _ List.nodup_nil), ?_, ?_⟩
  · exact (List.perm_insertionSort _ _).nodup_iff.2 (h.filter _)
  · intro a ha b hb
    rw [List.mem_insertionSort, List.mem_filter] at hb
    rintro rfl
    simp_all

theorem computeInsertPosition_le (currentLen : ℕ) (requestedPosition focusedIndex : Option ℕ) :
    computeInsertPosition currentLen requestedPosition focusedIndex ≤ currentLen := by
  unfold computeInsertPosition
  split
  · exact Nat.min_le_right _ _
  · split
    · split_ifs <;> omega
    · exact le_rfl

/-! ## The invariant -/

/-- **The structural invariant.**  The leaves of the tree are pairwise distinct; they are the
    panes of the two maps, which are disjoint, and the tabs; the focus is one of them. -/
structure Window.WellFormed (w : Window F) : Prop where
  nodup_leaves : w.layout.leaves.Nodup
  mem_leaves : ∀ id, id ∈ w.layout.leaves ↔ id ∈ w.panes ∨ id ∈ w.serialPanes
  disjoint : ∀ id, id ∈ w.panes → id ∉ w.serialPanes
  nodup_order : w.paneOrder.Nodup
  mem_order : ∀ id, id ∈ w.paneOrder ↔ id ∈ w.layout.leaves
  focus : w.focusedPaneId ∈ w.layout.leaves

namespace Window

variable {w w' : Window F}

/-! ## What keeps the invariant -/

/-- The invariant reads the leaves, the keys of the two maps, the tab order and the focus. -/
theorem wellFormed_congr (hl : w'.layout.leaves = w.layout.leaves)
    (hp : ∀ id, id ∈ w'.panes ↔ id ∈ w.panes)
    (hs : ∀ id, id ∈ w'.serialPanes ↔ id ∈ w.serialPanes) (ho : w'.paneOrder = w.paneOrder)
    (hf : w'.focusedPaneId = w.focusedPaneId) : w'.WellFormed ↔ w.WellFormed := by
  constructor
  · rintro ⟨h1, h2, h3, h4, h5, h6⟩
    rw [hl, ho, hf] at *
    simp only [hp, hs] at h2 h3
    exact ⟨h1, h2, h3, h4, h5, h6⟩
  · rintro ⟨h1, h2, h3, h4, h5, h6⟩
    rw [← hl, ← ho, ← hf] at *
    simp only [← hp, ← hs] at h2 h3
    exact ⟨h1, h2, h3, h4, h5, h6⟩

theorem WellFormed.refocus (hw : w.WellFormed) {id : ℕ} (h : id ∈ w.layout.leaves) :
    { w with focusedPaneId := id }.WellFormed :=
  ⟨hw.1, hw.2, hw.3, hw.4, hw.5, h⟩

/-- A window that gained the pane `new` in every piece of state is well formed exactly if `new`
    was not there before. -/
theorem WellFormed.insert_iff (hw : w.WellFormed) (new : ℕ)
    (hl : w'.layout.leaves.Perm (new :: w.layout.leaves))
    (hm : ∀ id, (id ∈ w'.panes ∨ id ∈ w'.serialPanes) ↔
      id = new ∨ id ∈ w.panes ∨ id ∈ w.serialPanes)
    (hd : new ∉ w.layout.leaves → ∀ id, id ∈ w'.panes → id ∉ w'.serialPanes)
    (ho : w'.paneOrder.Perm (new :: w.paneOrder)) (hf : w'.focusedPaneId = new) :
    w'.WellFormed ↔ new ∉ w.layout.leaves := by
  constructor
  · intro h
    exact (List.nodup_cons.1 (hl.nodup_iff.1 h.nodup_leaves)).1
  · intro hn
    refine ⟨?_, ?_, hd hn, ?_, ?_, ?_⟩
    · exact hl.nodup_iff.2 (List.nodup_cons.2 ⟨hn, hw.nodup_leaves⟩)
    · intro id
      rw [hl.mem_iff, List.mem_cons, hw.mem_leaves, hm]
    · refine ho.nodup_iff.2 (List.nodup_cons.2 ⟨?_, hw.nodup_order⟩)
      rwa [hw.mem_order]
    · intro id
      rw [ho.mem_iff, hl.mem_iff, List.mem_cons, List.mem_cons, hw.mem_order]
    · rw [hf, hl.mem_iff]
      exact List.mem_cons_self

/-- A window that lost the pane `target` in every piece of state stays well formed. -/
theorem WellFormed.erase (hw : w.WellFormed) {target : ℕ}
    (hl : w'.layout.leaves = w.layout.leaves.erase target)
    (hp : ∀ id, id ∈ w'.panes ↔ id ≠ target ∧ id ∈ w.panes)
    (hs : ∀ id, id ∈ w'.serialPanes ↔ id ≠ target ∧ id ∈ w.serialPanes)
    (ho : w'.paneOrder = w.paneOrder.filter (· ≠ target)) (hf : w'.focusedPaneId ∈ w'.layout.leaves) :
    w'.WellFormed := by
  have hmem : ∀ id, id ∈ w'.layout.leaves ↔ id ≠ target ∧ id ∈ w.layout.leaves := fun id => by
    rw [hl, hw.nodup_leaves.mem_erase_iff]
  refine ⟨?_, ?_, ?_, ?_, ?_, hf⟩
  · rw [hl]
    exact hw.nodup_leaves.erase _
  · intro id
    rw [hmem, hw.mem_leaves, hp, hs]
    tauto
  · intro id h h'
    exact hw.disjoint id ((hp id).1 h).2 ((hs id).1 h').2
  · rw [ho]
    exact hw.nodup_order.filter _
  · intro id
    rw [ho, hmem, List.mem_filter, hw.mem_order]
    simp [and_comm]

/-- With two PTY panes the tree is a split. -/
theorem WellFormed.layout_ne_pane (hw : w.WellFormed) (h : ¬w.panes.size ≤ 1) (id : ℕ) :
    w.layout ≠ .pane id := by
  intro ht
  have hsub : w.panes.keys ⊆ [id] := fun a ha => by
    have := (hw.mem_leaves a).2 (Or.inl (mem_keys.1 ha))
    rwa [ht] at this
  have := (List.subperm_of_subset nodup_keys hsub).length_le
  rw [length_keys] at this
  exact h this

theorem nextId_mem (h : 0 < w.panes.size) : w.nextId ∈ w.panes := by
  unfold nextId
  have hne : w.panes.keys ≠ [] := fun h0 => by
    rw [← length_keys, h0] at h; exact absurd h (lt_irrefl 0)
  cases hmin : w.panes.keys.min? with
  | none => exact absurd (List.min?_eq_none_iff.1 hmin) hne
  | some id => exact mem_keys.1 (List.min?_mem hmin)

/-- After taking one of two PTY panes, the smallest remaining one is still a leaf. -/
theorem WellFormed.nextId_mem_leaves (hw : w.WellFormed) (hsize : ¬w.panes.size ≤ 1) (id : ℕ)
    (hp : w'.panes = w.panes.erase id)
    (hl : w'.layout.leaves = w.layout.leaves.erase id) : w'.nextId ∈ w'.layout.leaves := by
  have hpos : 0 < w'.panes.size := by
    have := size_le_size_erase (t := w.panes) (k := id)
    rw [hp]; omega
  have hnext := nextId_mem hpos
  rw [hp] at hnext
  obtain ⟨hne, hmem⟩ := mem_erase_eq.1 hnext
  rw [hl, hw.nodup_leaves.mem_erase_iff]
  exact ⟨Ne.symm hne, (hw.mem_leaves _).2 (Or.inl hmem)⟩

/-- Erasing a PTY pane that is not a serial pane as well. -/
theorem WellFormed.not_serial_iff {target : ℕ} (h : target ∉ w.serialPanes) (id : ℕ) :
    id ∈ w.serialPanes ↔ id ≠ target ∧ id ∈ w.serialPanes :=
  ⟨fun hid => ⟨fun he => h (he ▸ hid), hid⟩, And.right⟩

/-! ## A single pane, tab order, focus and swaps -/

theorem wellFormed_ofPane (id : ℕ) (name : String) (pane : Pane) (cols rows : ℕ) :
    (ofPane id name pane cols rows : Window F).WellFormed := by
  refine ⟨List.nodup_singleton _, fun i => ?_, fun i _ => ?_, List.nodup_singleton _,
    fun _ => Iff.rfl, List.mem_singleton_self _⟩
  · simp [ofPane, SplitNode.leaves, eq_comm (a := i)]
  · simp [ofPane]

theorem wellFormed_reorderPanes (hw : w.WellFormed) (newOrder : List ℕ) :
    (w.reorderPanes newOrder).1.WellFormed := by
  unfold reorderPanes
  dsimp only
  split_ifs with h
  · exact hw
  · have hnd : (w.panes.keys ++ w.serialPanes.keys).Nodup :=
      List.nodup_append.2 ⟨nodup_keys, nodup_keys, fun a ha b hb hab =>
        hw.disjoint a (mem_keys.1 ha) (hab ▸ mem_keys.1 hb)⟩
    refine ⟨hw.nodup_leaves, hw.mem_leaves, hw.disjoint, nodup_computeReordered hnd, fun id => ?_,
      hw.focus⟩
    rw [mem_computeReordered, List.mem_append, mem_keys, mem_keys, hw.mem_leaves]

/-- Moving the focus along the PTY ids. -/
theorem WellFormed.refocus_getD (hw : w.WellFormed) (i : ℕ) :
    { w with focusedPaneId := w.panes.keys.getD i w.focusedPaneId }.WellFormed := by
  refine hw.refocus ?_
  rw [List.getD_eq_getElem?_getD]
  cases h : w.panes.keys[i]? with
  | none => exact hw.focus
  | some id => exact (hw.mem_leaves id).2 (Or.inl (mem_keys.1 (List.mem_of_getElem? h)))

theorem wellFormed_setFocusedPane (hw : w.WellFormed) (paneId : ℕ) :
    (w.setFocusedPane paneId).WellFormed := by
  unfold setFocusedPane
  split_ifs with h
  · exact hw.refocus ((hw.mem_leaves _).2 (Or.inl h))
  · exact hw

theorem wellFormed_focusNext (hw : w.WellFormed) : w.focusNext.WellFormed := by
  unfold focusNext
  dsimp only
  split
  · exact hw.refocus_getD _
  · exact hw

theorem wellFormed_focusPrev (hw : w.WellFormed) : w.focusPrev.WellFormed := by
  unfold focusPrev
  dsimp only
  split
  · exact hw.refocus_getD _
  · exact hw

theorem wellFormed_swapFocusedWith_iff (hw : w.WellFormed) (targetPaneId : ℕ) :
    (w.swapFocusedWith targetPaneId).WellFormed ↔
      targetPaneId = w.focusedPaneId ∨ targetPaneId ∈ w.layout.leaves := by
  unfold swapFocusedWith
  by_cases hne : w.focusedPaneId ≠ targetPaneId
  · rw [if_pos hne]
    have hleaves := w.layout.leaves_swapIds w.focusedPaneId targetPaneId
    have hmem : ∀ id, id ∈ (w.layout.swapIds w.focusedPaneId targetPaneId).1.leaves ↔
        Equiv.swap w.focusedPaneId targetPaneId id ∈ w.layout.leaves := fun id => by
      rw [hleaves, List.mem_map_of_involutive fun x => ?_]
      rw [← Equiv.trans_apply, Equiv.swap_swap, Equiv.refl_apply]
    constructor
    · intro h
      -- the focused pane must still be a leaf, and it is one exactly where the target was
      have := h.focus
      rw [hmem, Equiv.swap_apply_left] at this
      exact Or.inr this
    · rintro (h | h)
      · exact absurd h.symm hne
      · have hsame : ∀ id, id ∈ (w.layout.swapIds w.focusedPaneId targetPaneId).1.leaves ↔
            id ∈ w.layout.leaves := fun id => by
          rw [hmem, Equiv.swap_apply_def]
          split_ifs with h1 h2
          · simp [h1, h, hw.focus]
          · simp [h2, h, hw.focus]
          · rfl
        refine ⟨?_, fun id => ?_, hw.disjoint, hw.nodup_order, fun id => ?_, ?_⟩
        · rw [hleaves]
          exact hw.nodup_leaves.map (Equiv.injective _)
        · rw [hsame, hw.mem_leaves]
        · rw [hsame, hw.mem_order]
        · rw [hsame]
          exact hw.focus
  · rw [if_neg hne]
    exact ⟨fun _ => Or.inl (not_not.1 hne).symm, fun _ => hw⟩

end Window

/-! ## The operations -/

/-- The operations of a window.  `newId` is the id that the process-wide counter hands out. -/
inductive WindowOp (F : Type)
  | addPane (newId totalCols totalRows : ℕ) (dir : SplitDir) (opened : Except String Unit)
  | addSerialPane (newId totalCols totalRows : ℕ) (dir : SplitDir) (opened : Except String Unit)
  | insertPaneAt (pane : Pane) (totalCols totalRows : ℕ) (dir : SplitDir) (position : Option ℕ)
  | removeFocusedPane (cols rows : ℕ)
  | takeFocusedPane (cols rows : ℕ)
  | takePaneById (paneId cols rows : ℕ)
  | swapFocusedWith (targetPaneId : ℕ)
  | reorderPanes (newOrder : List ℕ)
  | setFocusedPane (paneId : ℕ)
  | focusNext
  | focusPrev
  | toggleZoom (cols rows : ℕ)
  | setLayoutMode (mode : LayoutMode) (cols rows : ℕ)
  | adjustSplitRatio (delta : F) (cols rows : ℕ)
  | resizeAllPanes (cols rows : ℕ)
  | openFloatingPane (newId totalCols totalRows : ℕ) (opened : Except String Unit)
  | closeFloatingPane (paneId : ℕ)
  | moveFloatingPane (paneId colOff rowOff : ℕ)
  | resizeFloatingPane (paneId cols rows : ℕ)

namespace Window

variable [Ratio F]

/-- The window after an operation, whether or not it succeeded. -/
def step (w : Window F) : WindowOp F → Window F
  | .addPane newId totalCols totalRows dir opened =>
    (w.addPaneWithOptions newId totalCols totalRows dir opened).1
  | .addSerialPane newId totalCols totalRows dir opened =>
    (w.addSerialPane newId totalCols totalRows dir opened).1
  | .insertPaneAt pane totalCols totalRows dir position =>
    w.insertPaneAt pane totalCols totalRows dir position
  | .removeFocusedPane cols rows => (w.removeFocusedPane cols rows).1
  | .takeFocusedPane cols rows => (w.takeFocusedPane cols rows).1
  | .takePaneById paneId cols rows => (w.takePaneById paneId cols rows).1
  | .swapFocusedWith targetPaneId => w.swapFocusedWith targetPaneId
  | .reorderPanes newOrder => (w.reorderPanes newOrder).1
  | .setFocusedPane paneId => w.setFocusedPane paneId
  | .focusNext => w.focusNext
  | .focusPrev => w.focusPrev
  | .toggleZoom cols rows => (w.toggleZoom cols rows).1
  | .setLayoutMode mode cols rows => w.setLayoutMode mode cols rows
  | .adjustSplitRatio delta cols rows => w.adjustSplitRatio delta cols rows
  | .resizeAllPanes cols rows => w.resizeAllPanes cols rows
  | .openFloatingPane newId totalCols totalRows opened =>
    (w.openFloatingPane newId totalCols totalRows opened).1
  | .closeFloatingPane paneId => (w.closeFloatingPane paneId).1
  | .moveFloatingPane paneId colOff rowOff => (w.moveFloatingPane paneId colOff rowOff).1
  | .resizeFloatingPane paneId cols rows => (w.resizeFloatingPane paneId cols rows).1

/-- When an operation keeps the structural invariant. -/
def OpOk (w : Window F) : WindowOp F → Prop
  | .addPane newId _ _ _ opened => opened = .ok () ∧ newId ∉ w.layout.leaves
  | .addSerialPane newId _ _ _ opened => opened = .ok () → newId ∉ w.layout.leaves
  | .insertPaneAt pane _ _ _ _ => pane.id ∉ w.layout.leaves
  | .takeFocusedPane _ _ => 2 ≤ w.panes.size → w.focusedPaneId ∉ w.serialPanes
  | .swapFocusedWith targetPaneId =>
    targetPaneId = w.focusedPaneId ∨ targetPaneId ∈ w.layout.leaves
  | _ => True

variable {w : Window F}

theorem wellFormed_resizeTiled {cols rows : ℕ} :
    (w.resizeTiled cols rows).WellFormed ↔ w.WellFormed :=
  wellFormed_congr rfl (fun _ => mem_resizePanes _ _) (fun _ => Iff.rfl) rfl rfl

theorem wellFormed_resizeAllPanes {cols rows : ℕ} :
    (w.resizeAllPanes cols rows).WellFormed ↔ w.WellFormed :=
  wellFormed_congr rfl (fun _ => mem_resizePanes _ _) (fun _ => mem_resizeSerialPanes _ _ _) rfl rfl

theorem wellFormed_addPane_iff (hw : w.WellFormed) (newId totalCols totalRows : ℕ)
    (dir : SplitDir) (opened : Except String Unit) :
    (w.addPaneWithOptions newId totalCols totalRows dir opened).1.WellFormed ↔
      opened = .ok () ∧ newId ∉ w.layout.leaves := by
  obtain ⟨hfound, hperm⟩ := w.layout.insertAfter_of_mem newId dir hw.focus
  unfold addPaneWithOptions
  simp only [hfound, Bool.not_true, Bool.false_eq_true, if_false]
  cases opened with
  | error text =>
    -- the tree has a leaf that is not a tab, or one leaf twice
    refine ⟨fun h => ?_, fun h => by cases h.1⟩
    have hmem : newId ∈ w.paneOrder := (h.mem_order newId).2 (hperm.mem_iff.2 List.mem_cons_self)
    have hnd := List.nodup_cons.1 (hperm.nodup_iff.1 h.nodup_leaves)
    exact absurd ((hw.mem_order newId).1 hmem) hnd.1
  | ok u =>
    refine (hw.insert_iff newId hperm ?_ ?_ ?_ rfl).trans (by simp)
    · intro id
      simp only [mem_resizePanes, mem_insert_eq, or_assoc, eq_comm]
    · intro hn id hid hs
      rcases mem_insert_eq.1 ((mem_resizePanes _ _).1 hid) with rfl | hp
      · exact hn ((hw.mem_leaves _).2 (Or.inr hs))
      · exact hw.disjoint id hp hs
    · exact List.perm_append_singleton _ _

theorem wellFormed_addSerialPane_iff (hw : w.WellFormed) (newId totalCols totalRows : ℕ)
    (dir : SplitDir) (opened : Except String Unit) :
    (w.addSerialPane newId totalCols totalRows dir opened).1.WellFormed ↔
      (opened = .ok () → newId ∉ w.layout.leaves) := by
  unfold addSerialPane
  cases opened with
  | error text => simpa using hw
  | ok u =>
    obtain ⟨-, hperm⟩ := w.layout.insertAfter_of_mem newId dir hw.focus
    rw [wellFormed_resizeAllPanes]
    refine (hw.insert_iff newId hperm ?_ ?_ ?_ rfl).trans (by simp)
    · intro id
      simp only [mem_insert_eq, or_left_comm, eq_comm]
    · intro hn id hid hs
      rcases mem_insert_eq.1 hs with rfl | hs
      · exact hn ((hw.mem_leaves _).2 (Or.inl hid))
      · exact hw.disjoint id hid hs
    · exact List.perm_append_singleton _ _

theorem wellFormed_insertPaneAt_iff (hw : w.WellFormed) (pane : Pane) (totalCols totalRows : ℕ)
    (dir : SplitDir) (position : Option ℕ) :
    (w.insertPaneAt pane totalCols totalRows dir position).WellFormed ↔
      pane.id ∉ w.layout.leaves := by
  obtain ⟨-, hperm⟩ := w.layout.insertAfter_of_mem pane.id dir hw.focus
  unfold insertPaneAt
  rw [wellFormed_resizeTiled]
  refine hw.insert_iff pane.id hperm ?_ ?_ ?_ rfl
  · intro id
    simp only [mem_insert_eq, or_assoc, eq_comm]
  · intro hn id hid hs
    rcases mem_insert_eq.1 hid with rfl | hp
    · exact hn ((hw.mem_leaves _).2 (Or.inr hs))
    · exact hw.disjoint id hp hs
  · exact List.perm_insertIdx _ _ (computeInsertPosition_le _ _ _)

theorem wellFormed_removeFocusedPane (hw : w.WellFormed) (cols rows : ℕ) :
    (w.removeFocusedPane cols rows).1.WellFormed := by
  unfold removeFocusedPane
  split_ifs with hsize
  · exact hw
  · rw [wellFormed_resizeTiled]
    have hl := SplitNode.leaves_remove (hw.layout_ne_pane hsize w.focusedPaneId)
    refine hw.erase hl (fun id => ?_) (fun id => ?_) rfl ?_
    · rw [mem_erase_eq, ne_comm]
    · rw [mem_erase_eq, ne_comm]
    · exact hw.nextId_mem_leaves hsize w.focusedPaneId rfl hl

theorem wellFormed_takeFocusedPane_iff (hw : w.WellFormed) (cols rows : ℕ) :
    (w.takeFocusedPane cols rows).1.WellFormed ↔
      (2 ≤ w.panes.size → w.focusedPaneId ∉ w.serialPanes) := by
  unfold takeFocusedPane
  by_cases hsize : w.panes.size ≤ 1
  · rw [if_pos hsize]
    exact ⟨fun _ h => by omega, fun _ => hw⟩
  · have hl := SplitNode.leaves_remove (hw.layout_ne_pane hsize w.focusedPaneId)
    rw [if_neg hsize]
    by_cases hser : w.focusedPaneId ∈ w.serialPanes
    · -- the leaf is gone, the pane and its tab are still there
      refine ⟨fun h => ?_, fun h => absurd hser (h (by omega))⟩
      simp only [hser, if_true] at h
      have := (h.mem_order w.focusedPaneId).1 ((hw.mem_order _).2 hw.focus)
      rw [hl, hw.nodup_leaves.mem_erase_iff] at this
      exact absurd rfl this.1
    · refine ⟨fun _ _ => hser, fun _ => ?_⟩
      have hmem : w.focusedPaneId ∈ w.panes := ((hw.mem_leaves _).1 hw.focus).resolve_right hser
      obtain ⟨pane, hpane⟩ := mem_iff_getElem?.1 hmem
      simp only [hser, if_false, hpane]
      rw [wellFormed_resizeTiled]
      refine hw.erase hl (fun id => ?_) (WellFormed.not_serial_iff hser) rfl
        (hw.nextId_mem_leaves hsize w.focusedPaneId rfl hl)
      rw [mem_erase_eq, ne_comm]

theorem wellFormed_takePaneById (hw : w.WellFormed) (paneId cols rows : ℕ) :
    (w.takePaneById paneId cols rows).1.WellFormed := by
  unfold takePaneById
  by_cases hsize : w.panes.size ≤ 1
  · rwa [if_pos hsize]
  rw [if_neg hsize]
  cases hpane : w.panes[paneId]? with
  | none => exact hw
  | some pane =>
    have hser := hw.disjoint paneId (mem_iff_getElem?.2 ⟨pane, hpane⟩)
    have hl := SplitNode.leaves_remove (hw.layout_ne_pane hsize paneId)
    simp only [hser, if_false]
    rw [wellFormed_resizeTiled]
    refine hw.erase hl (fun id => ?_) (WellFormed.not_serial_iff hser) rfl ?_
    · rw [mem_erase_eq, ne_comm]
    · dsimp only
      split_ifs with hf
      · exact hw.nextId_mem_leaves hsize paneId rfl hl
      · rw [hl, hw.nodup_leaves.mem_erase_iff]
        exact ⟨hf, hw.focus⟩

theorem wellFormed_toggleZoom {cols rows : ℕ} :
    (w.toggleZoom cols rows).1.WellFormed ↔ w.WellFormed := by
  unfold toggleZoom
  dsimp only
  split_ifs
  · exact wellFormed_congr rfl (fun _ => mem_modify) (fun _ => Iff.rfl) rfl rfl
  · exact wellFormed_resizeAllPanes.trans
      (wellFormed_congr rfl (fun _ => Iff.rfl) (fun _ => Iff.rfl) rfl rfl)

theorem wellFormed_setLayoutMode {mode : LayoutMode} {cols rows : ℕ} :
    (w.setLayoutMode mode cols rows).WellFormed ↔ w.WellFormed :=
  wellFormed_resizeAllPanes.trans
    (wellFormed_congr rfl (fun _ => Iff.rfl) (fun _ => Iff.rfl) rfl rfl)

theorem wellFormed_adjustSplitRatio {delta : F} {cols rows : ℕ} :
    (w.adjustSplitRatio delta cols rows).WellFormed ↔ w.WellFormed := by
  have h : { w with layout := (w.layout.adjustRatioFor w.focusedPaneId delta).1 }.WellFormed ↔
      w.WellFormed :=
    wellFormed_congr (w.layout.leaves_adjustRatioFor _ _) (fun _ => Iff.rfl) (fun _ => Iff.rfl)
      rfl rfl
  unfold adjustSplitRatio
  dsimp only
  split_ifs
  · rwa [wellFormed_resizeTiled]
  · exact h

/-! ## Every operation -/

/-- **One operation keeps the invariant exactly if `OpOk` holds.** -/
theorem wellFormed_step_iff (hw : w.WellFormed) (op : WindowOp F) :
    (w.step op).WellFormed ↔ w.OpOk op := by
  have same : ∀ w' : Window F, w'.layout = w.layout → w'.panes = w.panes →
      w'.serialPanes = w.serialPanes → w'.paneOrder = w.paneOrder →
      w'.focusedPaneId = w.focusedPaneId → w'.WellFormed := fun w' hl hp hs ho hf =>
    (wellFormed_congr (by rw [hl]) (fun _ => by rw [hp]) (fun _ => by rw [hs]) ho hf).2 hw
  cases op with
  | addPane newId totalCols totalRows dir opened => exact wellFormed_addPane_iff hw ..
  | addSerialPane newId totalCols totalRows dir opened => exact wellFormed_addSerialPane_iff hw ..
  | insertPaneAt pane totalCols totalRows dir position => exact wellFormed_insertPaneAt_iff hw ..
  | removeFocusedPane cols rows => exact iff_of_true (wellFormed_removeFocusedPane hw ..) trivial
  | takeFocusedPane cols rows => exact wellFormed_takeFocusedPane_iff hw ..
  | takePaneById paneId cols rows => exact iff_of_true (wellFormed_takePaneById hw ..) trivial
  | swapFocusedWith targetPaneId => exact wellFormed_swapFocusedWith_iff hw _
  | reorderPanes newOrder => exact iff_of_true (wellFormed_reorderPanes hw _) trivial
  | setFocusedPane paneId => exact iff_of_true (wellFormed_setFocusedPane hw _) trivial
  | focusNext => exact iff_of_true (wellFormed_focusNext hw) trivial
  | focusPrev => exact iff_of_true (wellFormed_focusPrev hw) trivial
  | toggleZoom cols rows => exact iff_of_true (wellFormed_toggleZoom.2 hw) trivial
  | setLayoutMode mode cols rows => exact iff_of_true (wellFormed_setLayoutMode.2 hw) trivial
  | adjustSplitRatio delta cols rows => exact iff_of_true (wellFormed_adjustSplitRatio.2 hw) trivial
  | resizeAllPanes cols rows => exact iff_of_true (wellFormed_resizeAllPanes.2 hw) trivial
  | openFloatingPane newId totalCols totalRows opened =>
    refine iff_of_true ?_ trivial
    cases opened <;> exact same _ rfl rfl rfl rfl rfl
  | closeFloatingPane paneId => exact iff_of_true (same _ rfl rfl rfl rfl rfl) trivial
  | moveFloatingPane paneId colOff rowOff =>
    refine iff_of_true ?_ trivial
    simp only [step, moveFloatingPane]
    split <;> exact same _ rfl rfl rfl rfl rfl
  | resizeFloatingPane paneId cols rows =>
    refine iff_of_true ?_ trivial
    simp only [step, resizeFloatingPane]
    split <;> exact same _ rfl rfl rfl rfl rfl

/-- A window as the program creates it: around a freshly spawned pane or an existing one. -/
def Created (w : Window F) : Prop :=
  (∃ id name cols rows newId opened, Window.new id name cols rows newId opened = .ok w) ∨
  ∃ id name pane cols rows, w = newWithPane id name pane cols rows

theorem Created.wellFormed (h : w.Created) : w.WellFormed := by
  rcases h with ⟨id, name, cols, rows, newId, opened, h⟩ | ⟨id, name, pane, cols, rows, rfl⟩
  · cases opened with
    | error text => cases h
    | ok u => cases h; exact wellFormed_ofPane ..
  · exact wellFormed_resizeAllPanes.2 (wellFormed_ofPane ..)

/-- **The structural invariant over runs.**  From any created window, the invariant holds in
    every state of a run exactly if every operation of the run meets `OpOk`. -/
theorem wellFormed_run_iff (h : w.Created) (ops : List (WindowOp F)) :
    Runs.Always step WellFormed w ops ↔ Runs.Along step OpOk w ops :=
  Runs.always_iff_along (fun _ op hw => wellFormed_step_iff hw op) h.wellFormed

/-- A split, a swap and a close in a fresh window. -/
theorem wellFormed_run_iff_split : Runs.Always step WellFormed
    (ofPane 1 "main" ⟨1, 80, 24⟩ 80 24 : Window ℚ)
    [.addPane 2 80 24 .vertical (.ok ()), .swapFocusedWith 1, .removeFocusedPane 80 24] :=
  (wellFormed_run_iff (Or.inl ⟨1, "main", 80, 24, 1, .ok (), rfl⟩) _).2
    ⟨⟨rfl, by decide⟩, Or.inr (by decide), trivial, trivial⟩

/-- A PTY that fails to spawn leaves a leaf without a pane, and a swap with an unknown id
    replaces the focused leaf. -/
theorem ghost_leaf : Created (ofPane 1 "main" ⟨1, 80, 24⟩ 80 24 : Window ℚ) ∧
    ¬((ofPane 1 "main" ⟨1, 80, 24⟩ 80 24 : Window ℚ).step
      (.addPane 2 80 24 .vertical (.error "openpty failed"))).WellFormed ∧
    ¬((ofPane 1 "main" ⟨1, 80, 24⟩ 80 24 : Window ℚ).step (.swapFocusedWith 7)).WellFormed := by
  refine ⟨Or.inl ⟨1, "main", 80, 24, 1, .ok (), rfl⟩, fun h => ?_, fun h => ?_⟩
  · exact absurd ((h.mem_order 2).2 (by decide)) (by decide)
  · exact absurd h.focus (by decide)

end Window

end Nexterm.Server

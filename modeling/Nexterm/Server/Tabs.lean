/-
  The tab order of a window.

  * `pickKnown_eq`, `computeReordered_eq`: a reordered tab order is made of three parts, the
    requested tabs, the other tabs, and the panes that had no tab.
  * `reordered_spec`: it is a permutation of the panes, and asking for it again keeps it.
  * `lands_iff`: when a pane that is brought in gets the tab it should get.
-/
import Nexterm.Server.WindowInv

namespace Nexterm.Server

/-! ## Reordering -/

theorem eraseDups_of_nodup {l : List ℕ} (h : l.Nodup) : l.eraseDups = l := by
  induction l with
  | nil => rfl
  | cons id l ih =>
    obtain ⟨hid, hl⟩ := List.nodup_cons.1 h
    have hfilter : l.filter (fun b => !b == id) = l := by
      refine List.filter_eq_self.2 fun b hb => ?_
      have hne : b ≠ id := by
        rintro rfl
        exact hid hb
      simpa using hne
    rw [List.eraseDups_cons, hfilter, ih hl]

/-- What is picked: the known ids that are not there yet, each where it first occurs. -/
theorem pickKnown_eq (known : ℕ → Bool) (next ids : List ℕ) :
    pickKnown known next ids =
      next ++ (ids.filter fun id => known id && !next.contains id).eraseDups := by
  induction ids generalizing next with
  | nil => simp [pickKnown]
  | cons id ids ih =>
    rw [pickKnown, List.foldl_cons, ← pickKnown, ih, List.filter_cons]
    split_ifs
    · rw [List.eraseDups_cons, List.append_assoc, List.singleton_append, List.filter_filter]
      -- what is left out because it was just picked is what the duplicates of it are
      have hsame : ∀ b, (known b && !(next ++ [id]).contains b) =
          (!b == id && (known b && !next.contains b)) := by
        intro b
        by_cases hb : b = id <;> simp [hb]
      simp only [hsame]
    · rfl

/-- **The parts of a reordered tab order.** -/
theorem computeReordered_eq (current requested known : List ℕ) :
    computeReordered current requested known =
      (requested.filter (· ∈ known)).eraseDups ++
        (current.filter fun id => id ∈ known ∧ id ∉ requested).eraseDups ++
        (known.filter fun id => id ∉ requested ∧ id ∉ current).insertionSort (· ≤ ·) := by
  have hrequested : pickKnown known.contains [] requested =
      (requested.filter (· ∈ known)).eraseDups := by
    simp [pickKnown_eq]
  have hpicked : pickKnown known.contains (pickKnown known.contains [] requested) current =
      (requested.filter (· ∈ known)).eraseDups ++
        (current.filter fun id => id ∈ known ∧ id ∉ requested).eraseDups := by
    rw [pickKnown_eq, hrequested]
    congr 2
    refine List.filter_congr fun id _ => ?_
    by_cases hknown : id ∈ known <;> simp [hknown]
  have hleft : (known.filter fun id => !(pickKnown known.contains
      (pickKnown known.contains [] requested) current).contains id) =
      known.filter fun id => id ∉ requested ∧ id ∉ current := by
    refine List.filter_congr fun id hid => ?_
    by_cases hreq : id ∈ requested <;> simp [mem_pickKnown, hid, hreq]
  rw [computeReordered, hleft, hpicked]

/-- **A reordered tab order.**  It has the known ids once each: the requested ones in the order of
    the request, then the others in their order, then those that had no tab, in ascending order.
    The order in which the known ids are given does not matter, and a request for the new order
    does not change it. -/
theorem reordered_spec (current requested : List ℕ) {known : List ℕ} (hknown : known.Nodup) :
    (computeReordered current requested known).Perm known ∧
      computeReordered current requested known =
        (requested.filter (· ∈ known)).eraseDups ++
          (current.filter fun id => id ∈ known ∧ id ∉ requested).eraseDups ++
          (known.filter fun id => id ∉ requested ∧ id ∉ current).insertionSort (· ≤ ·) ∧
      (∀ known', known'.Perm known →
        computeReordered current requested known' = computeReordered current requested known) ∧
      ∀ current', computeReordered current' (computeReordered current requested known) known =
        computeReordered current requested known := by
  have hperm : (computeReordered current requested known).Perm known :=
    (List.perm_ext_iff_of_nodup (nodup_computeReordered hknown) hknown).2 fun _ =>
      mem_computeReordered
  refine ⟨hperm, computeReordered_eq current requested known, ?_, ?_⟩
  · intro known' hsame
    have hsort : (known'.filter fun id => id ∉ requested ∧ id ∉ current).insertionSort (· ≤ ·) =
        (known.filter fun id => id ∉ requested ∧ id ∉ current).insertionSort (· ≤ ·) := by
      refine List.Perm.eq_of_pairwise (fun _ _ _ _ => Nat.le_antisymm)
        (List.pairwise_insertionSort _ _) (List.pairwise_insertionSort _ _) ?_
      exact (List.perm_insertionSort _ _).trans
        ((hsame.filter _).trans (List.perm_insertionSort _ _).symm)
    rw [computeReordered_eq, computeReordered_eq, hsort]
    simp only [hsame.mem_iff]
  · intro current'
    generalize computeReordered current requested known = order at hperm
    have hmem : ∀ id ∈ order, id ∈ known := fun id => hperm.mem_iff.1
    have hrequested : order.filter (· ∈ known) = order :=
      List.filter_eq_self.2 fun id hid => decide_eq_true (hmem id hid)
    have hothers : (current'.filter fun id => id ∈ known ∧ id ∉ order) = [] := by
      refine List.filter_eq_nil_iff.2 fun id _ h => ?_
      obtain ⟨hid, hnot⟩ := of_decide_eq_true h
      exact hnot (hperm.mem_iff.2 hid)
    have hleft : (known.filter fun id => id ∉ order ∧ id ∉ current') = [] := by
      refine List.filter_eq_nil_iff.2 fun id hid h => ?_
      exact (of_decide_eq_true h).1 (hperm.mem_iff.2 hid)
    rw [computeReordered_eq, hrequested, hothers, hleft,
      eraseDups_of_nodup (hperm.nodup_iff.2 hknown)]
    simp

/-- A request with a duplicate, an unknown id and two ids missing. -/
theorem reordered_spec_four : computeReordered [1, 2, 3] [3, 9, 3, 1] [4, 1, 2, 3] = [3, 1, 2, 4] ∧
    (computeReordered [1, 2, 3] [3, 9, 3, 1] [4, 1, 2, 3]).Perm [4, 1, 2, 3] :=
  ⟨by decide, (reordered_spec [1, 2, 3] [3, 9, 3, 1] (by decide)).1⟩

/-! ## A pane that is brought in -/

namespace Window

variable {F : Type} [Ratio F]

/-- Where the new tab should be: right after the tab of the pane that had the focus, or at the
    position that was asked for, at most at the end. -/
def Lands (w w' : Window F) (newId : ℕ) : Option ℕ → Prop
  | none => ∃ before after, w.paneOrder = before ++ w.focusedPaneId :: after ∧
      w'.paneOrder = before ++ w.focusedPaneId :: newId :: after
  | some position => w'.paneOrder = w.paneOrder.insertIdx (min position w.paneOrder.length) newId

/-- The focus is looked up after it has moved to a pane that has no tab yet. -/
theorem paneOrder_insertPaneAt {w : Window F} (pane : Pane) (hnew : pane.id ∉ w.paneOrder)
    (totalCols totalRows : ℕ) (dir : SplitDir) (position : Option ℕ) :
    (w.insertPaneAt pane totalCols totalRows dir position).paneOrder =
      match position with
      | none => w.paneOrder ++ [pane.id]
      | some position => w.paneOrder.insertIdx (min position w.paneOrder.length) pane.id := by
  have hindex : w.paneOrder.findIdx? (· = pane.id) = none := by
    rw [List.findIdx?_eq_none_iff]
    intro id hid
    have hne : id ≠ pane.id := by
      rintro rfl
      exact hnew hid
    simpa using hne
  show w.paneOrder.insertIdx (computeInsertPosition w.paneOrder.length position
    (w.paneOrder.findIdx? (· = pane.id))) pane.id = _
  rw [hindex]
  cases position with
  | none => exact List.insertIdx_length_self
  | some position => rfl

theorem lands_none {w : Window F} (pane : Pane) (hnew : pane.id ∉ w.paneOrder)
    (totalCols totalRows : ℕ) (dir : SplitDir) :
    w.Lands (w.insertPaneAt pane totalCols totalRows dir none) pane.id none ↔
      w.paneOrder.getLast? = some w.focusedPaneId := by
  have horder := paneOrder_insertPaneAt pane hnew totalCols totalRows dir none
  constructor
  · rintro ⟨before, after, hold, hlands⟩
    have happend : after ++ [pane.id] = pane.id :: after := by
      have hboth := horder.symm.trans hlands
      rw [hold] at hboth
      simpa using hboth
    cases after with
    | nil =>
      rw [hold, List.getLast?_append]
      rfl
    | cons id after =>
      -- the tab after the focused one would be the new one already
      obtain ⟨rfl, -⟩ := List.cons.inj happend
      rw [hold] at hnew
      simp at hnew
  · intro hlast
    obtain ⟨before, hbefore⟩ := List.getLast?_eq_some_iff.1 hlast
    refine ⟨before, [], hbefore, ?_⟩
    rw [horder, hbefore]
    simp

/-- **Where an inserted pane lands.**  Without a position it gets the tab after the focused one
    exactly if the focused tab is the last one; a position is always met. -/
theorem lands_iff {w : Window F} (pane : Pane) (hnew : pane.id ∉ w.paneOrder)
    (totalCols totalRows : ℕ) (dir : SplitDir) (position : Option ℕ) :
    w.Lands (w.insertPaneAt pane totalCols totalRows dir position) pane.id position ↔
      (position = none → w.paneOrder.getLast? = some w.focusedPaneId) := by
  cases position with
  | none =>
    rw [forall_prop_of_true rfl]
    exact lands_none pane hnew totalCols totalRows dir
  | some position =>
    exact iff_of_true (paneOrder_insertPaneAt pane hnew totalCols totalRows dir (some position)) nofun

/-- A split of the last tab. -/
theorem lands_iff_last : (ofPane 1 "main" ⟨1, 80, 24⟩ 80 24 : Window ℚ).Lands
    ((ofPane 1 "main" ⟨1, 80, 24⟩ 80 24 : Window ℚ).insertPaneAt ⟨2, 80, 24⟩ 80 24 .vertical none) 2
    none :=
  (lands_iff ⟨2, 80, 24⟩ (by decide) 80 24 .vertical none).2 fun _ => rfl

/-- With the first of three tabs focused, the new tab is the last one. -/
theorem not_lands_first : ∃ w : Window ℚ,
    w = Runs.run step (ofPane 1 "main" ⟨1, 80, 24⟩ 80 24)
      [.addPane 2 80 24 .vertical (.ok ()), .addPane 3 80 24 .vertical (.ok ()),
        .setFocusedPane 1] ∧
    w.paneOrder = [1, 2, 3] ∧ w.focusedPaneId = 1 ∧
    (w.insertPaneAt ⟨9, 80, 24⟩ 80 24 .vertical none).paneOrder = [1, 2, 3, 9] ∧
    ¬ w.Lands (w.insertPaneAt ⟨9, 80, 24⟩ 80 24 .vertical none) 9 none := by
  obtain ⟨w, hw, horder, hfocus⟩ : ∃ w : Window ℚ,
      w = Runs.run step (ofPane 1 "main" ⟨1, 80, 24⟩ 80 24)
        [.addPane 2 80 24 .vertical (.ok ()), .addPane 3 80 24 .vertical (.ok ()),
          .setFocusedPane 1] ∧ w.paneOrder = [1, 2, 3] ∧ w.focusedPaneId = 1 :=
    ⟨_, rfl, by decide +kernel⟩
  have hnew : 9 ∉ w.paneOrder := by
    rw [horder]
    decide
  refine ⟨w, hw, horder, hfocus, ?_, ?_⟩
  · rw [paneOrder_insertPaneAt ⟨9, 80, 24⟩ hnew, horder]
    rfl
  · rw [lands_none ⟨9, 80, 24⟩ hnew, horder, hfocus]
    decide

end Window

end Nexterm.Server

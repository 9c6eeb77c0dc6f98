/-
  The BSP tree of a window (`window/bsp.rs`).

  * `SplitNode`: the tree; its ratios are of an arbitrary type with the four operations the
    code applies to an `f32` ratio (`Ratio`).
  * `insertAfter`, `compute`, `remove`, `adjustRatioFor`, `swapIds`, `contains`: the
    operations of the source.
  * `leaves`: the pane ids of a tree from left to right; every operation is characterised by
    what it does to them.
-/
import Mathlib.Data.List.Perm.Basic
import Mathlib.Data.Rat.Floor
import Mathlib.Logic.Equiv.Basic

namespace Nexterm.Server

/-- Pane split direction. -/
inductive SplitDir
  | vertical
  | horizontal
  deriving DecidableEq, Repr

/-- Server-side pane rectangle (grid coordinates). -/
structure PaneRect where
  paneId : ℕ
  colOff : ℕ
  rowOff : ℕ
  cols : ℕ
  rows : ℕ
  deriving DecidableEq, Repr

/-- What the code does with an `f32` split ratio. -/
class Ratio (F : Type) where
  /-- `0.5`, the ratio of a new split. -/
  half : F
  /-- `(total as f32 * ratio).round() as u16` -/
  scale : ℕ → F → ℕ
  /-- `(ratio + delta).clamp(0.1, 0.9)` -/
  grow : F → F → F
  /-- `(ratio - delta).clamp(0.1, 0.9)` -/
  shrink : F → F → F

/-- Exact ratios, for evaluation. -/
instance : Ratio ℚ where
  half := 1 / 2
  scale total ratio := min 65535 ⌊total * ratio + 1 / 2⌋.toNat
  grow ratio delta := max (1 / 10) (min (9 / 10) (ratio + delta))
  shrink ratio delta := max (1 / 10) (min (9 / 10) (ratio - delta))

/-- Result of `remove`. -/
inductive RemoveResult
  | removeSelf
  | removed
  | notFound
  deriving DecidableEq, Repr

/-- Node of the BSP split tree. -/
inductive SplitNode (F : Type)
  | pane (paneId : ℕ)
  | split (dir : SplitDir) (ratio : F) (left right : SplitNode F)
  deriving DecidableEq, Repr

variable {F : Type}

namespace SplitNode

/-! ## Looking up, removing and swapping panes -/

/-- Remove the pane `target` and promote its sibling. -/
def remove (target : ℕ) : SplitNode F → SplitNode F × RemoveResult
  | .pane id => (.pane id, if id = target then .removeSelf else .notFound)
  | .split d r left right =>
    match left.remove target with
    | (_, .removeSelf) => (right, .removed)
    | (left', .removed) => (.split d r left' right, .removed)
    | (left', .notFound) =>
      match right.remove target with
      | (_, .removeSelf) => (left', .removed)
      | (right', other) => (.split d r left' right', other)

/-- Whether the pane `target` is in the subtree. -/
def contains (target : ℕ) : SplitNode F → Bool
  | .pane id => id = target
  | .split _ _ left right => left.contains target || right.contains target

/-- Swap two pane ids within the tree; the code evaluates both children (`|`, not `||`). -/
def swapIds (a b : ℕ) : SplitNode F → SplitNode F × Bool
  | .pane id =>
    if id = a then (.pane b, true) else if id = b then (.pane a, true) else (.pane id, false)
  | .split d r left right =>
    let (left', l) := left.swapIds a b
    let (right', r') := right.swapIds a b
    (.split d r left' right', l || r')

/-- The pane ids of the tree, from left to right. -/
def leaves : SplitNode F → List ℕ
  | .pane id => [id]
  | .split _ _ left right => left.leaves ++ right.leaves

theorem leaves_ne_nil : ∀ t : SplitNode F, t.leaves ≠ []
  | .pane _ => by simp [leaves]
  | .split _ _ l r => by simp [leaves, l.leaves_ne_nil]

theorem eq_pane {t : SplitNode F} {id : ℕ} (h : t.leaves = [id]) : t = .pane id := by
  cases t with
  | pane i => simpa [leaves] using h
  | split d r left right =>
    have h1 := List.length_pos_of_ne_nil left.leaves_ne_nil
    have h2 := List.length_pos_of_ne_nil right.leaves_ne_nil
    have := congrArg List.length h
    simp only [leaves, List.length_append, List.length_singleton] at this
    omega

theorem contains_iff {target : ℕ} : ∀ {t : SplitNode F}, t.contains target = true ↔ target ∈ t.leaves
  | .pane id => by simp [contains, leaves, eq_comm]
  | .split _ _ l r => by simp [contains, leaves, contains_iff (t := l), contains_iff (t := r)]

theorem contains_eq_false_iff {target : ℕ} {t : SplitNode F} :
    t.contains target = false ↔ target ∉ t.leaves := by
  rw [← contains_iff, Bool.not_eq_true]

/-- **What `remove` answers.**  A lone leaf is never removed; otherwise the first leaf with the
    given id goes, if there is one. -/
theorem remove_spec (target : ℕ) : ∀ t : SplitNode F,
    (t = .pane target ∧ t.remove target = (t, .removeSelf)) ∨
    (target ∉ t.leaves ∧ t.remove target = (t, .notFound)) ∨
    (target ∈ t.leaves ∧ (t.remove target).2 = .removed ∧
      (t.remove target).1.leaves = t.leaves.erase target)
  | .pane id => by
    by_cases h : id = target
    · exact Or.inl ⟨by rw [h], by simp [remove, h]⟩
    · exact Or.inr (Or.inl ⟨by simp [leaves, Ne.symm h], by simp [remove, h]⟩)
  | .split d ratio l r => by
    refine Or.inr ?_
    rcases remove_spec target l with ⟨rfl, hl⟩ | ⟨hm, hl⟩ | ⟨hm, h2, hp⟩
    · exact Or.inr ⟨by simp [leaves], by simp [remove], by simp [remove, leaves]⟩
    · rcases remove_spec target r with ⟨rfl, hr⟩ | ⟨hm', hr⟩ | ⟨hm', h2, hp⟩
      · refine Or.inr ⟨by simp [leaves], by simp [remove, hl], ?_⟩
        simp [remove, hl, leaves, List.erase_append_right _ hm]
      · exact Or.inl ⟨by simp [leaves, hm, hm'], by simp [remove, hl, hr]⟩
      · obtain ⟨r', hr⟩ : ∃ r', r.remove target = (r', .removed) := ⟨_, by rw [← h2]⟩
        refine Or.inr ⟨by simp [leaves, hm'], by simp [remove, hl, hr], ?_⟩
        rw [hr] at hp
        simp [remove, hl, hr, leaves, List.erase_append_right _ hm, hp]
    · obtain ⟨l', hl⟩ : ∃ l', l.remove target = (l', .removed) := ⟨_, by rw [← h2]⟩
      refine Or.inr ⟨by simp [leaves, hm], by simp [remove, hl], ?_⟩
      rw [hl] at hp
      simp [remove, hl, leaves, List.erase_append_left _ hm, hp]

theorem leaves_swapIds (a b : ℕ) : ∀ t : SplitNode F,
    (t.swapIds a b).1.leaves = t.leaves.map (Equiv.swap a b)
  | .pane id => by
    simp only [swapIds, leaves, List.map_cons, List.map_nil, Equiv.swap_apply_def]
    split_ifs <;> rfl
  | .split _ _ l r => by
    simp [swapIds, leaves, l.leaves_swapIds a b, r.leaves_swapIds a b]

end SplitNode

/-! ## Operations that compute with ratios -/

/-- Minimum extent either child of a split may end up with when there is room for both. -/
def minChildExtent : ℕ := 1

variable [Ratio F]

/-- Split `total` into `(first, separator, second)`. -/
def splitExtent (total : ℕ) (ratio : F) : ℕ × ℕ × ℕ :=
  let separator := if total = 0 then 0 else 1
  let available := total - separator
  let first :=
    if available < 2 * minChildExtent then available
    else max minChildExtent (min (available - minChildExtent) (Ratio.scale total ratio))
  (first, separator, available - first)

namespace SplitNode

/-- Split the pane `target` and insert `new` on its right/bottom side. -/
def insertAfter (target new : ℕ) (dir : SplitDir) : SplitNode F → SplitNode F × Bool
  | .pane id =>
    if id = target then (.split dir Ratio.half (.pane id) (.pane new), true)
    else (.pane id, false)
  | .split d r left right =>
    let (left', found) := left.insertAfter target new dir
    if found then (.split d r left' right, true)
    else
      let (right', found) := right.insertAfter target new dir
      (.split d r left' right', found)

/-- The rectangles of the subtree, in the order in which the code pushes them. -/
def compute : SplitNode F → (colOff rowOff cols rows : ℕ) → List PaneRect
  | .pane id, colOff, rowOff, cols, rows => [⟨id, colOff, rowOff, cols, rows⟩]
  | .split .vertical ratio left right, colOff, rowOff, cols, rows =>
    let (leftCols, separator, rightCols) := splitExtent cols ratio
    left.compute colOff rowOff leftCols rows ++
      right.compute (colOff + leftCols + separator) rowOff rightCols rows
  | .split .horizontal ratio left right, colOff, rowOff, cols, rows =>
    let (topRows, separator, botRows) := splitExtent rows ratio
    left.compute colOff rowOff cols topRows ++
      right.compute colOff (rowOff + topRows + separator) cols botRows

/-- Adjust the ratio of the split closest to the pane `target`. -/
def adjustRatioFor (target : ℕ) (delta : F) : SplitNode F → SplitNode F × Bool
  | .pane id => (.pane id, false)
  | .split d ratio left right =>
    if left.contains target then
      let (left', handledDeeper) := left.adjustRatioFor target delta
      if handledDeeper then (.split d ratio left' right, true)
      else (.split d (Ratio.grow ratio delta) left' right, true)
    else if right.contains target then
      let (right', handledDeeper) := right.adjustRatioFor target delta
      if handledDeeper then (.split d ratio left right', true)
      else (.split d (Ratio.shrink ratio delta) left right', true)
    else (.split d ratio left right, false)

theorem map_paneId_compute : ∀ (t : SplitNode F) (colOff rowOff cols rows : ℕ),
    (t.compute colOff rowOff cols rows).map PaneRect.paneId = t.leaves
  | .pane _, _, _, _, _ => rfl
  | .split .vertical _ l r, _, _, _, _ => by
    simp [compute, leaves, l.map_paneId_compute, r.map_paneId_compute]
  | .split .horizontal _ l r, _, _, _, _ => by
    simp [compute, leaves, l.map_paneId_compute, r.map_paneId_compute]

/-- `insertAfter` succeeds exactly on a pane of the tree, and leaves the tree alone otherwise. -/
theorem insertAfter_of_not_mem {target : ℕ} (new : ℕ) (dir : SplitDir) :
    ∀ {t : SplitNode F}, target ∉ t.leaves → t.insertAfter target new dir = (t, false)
  | .pane id, h => by
    have : id ≠ target := fun he => h (by simp [leaves, he])
    simp [insertAfter, this]
  | .split _ _ l r, h => by
    simp only [leaves, List.mem_append, not_or] at h
    simp [insertAfter, insertAfter_of_not_mem new dir h.1, insertAfter_of_not_mem new dir h.2]

theorem insertAfter_of_mem {target : ℕ} (new : ℕ) (dir : SplitDir) :
    ∀ {t : SplitNode F}, target ∈ t.leaves → (t.insertAfter target new dir).2 = true ∧
      (t.insertAfter target new dir).1.leaves.Perm (new :: t.leaves)
  | .pane id, h => by
    have : id = target := by simpa [leaves, eq_comm] using h
    simp only [insertAfter, this, if_true, leaves, List.singleton_append, true_and]
    exact List.Perm.swap _ _ _
  | .split _ _ l r, h => by
    by_cases hl : target ∈ l.leaves
    · obtain ⟨h2, hp⟩ := insertAfter_of_mem new dir hl
      simp only [insertAfter, h2, if_true, leaves, true_and]
      exact hp.append_right r.leaves
    · -- the left child is not touched, so the new leaf lands in the right one
      have hr : target ∈ r.leaves := by simpa [leaves, hl] using h
      obtain ⟨h2, hp⟩ := insertAfter_of_mem new dir hr
      simp only [insertAfter, insertAfter_of_not_mem new dir hl, h2, leaves, true_and,
        Bool.false_eq_true, if_false]
      exact (hp.append_left l.leaves).trans List.perm_middle

theorem mem_leaves_insertAfter {target new id : ℕ} {dir : SplitDir} {t : SplitNode F}
    (h : target ∈ t.leaves) :
    id ∈ (t.insertAfter target new dir).1.leaves ↔ id = new ∨ id ∈ t.leaves := by
  rw [(insertAfter_of_mem new dir h).2.mem_iff, List.mem_cons]

theorem leaves_adjustRatioFor (target : ℕ) (delta : F) : ∀ t : SplitNode F,
    (t.adjustRatioFor target delta).1.leaves = t.leaves
  | .pane _ => rfl
  | .split _ _ l r => by
    have hl := leaves_adjustRatioFor target delta l
    have hr := leaves_adjustRatioFor target delta r
    simp only [adjustRatioFor]
    split_ifs <;> simp [leaves, hl, hr]

theorem adjustRatioFor_of_false {target : ℕ} {delta : F} {t : SplitNode F}
    (h : (t.adjustRatioFor target delta).2 = false) : (t.adjustRatioFor target delta).1 = t := by
  cases t with
  | pane id => rfl
  | split d ratio l r =>
    unfold adjustRatioFor at h ⊢
    dsimp only at h ⊢
    split_ifs at h ⊢
    rfl

end SplitNode

end Nexterm.Server

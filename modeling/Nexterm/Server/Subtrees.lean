/-
  Subtrees of the BSP tree in their place.

  * `Crumb`, `plug`: a split with one child missing, and a tree around a missing subtree; every
    leaf is in such a place (`exists_plug`).
  * `insertAfter_plug`, `remove_plug`, `adjustRatioFor_plug`: the operations work in the place
    of the target.
  * `insert_remove`: what inserting and removing change; `adjust_share`: which ratio is adjusted,
    and to what.
-/
import Mathlib.Tactic.Linarith
import Nexterm.Server.Bsp

namespace Nexterm.Server

variable {F : Type}

/-- A split without its left or its right child. -/
inductive Crumb (F : Type)
  | left (dir : SplitDir) (ratio : F) (right : SplitNode F)
  | right (dir : SplitDir) (ratio : F) (left : SplitNode F)

namespace Crumb

/-- Put the missing child back. -/
def fill : Crumb F → SplitNode F → SplitNode F
  | .left dir ratio sib, t => .split dir ratio t sib
  | .right dir ratio sib, t => .split dir ratio sib t

/-- The other child. -/
def sibling : Crumb F → SplitNode F
  | .left _ _ sib | .right _ _ sib => sib

end Crumb

namespace SplitNode

/-- A tree with the subtree `t` below the splits `C`, the outermost one first. -/
def plug (C : List (Crumb F)) (t : SplitNode F) : SplitNode F := C.foldr Crumb.fill t

/-- The leaves to the left of the place. -/
def before : List (Crumb F) → List ℕ
  | [] => []
  | .left _ _ _ :: C => before C
  | .right _ _ left :: C => left.leaves ++ before C

/-- The leaves to the right of the place. -/
def after : List (Crumb F) → List ℕ
  | [] => []
  | .left _ _ right :: C => after C ++ right.leaves
  | .right _ _ _ :: C => after C

theorem plug_concat (C : List (Crumb F)) (c : Crumb F) (t : SplitNode F) :
    plug (C ++ [c]) t = plug C (c.fill t) := List.foldr_append

theorem leaves_plug (C : List (Crumb F)) (t : SplitNode F) :
    (plug C t).leaves = before C ++ t.leaves ++ after C := by
  induction C with
  | nil => simp [plug, before, after]
  | cons c C ih =>
    have ih : (C.foldr Crumb.fill t).leaves = before C ++ t.leaves ++ after C := ih
    cases c <;> simp [plug, before, after, Crumb.fill, leaves, ih]

/-- Every leaf has a place. -/
theorem exists_plug {id : ℕ} {t : SplitNode F} (h : id ∈ t.leaves) :
    ∃ C, t = plug C (.pane id) := by
  induction t with
  | pane id' =>
    obtain rfl := List.mem_singleton.1 h
    exact ⟨[], rfl⟩
  | split dir ratio left right ihl ihr =>
    rcases List.mem_append.1 h with h | h
    · obtain ⟨C, hC⟩ := ihl h
      exact ⟨.left dir ratio right :: C, by rw [hC]; rfl⟩
    · obtain ⟨C, hC⟩ := ihr h
      exact ⟨.right dir ratio left :: C, by rw [hC]; rfl⟩

/-- Every leaf of a split is beside something. -/
theorem exists_fill {id : ℕ} {t : SplitNode F} (h : id ∈ t.leaves) (hlen : 2 ≤ t.leaves.length) :
    ∃ C c, t = plug C (Crumb.fill c (.pane id)) := by
  obtain ⟨C, rfl⟩ := exists_plug h
  rcases List.eq_nil_or_concat C with rfl | ⟨C, c, rfl⟩
  · simp [plug, leaves] at hlen
  · exact ⟨C, c, by rw [List.concat_eq_append, plug_concat]⟩

/-- The leaf `target` is in none of the siblings on the way to the place. -/
def Clear (target : ℕ) (C : List (Crumb F)) : Prop := ∀ c ∈ C, target ∉ c.sibling.leaves

theorem mem_around {target : ℕ} {C : List (Crumb F)} {c : Crumb F} (hc : c ∈ C)
    (h : target ∈ c.sibling.leaves) : target ∈ before C ∨ target ∈ after C := by
  induction C with
  | nil => exact nomatch hc
  | cons d C ih =>
    rcases List.mem_cons.1 hc with rfl | htail
    · cases c with
      | left dir ratio right => exact .inr (List.mem_append_right _ h)
      | right dir ratio left => exact .inl (List.mem_append_left _ h)
    · cases d with
      | left dir ratio right => exact (ih htail).imp_right (List.mem_append_left _)
      | right dir ratio left => exact (ih htail).imp_left (List.mem_append_right _)

theorem clear_of_nodup {target : ℕ} {C : List (Crumb F)} {t : SplitNode F}
    (hnodup : (plug C t).leaves.Nodup) (h : target ∈ t.leaves) : Clear target C := by
  rw [leaves_plug, List.append_assoc] at hnodup
  obtain ⟨-, hinner, hbefore⟩ := List.nodup_append.1 hnodup
  obtain ⟨-, -, hafter⟩ := List.nodup_append.1 hinner
  intro c hc hsib
  rcases mem_around hc hsib with hmem | hmem
  · exact hbefore target hmem target (List.mem_append_left _ h) rfl
  · exact hafter target h target hmem rfl

theorem Clear.head {target : ℕ} {c : Crumb F} {C : List (Crumb F)} (h : Clear target (c :: C)) :
    target ∉ c.sibling.leaves := h c List.mem_cons_self

theorem Clear.tail {target : ℕ} {c : Crumb F} {C : List (Crumb F)} (h : Clear target (c :: C)) :
    Clear target C := fun d hd => h d (List.mem_cons_of_mem c hd)

/-! ## Removing -/

theorem remove_of_not_mem {target : ℕ} {t : SplitNode F} (h : target ∉ t.leaves) :
    t.remove target = (t, .notFound) := by
  rcases t.remove_spec target with ⟨rfl, -⟩ | ⟨-, hr⟩ | ⟨hmem, -⟩
  · exact absurd (List.mem_singleton_self target) h
  · exact hr
  · exact absurd hmem h

/-- The sibling takes the place of the split. -/
theorem remove_fill {target : ℕ} {c : Crumb F} (h : target ∉ c.sibling.leaves) :
    (c.fill (.pane target)).remove target = (c.sibling, .removed) := by
  cases c with
  | left dir ratio right => simp [Crumb.fill, Crumb.sibling, remove]
  | right dir ratio left =>
    have hleft : left.remove target = (left, .notFound) := remove_of_not_mem h
    simp [Crumb.fill, Crumb.sibling, remove, hleft]

theorem remove_plug {target : ℕ} {C : List (Crumb F)} (hC : Clear target C) {t t' : SplitNode F}
    (h : t.remove target = (t', .removed)) :
    (plug C t).remove target = (plug C t', .removed) := by
  induction C with
  | nil => exact h
  | cons c C ih =>
    have hinner : (C.foldr Crumb.fill t).remove target = (C.foldr Crumb.fill t', .removed) :=
      ih hC.tail
    cases c with
    | left dir ratio right => simp [plug, Crumb.fill, remove, hinner]
    | right dir ratio left =>
      have hleft : left.remove target = (left, .notFound) := remove_of_not_mem hC.head
      simp [plug, Crumb.fill, remove, hinner, hleft]

variable [Ratio F]

/-! ## Inserting -/

theorem insertAfter_plug {target new : ℕ} {dir : SplitDir} {C : List (Crumb F)}
    (hC : Clear target C) {t t' : SplitNode F} (h : t.insertAfter target new dir = (t', true)) :
    (plug C t).insertAfter target new dir = (plug C t', true) := by
  induction C with
  | nil => exact h
  | cons c C ih =>
    have hinner : (C.foldr Crumb.fill t).insertAfter target new dir =
        (C.foldr Crumb.fill t', true) := ih hC.tail
    cases c with
    | left d ratio right => simp [plug, Crumb.fill, insertAfter, hinner]
    | right d ratio left =>
      have hleft : left.insertAfter target new dir = (left, false) :=
        insertAfter_of_not_mem new dir hC.head
      simp [plug, Crumb.fill, insertAfter, hinner, hleft]

/-- **Inserting and removing.**  A new leaf is put right after the target, in the place of the
    target, and removing it gives the old tree; a leaf that is removed leaves its sibling in the
    place of their split; a target that is not there is reported. -/
theorem insert_remove {t : SplitNode F} (hnodup : t.leaves.Nodup) :
    (∀ target ∈ t.leaves, ∀ new ∉ t.leaves, ∀ dir, ∃ C, t = plug C (.pane target) ∧
      t.insertAfter target new dir =
        (plug C (.split dir Ratio.half (.pane target) (.pane new)), true) ∧
      t.leaves = before C ++ target :: after C ∧
      (t.insertAfter target new dir).1.leaves = before C ++ target :: new :: after C ∧
      (t.insertAfter target new dir).1.remove new = (t, .removed)) ∧
    (∀ target ∈ t.leaves, 2 ≤ t.leaves.length → ∃ C c, t = plug C (Crumb.fill c (.pane target)) ∧
      t.remove target = (plug C c.sibling, .removed) ∧
      (t.remove target).1.leaves = t.leaves.erase target) ∧
    (∀ target ∉ t.leaves, (∀ new dir, t.insertAfter target new dir = (t, false)) ∧
      t.remove target = (t, .notFound)) := by
  refine ⟨?_, ?_, ?_⟩
  · intro target htarget new hnew dir
    obtain ⟨C, rfl⟩ := exists_plug htarget
    have hleaf : (SplitNode.pane target : SplitNode F).insertAfter target new dir =
        (.split dir Ratio.half (.pane target) (.pane new), true) := if_pos rfl
    have hinsert := insertAfter_plug (clear_of_nodup hnodup (List.mem_singleton_self target)) hleaf
    have hclear : Clear new C := by
      intro c hc hmem
      rw [leaves_plug] at hnew
      rcases mem_around hc hmem with h | h <;> simp [h] at hnew
    have hne : new ≠ target := by
      rintro rfl
      exact hnew htarget
    have hremove : (SplitNode.split dir Ratio.half (.pane target) (.pane new) :
        SplitNode F).remove new = (.pane target, .removed) :=
      remove_fill (c := .right dir Ratio.half (.pane target)) (by simpa [Crumb.sibling, leaves] using hne)
    refine ⟨C, rfl, hinsert, ?_, ?_, ?_⟩
    · simp [leaves_plug, leaves]
    · rw [hinsert]
      simp [leaves_plug, leaves]
    · rw [hinsert]
      exact remove_plug hclear hremove
  · intro target htarget hlen
    obtain ⟨C, c, rfl⟩ := exists_fill htarget hlen
    have hclear : Clear target (C ++ [c]) := by
      rw [← plug_concat] at hnodup
      exact clear_of_nodup hnodup (List.mem_singleton_self target)
    have hsib := hclear c (List.mem_append_right _ (List.mem_singleton_self c))
    have hremove := remove_plug (fun d hd => hclear d (List.mem_append_left _ hd))
      (remove_fill hsib)
    refine ⟨C, c, rfl, hremove, ?_⟩
    rcases (plug C (c.fill (.pane target))).remove_spec target with ⟨-, hr⟩ | ⟨hmem, -⟩ | ⟨-, -, hl⟩
    · rw [hr] at hremove
      cases congrArg Prod.snd hremove
    · exact absurd htarget hmem
    · exact hl
  · intro target htarget
    exact ⟨fun new dir => insertAfter_of_not_mem new dir htarget, remove_of_not_mem htarget⟩

/-- A tree of three panes. -/
theorem insert_remove_three :
    let t : SplitNode ℚ := .split .vertical (3 / 10) (.pane 1) (.split .horizontal (1 / 2) (.pane 2)
      (.pane 3))
    t.leaves.Nodup ∧ (t.insertAfter 2 7 .vertical).1.remove 7 = (t, .removed) ∧
      t.remove 1 = (.split .horizontal (1 / 2) (.pane 2) (.pane 3), .removed) ∧
      t.remove 9 = (t, .notFound) := by
  have hnodup : (SplitNode.split .vertical (3 / 10) (.pane 1) (.split .horizontal (1 / 2) (.pane 2)
      (.pane 3)) : SplitNode ℚ).leaves.Nodup := by
    decide
  obtain ⟨hinsert, -, habsent⟩ := insert_remove hnodup
  obtain ⟨_, -, -, -, -, hback⟩ := hinsert 2 (by decide) 7 (by decide) .vertical
  exact ⟨hnodup, hback, rfl, (habsent 9 (by decide)).2⟩

/-! ## Ratios -/

theorem adjustRatioFor_of_not_mem {target : ℕ} {delta : F} {t : SplitNode F}
    (h : target ∉ t.leaves) : t.adjustRatioFor target delta = (t, false) := by
  cases t with
  | pane id => rfl
  | split dir ratio left right =>
    obtain ⟨hl, hr⟩ : target ∉ left.leaves ∧ target ∉ right.leaves := by
      simpa [leaves, not_or] using h
    simp [adjustRatioFor, contains_eq_false_iff.2 hl, contains_eq_false_iff.2 hr]

theorem adjustRatioFor_plug {target : ℕ} {delta : F} {C : List (Crumb F)} (hC : Clear target C)
    {t t' : SplitNode F} (hmem : target ∈ t.leaves)
    (h : t.adjustRatioFor target delta = (t', true)) :
    (plug C t).adjustRatioFor target delta = (plug C t', true) := by
  induction C with
  | nil => exact h
  | cons c C ih =>
    have hinner : (C.foldr Crumb.fill t).adjustRatioFor target delta =
        (C.foldr Crumb.fill t', true) := ih hC.tail
    have hin : (C.foldr Crumb.fill t).contains target = true := by
      have hleaves : (C.foldr Crumb.fill t).leaves = _ := leaves_plug C t
      rw [contains_iff, hleaves]
      simp [hmem]
    cases c with
    | left d ratio right => simp [plug, Crumb.fill, adjustRatioFor, hinner, hin]
    | right d ratio left =>
      have hleft : left.contains target = false := contains_eq_false_iff.2 hC.head
      simp [plug, Crumb.fill, adjustRatioFor, hinner, hin, hleft]

end SplitNode

namespace Crumb

/-- The share of the missing child. -/
def share : Crumb ℚ → ℚ
  | .left _ ratio _ => ratio
  | .right _ ratio _ => 1 - ratio

/-- The same split with another share. -/
def withShare : Crumb ℚ → ℚ → Crumb ℚ
  | .left dir _ sib, x => .left dir x sib
  | .right dir _ sib, x => .right dir (1 - x) sib

@[simp] theorem share_withShare (c : Crumb ℚ) (x : ℚ) : (c.withShare x).share = x := by
  cases c <;> simp [share, withShare]

/-- What becomes of a share. -/
def grown (share delta : ℚ) : ℚ := max (1 / 10) (min (9 / 10) (share + delta))

theorem grow_eq (ratio delta : ℚ) : Ratio.grow ratio delta = grown ratio delta := rfl

/-- The right child gains what the ratio loses. -/
theorem shrink_eq (ratio delta : ℚ) : Ratio.shrink ratio delta = 1 - grown (1 - ratio) delta := by
  show max (1 / 10) (min (9 / 10) (ratio - delta)) =
    1 - max (1 / 10) (min (9 / 10) (1 - ratio + delta))
  have hflip : 1 - ratio + delta = 1 - (ratio - delta) := by ring
  rw [hflip]
  generalize ratio - delta = x
  rcases le_total x (1 / 10) with hlow | hlow
  · have hfar : (9 : ℚ) / 10 ≤ 1 - x := by linarith
    rw [min_eq_right (by linarith), max_eq_left hlow, min_eq_left hfar, max_eq_right (by norm_num)]
    norm_num
  · have hflat : 1 - x ≤ 9 / 10 := by linarith
    rcases le_total x (9 / 10) with hhigh | hhigh
    · have hinside : (1 : ℚ) / 10 ≤ 1 - x := by linarith
      rw [min_eq_right hhigh, max_eq_right hlow, min_eq_right hflat, max_eq_right hinside]
      ring
    · have hnear : 1 - x ≤ 1 / 10 := by linarith
      rw [min_eq_left hhigh, max_eq_right (by norm_num), min_eq_right hflat, max_eq_left hnear]
      norm_num

end Crumb

namespace SplitNode

theorem adjustRatioFor_fill {target : ℕ} {delta : ℚ} {c : Crumb ℚ}
    (h : target ∉ c.sibling.leaves) :
    (c.fill (.pane target)).adjustRatioFor target delta =
      ((c.withShare (Crumb.grown c.share delta)).fill (.pane target), true) := by
  cases c with
  | left dir ratio right =>
    simp [Crumb.fill, adjustRatioFor, contains, Crumb.withShare, Crumb.share, Crumb.grow_eq]
  | right dir ratio left =>
    have hleft : left.contains target = false := contains_eq_false_iff.2 h
    simp [Crumb.fill, adjustRatioFor, contains, Crumb.withShare, Crumb.share, hleft,
      Crumb.shrink_eq]

/-- **The ratio that is adjusted.**  Only the split that has the target as a child changes: the
    share of the target moves by `delta`, within `[0.1, 0.9]`. -/
theorem adjust_share {t : SplitNode ℚ} (hnodup : t.leaves.Nodup) (target : ℕ) (delta : ℚ) :
    (target ∈ t.leaves → 2 ≤ t.leaves.length → ∃ C c x, t = plug C (Crumb.fill c (.pane target)) ∧
      t.adjustRatioFor target delta = (plug C ((c.withShare x).fill (.pane target)), true) ∧
      x = Crumb.grown c.share delta ∧ 1 / 10 ≤ x ∧ x ≤ 9 / 10 ∧
      (0 ≤ delta → c.share ≤ 9 / 10 → c.share ≤ x) ∧
      (delta ≤ 0 → 1 / 10 ≤ c.share → x ≤ c.share)) ∧
    (t = .pane target → t.adjustRatioFor target delta = (t, false)) ∧
    (target ∉ t.leaves → t.adjustRatioFor target delta = (t, false)) := by
  refine ⟨?_, ?_, adjustRatioFor_of_not_mem⟩
  · intro htarget hlen
    obtain ⟨C, c, rfl⟩ := exists_fill htarget hlen
    have hclear : Clear target (C ++ [c]) := by
      rw [← plug_concat] at hnodup
      exact clear_of_nodup hnodup (List.mem_singleton_self target)
    have hsib := hclear c (List.mem_append_right _ (List.mem_singleton_self c))
    have hmem : target ∈ (c.fill (.pane target)).leaves := by
      cases c <;> simp [Crumb.fill, leaves]
    refine ⟨C, c, _, rfl, adjustRatioFor_plug
      (fun d hd => hclear d (List.mem_append_left _ hd)) hmem (adjustRatioFor_fill hsib), rfl,
      le_max_left _ _, ?_, fun hdelta hshare => ?_, fun hdelta hshare => ?_⟩
    · exact max_le (by norm_num) (min_le_left _ _)
    · exact le_max_of_le_right (le_min hshare (by linarith))
    · exact max_le hshare ((min_le_right _ _).trans (by linarith))
  · rintro rfl
    rfl

/-- The lower one of two panes on the right gains a tenth. -/
theorem adjust_share_lower :
    ∃ C c x, (.split .vertical (1 / 2) (.pane 1) (.split .horizontal (1 / 2) (.pane 2) (.pane 3)) :
        SplitNode ℚ) = plug C (Crumb.fill c (.pane 3)) ∧
      SplitNode.adjustRatioFor 3 (1 / 10) (.split .vertical (1 / 2) (.pane 1)
          (.split .horizontal (1 / 2) (.pane 2) (.pane 3)) : SplitNode ℚ) =
        (plug C ((c.withShare x).fill (.pane 3)), true) ∧ x = Crumb.grown c.share (1 / 10) := by
  have hnodup : (SplitNode.split .vertical (1 / 2) (.pane 1) (.split .horizontal (1 / 2) (.pane 2)
      (.pane 3)) : SplitNode ℚ).leaves.Nodup := by
    decide
  obtain ⟨C, c, x, ht, hadjust, hx, -⟩ :=
    (adjust_share hnodup 3 (1 / 10)).1 (by decide) (by decide)
  exact ⟨C, c, x, ht, hadjust, hx⟩

/-- A lone pane has no ratio, a share at the bound does not move, and a negative `delta` moves it
    the other way. -/
theorem not_adjust_in_favour :
    (.pane 1 : SplitNode ℚ).adjustRatioFor 1 (1 / 10) = (.pane 1, false) ∧
      (.split .vertical (9 / 10) (.pane 1) (.pane 2) : SplitNode ℚ).adjustRatioFor 1 (1 / 10) =
        (.split .vertical (9 / 10) (.pane 1) (.pane 2), true) ∧
      (.split .vertical (1 / 2) (.pane 1) (.pane 2) : SplitNode ℚ).adjustRatioFor 1 (-1 / 10) =
        (.split .vertical (2 / 5) (.pane 1) (.pane 2), true) := by
  decide +kernel

end SplitNode

end Nexterm.Server

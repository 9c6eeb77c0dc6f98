/-
  The rectangles of the panes of a window.

  * `PaneRect.rect`: the cells of a pane.
  * `computeChecked`: the layout of the tree with the `u16` arithmetic of the code; `none` where
    an operation overflows or a clamp has no room.
  * `compute_packs`: the layout of the tree packs the window, without an overflow.
  * `tiling_tiles`: the tiling layout covers the window.
-/
import Nexterm.Lib.Rects
import Nexterm.Server.Tiling

namespace Nexterm.Server

/-- The cells of a pane. -/
def PaneRect.rect (r : PaneRect) : Rect := ⟨r.colOff, r.rowOff, r.cols, r.rows⟩

/-! ## Checked arithmetic -/

def u16Add (a b : ℕ) : Option ℕ := if a + b < 2 ^ 16 then some (a + b) else none

def u16Sub (a b : ℕ) : Option ℕ := if b ≤ a then some (a - b) else none

/-- `clamp` asserts `lo ≤ hi`. -/
def u16Clamp (x lo hi : ℕ) : Option ℕ := if lo ≤ hi then some (max lo (min hi x)) else none

theorem u16Add_eq {a b : ℕ} (h : a + b < 2 ^ 16) : u16Add a b = some (a + b) := if_pos h

theorem u16Sub_eq {a b : ℕ} (h : b ≤ a) : u16Sub a b = some (a - b) := if_pos h

variable {F : Type} [Ratio F]

/-- `splitExtent`, with checked arithmetic. -/
def splitExtentChecked (total : ℕ) (ratio : F) : Option (ℕ × ℕ × ℕ) := do
  let separator := if total = 0 then 0 else 1
  let available ← u16Sub total separator
  let first ←
    if available < 2 * minChildExtent then some available
    else u16Clamp (Ratio.scale total ratio) minChildExtent (← u16Sub available minChildExtent)
  let second ← u16Sub available first
  return (first, separator, second)

namespace SplitNode

/-- `compute`, with checked arithmetic. -/
def computeChecked : SplitNode F → (colOff rowOff cols rows : ℕ) → Option (List PaneRect)
  | .pane id, colOff, rowOff, cols, rows => some [⟨id, colOff, rowOff, cols, rows⟩]
  | .split .vertical ratio left right, colOff, rowOff, cols, rows => do
    let (leftCols, separator, rightCols) ← splitExtentChecked cols ratio
    let leftRects ← left.computeChecked colOff rowOff leftCols rows
    let rightOff ← u16Add (← u16Add colOff leftCols) separator
    let rightRects ← right.computeChecked rightOff rowOff rightCols rows
    return leftRects ++ rightRects
  | .split .horizontal ratio left right, colOff, rowOff, cols, rows => do
    let (topRows, separator, botRows) ← splitExtentChecked rows ratio
    let topRects ← left.computeChecked colOff rowOff cols topRows
    let botOff ← u16Add (← u16Add rowOff topRows) separator
    let botRects ← right.computeChecked colOff botOff cols botRows
    return topRects ++ botRects

end SplitNode

/-! ## One split -/

/-- What a split hands out: the two children and the separator are the parent. -/
structure Shares (total : ℕ) (parts : ℕ × ℕ × ℕ) : Prop where
  sum : parts.1 + parts.2.1 + parts.2.2 = total
  separator : parts.2.1 = if total = 0 then 0 else 1
  room : 2 * minChildExtent + 1 ≤ total →
    minChildExtent ≤ parts.1 ∧ minChildExtent ≤ parts.2.2

theorem splitExtent_shares (total : ℕ) (ratio : F) : Shares total (splitExtent total ratio) := by
  have hmin : minChildExtent = 1 := rfl
  constructor
  · simp only [splitExtent, hmin]
    split_ifs <;> omega
  · rfl
  · intro h
    simp only [splitExtent, hmin] at h ⊢
    split_ifs <;> omega

theorem splitExtentChecked_eq (total : ℕ) (ratio : F) :
    splitExtentChecked total ratio = some (splitExtent total ratio) := by
  have hsep : (if total = 0 then 0 else 1) ≤ total := by
    split_ifs <;> omega
  have hmin : minChildExtent = 1 := rfl
  simp only [splitExtentChecked, splitExtent, u16Sub_eq hsep, Option.bind_eq_bind,
    Option.bind_some, hmin]
  generalize total - (if total = 0 then 0 else 1) = available
  split
  · rw [u16Sub_eq le_rfl]
    rfl
  · rename_i hroom
    rw [u16Sub_eq (by omega), Option.bind_some, u16Clamp, if_pos (by omega), Option.bind_some,
      u16Sub_eq (by omega)]
    rfl

namespace SplitNode

/-- What the layout does at every split of the tree. -/
def EverySplit (P : ℕ → ℕ × ℕ × ℕ → Prop) : SplitNode F → (cols rows : ℕ) → Prop
  | .pane _, _, _ => True
  | .split .vertical ratio left right, cols, rows =>
    P cols (splitExtent cols ratio) ∧ left.EverySplit P (splitExtent cols ratio).1 rows ∧
      right.EverySplit P (splitExtent cols ratio).2.2 rows
  | .split .horizontal ratio left right, cols, rows =>
    P rows (splitExtent rows ratio) ∧ left.EverySplit P cols (splitExtent rows ratio).1 ∧
      right.EverySplit P cols (splitExtent rows ratio).2.2

theorem everySplit_shares (t : SplitNode F) (cols rows : ℕ) : t.EverySplit Shares cols rows := by
  induction t generalizing cols rows with
  | pane id => trivial
  | split d ratio left right ihl ihr =>
    cases d with
    | vertical => exact ⟨splitExtent_shares cols ratio, ihl _ _, ihr _ _⟩
    | horizontal => exact ⟨splitExtent_shares rows ratio, ihl _ _, ihr _ _⟩

/-- The checked layout is the layout, inside bounds that fit. -/
theorem computeChecked_eq (t : SplitNode F) {colOff rowOff cols rows : ℕ}
    (hcols : colOff + cols < 2 ^ 16) (hrows : rowOff + rows < 2 ^ 16) :
    t.computeChecked colOff rowOff cols rows = some (t.compute colOff rowOff cols rows) := by
  induction t generalizing colOff rowOff cols rows with
  | pane id => rfl
  | split d ratio left right ihl ihr =>
    cases d with
    | vertical =>
      have hsum := (splitExtent_shares cols ratio).sum
      simp only [computeChecked, compute, splitExtentChecked_eq, Option.bind_eq_bind,
        Option.bind_some]
      generalize splitExtent cols ratio = parts at hsum ⊢
      obtain ⟨leftCols, separator, rightCols⟩ := parts
      dsimp only at hsum ⊢
      rw [ihl (by omega) hrows, Option.bind_some, u16Add_eq (by omega), Option.bind_some,
        u16Add_eq (by omega), Option.bind_some, ihr (by omega) hrows]
      rfl
    | horizontal =>
      have hsum := (splitExtent_shares rows ratio).sum
      simp only [computeChecked, compute, splitExtentChecked_eq, Option.bind_eq_bind,
        Option.bind_some]
      generalize splitExtent rows ratio = parts at hsum ⊢
      obtain ⟨topRows, separator, botRows⟩ := parts
      dsimp only at hsum ⊢
      rw [ihl hcols (by omega), Option.bind_some, u16Add_eq (by omega), Option.bind_some,
        u16Add_eq (by omega), Option.bind_some, ihr hcols (by omega)]
      rfl

theorem packs_compute (t : SplitNode F) (colOff rowOff cols rows : ℕ) :
    Rect.Packs ((t.compute colOff rowOff cols rows).map PaneRect.rect)
      ⟨colOff, rowOff, cols, rows⟩ := by
  induction t generalizing colOff rowOff cols rows with
  | pane id => exact (Rect.tiles_singleton _).toPacks
  | split d ratio left right ihl ihr =>
    -- the two children are beside each other, with the separator between them
    cases d with
    | vertical =>
      have hsum := (splitExtent_shares cols ratio).sum
      simp only [compute, List.map_append]
      generalize splitExtent cols ratio = parts at hsum ⊢
      obtain ⟨leftCols, separator, rightCols⟩ := parts
      dsimp only at hsum ⊢
      refine (ihl _ _ _ _).append (ihr _ _ _ _) ⟨le_rfl, ?_, le_rfl, le_rfl⟩
        ⟨?_, ?_, le_rfl, le_rfl⟩ (Rect.apart_of_cols ?_)
      all_goals
        dsimp only
        omega
    | horizontal =>
      have hsum := (splitExtent_shares rows ratio).sum
      simp only [compute, List.map_append]
      generalize splitExtent rows ratio = parts at hsum ⊢
      obtain ⟨topRows, separator, botRows⟩ := parts
      dsimp only at hsum ⊢
      refine (ihl _ _ _ _).append (ihr _ _ _ _) ⟨le_rfl, le_rfl, le_rfl, ?_⟩
        ⟨le_rfl, le_rfl, ?_, ?_⟩ (Rect.apart_of_rows ?_)
      all_goals
        dsimp only
        omega

/-- **The layout of the tree packs the window.**  Every leaf has one rectangle, the arithmetic does
    not overflow, and every split hands out what it was given. -/
theorem compute_packs {t : SplitNode F} (hnodup : t.leaves.Nodup) {cols rows : ℕ}
    (hcols : cols < 2 ^ 16) (hrows : rows < 2 ^ 16) :
    t.computeChecked 0 0 cols rows = some (t.compute 0 0 cols rows) ∧
      (t.compute 0 0 cols rows).map PaneRect.paneId = t.leaves ∧
      (∀ id ∈ t.leaves, ((t.compute 0 0 cols rows).map PaneRect.paneId).count id = 1) ∧
      (∀ r ∈ t.compute 0 0 cols rows, r.rect.Inside ⟨0, 0, cols, rows⟩) ∧
      (t.compute 0 0 cols rows).Pairwise (fun r r' => r.rect.Apart r'.rect) ∧
      t.EverySplit Shares cols rows := by
  have hids := t.map_paneId_compute 0 0 cols rows
  have hpacks := t.packs_compute 0 0 cols rows
  refine ⟨t.computeChecked_eq (by omega) (by omega), hids, ?_, ?_, ?_, t.everySplit_shares cols rows⟩
  · intro id hid
    rw [hids]
    exact List.count_eq_one_of_mem hnodup hid
  · intro r hr
    exact hpacks.inside _ (List.mem_map_of_mem hr)
  · exact List.pairwise_map.1 hpacks.apart

/-- Three panes in a window of four columns: the middle one has no room. -/
theorem compute_packs_narrow :
    let t : SplitNode ℚ :=
      .split .vertical (9 / 10) (.split .vertical (1 / 2) (.pane 1) (.pane 2)) (.pane 3)
    t.leaves.Nodup ∧ t.compute 0 0 4 10 = [⟨1, 0, 0, 1, 10⟩, ⟨2, 2, 0, 0, 10⟩, ⟨3, 3, 0, 1, 10⟩] ∧
      t.computeChecked 0 0 4 10 = some (t.compute 0 0 4 10) := by
  have hnodup : (SplitNode.split .vertical (9 / 10)
      (.split .vertical (1 / 2) (.pane 1) (.pane 2)) (.pane 3) : SplitNode ℚ).leaves.Nodup := by
    decide
  exact ⟨hnodup, by decide +kernel, (compute_packs hnodup (by decide) (by decide)).1⟩

end SplitNode

/-! ## Tiling -/

/-- The cells of a slot. -/
def TilingSlot.rect (s : TilingSlot) : Rect := ⟨s.colOff, s.rowOff, s.cols, s.rows⟩

/-- The number of columns. -/
def tilingCols (n : ℕ) : ℕ := min (max (ceilSqrt n) 1) n

/-- The number of panes in the fullest column. -/
def tilingRows (n : ℕ) : ℕ := n / tilingCols n + if 0 < n % tilingCols n then 1 else 0

/-- Where an extent is cut into `n` parts. -/
def evenCut (total n i : ℕ) : ℕ := i * total / n

theorem evenCut_mono (total n : ℕ) : Monotone (evenCut total n) := fun _ _ hij =>
  Nat.div_le_div_right (Nat.mul_le_mul_right total hij)

theorem evenCut_zero (total n : ℕ) : evenCut total n 0 = 0 := by
  rw [evenCut, Nat.zero_mul, Nat.zero_div]

theorem evenCut_self {n : ℕ} (hn : 0 < n) (total : ℕ) : evenCut total n n = total :=
  Nat.mul_div_cancel_left total hn

/-- No part is empty. -/
theorem evenCut_lt {total n : ℕ} (hn : 0 < n) (h : n ≤ total) (i : ℕ) :
    evenCut total n i < evenCut total n (i + 1) := by
  have hstep : i * total + n ≤ (i + 1) * total := by
    rw [Nat.succ_mul]
    exact Nat.add_le_add_left h _
  calc i * total / n < i * total / n + 1 := Nat.lt_succ_self _
    _ = (i * total + n) / n := (Nat.add_div_right _ hn).symm
    _ ≤ (i + 1) * total / n := Nat.div_le_div_right hstep

theorem tilingCols_pos {n : ℕ} (hn : 0 < n) : 0 < tilingCols n := by
  unfold tilingCols
  omega

/-- The number of panes in a column. -/
def tilingCount (n ncols colIdx : ℕ) : ℕ := n / ncols + if colIdx < n % ncols then 1 else 0

theorem tiles_tilingColumn {n ncols totalCols totalRows colIdx : ℕ} (hncols : 0 < ncols)
    (hle : ncols ≤ n) (hcols : ncols ≤ totalCols)
    (hrows : tilingCount n ncols colIdx ≤ totalRows) :
    Rect.Tiles ((tilingColumn n ncols totalCols totalRows colIdx).map TilingSlot.rect)
      ⟨0 + evenCut totalCols ncols colIdx, 0,
        evenCut totalCols ncols (colIdx + 1) - evenCut totalCols ncols colIdx, totalRows⟩ := by
  have hcount : 0 < tilingCount n ncols colIdx :=
    Nat.add_pos_left (Nat.div_pos hle hncols) _
  have hwidth := evenCut_lt hncols hcols colIdx
  have htiles := Rect.tiles_rows
    (s := ⟨0 + evenCut totalCols ncols colIdx, 0,
      evenCut totalCols ncols (colIdx + 1) - evenCut totalCols ncols colIdx, totalRows⟩)
    (evenCut_mono totalRows _) (evenCut_zero totalRows _) (evenCut_self hcount totalRows)
  convert htiles using 1
  rw [tilingColumn, List.map_map]
  refine List.map_congr_left fun rowIdx _ => ?_
  have hheight := evenCut_lt hcount hrows rowIdx
  show Rect.mk (evenCut totalCols ncols colIdx)
      (evenCut totalRows (tilingCount n ncols colIdx) rowIdx)
      (max (evenCut totalCols ncols (colIdx + 1) - evenCut totalCols ncols colIdx) 1)
      (max (evenCut totalRows (tilingCount n ncols colIdx) (rowIdx + 1) -
        evenCut totalRows (tilingCount n ncols colIdx) rowIdx) 1) =
    Rect.mk (0 + _) (0 + _) _ _
  rw [Nat.max_eq_left (by omega), Nat.max_eq_left (by omega), Nat.zero_add, Nat.zero_add]

theorem length_slots {n ncols : ℕ} (totalCols totalRows : ℕ) (hncols : 0 < ncols) :
    ((List.range ncols).flatMap (tilingColumn n ncols totalCols totalRows)).length = n := by
  have hsum : ∀ m, ((List.range m).map (tilingCount n ncols)).sum =
      m * (n / ncols) + min m (n % ncols) := by
    intro m
    induction m with
    | zero => simp
    | succ m ih =>
      rw [List.range_succ, List.map_append, List.sum_append, ih, Nat.succ_mul]
      simp only [List.map_cons, List.map_nil, List.sum_cons, List.sum_nil, tilingCount]
      split_ifs <;> omega
  have hlen : (fun i => (tilingColumn n ncols totalCols totalRows i).length) =
      tilingCount n ncols := by
    funext i
    simp [tilingColumn, tilingCount]
  rw [List.length_flatMap, hlen, hsum, Nat.min_eq_right (Nat.mod_lt n hncols).le]
  exact Nat.div_add_mod n ncols

/-- Every pane has a slot, in order. -/
theorem computeTilingLayouts_eq {paneIds : List ℕ} (hlen : 2 ≤ paneIds.length)
    (totalCols totalRows : ℕ) :
    computeTilingLayouts paneIds totalCols totalRows =
      paneIds.zipWith (fun id s => ⟨id, s.colOff, s.rowOff, s.cols, s.rows⟩)
        ((List.range (tilingCols paneIds.length)).flatMap
          (tilingColumn paneIds.length (tilingCols paneIds.length) totalCols totalRows)) := by
  rcases paneIds with _ | ⟨id, _ | ⟨id', paneIds⟩⟩
  · simp at hlen
  · simp at hlen
  · rfl

theorem tiles_slots {n totalCols totalRows : ℕ} (hn : 0 < n) (hcols : tilingCols n ≤ totalCols)
    (hrows : tilingRows n ≤ totalRows) :
    Rect.Tiles (((List.range (tilingCols n)).flatMap
      (tilingColumn n (tilingCols n) totalCols totalRows)).map TilingSlot.rect)
      ⟨0, 0, totalCols, totalRows⟩ := by
  have hncols := tilingCols_pos hn
  rw [List.map_flatMap]
  refine Rect.Tiles.flatMap (Rect.tiles_columns (evenCut_mono totalCols (tilingCols n))
    (evenCut_zero _ _) (evenCut_self hncols totalCols)) fun i _ => ?_
  refine tiles_tilingColumn hncols (Nat.min_le_right _ _) hcols (le_trans ?_ hrows)
  unfold tilingCount tilingRows
  split_ifs <;> omega

/-- **The tiling layout covers the window.**  Every pane has one rectangle, in the given order; they
    lie inside the window, do not overlap and cover every cell of it. -/
theorem tiling_tiles {paneIds : List ℕ} (hne : paneIds ≠ []) {totalCols totalRows : ℕ}
    (hcols : tilingCols paneIds.length ≤ totalCols)
    (hrows : tilingRows paneIds.length ≤ totalRows) :
    (computeTilingLayouts paneIds totalCols totalRows).map PaneRect.paneId = paneIds ∧
      (∀ r ∈ computeTilingLayouts paneIds totalCols totalRows,
        r.rect.Inside ⟨0, 0, totalCols, totalRows⟩) ∧
      (computeTilingLayouts paneIds totalCols totalRows).Pairwise
        (fun r r' => r.rect.Apart r'.rect) ∧
      ∀ x < totalCols, ∀ y < totalRows,
        ∃ r ∈ computeTilingLayouts paneIds totalCols totalRows, r.rect.Covers x y := by
  have hlayout : (computeTilingLayouts paneIds totalCols totalRows).map PaneRect.paneId = paneIds ∧
      Rect.Tiles ((computeTilingLayouts paneIds totalCols totalRows).map PaneRect.rect)
        ⟨0, 0, totalCols, totalRows⟩ := by
    by_cases hlen : 2 ≤ paneIds.length
    · have hslots := length_slots (n := paneIds.length) totalCols totalRows
        (tilingCols_pos (List.length_pos_iff.2 hne))
      have htiles := tiles_slots (List.length_pos_iff.2 hne) hcols hrows
      rw [computeTilingLayouts_eq hlen]
      generalize (List.range _).flatMap _ = slots at hslots htiles ⊢
      rw [List.map_zipWith, List.map_zipWith]
      constructor
      · exact List.map_uncurry_zip_eq_zipWith.symm.trans (List.map_fst_zip hslots.ge)
      · have hrect : paneIds.zipWith (fun _ s => TilingSlot.rect s) slots =
            slots.map TilingSlot.rect :=
          calc paneIds.zipWith (fun _ s => TilingSlot.rect s) slots
              = (paneIds.zip slots).map (TilingSlot.rect ∘ Prod.snd) :=
                List.map_uncurry_zip_eq_zipWith.symm
            _ = slots.map TilingSlot.rect := by
                rw [← List.map_map, List.map_snd_zip hslots.le]
        exact hrect ▸ htiles
    · obtain ⟨id, rfl⟩ : ∃ id, paneIds = [id] := by
        refine List.length_eq_one_iff.1 ?_
        have hpos := List.length_pos_iff.2 hne
        omega
      exact ⟨rfl, Rect.tiles_singleton _⟩
  obtain ⟨hids, htiles⟩ := hlayout
  refine ⟨hids, fun r hr => htiles.inside _ (List.mem_map_of_mem hr),
    List.pairwise_map.1 htiles.apart, fun x hx y hy => ?_⟩
  obtain ⟨_, hrect, hcovers⟩ := htiles.cover x y ⟨⟨Nat.zero_le _, by simpa using hx⟩,
    Nat.zero_le _, by simpa using hy⟩
  obtain ⟨r, hr, rfl⟩ := List.mem_map.1 hrect
  exact ⟨r, hr, hcovers⟩

/-- Five panes in a window of ten columns and seven rows. -/
theorem tiling_tiles_five :
    tilingCols [1, 2, 3, 4, 5].length = 3 ∧ tilingRows [1, 2, 3, 4, 5].length = 2 ∧
      ∀ x < 10, ∀ y < 7, ∃ r ∈ computeTilingLayouts [1, 2, 3, 4, 5] 10 7, r.rect.Covers x y :=
  ⟨by decide, by decide,
    (tiling_tiles (List.cons_ne_nil _ _) (by decide) (by decide)).2.2.2⟩

/-- Without a pane there is no rectangle, and no cell is covered. -/
theorem not_tiling_tiles_nil : List.Nodup ([] : List ℕ) ∧
    tilingCols ([] : List ℕ).length ≤ 80 ∧ tilingRows ([] : List ℕ).length ≤ 24 ∧
      ¬ ∃ r ∈ computeTilingLayouts [] 80 24, r.rect.Covers 0 0 := by
  refine ⟨List.nodup_nil, by decide, by decide, ?_⟩
  rintro ⟨r, hr, -⟩
  exact nomatch hr

end Nexterm.Server

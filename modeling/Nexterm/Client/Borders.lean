/-
  The borders between panes: where the server leaves them (`window/bsp.rs`) and where the client
  looks for them when the user wants to drag one (`state/mod.rs`).

  * `hitTestPaneBorder`: the client looks for panes of which one ends where another one starts.
  * `Separator`, `SplitNode.separators`: the server leaves a row or column of cells free at every
    split.
  * `Gap`, `pairwise_gap_compute`: so no pane of a layout ends where another one starts.
  * `Grabbable`: every separator can be grabbed; `grabbable_iff`: none can.

  Pixel coordinates are rational numbers in place of `f32`; sums of 16-bit cell numbers are exact
  in both.
-/
import Nexterm.Client.RenderCache
import Nexterm.Server.Layouts

namespace Nexterm.Client

open Nexterm.Server (PaneRect Ratio SplitDir SplitNode splitExtent splitExtent_shares)

/-! ## The hit test -/

/-- The axis along which a border is dragged. -/
inductive PaneResizeAxis
  | horizontal
  | vertical
  deriving DecidableEq, Repr

/-- A border under the pointer. -/
structure PaneBorderHit where
  /-- The pane whose right (or bottom) edge is the border. -/
  adjacentPaneId : ℕ
  axis : PaneResizeAxis
  deriving DecidableEq

/-- The size of a cell and the origin of the grid, in pixels. -/
structure CellMetrics where
  cellW : ℚ
  cellH : ℚ
  originX : ℚ
  originY : ℚ

/-- The position of the pointer, in pixels. -/
structure Pointer where
  x : ℚ
  y : ℚ

/-- Pixel half-width of the border hit-tolerance band. -/
def paneBorderHitTolerance : ℚ := 4

/-- What the code does with columns on one axis it does with rows on the other: the first cell and
    the number of cells of a pane along the axis, -/
def PaneLayout.along : PaneResizeAxis → PaneLayout → ℕ × ℕ
  | .horizontal, p => (p.colOffset, p.cols)
  | .vertical, p => (p.rowOffset, p.rows)

/-- and across it; -/
def PaneLayout.across : PaneResizeAxis → PaneLayout → ℕ × ℕ
  | .horizontal, p => (p.rowOffset, p.rows)
  | .vertical, p => (p.colOffset, p.cols)

/-- the pixel at which a cell starts along the axis, -/
def CellMetrics.along : PaneResizeAxis → CellMetrics → ℕ → ℚ
  | .horizontal, m, n => m.originX + n * m.cellW
  | .vertical, m, n => m.originY + n * m.cellH

/-- and across it; -/
def CellMetrics.across : PaneResizeAxis → CellMetrics → ℕ → ℚ
  | .horizontal, m, n => m.originY + n * m.cellH
  | .vertical, m, n => m.originX + n * m.cellW

/-- the pointer along the axis, -/
def Pointer.along : PaneResizeAxis → Pointer → ℚ
  | .horizontal, p => p.x
  | .vertical, p => p.y

/-- and across it. -/
def Pointer.across : PaneResizeAxis → Pointer → ℚ
  | .horizontal, p => p.y
  | .vertical, p => p.x

/-- One pass over the pairs of panes: the end of `a` is under the pointer, `b` starts there, and the
    pointer is where both of them are. -/
def borderPass (axis : PaneResizeAxis) (panes : List PaneLayout) (cursor : Pointer)
    (m : CellMetrics) : Option PaneBorderHit :=
  panes.findSome? fun a =>
    let aEnd := (a.along axis).1 + (a.along axis).2
    if |cursor.along axis - m.along axis aEnd| > paneBorderHitTolerance then none
    else panes.findSome? fun b =>
      if b.paneId = a.paneId then none
      else if (b.along axis).1 ≠ aEnd then none
      else
        let first := max (a.across axis).1 (b.across axis).1
        let last := min ((a.across axis).1 + (a.across axis).2)
          ((b.across axis).1 + (b.across axis).2)
        if ¬first < last then none
        else if m.across axis first ≤ cursor.across axis ∧ cursor.across axis < m.across axis last
          then some ⟨a.paneId, axis⟩
        else none

/-- Hit-test the pointer against the borders that the layouts imply: the vertical ones first. -/
def hitTestPaneBorder (layouts : PaneLayouts) (cursor : Pointer) (m : CellMetrics) :
    Option PaneBorderHit :=
  if m.cellW ≤ 0 ∨ m.cellH ≤ 0 then none
  else
    let panes := layouts.toList.insertionSort fun a b => a.paneId ≤ b.paneId
    (borderPass .horizontal panes cursor m).or (borderPass .vertical panes cursor m)

/-- A border lies where one pane ends and another one starts. -/
theorem exists_of_borderPass {axis : PaneResizeAxis} {panes : List PaneLayout} {cursor : Pointer}
    {m : CellMetrics} {hit : PaneBorderHit} (h : borderPass axis panes cursor m = some hit) :
    ∃ a ∈ panes, ∃ b ∈ panes, b.paneId ≠ a.paneId ∧
      (b.along axis).1 = (a.along axis).1 + (a.along axis).2 ∧
      max (a.across axis).1 (b.across axis).1 <
        min ((a.across axis).1 + (a.across axis).2) ((b.across axis).1 + (b.across axis).2) := by
  obtain ⟨a, ha, hit'⟩ := List.exists_of_findSome?_eq_some h
  dsimp only at hit'
  split_ifs at hit'
  obtain ⟨b, hb, hit''⟩ := List.exists_of_findSome?_eq_some hit'
  split_ifs at hit'' with hid hedge hoverlap
  exact ⟨a, ha, b, hb, hid, not_not.1 hedge, hoverlap⟩

/-! ## What the server leaves free -/

/-- Cells that a split leaves free: along the axis `width` cells from `pos` on, across it `extent`
    from `start` on. -/
structure Separator where
  axis : PaneResizeAxis
  pos : ℕ
  width : ℕ
  start : ℕ
  extent : ℕ

variable {F : Type} [Ratio F]

/-- The separators of the splits of a tree. -/
def separators : SplitNode F → (colOff rowOff cols rows : ℕ) → List Separator
  | .pane _, _, _, _, _ => []
  | .split .vertical ratio left right, colOff, rowOff, cols, rows =>
    let (leftCols, separator, rightCols) := splitExtent cols ratio
    ⟨.horizontal, colOff + leftCols, separator, rowOff, rows⟩ ::
      (separators left colOff rowOff leftCols rows ++
        separators right (colOff + leftCols + separator) rowOff rightCols rows)
  | .split .horizontal ratio left right, colOff, rowOff, cols, rows =>
    let (topRows, separator, botRows) := splitExtent rows ratio
    ⟨.vertical, rowOff + topRows, separator, colOff, cols⟩ ::
      (separators left colOff rowOff cols topRows ++
        separators right colOff (rowOff + topRows + separator) cols botRows)

/-- The layout that the client is sent. -/
def layoutOf (r : PaneRect) : PaneLayout := ⟨r.paneId, r.colOff, r.rowOff, r.cols, r.rows⟩

/-- Two panes with free cells between them. -/
def Gap (a b : PaneLayout) : Prop :=
  a.colOffset + a.cols < b.colOffset ∨ b.colOffset + b.cols < a.colOffset ∨
    a.rowOffset + a.rows < b.rowOffset ∨ b.rowOffset + b.rows < a.rowOffset

instance : Std.Symm Gap where
  symm a b h := by
    unfold Gap at h ⊢
    omega

/-- No border is found between them. -/
theorem Gap.not_border {a b : PaneLayout} (h : Gap a b) (axis : PaneResizeAxis) :
    ¬((b.along axis).1 = (a.along axis).1 + (a.along axis).2 ∧
      max (a.across axis).1 (b.across axis).1 <
        min ((a.across axis).1 + (a.across axis).2) ((b.across axis).1 + (b.across axis).2)) := by
  unfold Gap at h
  cases axis <;> simp only [PaneLayout.along, PaneLayout.across] <;> omega

theorem hitTest_eq_none {layouts : PaneLayouts} (h : layouts.toList.Pairwise Gap)
    (cursor : Pointer) (m : CellMetrics) : hitTestPaneBorder layouts cursor m = none := by
  have hgap : ∀ a ∈ layouts.toList, ∀ b ∈ layouts.toList, b.paneId ≠ a.paneId → Gap a b := by
    intro a ha b hb hne
    exact h.forall ha hb fun hab => hne (hab ▸ rfl)
  have hpass : ∀ axis, borderPass axis (layouts.toList.insertionSort fun a b => a.paneId ≤ b.paneId)
      cursor m = none := by
    intro axis
    by_contra hne
    obtain ⟨hit, hhit⟩ := Option.ne_none_iff_exists'.1 hne
    obtain ⟨a, ha, b, hb, hid, hborder⟩ := exists_of_borderPass hhit
    exact (hgap a ((List.mem_insertionSort _).1 ha) b ((List.mem_insertionSort _).1 hb)
      hid).not_border axis hborder
  unfold hitTestPaneBorder
  split_ifs
  · rfl
  · dsimp only
    rw [hpass, hpass, Option.or_none]

/-- The panes of a subtree lie in its part of the window. -/
theorem inside_compute (t : SplitNode F) {colOff rowOff cols rows : ℕ} {r : PaneRect}
    (hr : r ∈ t.compute colOff rowOff cols rows) :
    (colOff ≤ r.colOff ∧ r.colOff + r.cols ≤ colOff + cols) ∧
      rowOff ≤ r.rowOff ∧ r.rowOff + r.rows ≤ rowOff + rows := by
  have h := (t.packs_compute colOff rowOff cols rows).inside _ (List.mem_map_of_mem hr)
  exact ⟨⟨h.left, h.right⟩, h.top, h.bottom⟩

/-- There is a pane in the top left corner, -/
theorem exists_topLeft (t : SplitNode F) (colOff rowOff cols rows : ℕ) :
    ∃ r ∈ t.compute colOff rowOff cols rows, r.colOff = colOff ∧ r.rowOff = rowOff := by
  induction t generalizing colOff rowOff cols rows with
  | pane id => exact ⟨_, List.mem_singleton_self _, rfl, rfl⟩
  | split d ratio left right ihl ihr =>
    cases d with
    | vertical =>
      obtain ⟨r, hr, h⟩ := ihl colOff rowOff (splitExtent cols ratio).1 rows
      exact ⟨r, List.mem_append_left _ hr, h⟩
    | horizontal =>
      obtain ⟨r, hr, h⟩ := ihl colOff rowOff cols (splitExtent rows ratio).1
      exact ⟨r, List.mem_append_left _ hr, h⟩

/-- one in the top right corner, -/
theorem exists_topRight (t : SplitNode F) (colOff rowOff cols rows : ℕ) :
    ∃ r ∈ t.compute colOff rowOff cols rows,
      r.colOff + r.cols = colOff + cols ∧ r.rowOff = rowOff := by
  induction t generalizing colOff rowOff cols rows with
  | pane id => exact ⟨_, List.mem_singleton_self _, rfl, rfl⟩
  | split d ratio left right ihl ihr =>
    cases d with
    | vertical =>
      have hsum := (splitExtent_shares cols ratio).sum
      obtain ⟨r, hr, hright, htop⟩ := ihr
        (colOff + (splitExtent cols ratio).1 + (splitExtent cols ratio).2.1) rowOff
        (splitExtent cols ratio).2.2 rows
      exact ⟨r, List.mem_append_right _ hr, by omega, htop⟩
    | horizontal =>
      obtain ⟨r, hr, h⟩ := ihl colOff rowOff cols (splitExtent rows ratio).1
      exact ⟨r, List.mem_append_left _ hr, h⟩

/-- and one in the bottom left corner. -/
theorem exists_bottomLeft (t : SplitNode F) (colOff rowOff cols rows : ℕ) :
    ∃ r ∈ t.compute colOff rowOff cols rows,
      r.colOff = colOff ∧ r.rowOff + r.rows = rowOff + rows := by
  induction t generalizing colOff rowOff cols rows with
  | pane id => exact ⟨_, List.mem_singleton_self _, rfl, rfl⟩
  | split d ratio left right ihl ihr =>
    cases d with
    | vertical =>
      obtain ⟨r, hr, h⟩ := ihl colOff rowOff (splitExtent cols ratio).1 rows
      exact ⟨r, List.mem_append_left _ hr, h⟩
    | horizontal =>
      have hsum := (splitExtent_shares rows ratio).sum
      obtain ⟨r, hr, hleft, hbottom⟩ := ihr colOff
        (rowOff + (splitExtent rows ratio).1 + (splitExtent rows ratio).2.1) cols
        (splitExtent rows ratio).2.2
      exact ⟨r, List.mem_append_right _ hr, hleft, by omega⟩

/-- No pane is empty. -/
def NonEmpty (rs : List PaneRect) : Prop := ∀ r ∈ rs, 0 < r.cols ∧ 0 < r.rows

/-- A part of the window with panes that are not empty is not empty. -/
theorem NonEmpty.pos {t : SplitNode F} {colOff rowOff cols rows : ℕ}
    (h : NonEmpty (t.compute colOff rowOff cols rows)) : 0 < cols ∧ 0 < rows := by
  obtain ⟨r, hr, -⟩ := exists_topLeft t colOff rowOff cols rows
  have hin := inside_compute t hr
  have hpos := h r hr
  omega

/-- **No pane of a layout is directly beside another one**, as long as none is empty. -/
theorem pairwise_gap_compute (t : SplitNode F) {colOff rowOff cols rows : ℕ}
    (h : NonEmpty (t.compute colOff rowOff cols rows)) :
    (t.compute colOff rowOff cols rows).Pairwise fun r r' => Gap (layoutOf r) (layoutOf r') := by
  induction t generalizing colOff rowOff cols rows with
  | pane id => exact List.pairwise_singleton _ _
  | split d ratio left right ihl ihr =>
    have hpos := h.pos
    cases d with
    | vertical =>
      have hsep := (splitExtent_shares cols ratio).separator
      rw [if_neg hpos.1.ne'] at hsep
      simp only [SplitNode.compute] at h ⊢
      generalize splitExtent cols ratio = parts at hsep h ⊢
      obtain ⟨leftCols, separator, rightCols⟩ := parts
      dsimp only at hsep h ⊢
      refine List.pairwise_append.2 ⟨ihl fun r hr => h r (List.mem_append_left _ hr),
        ihr fun r hr => h r (List.mem_append_right _ hr), ?_⟩
      intro r hr r' hr'
      have hin := inside_compute left hr
      have hin' := inside_compute right hr'
      refine .inl ?_
      simp only [layoutOf]
      omega
    | horizontal =>
      have hsep := (splitExtent_shares rows ratio).separator
      rw [if_neg hpos.2.ne'] at hsep
      simp only [SplitNode.compute] at h ⊢
      generalize splitExtent rows ratio = parts at hsep h ⊢
      obtain ⟨topRows, separator, botRows⟩ := parts
      dsimp only at hsep h ⊢
      refine List.pairwise_append.2 ⟨ihl fun r hr => h r (List.mem_append_left _ hr),
        ihr fun r hr => h r (List.mem_append_right _ hr), ?_⟩
      intro r hr r' hr'
      have hin := inside_compute left hr
      have hin' := inside_compute right hr'
      refine .inr (.inr (.inl ?_))
      simp only [layoutOf]
      omega

/-! ## Grabbing a separator -/

/-- The pointer is on the cells of the separator. -/
structure Separator.Under (sep : Separator) (m : CellMetrics) (cursor : Pointer) : Prop where
  along : m.along sep.axis sep.pos ≤ cursor.along sep.axis ∧
    cursor.along sep.axis < m.along sep.axis (sep.pos + sep.width)
  across : m.across sep.axis sep.start ≤ cursor.across sep.axis ∧
    cursor.across sep.axis < m.across sep.axis (sep.start + sep.extent)

/-- The pane is beside the pointer: across the axis it is where the pointer is. -/
def Beside (axis : PaneResizeAxis) (m : CellMetrics) (cursor : Pointer) (p : PaneLayout) : Prop :=
  m.across axis (p.across axis).1 ≤ cursor.across axis ∧
    cursor.across axis < m.across axis ((p.across axis).1 + (p.across axis).2)

/-- The pointer is inside the pane and not within the tolerance of one of its edges. -/
def StrictlyInside (m : CellMetrics) (cursor : Pointer) (p : PaneLayout) : Prop :=
  ∀ axis, m.along axis (p.along axis).1 + paneBorderHitTolerance < cursor.along axis ∧
    cursor.along axis + paneBorderHitTolerance <
      m.along axis ((p.along axis).1 + (p.along axis).2)

/-- **Split borders can be grabbed**: on the separator of any split, between a pane that ends there
    and one that starts behind it, the pointer is on a border of one of the two; strictly inside a
    pane it is on none. -/
structure Grabbable (t : SplitNode F) (cols rows : ℕ) (layouts : PaneLayouts) (m : CellMetrics) :
    Prop where
  grabs : ∀ sep ∈ separators t 0 0 cols rows, ∀ cursor : Pointer, sep.Under m cursor →
    ∀ a ∈ layouts.toList, ∀ b ∈ layouts.toList,
      (a.along sep.axis).1 + (a.along sep.axis).2 = sep.pos →
      (b.along sep.axis).1 = sep.pos + sep.width →
      Beside sep.axis m cursor a → Beside sep.axis m cursor b →
        hitTestPaneBorder layouts cursor m = some ⟨a.paneId, sep.axis⟩ ∨
          hitTestPaneBorder layouts cursor m = some ⟨b.paneId, sep.axis⟩
  inside : ∀ cursor : Pointer, ∀ p ∈ layouts.toList, StrictlyInside m cursor p →
    hitTestPaneBorder layouts cursor m = none

section

variable {t : SplitNode F} {cols rows : ℕ} {layouts : PaneLayouts} {m : CellMetrics}

theorem hitTest_layout (hlayouts : layouts.toList.Perm ((t.compute 0 0 cols rows).map layoutOf))
    (hne : NonEmpty (t.compute 0 0 cols rows)) (cursor : Pointer) :
    hitTestPaneBorder layouts cursor m = none := by
  refine hitTest_eq_none ?_ cursor m
  have hgap := List.pairwise_map.2 (pairwise_gap_compute t hne)
  exact (hlayouts.symm.pairwise_iff fun h => symm h).1 hgap

theorem CellMetrics.along_lt (hw : 0 < m.cellW) (hh : 0 < m.cellH) (axis : PaneResizeAxis)
    {n n' : ℕ} (h : n < n') : m.along axis n < m.along axis n' := by
  have hcast : (n : ℚ) < n' := Nat.cast_lt.2 h
  cases axis with
  | horizontal => exact add_lt_add_right (mul_lt_mul_of_pos_right hcast hw) _
  | vertical => exact add_lt_add_right (mul_lt_mul_of_pos_right hcast hh) _

theorem CellMetrics.across_lt (hw : 0 < m.cellW) (hh : 0 < m.cellH) (axis : PaneResizeAxis)
    {n n' : ℕ} (h : n < n') : m.across axis n < m.across axis n' := by
  have hcast : (n : ℚ) < n' := Nat.cast_lt.2 h
  cases axis with
  | horizontal => exact add_lt_add_right (mul_lt_mul_of_pos_right hcast hh) _
  | vertical => exact add_lt_add_right (mul_lt_mul_of_pos_right hcast hw) _

/-- The pointer at the start of a cell. -/
def pointerAt (axis : PaneResizeAxis) (m : CellMetrics) (pos start : ℕ) : Pointer :=
  match axis with
  | .horizontal => ⟨m.along .horizontal pos, m.across .horizontal start⟩
  | .vertical => ⟨m.across .vertical start, m.along .vertical pos⟩

theorem along_pointerAt (axis : PaneResizeAxis) (m : CellMetrics) (pos start : ℕ) :
    (pointerAt axis m pos start).along axis = m.along axis pos := by
  cases axis <;> rfl

theorem across_pointerAt (axis : PaneResizeAxis) (m : CellMetrics) (pos start : ℕ) :
    (pointerAt axis m pos start).across axis = m.across axis start := by
  cases axis <;> rfl

/-- At the start of a separator, between two panes that start where it does, nothing is found. -/
theorem not_grabbable_of_corner
    (hlayouts : layouts.toList.Perm ((t.compute 0 0 cols rows).map layoutOf))
    (hne : NonEmpty (t.compute 0 0 cols rows)) (hw : 0 < m.cellW) (hh : 0 < m.cellH)
    {sep : Separator} (hsep : sep ∈ separators t 0 0 cols rows) (hwidth : 0 < sep.width)
    {a b : PaneRect} (ha : a ∈ t.compute 0 0 cols rows) (hb : b ∈ t.compute 0 0 cols rows)
    (hend : ((layoutOf a).along sep.axis).1 + ((layoutOf a).along sep.axis).2 = sep.pos)
    (hstart : ((layoutOf b).along sep.axis).1 = sep.pos + sep.width)
    (hacross : ((layoutOf a).across sep.axis).1 = sep.start)
    (hacross' : ((layoutOf b).across sep.axis).1 = sep.start)
    (hextent : ((layoutOf a).across sep.axis).2 ≤ sep.extent) :
    ¬Grabbable t cols rows layouts m := by
  intro h
  have hpos : ∀ r ∈ t.compute 0 0 cols rows, 0 < ((layoutOf r).across sep.axis).2 := by
    intro r hr
    cases sep.axis with
    | horizontal => exact (hne r hr).2
    | vertical => exact (hne r hr).1
  have hmem : ∀ r ∈ t.compute 0 0 cols rows, layoutOf r ∈ layouts.toList := fun r hr =>
    hlayouts.mem_iff.2 (List.mem_map_of_mem hr)
  have hunder : sep.Under m (pointerAt sep.axis m sep.pos sep.start) := by
    refine ⟨⟨?_, ?_⟩, ?_, ?_⟩
    · rw [along_pointerAt]
    · rw [along_pointerAt]
      exact m.along_lt hw hh sep.axis (by omega)
    · rw [across_pointerAt]
    · rw [across_pointerAt]
      have hapos := hpos a ha
      exact m.across_lt hw hh sep.axis (by omega)
  have hbeside : ∀ r ∈ t.compute 0 0 cols rows, ((layoutOf r).across sep.axis).1 = sep.start →
      Beside sep.axis m (pointerAt sep.axis m sep.pos sep.start) (layoutOf r) := by
    intro r hr hfirst
    rw [Beside, across_pointerAt, hfirst]
    have hrpos := hpos r hr
    exact ⟨le_rfl, m.across_lt hw hh sep.axis (by omega)⟩
  have hgrabs := h.grabs sep hsep _ hunder _ (hmem a ha) _ (hmem b hb) hend hstart
    (hbeside a ha hacross) (hbeside b hb hacross')
  rw [hitTest_layout hlayouts hne] at hgrabs
  rcases hgrabs with hgrabs | hgrabs <;> cases hgrabs

/-- A tree with a split has a separator that cannot be grabbed: the first one. -/
theorem not_grabbable_split {d : SplitDir} {ratio : F} {left right : SplitNode F}
    (hlayouts : layouts.toList.Perm
      (((SplitNode.split d ratio left right).compute 0 0 cols rows).map layoutOf))
    (hne : NonEmpty ((SplitNode.split d ratio left right).compute 0 0 cols rows))
    (hw : 0 < m.cellW) (hh : 0 < m.cellH) :
    ¬Grabbable (.split d ratio left right) cols rows layouts m := by
  have hpos := hne.pos
  cases d with
  | vertical =>
    have hshares := splitExtent_shares cols ratio
    have hsep := hshares.separator
    rw [if_neg hpos.1.ne'] at hsep
    obtain ⟨a, ha, haend, hatop⟩ := exists_topRight left 0 0 (splitExtent cols ratio).1 rows
    obtain ⟨b, hb, hbstart, hbtop⟩ := exists_topLeft right
      (0 + (splitExtent cols ratio).1 + (splitExtent cols ratio).2.1) 0
      (splitExtent cols ratio).2.2 rows
    have hain := inside_compute left ha
    refine not_grabbable_of_corner hlayouts hne hw hh List.mem_cons_self ?_
      (List.mem_append_left _ ha) (List.mem_append_right _ hb) haend hbstart hatop hbtop ?_
    · show 0 < (splitExtent cols ratio).2.1
      omega
    · simp only [layoutOf, PaneLayout.across]
      omega
  | horizontal =>
    have hshares := splitExtent_shares rows ratio
    have hsep := hshares.separator
    rw [if_neg hpos.2.ne'] at hsep
    obtain ⟨a, ha, haleft, haend⟩ := exists_bottomLeft left 0 0 cols (splitExtent rows ratio).1
    obtain ⟨b, hb, hbleft, hbstart⟩ := exists_topLeft right 0
      (0 + (splitExtent rows ratio).1 + (splitExtent rows ratio).2.1) cols
      (splitExtent rows ratio).2.2
    have hain := inside_compute left ha
    refine not_grabbable_of_corner hlayouts hne hw hh List.mem_cons_self ?_
      (List.mem_append_left _ ha) (List.mem_append_right _ hb) haend hbstart haleft hbleft ?_
    · show 0 < (splitExtent rows ratio).2.1
      omega
    · simp only [layoutOf, PaneLayout.across]
      omega

/-- **No separator can be grabbed.**  With no empty pane and cells of some size, the borders are
    what they should be if and only if there are none. -/
theorem grabbable_iff (t : SplitNode F) (cols rows : ℕ) (layouts : PaneLayouts) (m : CellMetrics)
    (hlayouts : layouts.toList.Perm ((t.compute 0 0 cols rows).map layoutOf))
    (hne : NonEmpty (t.compute 0 0 cols rows)) (hw : 0 < m.cellW) (hh : 0 < m.cellH) :
    Grabbable t cols rows layouts m ↔ ∃ id, t = .pane id := by
  constructor
  · intro h
    cases t with
    | pane id => exact ⟨id, rfl⟩
    | split d ratio left right => exact absurd h (not_grabbable_split hlayouts hne hw hh)
  · rintro ⟨id, rfl⟩
    refine ⟨?_, fun cursor p _ _ => hitTest_layout hlayouts hne cursor⟩
    rintro sep hsep
    cases hsep

end

/-- A window split down the middle. -/
def halves : SplitNode ℚ := .split .vertical (1 / 2) (.pane 1) (.pane 2)

/-- The client's layouts of a server layout with distinct panes. -/
def layoutsOf (rs : List PaneRect) (h : (rs.map PaneRect.paneId).Nodup) : PaneLayouts where
  toList := rs.map layoutOf
  nodup := by rwa [List.map_map]

theorem halves_not_grabbable : ¬Grabbable halves 80 24
    (layoutsOf [⟨1, 0, 0, 40, 24⟩, ⟨2, 41, 0, 39, 24⟩] (by decide)) ⟨8, 16, 0, 0⟩ := by
  have hcompute : halves.compute 0 0 80 24 = [⟨1, 0, 0, 40, 24⟩, ⟨2, 41, 0, 39, 24⟩] := by
    decide +kernel
  refine not_grabbable_split ?_ ?_ (by norm_num) (by norm_num)
  · change List.Perm _ (List.map layoutOf (halves.compute 0 0 80 24))
    rw [hcompute]
    rfl
  · change NonEmpty (halves.compute 0 0 80 24)
    rw [hcompute]
    unfold NonEmpty
    decide

theorem single_grabbable : Grabbable (.pane 1 : SplitNode ℚ) 80 24
    (layoutsOf [⟨1, 0, 0, 80, 24⟩] (by decide)) ⟨8, 16, 0, 0⟩ :=
  (grabbable_iff (.pane 1) 80 24 _ _ (List.Perm.refl _) (by unfold NonEmpty; decide)
    (by norm_num) (by norm_num)).2 ⟨1, rfl⟩

end Nexterm.Client

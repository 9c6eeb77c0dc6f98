/-
  The index buffers of a frame (`vertex_util.rs`, `renderer/render_frame.rs`): every rectangle is
  four vertices and six 16-bit indices.

  * `Mesh`, `pushRectVerts`, `appendPaneVerts`: what is pushed and appended.  An addition of indices
    that overflows answers `none`.
  * `buildPane`, `buildFrame`: the panes of a frame, built cell by cell and joined.
  * `Addresses`: the indices of every rectangle are those of its own vertices.
  * `addresses_frame_iff`: they are as long as there are at most 16384 rectangles.
-/
import Nexterm.Client.GridVerts
import Nexterm.Lib.Fallible
import Nexterm.Server.Layouts

namespace Nexterm.Client

open Nexterm.Server (u16Add)
open Nexterm.Vt (Grid)

/-- Vertices and indices. -/
structure Mesh (V : Type) where
  verts : List V
  idx : List ℕ

namespace Mesh

variable {V : Type}

def empty : Mesh V := ⟨[], []⟩

/-- Push the four corners of a rectangle. -/
def pushRectVerts (mesh : Mesh (V × Fin 4)) (rect : V) : Option (Mesh (V × Fin 4)) := do
  let base := mesh.verts.length % 2 ^ 16
  let base1 ← u16Add base 1
  let base2 ← u16Add base 2
  let base3 ← u16Add base 3
  some
    { verts := mesh.verts ++ [(rect, 0), (rect, 1), (rect, 2), (rect, 3)]
      idx := mesh.idx ++ [base, base1, base2, base, base2, base3] }

/-- Append pane vertices; their indices are shifted by the number of vertices before them. -/
def appendPaneVerts (mesh src : Mesh V) : Option (Mesh V) := do
  let base := mesh.verts.length % 2 ^ 16
  let shifted ← src.idx.mapM fun i => u16Add i base
  some { verts := mesh.verts ++ src.verts, idx := mesh.idx ++ shifted }

/-- The rectangles of a pane, pushed onto an empty buffer. -/
def buildPane (rects : List V) : Option (Mesh (V × Fin 4)) := rects.foldlM pushRectVerts empty

/-- The panes of a frame, joined. -/
def buildFrame (panes : List (List V)) : Option (Mesh (V × Fin 4)) :=
  panes.foldlM (fun mesh rects => do mesh.appendPaneVerts (← buildPane rects)) empty

/-! ## Its own vertices -/

/-- The corners of a rectangle. -/
def corners (rect : V) : List (V × Fin 4) := [(rect, 0), (rect, 1), (rect, 2), (rect, 3)]

/-- The two triangles of the rectangle whose first vertex has the number `base`. -/
def triangles (base : ℕ) : List ℕ := [base, base + 1, base + 2, base, base + 2, base + 3]

theorem triangles_add (base shift : ℕ) :
    (triangles base).map (· + shift) = triangles (shift + base) := by
  simp only [triangles, List.map_cons, List.map_nil, List.cons.injEq, and_true]
  omega

/-- The vertices are the corners of the rectangles, and the six indices of the `i`-th rectangle
    refer to the vertices `4 * i` to `4 * i + 3`. -/
structure Addresses (mesh : Mesh (V × Fin 4)) (rects : List V) : Prop where
  verts : mesh.verts = rects.flatMap corners
  idx : mesh.idx = (List.range rects.length).flatMap fun i => triangles (4 * i)

theorem length_corners (rects : List V) : (rects.flatMap corners).length = 4 * rects.length := by
  induction rects with
  | nil => rfl
  | cons rect rects ih =>
    rw [List.flatMap_cons, List.length_append, ih, List.length_cons]
    simp only [corners, List.length_cons, List.length_nil]
    omega

variable {mesh src mesh' : Mesh (V × Fin 4)} {rects rects' : List V}

theorem Addresses.length (h : Addresses mesh rects) : mesh.verts.length = 4 * rects.length := by
  rw [h.verts, length_corners]

theorem addresses_empty : Addresses (empty : Mesh (V × Fin 4)) [] := ⟨rfl, rfl⟩

/-- While there is room for another rectangle, it is pushed as it should be. -/
theorem Addresses.push (h : Addresses mesh rects) (hroom : rects.length < 2 ^ 14) (rect : V) :
    ∃ mesh', mesh.pushRectVerts rect = some mesh' ∧ Addresses mesh' (rects ++ [rect]) := by
  have hbase : mesh.verts.length % 2 ^ 16 = 4 * rects.length := by
    rw [h.length]
    omega
  refine ⟨⟨mesh.verts ++ corners rect, mesh.idx ++ triangles (4 * rects.length)⟩, ?_, ?_, ?_⟩
  · simp only [pushRectVerts, hbase, Option.bind_eq_bind]
    rw [Server.u16Add_eq (by omega), Server.u16Add_eq (by omega), Server.u16Add_eq (by omega)]
    rfl
  · rw [h.verts, List.flatMap_append, List.flatMap_singleton]
  · rw [h.idx, List.length_append, List.length_singleton, List.range_succ, List.flatMap_append,
      List.flatMap_singleton]

/-- While there is room for the rectangles of a pane, they are appended as they should be. -/
theorem Addresses.append (h : Addresses mesh rects) (hsrc : Addresses src rects')
    (hroom : rects.length + rects'.length ≤ 2 ^ 14) :
    ∃ mesh', mesh.appendPaneVerts src = some mesh' ∧ Addresses mesh' (rects ++ rects') := by
  by_cases hnone : rects' = []
  · subst hnone
    refine ⟨⟨mesh.verts ++ src.verts, mesh.idx ++ []⟩, ?_, ?_, ?_⟩
    · simp only [appendPaneVerts, hsrc.idx]
      rfl
    · rw [h.verts, hsrc.verts, List.flatMap_append]
    · rw [h.idx, List.append_nil, List.append_nil]
  have hpos : 0 < rects'.length := List.length_pos_iff.2 hnone
  have hbase : mesh.verts.length % 2 ^ 16 = 4 * rects.length := by
    rw [h.length]
    omega
  have hshift : src.idx.mapM (fun i => u16Add i (4 * rects.length)) =
      some (src.idx.map (· + 4 * rects.length)) := by
    refine Fallible.mapM_eq_some_iff.2 ?_
    rw [List.map_map]
    refine List.map_congr_left ?_
    intro i hi
    rw [hsrc.idx] at hi
    obtain ⟨k, hk, hi⟩ := List.mem_flatMap.1 hi
    have hk' := List.mem_range.1 hk
    have hle : i ≤ 4 * k + 3 := by
      simp only [triangles, List.mem_cons, List.not_mem_nil, or_false] at hi
      omega
    exact Server.u16Add_eq (by omega)
  refine ⟨⟨mesh.verts ++ src.verts, mesh.idx ++ src.idx.map (· + 4 * rects.length)⟩, ?_, ?_, ?_⟩
  · simp only [appendPaneVerts, hbase, hshift]
    rfl
  · rw [h.verts, hsrc.verts, List.flatMap_append]
  · rw [h.idx, hsrc.idx, List.length_append, List.range_add, List.flatMap_append, List.map_flatMap,
      List.flatMap_map]
    refine congrArg (_ ++ ·) (List.flatMap_congr ?_)
    intro k _
    rw [triangles_add, Nat.mul_add]

/-- A pane with room for all its rectangles. -/
theorem addresses_buildPane (h : rects.length ≤ 2 ^ 14) :
    ∃ mesh, buildPane rects = some mesh ∧ Addresses mesh rects := by
  have hfold : ∀ (rects' done : List V) (mesh : Mesh (V × Fin 4)), Addresses mesh done →
      done.length + rects'.length ≤ 2 ^ 14 →
        ∃ mesh', rects'.foldlM pushRectVerts mesh = some mesh' ∧
          Addresses mesh' (done ++ rects') := by
    intro rects'
    induction rects' with
    | nil => exact fun done mesh hmesh _ => ⟨mesh, rfl, by rwa [List.append_nil]⟩
    | cons rect rects' ih =>
      intro done mesh hmesh hroom
      rw [List.length_cons] at hroom
      obtain ⟨mesh', hpush, hmesh'⟩ := hmesh.push (by omega) rect
      obtain ⟨mesh'', hrest, hmesh''⟩ := ih (done ++ [rect]) mesh' hmesh' (by
        rw [List.length_append, List.length_singleton]
        omega)
      refine ⟨mesh'', ?_, by rwa [List.append_assoc] at hmesh''⟩
      rw [List.foldlM_cons, hpush]
      exact hrest
  exact hfold rects [] empty addresses_empty (by rwa [List.length_nil, Nat.zero_add])

/-- A frame with room for the rectangles of all its panes. -/
theorem addresses_buildFrame {panes : List (List V)} (h : panes.flatten.length ≤ 2 ^ 14) :
    ∃ mesh, buildFrame panes = some mesh ∧ Addresses mesh panes.flatten := by
  have hfold : ∀ (panes : List (List V)) (done : List V) (mesh : Mesh (V × Fin 4)),
      Addresses mesh done → done.length + panes.flatten.length ≤ 2 ^ 14 →
        ∃ mesh', panes.foldlM (fun mesh rects => do
            mesh.appendPaneVerts (← buildPane rects)) mesh = some mesh' ∧
          Addresses mesh' (done ++ panes.flatten) := by
    intro panes
    induction panes with
    | nil => exact fun done mesh hmesh _ => ⟨mesh, rfl, by rwa [List.flatten_nil, List.append_nil]⟩
    | cons pane panes ih =>
      intro done mesh hmesh hroom
      rw [List.flatten_cons, List.length_append] at hroom
      obtain ⟨src, hsrc, haddresses⟩ := addresses_buildPane (show pane.length ≤ 2 ^ 14 by omega)
      obtain ⟨mesh', happend, hmesh'⟩ := hmesh.append haddresses (by omega)
      obtain ⟨mesh'', hrest, hmesh''⟩ := ih (done ++ pane) mesh' hmesh' (by
        rw [List.length_append]
        omega)
      refine ⟨mesh'', ?_, by rwa [List.append_assoc] at hmesh''⟩
      rw [List.foldlM_cons, hsrc]
      simp only [Option.bind_eq_bind, Option.bind_some, happend]
      exact hrest
  exact hfold panes [] empty addresses_empty (by rwa [List.length_nil, Nat.zero_add])

/-! ## Too many rectangles -/

theorem lt_of_u16Add {a b c : ℕ} (h : u16Add a b = some c) : c < 2 ^ 16 := by
  unfold u16Add at h
  split_ifs at h with hlt
  cases h
  exact hlt

/-- Every index is a 16-bit number. -/
def Narrow (mesh : Mesh V) : Prop := ∀ i ∈ mesh.idx, i < 2 ^ 16

theorem Narrow.push (h : Narrow mesh) {rect : V} (hpush : mesh.pushRectVerts rect = some mesh') :
    Narrow mesh' := by
  simp only [pushRectVerts, Option.bind_eq_bind, Option.bind_eq_some_iff] at hpush
  obtain ⟨base1, h1, base2, h2, base3, h3, hmesh⟩ := hpush
  cases hmesh
  intro i hi
  rcases List.mem_append.1 hi with hi | hi
  · exact h i hi
  · have hbase : mesh.verts.length % 2 ^ 16 < 2 ^ 16 := Nat.mod_lt _ (by decide)
    have h1 := lt_of_u16Add h1
    have h2 := lt_of_u16Add h2
    have h3 := lt_of_u16Add h3
    simp only [List.mem_cons, List.not_mem_nil, or_false] at hi
    omega

theorem Narrow.append (h : Narrow mesh) (happend : mesh.appendPaneVerts src = some mesh') :
    Narrow mesh' := by
  simp only [appendPaneVerts, Option.bind_eq_bind, Option.bind_eq_some_iff] at happend
  obtain ⟨shifted, hshifted, hmesh⟩ := happend
  cases hmesh
  intro i hi
  rcases List.mem_append.1 hi with hi | hi
  · exact h i hi
  · obtain ⟨j, -, hj⟩ := Fallible.mem_of_mapM hshifted hi
    exact lt_of_u16Add hj

theorem narrow_buildFrame {panes : List (List V)} (h : buildFrame panes = some mesh) :
    Narrow mesh := by
  have hfold : ∀ (panes : List (List V)) (mesh mesh' : Mesh (V × Fin 4)), Narrow mesh →
      panes.foldlM (fun mesh rects => do mesh.appendPaneVerts (← buildPane rects)) mesh =
        some mesh' → Narrow mesh' := by
    intro panes
    induction panes with
    | nil =>
      rintro mesh mesh' hmesh hfold
      cases hfold
      exact hmesh
    | cons pane panes ih =>
      intro mesh mesh' hmesh hfold
      simp only [List.foldlM_cons, Option.bind_eq_bind, Option.bind_eq_some_iff] at hfold
      obtain ⟨mesh₁, ⟨src, -, happend⟩, hrest⟩ := hfold
      exact ih mesh₁ mesh' (hmesh.append happend) hrest
  exact hfold panes empty mesh (fun i hi => nomatch hi) h

/-- **The indices of a frame are right** if and only if the rectangles are at most 16384. -/
theorem addresses_buildFrame_iff {panes : List (List V)} :
    (∃ mesh, buildFrame panes = some mesh ∧ Addresses mesh panes.flatten) ↔
      panes.flatten.length ≤ 2 ^ 14 := by
  constructor
  · rintro ⟨mesh, hbuild, haddresses⟩
    by_contra hmany
    -- the first vertex of rectangle 16384 has no 16-bit number
    have hlast : 4 * 2 ^ 14 ∈ mesh.idx := by
      rw [haddresses.idx]
      refine List.mem_flatMap.2 ⟨2 ^ 14, List.mem_range.2 (Nat.not_le.1 hmany), ?_⟩
      exact List.mem_cons_self
    exact absurd (narrow_buildFrame hbuild _ hlast) (by decide)
  · exact addresses_buildFrame

end Mesh

/-! ## The panes of a frame -/

/-- What a pane is built from. -/
structure FramePane (M : Type) where
  grid : Grid
  overrides : PaneColorOverrides
  view : View
  motion : M

variable {P C Θ M : Type} (R : Rasterizer P C Θ M) (theme : Θ)

/-- The rectangles of the background, -/
def bgRects (pane : FramePane M) : List (P × C) :=
  ((R.buildGridVertsInRect pane.grid pane.overrides pane.view pane.motion theme).filter
    (·.2.isNone)).map Prod.fst

/-- and those of the glyphs. -/
def textRects (pane : FramePane M) : List (P × C) :=
  ((R.buildGridVertsInRect pane.grid pane.overrides pane.view pane.motion theme).filter
    (·.2.isSome)).map Prod.fst

/-- The background and the text of a frame. -/
def buildPanes (panes : List (FramePane M)) :
    Option (Mesh ((P × C) × Fin 4) × Mesh ((P × C) × Fin 4)) := do
  let bg ← Mesh.buildFrame (panes.map (bgRects R theme))
  let text ← Mesh.buildFrame (panes.map (textRects R theme))
  some (bg, text)

/-- No addition overflows, and every index refers to a vertex of its own rectangle. -/
def QuadsAddressed (panes : List (FramePane M)) : Prop :=
  ∃ bg text, buildPanes R theme panes = some (bg, text) ∧
    bg.Addresses (panes.flatMap (bgRects R theme)) ∧
    text.Addresses (panes.flatMap (textRects R theme))

/-- The rectangles of a pane: one for each cell that is drawn, one more for each selected cell of
    the focused pane, and one for its cursor. -/
def rectCount (pane : FramePane M) : ℕ :=
  ((List.range (min pane.view.rows pane.grid.height)).map fun row =>
    ((List.range (min pane.view.cols pane.grid.width)).map fun col =>
      if (pane.grid.rows[row]?.bind (·[col]?)).isNone then 0
      else if pane.view.isFocused ∧ pane.view.mouseSel.contains col row then 2 else 1).sum).sum +
    if pane.view.isFocused ∧ pane.view.cursorVisible then 1 else 0

variable {R theme}

theorem countP_cellQuads (overrides : Option PaneColorOverrides) (view : View) (motion : M)
    (row col : ℕ) (cell : Nexterm.Vt.Cell) :
    (R.cellQuads overrides view motion theme row col cell).countP (·.2.isNone) =
      if view.isFocused ∧ view.mouseSel.contains col row then 2 else 1 := by
  have hglyph : ∀ fg bold italic, (R.glyphQuads view theme row col cell.ch bold italic fg).countP
      (·.2.isNone) = 0 := by
    intro fg bold italic
    unfold Rasterizer.glyphQuads
    dsimp only
    split_ifs <;> rfl
  unfold Rasterizer.cellQuads
  simp only [List.countP_append]
  split_ifs <;> simp [hglyph]

theorem length_bgRects (pane : FramePane M) :
    (bgRects R theme pane).length = rectCount pane := by
  rw [bgRects, List.length_map, ← List.countP_eq_length_filter, Rasterizer.buildGridVertsInRect,
    List.countP_append, List.countP_flatMap, rectCount]
  congr 1
  · congr 1
    refine List.map_congr_left ?_
    intro row _
    rw [Function.comp_apply, List.countP_flatMap]
    congr 1
    refine List.map_congr_left ?_
    intro col _
    rw [Function.comp_apply]
    cases hcell : pane.grid.rows[row]?.bind (·[col]?) with
    | none => rfl
    | some cell => exact countP_cellQuads _ _ _ _ _ _
  · unfold Rasterizer.cursorQuads
    split_ifs <;> rfl

/-- A cell has at most one glyph, and so at least as many background rectangles. -/
theorem countP_cellQuads_le (overrides : Option PaneColorOverrides) (view : View) (motion : M)
    (row col : ℕ) (cell : Nexterm.Vt.Cell) :
    (R.cellQuads overrides view motion theme row col cell).countP (·.2.isSome) ≤
      if view.isFocused ∧ view.mouseSel.contains col row then 2 else 1 := by
  have hglyph : ∀ fg bold italic, (R.glyphQuads view theme row col cell.ch bold italic fg).countP
      (·.2.isSome) ≤ 1 := by
    intro fg bold italic
    unfold Rasterizer.glyphQuads
    dsimp only
    split_ifs <;> simp
  have hcount : (R.cellQuads overrides view motion theme row col cell).countP (·.2.isSome) ≤ 1 := by
    unfold Rasterizer.cellQuads
    simp only [List.countP_append]
    split_ifs <;> simp [hglyph]
  split_ifs <;> omega

theorem length_textRects_le (pane : FramePane M) :
    (textRects R theme pane).length ≤ rectCount pane := by
  rw [textRects, List.length_map, ← List.countP_eq_length_filter, Rasterizer.buildGridVertsInRect,
    List.countP_append, List.countP_flatMap, rectCount]
  refine Nat.add_le_add (List.sum_le_sum ?_) ?_
  · intro row _
    rw [Function.comp_apply, List.countP_flatMap]
    refine List.sum_le_sum ?_
    intro col _
    rw [Function.comp_apply]
    cases hcell : pane.grid.rows[row]?.bind (·[col]?) with
    | none => exact le_rfl
    | some cell => exact countP_cellQuads_le _ _ _ _ _ _
  · unfold Rasterizer.cursorQuads
    split_ifs <;> simp

theorem length_flatten_bgRects (panes : List (FramePane M)) :
    (panes.map (bgRects R theme)).flatten.length = (panes.map rectCount).sum := by
  rw [List.length_flatten, List.map_map]
  exact congrArg List.sum (List.map_congr_left fun pane _ => length_bgRects pane)

theorem length_flatten_textRects_le (panes : List (FramePane M)) :
    (panes.map (textRects R theme)).flatten.length ≤ (panes.map rectCount).sum := by
  rw [List.length_flatten, List.map_map]
  exact List.sum_le_sum fun pane _ => length_textRects_le pane

/-- With too many rectangles some are drawn with the vertices of others. -/
theorem not_quadsAddressed {panes : List (FramePane M)}
    (hmany : 2 ^ 14 < (panes.map rectCount).sum) : ¬QuadsAddressed R theme panes := by
  rintro ⟨bg, text, hbuild, hbg, -⟩
  simp only [buildPanes, Option.bind_eq_bind, Option.bind_eq_some_iff] at hbuild
  obtain ⟨bg', hbg', text', -, heq⟩ := hbuild
  cases heq
  rw [List.flatMap_def] at hbg
  have hfew := Mesh.addresses_buildFrame_iff.1 ⟨bg, hbg', hbg⟩
  rw [length_flatten_bgRects] at hfew
  omega

/-- **Quad indices address their own quad** if and only if the panes of the frame have at most
    16384 rectangles in all. -/
theorem quadsAddressed_iff (R : Rasterizer P C Θ M) (theme : Θ) (panes : List (FramePane M)) :
    QuadsAddressed R theme panes ↔ (panes.map rectCount).sum ≤ 2 ^ 14 := by
  constructor
  · intro h
    by_contra hmany
    exact not_quadsAddressed (Nat.not_le.1 hmany) h
  · intro hfew
    have hbgs : (panes.map (bgRects R theme)).flatten.length ≤ 2 ^ 14 :=
      (length_flatten_bgRects panes).trans_le hfew
    have htexts : (panes.map (textRects R theme)).flatten.length ≤ 2 ^ 14 :=
      (length_flatten_textRects_le panes).trans hfew
    obtain ⟨bg, hbuild, hbg⟩ := Mesh.addresses_buildFrame_iff.2 hbgs
    obtain ⟨text, hbuild', htext⟩ := Mesh.addresses_buildFrame_iff.2 htexts
    refine ⟨bg, text, ?_, hbg, htext⟩
    rw [buildPanes, hbuild, hbuild']
    rfl

/-- A blank pane without focus, all of it shown. -/
def blankPane (cols rows : ℕ) : FramePane Unit where
  grid := .new cols rows
  overrides := ⟨none, none, []⟩
  view := ⟨0, 0, cols, rows, 0, 0, 0, 0, 0, false, .block, true, ⟨false, (0, 0), (0, 0)⟩⟩
  motion := ()

theorem rectCount_blankPane (cols rows : ℕ) : rectCount (blankPane cols rows) = rows * cols := by
  have hrow : ∀ row ∈ List.range rows, ((List.range cols).map fun col =>
      if ((Grid.new cols rows).rows[row]?.bind (·[col]?)).isNone then 0 else 1).sum = cols := by
    intro row hrow
    have hcol : ∀ col ∈ List.range cols,
        (if ((Grid.new cols rows).rows[row]?.bind (·[col]?)).isNone then 0 else 1) = 1 := by
      intro col hcol
      simp [Grid.new, Grid.blankRows, Grid.blankRow, List.mem_range.1 hrow, List.mem_range.1 hcol]
    rw [List.map_congr_left hcol]
    simp
  have hsum := congrArg List.sum (List.map_congr_left hrow)
  simpa [rectCount, blankPane, Grid.new] using hsum

/-- Fonts and colours of no consequence. -/
def plainRasterizer : Rasterizer Unit Unit Unit Unit where
  cellRect _ _ _ := ()
  glyphRect _ _ _ _ := ()
  cursorRect _ _ := ()
  rgb _ := ()
  resolveColor _ _ _ := ()
  transformCell _ _ _ _ := ()
  selectionColor _ := ()
  cursorColor _ _ := ()
  isWide _ := false
  rasterizeChar _ _ _ _ _ _ := (1, 1)

/-- One pane of 200 by 82 cells has 16400 rectangles. -/
theorem large_pane_not_addressed :
    ¬QuadsAddressed plainRasterizer () [blankPane 200 82] := by
  refine not_quadsAddressed ?_
  rw [List.map_singleton, rectCount_blankPane, List.sum_singleton]
  decide

end Nexterm.Client

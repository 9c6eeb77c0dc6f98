/-
  The render cache of the panes (`renderer/mod.rs`, `renderer/render_frame.rs`): the vertices of a
  pane are kept from one frame to the next.

  * `CacheKey`: the inputs of the vertex builder that are compared before vertices are reused.
  * `RenderState.drawPane`, `frame`, `grow`: one frame; `RenderState.step`: everything that
    happens to a client between its frames as well.
  * `Coherent`: what a frame reuses is what it would build, and its glyphs are in the atlas.
  * `Tracked`: the history of a run; a pane is stale once a change has gone by that neither the
    key nor the dirty flag will show.
  * `coherent_of_noStaleReuse`: a run that reuses no stale pane is coherent.

  Up to the last section the vertex builder is any function: `Q` is a quad without its place in
  the texture, `Θ` is what the builder reads of the configuration and of the font, and `M` is
  where the cursor and the dimming of a pane are in their animation, which the key rounds.
-/
import Mathlib.Logic.Function.Basic
import Nexterm.Client.GridVerts
import Nexterm.Client.Pane
import Nexterm.Lib.Runs

namespace Nexterm.Client

open Nexterm.Vt (Grid)

/-- A pane, with the colours that the renderer reads. -/
structure RenderPane extends PaneState where
  colorOverrides : PaneColorOverrides

/-- The rectangle of a pane in its window. -/
structure PaneLayout where
  paneId : ℕ
  colOffset : ℕ
  rowOffset : ℕ
  cols : ℕ
  rows : ℕ

/-- The layouts by pane, in the order in which the map is walked. -/
structure PaneLayouts where
  toList : List PaneLayout
  nodup : (toList.map PaneLayout.paneId).Nodup

/-- The rounded inputs. -/
structure Quantized where
  cursorVisualQ : UInt32 × UInt32
  inactiveHsbQ : UInt32
  deriving DecidableEq

/-- The layout and display parameters that a cache was built with. -/
structure CacheKey where
  view : View
  quantized : Quantized
  deriving DecidableEq

/-- A vertex builder, and how the key rounds the animations. -/
structure GridBuilder (κ Q Θ M : Type) where
  quantize : M → Quantized
  build : Grid → PaneColorOverrides → View → M → Θ → List (Q × Option (GlyphRequest κ))

/-- A quad, with the glyph that it shows and the place of the glyph. -/
abbrev Vertices (κ Q : Type) := List (Q × Option (κ × GlyphRect))

/-- Cached vertex data of a pane. -/
structure PaneRenderCache (κ Q : Type) where
  key : CacheKey
  verts : Vertices κ Q

/-- What a frame is given. -/
structure Frame (κ M : Type) where
  swBits : UInt32
  shBits : UInt32
  cellWBits : UInt32
  cellHBits : UInt32
  gridOffsetYBits : UInt32
  cursorStyle : CursorStyle
  cursorVisible : Bool
  mouseSel : MouseSelection
  motion : ℕ → M
  /-- The glyphs of the scrollback and of the block overlay of a pane. -/
  extras : ℕ → List (GlyphRequest κ)
  /-- The glyphs of the focused pane if there is no layout yet. -/
  fallback : List (GlyphRequest κ)
  /-- The glyphs that are drawn after the panes: tab bar, status line, panels. -/
  overlays : List (GlyphRequest κ)

/-- The client, as far as the renderer reads it, and the renderer. -/
structure RenderState (κ Q Θ : Type) where
  panes : ℕ → Option RenderPane
  scrollbackCapacity : ℕ
  paneLayouts : PaneLayouts
  focusedPaneId : Option ℕ
  theme : Θ
  atlas : GlyphAtlas κ
  paneCache : ℕ → Option (PaneRenderCache κ Q)

/-- Vertices that have been reused: the atlas is the one at that moment. -/
structure Reuse (κ Q : Type) where
  layout : PaneLayout
  verts : Vertices κ Q
  atlas : GlyphAtlas κ

/-- The pane pass of a frame, with a record of what it has done. -/
structure PanePass (κ Q : Type) where
  atlas : GlyphAtlas κ
  paneCache : ℕ → Option (PaneRenderCache κ Q)
  reused : List (Reuse κ Q)
  rebuilt : List ℕ

/-- What can happen to the client. -/
inductive RenderOp (κ Θ M : Type)
  /-- A message of the server for a pane, or a block that is folded. -/
  | pane (id : ℕ) (op : PaneOp)
  | paneColorsChanged (id : ℕ) (overrides : PaneColorOverrides)
  | layoutChanged (layouts : PaneLayouts) (focusedPaneId : ℕ)
  /-- The accessibility tree moves the focus. -/
  | focusPane (id : ℕ)
  /-- The focused pane is scrolled, searched or moved to another prompt. -/
  | scrollTo (offset : ℕ)
  /-- A new configuration, with the same font. -/
  | setConfig (theme : Θ) (scrollbackCapacity : ℕ)
  /-- A new configuration goes through the scrollbacks of the panes. -/
  | setCapacity (id : ℕ) (newCapacity : ℕ)
  /-- A new font: the atlas is replaced, and glyphs may be put into it at once. -/
  | setFont (theme : Θ) (size sizeMax : ℕ) (preload : List (GlyphRequest κ))
  /-- The surface is lost: nothing is drawn. -/
  | lostFrame
  | frame (f : Frame κ M)

variable {κ Q Θ M : Type} [DecidableEq κ]

/-- Put the glyphs of the quads into the atlas. -/
def rasterize (evict : Eviction κ) : List (Q × Option (GlyphRequest κ)) → GlyphAtlas κ →
    Vertices κ Q × GlyphAtlas κ
  | [], a => ([], a)
  | (q, none) :: quads, a =>
    let (verts, a) := rasterize evict quads a
    ((q, none) :: verts, a)
  | (q, some r) :: quads, a =>
    let (rect, a) := a.getOrInsert evict r
    let (verts, a) := rasterize evict quads a
    ((q, some (r.key, rect)) :: verts, a)

/-! ## One frame -/

namespace RenderState

variable (B : GridBuilder κ Q Θ M) (evict : Eviction κ)

omit [DecidableEq κ] in
/-- The inputs of the builder for a pane in a frame. -/
def view (s : RenderState κ Q Θ) (f : Frame κ M) (layout : PaneLayout) : View where
  colOffset := layout.colOffset
  rowOffset := layout.rowOffset
  cols := layout.cols
  rows := layout.rows
  swBits := f.swBits
  shBits := f.shBits
  cellWBits := f.cellWBits
  cellHBits := f.cellHBits
  gridOffsetYBits := f.gridOffsetYBits
  isFocused := s.focusedPaneId = some layout.paneId
  cursorStyle := f.cursorStyle
  cursorVisible := f.cursorVisible
  mouseSel := f.mouseSel

/-- The key of a pane in a frame. -/
def cacheKey (s : RenderState κ Q Θ) (f : Frame κ M) (layout : PaneLayout) : CacheKey :=
  ⟨s.view f layout, B.quantize (f.motion layout.paneId)⟩

/-- The cached vertices of a pane, if they can be reused. -/
def cached (s : RenderState κ Q Θ) (f : Frame κ M) (pass : PanePass κ Q) (layout : PaneLayout)
    (pane : RenderPane) : Option (PaneRenderCache κ Q) :=
  if pass.atlas.clearedThisFrame then none
  else (pass.paneCache layout.paneId).filter fun c =>
    !pane.contentDirty && c.key = s.cacheKey B f layout

/-- Draw the grid of a pane: reuse its vertices, or build and keep them. -/
def drawGrid (s : RenderState κ Q Θ) (f : Frame κ M) (pass : PanePass κ Q) (layout : PaneLayout)
    (pane : RenderPane) : PanePass κ Q :=
  match s.cached B f pass layout pane with
  | some c => { pass with reused := ⟨layout, c.verts, pass.atlas⟩ :: pass.reused }
  | none =>
    let (verts, atlas) := rasterize evict (B.build pane.grid pane.colorOverrides
      (s.view f layout) (f.motion layout.paneId) s.theme) pass.atlas
    { pass with
      atlas := atlas
      paneCache := Function.update pass.paneCache layout.paneId
        (some ⟨s.cacheKey B f layout, verts⟩)
      rebuilt := layout.paneId :: pass.rebuilt }

/-- Draw a pane; the focused one may show its scrollback, which is not cached. -/
def drawPane (s : RenderState κ Q Θ) (f : Frame κ M) (pass : PanePass κ Q) (layout : PaneLayout) :
    PanePass κ Q :=
  match s.panes layout.paneId with
  | none => pass
  | some pane =>
    let pass :=
      if pane.scrollOffset > 0 ∧ s.focusedPaneId = some layout.paneId then pass
      else s.drawGrid B evict f pass layout pane
    { pass with atlas := pass.atlas.insertAll evict (f.extras layout.paneId) }

/-- The pane pass: the flag of the atlas is reset at the start of the frame. -/
def panePass (s : RenderState κ Q Θ) (f : Frame κ M) : PanePass κ Q :=
  let start : PanePass κ Q := ⟨{ s.atlas with clearedThisFrame := false }, s.paneCache, [], []⟩
  if s.paneLayouts.toList = [] then
    { start with atlas := start.atlas.insertAll evict f.fallback }
  else s.paneLayouts.toList.foldl (s.drawPane B evict f) start

/-- Draw a frame.  The dirty flag of every pane is reset after the panes, and the cache is emptied
    if the atlas has been reset by then. -/
def render (s : RenderState κ Q Θ) (f : Frame κ M) : RenderState κ Q Θ :=
  let pass := s.panePass B evict f
  { s with
    panes := fun id => (s.panes id).map fun pane => { pane with contentDirty := false }
    paneCache := if pass.atlas.clearedThisFrame then fun _ => none else pass.paneCache
    atlas := pass.atlas.insertAll evict f.overlays }

omit [DecidableEq κ] in
/-- After a frame, an atlas that asks for it is grown. -/
def growAtlas (s : RenderState κ Q Θ) : RenderState κ Q Θ :=
  { s with atlas := if s.atlas.needsGrow then s.atlas.grow else s.atlas }

/-! ## Between the frames -/

omit [DecidableEq κ] in
/-- The pane that a message is for; a full refresh makes one. -/
def paneFor (s : RenderState κ Q Θ) (id : ℕ) (op : PaneOp) : Option RenderPane :=
  match s.panes id, op with
  | some pane, _ => some pane
  | none, .fullRefresh grid =>
    some { PaneState.new grid.width grid.height s.scrollbackCapacity with
      colorOverrides := ⟨none, none, []⟩ }
  | none, _ => none

omit [DecidableEq κ] in
/-- The focus after a message for a pane. -/
def focusAfter (s : RenderState κ Q Θ) (id : ℕ) : PaneOp → Option ℕ
  | .fullRefresh _ => s.focusedPaneId.or (some id)
  | _ => s.focusedPaneId

omit [DecidableEq κ] in
def applyPaneOp (s : RenderState κ Q Θ) (id : ℕ) (op : PaneOp) : Option (RenderState κ Q Θ) :=
  match s.paneFor id op with
  | none => some s
  | some pane => do
    let pane' ← pane.toPaneState.step id op
    some { s with
      panes := Function.update s.panes id (some { pane with toPaneState := pane' })
      focusedPaneId := s.focusAfter id op }

omit [DecidableEq κ] in
/-- Change a pane, if there is one. -/
def modifyPane (s : RenderState κ Q Θ) (id : ℕ) (g : RenderPane → RenderPane) :
    RenderState κ Q Θ :=
  { s with panes := Function.update s.panes id ((s.panes id).map g) }

omit [DecidableEq κ] in
/-- The focused pane is scrolled. -/
def scrollTo (s : RenderState κ Q Θ) (offset : ℕ) : RenderState κ Q Θ :=
  match s.focusedPaneId with
  | none => s
  | some id => s.modifyPane id fun pane => { pane with scrollOffset := offset }

omit [DecidableEq κ] in
/-- A pane keeps more or fewer lines. -/
def setCapacity (s : RenderState κ Q Θ) (id newCapacity : ℕ) : Option (RenderState κ Q Θ) :=
  match s.panes id with
  | none => some s
  | some pane => do
    let scrollback ← pane.scrollback.setCapacity newCapacity
    some (s.modifyPane id fun pane => { pane with scrollback := scrollback })

/-- The client after an operation; a message may make it panic. -/
def step (s : RenderState κ Q Θ) : RenderOp κ Θ M → Option (RenderState κ Q Θ)
  | .pane id op => s.applyPaneOp id op
  | .paneColorsChanged id overrides =>
    some (s.modifyPane id fun pane =>
      { pane with colorOverrides := overrides, contentDirty := true })
  | .layoutChanged layouts id => some { s with paneLayouts := layouts, focusedPaneId := some id }
  | .focusPane id => some { s with focusedPaneId := some id }
  | .scrollTo offset => some (s.scrollTo offset)
  | .setConfig theme capacity => some { s with theme := theme, scrollbackCapacity := capacity }
  | .setCapacity id newCapacity => s.setCapacity id newCapacity
  | .setFont theme size sizeMax preload =>
    some { s with
      theme := theme
      atlas := (GlyphAtlas.withSize size sizeMax).insertAll evict preload }
  | .lostFrame =>
    some { s with atlas := { s.atlas with clearedThisFrame := false } }.growAtlas
  | .frame f => some (s.render B evict f).growAtlas

/-- A client that has panicked does nothing any more. -/
def stepOrPanic (s : Option (RenderState κ Q Θ)) (op : RenderOp κ Θ M) :
    Option (RenderState κ Q Θ) :=
  s.bind (step B evict · op)

end RenderState

/-! ## What a frame reuses -/

omit [DecidableEq κ] in
/-- The quads and their glyphs, without the places of the glyphs. -/
def Vertices.shape (verts : Vertices κ Q) : List (Q × Option κ) :=
  verts.map fun v => (v.1, v.2.map Prod.fst)

/-- The quads that the builder makes, and their glyphs. -/
def GridBuilder.shape (B : GridBuilder κ Q Θ M) (pane : RenderPane) (view : View) (motion : M)
    (theme : Θ) : List (Q × Option κ) :=
  (B.build pane.grid pane.colorOverrides view motion theme).map fun v =>
    (v.1, v.2.map GlyphRequest.key)

/-- The vertices are those of the pane, up to the rounding of the key. -/
def Shows (B : GridBuilder κ Q Θ M) (theme : Θ) (pane : RenderPane) (key : CacheKey)
    (verts : Vertices κ Q) : Prop :=
  ∃ motion, B.quantize motion = key.quantized ∧
    verts.shape = B.shape pane key.view motion theme

/-- Every glyph of the vertices is in its rectangle. -/
def HeldIn (a : GlyphAtlas κ) (verts : Vertices κ Q) : Prop :=
  ∀ v ∈ verts, ∀ glyph ∈ v.2, a.Holds glyph.1 glyph.2

/-- Every glyph of the vertices is in its rectangle, and will be until the next reset. -/
def KeptIn (a : GlyphAtlas κ) (verts : Vertices κ Q) : Prop :=
  ∀ v ∈ verts, ∀ glyph ∈ v.2, a.Kept glyph.1 glyph.2

namespace RenderState

variable (B : GridBuilder κ Q Θ M) (evict : Eviction κ)

/-- What a frame has reused is what it would have built. -/
def CoherentReuse (s : RenderState κ Q Θ) (f : Frame κ M) (u : Reuse κ Q) : Prop :=
  ∃ pane, s.panes u.layout.paneId = some pane ∧
    Shows B s.theme pane (s.cacheKey B f u.layout) u.verts ∧ HeldIn u.atlas u.verts

/-- The render cache is coherent: in a frame, every pane that is reused is. -/
def Coherent (client : Option (RenderState κ Q Θ)) : RenderOp κ Θ M → Prop
  | .frame f => ∀ s, client = some s → ∀ u ∈ (s.panePass B evict f).reused, s.CoherentReuse B f u
  | _ => True

end RenderState

/-! ## The history of a run -/

/-- A client, and the panes whose cached vertices are out of date although neither the key nor the
    dirty flag will show it. -/
structure Tracked (κ Q Θ : Type) where
  client : RenderState κ Q Θ
  stale : ℕ → Bool

namespace Tracked

variable [DecidableEq Θ] (B : GridBuilder κ Q Θ M) (evict : Eviction κ)

/-- The stale panes after an operation. -/
def staleAfter (t : Tracked κ Q Θ) : RenderOp κ Θ M → ℕ → Bool
  | .setConfig theme _, id => t.stale id || theme ≠ t.client.theme
  | .setFont _ _ _ _, _ => true
  | .lostFrame, id => t.stale id || t.client.atlas.needsGrow
  | .frame f, id =>
    let pass := t.client.panePass B evict f
    let atlas := (t.client.render B evict f).atlas
    -- a frame that does not build the pane resets its dirty flag all the same
    (!pass.rebuilt.contains id &&
        (t.stale id || (t.client.panes id).any fun pane => pane.contentDirty)) ||
      -- the atlas is reset by the overlays, or replaced after the frame
      atlas.clearedThisFrame || atlas.needsGrow
  | _, id => t.stale id

def step (t : Tracked κ Q Θ) (op : RenderOp κ Θ M) : Option (Tracked κ Q Θ) := do
  let client ← t.client.step B evict op
  some ⟨client, t.staleAfter B evict op⟩

def stepOrPanic (t : Option (Tracked κ Q Θ)) (op : RenderOp κ Θ M) : Option (Tracked κ Q Θ) :=
  t.bind (step B evict · op)

/-- No frame reuses a stale pane. -/
def NoStaleReuse (t : Option (Tracked κ Q Θ)) : RenderOp κ Θ M → Prop
  | .frame f => ∀ t', t = some t' →
    ∀ u ∈ (t'.client.panePass B evict f).reused, t'.stale u.layout.paneId = false
  | _ => True

end Tracked

/-- The vertices that are cached for a pane are in the atlas, and they show the pane unless it is
    dirty. -/
def Fresh (B : GridBuilder κ Q Θ M) (s : RenderState κ Q Θ) (id : ℕ) (c : PaneRenderCache κ Q) :
    Prop :=
  ∃ pane, s.panes id = some pane ∧ KeptIn s.atlas c.verts ∧
    (pane.contentDirty = true ∨ Shows B s.theme pane c.key c.verts)

/-- The cache holds stale and fresh vertices only. -/
structure Tracked.Inv (B : GridBuilder κ Q Θ M) (t : Tracked κ Q Θ) : Prop where
  sound : t.client.atlas.Sound
  fresh : ∀ id c, t.client.paneCache id = some c → t.stale id = false → Fresh B t.client id c

/-! ## The pane pass -/

variable {B : GridBuilder κ Q Θ M} {evict : Eviction κ}

omit [DecidableEq κ] in
theorem KeptIn.heldIn {a : GlyphAtlas κ} {verts : Vertices κ Q} (h : KeptIn a verts) :
    HeldIn a verts :=
  fun v hv glyph hglyph => (h v hv glyph hglyph).1

omit [DecidableEq κ] in
theorem KeptIn.follows {a a' : GlyphAtlas κ} {verts : Vertices κ Q} (h : KeptIn a verts)
    (hfollows : a'.Follows a) (hclean : a'.clearedThisFrame = false) : KeptIn a' verts :=
  fun v hv glyph hglyph => hfollows.kept hclean _ _ (h v hv glyph hglyph)

/-- **What the builder puts into the atlas**: the vertices have its shape, and their glyphs are
    there if the atlas has not been reset. -/
theorem rasterize_spec (evict : Eviction κ) (quads : List (Q × Option (GlyphRequest κ)))
    (a : GlyphAtlas κ) (hsound : a.Sound) :
    (rasterize evict quads a).2.Follows a ∧
      (rasterize evict quads a).1.shape = quads.map (fun v => (v.1, v.2.map GlyphRequest.key)) ∧
      ((rasterize evict quads a).2.clearedThisFrame = false →
        KeptIn (rasterize evict quads a).2 (rasterize evict quads a).1) := by
  induction quads generalizing a with
  | nil => exact ⟨.refl a, rfl, fun _ _ hv => nomatch hv⟩
  | cons quad quads ih =>
    obtain ⟨q, _ | r⟩ := quad
    · obtain ⟨hfollows, hshape, hkept⟩ := ih a hsound
      refine ⟨hfollows, congrArg (List.cons _) hshape, ?_⟩
      intro hclean v hv glyph hglyph
      rcases List.mem_cons.1 hv with rfl | hv
      · cases hglyph
      · exact hkept hclean v hv glyph hglyph
    · obtain ⟨hsound', hinserted⟩ := hsound.getOrInsert evict r
      obtain ⟨hfollows, hshape, hkept⟩ := ih _ hsound'
      refine ⟨hfollows.trans (a.follows_getOrInsert evict r), congrArg (List.cons _) hshape, ?_⟩
      intro hclean v hv glyph hglyph
      rcases List.mem_cons.1 hv with rfl | hv
      · cases hglyph
        exact hfollows.kept hclean _ _ hinserted
      · exact hkept hclean v hv glyph hglyph

/-- The pane pass, in a client whose stale panes are `stale`: a pane that is not stale or has been
    built in this pass has fresh vertices as long as the atlas is not reset, and what has been
    reused of panes that are not stale is coherent. -/
structure PanePass.Inv (B : GridBuilder κ Q Θ M) (s : RenderState κ Q Θ) (f : Frame κ M)
    (stale : ℕ → Bool) (pass : PanePass κ Q) : Prop where
  sound : pass.atlas.Sound
  fresh : ∀ id c, pass.paneCache id = some c → stale id = false ∨ id ∈ pass.rebuilt →
    ∃ pane, s.panes id = some pane ∧
      (pass.atlas.clearedThisFrame = false → KeptIn pass.atlas c.verts) ∧
      (id ∉ pass.rebuilt ∧ pane.contentDirty = true ∨ Shows B s.theme pane c.key c.verts)
  coherent : ∀ u ∈ pass.reused, stale u.layout.paneId = false → s.CoherentReuse B f u

namespace PanePass

variable {s : RenderState κ Q Θ} {f : Frame κ M} {stale : ℕ → Bool} {pass : PanePass κ Q}

omit [DecidableEq κ] in
theorem Inv.follows (h : pass.Inv B s f stale) {a : GlyphAtlas κ} (ha : a.Follows pass.atlas) :
    { pass with atlas := a }.Inv B s f stale where
  sound := ha.sound h.sound
  fresh id c hc hid := by
    obtain ⟨pane, hpane, hkept, hshows⟩ := h.fresh id c hc hid
    exact ⟨pane, hpane, fun hclean => (hkept (ha.clean hclean)).follows ha hclean, hshows⟩
  coherent := h.coherent

omit [DecidableEq κ] in
theorem cached_some {pass : PanePass κ Q} {layout : PaneLayout} {pane : RenderPane}
    {c : PaneRenderCache κ Q} (h : s.cached B f pass layout pane = some c) :
    pass.atlas.clearedThisFrame = false ∧ pass.paneCache layout.paneId = some c ∧
      pane.contentDirty = false ∧ c.key = s.cacheKey B f layout := by
  unfold RenderState.cached at h
  split_ifs at h with hcleared
  obtain ⟨hc, hvalid⟩ := Option.filter_eq_some_iff.1 h
  simp only [Bool.and_eq_true, Bool.not_eq_true', decide_eq_true_eq] at hvalid
  exact ⟨eq_false_of_ne_true hcleared, hc, hvalid⟩

omit [DecidableEq κ] in
/-- A reuse passes the three tests, so that the vertices are fresh. -/
theorem Inv.reuse (h : pass.Inv B s f stale) {layout : PaneLayout} {pane : RenderPane}
    (hpane : s.panes layout.paneId = some pane) {c : PaneRenderCache κ Q}
    (hc : s.cached B f pass layout pane = some c) :
    { pass with reused := ⟨layout, c.verts, pass.atlas⟩ :: pass.reused }.Inv B s f stale where
  sound := h.sound
  fresh := h.fresh
  coherent u hu hstale := by
    rcases List.mem_cons.1 hu with rfl | hu
    · obtain ⟨hclean, hcached, hdirty, hkey⟩ := cached_some hc
      obtain ⟨pane', hpane', hkept, hshows⟩ := h.fresh _ c hcached (.inl hstale)
      obtain rfl : pane = pane' := Option.some.inj (hpane.symm.trans hpane')
      refine ⟨pane, hpane, ?_, (hkept hclean).heldIn⟩
      rcases hshows with ⟨-, hdirty'⟩ | hshows
      · exact absurd (hdirty.symm.trans hdirty') (by decide)
      · exact hkey ▸ hshows
    · exact h.coherent u hu hstale

theorem Inv.build (h : pass.Inv B s f stale) {layout : PaneLayout} {pane : RenderPane}
    (hpane : s.panes layout.paneId = some pane)
    (hc : s.cached B f pass layout pane = none) :
    (s.drawGrid B evict f pass layout pane).Inv B s f stale := by
  obtain ⟨hfollows, hshape, hkept⟩ := rasterize_spec evict (B.build pane.grid pane.colorOverrides
      (s.view f layout) (f.motion layout.paneId) s.theme) pass.atlas h.sound
  have hpass := h.follows hfollows
  unfold RenderState.drawGrid
  rw [hc]
  refine ⟨hpass.sound, ?_, hpass.coherent⟩
  intro id c hcached hid
  by_cases hlayout : id = layout.paneId
  · subst hlayout
    replace hcached := (Function.update_self (β := fun _ => _) ..).symm.trans hcached
    obtain rfl := Option.some.inj hcached
    exact ⟨pane, hpane, hkept, .inr ⟨f.motion layout.paneId, rfl, hshape⟩⟩
  · replace hcached : pass.paneCache id = some c :=
      (Function.update_of_ne hlayout ..).symm.trans hcached
    have hmem : id ∈ layout.paneId :: pass.rebuilt ↔ id ∈ pass.rebuilt := by
      simp [hlayout]
    obtain ⟨pane', hpane', hkept', hshows⟩ := hpass.fresh id c hcached (hid.imp_right hmem.1)
    exact ⟨pane', hpane', hkept', hshows.imp_left fun hdirty => ⟨mt hmem.1 hdirty.1, hdirty.2⟩⟩

/-- Drawing a pane keeps the invariant. -/
theorem Inv.drawPane (h : pass.Inv B s f stale) (layout : PaneLayout) :
    (s.drawPane B evict f pass layout).Inv B s f stale := by
  unfold RenderState.drawPane
  split
  · exact h
  · next pane hpane =>
    refine Inv.follows ?_ (GlyphAtlas.follows_insertAll evict _ _)
    split_ifs
    · exact h
    · cases hc : s.cached B f pass layout pane with
      | none => exact h.build hpane hc
      | some c =>
        unfold RenderState.drawGrid
        rw [hc]
        exact h.reuse hpane hc

theorem Inv.drawPanes : ∀ (layouts : List PaneLayout) {pass : PanePass κ Q},
    pass.Inv B s f stale → (layouts.foldl (s.drawPane B evict f) pass).Inv B s f stale
  | [], _, h => h
  | layout :: layouts, _, h => Inv.drawPanes layouts (h.drawPane layout)

end PanePass

/-- **The pane pass of a client that holds stale and fresh vertices only.** -/
theorem Tracked.Inv.panePass {t : Tracked κ Q Θ} (h : t.Inv B) (evict : Eviction κ)
    (f : Frame κ M) :
    (t.client.panePass B evict f).Inv B t.client f t.stale := by
  have hstart : PanePass.Inv B t.client f t.stale
      ⟨{ t.client.atlas with clearedThisFrame := false }, t.client.paneCache, [], []⟩ := by
    refine ⟨h.sound, ?_, fun _ hu => nomatch hu⟩
    intro id c hc hid
    rcases hid with hid | hid
    · obtain ⟨pane, hpane, hkept, hshows⟩ := h.fresh id c hc hid
      exact ⟨pane, hpane, fun _ => hkept, hshows.imp_left fun hdirty => ⟨List.not_mem_nil, hdirty⟩⟩
    · cases hid
  unfold RenderState.panePass
  dsimp only
  split_ifs
  · exact hstart.follows (GlyphAtlas.follows_insertAll evict _ _)
  · exact hstart.drawPanes _

/-! ## Runs -/

/-- **What an operation does to the grid of a pane shows in the dirty flag.** -/
theorem PaneState.step_dirty {paneId : ℕ} {pane pane' : PaneState} {op : PaneOp}
    (h : pane.step paneId op = some pane') :
    pane'.contentDirty = true ∨
      pane'.contentDirty = pane.contentDirty ∧ pane'.grid = pane.grid := by
  cases op with
  | fullRefresh grid =>
    obtain rfl := Option.some.inj h
    exact .inl rfl
  | gridDiff dirtyRows cursorCol cursorRow =>
    obtain ⟨pane₁, -, h⟩ := Option.bind_eq_some_iff.1 h
    obtain rfl := Option.some.inj h
    exact .inl rfl
  | semanticMark kind exitCode =>
    obtain rfl := Option.some.inj h
    right
    unfold semanticMark
    dsimp only
    split_ifs <;> split <;> exact ⟨rfl, rfl⟩
  | toggleBlockCollapse id =>
    obtain rfl := Option.some.inj h
    unfold toggleBlockCollapseById
    split
    · exact .inr ⟨rfl, rfl⟩
    · split_ifs
      · exact .inr ⟨rfl, rfl⟩
      · exact .inl rfl

section

variable {s : RenderState κ Q Θ} {id : ℕ} {c : PaneRenderCache κ Q}

omit [DecidableEq κ] in
/-- Fresh vertices stay so if the pane changes in what the builder does not read, or gets dirty. -/
theorem Fresh.of_pane {s' : RenderState κ Q Θ} (h : Fresh B s id c) (hatlas : s'.atlas = s.atlas)
    (htheme : s'.theme = s.theme)
    (hpane : ∀ pane, s.panes id = some pane → ∃ pane', s'.panes id = some pane' ∧
      (pane'.contentDirty = true ∨ pane'.contentDirty = pane.contentDirty ∧
        pane'.grid = pane.grid ∧ pane'.colorOverrides = pane.colorOverrides)) :
    Fresh B s' id c := by
  obtain ⟨pane, hsome, hkept, hshows⟩ := h
  obtain ⟨pane', hsome', hpane'⟩ := hpane pane hsome
  refine ⟨pane', hsome', hatlas ▸ hkept, ?_⟩
  rcases hpane' with hdirty' | ⟨hdirty', hgrid, hoverrides⟩
  · exact .inl hdirty'
  · refine hshows.imp (hdirty' ▸ ·) ?_
    rintro ⟨motion, hmotion, hshape⟩
    refine ⟨motion, hmotion, ?_⟩
    rw [hshape, htheme]
    unfold GridBuilder.shape
    rw [hgrid, hoverrides]

omit [DecidableEq κ] in
/-- Changing one pane. -/
theorem Fresh.update {s' : RenderState κ Q Θ} (h : Fresh B s id c) (hatlas : s'.atlas = s.atlas)
    (htheme : s'.theme = s.theme) {id' : ℕ} {pane' : Option RenderPane}
    (hpanes : s'.panes = Function.update s.panes id' pane')
    (hpane : ∀ pane, s.panes id' = some pane → ∃ pane'', pane' = some pane'' ∧
      (pane''.contentDirty = true ∨ pane''.contentDirty = pane.contentDirty ∧
        pane''.grid = pane.grid ∧ pane''.colorOverrides = pane.colorOverrides)) :
    Fresh B s' id c := by
  refine h.of_pane hatlas htheme ?_
  intro pane hsome
  rw [hpanes]
  by_cases hid : id = id'
  · subst hid
    rw [Function.update_self]
    exact hpane pane hsome
  · rw [Function.update_of_ne hid]
    exact ⟨pane, hsome, .inr ⟨rfl, rfl, rfl⟩⟩

omit [DecidableEq κ] in
theorem Fresh.modifyPane (h : Fresh B s id c) (id' : ℕ) {g : RenderPane → RenderPane}
    (hg : ∀ pane, (g pane).contentDirty = true ∨ (g pane).contentDirty = pane.contentDirty ∧
      (g pane).grid = pane.grid ∧ (g pane).colorOverrides = pane.colorOverrides) :
    Fresh B (s.modifyPane id' g) id c := by
  refine h.update rfl rfl rfl ?_
  intro pane hsome
  exact ⟨g pane, congrArg (Option.map g) hsome, hg pane⟩

omit [DecidableEq κ] in
theorem Fresh.applyPaneOp (h : Fresh B s id c) {id' : ℕ} {op : PaneOp} {s' : RenderState κ Q Θ}
    (hs' : s.applyPaneOp id' op = some s') : Fresh B s' id c := by
  unfold RenderState.applyPaneOp at hs'
  split at hs'
  · obtain rfl := Option.some.inj hs'
    exact h
  · next pane hfor =>
    obtain ⟨pane', hstep, hs'⟩ := Option.bind_eq_some_iff.1 hs'
    obtain rfl := Option.some.inj hs'
    refine h.update rfl rfl rfl ?_
    intro pane₁ hsome
    have hsame : s.paneFor id' op = some pane₁ := by
      unfold RenderState.paneFor
      rw [hsome]
    obtain rfl : pane = pane₁ := Option.some.inj (hfor.symm.trans hsame)
    exact ⟨_, rfl, (PaneState.step_dirty hstep).imp_right fun hgrid => ⟨hgrid.1, hgrid.2, rfl⟩⟩

omit [DecidableEq κ] in
theorem applyPaneOp_renderer {id' : ℕ} {op : PaneOp} {s' : RenderState κ Q Θ}
    (h : s.applyPaneOp id' op = some s') : s'.paneCache = s.paneCache ∧ s'.atlas = s.atlas := by
  unfold RenderState.applyPaneOp at h
  split at h
  · obtain rfl := Option.some.inj h
    exact ⟨rfl, rfl⟩
  · obtain ⟨pane', -, h⟩ := Option.bind_eq_some_iff.1 h
    obtain rfl := Option.some.inj h
    exact ⟨rfl, rfl⟩

end

namespace Tracked

variable {t t' : Tracked κ Q Θ}

omit [DecidableEq κ] in
/-- What leaves the renderer alone and keeps fresh vertices fresh keeps the invariant. -/
theorem Inv.keep (h : t.Inv B) {client : RenderState κ Q Θ}
    (hcache : client.paneCache = t.client.paneCache) (hatlas : client.atlas = t.client.atlas)
    (hfresh : ∀ id c, Fresh B t.client id c → Fresh B client id c) :
    Inv B ⟨client, t.stale⟩ where
  sound := by
    show client.atlas.Sound
    rw [hatlas]
    exact h.sound
  fresh id c hc hid := by
    replace hc : client.paneCache id = some c := hc
    rw [hcache] at hc
    exact hfresh id c (h.fresh id c hc hid)

/-- A frame leaves stale and fresh vertices behind. -/
theorem Inv.render [DecidableEq Θ] (h : t.Inv B) (f : Frame κ M) :
    Inv B ⟨(t.client.render B evict f).growAtlas, t.staleAfter B evict (.frame f)⟩ := by
  have hpass := h.panePass evict f
  have hoverlays := GlyphAtlas.follows_insertAll evict f.overlays
    (t.client.panePass B evict f).atlas
  have hsound : (t.client.render B evict f).atlas.Sound := hoverlays.sound hpass.sound
  constructor
  · show (ite _ _ _ : GlyphAtlas κ).Sound
    split_ifs
    · exact fun _ he => nomatch he
    · exact hsound
  · intro id c hc hid
    unfold staleAfter at hid
    simp only [Bool.or_eq_false_iff, Bool.and_eq_false_iff, Bool.not_eq_false',
      List.contains_iff_mem] at hid
    obtain ⟨⟨hbuilt, hclean⟩, hgrow⟩ := hid
    have hcleanPass := hoverlays.clean hclean
    replace hc : (ite _ _ _ : ℕ → Option _) id = some c := hc
    rw [hcleanPass, if_neg Bool.false_ne_true] at hc
    obtain ⟨pane, hpane, hkept, hshows⟩ := hpass.fresh id c hc (hbuilt.symm.imp_left And.left)
    refine ⟨{ pane with contentDirty := false }, congrArg (Option.map _) hpane, ?_, .inr ?_⟩
    · show KeptIn (ite _ _ _) c.verts
      rw [hgrow, if_neg Bool.false_ne_true]
      exact (hkept hcleanPass).follows hoverlays hclean
    · rcases hshows with ⟨hunbuilt, hdirty⟩ | hshows
      · obtain ⟨-, hany⟩ := hbuilt.resolve_left hunbuilt
        rw [hpane] at hany
        exact absurd (hdirty.symm.trans hany) (by decide)
      · exact hshows

/-- **The invariant of a step.** -/
theorem Inv.step [DecidableEq Θ] (h : t.Inv B) {op : RenderOp κ Θ M}
    (hstep : t.step B evict op = some t') : t'.Inv B := by
  obtain ⟨client, hclient, ht'⟩ := Option.bind_eq_some_iff.1 hstep
  obtain rfl := Option.some.inj ht'
  cases op with
  | pane id op =>
    obtain ⟨hcache, hatlas⟩ := applyPaneOp_renderer hclient
    exact h.keep hcache hatlas fun _ _ hfresh => hfresh.applyPaneOp hclient
  | paneColorsChanged id overrides =>
    obtain rfl := Option.some.inj hclient
    exact h.keep rfl rfl fun _ _ hfresh => hfresh.modifyPane id fun _ => .inl rfl
  | layoutChanged layouts id =>
    obtain rfl := Option.some.inj hclient
    exact h.keep rfl rfl fun _ _ hfresh => hfresh
  | focusPane id =>
    obtain rfl := Option.some.inj hclient
    exact h.keep rfl rfl fun _ _ hfresh => hfresh
  | scrollTo offset =>
    obtain rfl := Option.some.inj hclient
    unfold RenderState.scrollTo
    split
    · exact h
    · exact h.keep rfl rfl fun _ _ hfresh =>
        hfresh.modifyPane _ fun _ => .inr ⟨rfl, rfl, rfl⟩
  | setConfig theme capacity =>
    obtain rfl := Option.some.inj hclient
    refine ⟨h.sound, ?_⟩
    intro id c hc hid
    obtain ⟨hstale, htheme⟩ := Bool.or_eq_false_iff.1 hid
    obtain rfl : theme = t.client.theme := not_not.1 (of_decide_eq_false htheme)
    exact h.fresh id c hc hstale
  | setCapacity id newCapacity =>
    unfold RenderState.step RenderState.setCapacity at hclient
    dsimp only at hclient
    split at hclient
    · obtain rfl := Option.some.inj hclient
      exact h
    · obtain ⟨scrollback, -, hclient⟩ := Option.bind_eq_some_iff.1 hclient
      obtain rfl := Option.some.inj hclient
      exact h.keep rfl rfl fun _ _ hfresh =>
        hfresh.modifyPane id fun _ => .inr ⟨rfl, rfl, rfl⟩
  | setFont theme size sizeMax preload =>
    obtain rfl := Option.some.inj hclient
    refine ⟨?_, fun id c hc hid => nomatch hid⟩
    exact (GlyphAtlas.follows_insertAll evict preload _).sound (GlyphAtlas.sound_withSize _ _)
  | lostFrame =>
    obtain rfl := Option.some.inj hclient
    constructor
    · show (ite _ _ _ : GlyphAtlas κ).Sound
      split_ifs
      · exact fun _ he => nomatch he
      · exact h.sound
    · intro id c hc hid
      obtain ⟨hstale, hgrow⟩ := Bool.or_eq_false_iff.1 hid
      obtain ⟨pane, hpane, hkept, hshows⟩ := h.fresh id c hc hstale
      refine ⟨pane, hpane, ?_, hshows⟩
      show KeptIn (ite _ _ _) c.verts
      rw [hgrow, if_neg Bool.false_ne_true]
      exact hkept
  | frame f =>
    obtain rfl := Option.some.inj hclient
    exact h.render f

end Tracked

/-- A client that has just started, with glyphs in its atlas. -/
def RenderState.new (evict : Eviction κ) (theme : Θ) (scrollbackCapacity size sizeMax : ℕ)
    (preload : List (GlyphRequest κ)) : RenderState κ Q Θ where
  panes := fun _ => none
  scrollbackCapacity := scrollbackCapacity
  paneLayouts := ⟨[], List.nodup_nil⟩
  focusedPaneId := none
  theme := theme
  atlas := (GlyphAtlas.withSize size sizeMax).insertAll evict preload
  paneCache := fun _ => none

namespace Tracked

/-- A client that has just started has no stale panes. -/
def new (evict : Eviction κ) (theme : Θ) (scrollbackCapacity size sizeMax : ℕ)
    (preload : List (GlyphRequest κ)) : Tracked κ Q Θ :=
  ⟨.new evict theme scrollbackCapacity size sizeMax preload, fun _ => false⟩

theorem inv_new (theme : Θ) (scrollbackCapacity size sizeMax : ℕ)
    (preload : List (GlyphRequest κ)) :
    (new evict theme scrollbackCapacity size sizeMax preload : Tracked κ Q Θ).Inv B where
  sound := (GlyphAtlas.follows_insertAll evict preload _).sound (GlyphAtlas.sound_withSize _ _)
  fresh _ _ hc _ := nomatch hc

theorem coherent_of_inv (t : Option (Tracked κ Q Θ)) (op : RenderOp κ Θ M)
    (h : ∀ t', t = some t' → t'.Inv B) (hreuse : NoStaleReuse B evict t op) :
    RenderState.Coherent B evict (t.map client) op := by
  cases op with
  | frame f =>
    intro s hs u hu
    obtain ⟨t', rfl, rfl⟩ := Option.map_eq_some_iff.1 hs
    exact ((h t' rfl).panePass evict f).coherent u hu (hreuse t' rfl u hu)
  | _ => trivial

theorem noStaleReuse_frame {t : Option (Tracked κ Q Θ)} {f : Frame κ M}
    (h : (t.all fun t => (t.client.panePass B evict f).reused.all fun u =>
      !t.stale u.layout.paneId) = true) : NoStaleReuse B evict t (.frame f) := by
  rintro t rfl u hu
  simpa using List.all_eq_true.1 h u hu

variable [DecidableEq Θ]

/-- The invariant of a client that may have panicked. -/
theorem inv_stepOrPanic (t : Option (Tracked κ Q Θ)) (op : RenderOp κ Θ M)
    (h : ∀ t', t = some t' → t'.Inv B) :
    ∀ t', stepOrPanic B evict t op = some t' → t'.Inv B := by
  intro t' ht'
  obtain ⟨t₀, ht₀, hstep⟩ := Option.bind_eq_some_iff.1 ht'
  exact (h t₀ ht₀).step hstep

theorem client_stepOrPanic (t : Option (Tracked κ Q Θ)) (op : RenderOp κ Θ M) :
    (stepOrPanic B evict t op).map client =
      RenderState.stepOrPanic B evict (t.map client) op := by
  cases t with
  | none => rfl
  | some t =>
    show ((t.client.step B evict op).bind _).map client = t.client.step B evict op
    cases t.client.step B evict op <;> rfl

end Tracked

/-! ## The renderer -/

/-- The vertex builder of the grid; `quantize` rounds the animations. -/
def Rasterizer.builder {P C : Type} (R : Rasterizer P C Θ M) (quantize : M → Quantized) :
    GridBuilder AtlasKey (P × C) Θ M :=
  ⟨quantize, R.buildGridVertsInRect⟩

/-- **The render cache is coherent as long as no frame reuses the vertices of a stale pane**: of
    one that a frame has left undrawn while it was dirty, or that was drawn before the palette,
    the tokens or the atlas were replaced. -/
theorem coherent_of_noStaleReuse {P C : Type} [DecidableEq Θ] (R : Rasterizer P C Θ M)
    (quantize : M → Quantized) (evict : Eviction AtlasKey) (theme : Θ)
    (scrollbackCapacity size sizeMax : ℕ) (preload : List (GlyphRequest AtlasKey))
    (ops : List (RenderOp AtlasKey Θ M))
    (h : Runs.Along (Tracked.stepOrPanic (R.builder quantize) evict)
      (Tracked.NoStaleReuse (R.builder quantize) evict)
      (some (.new evict theme scrollbackCapacity size sizeMax preload)) ops) :
    Runs.Along (RenderState.stepOrPanic (R.builder quantize) evict)
      (RenderState.Coherent (R.builder quantize) evict)
      (some (.new evict theme scrollbackCapacity size sizeMax preload)) ops := by
  have hinv : ∀ t', some (Tracked.new (Q := P × C) evict theme scrollbackCapacity size sizeMax
      preload) = some t' → t'.Inv (R.builder quantize) := by
    rintro t' ht'
    obtain rfl := Option.some.inj ht'
    exact Tracked.inv_new theme scrollbackCapacity size sizeMax preload
  have hcoherent := h.imp_of_inv Tracked.inv_stepOrPanic Tracked.coherent_of_inv hinv
  exact hcoherent.forget (f := Option.map Tracked.client) Tracked.client_stepOrPanic

namespace RenderState

/-- A screen of characters: every bitmap is one texel, and a cell has the colour that it asks
    for. -/
def cellRasterizer : Rasterizer (ℕ × ℕ) Nexterm.Vt.Color Unit Unit where
  cellRect _ col row := (col, row)
  glyphRect _ col row _ := (col, row)
  cursorRect view _ := (view.colOffset, view.rowOffset)
  rgb c := .rgb c.1 c.2.1 c.2.2
  resolveColor _ color _ := color
  transformCell _ _ _ color := color
  selectionColor _ := .indexed 4
  cursorColor _ _ := .indexed 7
  isWide _ := false
  rasterizeChar _ _ _ _ _ _ := (1, 1)

/-- No animation is under way. -/
def atRest (_ : Unit) : Quantized := ⟨(0, 0), 0⟩

/-- The caches are large enough. -/
def keepAll : Eviction AtlasKey := ⟨id, fun _ => List.Subset.refl _⟩

def oneCell (ch : Char) : Grid := { Grid.new 1 1 with rows := [[{ ch := ch }]] }

/-- Two panes, side by side. -/
def bothPanes : PaneLayouts := ⟨[⟨1, 0, 0, 1, 1⟩, ⟨2, 2, 0, 1, 1⟩], by decide⟩

/-- The first pane is zoomed. -/
def firstPane : PaneLayouts := ⟨[⟨1, 0, 0, 3, 1⟩], by decide⟩

def plainFrame : Frame AtlasKey Unit where
  swBits := 0
  shBits := 0
  cellWBits := 0
  cellHBits := 0
  gridOffsetYBits := 0
  cursorStyle := .block
  cursorVisible := true
  mouseSel := ⟨false, (0, 0), (0, 0)⟩
  motion _ := ()
  extras _ := []
  fallback := []
  overlays := []

/-- The panes that are reused show their cells. -/
def showsCells (client : Option (RenderState AtlasKey ((ℕ × ℕ) × Nexterm.Vt.Color) Unit)) : Bool :=
  client.all fun s => (s.panePass (cellRasterizer.builder atRest) keepAll plainFrame).reused.all
    fun u => (s.panes u.layout.paneId).any fun pane => u.verts.shape =
      (cellRasterizer.builder atRest).shape pane (s.view plainFrame u.layout) () ()

theorem showsCells_of_coherent
    {client : Option (RenderState AtlasKey ((ℕ × ℕ) × Nexterm.Vt.Color) Unit)}
    (h : Coherent (cellRasterizer.builder atRest) keepAll client (.frame plainFrame)) :
    showsCells client = true := by
  cases client with
  | none => rfl
  | some s =>
    refine List.all_eq_true.2 fun u hu => ?_
    obtain ⟨pane, hpane, ⟨motion, -, hshape⟩, -⟩ := h s rfl u hu
    rw [hpane]
    exact decide_eq_true hshape

/-- Two panes are drawn twice. -/
def drawTwice : List (RenderOp AtlasKey Unit Unit) :=
  [.pane 1 (.fullRefresh (oneCell 'a')), .pane 2 (.fullRefresh (oneCell 'b')),
    .layoutChanged bothPanes 1, .frame plainFrame, .frame plainFrame]

/-- The second pane prints while the first one is zoomed. -/
def printHidden : List (RenderOp AtlasKey Unit Unit) :=
  [.layoutChanged firstPane 1, .pane 2 (.gridDiff [⟨0, [{ ch := 'c' }]⟩] 0 0), .frame plainFrame,
    .layoutChanged bothPanes 1, .frame plainFrame]

end RenderState

open RenderState in
theorem coherent_drawTwice :
    Runs.Along (stepOrPanic (cellRasterizer.builder atRest) keepAll)
      (Coherent (cellRasterizer.builder atRest) keepAll)
      (some (.new keepAll () 100 64 64 [])) drawTwice :=
  coherent_of_noStaleReuse cellRasterizer atRest keepAll () 100 64 64 [] drawTwice
    ⟨trivial, trivial, trivial, Tracked.noStaleReuse_frame (by decide +kernel),
      Tracked.noStaleReuse_frame (by decide +kernel), trivial⟩

open RenderState in
/-- A frame in which a pane is hidden resets its dirty flag: when the pane comes back, it shows
    what it had before. -/
theorem not_coherent_printHidden :
    ¬Runs.Along (stepOrPanic (cellRasterizer.builder atRest) keepAll)
      (Coherent (cellRasterizer.builder atRest) keepAll)
      (some (.new keepAll () 100 64 64 [])) (drawTwice ++ printHidden) := by
  rintro ⟨-, -, -, -, -, -, -, -, -, hframe, -⟩
  exact absurd (showsCells_of_coherent hframe) (by decide +kernel)

end Nexterm.Client

/-
  The glyph atlas (`glyph_atlas.rs`): glyphs are written into one texture, shelf by shelf.

  * `GlyphAtlas.getOrInsert`: the rectangle of a glyph, written at the cursor if it is not cached;
    a full atlas starts again at the origin.
  * `Holds`: no later write has touched the rectangle of a glyph.
  * `Kept`: moreover the cursor has passed it, so that no write before the next reset will.
  * `Sound.getOrInsert`, `follows_insertAll`: what is cached is kept, and what is kept stays so
    until the atlas is reset.

  A rectangle is in texels, and carries the size that its coordinates are divided by.  The
  texture is the list of the writes, the last one first.  The caches of glyphs and of ligatures
  are one list, the most recently used entry first, and `evict` is what they drop.
-/
import Mathlib.Data.List.Basic
import Mathlib.Tactic.Common

namespace Nexterm.Client

/-- The place of a glyph in an atlas of size `scale`. -/
structure GlyphRect where
  x : ℕ
  y : ℕ
  width : ℕ
  height : ℕ
  scale : ℕ
  deriving DecidableEq

/-- A glyph that is asked for, with the size of its bitmap. -/
structure GlyphRequest (κ : Type) where
  key : κ
  width : ℕ
  height : ℕ

/-- What is left of a cache once it has dropped entries. -/
structure Eviction (κ : Type) where
  keep : List (κ × GlyphRect) → List (κ × GlyphRect)
  subset : ∀ entries, keep entries ⊆ entries

/-- Glyph atlas (packs every glyph into a single texture). -/
structure GlyphAtlas (κ : Type) where
  size : ℕ
  sizeMax : ℕ
  /-- Next column to write to. -/
  cursorX : ℕ
  /-- Y coordinate of the current shelf. -/
  cursorY : ℕ
  /-- Maximum height in the current shelf. -/
  rowHeight : ℕ
  cache : List (κ × GlyphRect)
  /-- The atlas was reset within this frame. -/
  clearedThisFrame : Bool
  needsGrow : Bool
  texture : List (κ × GlyphRect)

namespace GlyphAtlas

variable {κ : Type} [DecidableEq κ]

def withSize (size sizeMax : ℕ) : GlyphAtlas κ := ⟨size, sizeMax, 0, 0, 0, [], false, false, []⟩

/-- Grow the atlas: a fresh one of twice the size. -/
def grow (a : GlyphAtlas κ) : GlyphAtlas κ :=
  { withSize (min (a.size * 2) a.sizeMax) a.sizeMax with clearedThisFrame := true }

/-- Go on to the next shelf if the glyph does not fit at the cursor. -/
def wrap (a : GlyphAtlas κ) (width : ℕ) : GlyphAtlas κ :=
  if a.cursorX + width > a.size then
    { a with cursorX := 0, cursorY := a.cursorY + (a.rowHeight + 1), rowHeight := 0 }
  else a

/-- Start again at the origin if the glyph does not fit below the cursor. -/
def makeRoom (a : GlyphAtlas κ) (height : ℕ) : GlyphAtlas κ :=
  if a.cursorY + height > a.size then
    { a with
      cursorX := 0
      cursorY := 0
      rowHeight := 0
      cache := []
      clearedThisFrame := true
      needsGrow := a.needsGrow || a.size < a.sizeMax }
  else a

/-- Write a glyph at the cursor. -/
def write (evict : Eviction κ) (a : GlyphAtlas κ) (r : GlyphRequest κ) :
    GlyphRect × GlyphAtlas κ :=
  let rect : GlyphRect := ⟨a.cursorX, a.cursorY, r.width, r.height, a.size⟩
  (rect, { a with
    cursorX := a.cursorX + (r.width + 1)
    rowHeight := max a.rowHeight r.height
    cache := evict.keep ((r.key, rect) :: a.cache)
    texture := (r.key, rect) :: a.texture })

/-- Move an entry of the cache to the front. -/
def promote (a : GlyphAtlas κ) (key : κ) (rect : GlyphRect) : GlyphAtlas κ :=
  { a with cache := (key, rect) :: a.cache.filter (·.1 ≠ key) }

/-- Add a glyph to the atlas (returns the existing entry when cached). -/
def getOrInsert (evict : Eviction κ) (a : GlyphAtlas κ) (r : GlyphRequest κ) :
    GlyphRect × GlyphAtlas κ :=
  match a.cache.lookup r.key with
  | some rect => (rect, a.promote r.key rect)
  | none => ((a.wrap r.width).makeRoom r.height).write evict r

/-- Add several glyphs. -/
def insertAll (evict : Eviction κ) (a : GlyphAtlas κ) (rs : List (GlyphRequest κ)) :
    GlyphAtlas κ :=
  rs.foldl (fun a r => (a.getOrInsert evict r).2) a

/-! ## Rectangles that hold their glyph -/

/-- Two rectangles have a texel in common. -/
def Overlaps (r r' : GlyphRect) : Prop :=
  (r.x < r'.x + r'.width ∧ r'.x < r.x + r.width) ∧ r.y < r'.y + r'.height ∧ r'.y < r.y + r.height

instance (r r' : GlyphRect) : Decidable (Overlaps r r') := inferInstanceAs (Decidable (_ ∧ _))

/-- The glyph has been written to the rectangle, and nothing has been written over it since. -/
def Holds (a : GlyphAtlas κ) (key : κ) (rect : GlyphRect) : Prop :=
  ∃ later earlier, a.texture = later ++ (key, rect) :: earlier ∧ ∀ e ∈ later, ¬Overlaps e.2 rect

/-- The rectangle lies on an earlier shelf, or before the cursor on this one. -/
def Passed (a : GlyphAtlas κ) (rect : GlyphRect) : Prop :=
  rect.y + rect.height ≤ a.cursorY ∨
    rect.y = a.cursorY ∧ rect.x + rect.width ≤ a.cursorX ∧ rect.height ≤ a.rowHeight

/-- The glyph is in its rectangle, and will be until the next reset. -/
def Kept (a : GlyphAtlas κ) (key : κ) (rect : GlyphRect) : Prop := a.Holds key rect ∧ a.Passed rect

/-- The cached glyphs are kept. -/
def Sound (a : GlyphAtlas κ) : Prop := ∀ e ∈ a.cache, a.Kept e.1 e.2

variable {a : GlyphAtlas κ} {evict : Eviction κ} {r : GlyphRequest κ} {key : κ} {rect : GlyphRect}

omit [DecidableEq κ] in
theorem Kept.wrap (h : a.Kept key rect) (width : ℕ) : (a.wrap width).Kept key rect := by
  unfold GlyphAtlas.wrap
  split_ifs
  · refine ⟨h.1, .inl ?_⟩
    show rect.y + rect.height ≤ a.cursorY + (a.rowHeight + 1)
    rcases h.2 with h | ⟨hy, -, hheight⟩ <;> omega
  · exact h

omit [DecidableEq κ] in
/-- A write does not touch what the cursor has passed. -/
theorem Kept.write (h : a.Kept key rect) (evict : Eviction κ) (r : GlyphRequest κ) :
    (a.write evict r).2.Kept key rect := by
  obtain ⟨⟨later, earlier, htexture, hlater⟩, hpassed⟩ := h
  constructor
  · refine ⟨(r.key, ⟨a.cursorX, a.cursorY, r.width, r.height, a.size⟩) :: later, earlier, ?_, ?_⟩
    · exact congrArg (List.cons _) htexture
    · intro e he
      rcases List.mem_cons.1 he with rfl | he
      · rintro ⟨⟨hx, -⟩, hy, -⟩
        dsimp only at hx hy
        rcases hpassed with hpassed | ⟨-, hpassed, -⟩ <;> omega
      · exact hlater e he
  · rcases hpassed with hpassed | ⟨hy, hx, hheight⟩
    · exact .inl hpassed
    · refine .inr ⟨hy, ?_, ?_⟩
      · show rect.x + rect.width ≤ a.cursorX + (r.width + 1)
        omega
      · exact Nat.le_trans hheight (Nat.le_max_left _ _)

omit [DecidableEq κ] in
theorem kept_write (evict : Eviction κ) (a : GlyphAtlas κ) (r : GlyphRequest κ) :
    (a.write evict r).2.Kept r.key (a.write evict r).1 := by
  refine ⟨⟨[], a.texture, rfl, fun e he => nomatch he⟩, .inr ⟨rfl, ?_, Nat.le_max_right _ _⟩⟩
  show a.cursorX + r.width ≤ a.cursorX + (r.width + 1)
  omega

omit [DecidableEq κ] in
theorem Sound.write (h : a.Sound) (evict : Eviction κ) (r : GlyphRequest κ) :
    (a.write evict r).2.Sound := by
  intro e he
  rcases List.mem_cons.1 (evict.subset _ he) with rfl | he
  · exact kept_write evict a r
  · exact (h e he).write evict r

omit [DecidableEq κ] in
theorem makeRoom_cases (a : GlyphAtlas κ) (height : ℕ) :
    a.makeRoom height = a ∨
      (a.makeRoom height).clearedThisFrame = true ∧ (a.makeRoom height).cache = [] := by
  unfold makeRoom
  split_ifs
  · exact .inr ⟨rfl, rfl⟩
  · exact .inl rfl

omit [DecidableEq κ] in
theorem Sound.prepare (h : a.Sound) (width height : ℕ) :
    ((a.wrap width).makeRoom height).Sound := by
  have hwrap : (a.wrap width).Sound := by
    have hcache : (a.wrap width).cache = a.cache := by
      unfold GlyphAtlas.wrap
      split_ifs <;> rfl
    intro e he
    exact (h e (hcache ▸ he)).wrap width
  obtain hsame | ⟨-, hcache⟩ := (a.wrap width).makeRoom_cases height
  · rw [hsame]
    exact hwrap
  · intro e he
    rw [hcache] at he
    cases he

theorem lookup_mem {entries : List (κ × GlyphRect)} (h : entries.lookup key = some rect) :
    (key, rect) ∈ entries := by
  induction entries with
  | nil => cases h
  | cons e entries ih =>
    rw [List.lookup_cons] at h
    split at h
    · next heq =>
      obtain rfl := Option.some.inj h
      rw [beq_iff_eq.1 heq]
      exact List.mem_cons_self
    · exact List.mem_cons_of_mem _ (ih h)

/-- **What the atlas hands out is in the texture**, and its cache stays sound. -/
theorem Sound.getOrInsert (h : a.Sound) (evict : Eviction κ) (r : GlyphRequest κ) :
    (a.getOrInsert evict r).2.Sound ∧
      (a.getOrInsert evict r).2.Kept r.key (a.getOrInsert evict r).1 := by
  unfold GlyphAtlas.getOrInsert
  split
  · next rect hlookup =>
    have hkept : a.Kept r.key rect := h _ (lookup_mem hlookup)
    refine ⟨?_, hkept⟩
    intro e he
    rcases List.mem_cons.1 he with rfl | he
    · exact hkept
    · exact h e (List.mem_of_mem_filter he)
  · exact ⟨(h.prepare r.width r.height).write evict r, kept_write evict _ r⟩

/-- A reset shows in the flag, which stays set. -/
theorem cleared_getOrInsert (h : a.clearedThisFrame = true) (evict : Eviction κ)
    (r : GlyphRequest κ) : (a.getOrInsert evict r).2.clearedThisFrame = true := by
  unfold getOrInsert
  split
  · exact h
  · show ((a.wrap r.width).makeRoom r.height).clearedThisFrame = true
    obtain hsame | ⟨hcleared, -⟩ := (a.wrap r.width).makeRoom_cases r.height
    · rw [hsame]
      unfold wrap
      split_ifs <;> exact h
    · exact hcleared

/-- Without a reset, what is kept stays so. -/
theorem Kept.getOrInsert (h : a.Kept key rect)
    (hclean : (a.getOrInsert evict r).2.clearedThisFrame = false) :
    (a.getOrInsert evict r).2.Kept key rect := by
  unfold GlyphAtlas.getOrInsert at hclean ⊢
  split
  · exact h
  · next hlookup =>
    rw [hlookup] at hclean
    obtain hsame | ⟨hcleared, -⟩ := (a.wrap r.width).makeRoom_cases r.height
    · rw [hsame]
      exact (h.wrap r.width).write evict r
    · exact absurd (hcleared.symm.trans hclean) (by decide)

/-! ## Several glyphs -/

/-- `a'` comes after `a`: a reset in between shows in the flag, and without one nothing is lost. -/
structure Follows (a' a : GlyphAtlas κ) : Prop where
  sound : a.Sound → a'.Sound
  clean : a'.clearedThisFrame = false → a.clearedThisFrame = false
  kept : a'.clearedThisFrame = false → ∀ key rect, a.Kept key rect → a'.Kept key rect

omit [DecidableEq κ] in
theorem Follows.refl (a : GlyphAtlas κ) : a.Follows a := ⟨id, id, fun _ _ _ => id⟩

omit [DecidableEq κ] in
theorem Follows.trans {a b c : GlyphAtlas κ} (hc : c.Follows b) (hb : b.Follows a) :
    c.Follows a where
  sound h := hc.sound (hb.sound h)
  clean h := hb.clean (hc.clean h)
  kept h key rect hkept := hc.kept h key rect (hb.kept (hc.clean h) key rect hkept)

theorem follows_getOrInsert (evict : Eviction κ) (a : GlyphAtlas κ) (r : GlyphRequest κ) :
    (a.getOrInsert evict r).2.Follows a where
  sound h := (h.getOrInsert evict r).1
  clean h := by
    by_contra hcleared
    rw [cleared_getOrInsert (eq_true_of_ne_false hcleared) evict r] at h
    cases h
  kept hclean _ _ h := h.getOrInsert hclean

theorem follows_insertAll (evict : Eviction κ) : ∀ (rs : List (GlyphRequest κ))
    (a : GlyphAtlas κ), (a.insertAll evict rs).Follows a
  | [], a => .refl a
  | r :: rs, a => (follows_insertAll evict rs _).trans (follows_getOrInsert evict a r)

omit [DecidableEq κ] in
theorem sound_withSize (size sizeMax : ℕ) : (withSize size sizeMax : GlyphAtlas κ).Sound :=
  fun _ he => nomatch he

end GlyphAtlas

end Nexterm.Client

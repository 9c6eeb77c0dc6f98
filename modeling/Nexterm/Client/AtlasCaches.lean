/-
  The two caches of the glyph atlas (`glyph_atlas.rs`), with their capacities and area tallies.

  * `insertWithAreaBudget`, `Atlas.getOrInsert`, `getOrInsertLigature`, `updateCapacityHint`,
    `grow`: the code.
  * `Atlas.shelves`: the texture and what both caches hold of it, as in `GlyphAtlas.lean`.
  * `packed_disjoint`: the cached glyphs are apart, inside the texture, and still in it.
  * `accounted_iff`: when the tallies are the areas of the cached glyphs.

  Sizes and areas are natural numbers: a texture that a device can have is far below 2^31 texels
  wide.  The queue and the texture are the list of the writes.
-/
import Nexterm.Client.GlyphAtlas
import Nexterm.Lib.Lru
import Nexterm.Lib.Runs

namespace Nexterm.Client

variable {κ ι : Type} [DecidableEq κ] [DecidableEq ι]

/-! ## The code -/

/-- Area reserved for the chrome icons: 18 of them, in three sizes of up to 24 pixels. -/
def iconReservedArea : ℕ := 18 * 3 * 24 * 24

/-- Pixel area of a cached glyph. -/
def rectArea (rect : GlyphRect) : ℕ := rect.width * rect.height

/-- Drop the least recently used entries while the tally is beyond the budget, but not the last
    entry.  `fuel` is the number of entries. -/
def evictBeyond (budget : ℕ) : ℕ → ℕ → Lru κ GlyphRect → ℕ × Lru κ GlyphRect
  | 0, area, cache => (area, cache)
  | fuel + 1, area, cache =>
    if area > budget ∧ cache.len > 1 then
      match cache.popLru with
      | (some evicted, cache) => evictBeyond budget fuel (area - rectArea evicted.2) cache
      | (none, cache) => (area, cache)
    else (area, cache)

/-- Insert an entry while keeping the tally of the area, and evict beyond the budget. -/
def insertWithAreaBudget (cache : Lru κ GlyphRect) (area budget : ℕ) (key : κ)
    (rect : GlyphRect) : ℕ × Lru κ GlyphRect :=
  let pushed := cache.push key rect
  let area := match pushed.1 with
    | some replaced => area - rectArea replaced.2
    | none => area
  evictBeyond budget pushed.2.len (area + rectArea rect) pushed.2

/-- The glyph atlas, for glyphs of the keys `κ` and ligatures of the keys `ι`. -/
structure Atlas (κ ι : Type) where
  size : ℕ
  sizeMax : ℕ
  cursorX : ℕ
  cursorY : ℕ
  rowHeight : ℕ
  cache : Lru κ GlyphRect
  ligatureCache : Lru ι GlyphRect
  clearedThisFrame : Bool
  needsGrow : Bool
  /-- The size of a cell (0 = unknown). -/
  cellWHint : ℕ
  cellHHint : ℕ
  /-- Sum of the areas of every glyph in `cache`. -/
  cacheArea : ℕ
  /-- Sum of the areas of every glyph in `ligatureCache`. -/
  ligatureArea : ℕ
  /-- Usable texture area that the tallies are checked against. -/
  areaBudget : ℕ
  /-- The writes into the texture, the last one first. -/
  texture : List ((κ ⊕ ι) × GlyphRect)

/-- Compute the capacity from the size of a cell. -/
def lruCapFromCell (atlasSize cellW cellH : ℕ) : ℕ :=
  max ((atlasSize * atlasSize - iconReservedArea) / max (cellW * cellH) 1) 256

theorem lruCapFromCell_pos (atlasSize cellW cellH : ℕ) : 0 < lruCapFromCell atlasSize cellW cellH :=
  Nat.lt_of_lt_of_le (by decide) (Nat.le_max_right _ _)

namespace Atlas

/-- Construct the atlas at the requested size. -/
def withSize (size : ℕ) : Atlas κ ι :=
  let lruCap := max (size * size / 64) 256
  have hcap : 0 < lruCap := Nat.lt_of_lt_of_le (by decide) (Nat.le_max_right _ _)
  { size := size
    sizeMax := 2048
    cursorX := 0
    cursorY := 0
    rowHeight := 0
    cache := .empty lruCap hcap
    ligatureCache := .empty lruCap hcap
    clearedThisFrame := false
    needsGrow := false
    cellWHint := 0
    cellHHint := 0
    cacheArea := 0
    ligatureArea := 0
    areaBudget := size * size - iconReservedArea
    texture := [] }

def newWithMax (initSize maxSize : ℕ) : Atlas κ ι := { withSize initSize with sizeMax := maxSize }

/-- Update the capacity of the caches to the size of a cell. -/
def updateCapacityHint (a : Atlas κ ι) (cellW cellH : ℕ) : Atlas κ ι :=
  let cap := lruCapFromCell a.size cellW cellH
  { a with
    cache := a.cache.resize cap (lruCapFromCell_pos _ _ _)
    ligatureCache := a.ligatureCache.resize cap (lruCapFromCell_pos _ _ _)
    cellWHint := cellW
    cellHHint := cellH }

/-- Grow the atlas: a fresh one of twice the size, with the same hint. -/
def grow (a : Atlas κ ι) : Atlas κ ι :=
  let atlas : Atlas κ ι := { withSize (min (a.size * 2) a.sizeMax) with
    sizeMax := a.sizeMax
    clearedThisFrame := true }
  if a.cellWHint > 0 ∧ a.cellHHint > 0 then atlas.updateCapacityHint a.cellWHint a.cellHHint
  else atlas

/-- Wrap to the next row when the glyph hits the right edge. -/
def wrap (a : Atlas κ ι) (width : ℕ) : Atlas κ ι :=
  if a.cursorX + width > a.size then
    { a with cursorX := 0, cursorY := a.cursorY + (a.rowHeight + 1), rowHeight := 0 }
  else a

/-- Atlas full: reset both caches and restart from the origin. -/
def makeRoom (a : Atlas κ ι) (height : ℕ) : Atlas κ ι :=
  if a.cursorY + height > a.size then
    { a with
      cursorX := 0
      cursorY := 0
      rowHeight := 0
      cache := a.cache.clear
      ligatureCache := a.ligatureCache.clear
      cacheArea := 0
      ligatureArea := 0
      clearedThisFrame := true
      needsGrow := a.needsGrow || a.size < a.sizeMax }
  else a

/-- Write a glyph into the texture at the cursor. -/
def place (a : Atlas κ ι) (key : κ ⊕ ι) (width height : ℕ) : GlyphRect × Atlas κ ι :=
  let rect : GlyphRect := ⟨a.cursorX, a.cursorY, width, height, a.size⟩
  (rect, { a with
    cursorX := a.cursorX + (width + 1)
    rowHeight := max a.rowHeight height
    texture := (key, rect) :: a.texture })

/-- Add a glyph to the atlas (returns the existing entry when cached). -/
def getOrInsert (a : Atlas κ ι) (r : GlyphRequest κ) : GlyphRect × Atlas κ ι :=
  match a.cache.get r.key with
  | (some rect, cache) => (rect, { a with cache := cache })
  | (none, _) =>
    let placed := ((a.wrap r.width).makeRoom r.height).place (.inl r.key) r.width r.height
    let rect := placed.1
    let a := placed.2
    let inserted := insertWithAreaBudget a.cache a.cacheArea a.areaBudget r.key rect
    (rect, { a with cacheArea := inserted.1, cache := inserted.2 })

/-- Add a ligature glyph to the atlas (returns the existing entry when cached). -/
def getOrInsertLigature (a : Atlas κ ι) (r : GlyphRequest ι) : GlyphRect × Atlas κ ι :=
  match a.ligatureCache.get r.key with
  | (some rect, cache) => (rect, { a with ligatureCache := cache })
  | (none, _) =>
    let placed := ((a.wrap r.width).makeRoom r.height).place (.inr r.key) r.width r.height
    let rect := placed.1
    let a := placed.2
    let inserted := insertWithAreaBudget a.ligatureCache a.ligatureArea a.areaBudget r.key rect
    (rect, { a with ligatureArea := inserted.1, ligatureCache := inserted.2 })

end Atlas

/-- What can happen to the atlas. -/
inductive AtlasOp (κ ι : Type)
  | glyph (r : GlyphRequest κ)
  | ligature (r : GlyphRequest ι)
  | capacityHint (cellW cellH : ℕ)
  | grow

namespace Atlas

def step (a : Atlas κ ι) : AtlasOp κ ι → Atlas κ ι
  | .glyph r => (a.getOrInsert r).2
  | .ligature r => (a.getOrInsertLigature r).2
  | .capacityHint cellW cellH => a.updateCapacityHint cellW cellH
  | .grow => a.grow

end Atlas

/-! ## Insertion into one cache -/

/-- What evicting entries does: a tally that covers the entries goes down with their total. -/
structure Evicts (budget area area' : ℕ) (cache cache' : Lru κ GlyphRect) : Prop where
  drift : cache.total rectArea ≤ area →
    area' + cache.total rectArea = area + cache'.total rectArea
  within : area' ≤ budget ∨ cache'.len ≤ 1
  pos : 0 < cache.len → 0 < cache'.len
  subset : cache'.entries ⊆ cache.entries

omit [DecidableEq κ] in
theorem Evicts.refl {budget area : ℕ} {cache : Lru κ GlyphRect}
    (h : area ≤ budget ∨ cache.len ≤ 1) : Evicts budget area area cache cache :=
  ⟨fun _ => rfl, h, id, fun _ he => he⟩

omit [DecidableEq κ] in
theorem evicts_evictBeyond (budget fuel area : ℕ) (cache : Lru κ GlyphRect)
    (hfuel : cache.len ≤ fuel) :
    Evicts budget area (evictBeyond budget fuel area cache).1 cache
      (evictBeyond budget fuel area cache).2 := by
  induction fuel generalizing area cache with
  | zero => exact .refl (.inr (by omega))
  | succ fuel ih =>
    unfold evictBeyond
    split_ifs with hbeyond
    · obtain ⟨hbeyond, hmany⟩ := hbeyond
      have hlen := Lru.length_popLru (c := cache) (by omega)
      have htotal := Lru.total_popLru (w := rectArea) cache
      cases hevicted : cache.popLru.1 with
      | none =>
        have hempty : cache.entries = [] := List.getLast?_eq_none_iff.1 hevicted
        rw [Lru.len, hempty] at hmany
        cases hmany
      | some evicted =>
        have hpop : cache.popLru = (some evicted, cache.popLru.2) := by rw [← hevicted]
        have hrest := ih (area - rectArea evicted.2) cache.popLru.2 (by omega)
        rw [hevicted] at htotal
        simp only [Lru.weight] at htotal
        rw [hpop]
        refine ⟨?_, hrest.within, fun _ => hrest.pos (by omega), ?_⟩
        · intro hcovers
          have hdrift := hrest.drift (by omega)
          dsimp only
          omega
        · intro e he
          exact Lru.mem_popLru (hrest.subset he)
    · exact .refl (by omega)

/-- What an insertion does to a cache and its tally. -/
structure Inserts (budget area area' : ℕ) (cache cache' : Lru κ GlyphRect) (key : κ)
    (rect : GlyphRect) : Prop where
  drift : cache.total rectArea ≤ area →
    area' + cache.total rectArea = area + cache'.total rectArea
  within : area' ≤ budget ∨ cache'.len = 1
  mem : ∀ e ∈ cache'.entries, e = (key, rect) ∨ e ∈ cache.entries

theorem inserts_insertWithAreaBudget (cache : Lru κ GlyphRect) (area budget : ℕ) (key : κ)
    (rect : GlyphRect) :
    Inserts budget area (insertWithAreaBudget cache area budget key rect).1 cache
      (insertWithAreaBudget cache area budget key rect).2 key rect := by
  have hpushed : insertWithAreaBudget cache area budget key rect =
      evictBeyond budget (cache.push key rect).2.len
        (area - Lru.weight rectArea (cache.push key rect).1 + rectArea rect)
        (cache.push key rect).2 := by
    unfold insertWithAreaBudget
    dsimp only
    cases (cache.push key rect).1 <;> rfl
  have hevicts := evicts_evictBeyond budget _
    (area - Lru.weight rectArea (cache.push key rect).1 + rectArea rect)
    (cache.push key rect).2 (Nat.le_refl _)
  rw [hpushed]
  constructor
  · intro hcovers
    have htotal := Lru.total_push (w := rectArea) cache key rect
    have hweight := Lru.weight_push_le (w := rectArea) cache key rect
    have hdrift := hevicts.drift (by omega)
    omega
  · have hone := hevicts.pos (Lru.push_pos cache key rect)
    have hwithin := hevicts.within
    omega
  · intro e he
    exact Lru.mem_push (hevicts.subset he)

/-! ## The texture -/

namespace GlyphAtlas

/-- An eviction that keeps all entries. -/
def keepAll : Eviction κ := ⟨id, fun _ _ he => he⟩

/-- Write a glyph where there is room for it. -/
def writeNext (g : GlyphAtlas κ) (r : GlyphRequest κ) : GlyphRect × GlyphAtlas κ :=
  ((g.wrap r.width).makeRoom r.height).write keepAll r

/-- One insertion: the glyph is cached, or it is written.  Cached entries may get lost. -/
inductive Inserted (g : GlyphAtlas κ) (r : GlyphRequest κ) : GlyphRect → GlyphAtlas κ → Prop
  | hit {rect : GlyphRect} {l : List (κ × GlyphRect)} :
    (r.key, rect) ∈ g.cache → l ⊆ g.cache → Inserted g r rect { g with cache := l }
  | miss {l : List (κ × GlyphRect)} :
    l ⊆ (g.writeNext r).2.cache →
      Inserted g r (g.writeNext r).1 { (g.writeNext r).2 with cache := l }

variable {g g' : GlyphAtlas κ} {r : GlyphRequest κ} {rect : GlyphRect} {e e' : κ × GlyphRect}

omit [DecidableEq κ] in
theorem Inserted.write {b : GlyphAtlas κ} (hb : (g.wrap r.width).makeRoom r.height = b)
    {l : List (κ × GlyphRect)} (hl : l ⊆ (b.write keepAll r).2.cache) :
    g.Inserted r (b.write keepAll r).1 { (b.write keepAll r).2 with cache := l } := by
  subst hb
  exact .miss hl

/-- So does the atlas with one cache insert. -/
theorem inserted_getOrInsert (evict : Eviction κ) (g : GlyphAtlas κ) (r : GlyphRequest κ) :
    g.Inserted r (g.getOrInsert evict r).1 (g.getOrInsert evict r).2 := by
  unfold GlyphAtlas.getOrInsert
  split
  · next rect hlookup =>
    refine .hit (lookup_mem hlookup) ?_
    intro e he
    rcases List.mem_cons.1 he with rfl | he
    · exact lookup_mem hlookup
    · exact List.mem_of_mem_filter he
  · exact .miss (evict.subset _)

omit [DecidableEq κ] in
theorem Sound.subset (h : g.Sound) {l : List (κ × GlyphRect)} (hl : l ⊆ g.cache) :
    ({ g with cache := l } : GlyphAtlas κ).Sound := fun e he => h e (hl he)

omit [DecidableEq κ] in
theorem Sound.inserted (h : g.Sound) (hinserted : g.Inserted r rect g') : g'.Sound := by
  cases hinserted with
  | hit _ hl => exact h.subset hl
  | miss hl => exact ((h.prepare r.width r.height).write keepAll r).subset hl

/-- The cached glyphs are inside the texture. -/
def Inside (g : GlyphAtlas κ) : Prop :=
  ∀ e ∈ g.cache, e.2.x + e.2.width ≤ g.size ∧ e.2.y + e.2.height ≤ g.size

omit [DecidableEq κ] in
theorem wrap_fits {width : ℕ} (hwidth : width ≤ g.size) :
    (g.wrap width).cursorX + width ≤ g.size ∧ (g.wrap width).size = g.size ∧
      (g.wrap width).cache = g.cache := by
  unfold GlyphAtlas.wrap
  split_ifs with hedge
  · refine ⟨?_, rfl, rfl⟩
    change 0 + width ≤ g.size
    omega
  · exact ⟨by omega, rfl, rfl⟩

omit [DecidableEq κ] in
theorem makeRoom_fits {width height : ℕ} (hx : g.cursorX + width ≤ g.size)
    (hheight : height ≤ g.size) : (g.makeRoom height).cursorX + width ≤ g.size ∧
      (g.makeRoom height).cursorY + height ≤ g.size ∧ (g.makeRoom height).size = g.size ∧
        (g.makeRoom height).cache ⊆ g.cache := by
  unfold GlyphAtlas.makeRoom
  split_ifs with hfull
  · refine ⟨?_, ?_, rfl, fun _ he => nomatch he⟩
    · change 0 + width ≤ g.size
      omega
    · change 0 + height ≤ g.size
      omega
  · exact ⟨hx, by omega, rfl, fun _ he => he⟩

omit [DecidableEq κ] in
theorem Inside.inserted (h : g.Inside) (hinserted : g.Inserted r rect g')
    (hwidth : r.width ≤ g.size) (hheight : r.height ≤ g.size) :
    g'.Inside ∧ g'.size = g.size := by
  cases hinserted with
  | hit _ hl => exact ⟨fun e he => h e (hl he), rfl⟩
  | miss hl =>
    obtain ⟨hx, hsize, hcache⟩ := wrap_fits hwidth
    obtain ⟨hx, hy, hsize', hsub⟩ := makeRoom_fits (hsize.symm ▸ hx) (hsize.symm ▸ hheight)
    rw [hsize] at hx hy hsize'
    refine ⟨?_, hsize'⟩
    intro e he
    change _ ≤ ((g.wrap r.width).makeRoom r.height).size ∧
      _ ≤ ((g.wrap r.width).makeRoom r.height).size
    rw [hsize']
    rcases List.mem_cons.1 (hl he) with rfl | he
    · exact ⟨hx, hy⟩
    · exact h e (hcache ▸ hsub he)

omit [DecidableEq κ] in
/-- Two glyphs that the texture still holds are apart. -/
theorem Holds.apart (h : g.Holds e.1 e.2) (h' : g.Holds e'.1 e'.2) (hne : e ≠ e') :
    ¬Overlaps e.2 e'.2 := by
  obtain ⟨later, earlier, htexture, hlater⟩ := h
  obtain ⟨later', earlier', htexture', hlater'⟩ := h'
  have hsymm : ¬Overlaps e'.2 e.2 → ¬Overlaps e.2 e'.2 := by
    rintro hnot ⟨⟨hx, hx'⟩, hy, hy'⟩
    exact hnot ⟨⟨hx', hx⟩, hy', hy⟩
  rw [htexture] at htexture'
  rcases List.append_eq_append_iff.1 htexture' with ⟨between, rfl, hrest⟩ | ⟨between, rfl, hrest⟩
  · cases between with
    | nil =>
      rw [List.nil_append, List.cons.injEq] at hrest
      exact absurd hrest.1 hne
    | cons first between =>
      rw [List.cons_append, List.cons.injEq] at hrest
      obtain rfl : e = first := hrest.1
      exact hlater' e (by simp)
  · cases between with
    | nil =>
      rw [List.nil_append, List.cons.injEq] at hrest
      exact absurd hrest.1.symm hne
    | cons first between =>
      rw [List.cons_append, List.cons.injEq] at hrest
      obtain rfl : e' = first := hrest.1
      exact hsymm (hlater e' (by simp))

end GlyphAtlas

/-! ## Both caches together -/

namespace Atlas

/-- What the caches hold. -/
def held (a : Atlas κ ι) : List ((κ ⊕ ι) × GlyphRect) :=
  a.cache.entries.map (fun e => (.inl e.1, e.2)) ++
    a.ligatureCache.entries.map fun e => (.inr e.1, e.2)

/-- The atlas with its caches put together. -/
def shelves (a : Atlas κ ι) : GlyphAtlas (κ ⊕ ι) where
  size := a.size
  sizeMax := a.sizeMax
  cursorX := a.cursorX
  cursorY := a.cursorY
  rowHeight := a.rowHeight
  cache := a.held
  clearedThisFrame := a.clearedThisFrame
  needsGrow := a.needsGrow
  texture := a.texture

variable {a : Atlas κ ι}

omit [DecidableEq κ] [DecidableEq ι] in
theorem shelves_wrap (a : Atlas κ ι) (width : ℕ) :
    (a.wrap width).shelves = a.shelves.wrap width := by
  unfold wrap GlyphAtlas.wrap
  change (if a.cursorX + width > a.size then _ else a).shelves =
    if a.cursorX + width > a.size then _ else a.shelves
  split_ifs <;> rfl

omit [DecidableEq κ] [DecidableEq ι] in
theorem shelves_makeRoom (a : Atlas κ ι) (height : ℕ) :
    (a.makeRoom height).shelves = a.shelves.makeRoom height := by
  unfold makeRoom GlyphAtlas.makeRoom
  change (if a.cursorY + height > a.size then _ else a).shelves =
    if a.cursorY + height > a.size then _ else a.shelves
  split_ifs <;> rfl

omit [DecidableEq κ] [DecidableEq ι] in
theorem shelves_prepare (a : Atlas κ ι) (width height : ℕ) :
    (a.shelves.wrap width).makeRoom height = ((a.wrap width).makeRoom height).shelves := by
  rw [shelves_makeRoom, shelves_wrap]

omit [DecidableEq κ] [DecidableEq ι] in
theorem mem_held_inl {key : κ} {rect : GlyphRect} :
    (.inl key, rect) ∈ a.held ↔ (key, rect) ∈ a.cache.entries := by
  simp [held]

omit [DecidableEq κ] [DecidableEq ι] in
theorem mem_held_inr {key : ι} {rect : GlyphRect} :
    (.inr key, rect) ∈ a.held ↔ (key, rect) ∈ a.ligatureCache.entries := by
  simp [held]

omit [DecidableEq κ] [DecidableEq ι] in
/-- What is held in the caches of one atlas is held in those of another one. -/
theorem held_subset {l : List ((κ ⊕ ι) × GlyphRect)}
    (hcache : ∀ key rect, (key, rect) ∈ a.cache.entries → (.inl key, rect) ∈ l)
    (hligature : ∀ key rect, (key, rect) ∈ a.ligatureCache.entries → (.inr key, rect) ∈ l) :
    a.held ⊆ l := by
  rintro ⟨key | key, rect⟩ he
  · exact hcache key rect (mem_held_inl.1 he)
  · exact hligature key rect (mem_held_inr.1 he)

omit [DecidableEq κ] [DecidableEq ι] in
theorem held_mono {b : Atlas κ ι} (hcache : a.cache.entries ⊆ b.cache.entries)
    (hligature : a.ligatureCache.entries ⊆ b.ligatureCache.entries) : a.held ⊆ b.held :=
  held_subset (fun _ _ he => mem_held_inl.2 (hcache he)) fun _ _ he =>
    mem_held_inr.2 (hligature he)

omit [DecidableEq ι] in
/-- An insertion into one of the caches. -/
theorem inserted_getOrInsert (a : Atlas κ ι) (r : GlyphRequest κ) :
    a.shelves.Inserted ⟨.inl r.key, r.width, r.height⟩ (a.getOrInsert r).1
      (a.getOrInsert r).2.shelves := by
  unfold getOrInsert
  split
  · next rect cache hget =>
    have hfound : (a.cache.get r.key).1 = some rect := congrArg Prod.fst hget
    have hperm := Lru.perm_get a.cache r.key
    rw [hget] at hperm
    exact .hit (mem_held_inl.2 (Lru.get_eq_some hfound)) (held_mono hperm.subset fun _ he => he)
  · next hget =>
    dsimp only
    have hprepare := shelves_prepare a r.width r.height
    generalize (a.wrap r.width).makeRoom r.height = b at hprepare ⊢
    have hinserts := inserts_insertWithAreaBudget b.cache b.cacheArea b.areaBudget r.key
      ⟨b.cursorX, b.cursorY, r.width, r.height, b.size⟩
    refine GlyphAtlas.Inserted.write (r := ⟨.inl r.key, r.width, r.height⟩) hprepare
      (held_subset ?_ ?_)
    · intro key rect he
      rcases hinserts.mem _ he with heq | he
      · cases heq
        exact List.mem_cons_self
      · exact List.mem_cons_of_mem _ (mem_held_inl.2 he)
    · intro key rect he
      exact List.mem_cons_of_mem _ (mem_held_inr.2 he)

omit [DecidableEq κ] in
/-- An insertion into the other cache. -/
theorem inserted_getOrInsertLigature (a : Atlas κ ι) (r : GlyphRequest ι) :
    a.shelves.Inserted ⟨.inr r.key, r.width, r.height⟩ (a.getOrInsertLigature r).1
      (a.getOrInsertLigature r).2.shelves := by
  unfold getOrInsertLigature
  split
  · next rect cache hget =>
    have hfound : (a.ligatureCache.get r.key).1 = some rect := congrArg Prod.fst hget
    have hperm := Lru.perm_get a.ligatureCache r.key
    rw [hget] at hperm
    exact .hit (mem_held_inr.2 (Lru.get_eq_some hfound)) (held_mono (fun _ he => he) hperm.subset)
  · next hget =>
    dsimp only
    have hprepare := shelves_prepare a r.width r.height
    generalize (a.wrap r.width).makeRoom r.height = b at hprepare ⊢
    have hinserts := inserts_insertWithAreaBudget b.ligatureCache b.ligatureArea b.areaBudget
      r.key ⟨b.cursorX, b.cursorY, r.width, r.height, b.size⟩
    refine GlyphAtlas.Inserted.write (r := ⟨.inr r.key, r.width, r.height⟩) hprepare
      (held_subset ?_ ?_)
    · intro key rect he
      exact List.mem_cons_of_mem _ (mem_held_inl.2 he)
    · intro key rect he
      rcases hinserts.mem _ he with heq | he
      · cases heq
        exact List.mem_cons_self
      · exact List.mem_cons_of_mem _ (mem_held_inr.2 he)

omit [DecidableEq κ] [DecidableEq ι] in
/-- A smaller capacity loses entries and nothing else. -/
theorem shelves_updateCapacityHint (a : Atlas κ ι) (cellW cellH : ℕ) :
    ∃ l ⊆ a.held, (a.updateCapacityHint cellW cellH).shelves = { a.shelves with cache := l } :=
  ⟨_, held_mono (fun _ he => Lru.mem_resize he) fun _ he => Lru.mem_resize he, rfl⟩

omit [DecidableEq κ] [DecidableEq ι] in
/-- A fresh atlas holds nothing. -/
theorem held_grow (a : Atlas κ ι) : a.grow.held = [] := by
  unfold grow
  dsimp only
  split_ifs
  · exact congrArg₂ List.append (congrArg (List.map _) List.take_nil)
      (congrArg (List.map _) List.take_nil)
  · rfl

omit [DecidableEq κ] [DecidableEq ι] in
/-- The keys of what is held are distinct. -/
theorem nodup_held (a : Atlas κ ι) : a.held.Nodup := by
  have hcache : a.cache.entries.Nodup := a.cache.nodup.of_map _
  have hligature : a.ligatureCache.entries.Nodup := a.ligatureCache.nodup.of_map _
  refine List.nodup_append.2 ⟨hcache.map ?_, hligature.map ?_, ?_⟩
  · rintro ⟨key, rect⟩ ⟨key', rect'⟩ heq
    cases heq
    rfl
  · rintro ⟨key, rect⟩ ⟨key', rect'⟩ heq
    cases heq
    rfl
  · intro e he e' he' heq
    subst heq
    obtain ⟨e, -, rfl⟩ := List.mem_map.1 he
    obtain ⟨e', -, heq⟩ := List.mem_map.1 he'
    cases heq

/-- The glyphs that are added fit into the atlas. -/
def Fits (a : Atlas κ ι) : AtlasOp κ ι → Prop
  | .glyph r => r.width ≤ a.size ∧ r.height ≤ a.size
  | .ligature r => r.width ≤ a.size ∧ r.height ≤ a.size
  | _ => True

/-- What the caches hold is in the texture, inside of it, and passed by the cursor. -/
def Packed (a : Atlas κ ι) : Prop := a.shelves.Sound ∧ a.shelves.Inside

theorem Packed.step (h : a.Packed) {op : AtlasOp κ ι} (hfits : a.Fits op) :
    (a.step op).Packed := by
  cases op with
  | glyph r =>
    have hinserted := inserted_getOrInsert a r
    exact ⟨h.1.inserted hinserted, (h.2.inserted hinserted hfits.1 hfits.2).1⟩
  | ligature r =>
    have hinserted := inserted_getOrInsertLigature a r
    exact ⟨h.1.inserted hinserted, (h.2.inserted hinserted hfits.1 hfits.2).1⟩
  | capacityHint cellW cellH =>
    obtain ⟨l, hl, hshelves⟩ := shelves_updateCapacityHint a cellW cellH
    rw [Packed, Atlas.step, hshelves]
    exact ⟨h.1.subset hl, fun e he => h.2 e (hl he)⟩
  | grow =>
    have hempty : ∀ e, e ∉ a.grow.shelves.cache := by
      intro e he
      change e ∈ a.grow.held at he
      rw [held_grow] at he
      cases he
    exact ⟨fun e he => absurd he (hempty e), fun e he => absurd he (hempty e)⟩

omit [DecidableEq κ] [DecidableEq ι] in
theorem packed_newWithMax (initSize maxSize : ℕ) :
    (newWithMax initSize maxSize : Atlas κ ι).Packed := by
  constructor
  · intro e he
    cases he
  · intro e he
    cases he

end Atlas

/-- **The atlas keeps its glyphs apart.**  However glyphs and ligatures that fit into the atlas are
    added, and the capacities are changed or the atlas is grown in between, the rectangles of the
    entries of both caches are inside the texture and pairwise disjoint, and none of them has been
    written over. -/
theorem packed_disjoint (initSize maxSize : ℕ) (ops : List (AtlasOp κ ι))
    (hfits : Runs.Along Atlas.step Atlas.Fits (Atlas.newWithMax initSize maxSize) ops) :
    let a := Runs.run Atlas.step (Atlas.newWithMax initSize maxSize) ops
    (∀ e ∈ a.held, e.2.x + e.2.width ≤ a.size ∧ e.2.y + e.2.height ≤ a.size) ∧
      a.held.Pairwise (fun e e' => ¬GlyphAtlas.Overlaps e.2 e'.2) ∧
      ∀ e ∈ a.held, a.shelves.Holds e.1 e.2 := by
  intro a
  have hstep : ∀ (a : Atlas κ ι) op, a.Packed → a.Fits op → (a.step op).Packed :=
    fun _ _ h hfits => h.step hfits
  have hpacked : a.Packed :=
    (Runs.always_of_along hstep (Atlas.packed_newWithMax initSize maxSize) hfits).last
  have hholds : ∀ e ∈ a.held, a.shelves.Holds e.1 e.2 := fun e he => (hpacked.1 e he).1
  refine ⟨hpacked.2, ?_, hholds⟩
  refine a.nodup_held.imp_of_mem ?_
  intro e e' he he' hne
  exact (hholds e he).apart (hholds e' he') hne

/-- A glyph and a ligature in an atlas of 8 texels, the second one on a row of its own. -/
theorem packed_pair :
    let a := Runs.run Atlas.step (Atlas.newWithMax 8 8 : Atlas ℕ ℕ)
      [.glyph ⟨0, 6, 3⟩, .ligature ⟨0, 5, 2⟩]
    a.held = [(.inl 0, ⟨0, 0, 6, 3, 8⟩), (.inr 0, ⟨0, 4, 5, 2, 8⟩)] ∧
      a.held.Pairwise fun e e' => ¬GlyphAtlas.Overlaps e.2 e'.2 := by
  intro a
  have hfits : Runs.Along Atlas.step Atlas.Fits (Atlas.newWithMax 8 8 : Atlas ℕ ℕ)
      [.glyph ⟨0, 6, 3⟩, .ligature ⟨0, 5, 2⟩] :=
    ⟨⟨by decide, by decide⟩, ⟨by decide, by decide⟩, trivial⟩
  exact ⟨by decide, (packed_disjoint 8 8 _ hfits).2.1⟩

/-! ## The tallies -/

namespace Atlas

/-- A tally is the area of the entries of its cache, which are within the budget or a single
    one. -/
structure Tallies (area budget : ℕ) (cache : Lru κ GlyphRect) : Prop where
  total_eq : area = cache.total rectArea
  within : cache.total rectArea ≤ budget ∨ cache.len = 1

omit [DecidableEq κ] in
theorem Tallies.empty (budget : ℕ) {cap : ℕ} {hcap : 0 < cap} :
    Tallies 0 budget (Lru.empty cap hcap : Lru κ GlyphRect) := ⟨rfl, .inl (Nat.zero_le _)⟩

variable {area budget : ℕ} {cache : Lru κ GlyphRect} {a : Atlas κ ι}

theorem Tallies.get (h : Tallies area budget cache) (key : κ) :
    Tallies area budget (cache.get key).2 := by
  have hlen : (cache.get key).2.len = cache.len := (Lru.perm_get cache key).length_eq
  constructor
  · rw [Lru.total_get, h.total_eq]
  · rw [Lru.total_get, hlen]
    exact h.within

theorem Tallies.insert (h : Tallies area budget cache) (key : κ) (rect : GlyphRect) :
    Tallies (insertWithAreaBudget cache area budget key rect).1 budget
      (insertWithAreaBudget cache area budget key rect).2 := by
  have hinserts := inserts_insertWithAreaBudget cache area budget key rect
  have hdrift := hinserts.drift (Nat.le_of_eq h.total_eq.symm)
  have heq : (insertWithAreaBudget cache area budget key rect).1 =
      (insertWithAreaBudget cache area budget key rect).2.total rectArea := by
    have htotal := h.total_eq
    omega
  refine ⟨heq, ?_⟩
  rw [← heq]
  exact hinserts.within

omit [DecidableEq κ] in
/-- A smaller capacity keeps the tally right only if the entries it drops are empty. -/
theorem Tallies.resize_iff (h : Tallies area budget cache) {cap : ℕ} (hcap : 0 < cap) :
    Tallies area budget (cache.resize cap hcap) ↔
      ∀ e ∈ cache.entries.drop cap, rectArea e.2 = 0 := by
  have htotal := Lru.total_resize (w := rectArea) cache hcap
  have heq := h.total_eq
  have hsum : ((cache.entries.drop cap).map fun e => rectArea e.2).sum = 0 ↔
      ∀ e ∈ cache.entries.drop cap, rectArea e.2 = 0 := by
    rw [List.sum_eq_zero_iff_forall_eq_nat, List.forall_mem_map]
  rw [← hsum]
  constructor
  · intro hresize
    have heq' := hresize.total_eq
    omega
  · intro hzero
    refine ⟨by omega, ?_⟩
    rcases h.within with hwithin | hone
    · exact .inl (by omega)
    · refine .inr ?_
      change (cache.entries.take cap).length = 1
      change cache.entries.length = 1 at hone
      rw [List.length_take, hone]
      omega

/-- Both tallies are right. -/
def Tallied (a : Atlas κ ι) : Prop :=
  Tallies a.cacheArea a.areaBudget a.cache ∧ Tallies a.ligatureArea a.areaBudget a.ligatureCache

/-- A change of the capacity finds room in it for all entries but empty ones. -/
def FindsRoom (a : Atlas κ ι) : AtlasOp κ ι → Prop
  | .capacityHint cellW cellH =>
    (∀ e ∈ a.cache.entries.drop (lruCapFromCell a.size cellW cellH), rectArea e.2 = 0) ∧
      ∀ e ∈ a.ligatureCache.entries.drop (lruCapFromCell a.size cellW cellH), rectArea e.2 = 0
  | _ => True

omit [DecidableEq κ] [DecidableEq ι] in
theorem Tallied.prepare (h : a.Tallied) (width height : ℕ) :
    ((a.wrap width).makeRoom height).Tallied := by
  have hwrap : (a.wrap width).Tallied := by
    unfold wrap
    split_ifs <;> exact h
  unfold makeRoom
  split_ifs
  · exact ⟨.empty _, .empty _⟩
  · exact hwrap

omit [DecidableEq ι] in
theorem Tallied.getOrInsert (h : a.Tallied) (r : GlyphRequest κ) : (a.getOrInsert r).2.Tallied := by
  unfold Atlas.getOrInsert
  split
  · next rect cache hget =>
    have hcache : cache = (a.cache.get r.key).2 := by rw [hget]
    subst hcache
    exact ⟨h.1.get r.key, h.2⟩
  · have hprepare := h.prepare r.width r.height
    exact ⟨hprepare.1.insert _ _, hprepare.2⟩

omit [DecidableEq κ] in
theorem Tallied.getOrInsertLigature (h : a.Tallied) (r : GlyphRequest ι) :
    (a.getOrInsertLigature r).2.Tallied := by
  unfold Atlas.getOrInsertLigature
  split
  · next rect cache hget =>
    have hcache : cache = (a.ligatureCache.get r.key).2 := by rw [hget]
    subst hcache
    exact ⟨h.1, h.2.get r.key⟩
  · have hprepare := h.prepare r.width r.height
    exact ⟨hprepare.1, hprepare.2.insert _ _⟩

omit [DecidableEq κ] [DecidableEq ι] in
/-- The tallies of an atlas with other caches.  These are variables here: were they resized ones,
    the kernel would compare the capacities by counting. -/
theorem tallied_with_iff (a : Atlas κ ι) (cache : Lru κ GlyphRect) (ligatureCache : Lru ι GlyphRect)
    (cellW cellH : ℕ) : ({ a with
      cache := cache
      ligatureCache := ligatureCache
      cellWHint := cellW
      cellHHint := cellH } : Atlas κ ι).Tallied ↔
      Tallies a.cacheArea a.areaBudget cache ∧ Tallies a.ligatureArea a.areaBudget ligatureCache :=
  Iff.rfl

omit [DecidableEq κ] [DecidableEq ι] in
theorem tallied_updateCapacityHint_iff (h : a.Tallied) (cellW cellH : ℕ) :
    (a.updateCapacityHint cellW cellH).Tallied ↔ a.FindsRoom (.capacityHint cellW cellH) := by
  have hpos := lruCapFromCell_pos a.size cellW cellH
  exact (tallied_with_iff a _ _ cellW cellH).trans
    (and_congr (h.1.resize_iff hpos) (h.2.resize_iff hpos))

omit [DecidableEq κ] [DecidableEq ι] in
theorem tallied_newWithMax (initSize maxSize : ℕ) :
    (newWithMax initSize maxSize : Atlas κ ι).Tallied := ⟨.empty _, .empty _⟩

omit [DecidableEq κ] [DecidableEq ι] in
theorem tallied_grow (a : Atlas κ ι) : a.grow.Tallied := by
  unfold grow
  dsimp only
  have hfresh : ({ withSize (min (a.size * 2) a.sizeMax) with
      sizeMax := a.sizeMax, clearedThisFrame := true } : Atlas κ ι).Tallied :=
    ⟨.empty _, .empty _⟩
  split_ifs
  · refine (tallied_updateCapacityHint_iff hfresh _ _).2 ⟨?_, ?_⟩
    · intro e he
      cases List.mem_of_mem_drop he
    · intro e he
      cases List.mem_of_mem_drop he
  · exact hfresh

theorem tallied_step_iff (h : a.Tallied) (op : AtlasOp κ ι) :
    (a.step op).Tallied ↔ a.FindsRoom op := by
  cases op with
  | glyph r => exact iff_of_true (h.getOrInsert r) trivial
  | ligature r => exact iff_of_true (h.getOrInsertLigature r) trivial
  | capacityHint cellW cellH => exact tallied_updateCapacityHint_iff h cellW cellH
  | grow => exact iff_of_true (tallied_grow a) trivial

end Atlas

/-- **The tallies are the areas of the cached glyphs** in every state of a run, and these are within
    the budget or single ones, if and only if no change of the capacity drops an entry with an
    area. -/
theorem tallied_iff (initSize maxSize : ℕ) (ops : List (AtlasOp κ ι)) :
    Runs.Always Atlas.step Atlas.Tallied (Atlas.newWithMax initSize maxSize) ops ↔
      Runs.Along Atlas.step Atlas.FindsRoom (Atlas.newWithMax initSize maxSize) ops :=
  Runs.always_iff_along (fun _ op h => Atlas.tallied_step_iff h op)
    (Atlas.tallied_newWithMax initSize maxSize)

/-- Glyphs of one texel, with the keys below `n`. -/
def dots (n : ℕ) : List (AtlasOp ℕ ℕ) := (List.range n).map fun key => .glyph ⟨key, 1, 1⟩

namespace Atlas

omit [DecidableEq ι] in
/-- A new glyph that finds room everywhere. -/
theorem getOrInsert_of_room {a : Atlas κ ι} {r : GlyphRequest κ}
    (hkey : a.cache.entries.lookup r.key = none) (hx : a.cursorX + r.width ≤ a.size)
    (hy : a.cursorY + r.height ≤ a.size) (hlen : a.cache.entries.length < a.cache.cap)
    (harea : a.cacheArea + r.width * r.height ≤ a.areaBudget) :
    (a.getOrInsert r).2 = { (a.place (.inl r.key) r.width r.height).2 with
      cache := a.cache.insert r.key ⟨a.cursorX, a.cursorY, r.width, r.height, a.size⟩ hkey hlen
      cacheArea := a.cacheArea + r.width * r.height } := by
  have hwrap : a.wrap r.width = a := if_neg (Nat.not_lt.2 hx)
  have hroom : a.makeRoom r.height = a := if_neg (Nat.not_lt.2 hy)
  have hinsert : insertWithAreaBudget a.cache a.cacheArea a.areaBudget r.key
      ⟨a.cursorX, a.cursorY, r.width, r.height, a.size⟩ =
      (a.cacheArea + r.width * r.height, a.cache.insert r.key
        ⟨a.cursorX, a.cursorY, r.width, r.height, a.size⟩ hkey hlen) := by
    rw [insertWithAreaBudget, Lru.push_of_lookup hkey hlen]
    exact if_neg fun hbeyond => Nat.not_lt.2 harea hbeyond.1
  unfold getOrInsert
  rw [Lru.get_of_lookup hkey, hwrap, hroom]
  dsimp only
  rw [place]
  dsimp only
  rw [hinsert]

/-- The first `n` dots are cached, side by side. -/
structure Dotted (n : ℕ) (a : Atlas ℕ ℕ) : Prop where
  tallied : a.Tallied
  size : a.size = 1024
  budget : a.areaBudget = 1017472
  cap : a.cache.cap = 16384
  cursorX : a.cursorX = 2 * n
  cursorY : a.cursorY = 0
  area : a.cacheArea = n
  length : a.cache.entries.length = n
  dot : ∀ e ∈ a.cache.entries, e.1 < n ∧ rectArea e.2 = 1

theorem Dotted.step {n : ℕ} {a : Atlas ℕ ℕ} (h : a.Dotted n) (hn : n < 257) :
    (a.step (.glyph ⟨n, 1, 1⟩)).Dotted (n + 1) := by
  have hkey : a.cache.entries.lookup n = none := by
    rw [List.lookup_eq_none_iff]
    intro e he
    have hlt := (h.dot e he).1
    refine bne_iff_ne.2 ?_
    omega
  have hx : a.cursorX + 1 ≤ a.size := by
    rw [h.cursorX, h.size]
    omega
  have hy : a.cursorY + 1 ≤ a.size := by
    rw [h.cursorY, h.size]
    omega
  have hlen : a.cache.entries.length < a.cache.cap := by
    rw [h.length, h.cap]
    omega
  have harea : a.cacheArea + 1 * 1 ≤ a.areaBudget := by
    rw [h.area, h.budget]
    omega
  have hstep := getOrInsert_of_room (r := ⟨n, 1, 1⟩) hkey hx hy hlen harea
  have htallied := h.tallied.getOrInsert ⟨n, 1, 1⟩
  rw [Atlas.step]
  rw [hstep] at htallied ⊢
  refine ⟨htallied, h.size, h.budget, h.cap, ?_, h.cursorY, ?_, ?_, ?_⟩
  · change a.cursorX + 2 = 2 * (n + 1)
    rw [h.cursorX]
    omega
  · change a.cacheArea + 1 = n + 1
    rw [h.area]
  · exact congrArg (· + 1) h.length
  · intro e he
    rcases List.mem_cons.1 he with rfl | he
    · exact ⟨Nat.lt_succ_self n, rfl⟩
    · exact ⟨Nat.lt_succ_of_lt (h.dot e he).1, (h.dot e he).2⟩

theorem dotted_run (n : ℕ) (hn : n ≤ 257) :
    (Runs.run Atlas.step (newWithMax 1024 1024) (dots n)).Dotted n := by
  induction n with
  | zero =>
    refine ⟨tallied_newWithMax 1024 1024, rfl, rfl, by decide, rfl, rfl, rfl, rfl, ?_⟩
    intro e he
    cases he
  | succ n ih =>
    have hsucc : dots (n + 1) = dots n ++ [.glyph ⟨n, 1, 1⟩] := by
      rw [dots, List.range_succ, List.map_append]
      rfl
    rw [hsucc, Runs.run_append]
    exact (ih (by omega)).step (by omega)

end Atlas

/-- The cells get larger while 257 glyphs of one texel are cached: the capacity falls to 256
    entries, and the tally still counts 257. -/
theorem tally_drifts : ¬(Runs.run Atlas.step (Atlas.newWithMax 1024 1024 : Atlas ℕ ℕ)
    (dots 257 ++ [.capacityHint 64 128])).Tallied := by
  have hdots := Atlas.dotted_run 257 (Nat.le_refl _)
  rw [Runs.run_append]
  generalize Runs.run Atlas.step (Atlas.newWithMax 1024 1024) (dots 257) = a at hdots
  intro htallied
  obtain ⟨hcache, -⟩ :=
    (Atlas.tallied_updateCapacityHint_iff hdots.tallied 64 128).1 htallied
  have hcap : lruCapFromCell a.size 64 128 = 256 := by
    rw [hdots.size]
    decide
  rw [hcap] at hcache
  have hlast : a.cache.entries.drop 256 ≠ [] := by
    intro hnil
    have hlen := List.drop_eq_nil_iff.1 hnil
    rw [hdots.length] at hlen
    omega
  obtain ⟨e, he⟩ := List.exists_mem_of_ne_nil _ hlast
  have hzero := hcache e he
  rw [(hdots.dot e (List.mem_of_mem_drop he)).2] at hzero
  cases hzero

end Nexterm.Client

/-
  Rectangles of cells.

  * `Rect`, `Covers`: a rectangle and the cells that it covers; `Inside`, `Apart`.
  * `Packs`: rectangles that lie inside another one and do not overlap; `Tiles`: they also cover
    all of it.
  * `Packs.append`, `Tiles.flatMap`: packings inside the parts of a packing.
  * `tiles_columns`, `tiles_rows`: a rectangle that is cut at increasing positions.
-/
import Mathlib.Order.Monotone.Basic
import Mathlib.Tactic.Common

/-- The cells from `(col, row)` on, `cols` wide and `rows` high. -/
structure Rect where
  col : ℕ
  row : ℕ
  cols : ℕ
  rows : ℕ

namespace Rect

def Covers (r : Rect) (x y : ℕ) : Prop :=
  (r.col ≤ x ∧ x < r.col + r.cols) ∧ r.row ≤ y ∧ y < r.row + r.rows

/-- Within the bounds of `s`, also where `r` has no cells. -/
structure Inside (r s : Rect) : Prop where
  left : s.col ≤ r.col
  right : r.col + r.cols ≤ s.col + s.cols
  top : s.row ≤ r.row
  bottom : r.row + r.rows ≤ s.row + s.rows

/-- No cell is in both. -/
def Apart (r s : Rect) : Prop := ∀ x y, r.Covers x y → ¬ s.Covers x y

variable {r s t : Rect}

theorem Inside.refl (r : Rect) : r.Inside r := ⟨le_rfl, le_rfl, le_rfl, le_rfl⟩

theorem Inside.trans (h : r.Inside s) (h' : s.Inside t) : r.Inside t :=
  ⟨h'.left.trans h.left, h.right.trans h'.right, h'.top.trans h.top, h.bottom.trans h'.bottom⟩

theorem Inside.covers (h : r.Inside s) {x y : ℕ} (hr : r.Covers x y) : s.Covers x y := by
  obtain ⟨⟨hl, hr⟩, ht, hb⟩ := hr
  exact ⟨⟨h.left.trans hl, hr.trans_le h.right⟩, h.top.trans ht, hb.trans_le h.bottom⟩

theorem Apart.symm (h : r.Apart s) : s.Apart r := fun x y hs hr => h x y hr hs

theorem Apart.mono {r' s' : Rect} (h : r.Apart s) (hr : r'.Inside r) (hs : s'.Inside s) :
    r'.Apart s' := fun x y hr' hs' => h x y (hr.covers hr') (hs.covers hs')

theorem apart_of_cols (h : r.col + r.cols ≤ s.col) : r.Apart s := by
  rintro x y ⟨⟨-, hr⟩, -⟩ ⟨⟨hs, -⟩, -⟩
  omega

theorem apart_of_rows (h : r.row + r.rows ≤ s.row) : r.Apart s := by
  rintro x y ⟨-, -, hr⟩ ⟨-, hs, -⟩
  omega

/-! ## Packings -/

/-- Rectangles inside `s`, no two of which overlap. -/
structure Packs (rs : List Rect) (s : Rect) : Prop where
  inside : ∀ r ∈ rs, r.Inside s
  apart : rs.Pairwise Apart

/-- A packing that covers `s`. -/
structure Tiles (rs : List Rect) (s : Rect) : Prop extends Packs rs s where
  cover : ∀ x y, s.Covers x y → ∃ r ∈ rs, r.Covers x y

theorem tiles_singleton (s : Rect) : Tiles [s] s where
  inside := by simp [Inside.refl]
  apart := List.pairwise_singleton _ _
  cover _ _ h := ⟨s, List.mem_singleton_self s, h⟩

theorem Packs.append {rs rs' : List Rect} {a b : Rect} (h : Packs rs a) (h' : Packs rs' b)
    (ha : a.Inside s) (hb : b.Inside s) (hab : a.Apart b) : Packs (rs ++ rs') s where
  inside r hr := by
    rcases List.mem_append.1 hr with hr | hr
    · exact (h.inside r hr).trans ha
    · exact (h'.inside r hr).trans hb
  apart := by
    refine List.pairwise_append.2 ⟨h.apart, h'.apart, fun r hr r' hr' => ?_⟩
    exact hab.mono (h.inside r hr) (h'.inside r' hr')

/-- Tilings of the parts of a tiling. -/
theorem Tiles.flatMap {ι : Type} {is : List ι} {part : ι → Rect} {cells : ι → List Rect}
    (h : Tiles (is.map part) s) (hcells : ∀ i ∈ is, Tiles (cells i) (part i)) :
    Tiles (is.flatMap cells) s where
  inside r hr := by
    obtain ⟨i, hi, hr⟩ := List.mem_flatMap.1 hr
    exact ((hcells i hi).inside r hr).trans (h.inside _ (List.mem_map_of_mem hi))
  apart := by
    rw [List.flatMap, List.pairwise_flatten]
    refine ⟨?_, ?_⟩
    · rintro l hl
      obtain ⟨i, hi, rfl⟩ := List.mem_map.1 hl
      exact (hcells i hi).apart
    · refine List.pairwise_map.2 ((List.pairwise_map.1 h.apart).imp_of_mem ?_)
      intro i j hi hj hij r hr r' hr'
      exact hij.mono ((hcells i hi).inside r hr) ((hcells j hj).inside r' hr')
  cover x y hxy := by
    obtain ⟨_, hpart, hxy⟩ := h.cover x y hxy
    obtain ⟨i, hi, rfl⟩ := List.mem_map.1 hpart
    obtain ⟨r, hr, hxy⟩ := (hcells i hi).cover x y hxy
    exact ⟨r, List.mem_flatMap.2 ⟨i, hi, hr⟩, hxy⟩

/-- Columns and rows swapped. -/
def transpose (r : Rect) : Rect := ⟨r.row, r.col, r.rows, r.cols⟩

theorem Tiles.transpose {rs : List Rect} (h : Tiles rs s) :
    Tiles (rs.map Rect.transpose) s.transpose where
  inside r hr := by
    obtain ⟨r', hr', rfl⟩ := List.mem_map.1 hr
    obtain ⟨hleft, hright, htop, hbottom⟩ := h.inside r' hr'
    exact ⟨htop, hbottom, hleft, hright⟩
  apart := List.pairwise_map.2 (h.apart.imp fun hrs x y hr hs => hrs y x hr.symm hs.symm)
  cover x y hxy := by
    obtain ⟨r, hr, hcovers⟩ := h.cover y x hxy.symm
    exact ⟨_, List.mem_map_of_mem hr, hcovers.symm⟩

/-! ## Cuts -/

/-- The part between two cuts that holds a position. -/
theorem exists_between (cut : ℕ → ℕ) {n x : ℕ} (hlow : cut 0 ≤ x) (hhigh : x < cut n) :
    ∃ i < n, cut i ≤ x ∧ x < cut (i + 1) := by
  induction n with
  | zero => exact absurd hhigh hlow.not_gt
  | succ n ih =>
    by_cases hx : x < cut n
    · obtain ⟨i, hi, hcut⟩ := ih hx
      exact ⟨i, hi.trans n.lt_succ_self, hcut⟩
    · exact ⟨n, n.lt_succ_self, not_lt.1 hx, hhigh⟩

section

variable {cut : ℕ → ℕ} {n : ℕ} (hcut : Monotone cut) (hzero : cut 0 = 0)

include hcut hzero

/-- Cut into columns. -/
theorem tiles_columns (hn : cut n = s.cols) :
    Tiles ((List.range n).map fun i =>
      ⟨s.col + cut i, s.row, cut (i + 1) - cut i, s.rows⟩) s where
  inside r hr := by
    obtain ⟨i, hi, rfl⟩ := List.mem_map.1 hr
    have hle : cut i ≤ cut (i + 1) := hcut i.le_succ
    have htotal : cut (i + 1) ≤ cut n := hcut (List.mem_range.1 hi)
    refine ⟨Nat.le_add_right _ _, ?_, le_rfl, le_rfl⟩
    show s.col + cut i + (cut (i + 1) - cut i) ≤ s.col + s.cols
    omega
  apart := by
    refine List.pairwise_map.2 (List.pairwise_lt_range.imp fun {i j} hij => apart_of_cols ?_)
    have hle : cut i ≤ cut (i + 1) := hcut i.le_succ
    have hlt : cut (i + 1) ≤ cut j := hcut hij
    show s.col + cut i + (cut (i + 1) - cut i) ≤ s.col + cut j
    omega
  cover x y hxy := by
    obtain ⟨⟨hl, hr⟩, hrows⟩ := hxy
    obtain ⟨i, hi, hlow, hhigh⟩ := exists_between cut (n := n) (x := x - s.col)
      (by omega) (by omega)
    refine ⟨_, List.mem_map_of_mem (List.mem_range.2 hi), ⟨?_, ?_⟩, hrows⟩
    · show s.col + cut i ≤ x
      omega
    · show x < s.col + cut i + (cut (i + 1) - cut i)
      omega

/-- Cut into rows. -/
theorem tiles_rows (hn : cut n = s.rows) :
    Tiles ((List.range n).map fun i =>
      ⟨s.col, s.row + cut i, s.cols, cut (i + 1) - cut i⟩) s := by
  have h := (tiles_columns (s := s.transpose) hcut hzero hn).transpose
  rwa [List.map_map] at h

end

end Rect

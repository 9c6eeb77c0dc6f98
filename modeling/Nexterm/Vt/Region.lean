/-
  The scrolling region (`screen.rs`, `set_scroll_region` and `advance_line`).

  * `Screen.RegionOk`: the region is an interval of rows of the screen.
  * `Screen.LineFeedOk`: advancing a line scrolls only at the bottom of the region, and touches no
    row when the cursor is outside of it.
  * `Screen.RegionRespected`: the condition on one operation.
  * `VtParser.region_run_iff`: the condition is exact over runs.

  DECSTBM clamps the two margins to the screen but does not compare them, and a cursor below the
  region scrolls it.
-/
import Nexterm.Vt.Bounds

namespace Nexterm.Vt

namespace Screen

/-- The region is an interval of rows of the screen. -/
def RegionOk (s : Screen) : Prop := s.scrollTop ≤ s.scrollBottom ∧ s.scrollBottom < s.grid.height

/-- What advancing a line may do. -/
structure LineFeedOk (s : Screen) : Prop where
  /-- It scrolls only if the cursor is exactly on the bottom of the region. -/
  scrolls : s.advanceLine = s.scrollUp → s.cursorRow = s.scrollBottom
  /-- Outside of the region it touches no row, and the cursor moves down or stays. -/
  outside : s.cursorRow < s.scrollTop ∨ s.scrollBottom < s.cursorRow →
    s.advanceLine.grid.rows = s.grid.rows ∧
      (s.advanceLine.cursorRow = s.cursorRow ∨ s.advanceLine.cursorRow = s.cursorRow + 1)

/-- Every line that an operation advances is as it should be, and so is the region afterwards. -/
def RegionSound (V : Vte) (s : Screen) (op : ScreenOp) : Prop :=
  (∀ action, op = .perform action → ∀ t ∈ s.feeds V action, t.LineFeedOk) ∧ (s.step V op).RegionOk

/-- No line is advanced below the region, the margins of a new region are in order once they are
    clamped to the screen, and the screen keeps a row. -/
def RegionRespected (V : Vte) (s : Screen) : ScreenOp → Prop
  | .perform action =>
    (0 < s.linesFed V action → s.cursorRow ≤ s.scrollBottom) ∧
      ∀ top bottom, s.regionAsked action = some (top, bottom) →
        min top (s.grid.height - 1) ≤ min bottom (s.grid.height - 1)
  | .resize _ rows => 0 < rows
  | .takeDirtyRows => True
  | .takeScrolledOffLines => True

variable {V : Vte} {s t : Screen}

theorem lineFeedOk_iff (htop : s.scrollTop ≤ s.scrollBottom) :
    s.LineFeedOk ↔ s.cursorRow ≤ s.scrollBottom := by
  obtain ⟨-, hrow⟩ := cursor_advanceLine s
  constructor
  · intro h
    by_contra hlt
    have hscroll : s.advanceLine = s.scrollUp := if_pos (by omega)
    have := h.scrolls hscroll
    omega
  · intro hle
    constructor
    · intro hscroll
      have hsame : s.scrollUp.cursorRow = s.cursorRow := (scrollUp_eq s).cursor.2
      rw [hscroll, hsame] at hrow
      split_ifs at hrow <;> omega
    · intro hout
      have hlt : ¬s.cursorRow ≥ s.scrollBottom := by omega
      refine ⟨?_, Or.inr (hrow.trans (if_neg hlt))⟩
      rw [advanceLine, if_neg hlt]

/-- The cursor passes the bottom of the region in no line that an action advances, or in all. -/
theorem feeds_cursorRow {action : Perform} (ht : t ∈ s.feeds V action) :
    t.cursorRow ≤ t.scrollBottom ↔ s.cursorRow ≤ s.scrollBottom := by
  rcases feeds_cases ht with rfl | rfl | rfl
  · exact Iff.rfl
  · exact Iff.rfl
  · have hbottom : s.wrapLine.scrollBottom = s.scrollBottom := (steady_wrapLine s).scrollBottom
    have hrow : s.wrapLine.cursorRow =
        if s.cursorRow ≥ s.scrollBottom then s.cursorRow else s.cursorRow + 1 :=
      (cursor_advanceLine { s with cursorCol := 0 }).2
    show s.wrapLine.cursorRow ≤ s.wrapLine.scrollBottom ↔ _
    rw [hbottom, hrow]
    split_ifs <;> omega

theorem lineFeeds_iff (hs : s.RegionOk) (action : Perform) :
    (∀ t ∈ s.feeds V action, t.LineFeedOk) ↔
      (0 < s.linesFed V action → s.cursorRow ≤ s.scrollBottom) := by
  have hok : ∀ t ∈ s.feeds V action, t.LineFeedOk ↔ s.cursorRow ≤ s.scrollBottom := by
    intro t ht
    obtain ⟨-, htop, hbottom, -⟩ := feeds_frame ht
    rw [lineFeedOk_iff (by rw [htop, hbottom]; exact hs.1), feeds_cursorRow ht]
  rw [← length_feeds]
  constructor
  · intro h hpos
    obtain ⟨t, ht⟩ := List.exists_mem_of_length_pos hpos
    exact (hok t ht).1 (h t ht)
  · intro h t ht
    exact (hok t ht).2 (h (List.length_pos_of_mem ht))

theorem regionOk_perform_iff (hs : s.RegionOk) (action : Perform) :
    (s.perform V action).RegionOk ↔ ∀ top bottom, s.regionAsked action = some (top, bottom) →
      min top (s.grid.height - 1) ≤ min bottom (s.grid.height - 1) := by
  obtain ⟨hle, hlt⟩ := hs
  cases perform_cases V s action with
  | steady hregion h =>
    rw [RegionOk, h.scrollTop, h.scrollBottom, h.height]
    simp [hregion, hle, hlt]
  | region top bottom hregion _ h =>
    have hmin : min bottom (s.grid.height - 1) < s.grid.height := by omega
    simp only [hregion, Option.some.injEq, Prod.mk.injEq]
    rw [h]
    constructor
    · rintro hok _ _ ⟨rfl, rfl⟩
      exact hok.1
    · intro hok
      exact ⟨hok top bottom ⟨rfl, rfl⟩, hmin⟩
  | switched hregion _ params enable h =>
    have hswitched := switched_decPrivateMode enable params s
    rw [← h] at hswitched
    simp only [hregion, reduceCtorEq, false_implies, implies_true, iff_true, RegionOk,
      hswitched.height]
    rcases hswitched.region with ⟨htop, hbottom⟩ | ⟨htop, hbottom⟩
    · rw [htop, hbottom]
      exact ⟨hle, hlt⟩
    · rw [htop, hbottom]
      omega

theorem regionSound_iff (hs : s.RegionOk) (op : ScreenOp) :
    s.RegionSound V op ↔ s.RegionRespected V op := by
  have hother : ∀ {op : ScreenOp}, (∀ action, op ≠ .perform action) →
      (s.RegionSound V op ↔ (s.step V op).RegionOk) := by
    intro op hop
    exact and_iff_right fun action h => absurd h (hop action)
  cases op with
  | perform action =>
    refine Iff.trans (and_congr ?_ (regionOk_perform_iff hs action)) Iff.rfl
    rw [← lineFeeds_iff hs]
    simp
  | resize cols rows =>
    rw [hother (by simp)]
    show 0 ≤ rows - 1 ∧ rows - 1 < rows ↔ 0 < rows
    omega
  | takeDirtyRows =>
    rw [hother (by simp)]
    refine iff_of_true ?_ trivial
    show s.takeDirtyRows.2.RegionOk
    unfold takeDirtyRows
    split_ifs <;> exact hs
  | takeScrolledOffLines =>
    rw [hother (by simp)]
    exact iff_of_true hs trivial

end Screen

namespace VtParser

/-- **The region over runs.**  On a new screen and after every operation of a run the region is an
    interval of rows, and every line feed and wrap respects it, exactly if the screen starts with
    a row and every operation respects the region. -/
theorem region_run_iff (V : Vte) (cols rows : ℕ) (ops : List Op) :
    (Screen.new cols rows).RegionOk ∧
        Runs.Along (Screen.step V) (Screen.RegionSound V) (Screen.new cols rows)
          ((new V cols rows).trace ops) ↔
      0 < rows ∧ Runs.Along (Screen.step V) (Screen.RegionRespected V) (Screen.new cols rows)
        ((new V cols rows).trace ops) := by
  have hnew : (Screen.new cols rows).RegionOk ↔ 0 < rows := by
    show 0 ≤ rows - 1 ∧ rows - 1 < rows ↔ 0 < rows
    omega
  rw [← hnew]
  refine and_congr_right fun hok => ?_
  exact Runs.along_iff (P := Screen.RegionOk) (fun _ _ _ h => h.2)
    (fun _ op hs => Screen.regionSound_iff hs op) hok

/-- Margins in the wrong order, `CSI 5 ; 2 r`; and a line feed below the region, after
    `CSI 1 ; 2 r` and `CSI 5 H`. -/
theorem region_reversed :
    ¬((Screen.new 80 10).RegionOk ∧
      Runs.Along (Screen.step miniVte) (Screen.RegionSound miniVte) (Screen.new 80 10)
        ((new miniVte 80 10).trace [.advance [0x1b, 0x5b, 0x35, 0x3b, 0x32, 0x72]])) ∧
    ¬((Screen.new 80 10).RegionOk ∧
      Runs.Along (Screen.step miniVte) (Screen.RegionSound miniVte) (Screen.new 80 10)
        ((new miniVte 80 10).trace
          [.advance [0x1b, 0x5b, 0x31, 0x3b, 0x32, 0x72, 0x1b, 0x5b, 0x35, 0x48, 0x0a]])) := by
  constructor
  · rintro ⟨-, ⟨-, hregion⟩, -⟩
    exact absurd hregion.1 (by decide +kernel)
  · rintro ⟨-, -, -, ⟨hfeeds, -⟩, -⟩
    have hfeed := hfeeds _ rfl _ List.mem_cons_self
    exact absurd ((Screen.lineFeedOk_iff (by decide +kernel)).1 hfeed) (by decide +kernel)

end VtParser

end Nexterm.Vt

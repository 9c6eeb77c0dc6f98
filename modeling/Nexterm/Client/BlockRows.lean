/-
  The rows of the scrollback view, and who else computes them (`command_blocks.rs`,
  `renderer/grid_verts.rs`): a click and the overlay of the blocks.

  * `resolveClickedScrollbackRow`: the row that a click is on; it walks as the renderer does.
  * `clicks_resolve`: it answers the row that is drawn there.
  * `computeBlockOverlayLines`: where the overlay puts the blocks; it subtracts row numbers.
  * `OverlayMatches`: the overlay is beside the rows of the blocks.
  * `Straight`: the condition under which it is; `overlayMatches_iff`: it is exact.

  A row is a length of the scrollback, so that a difference of two rows is an `i32`.
-/
import Nexterm.Client.Search
import Nexterm.Lib.Skips

namespace Nexterm.Client

open Nexterm.Vt (Cell)
open Skips

/-! ## The code -/

/-- The walk of a click: `visual` rows have been passed, and `sb` is the next one. -/
def resolveFrom (blocks : List CommandBlock) (scrollbackLen visualRow visual sb : ℕ) : Option ℕ :=
  if sb < scrollbackLen then
    if isRowCollapsed blocks sb then resolveFrom blocks scrollbackLen visualRow visual (sb + 1)
    else if visual = visualRow then some sb
    else resolveFrom blocks scrollbackLen visualRow (visual + 1) (sb + 1)
  else none
termination_by scrollbackLen - sb

/-- Invert the scrollback-render walk: the row that is drawn at `visualRow`. -/
def resolveClickedScrollbackRow (blocks : List CommandBlock)
    (scrollbackLen scrollOffset visualRow : ℕ) : Option ℕ :=
  resolveFrom blocks scrollbackLen visualRow 0 scrollOffset

/-- Visual status of a block. -/
inductive BlockStatus
  | running
  | success
  | failure
  deriving DecidableEq

/-- The status of a block, from its end and its exit code. -/
def CommandBlock.status (b : CommandBlock) : BlockStatus :=
  match b.endRow, b.exitCode with
  | none, _ => .running
  | some _, none => .running
  | some _, some code => if code = 0 then .success else .failure

/-- One block's contribution to the overlay; rows count from the top of the viewport, and the end is
    inclusive. -/
structure BlockOverlayLine where
  blockId : ℕ
  visualRowStart : ℤ
  visualRowEnd : ℤ
  status : BlockStatus
  selected : Bool
  /-- The row of the prompt, unless it is above the viewport. -/
  promptVisualRow : Option ℤ
  deriving DecidableEq

/-- The line of a block, translated to rows of the viewport. -/
def CommandBlock.line (b : CommandBlock) (selectedBlock : Option ℕ) (visibleTop blockEnd : ℕ) :
    BlockOverlayLine where
  blockId := b.id
  visualRowStart := (b.promptRow : ℤ) - visibleTop
  visualRowEnd := (blockEnd : ℤ) - visibleTop
  status := b.status
  selected := selectedBlock = some b.id
  promptVisualRow :=
    if b.promptRow ≥ visibleTop then some ((b.promptRow : ℤ) - visibleTop) else none

/-- The line of a block that overlaps the viewport; a running block goes on to the bottom. -/
def overlayLine (selectedBlock : Option ℕ) (visibleTop visibleRows : ℕ) (b : CommandBlock) :
    Option BlockOverlayLine :=
  let viewportEnd := visibleTop + visibleRows
  let blockEnd := b.endRow.getD (viewportEnd - 1)
  if blockEnd < visibleTop then none
  else if b.promptRow ≥ viewportEnd then none
  else some (b.line selectedBlock visibleTop blockEnd)

/-- Map block records onto the visible grid window. -/
def computeBlockOverlayLines (blocks : List CommandBlock) (selectedBlock : Option ℕ)
    (visibleTop visibleRows : ℕ) : List BlockOverlayLine :=
  if visibleRows = 0 then []
  else blocks.filterMap (overlayLine selectedBlock visibleTop visibleRows)

namespace PaneState

/-- The row of the scrollback at the top of the viewport. -/
def visibleTop (pane : PaneState) : ℕ :=
  if pane.scrollOffset > 0 then pane.scrollOffset else pane.scrollback.len

/-- The lines that the renderer paints over a pane. -/
def overlayLines (pane : PaneState) (selectedBlock : Option ℕ) (visibleRows : ℕ) :
    List BlockOverlayLine :=
  computeBlockOverlayLines pane.blocks selectedBlock pane.visibleTop visibleRows

end PaneState

/-! ## Clicks -/

/-- The rows that are not hidden. -/
def shown (blocks : List CommandBlock) (row : ℕ) : Bool := !isRowCollapsed blocks row

variable {blocks : List CommandBlock} {pane : PaneState} {lines : List (List Cell)}

theorem resolveFrom_eq (scrollbackLen visualRow visual sb : ℕ) (h : visual ≤ visualRow) :
    resolveFrom blocks scrollbackLen visualRow visual sb =
      (kept (shown blocks) sb scrollbackLen)[visualRow - visual]? := by
  fun_induction resolveFrom blocks scrollbackLen visualRow visual sb with
  | case1 visual sb hlt hhidden ih =>
    have hskip : kept (shown blocks) sb scrollbackLen =
        kept (shown blocks) (sb + 1) scrollbackLen := kept_of_skipped (by simp [shown, hhidden])
    rw [ih h, hskip]
  | case2 sb hlt hshown =>
    rw [kept_of_kept hlt (by simpa [shown] using hshown), Nat.sub_self]
    rfl
  | case3 visual sb hlt hshown hne ih =>
    rw [ih (by omega), kept_of_kept hlt (by simpa [shown] using hshown),
      show visualRow - visual = visualRow - (visual + 1) + 1 by omega, List.getElem?_cons_succ]
  | case4 visual sb hlt => rw [kept_eq_nil (not_lt.1 hlt), List.getElem?_nil]

theorem resolveClickedScrollbackRow_eq (scrollbackLen scrollOffset visualRow : ℕ) :
    resolveClickedScrollbackRow blocks scrollbackLen scrollOffset visualRow =
      (kept (shown blocks) scrollOffset scrollbackLen)[visualRow]? :=
  resolveFrom_eq scrollbackLen visualRow 0 scrollOffset (Nat.zero_le _)

theorem walk_kept (h : pane.scrollback.Shows lines) (remaining sbRow : ℕ) :
    pane.walk remaining sbRow =
      some ((kept (shown pane.blocks) sbRow pane.scrollback.len).take remaining) := by
  rw [PaneState.walk_eq h, h.1]
  rfl

/-- **A click is on the row that is drawn.**  The walk of the renderer draws some rows, and below
    the height of the viewport a click is on the `k`-th of them, if there is one.  The rows of
    clicks are visible and in order. -/
theorem clicks_resolve (capacity : ℕ) (ops : List (ScrollbackOp (List Cell))) (pane : PaneState)
    (hrun : (Scrollback.new capacity).run ops = some pane.scrollback)
    (scrollOffset visibleRows : ℕ) :
    let resolve := resolveClickedScrollbackRow pane.blocks pane.scrollback.len scrollOffset
    (∃ rows, pane.walk visibleRows scrollOffset = some rows ∧
      ∀ k < visibleRows, (∀ r, rows[k]? = some r ↔ resolve k = some r) ∧
        (resolve k = none ↔ rows.length ≤ k)) ∧
    (∀ k k' r r', k < k' → resolve k = some r → resolve k' = some r' → r < r') ∧
    ∀ k r, resolve k = some r → isRowCollapsed pane.blocks r = false := by
  obtain ⟨lines, h⟩ := Scrollback.exists_shows hrun
  intro resolve
  have hresolve : ∀ k, resolve k =
      (kept (shown pane.blocks) scrollOffset pane.scrollback.len)[k]? :=
    resolveClickedScrollbackRow_eq _ _
  refine ⟨⟨_, walk_kept h visibleRows scrollOffset, fun k hk => ?_⟩, ?_, ?_⟩
  · have htake : ((kept (shown pane.blocks) scrollOffset pane.scrollback.len).take
        visibleRows)[k]? = resolve k := by
      rw [hresolve, List.getElem?_take_of_lt hk]
    refine ⟨fun r => by rw [htake], ?_⟩
    rw [← htake, List.getElem?_eq_none_iff]
  · intro k k' r r' hlt hr hr'
    rw [hresolve] at hr hr'
    obtain ⟨hk, rfl⟩ := List.getElem?_eq_some_iff.1 hr
    obtain ⟨hk', rfl⟩ := List.getElem?_eq_some_iff.1 hr'
    exact List.pairwise_iff_getElem.1 sorted_kept k k' hk hk' hlt
  · intro k r hr
    rw [hresolve] at hr
    have hshown := (getElem?_kept.1 hr).2.2.1
    simpa [shown] using hshown

/-- A collapsed block whose last row is hidden, and a running one. -/
def collapsedPane : PaneState where
  grid := .new 1 1
  cursorCol := 0
  cursorRow := 0
  scrollback := ⟨10, [[], [], [], []], 4, 4⟩
  scrollOffset := 1
  promptAnchors := []
  marks := []
  blocks := [⟨0, 1, 0, 1, 1, some 2, some 0, true⟩, ⟨3, 1, 3, 3, 3, none, none, false⟩]
  contentDirty := true

theorem collapsed_run : (Scrollback.new 10).run
    [.pushLine [], .pushLine [], .pushLine [], .pushLine []] = some collapsedPane.scrollback := by
  decide

/-- The second row that is drawn is row 3. -/
theorem clicks_resolve_collapsed :
    resolveClickedScrollbackRow collapsedPane.blocks 4 1 1 = some 3 ∧
      ∃ rows, collapsedPane.walk 2 1 = some rows ∧ rows[1]? = some 3 := by
  obtain ⟨⟨rows, hrows, hk⟩, -, -⟩ := clicks_resolve 10 _ collapsedPane collapsed_run 1 2
  have hresolve : resolveClickedScrollbackRow collapsedPane.blocks 4 1 1 = some 3 := by
    rw [resolveClickedScrollbackRow_eq]
    decide
  exact ⟨hresolve, rows, hrows, ((hk 1 (by decide)).1 3).2 hresolve⟩

/-! ## The overlay -/

/-- The line of a block is beside its rows: the prompt is drawn in the row of the viewport that the
    line says, and the rows that are drawn from its start to its end are those of the block. -/
def OverlayMatches (pane : PaneState) (selectedBlock : Option ℕ) (visibleRows : ℕ) : Prop :=
  ∃ rows, pane.drawnRows visibleRows = some rows ∧
    ∀ b ∈ pane.blocks, ∀ line ∈ overlayLine selectedBlock pane.visibleTop visibleRows b,
      line ∈ pane.overlayLines selectedBlock visibleRows →
        (∀ v : ℕ, line.promptVisualRow = some (v : ℤ) → v < visibleRows →
          rows[v]? = some b.promptRow) ∧
        ∀ k r : ℕ, rows[k]? = some r →
          ((line.visualRowStart ≤ k ∧ (k : ℤ) ≤ line.visualRowEnd) ↔
            b.promptRow ≤ r ∧ ∀ last ∈ b.endRow, r ≤ last)

/-- The block overlaps the viewport. -/
def CommandBlock.Overlaps (b : CommandBlock) (visibleTop visibleRows : ℕ) : Prop :=
  (∀ last ∈ b.endRow, visibleTop ≤ last) ∧ b.promptRow < visibleTop + visibleRows

/-- Subtracting row numbers is right for a block: between the top of the viewport and its prompt
    nothing is hidden, nor the prompt itself, which is in the scrollback; and nothing is hidden down
    to its end, unless no row after its end is drawn. -/
structure Straight (pane : PaneState) (visibleRows : ℕ) (b : CommandBlock) : Prop where
  prompt : pane.scrollOffset ≤ b.promptRow → b.promptRow < pane.scrollback.len ∧
    ∀ r, pane.scrollOffset ≤ r → r ≤ b.promptRow → isRowCollapsed pane.blocks r = false
  ending : ∀ last ∈ b.endRow, b.promptRow ≤ last →
    (∀ r, pane.scrollOffset ≤ r → r ≤ last → isRowCollapsed pane.blocks r = false) ∨
      ∀ r, last < r → r < pane.scrollback.len → isRowCollapsed pane.blocks r = false →
        visibleRows ≤ (kept (shown pane.blocks) pane.scrollOffset r).length

variable {visibleRows : ℕ} {b : CommandBlock}

/-- The rows that are drawn, and where. -/
theorem getElem?_drawn {visibleTop scrollbackLen k r : ℕ} :
    ((kept (shown blocks) visibleTop scrollbackLen).take visibleRows)[k]? = some r ↔
      k < visibleRows ∧ visibleTop ≤ r ∧ r < scrollbackLen ∧ isRowCollapsed blocks r = false ∧
        (kept (shown blocks) visibleTop r).length = k := by
  have hshown : shown blocks r = true ↔ isRowCollapsed blocks r = false := by simp [shown]
  rw [List.getElem?_take]
  split_ifs with hk
  · rw [getElem?_kept, hshown]
    exact ⟨fun h => ⟨hk, h⟩, And.right⟩
  · exact iff_of_false (fun h => nomatch h) fun h => hk h.1

/-- Nothing is hidden in an interval. -/
theorem length_shown_iff {visibleTop r : ℕ} :
    (kept (shown blocks) visibleTop r).length = r - visibleTop ↔
      ∀ i, visibleTop ≤ i → i < r → isRowCollapsed blocks i = false := by
  rw [length_kept_eq_iff]
  exact forall_congr' fun i => by simp [shown]

/-- The prompt is drawn where the subtraction says. -/
theorem prompt_drawn_iff (hb : b.Overlaps pane.scrollOffset visibleRows)
    (htop : pane.scrollOffset ≤ b.promptRow) :
    ((kept (shown pane.blocks) pane.scrollOffset pane.scrollback.len).take
        visibleRows)[b.promptRow - pane.scrollOffset]? = some b.promptRow ↔
      b.promptRow < pane.scrollback.len ∧
        ∀ r, pane.scrollOffset ≤ r → r ≤ b.promptRow → isRowCollapsed pane.blocks r = false := by
  have hroom := hb.2
  rw [getElem?_drawn, length_shown_iff]
  constructor
  · rintro ⟨-, -, hlt, hprompt, hbelow⟩
    refine ⟨hlt, fun r hle hr => ?_⟩
    rcases hr.lt_or_eq with hr | rfl
    · exact hbelow r hle hr
    · exact hprompt
  · rintro ⟨hlt, hclear⟩
    exact ⟨by omega, htop, hlt, hclear _ htop le_rfl, fun i hle hi => hclear i hle hi.le⟩

/-- If a row is hidden, the first row that is drawn after `last` stands too high. -/
theorem exists_raised {visibleTop scrollbackLen last r : ℕ} (htop : visibleTop ≤ last)
    (hhidden : ¬∀ i, visibleTop ≤ i → i ≤ last → isRowCollapsed blocks i = false)
    (hafter : last < r) (hlt : r < scrollbackLen) (hshown : isRowCollapsed blocks r = false)
    (hroom : (kept (shown blocks) visibleTop r).length < visibleRows) :
    ∃ k first, ((kept (shown blocks) visibleTop scrollbackLen).take visibleRows)[k]? = some first ∧
      last < first ∧ visibleTop + k ≤ last := by
  have hex : ∃ i, last < i ∧ isRowCollapsed blocks i = false := ⟨r, hafter, hshown⟩
  obtain ⟨hfirst, hvisible⟩ := Nat.find_spec hex
  have hbefore : ∀ i, last < i → i < Nat.find hex → isRowCollapsed blocks i ≠ false :=
    fun i hi hlt hclear => Nat.find_min hex hlt ⟨hi, hclear⟩
  have hfind : Nat.find hex ≤ r := Nat.find_le ⟨hafter, hshown⟩
  generalize Nat.find hex = first at hfirst hvisible hbefore hfind
  have hnone : kept (shown blocks) (last + 1) first = [] := by
    refine List.eq_nil_iff_forall_not_mem.2 fun i hi => ?_
    obtain ⟨hle, hlt, hi⟩ := mem_kept.1 hi
    exact hbefore i hle hlt (by simpa [shown] using hi)
  have hsplit : kept (shown blocks) visibleTop first = kept (shown blocks) visibleTop (last + 1) := by
    rw [kept_append (c := last + 1) (by omega) hfirst, hnone, List.append_nil]
  have hle := length_kept_le (p := shown blocks) (a := visibleTop) (b := last + 1)
  have hne : (kept (shown blocks) visibleTop (last + 1)).length ≠ last + 1 - visibleTop :=
    fun hall => hhidden fun i hi hi' => length_shown_iff.1 hall i hi (by omega)
  have hmono := length_kept_mono (p := shown blocks) (a := visibleTop) (by omega) hfind
  refine ⟨_, first, getElem?_drawn.2 ⟨lt_of_le_of_lt hmono hroom, by omega,
    lt_of_le_of_lt hfind hlt, hvisible, rfl⟩, hfirst, ?_⟩
  rw [hsplit]
  omega

/-- **A block whose rows are straight** is one beside which its line is. -/
theorem straight_iff (hb : b.Overlaps pane.scrollOffset visibleRows) :
    Straight pane visibleRows b ↔
      (pane.scrollOffset ≤ b.promptRow →
        ((kept (shown pane.blocks) pane.scrollOffset pane.scrollback.len).take
          visibleRows)[b.promptRow - pane.scrollOffset]? = some b.promptRow) ∧
      ∀ k r, ((kept (shown pane.blocks) pane.scrollOffset pane.scrollback.len).take
          visibleRows)[k]? = some r →
        ((b.promptRow ≤ pane.scrollOffset + k ∧ ∀ last ∈ b.endRow, pane.scrollOffset + k ≤ last) ↔
          b.promptRow ≤ r ∧ ∀ last ∈ b.endRow, r ≤ last) := by
  constructor
  · intro h
    refine ⟨fun htop => (prompt_drawn_iff hb htop).2 (h.prompt htop), fun k r hk => ?_⟩
    obtain ⟨hroom, hle, hlt, hshown, rfl⟩ := getElem?_drawn.1 hk
    have hrank := length_kept_le (p := shown pane.blocks) (a := pane.scrollOffset) (b := r)
    constructor
    · rintro ⟨hstart, hend⟩
      refine ⟨by omega, fun last hlast => not_lt.1 fun hafter => ?_⟩
      have hin := hend last hlast
      rcases h.ending last hlast (by omega) with hclear | hnone
      · have hall : (kept (shown pane.blocks) pane.scrollOffset (last + 1)).length =
            last + 1 - pane.scrollOffset :=
          length_shown_iff.2 fun i hi hi' => hclear i hi (by omega)
        have hmono := length_kept_mono (p := shown pane.blocks) (a := pane.scrollOffset)
          (c := last + 1) (b := r) (by omega) (by omega)
        omega
      · exact absurd (hnone r hafter hlt hshown) (not_le.2 hroom)
    · rintro ⟨hstart, hend⟩
      refine ⟨?_, fun last hlast => by have := hend last hlast; omega⟩
      by_cases htop : pane.scrollOffset ≤ b.promptRow
      · have hall := length_shown_iff.2 fun i hi hi' => (h.prompt htop).2 i hi (le_of_lt hi')
        have hmono := length_kept_mono (p := shown pane.blocks) htop hstart
        omega
      · omega
  · rintro ⟨hprompt, hrange⟩
    have hclear := fun htop => (prompt_drawn_iff hb htop).1 (hprompt htop)
    refine ⟨hclear, fun last hlast hspan => ?_⟩
    by_cases hhidden : ∀ r, pane.scrollOffset ≤ r → r ≤ last → isRowCollapsed pane.blocks r = false
    · exact .inl hhidden
    · refine .inr fun r hafter hlt hshown => not_lt.1 fun hroom => ?_
      obtain ⟨k, first, hdrawn, hfirst, hhigh⟩ :=
        exists_raised (hb.1 last hlast) hhidden hafter hlt hshown hroom
      refine absurd (((hrange k first hdrawn).1 ⟨?_, fun last' hlast' => ?_⟩).2 last hlast) ?_
      · obtain ⟨-, htop, -, -, rfl⟩ := getElem?_drawn.1 hdrawn
        by_cases hbelow : pane.scrollOffset ≤ b.promptRow
        · have hall := length_shown_iff.2 fun i hi hi' => (hclear hbelow).2 i hi (le_of_lt hi')
          have hmono := length_kept_mono (p := shown pane.blocks) hbelow
            (show b.promptRow ≤ first by omega)
          omega
        · omega
      · obtain rfl := Option.mem_unique hlast hlast'
        exact hhigh
      · omega

theorem mem_overlayLine_iff {selectedBlock : Option ℕ} {visibleTop : ℕ} {line : BlockOverlayLine}
    (hroom : 0 < visibleRows) :
    line ∈ overlayLine selectedBlock visibleTop visibleRows b ↔
      b.Overlaps visibleTop visibleRows ∧
        b.line selectedBlock visibleTop (b.endRow.getD (visibleTop + visibleRows - 1)) = line := by
  have hend : b.endRow.getD (visibleTop + visibleRows - 1) < visibleTop ↔
      ¬∀ last ∈ b.endRow, visibleTop ≤ last := by
    cases b.endRow with
    | none => simp; omega
    | some last => simp
  unfold overlayLine CommandBlock.Overlaps
  dsimp only
  split_ifs with hbefore hafter
  · exact iff_of_false (fun h => nomatch h) fun h => hend.1 hbefore h.1.1
  · exact iff_of_false (fun h => nomatch h) fun h => absurd h.1.2 (not_lt.2 hafter)
  · rw [Option.mem_some_iff, and_iff_right]
    exact ⟨not_not.1 fun h => hbefore (hend.2 h), not_le.1 hafter⟩

/-- A row of the viewport is between the start and the end of the line. -/
theorem between_iff {selectedBlock : Option ℕ} {visibleTop k : ℕ} (hk : k < visibleRows) :
    let line := b.line selectedBlock visibleTop (b.endRow.getD (visibleTop + visibleRows - 1))
    (line.visualRowStart ≤ k ∧ (k : ℤ) ≤ line.visualRowEnd) ↔
      b.promptRow ≤ visibleTop + k ∧ ∀ last ∈ b.endRow, visibleTop + k ≤ last := by
  unfold CommandBlock.line
  dsimp only
  cases b.endRow with
  | none => simp; omega
  | some last => simp; omega

/-- The prompt is at the row of the viewport that the line says. -/
theorem promptVisualRow_iff {selectedBlock : Option ℕ} {visibleTop blockEnd v : ℕ} :
    (b.line selectedBlock visibleTop blockEnd).promptVisualRow = some (v : ℤ) ↔
      visibleTop ≤ b.promptRow ∧ v = b.promptRow - visibleTop := by
  unfold CommandBlock.line
  dsimp only
  split_ifs with htop
  · rw [Option.some.injEq, and_iff_right htop]
    omega
  · exact iff_of_false (fun h => nomatch h) fun h => htop h.1

/-- **The overlay is beside the blocks** if and only if the rows of every block in the viewport are
    straight. -/
theorem overlayMatches_iff (capacity : ℕ) (ops : List (ScrollbackOp (List Cell)))
    (pane : PaneState) (hrun : (Scrollback.new capacity).run ops = some pane.scrollback)
    (hoffset : 0 < pane.scrollOffset) (selectedBlock : Option ℕ) (visibleRows : ℕ) :
    OverlayMatches pane selectedBlock visibleRows ↔
      (0 < visibleRows → ∀ b ∈ pane.blocks, b.Overlaps pane.scrollOffset visibleRows →
        Straight pane visibleRows b) := by
  obtain ⟨lines, h⟩ := Scrollback.exists_shows hrun
  have hrows : pane.drawnRows visibleRows = some ((kept (shown pane.blocks) pane.scrollOffset
      pane.scrollback.len).take visibleRows) := by
    rw [PaneState.drawnRows, if_neg hoffset.ne', walk_kept h]
  have htop : pane.visibleTop = pane.scrollOffset := if_pos hoffset
  unfold OverlayMatches
  rw [hrows, htop]
  constructor
  · rintro ⟨rows, hrows, hmatches⟩ hroom b hb hoverlaps
    obtain rfl := Option.some.inj hrows
    have hline : b.line selectedBlock pane.scrollOffset
        (b.endRow.getD (pane.scrollOffset + visibleRows - 1)) ∈
          overlayLine selectedBlock pane.scrollOffset visibleRows b :=
      (mem_overlayLine_iff hroom).2 ⟨hoverlaps, rfl⟩
    have hmem : b.line selectedBlock pane.scrollOffset
        (b.endRow.getD (pane.scrollOffset + visibleRows - 1)) ∈
          pane.overlayLines selectedBlock visibleRows := by
      rw [PaneState.overlayLines, htop, computeBlockOverlayLines, if_neg hroom.ne']
      exact List.mem_filterMap.2 ⟨b, hb, hline⟩
    obtain ⟨hprompt, hrange⟩ := hmatches b hb _ hline hmem
    refine (straight_iff hoverlaps).2 ⟨fun hbelow => ?_, fun k r hk => ?_⟩
    · have hv := hoverlaps.2
      exact hprompt _ (promptVisualRow_iff.2 ⟨hbelow, rfl⟩) (by omega)
    · exact (between_iff (getElem?_drawn.1 hk).1).symm.trans (hrange k r hk)
  · intro hstraight
    refine ⟨_, rfl, fun b hb line hline hmem => ?_⟩
    have hroom : 0 < visibleRows := by
      refine Nat.pos_of_ne_zero fun hzero => ?_
      rw [PaneState.overlayLines, computeBlockOverlayLines, if_pos hzero] at hmem
      cases hmem
    obtain ⟨hoverlaps, rfl⟩ := (mem_overlayLine_iff hroom).1 hline
    obtain ⟨hprompt, hrange⟩ := (straight_iff hoverlaps).1 (hstraight hroom b hb hoverlaps)
    refine ⟨fun v hv _ => ?_, fun k r hk => ?_⟩
    · obtain ⟨hbelow, rfl⟩ := promptVisualRow_iff.1 hv
      exact hprompt hbelow
    · exact (between_iff (getElem?_drawn.1 hk).1).trans (hrange k r hk)

/-- With room for one row, nothing is beside a wrong row; -/
theorem overlayMatches_collapsed : OverlayMatches collapsedPane none 1 := by
  refine (overlayMatches_iff 10 _ collapsedPane collapsed_run (by decide) none 1).2 ?_
  intro _ b hb hoverlaps
  simp only [collapsedPane, List.mem_cons, List.not_mem_nil, or_false] at hb
  rcases hb with rfl | rfl
  · refine ⟨fun htop => absurd htop (by decide), fun last hlast _ => .inr fun r hafter hlt _ => ?_⟩
    obtain rfl := Option.some.inj hlast
    obtain rfl : r = 3 := by have hlt : r < 4 := hlt; omega
    decide
  · exact absurd hoverlaps.2 (by decide)

/-- but with room for three, the row of the second prompt is beside the first block, and the badge
    of the second one is beside nothing. -/
theorem overlay_shifts : collapsedPane.drawnRows 3 = some [1, 3] ∧
    (collapsedPane.overlayLines none 3).map
        (fun line => (line.visualRowStart, line.visualRowEnd, line.promptVisualRow)) =
      [(-1, 1, none), (2, 2, some 2)] ∧
    ¬OverlayMatches collapsedPane none 3 := by
  have hdrawn : collapsedPane.drawnRows 3 = some [1, 3] := by
    obtain ⟨lines, h⟩ := Scrollback.exists_shows collapsed_run
    rw [PaneState.drawnRows, if_neg (by decide), walk_kept h]
    decide
  refine ⟨hdrawn, by decide, ?_⟩
  rintro ⟨rows, hrows, hmatches⟩
  obtain rfl := Option.some.inj (hdrawn.symm.trans hrows)
  obtain ⟨-, hrange⟩ := hmatches _ List.mem_cons_self ⟨0, -1, 1, .success, false, none⟩
    (by decide) (by decide)
  exact absurd (((hrange 1 3 rfl).1 (by decide)).2 2 rfl) (by decide)

end Nexterm.Client

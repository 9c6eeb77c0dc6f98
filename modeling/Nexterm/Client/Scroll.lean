/-
  The scroll offset of the client (`state/server_message.rs`, `state/search.rs`) and the rows that
  the renderer draws (`renderer/grid_verts.rs`).

  * `Scrolled.step`: scrolling, incremental search and prompt jumps; all of them write the offset.
  * `walk`: the rows that the renderer draws from an offset on, those of a collapsed block left out.
  * `Means`: what a step on the offset is to do to the rows that are drawn.
  * `Agrees`: the condition under which it does; scrolling counts lines from the newest one,
    everything else from the oldest.
  * `scroll_steps_iff`: it is exact for every run.

  The regular expressions are those of a library: `regex` compiles a pattern.
-/
import Nexterm.Client.Pane
import Nexterm.Lib.Runs
import Nexterm.Vt.Performer

namespace Nexterm.Client

open Nexterm.Vt (Cell isWhitespace)

/-! ## The search -/

namespace Scrollback

/-- Convert a row into a string. -/
def lineToString (line : List Cell) : String :=
  String.ofList ((line.map Cell.ch).reverse.dropWhile isWhitespace).reverse

variable (regex : String → Option (String → Bool))

/-- The first of the rows that matches. -/
def searchRows (s : Scrollback (List Cell)) (isMatch : String → Bool) (rows : List ℕ) :
    Option (Option ℕ) :=
  rows.findSomeM? fun row => do
    let rowIdx ← checkedRem row s.len
    match ← s.get rowIdx with
    | none => some none
    | some line => some (if isMatch (lineToString line) then some rowIdx else none)

/-- Incremental search: the next row that matches, from `fromRow` on. -/
def searchNext (s : Scrollback (List Cell)) (pattern : String) (fromRow : ℕ) :
    Option (Option ℕ) :=
  if pattern.isEmpty then some none
  else match regex pattern with
    | none => some none
    | some isMatch => s.searchRows isMatch ((List.range s.len).map fun offset => fromRow + offset)

/-- Incremental search: the previous row that matches, before `beforeRow`. -/
def searchPrev (s : Scrollback (List Cell)) (pattern : String) (beforeRow : ℕ) :
    Option (Option ℕ) :=
  if pattern.isEmpty ∨ s.len = 0 then some none
  else match regex pattern with
    | none => some none
    | some isMatch =>
      s.searchRows isMatch ((List.range' 1 s.len).map fun offset => beforeRow + s.len - offset)

end Scrollback

/-- Incremental search state. -/
structure SearchState where
  query : String
  isActive : Bool
  /-- Currently highlighted row, an index into the scrollback. -/
  currentMatch : Option ℕ

/-- The focused pane and the search. -/
structure Scrolled where
  pane : PaneState
  search : SearchState

/-- What the user can do to the scroll offset. -/
inductive ScrollOp
  | scrollUp (lines : ℕ)
  | scrollDown (lines : ℕ)
  | startSearch
  | pushSearchChar (ch : Char)
  | popSearchChar
  | searchNext
  | searchPrev
  | endSearch
  | jumpPrevPrompt
  | jumpNextPrompt

namespace PaneState

def scrollUp (pane : PaneState) (lines : ℕ) : PaneState :=
  { pane with scrollOffset := min (pane.scrollOffset + lines) (pane.scrollback.len - 1) }

def scrollDown (pane : PaneState) (lines : ℕ) : PaneState :=
  { pane with scrollOffset := pane.scrollOffset - lines }

/-- The anchor that `jump_prev_prompt` goes to. -/
def prevPrompt (pane : PaneState) : Option ℕ :=
  pane.promptAnchors.reverse.find? fun idx =>
    idx > pane.scrollOffset ∧ idx ≤ pane.scrollback.len - 1

/-- The anchor that `jump_next_prompt` goes to. -/
def nextPrompt (pane : PaneState) : Option ℕ :=
  pane.promptAnchors.reverse.find? fun idx => idx < pane.scrollOffset

/-- Jump to the previous prompt. -/
def jumpPrevPrompt (pane : PaneState) : PaneState :=
  match pane.prevPrompt with
  | some idx => { pane with scrollOffset := idx }
  | none => pane

/-- Jump to the next prompt; below every anchor, snap back to the live screen. -/
def jumpNextPrompt (pane : PaneState) : PaneState :=
  match pane.nextPrompt with
  | some idx => { pane with scrollOffset := idx }
  | none =>
    if pane.scrollOffset > 0 ∧ pane.promptAnchors ≠ [] then { pane with scrollOffset := 0 }
    else pane

end PaneState

namespace Scrolled

/-- The result of a search is highlighted and scrolled to. -/
def goTo (s : Scrolled) (result : Option ℕ) : Scrolled where
  pane := match result with
    | some row => { s.pane with scrollOffset := row }
    | none => s.pane
  search := { s.search with currentMatch := result }

variable (regex : String → Option (String → Bool))

def searchNextFrom (s : Scrolled) (fromRow : ℕ) : Option Scrolled := do
  let result ← s.pane.scrollback.searchNext regex s.search.query fromRow
  some (s.goTo result)

def startSearch (s : Scrolled) : Scrolled := { s with search := ⟨"", true, none⟩ }

/-- Append a char to the query. -/
def pushChar (s : Scrolled) (ch : Char) : Scrolled :=
  { s with search := { s.search with query := s.search.query.push ch } }

/-- Pop the last char off the query. -/
def popChar (s : Scrolled) : Scrolled :=
  { s with search :=
    { s.search with query := String.ofList s.search.query.toList.dropLast } }

/-- The row after the current match. -/
def nextFrom (s : Scrolled) : ℕ := (s.search.currentMatch.map (· + 1)).getD 0

def endSearch (s : Scrolled) : Scrolled where
  pane := { s.pane with scrollOffset := 0 }
  search := ⟨"", false, none⟩

def step (s : Scrolled) : ScrollOp → Option Scrolled
  | .scrollUp lines => some { s with pane := s.pane.scrollUp lines }
  | .scrollDown lines => some { s with pane := s.pane.scrollDown lines }
  | .startSearch => some s.startSearch
  | .pushSearchChar ch => (s.pushChar ch).searchNextFrom regex 0
  | .popSearchChar => s.popChar.searchNextFrom regex 0
  | .searchNext => s.searchNextFrom regex s.nextFrom
  | .searchPrev => do
    let result ← s.pane.scrollback.searchPrev regex s.search.query (s.search.currentMatch.getD 0)
    some (s.goTo result)
  | .endSearch => some s.endSearch
  | .jumpPrevPrompt => some { s with pane := s.pane.jumpPrevPrompt }
  | .jumpNextPrompt => some { s with pane := s.pane.jumpNextPrompt }

end Scrolled

/-! ## The rows that are drawn -/

/-- The last row that a block can hide. -/
def lastHidden (blocks : List CommandBlock) : ℕ :=
  blocks.foldr (fun b last => max (b.endRow.getD 0) last) 0

theorem le_lastHidden {blocks : List CommandBlock} {row : ℕ}
    (h : isRowCollapsed blocks row = true) : row ≤ lastHidden blocks := by
  induction blocks with
  | nil => cases h
  | cons b blocks ih =>
    simp only [lastHidden, List.foldr_cons]
    simp only [isRowCollapsed] at h
    split at h
    · next endRow _ hend =>
      rw [hend]
      split_ifs at h with hout
      · exact le_max_of_le_right (ih h)
      · exact le_max_of_le_left (not_lt.1 fun hlt => hout (.inr hlt))
    · exact le_max_of_le_right (ih h)

namespace PaneState

/-- The walk of the renderer: the rows of the scrollback from `sbRow` on that it draws while there
    is room for `remaining` of them. -/
def walk (pane : PaneState) (remaining sbRow : ℕ) : Option (List ℕ) :=
  if remaining = 0 then some []
  else if isRowCollapsed pane.blocks sbRow then pane.walk remaining (sbRow + 1)
  else do
    match ← pane.scrollback.get sbRow with
    | none => some []
    | some _ => return sbRow :: (← pane.walk (remaining - 1) (sbRow + 1))
  termination_by (remaining, lastHidden pane.blocks + 1 - sbRow)
  decreasing_by
  · next h =>
    have := le_lastHidden h
    exact .right _ (by omega)
  · exact .left _ _ (by omega)

/-- The rows of the scrollback that are drawn; the live grid has none. -/
def drawnRows (pane : PaneState) (visibleRows : ℕ) : Option (List ℕ) :=
  if pane.scrollOffset = 0 then some [] else pane.walk visibleRows pane.scrollOffset

/-- The first row that is drawn; the live screen counts as the row after the last one. -/
def firstRow (pane : PaneState) (visibleRows : ℕ) : Option ℕ :=
  if pane.scrollOffset = 0 then some pane.scrollback.len
  else (pane.drawnRows visibleRows).bind List.head?

/-- The row is among those that are drawn. -/
def Draws (pane : PaneState) (visibleRows row : ℕ) : Prop :=
  ∃ rows, pane.drawnRows visibleRows = some rows ∧ row ∈ rows

end PaneState

/-! ## One meaning of the offset -/

namespace Scrolled

variable (regex : String → Option (String → Bool)) (visibleRows : ℕ)

/-- The rows in the order of a search forward, -/
def rowsFrom (len fromRow : ℕ) : List ℕ := (List.range len).map fun k => (fromRow + k) % len

/-- and in the order of a search backward. -/
def rowsBefore (len beforeRow : ℕ) : List ℕ :=
  (List.range' 1 len).map fun k => (beforeRow + len - k) % len

/-- The first of the rows that matches the query. -/
def firstMatch (s : Scrolled) (rows : List ℕ) : Option ℕ :=
  if s.search.query.isEmpty then none
  else (regex s.search.query).bind fun isMatch => rows.find? fun row =>
    (s.pane.scrollback.get row).join.any fun line => isMatch (Scrollback.lineToString line)

/-- What a step is to do to the rows that are drawn: scrolling up moves the first one to the next
    older one, and scrolling down again moves it back; a search step or a jump draws the row that
    it goes to. -/
def Means (s : Scrolled) (op : ScrollOp) : Prop :=
  ∃ s', s.step regex op = some s' ∧ match op with
    | .scrollUp lines => lines = 1 → ∀ i > 0, s.pane.firstRow visibleRows = some i →
      s'.pane.firstRow visibleRows = some (i - 1) ∧
        (s'.pane.scrollDown 1).firstRow visibleRows = some i
    | .pushSearchChar _ | .popSearchChar | .searchNext | .searchPrev =>
      ∀ row, s'.search.currentMatch = some row → s'.pane.Draws visibleRows row
    | .jumpPrevPrompt => ∀ row, s.pane.prevPrompt = some row → s'.pane.Draws visibleRows row
    | .jumpNextPrompt => ∀ row, s.pane.nextPrompt = some row → s'.pane.Draws visibleRows row
    | _ => True

/-- The row is not the oldest one and not hidden, and there is room for a row. -/
def Visible (pane : PaneState) (row : ℕ) : Prop :=
  row ≠ 0 ∧ row < pane.scrollback.len ∧ isRowCollapsed pane.blocks row = false ∧ 0 < visibleRows

/-- Scrolling up counts from the oldest line: it starts at row 1, which is the newest line only if
    there are two lines or all between them are hidden; and it never moves a row that is drawn.
    The target of a search step or a jump is drawn if it is visible. -/
def Agrees (s : Scrolled) : ScrollOp → Prop
  | .scrollUp lines => lines = 1 →
    if s.pane.scrollOffset = 0 then
      Visible visibleRows s.pane (s.pane.scrollback.len - 1) ∧
        ∀ row, 0 < row → row < s.pane.scrollback.len - 1 →
          isRowCollapsed s.pane.blocks row = true
    else
      ∀ row, s.pane.scrollOffset ≤ row → ¬Visible visibleRows s.pane row
  | .pushSearchChar ch => ∀ row,
    (s.pushChar ch).firstMatch regex (rowsFrom s.pane.scrollback.len 0) = some row →
      Visible visibleRows s.pane row
  | .popSearchChar => ∀ row,
    s.popChar.firstMatch regex (rowsFrom s.pane.scrollback.len 0) = some row →
      Visible visibleRows s.pane row
  | .searchNext => ∀ row,
    s.firstMatch regex (rowsFrom s.pane.scrollback.len s.nextFrom) = some row →
      Visible visibleRows s.pane row
  | .searchPrev => ∀ row,
    s.firstMatch regex
        (rowsBefore s.pane.scrollback.len (s.search.currentMatch.getD 0)) = some row →
      Visible visibleRows s.pane row
  | .jumpPrevPrompt => ∀ row, s.pane.prevPrompt = some row → Visible visibleRows s.pane row
  | .jumpNextPrompt => ∀ row, s.pane.nextPrompt = some row → Visible visibleRows s.pane row
  | _ => True

end Scrolled

/-! ## The walk -/

namespace PaneState

variable {pane : PaneState} {lines : List (List Cell)} {visibleRows : ℕ}

/-- The rows from `sbRow` on that are not hidden. -/
def shownFrom (pane : PaneState) (len sbRow : ℕ) : List ℕ :=
  (List.range' sbRow (len - sbRow)).filter fun row => !isRowCollapsed pane.blocks row

/-- The walk draws the first of these. -/
theorem walk_eq (h : pane.scrollback.Shows lines) (remaining sbRow : ℕ) :
    pane.walk remaining sbRow = some ((pane.shownFrom lines.length sbRow).take remaining) := by
  fun_induction walk pane remaining sbRow with
  | case1 => rfl
  | case2 remaining sbRow hroom hhidden ih =>
    rw [ih, shownFrom, shownFrom]
    by_cases hlt : sbRow < lines.length
    · rw [show lines.length - sbRow = lines.length - (sbRow + 1) + 1 by omega, List.range'_succ,
        List.filter_cons_of_neg (by simp [hhidden])]
    · rw [Nat.sub_eq_zero_of_le (not_lt.1 hlt), Nat.sub_eq_zero_of_le (by omega)]
      rfl
  | case3 remaining sbRow hroom hshown ih =>
    rw [h.2 sbRow]
    by_cases hlt : sbRow < lines.length
    · rw [List.getElem?_eq_getElem hlt, shownFrom,
        show lines.length - sbRow = lines.length - (sbRow + 1) + 1 by omega, List.range'_succ,
        List.filter_cons_of_pos (by simpa using hshown)]
      obtain ⟨remaining, rfl⟩ := Nat.exists_eq_succ_of_ne_zero hroom
      show (do return sbRow :: (← pane.walk (remaining + 1 - 1) (sbRow + 1))) = _
      rw [ih]
      rfl
    · rw [List.getElem?_eq_none (not_lt.1 hlt), shownFrom, Nat.sub_eq_zero_of_le (not_lt.1 hlt)]
      exact congrArg some List.take_nil.symm

theorem drawnRows_eq (h : pane.scrollback.Shows lines) (hoffset : pane.scrollOffset ≠ 0) :
    pane.drawnRows visibleRows =
      some ((pane.shownFrom lines.length pane.scrollOffset).take visibleRows) := by
  rw [drawnRows, if_neg hoffset, walk_eq h]

end PaneState

namespace Scrolled

variable {pane : PaneState} {lines : List (List Cell)} {visibleRows : ℕ}

/-- The row at the offset is drawn if it is visible. -/
theorem draws_iff (pane : PaneState) (h : pane.scrollback.Shows lines) {row : ℕ}
    (hrow : pane.scrollOffset = row) :
    pane.Draws visibleRows row ↔ Visible visibleRows pane row := by
  by_cases hzero : row = 0
  · subst hzero
    refine iff_of_false ?_ fun hvisible => hvisible.1 rfl
    rintro ⟨rows, hrows, hmem⟩
    rw [PaneState.drawnRows, if_pos hrow] at hrows
    cases hrows
    cases hmem
  · unfold PaneState.Draws
    rw [PaneState.drawnRows_eq h (hrow ▸ hzero), hrow]
    constructor
    · rintro ⟨rows, hrows, hmem⟩
      cases hrows
      have hshown := List.mem_of_mem_take hmem
      simp only [PaneState.shownFrom, List.mem_filter, List.mem_range'_1,
        Bool.not_eq_true'] at hshown
      refine ⟨hzero, ?_, hshown.2, ?_⟩
      · have := h.1
        omega
      · exact Nat.pos_of_ne_zero fun hroom => by simp [hroom] at hmem
    · rintro ⟨-, hlt, hshown, hroom⟩
      rw [h.1] at hlt
      obtain ⟨room, rfl⟩ := Nat.exists_eq_succ_of_ne_zero hroom.ne'
      refine ⟨_, rfl, ?_⟩
      rw [PaneState.shownFrom, show lines.length - row = lines.length - (row + 1) + 1 by omega,
        List.range'_succ, List.filter_cons_of_pos (by simpa using hshown)]
      exact List.mem_cons_self

/-- In the scrollback, the first row that is drawn is the first visible one. -/
theorem firstRow_eq_some_iff (pane : PaneState) (h : pane.scrollback.Shows lines)
    (hoffset : pane.scrollOffset ≠ 0)
    {i : ℕ} : pane.firstRow visibleRows = some i ↔
      pane.scrollOffset ≤ i ∧ Visible visibleRows pane i ∧
        ∀ j, pane.scrollOffset ≤ j → j < i → isRowCollapsed pane.blocks j = true := by
  rw [PaneState.firstRow, if_neg hoffset, PaneState.drawnRows_eq h hoffset]
  show ((pane.shownFrom _ _).take visibleRows).head? = some i ↔ _
  rw [List.head?_take]
  have hlen := h.1
  split_ifs with hroom
  · refine iff_of_false (fun hi => nomatch hi) ?_
    rintro ⟨-, hvisible, -⟩
    exact absurd hvisible.2.2.2 (by omega)
  · rw [PaneState.shownFrom, List.head?_filter, List.find?_range'_eq_some]
    simp only [List.mem_range'_1, Bool.not_eq_true', Bool.not_not]
    constructor
    · rintro ⟨hshown, hi, hhidden⟩
      exact ⟨hi.1, ⟨by omega, by omega, hshown, by omega⟩, hhidden⟩
    · rintro ⟨hi, ⟨-, hlt, hshown, -⟩, hhidden⟩
      exact ⟨hshown, ⟨hi, by omega⟩, hhidden⟩

/-! ## Scrolling -/

theorem scrollUp_iff (h : pane.scrollback.Shows lines) (hpos : 0 < pane.scrollback.len) :
    (∀ i > 0, pane.firstRow visibleRows = some i →
        (pane.scrollUp 1).firstRow visibleRows = some (i - 1) ∧
          ((pane.scrollUp 1).scrollDown 1).firstRow visibleRows = some i) ↔
      if pane.scrollOffset = 0 then
        Visible visibleRows pane (pane.scrollback.len - 1) ∧
          ∀ row, 0 < row → row < pane.scrollback.len - 1 → isRowCollapsed pane.blocks row = true
      else ∀ row, pane.scrollOffset ≤ row → ¬Visible visibleRows pane row := by
  have hup : (pane.scrollUp 1).scrollOffset =
      min (pane.scrollOffset + 1) (pane.scrollback.len - 1) := rfl
  split_ifs with hoffset
  · -- from the live screen
    rw [hoffset, Nat.zero_add] at hup
    rw [PaneState.firstRow, if_pos hoffset]
    by_cases hlen : pane.scrollback.len = 1
    · refine iff_of_false (fun hmoves => ?_) fun hvisible => hvisible.1.1 (by omega)
      obtain ⟨hfirst, -⟩ := hmoves _ hpos rfl
      rw [PaneState.firstRow, if_pos (by omega)] at hfirst
      have : pane.scrollback.len = pane.scrollback.len - 1 := Option.some.inj hfirst
      omega
    · have hone : (pane.scrollUp 1).scrollOffset = 1 := by omega
      have hfirst : (pane.scrollUp 1).firstRow visibleRows = some (pane.scrollback.len - 1) ↔ _ :=
        firstRow_eq_some_iff (pane.scrollUp 1) h (by omega)
      rw [hone] at hfirst
      constructor
      · intro hmoves
        obtain ⟨-, hvisible, hhidden⟩ := hfirst.1 (hmoves _ hpos rfl).1
        exact ⟨hvisible, hhidden⟩
      · rintro ⟨hvisible, hhidden⟩ i - hi
        cases hi
        refine ⟨hfirst.2 ⟨by omega, hvisible, hhidden⟩, ?_⟩
        have hlive : ((pane.scrollUp 1).scrollDown 1).scrollOffset = 0 := by
          show (pane.scrollUp 1).scrollOffset - 1 = 0
          omega
        rw [PaneState.firstRow, if_pos hlive]
        rfl
  · constructor
    · -- the first visible row stays where it is or is scrolled past
      intro hmoves row hle hvisible
      classical
      have hex : ∃ i, pane.scrollOffset ≤ i ∧ Visible visibleRows pane i := ⟨row, hle, hvisible⟩
      obtain ⟨hi, hvisible⟩ := Nat.find_spec hex
      have hhidden : ∀ j, pane.scrollOffset ≤ j → j < Nat.find hex →
          isRowCollapsed pane.blocks j = true := by
        intro j hj hlt
        by_contra hshown
        refine Nat.find_min hex hlt ⟨hj, by omega, ?_, by simpa using hshown, hvisible.2.2.2⟩
        exact hlt.trans hvisible.2.1
      generalize Nat.find hex = i at hi hvisible hhidden
      obtain ⟨hfirst, -⟩ := hmoves i (by omega)
        ((firstRow_eq_some_iff pane h hoffset).2 ⟨hi, hvisible, hhidden⟩)
      have hlt := hvisible.2.1
      obtain ⟨hle, hshown, -⟩ := (firstRow_eq_some_iff (pane.scrollUp 1) h
        (by omega)).1 hfirst
      have hshown : isRowCollapsed pane.blocks (i - 1) = false := hshown.2.2.1
      rw [hhidden (i - 1) (by omega) (by omega)] at hshown
      cases hshown
    · intro hnone i _ hfirst
      obtain ⟨hle, hvisible, -⟩ := (firstRow_eq_some_iff pane h hoffset).1 hfirst
      exact absurd hvisible (hnone i hle)

/-! ## Searches and jumps -/

variable {s : Scrolled} {regex : String → Option (String → Bool)}

theorem searchRows_eq {scrollback : Scrollback (List Cell)} (h : scrollback.Shows lines)
    (hpos : 0 < scrollback.len) (isMatch : String → Bool) (rows : List ℕ) :
    scrollback.searchRows isMatch rows = some ((rows.map (· % scrollback.len)).find? fun row =>
      (scrollback.get row).join.any fun line => isMatch (Scrollback.lineToString line)) := by
  unfold Scrollback.searchRows
  induction rows with
  | nil => rfl
  | cons row rows ih =>
    have hlt : row % scrollback.len < lines.length := h.1 ▸ Nat.mod_lt row hpos
    have hget : scrollback.get (row % scrollback.len) = some (some lines[row % scrollback.len]) :=
      (h.2 _).trans (congrArg some (List.getElem?_eq_getElem hlt))
    rw [List.findSomeM?_cons, ih, checkedRem_of_pos hpos, List.map_cons, List.find?_cons]
    simp only [Option.bind_eq_bind, Option.bind_some, hget, Option.join_some, Option.any_some]
    cases isMatch (Scrollback.lineToString lines[row % scrollback.len]) <;> rfl

theorem searchNext_eq (h : s.pane.scrollback.Shows lines) (hpos : 0 < s.pane.scrollback.len)
    (fromRow : ℕ) : s.pane.scrollback.searchNext regex s.search.query fromRow =
      some (s.firstMatch regex (rowsFrom s.pane.scrollback.len fromRow)) := by
  unfold Scrollback.searchNext firstMatch
  split_ifs
  · rfl
  · cases regex s.search.query with
    | none => rfl
    | some isMatch =>
      show Scrollback.searchRows _ _ _ = _
      rw [searchRows_eq h hpos, List.map_map]
      rfl

theorem searchPrev_eq (h : s.pane.scrollback.Shows lines) (hpos : 0 < s.pane.scrollback.len)
    (beforeRow : ℕ) : s.pane.scrollback.searchPrev regex s.search.query beforeRow =
      some (s.firstMatch regex (rowsBefore s.pane.scrollback.len beforeRow)) := by
  unfold Scrollback.searchPrev firstMatch
  simp only [hpos.ne', or_false]
  split_ifs
  · rfl
  · cases regex s.search.query with
    | none => rfl
    | some isMatch =>
      show Scrollback.searchRows _ _ _ = _
      rw [searchRows_eq h hpos, List.map_map]
      rfl

theorem goTo_iff (s : Scrolled) (h : s.pane.scrollback.Shows lines) (result : Option ℕ) :
    (∀ row, (s.goTo result).search.currentMatch = some row →
        (s.goTo result).pane.Draws visibleRows row) ↔
      ∀ row, result = some row → Visible visibleRows s.pane row := by
  cases result with
  | none => exact iff_of_true (fun row hrow => nomatch hrow) fun row hrow => nomatch hrow
  | some target =>
    refine forall₂_congr fun row hrow => ?_
    cases hrow
    exact draws_iff { s.pane with scrollOffset := target } h rfl

/-- **Each step on the offset means what it should** exactly if scrolling and the rest agree. -/
theorem means_iff (h : s.pane.scrollback.Shows lines) (hpos : 0 < s.pane.scrollback.len)
    (op : ScrollOp) : s.Means regex visibleRows op ↔ s.Agrees regex visibleRows op := by
  have hsearch : ∀ {op : ScrollOp} {P : Scrolled → Prop} (s' : Scrolled),
      s.step regex op = some s' → ((∃ s'', s.step regex op = some s'' ∧ P s'') ↔ P s') := by
    intro op P s' hstep
    rw [hstep]
    exact ⟨fun ⟨s'', hs'', hP⟩ => Option.some.inj hs'' ▸ hP, fun hP => ⟨s', rfl, hP⟩⟩
  unfold Means Agrees
  cases op with
  | scrollUp lines =>
    refine (hsearch _ rfl).trans (forall_congr' ?_)
    rintro rfl
    exact scrollUp_iff h hpos
  | pushSearchChar ch =>
    refine (hsearch ((s.pushChar ch).goTo _) ?_).trans (goTo_iff (s.pushChar ch) h _)
    show searchNextFrom regex _ _ = _
    rw [searchNextFrom, searchNext_eq (s := s.pushChar ch) h hpos]
    rfl
  | popSearchChar =>
    refine (hsearch (s.popChar.goTo _) ?_).trans (goTo_iff s.popChar h _)
    show searchNextFrom regex _ _ = _
    rw [searchNextFrom, searchNext_eq (s := s.popChar) h hpos]
    rfl
  | searchNext =>
    refine (hsearch (s.goTo _) ?_).trans (goTo_iff s h _)
    show searchNextFrom regex _ _ = _
    rw [searchNextFrom, searchNext_eq h hpos]
    rfl
  | searchPrev =>
    refine (hsearch (s.goTo _) ?_).trans (goTo_iff s h _)
    show (Option.bind _ _) = _
    rw [searchPrev_eq h hpos]
    rfl
  | jumpPrevPrompt =>
    refine (hsearch _ rfl).trans (forall₂_congr fun row hrow => ?_)
    show (s.pane.jumpPrevPrompt).Draws _ _ ↔ _
    rw [PaneState.jumpPrevPrompt, hrow]
    exact draws_iff { s.pane with scrollOffset := row } h rfl
  | jumpNextPrompt =>
    refine (hsearch _ rfl).trans (forall₂_congr fun row hrow => ?_)
    show (s.pane.jumpNextPrompt).Draws _ _ ↔ _
    rw [PaneState.jumpNextPrompt, hrow]
    exact draws_iff { s.pane with scrollOffset := row } h rfl
  | scrollDown lines => exact (hsearch _ rfl).trans Iff.rfl
  | startSearch => exact (hsearch _ rfl).trans Iff.rfl
  | endSearch => exact (hsearch _ rfl).trans Iff.rfl

/-! ## Runs -/

/-- No step on the offset touches the scrollback. -/
theorem step_scrollback {s' : Scrolled} {op : ScrollOp} (h : s.step regex op = some s') :
    s'.pane.scrollback = s.pane.scrollback := by
  -- the search operations go to the row that a search has found
  have hgoTo : ∀ (t : Scrolled) {found : Option (Option ℕ)},
      (found.bind fun result => some (t.goTo result)) = some s' →
        s'.pane.scrollback = t.pane.scrollback := by
    intro t found h
    obtain ⟨result, -, h⟩ := Option.bind_eq_some_iff.1 h
    cases h
    cases result <;> rfl
  cases op with
  | pushSearchChar ch => exact hgoTo (s.pushChar ch) h
  | popSearchChar => exact hgoTo s.popChar h
  | searchNext => exact hgoTo s h
  | searchPrev => exact hgoTo s h
  | jumpPrevPrompt =>
    cases h
    show s.pane.jumpPrevPrompt.scrollback = _
    unfold PaneState.jumpPrevPrompt
    split <;> rfl
  | jumpNextPrompt =>
    cases h
    show s.pane.jumpNextPrompt.scrollback = _
    unfold PaneState.jumpNextPrompt
    split
    · rfl
    · split_ifs <;> rfl
  | scrollUp lines => cases h; rfl
  | scrollDown lines => cases h; rfl
  | startSearch => cases h; rfl
  | endSearch => cases h; rfl

/-- The client after a step; one that has panicked does nothing any more. -/
def stepOrPanic (regex : String → Option (String → Bool)) (s : Option Scrolled) (op : ScrollOp) :
    Option Scrolled :=
  s.bind (step regex · op)

/-- **The offset has one meaning** in exactly those runs in which every step agrees. -/
theorem scroll_steps_iff (regex : String → Option (String → Bool)) (visibleRows : ℕ)
    (s : Scrolled) (lines : List (List Cell)) (hlines : lines ≠ [])
    (h : s.pane.scrollback.Shows lines) (ops : List ScrollOp) :
    Runs.Along (stepOrPanic regex)
        (fun s op => ∀ t, s = some t → t.Means regex visibleRows op) (some s) ops ↔
      Runs.Along (stepOrPanic regex)
        (fun s op => ∀ t, s = some t → t.Agrees regex visibleRows op) (some s) ops := by
  refine Runs.along_congr (I := fun s => ∀ t, s = some t → t.pane.scrollback.Shows lines) ?_ ?_ ?_
  · intro s op hs t' ht'
    obtain ⟨t, rfl, hstep⟩ := Option.bind_eq_some_iff.1 ht'
    rw [step_scrollback hstep]
    exact hs t rfl
  · intro s op hs
    refine forall₂_congr fun t ht => means_iff (hs t ht) ?_ op
    rw [(hs t ht).1]
    exact List.length_pos_of_ne_nil hlines
  · rintro t ht
    cases ht
    exact h

/-- The live screen above a full scrollback of empty lines. -/
def above (n : ℕ) : Scrolled where
  pane := { PaneState.new 1 1 n with scrollback := ⟨n, List.replicate n [], 0, n⟩ }
  search := ⟨"", false, none⟩

theorem above_shows {n : ℕ} (hn : 0 < n) :
    (above n).pane.scrollback.Shows (List.replicate n []) := by
  have hlen : (List.replicate n ([] : List Cell)).length = n := List.length_replicate
  refine Scrollback.Holds.shows ⟨hn, hlen.symm, hlen.le, .inr hlen, hn, rfl, ?_⟩
  rw [if_neg (by rw [hlen]; exact lt_irrefl n)]
  exact List.rotate_zero _

theorem scroll_steps_two : Runs.Along (stepOrPanic fun _ => none)
    (fun s op => ∀ t, s = some t → t.Means (fun _ => none) 24 op) (some (above 2))
    [.scrollUp 1] := by
  refine (scroll_steps_iff _ 24 _ _ (by decide) (above_shows (by decide)) _).2 ⟨?_, trivial⟩
  rintro t ht -
  cases ht
  exact ⟨⟨by decide, by decide, rfl, by decide⟩,
    fun row hpos hlt => absurd (show row < 1 from hlt) (by omega)⟩

/-- With three lines, scrolling up from the live screen starts at the second of them; and a search
    that finds the oldest line shows the live screen. -/
theorem scroll_steps_three :
    ¬Runs.Along (stepOrPanic fun _ => none)
        (fun s op => ∀ t, s = some t → t.Means (fun _ => none) 24 op) (some (above 3))
        [.scrollUp 1] ∧
      ¬Runs.Along (stepOrPanic fun _ => some fun _ => true)
        (fun s op => ∀ t, s = some t → t.Means (fun _ => some fun _ => true) 24 op)
        (some (above 3)) [.pushSearchChar 'a'] := by
  constructor
  · rintro ⟨h, -⟩
    obtain ⟨-, hhidden⟩ := (means_iff (above_shows (by decide)) (by decide) _).1 (h _ rfl) rfl
    exact absurd (hhidden 1 (by decide) (by decide)) (by decide)
  · rintro ⟨h, -⟩
    have hvisible := (means_iff (above_shows (by decide)) (by decide) _).1 (h _ rfl) 0 (by decide)
    exact hvisible.1 rfl

end Scrolled

end Nexterm.Client

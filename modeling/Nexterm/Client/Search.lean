/-
  The search in the scrollback (`scrollback.rs`, `state/search.rs`), round the circle of its rows.

  * `matchesAt`: does the row match the pattern?
  * `searchNext_cyclic`, `searchPrev_cyclic`: both searches in terms of the cyclic order.
  * `search_cyclic`: they find the first matching row, and repeated searches visit every matching
    row before one of them again.

  Row numbers are natural numbers: no sum of a row and a length comes near the end of `usize`.
-/
import Nexterm.Client.Scroll
import Nexterm.Lib.Cyclic

namespace Nexterm.Client

open Nexterm.Vt (Cell)

variable {regex : String → Option (String → Bool)} {lines : List (List Cell)}

namespace Scrollback

variable {s : Scrollback (List Cell)}

/-- Does the row match?  No row matches an empty or an invalid pattern. -/
def matchesAt (s : Scrollback (List Cell)) (regex : String → Option (String → Bool))
    (pattern : String) (row : ℕ) : Bool :=
  !pattern.isEmpty && (regex pattern).any fun isMatch =>
    (s.get row).join.any fun line => isMatch (lineToString line)

/-- A scrollback shows its lines after every run that does not panic. -/
theorem exists_shows {capacity : ℕ} {ops : List (ScrollbackOp (List Cell))}
    (h : (new capacity).run ops = some s) : ∃ lines, s.Shows lines := by
  have hops : ¬PushedOntoNothing capacity ops := by
    rintro ⟨rfl, line, rest, rfl⟩
    cases h
  obtain ⟨s', hs', hshows⟩ := (ring_run_iff capacity ops).2 hops
  obtain rfl := Option.some.inj (h.symm.trans hs')
  exact ⟨_, hshows⟩

/-- Where a pattern is not empty and valid, the search looks for the first row that matches. -/
theorem searchRows_find? (h : s.Shows lines) {pattern : String} {isMatch : String → Bool}
    (hpattern : pattern.isEmpty = false) (hregex : regex pattern = some isMatch) {rows : List ℕ}
    (hpos : rows ≠ [] → 0 < s.len) :
    s.searchRows isMatch rows =
      some ((rows.map (· % s.len)).find? (s.matchesAt regex pattern)) := by
  have hmatches : s.matchesAt regex pattern =
      fun row => (s.get row).join.any fun line => isMatch (lineToString line) := by
    funext row
    simp [matchesAt, hpattern, hregex]
  cases rows with
  | nil => rfl
  | cons row rows =>
    rw [hmatches]
    exact Scrolled.searchRows_eq h (hpos (List.cons_ne_nil _ _)) isMatch (row :: rows)

theorem find?_matchesAt_of_empty {pattern : String} (h : pattern.isEmpty = true) (rows : List ℕ) :
    rows.find? (s.matchesAt regex pattern) = none := by
  simp [matchesAt, h]

theorem find?_matchesAt_of_invalid {pattern : String} (h : regex pattern = none) (rows : List ℕ) :
    rows.find? (s.matchesAt regex pattern) = none := by
  simp [matchesAt, h]

theorem searchNext_cyclic (h : s.Shows lines) (pattern : String) (fromRow : ℕ) :
    s.searchNext regex pattern fromRow =
      some (Cyclic.next s.len (s.matchesAt regex pattern) fromRow) := by
  unfold searchNext Cyclic.next
  split_ifs with hpattern
  · rw [find?_matchesAt_of_empty hpattern]
  · cases hregex : regex pattern with
    | none => rw [find?_matchesAt_of_invalid hregex]
    | some isMatch =>
      have hpos : ((List.range s.len).map fun offset => fromRow + offset) ≠ [] → 0 < s.len := by
        intro hne
        by_contra hzero
        simp [Nat.eq_zero_of_not_pos hzero] at hne
      dsimp only
      rw [searchRows_find? h (Bool.not_eq_true _ ▸ hpattern) hregex hpos, Cyclic.order_eq_map,
        List.map_map]
      rfl

theorem searchPrev_cyclic (h : s.Shows lines) (pattern : String) (beforeRow : ℕ) :
    s.searchPrev regex pattern beforeRow =
      some ((Cyclic.order s.len beforeRow).reverse.find? (s.matchesAt regex pattern)) := by
  unfold searchPrev
  split_ifs with hpattern
  · rcases hpattern with hpattern | hzero
    · rw [find?_matchesAt_of_empty hpattern]
    · rw [hzero]
      rfl
  · obtain ⟨hpattern, hzero⟩ := not_or.1 hpattern
    cases hregex : regex pattern with
    | none => rw [find?_matchesAt_of_invalid hregex]
    | some isMatch =>
      dsimp only
      rw [searchRows_find? h (Bool.not_eq_true _ ▸ hpattern) hregex
        fun _ => Nat.pos_of_ne_zero hzero, List.map_map, Cyclic.reverse_order]
      rfl

end Scrollback

namespace Scrolled

variable {s : Scrolled}

/-- A step of the search goes to the next row that matches. -/
theorem stepOrPanic_searchNext (regex : String → Option (String → Bool))
    (h : s.pane.scrollback.Shows lines) :
    stepOrPanic regex (some s) .searchNext = some (s.goTo (Cyclic.next s.pane.scrollback.len
      (s.pane.scrollback.matchesAt regex s.search.query) s.nextFrom)) := by
  change (do
    let result ← s.pane.scrollback.searchNext regex s.search.query s.nextFrom
    some (s.goTo result)) = _
  rw [Scrollback.searchNext_cyclic h]
  rfl

theorem goTo_scrollback (s : Scrolled) (result : Option ℕ) :
    (s.goTo result).pane.scrollback = s.pane.scrollback := by
  cases result <;> rfl

/-- Presses of the key that goes to the next match. -/
def presses (regex : String → Option (String → Bool)) (s : Scrolled) : ℕ → Option Scrolled
  | 0 => some s
  | k + 1 => stepOrPanic regex (presses regex s k) .searchNext

theorem presses_frame (regex : String → Option (String → Bool))
    (h : s.pane.scrollback.Shows lines) (k : ℕ) :
    ∃ s', presses regex s k = some s' ∧ s'.pane.scrollback = s.pane.scrollback ∧
      s'.search.query = s.search.query := by
  induction k with
  | zero => exact ⟨s, rfl, rfl, rfl⟩
  | succ k ih =>
    obtain ⟨s', hs', hscrollback, hquery⟩ := ih
    have hstep := stepOrPanic_searchNext regex (hscrollback ▸ h : s'.pane.scrollback.Shows lines)
    refine ⟨_, (congrArg (stepOrPanic regex · .searchNext) hs').trans hstep, ?_, hquery⟩
    exact (goTo_scrollback s' _).trans hscrollback

/-- What is highlighted after a press is the next row that matches. -/
theorem presses_next (regex : String → Option (String → Bool))
    (h : s.pane.scrollback.Shows lines) (k : ℕ) :
    ∃ s' s'', presses regex s k = some s' ∧ presses regex s (k + 1) = some s'' ∧
      s''.search.currentMatch = Cyclic.next s.pane.scrollback.len
        (s.pane.scrollback.matchesAt regex s.search.query) s'.nextFrom := by
  obtain ⟨s', hs', hscrollback, hquery⟩ := presses_frame regex h k
  have hstep := stepOrPanic_searchNext regex (hscrollback ▸ h : s'.pane.scrollback.Shows lines)
  refine ⟨s', _, hs', (congrArg (stepOrPanic regex · .searchNext) hs').trans hstep, ?_⟩
  rw [← hscrollback, ← hquery]
  rfl

/-- The matches that the presses go to. -/
theorem presses_visit (regex : String → Option (String → Bool))
    (h : s.pane.scrollback.Shows lines) (k : ℕ) :
    ∃ s', presses regex s (k + 1) = some s' ∧ s'.search.currentMatch =
      let rows := Cyclic.hits s.pane.scrollback.len
        (s.pane.scrollback.matchesAt regex s.search.query) s.nextFrom
      rows[k % rows.length]? := by
  -- what is highlighted after `k + 1` presses
  let cur (k : ℕ) : Option ℕ := (presses regex s (k + 1)).bind fun s' => s'.search.currentMatch
  have hzero : cur 0 = Cyclic.next s.pane.scrollback.len
      (s.pane.scrollback.matchesAt regex s.search.query) s.nextFrom := by
    obtain ⟨s', s'', hs', hs'', hcur⟩ := presses_next regex h 0
    cases hs'
    simp only [cur, hs'']
    exact hcur
  have hnone : ∀ k, cur k = none → ∃ fromRow, cur (k + 1) = Cyclic.next s.pane.scrollback.len
      (s.pane.scrollback.matchesAt regex s.search.query) fromRow := by
    intro k _
    obtain ⟨s', s'', -, hs'', hcur⟩ := presses_next regex h (k + 1)
    exact ⟨s'.nextFrom, by simp only [cur, hs'']; exact hcur⟩
  have hsome : ∀ k row, cur k = some row → cur (k + 1) = Cyclic.next s.pane.scrollback.len
      (s.pane.scrollback.matchesAt regex s.search.query) (row + 1) := by
    intro k row hrow
    obtain ⟨s', s'', hs', hs'', hcur⟩ := presses_next regex h (k + 1)
    simp only [cur, hs'] at hrow
    change s'.search.currentMatch = some row at hrow
    rw [nextFrom, hrow] at hcur
    simp only [cur, hs'']
    exact hcur
  have hvisits := Cyclic.next_visits cur hzero hnone hsome k
  obtain ⟨s', s'', -, hs'', -⟩ := presses_next regex h k
  simp only [cur, hs''] at hvisits
  exact ⟨s'', hs'', hvisits⟩

end Scrolled

/-- **The search goes round the circle.**  From a row on forwards, or from the row before it on
    backwards, it finds the first row that matches, and nothing only if no row does.  Going on to
    the next match visits all the rows that match, in order, before the first one again. -/
theorem search_cyclic (regex : String → Option (String → Bool)) (capacity : ℕ)
    (ops : List (ScrollbackOp (List Cell))) {s : Scrollback (List Cell)}
    (hrun : (Scrollback.new capacity).run ops = some s) :
    (∀ (pattern : String) (fromRow : ℕ),
      s.searchNext regex pattern fromRow =
          some ((Cyclic.order s.len fromRow).find? (s.matchesAt regex pattern)) ∧
        (s.searchNext regex pattern fromRow = some none ↔
          ∀ row < s.len, s.matchesAt regex pattern row = false)) ∧
    (∀ (pattern : String) (beforeRow : ℕ),
      s.searchPrev regex pattern beforeRow =
          some ((Cyclic.order s.len beforeRow).reverse.find? (s.matchesAt regex pattern)) ∧
        (s.searchPrev regex pattern beforeRow = some none ↔
          ∀ row < s.len, s.matchesAt regex pattern row = false)) ∧
    ∀ client : Scrolled, client.pane.scrollback = s →
      let rows := Cyclic.hits s.len (s.matchesAt regex client.search.query) client.nextFrom
      rows.Nodup ∧
        (∀ row, row ∈ rows ↔ row < s.len ∧ s.matchesAt regex client.search.query row = true) ∧
        ∀ k, ∃ client', client.presses regex (k + 1) = some client' ∧
          client'.search.currentMatch = rows[k % rows.length]? := by
  obtain ⟨lines, h⟩ := Scrollback.exists_shows hrun
  refine ⟨fun pattern fromRow => ?_, fun pattern beforeRow => ?_, ?_⟩
  · rw [Scrollback.searchNext_cyclic h]
    exact ⟨rfl, by rw [Option.some.injEq, Cyclic.next_eq_none_iff]⟩
  · rw [Scrollback.searchPrev_cyclic h]
    simp [Cyclic.mem_order]
  · rintro client rfl
    exact ⟨Cyclic.nodup_hits, fun row => Cyclic.mem_hits, Scrolled.presses_visit regex h⟩

/-- A row of one character. -/
def charRow (ch : Char) : List Cell := [{ ch := ch }]

/-- A ring of two rows that has wrapped round, searched from beyond its end. -/
theorem search_wrapped :
    (⟨2, [charRow 'b', charRow 'a'], 1, 2⟩ : Scrollback (List Cell)).searchNext
      (fun pattern => some fun text => text == pattern) "a" 5 = some (some 0) := by
  have hrun : (Scrollback.new 2).run [.pushLine (charRow 'x'), .pushLine (charRow 'a'),
      .pushLine (charRow 'b')] = some ⟨2, [charRow 'b', charRow 'a'], 1, 2⟩ := by decide
  rw [((search_cyclic _ 2 _ hrun).1 "a" 5).1]
  decide

end Nexterm.Client

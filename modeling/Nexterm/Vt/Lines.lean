/-
  Text on the screen (`screen.rs`, `write_char` and `advance_line`).

  * `filledRows`: the rows of a line of text; a character that does not fit goes to the next row.
  * `Roll.Typed`: a roll with some rows of text, the beginning of another one, and blank rows.
  * `Typed.lines`: lines of text on a roll.
  * `Log.lines_run`: lines of text on the screen, whatever is taken from it in between.
-/
import Nexterm.Vt.AltScreen
import Nexterm.Vt.Roll

namespace Nexterm.Vt

/-! ## The rows of a line -/

/-- The cells of a character in a style: a wide one has a placeholder. -/
def Style.cells (V : Vte) (s : Style) (c : Char) : List Cell :=
  if (V.width c).getD 1 = 2 then [s.cell c, s.cell ' '] else [s.cell c]

/-- The rows of a line of text, of which `cur` is there already. -/
def filledRows (width : ℕ) (cells : Char → List Cell) (cur : List Cell) : List Char → List (List Cell)
  | [] => [cur]
  | c :: cs =>
    if cur.length + (cells c).length ≤ width then filledRows width cells (cur ++ cells c) cs
    else cur :: filledRows width cells (cells c) cs

/-- A row that begins with the given cells. -/
def padded (width : ℕ) (cells : List Cell) : List Cell :=
  cells ++ List.replicate (width - cells.length) ({} : Cell)

/-- The rows of lines of text. -/
def textRows (V : Vte) (width : ℕ) (lines : List (List Char)) : List (List Cell) :=
  lines.flatMap fun line => (filledRows width (Style.cells V {}) [] line).map (padded width)

/-- A line of text, ended by a carriage return and a line feed. -/
def Perform.line (line : List Char) : List Perform :=
  line.map .print ++ [.execute 0x0d, .execute 0x0a]

/-- Lines of text. -/
def Perform.lines (lines : List (List Char)) : List Perform := lines.flatMap Perform.line

/-- The actions among some operations. -/
def ScreenOp.actions (ops : List ScreenOp) : List Perform :=
  ops.filterMap fun op =>
    match op with
    | .perform action => some action
    | _ => none

theorem padded_nil (width : ℕ) : padded width [] = Grid.blankRow width := by
  simp [padded, Grid.blankRow]

/-- A cell at the end of the text of a row. -/
theorem set_padded {width : ℕ} {cells : List Cell} (h : cells.length < width) (cell : Cell) :
    (padded width cells).set cells.length cell = padded width (cells ++ [cell]) := by
  obtain ⟨n, hn⟩ := Nat.exists_eq_add_of_lt h
  have hpad : width - cells.length = n + 1 := by omega
  have hpad' : width - (cells ++ [cell]).length = n := by
    simp only [List.length_append, List.length_singleton]
    omega
  rw [padded, padded, hpad, hpad', List.set_append_right _ _ le_rfl, Nat.sub_self,
    List.replicate_succ, List.set_cons_zero, List.append_assoc]
  rfl

namespace Roll

variable {V : Vte} {r : Roll} {done : List (List Cell)} {cur : List Cell} {blanks : ℕ}

/-- The roll has the rows `done`, then a row that begins with `cur`, where the cursor is, and then
    blank rows. -/
structure Typed (done : List (List Cell)) (cur : List Cell) (blanks : ℕ) (r : Roll) : Prop where
  rows : r.rows = done ++ padded r.width cur :: List.replicate blanks (Grid.blankRow r.width)
  col : r.col = cur.length
  fits : cur.length ≤ r.width
  at_line : r.top + r.line = done.length
  line : r.line < r.height
  full : r.height ≤ r.rows.length
  away : r.away = false

theorem typed_new (width : ℕ) {height : ℕ} (hpos : 0 < height) :
    (new width height).Typed [] [] (height - 1) := by
  have htop : (new width height).top = 0 := by
    simp [top, new, Grid.blankRows]
  refine ⟨?_, rfl, Nat.zero_le _, ?_, hpos, ?_, rfl⟩
  · show List.replicate height (Grid.blankRow width) = _
    obtain ⟨n, rfl⟩ := Nat.exists_eq_add_of_lt hpos
    simp [padded_nil, new, List.replicate_succ]
  · rw [htop]
    rfl
  · simp [new, Grid.blankRows]

/-- An edit of a row in the window. -/
theorem rows_onWindow_modify (r : Roll) (line : ℕ) (f : List Cell → List Cell) :
    (r.onWindow (·.modify line f)).rows = r.rows.modify (r.top + line) f := by
  refine List.ext_getElem? fun i => ?_
  show (r.gone ++ r.window.modify line f)[i]? = _
  rw [List.getElem?_append, List.getElem?_modify, List.getElem?_modify, length_gone, window,
    List.getElem?_drop]
  by_cases hi : i < r.top
  · have hne : r.top + line ≠ i := by omega
    simp [hi, hne, gone]
  · have hsum : r.top + (i - r.top) = i := by omega
    have hiff : line = i - r.top ↔ r.top + line = i := by omega
    simp only [hi, if_false, hsum, hiff]

/-- A cell is written after the text of the row. -/
theorem Typed.put (h : r.Typed done cur blanks) (hlt : cur.length < r.width) (cell : Cell) :
    (r.put cell).Typed done (cur ++ [cell]) blanks := by
  have hrows : (r.put cell).rows = done ++ padded r.width (cur ++ [cell]) ::
      List.replicate blanks (Grid.blankRow r.width) := by
    show (r.onWindow fun rows => rows.modify r.line (·.set r.col cell)).rows = _
    rw [rows_onWindow_modify, h.at_line, h.rows, h.col, List.modify_eq_take_drop]
    simp [set_padded hlt]
  have hlen : (r.put cell).rows.length = r.rows.length := by
    rw [hrows, h.rows]
    simp
  refine ⟨hrows, ?_, ?_, ?_, h.line, hlen.symm ▸ h.full, h.away⟩
  · show r.col + 1 = _
    rw [h.col, List.length_append, List.length_singleton]
  · rw [List.length_append, List.length_singleton]
    exact hlt
  · have htop : (r.put cell).top = r.top := by
      unfold top
      rw [hlen]
      rfl
    rw [htop]
    exact h.at_line

/-- The next row is begun. -/
theorem Typed.nextLine (h : r.Typed done cur blanks) :
    r.nextLine.Typed (done ++ [padded r.width cur]) [] (blanks - 1) := by
  have hlen := congrArg List.length h.rows
  have hline := h.line
  have hat := h.at_line
  have hfull := h.full
  simp only [List.length_append, List.length_cons, List.length_replicate] at hlen
  simp only [top] at hat
  unfold Roll.nextLine Roll.feed
  split_ifs with hlast
  · -- the row of the cursor is the last one
    dsimp only at hlast
    have hnone : blanks = 0 := by omega
    subst hnone
    refine ⟨?_, rfl, Nat.zero_le _, ?_, h.line, ?_, h.away⟩
    · show r.rows ++ [Grid.blankRow r.width] = _
      rw [h.rows, padded_nil]
      simp
    · simp only [top, List.length_append, List.length_singleton]
      omega
    · simp only [List.length_append]
      omega
  · dsimp only at hlast
    obtain ⟨n, rfl⟩ : ∃ n, blanks = n + 1 := ⟨blanks - 1, by omega⟩
    refine ⟨?_, rfl, Nat.zero_le _, ?_, not_le.1 hlast, hfull, h.away⟩
    · show r.rows = _
      rw [h.rows, padded_nil, List.replicate_succ]
      simp
    · simp only [top, List.length_append, List.length_singleton]
      omega

theorem print_of_room {c : Char} {charWidth : ℕ} (hcol : r.col < r.width)
    (hwide : charWidth = 2 → r.col + 1 < r.width) :
    r.print c charWidth =
      if charWidth = 2 then (r.put (r.style.cell c)).put (r.style.cell ' ')
      else r.put (r.style.cell c) := by
  have h₁ : r.wrapIf (r.col ≥ r.width) = r := if_neg (not_le.2 hcol)
  have h₂ : r.wrapIf (charWidth = 2 ∧ r.col + 1 ≥ r.width) = r :=
    if_neg fun h => not_lt.2 h.2 (hwide h.1)
  unfold Roll.print
  dsimp only
  rw [h₁, h₂]
  split_ifs with hwritten htwo htwo
  · rfl
  · exact absurd hwritten.1 htwo
  · exact absurd ⟨htwo, hwide htwo⟩ hwritten
  · rfl

/-- A character that fits. -/
theorem Typed.print (h : r.Typed done cur blanks) (c : Char)
    (hfits : cur.length + (r.style.cells V c).length ≤ r.width) :
    (r.print c ((V.width c).getD 1)).Typed done (cur ++ r.style.cells V c) blanks := by
  have hcol := h.col
  unfold Style.cells at hfits ⊢
  by_cases hwide : (V.width c).getD 1 = 2
  · rw [if_pos hwide, List.length_cons, List.length_singleton] at hfits
    have hsecond := (h.put (by omega) (r.style.cell c)).put (show _ < r.width by
      rw [List.length_append, List.length_singleton]
      omega) (r.style.cell ' ')
    rw [print_of_room (by omega) (by omega), if_pos hwide, if_pos hwide]
    rwa [List.append_assoc] at hsecond
  · rw [if_neg hwide, List.length_singleton] at hfits
    rw [print_of_room (by omega) (by omega), if_neg hwide, if_neg hwide]
    exact h.put (by omega) _

/-- A character that does not fit is written as it would be on the next line. -/
theorem Typed.print_wrap (h : r.Typed done cur blanks) (hwidth : 2 ≤ r.width) (c : Char)
    (hfits : ¬cur.length + (r.style.cells V c).length ≤ r.width) :
    r.print c ((V.width c).getD 1) = r.nextLine.print c ((V.width c).getD 1) := by
  have hcol := h.col
  have hle := h.fits
  have hnext : r.nextLine.col = 0 ∧ r.nextLine.width = r.width := by
    unfold Roll.nextLine Roll.feed
    split_ifs <;> exact ⟨rfl, rfl⟩
  have hlen : (r.style.cells V c).length = if (V.width c).getD 1 = 2 then 2 else 1 := by
    unfold Style.cells
    split_ifs <;> rfl
  rw [hlen] at hfits
  generalize (V.width c).getD 1 = charWidth at hfits ⊢
  -- one of the two wraps takes place, and after it none
  have hwraps : (r.wrapIf (r.col ≥ r.width)).wrapIf (charWidth = 2 ∧
      (r.wrapIf (r.col ≥ r.width)).col + 1 ≥ (r.wrapIf (r.col ≥ r.width)).width) = r.nextLine := by
    by_cases hfull : r.col ≥ r.width
    · have hfirst : r.wrapIf (r.col ≥ r.width) = r.nextLine := if_pos hfull
      rw [hfirst]
      exact if_neg (by omega)
    · have hfirst : r.wrapIf (r.col ≥ r.width) = r := if_neg hfull
      rw [hfirst]
      refine if_pos ?_
      split_ifs at hfits with hwide
      · exact ⟨hwide, by omega⟩
      · omega
  have hroom : r.nextLine.col < r.nextLine.width := by omega
  rw [print_of_room hroom (by omega)]
  unfold Roll.print
  dsimp only
  rw [hwraps]
  split_ifs with hwritten htwo htwo
  · rfl
  · exact absurd hwritten.1 htwo
  · exact absurd ⟨htwo, show r.nextLine.col + 1 < r.nextLine.width by omega⟩ hwritten
  · rfl

theorem frame_nextLine (r : Roll) : r.nextLine.width = r.width ∧ r.nextLine.style = r.style := by
  unfold nextLine feed
  split_ifs <;> exact ⟨rfl, rfl⟩

theorem frame_print (r : Roll) (c : Char) (charWidth : ℕ) :
    (r.print c charWidth).width = r.width ∧ (r.print c charWidth).style = r.style := by
  have hwrap : ∀ (r : Roll) (p : Prop) [Decidable p],
      (r.wrapIf p).width = r.width ∧ (r.wrapIf p).style = r.style := by
    intro r p _
    unfold wrapIf
    split_ifs
    · exact frame_nextLine r
    · exact ⟨rfl, rfl⟩
  unfold Roll.print
  dsimp only
  obtain ⟨hw₁, hs₁⟩ := hwrap r (r.col ≥ r.width)
  generalize r.wrapIf (r.col ≥ r.width) = r₁ at hw₁ hs₁ ⊢
  obtain ⟨hw₂, hs₂⟩ := hwrap r₁ (charWidth = 2 ∧ r₁.col + 1 ≥ r₁.width)
  generalize r₁.wrapIf (charWidth = 2 ∧ r₁.col + 1 ≥ r₁.width) = r₂ at hw₂ hs₂ ⊢
  split_ifs
  · exact ⟨hw₂.trans hw₁, hs₂.trans hs₁⟩
  · exact ⟨hw₂.trans hw₁, hs₂.trans hs₁⟩

/-- The end of a line. -/
theorem Typed.crlf (h : r.Typed done cur blanks) :
    (Perform.line []).foldl (Roll.perform V) r = r.nextLine := by
  have hline := h.line
  have hcr : r.execute 0x0d = { r with col := 0 } := by
    show r.moveTo 0 r.line = _
    have hmin : min r.line (r.height - 1) = r.line := by omega
    rw [moveTo, hmin, Nat.zero_min]
  have haway : ¬(r.away = true) := by simp [h.away]
  simp only [Perform.line, List.map_nil, List.nil_append, List.foldl_cons, List.foldl_nil,
    Roll.perform, if_neg haway, hcr]
  rfl

/-- **A line of text.** -/
theorem Typed.line_crlf {width : ℕ} (hwidth : 2 ≤ width) :
    ∀ (line : List Char) {r : Roll} {done : List (List Cell)} {cur : List Cell} {blanks : ℕ},
      r.Typed done cur blanks → r.width = width → r.style = ({} : Style) →
      ∃ r', (Perform.line line).foldl (Roll.perform V) r = r' ∧
        r'.Typed (done ++ (filledRows width (Style.cells V {}) cur line).map (padded width)) []
          (blanks - (filledRows width (Style.cells V {}) cur line).length) ∧
        r'.width = width ∧ r'.style = ({} : Style)
  | [], r, done, cur, blanks, h, hw, hs => by
    obtain ⟨hw', hs'⟩ := frame_nextLine r
    exact ⟨_, h.crlf, hw ▸ h.nextLine, hw'.trans hw, hs'.trans hs⟩
  | c :: line, r, done, cur, blanks, h, hw, hs => by
    have haway : ¬(r.away = true) := by simp [h.away]
    have hprint : (Perform.line (c :: line)).foldl (Roll.perform V) r =
        (Perform.line line).foldl (Roll.perform V) (r.print c ((V.width c).getD 1)) := by
      simp only [Perform.line, List.map_cons, List.cons_append, List.foldl_cons, Roll.perform,
        if_neg haway]
    obtain ⟨hw', hs'⟩ := frame_print r c ((V.width c).getD 1)
    rw [hprint, filledRows]
    by_cases hfits : cur.length + (Style.cells V {} c).length ≤ width
    · rw [if_pos hfits]
      have hnext := h.print (V := V) c (by rw [hs, hw]; exact hfits)
      rw [hs] at hnext
      exact Typed.line_crlf hwidth line hnext (hw'.trans hw) (hs'.trans hs)
    · rw [if_neg hfits]
      obtain ⟨hw'', hs''⟩ := frame_nextLine r
      have hwrap := h.print_wrap (V := V) (by omega) c (by rw [hs, hw]; exact hfits)
      have hroom : (Style.cells V {} c).length ≤ width := by
        unfold Style.cells
        split_ifs
        · exact hwidth
        · exact (Nat.le_succ 1).trans hwidth
      have hnext := h.nextLine.print (V := V) c (by
        rw [hs'', hs, hw'', hw, List.length_nil, Nat.zero_add]
        exact hroom)
      rw [hs'', hs, List.nil_append, ← hwrap, hw] at hnext
      obtain ⟨r', hrun, htyped, hw, hs⟩ :=
        Typed.line_crlf hwidth line hnext (hw'.trans hw) (hs'.trans hs)
      refine ⟨r', hrun, ?_, hw, hs⟩
      rw [List.map_cons, List.length_cons, Nat.add_comm, ← Nat.sub_sub]
      simpa using htyped

/-- Lines of text. -/
theorem Typed.lines {width : ℕ} (hwidth : 2 ≤ width) :
    ∀ (lines : List (List Char)) {r : Roll} {done : List (List Cell)} {blanks : ℕ},
      r.Typed done [] blanks → r.width = width → r.style = ({} : Style) →
      ∃ r', (Perform.lines lines).foldl (Roll.perform V) r = r' ∧
        r'.Typed (done ++ textRows V width lines) []
          (blanks - (textRows V width lines).length) ∧ r'.width = width
  | [], r, done, blanks, h, hw, _ => by
    refine ⟨r, rfl, ?_, hw⟩
    simpa [textRows] using h
  | line :: lines, r, done, blanks, h, hw, hs => by
    obtain ⟨r', hrun, htyped, hw', hs'⟩ := Typed.line_crlf (V := V) hwidth line h hw hs
    obtain ⟨r'', hrun', htyped', hw''⟩ := Typed.lines hwidth lines htyped hw' hs'
    have hsplit : Perform.lines (line :: lines) = Perform.line line ++ Perform.lines lines := rfl
    have hrows : textRows V width (line :: lines) =
        (filledRows width (Style.cells V {}) [] line).map (padded width) ++ textRows V width lines := rfl
    refine ⟨r'', ?_, ?_, hw''⟩
    · rw [hsplit, List.foldl_append, hrun, hrun']
    · rw [hrows, List.length_append, List.length_map, ← List.append_assoc, ← Nat.sub_sub]
      exact htyped'

end Roll

/-! ## Runs -/

/-- The other operations do nothing to the roll. -/
theorem Roll.run_actions (V : Vte) : ∀ (ops : List ScreenOp) (r : Roll),
    Runs.run (Roll.step V) r ops = (ScreenOp.actions ops).foldl (Roll.perform V) r
  | [], _ => rfl
  | .perform action :: ops, r => Roll.run_actions V ops (r.perform V action)
  | .resize _ _ :: ops, r => Roll.run_actions V ops r
  | .takeDirtyRows :: ops, r => Roll.run_actions V ops r
  | .takeScrolledOffLines :: ops, r => Roll.run_actions V ops r

theorem regionAsked_lines {lines : List (List Char)} {action : Perform}
    (h : action ∈ Perform.lines lines) (s : Screen) : s.regionAsked action = none := by
  obtain ⟨line, -, hmem⟩ := List.mem_flatMap.1 h
  rcases List.mem_append.1 hmem with hmem | hmem
  · obtain ⟨c, -, rfl⟩ := List.mem_map.1 hmem
    rfl
  · simp only [List.mem_cons, List.not_mem_nil, or_false] at hmem
    rcases hmem with rfl | rfl <;> rfl

namespace Log

variable {cols rows : ℕ} {lines : List (List Char)}

/-- Lines of text on a new screen: it shows a roll on which they are typed. -/
theorem typed_lines (V : Vte) (hcols : 2 ≤ cols) (hrows : 0 < rows) (ops : List ScreenOp)
    (hresize : ∀ op ∈ ops, op.isResize = false) (hlines : ScreenOp.actions ops = Perform.lines lines) :
    ∃ r : Roll, r.Typed (textRows V cols lines) [] (rows - 1 - (textRows V cols lines).length) ∧
      r.width = cols ∧ Screen.Front (Runs.run (step V) ⟨Screen.new cols rows, [], []⟩ ops).handed r
        (Runs.run (step V) ⟨Screen.new cols rows, [], []⟩ ops).screen := by
  have hkeeps : ∀ op ∈ ops, ∀ s : Screen, s.KeepsWhole op := by
    intro op hop s
    cases op with
    | perform action =>
      intro _ top bottom hasked
      have hmem : action ∈ Perform.lines lines := by
        rw [← hlines]
        exact List.mem_filterMap.2 ⟨_, hop, rfl⟩
      rw [regionAsked_lines hmem] at hasked
      cases hasked
    | resize cols rows => exact absurd (hresize _ hop) Bool.noConfusion
    | takeDirtyRows => trivial
    | takeScrolledOffLines => trivial
  have halong : Runs.Along (step V) (fun l op => l.screen.KeepsWhole op)
      ⟨Screen.new cols rows, [], []⟩ ops :=
    (Runs.along_of_forall hkeeps).imp fun l _ h => h l.screen
  have hshows := shows_run _ (l := ⟨Screen.new cols rows, [], []⟩) (shows_new cols hrows) halong
  obtain ⟨r, hrun, htyped, hwidth⟩ := Roll.Typed.lines (V := V) hcols lines
    (Roll.typed_new cols hrows) rfl rfl
  rw [Roll.run_actions, hlines, hrun] at hshows
  refine ⟨r, htyped, hwidth, hshows.resolve_right fun h => ?_⟩
  exact absurd (h.away.symm.trans htyped.away) Bool.noConfusion

/-- The rows of a roll on which lines of text are typed. -/
theorem rows_typed {r : Roll} {done : List (List Cell)}
    (h : r.Typed done [] (rows - 1 - done.length)) (hwidth : r.width = cols) :
    r.rows = done ++ List.replicate (max 1 (rows - done.length)) (Grid.blankRow cols) := by
  rw [h.rows, hwidth, padded_nil, ← List.replicate_succ]
  congr 2
  omega

/-- **Text on the screen.**  Some lines of text, printed on a new screen of at least two columns,
    are the lines handed out, those that wait for it and the rows of the screen, in order: each
    line of text is broken where a character does not fit, and the rest of the screen is blank.
    What is taken from the screen in between does not matter. -/
theorem lines_run (V : Vte) {cols rows : ℕ} (hcols : 2 ≤ cols) (hrows : 0 < rows)
    (lines : List (List Char)) (ops : List VtParser.Op)
    (hresize : ∀ op ∈ (VtParser.new V cols rows).trace ops, op.isResize = false)
    (hlines : ScreenOp.actions ((VtParser.new V cols rows).trace ops) = Perform.lines lines) :
    let l := Runs.run (step V) ⟨Screen.new cols rows, [], []⟩ ((VtParser.new V cols rows).trace ops)
    l.handed ++ l.screen.pendingScrollback ++ l.screen.grid.rows =
      textRows V cols lines ++
        List.replicate (max 1 (rows - (textRows V cols lines).length)) (Grid.blankRow cols) := by
  obtain ⟨r, htyped, hwidth, hfront⟩ := typed_lines V hcols hrows _ hresize hlines
  dsimp only
  generalize Runs.run (step V) _ _ = l at hfront ⊢
  rw [hfront.gone, hfront.rows, Roll.gone_append_window]
  exact rows_typed htyped hwidth

/-- Two lines, the first one longer than the screen is wide, and a take in between. -/
theorem lines_run_two :
    let ops : List VtParser.Op := [.advance [0x61, 0x62, 0x63, 0x0d, 0x0a], .takeScrolledOffLines,
      .advance [0x64, 0x0d, 0x0a]]
    let l := Runs.run (step plainVte) ⟨Screen.new 2 2, [], []⟩
      ((VtParser.new plainVte 2 2).trace ops)
    l.handed ++ l.screen.pendingScrollback ++ l.screen.grid.rows =
      textRows plainVte 2 [['a', 'b', 'c'], ['d']] ++
        List.replicate (max 1 (2 - (textRows plainVte 2 [['a', 'b', 'c'], ['d']]).length))
          (Grid.blankRow 2) :=
  lines_run plainVte le_rfl (by decide) [['a', 'b', 'c'], ['d']] _ (by decide +kernel) rfl

end Log

end Nexterm.Vt

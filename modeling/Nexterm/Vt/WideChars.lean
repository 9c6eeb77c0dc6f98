/-
  Wide characters (`screen.rs`, `write_char`).

  * `Vte.columns`: two for a character of display width 2, one for every other.
  * `Screen.startFor`: where a character is written, after one wrap at most.
  * `Written`: what printing a character does to the screen it starts on.
  * `Broken`: a wide character without its blank; `broken_print`: printing breaks no character but
    the one on whose blank the cursor stands.
  * `wide_chars`: all of it at any point of any sequence of printed characters.
-/
import Nexterm.Vt.Bounds

namespace Nexterm.Vt

/-- The display width of a character, or else 1. -/
def Vte.charWidth (V : Vte) (c : Char) : ℕ := (V.width c).getD 1

/-- The columns that a character takes. -/
def Vte.columns (V : Vte) (c : Char) : ℕ := if V.charWidth c = 2 then 2 else 1

/-- The cells of a row after a character is written to it. -/
def putCells (V : Vte) (style : Style) (c : Char) (col : ℕ) (cells : List Cell) : List Cell :=
  if V.charWidth c = 2 then (cells.set col (style.cell c)).set (col + 1) (style.cell ' ')
  else cells.set col (style.cell c)

namespace Screen

variable {V : Vte} {width height : ℕ} {s : Screen} {c : Char}

/-- The screen on whose cursor a character is written: the next line if it does not fit. -/
def startFor (V : Vte) (s : Screen) (c : Char) : Screen :=
  if s.cursorCol + V.columns c ≤ s.grid.width then s else s.wrapLine

theorem startFor_cases (V : Vte) (s : Screen) (c : Char) :
    s.startFor V c = s ∨ s.startFor V c = s.wrapLine := by
  unfold startFor
  split_ifs
  · exact .inl rfl
  · exact .inr rfl

theorem cursor_wrapLine (s : Screen) :
    s.wrapLine.cursorCol = 0 ∧ s.wrapLine.cursorRow ≤ s.cursorRow + 1 := by
  obtain ⟨hcol, hrow⟩ := cursor_advanceLine { s with cursorCol := 0 }
  refine ⟨hcol, hrow.le.trans ?_⟩
  split_ifs
  · exact Nat.le_succ _
  · exact le_rfl

/-- On a screen with two columns there is room. -/
theorem startFor_fits (V : Vte) {s : Screen} (hw : 2 ≤ s.grid.width) (c : Char) :
    (s.startFor V c).cursorCol + V.columns c ≤ (s.startFor V c).grid.width := by
  unfold startFor
  split_ifs with hroom
  · exact hroom
  · rw [(cursor_wrapLine s).1, (steady_wrapLine s).width, Vte.columns]
    split_ifs <;> omega

/-- The two wraps of `write_char` are one. -/
theorem wraps_eq (V : Vte) {s : Screen} (hw : 2 ≤ s.grid.width) (c : Char) :
    (let s₁ := if s.cursorCol ≥ s.grid.width then s.wrapLine else s
      if V.charWidth c = 2 ∧ s₁.cursorCol + 1 ≥ s₁.grid.width then s₁.wrapLine else s₁) =
      s.startFor V c := by
  have hwrapped : ¬s.wrapLine.cursorCol + 1 ≥ s.wrapLine.grid.width := by
    rw [(cursor_wrapLine s).1, (steady_wrapLine s).width]
    omega
  unfold startFor Vte.columns
  dsimp only
  by_cases hend : s.cursorCol ≥ s.grid.width
  · have hroom : ¬s.cursorCol + (if V.charWidth c = 2 then 2 else 1) ≤ s.grid.width := by
      split_ifs <;> omega
    rw [if_pos hend, if_neg fun h => hwrapped h.2, if_neg hroom]
  · rw [if_neg hend]
    by_cases hwide : V.charWidth c = 2
    · have hroom : s.cursorCol + 2 ≤ s.grid.width ↔ ¬s.cursorCol + 1 ≥ s.grid.width := by omega
      simp only [hwide, true_and, if_true, hroom, ite_not]
    · have hroom : s.cursorCol + 1 ≤ s.grid.width := by omega
      rw [if_neg fun h => hwide h.1, if_neg hwide, if_pos hroom]

/-- Printing a character edits one row, from its start on. -/
theorem print_eq (V : Vte) {s : Screen} (hw : 2 ≤ s.grid.width) (c : Char) :
    let start := s.startFor V c
    let after := s.perform V (.print c)
    after.grid.rows = start.grid.rows.modify start.cursorRow
        (putCells V start.style c start.cursorCol) ∧
      after.cursorCol = start.cursorCol + V.columns c ∧ after.cursorRow = start.cursorRow := by
  have hfits := startFor_fits V hw c
  have hwraps := wraps_eq V hw c
  dsimp only at hwraps ⊢
  unfold perform writeChar
  dsimp only
  rw [← Vte.charWidth, hwraps]
  generalize s.startFor V c = start at hfits ⊢
  split_ifs with hroom
  · obtain ⟨hwide, -⟩ := hroom
    have hput : putCells V start.style c start.cursorCol =
        (·.set (start.cursorCol + 1) (start.style.cell ' ')) ∘
          (·.set start.cursorCol (start.style.cell c)) := by
      funext cells
      exact if_pos hwide
    rw [Vte.columns, if_pos hwide, hput, ← List.modify_modify_eq]
    exact ⟨rfl, rfl, rfl⟩
  · have hwide : V.charWidth c ≠ 2 := by
      intro hwide
      rw [Vte.columns, if_pos hwide] at hfits
      exact hroom ⟨hwide, hfits⟩
    have hput : putCells V start.style c start.cursorCol =
        (·.set start.cursorCol (start.style.cell c)) := by
      funext cells
      exact if_neg hwide
    rw [Vte.columns, if_neg hwide, hput]
    exact ⟨rfl, rfl, rfl⟩

end Screen

/-! ## Characters without their blank -/

/-- A wide character of a row does not have its blank to the right. -/
def Broken (V : Vte) (cells : List Cell) (col : ℕ) (cell : Cell) : Prop :=
  cells[col]? = some cell ∧ V.charWidth cell.ch = 2 ∧ cells[col + 1]? ≠ some { cell with ch := ' ' }

variable {V : Vte} {c : Char} {style : Style} {cells : List Cell} {col j : ℕ} {cell : Cell}

/-- Writing a character breaks only the wide character on whose blank it is written. -/
theorem broken_putCells (hblank : V.charWidth ' ' ≠ 2) (hfits : col + V.columns c ≤ cells.length)
    (h : Broken V (putCells V style c col cells) j cell) :
    Broken V cells j cell ∨ col = j + 1 ∧ V.charWidth cell.ch = 2 ∧ cells[j]? = some cell := by
  obtain ⟨hcell, hwidth, hnext⟩ := h
  unfold Vte.columns at hfits
  unfold putCells at hcell hnext
  by_cases hwide : V.charWidth c = 2
  · rw [if_pos hwide] at hfits hcell hnext
    have hchar : col < cells.length := by omega
    have hroom : col + 1 < (cells.set col (style.cell c)).length := by
      rw [List.length_set]
      omega
    by_cases hself : j = col
    · -- the character itself has its blank
      subst hself
      rw [List.getElem?_set_ne (by omega), List.getElem?_set_self hchar] at hcell
      obtain rfl := Option.some.inj hcell
      exact absurd (List.getElem?_set_self hroom) hnext
    by_cases hright : j = col + 1
    · subst hright
      rw [List.getElem?_set_self hroom] at hcell
      obtain rfl := Option.some.inj hcell
      exact absurd hwidth hblank
    rw [List.getElem?_set_ne (by omega), List.getElem?_set_ne (by omega)] at hcell
    by_cases hleft : col = j + 1
    · exact .inr ⟨hleft, hwidth, hcell⟩
    · rw [List.getElem?_set_ne (by omega), List.getElem?_set_ne (by omega)] at hnext
      exact .inl ⟨hcell, hwidth, hnext⟩
  · rw [if_neg hwide] at hfits hcell hnext
    by_cases hself : j = col
    · subst hself
      rw [List.getElem?_set_self hfits] at hcell
      obtain rfl := Option.some.inj hcell
      exact absurd hwidth hwide
    rw [List.getElem?_set_ne (by omega)] at hcell
    by_cases hleft : col = j + 1
    · exact .inr ⟨hleft, hwidth, hcell⟩
    · rw [List.getElem?_set_ne (by omega)] at hnext
      exact .inl ⟨hcell, hwidth, hnext⟩

/-- What is written. -/
theorem getElem?_putCells (hfits : col + V.columns c ≤ cells.length) :
    (putCells V style c col cells)[col]? = some (style.cell c) ∧
      (V.charWidth c = 2 → (putCells V style c col cells)[col + 1]? = some (style.cell ' ')) := by
  unfold Vte.columns at hfits
  unfold putCells
  by_cases hwide : V.charWidth c = 2
  · rw [if_pos hwide] at hfits ⊢
    constructor
    · rw [List.getElem?_set_ne (by omega), List.getElem?_set_self (by omega)]
    · intro _
      rw [List.getElem?_set_self (by rw [List.length_set]; omega)]
  · rw [if_neg hwide] at hfits ⊢
    exact ⟨List.getElem?_set_self hfits, fun h => absurd h hwide⟩

/-! ## Rows -/

/-- Every row is an old one, or blank. -/
def OldRows (s s' : Screen) : Prop :=
  ∀ cells ∈ s'.grid.rows, cells ∈ s.grid.rows ∨ ∃ row : List Cell, cells = row.map fun _ => {}

theorem OldRows.trans {s s' s'' : Screen} (h : OldRows s s') (h' : OldRows s' s'') :
    OldRows s s'' := by
  intro cells hcells
  rcases h' cells hcells with hcells | hblank
  · exact h cells hcells
  · exact .inr hblank

theorem oldRows_foldl {f : Screen → ℕ → Screen} (hf : ∀ s r, OldRows s (f s r)) :
    ∀ (rows : List ℕ) (s : Screen), OldRows s (rows.foldl f s)
  | [], _ => fun _ => .inl
  | r :: rows, s => (hf s r).trans (oldRows_foldl hf rows (f s r))

theorem oldRows_copyUp (s : Screen) (rows : List ℕ) : OldRows s (s.copyUp rows) := by
  refine oldRows_foldl ?_ rows s
  intro s r cells hcells
  have hcopied : cells ∈ (s.grid.copyRow r (r + 1)).rows := hcells
  unfold Grid.copyRow at hcopied
  split_ifs at hcopied
  · exact .inl hcopied
  · cases hrow : s.grid.rows[r + 1]? with
    | none =>
      rw [hrow] at hcopied
      exact .inl hcopied
    | some row =>
      rw [hrow] at hcopied
      rcases List.mem_or_eq_of_mem_set hcopied with hcells | rfl
      · exact .inl hcells
      · exact .inl (List.mem_of_getElem? hrow)

theorem oldRows_clearRows (s : Screen) (rows : List ℕ) : OldRows s (s.clearRows rows) := by
  refine oldRows_foldl ?_ rows s
  intro s r cells hcells
  rcases Grid.mem_modify hcells with hcells | ⟨row, -, rfl⟩
  · exact .inl hcells
  · exact .inr ⟨row, rfl⟩

theorem oldRows_wrapLine (s : Screen) : OldRows s s.wrapLine := by
  have hretain : ∀ s : Screen, OldRows s s.retainTopLine := by
    intro s cells hcells
    rw [Screen.retainTopLine_eq] at hcells
    exact .inl hcells
  have hreset : OldRows s { s with cursorCol := 0 } := fun _ => .inl
  unfold Screen.wrapLine Screen.advanceLine
  split_ifs
  · have hcopied := oldRows_copyUp (Screen.retainTopLine { s with cursorCol := 0 })
      (List.range' s.scrollTop (s.scrollBottom - s.scrollTop))
    exact ((hreset.trans (hretain _)).trans hcopied).trans (oldRows_clearRows _ _)
  · exact fun _ => .inl

/-! ## Printing -/

/-- What a character that starts on a screen leaves: its cell, the blank of a wide one, and the
    cursor behind them. -/
structure Written (V : Vte) (c : Char) (start after : Screen) : Prop where
  fits : start.cursorCol + V.columns c ≤ start.grid.width
  cursor : after.cursorCol = start.cursorCol + V.columns c ∧ after.cursorRow = start.cursorRow
  stored : ∃ cells, after.grid.rows[start.cursorRow]? = some cells ∧
    cells[start.cursorCol]? = some (start.style.cell c) ∧
      (V.charWidth c = 2 → cells[start.cursorCol + 1]? = some (start.style.cell ' '))

namespace Screen

/-- The cursor stands on the blank of a wide character. -/
def OnBlankOf (V : Vte) (s : Screen) (col : ℕ) (cell : Cell) : Prop :=
  s.cursorCol = col + 1 ∧ V.charWidth cell.ch = 2 ∧
    ∃ cells, s.grid.rows[s.cursorRow]? = some cells ∧ cells[col]? = some cell

variable {width height : ℕ} {s : Screen}

theorem startFor_shaped (hs : s.Shaped width height) (hb : s.Bounded width height) (c : Char) :
    (s.startFor V c).Shaped width height ∧ (s.startFor V c).Bounded width height := by
  rcases startFor_cases V s c with h | h
  · rw [h]
    exact ⟨hs, hb⟩
  · rw [h]
    exact ⟨(kept_wrapLine hs).shaped, hb.wrapLine.1⟩

/-- The row that a character starts on has room for it. -/
theorem startFor_row (hs : s.Shaped width height) (hb : s.Bounded width height) (hw : 2 ≤ width)
    (c : Char) : ∃ cells, (s.startFor V c).grid.rows[(s.startFor V c).cursorRow]? = some cells ∧
      (s.startFor V c).cursorCol + V.columns c ≤ cells.length := by
  obtain ⟨hs', hb'⟩ := startFor_shaped (V := V) hs hb c
  have hfits := startFor_fits V (hs.grid.width_eq.symm ▸ hw) c
  have hlt : (s.startFor V c).cursorRow < (s.startFor V c).grid.rows.length :=
    hs'.grid.length_rows.symm ▸ hb'.cursorRow
  refine ⟨_, List.getElem?_eq_getElem hlt, ?_⟩
  rw [hs'.grid.length_row _ (List.getElem_mem hlt), ← hs'.grid.width_eq]
  exact hfits

theorem written_print (hs : s.Shaped width height) (hb : s.Bounded width height) (hw : 2 ≤ width)
    (c : Char) : Written V c (s.startFor V c) (s.perform V (.print c)) := by
  have hw' : 2 ≤ s.grid.width := hs.grid.width_eq.symm ▸ hw
  obtain ⟨hrows, hcol, hrow⟩ := print_eq V hw' c
  obtain ⟨cells, hcells, hfits⟩ := startFor_row (V := V) hs hb hw c
  refine ⟨startFor_fits V hw' c, ⟨hcol, hrow⟩,
    putCells V (s.startFor V c).style c (s.startFor V c).cursorCol cells, ?_, getElem?_putCells hfits⟩
  rw [hrows, List.getElem?_modify_eq, hcells]
  rfl

/-- Behind a character the cursor stands on no blank. -/
theorem not_onBlankOf_print (hblank : V.charWidth ' ' ≠ 2) (hs : s.Shaped width height)
    (hb : s.Bounded width height) (hw : 2 ≤ width) (c : Char) (col : ℕ) (cell : Cell) :
    ¬(s.perform V (.print c)).OnBlankOf V col cell := by
  obtain ⟨-, ⟨hcol, hrow⟩, cells, hcells, hchar, hright⟩ := written_print (V := V) hs hb hw c
  rintro ⟨hcursor, hwidth, cells', hcells', hcell⟩
  rw [hrow, hcells] at hcells'
  obtain rfl := Option.some.inj hcells'
  rw [hcol, Vte.columns] at hcursor
  split_ifs at hcursor with hwide
  · obtain rfl : col = (s.startFor V c).cursorCol + 1 := by omega
    rw [hright hwide] at hcell
    obtain rfl := Option.some.inj hcell
    exact hblank hwidth
  · obtain rfl : col = (s.startFor V c).cursorCol := by omega
    rw [hchar] at hcell
    obtain rfl := Option.some.inj hcell
    exact hwide hwidth

/-- **Printing breaks no wide character** but the one on whose blank the cursor stands. -/
theorem broken_print (hblank : V.charWidth ' ' ≠ 2) (hs : s.Shaped width height)
    (hb : s.Bounded width height) (hw : 2 ≤ width) {c : Char} {cells : List Cell}
    (hcells : cells ∈ (s.perform V (.print c)).grid.rows) {col : ℕ} {cell : Cell}
    (h : Broken V cells col cell) :
    (∃ cells₀ ∈ s.grid.rows, Broken V cells₀ col cell) ∨ s.OnBlankOf V col cell := by
  have hw' : 2 ≤ s.grid.width := hs.grid.width_eq.symm ▸ hw
  obtain ⟨hrows, -, -⟩ := print_eq V hw' c
  obtain ⟨row, hrow, hfits⟩ := startFor_row (V := V) hs hb hw c
  -- on the screen that the character starts on
  have hstart : (∃ cells₀ ∈ (s.startFor V c).grid.rows, Broken V cells₀ col cell) ∨
      (s.startFor V c).OnBlankOf V col cell := by
    rw [hrows] at hcells
    obtain ⟨i, hi⟩ := List.mem_iff_getElem?.1 hcells
    by_cases hcursor : (s.startFor V c).cursorRow = i
    · subst hcursor
      rw [List.getElem?_modify_eq, hrow] at hi
      obtain rfl := Option.some.inj hi
      rcases broken_putCells hblank hfits h with h | ⟨hcol, hwidth, hcell⟩
      · exact .inl ⟨row, List.mem_of_getElem? hrow, h⟩
      · exact .inr ⟨hcol, hwidth, row, hrow, hcell⟩
    · rw [List.getElem?_modify_ne _ _ hcursor] at hi
      exact .inl ⟨cells, List.mem_of_getElem? hi, h⟩
  rcases startFor_cases V s c with heq | heq
  · rwa [heq] at hstart
  · rw [heq] at hstart
    rcases hstart with ⟨cells₀, hmem, hbroken⟩ | ⟨hcol, -, -⟩
    · rcases oldRows_wrapLine s cells₀ hmem with hmem | ⟨row, rfl⟩
      · exact .inl ⟨cells₀, hmem, hbroken⟩
      · obtain ⟨hcell, hwidth, -⟩ := hbroken
        rw [List.getElem?_map] at hcell
        obtain ⟨_, -, rfl⟩ := Option.map_eq_some_iff.1 hcell
        exact absurd hwidth hblank
    · rw [(cursor_wrapLine s).1] at hcol
      omega

/-- Prints characters. -/
def printAll (V : Vte) (s : Screen) (chars : List Char) : Screen :=
  chars.foldl (fun s c => s.perform V (.print c)) s

theorem printAll_snoc (V : Vte) (s : Screen) (chars : List Char) (c : Char) :
    s.printAll V (chars ++ [c]) = (s.printAll V chars).perform V (.print c) := by
  rw [printAll, List.foldl_append]
  rfl

theorem printAll_shaped (hs : s.Shaped width height) (hb : s.Bounded width height)
    (hw : 2 ≤ width) (chars : List Char) :
    (s.printAll V chars).Shaped width height ∧ (s.printAll V chars).Bounded width height := by
  induction chars using List.reverseRecOn with
  | nil => exact ⟨hs, hb⟩
  | append_singleton chars c ih =>
    obtain ⟨hs', hb'⟩ := ih
    rw [printAll_snoc]
    exact ⟨(kept_perform V hs' (.print c)).shaped, hb'.perform V hs' (by omega) (.print c)⟩

theorem broken_printAll (hblank : V.charWidth ' ' ≠ 2) (hs : s.Shaped width height)
    (hb : s.Bounded width height) (hw : 2 ≤ width) (chars : List Char) :
    ∀ cells ∈ (s.printAll V chars).grid.rows, ∀ col cell, Broken V cells col cell →
      (∃ cells₀ ∈ s.grid.rows, Broken V cells₀ col cell) ∨ s.OnBlankOf V col cell := by
  induction chars using List.reverseRecOn with
  | nil => exact fun cells hcells col cell h => .inl ⟨cells, hcells, h⟩
  | append_singleton chars c ih =>
    obtain ⟨hs', hb'⟩ := printAll_shaped (V := V) hs hb hw chars
    intro cells hcells col cell h
    rw [printAll_snoc] at hcells
    rcases broken_print hblank hs' hb' hw hcells h with ⟨cells₀, hmem, hbroken⟩ | hon
    · exact ih cells₀ hmem col cell hbroken
    -- a character before it left the cursor on no blank
    rcases List.eq_nil_or_concat chars with rfl | ⟨before, d, rfl⟩
    · exact .inr hon
    · obtain ⟨hs₀, hb₀⟩ := printAll_shaped (V := V) hs hb hw before
      rw [List.concat_eq_append, printAll_snoc] at hon
      exact absurd hon (not_onBlankOf_print hblank hs₀ hb₀ hw d col cell)

/-- **Wide characters stay whole**: after any characters, the next one is stored on its line, or after
    one wrap on the next line, with the blank of a wide one to its right and the cursor behind them;
    and the characters break no wide character of the screen but the one on whose blank the first of
    them is printed. -/
theorem wide_chars (hblank : V.width ' ' = some 1) (hs : s.Shaped width height)
    (hb : s.Bounded width height) (hw : 2 ≤ width) (chars : List Char) :
    let t := s.printAll V chars
    (∀ c, (t.startFor V c = t ∨ t.startFor V c = t.wrapLine) ∧
      (t.startFor V c).cursorRow ≤ t.cursorRow + 1 ∧
      Written V c (t.startFor V c) (t.perform V (.print c))) ∧
    ∀ cells ∈ t.grid.rows, ∀ col cell, Broken V cells col cell →
      (∃ cells₀ ∈ s.grid.rows, Broken V cells₀ col cell) ∨ s.OnBlankOf V col cell := by
  intro t
  obtain ⟨hs', hb'⟩ := printAll_shaped (V := V) hs hb hw chars
  have hspace : V.charWidth ' ' ≠ 2 := by simp [Vte.charWidth, hblank]
  refine ⟨?_, broken_printAll hspace hs hb hw chars⟩
  intro c
  refine ⟨startFor_cases V t c, ?_, written_print hs' hb' hw c⟩
  rcases startFor_cases V t c with h | h
  · rw [h]
    exact Nat.le_succ _
  · rw [h]
    exact (cursor_wrapLine t).2

/-- Plain text with a wide letter and a combining accent. -/
def accentVte : Vte :=
  { plainVte with width := fun c =>
      if c = '\u3042' then some 2 else if c = '\u0301' then some 0 else some 1 }

theorem bounded_new_four : (new 4 2).Bounded 4 2 where
  cursorRow := by decide
  cursorCol := by decide
  scrollBottom := by decide
  saved := by
    intro b hb
    cases hb
  altMode := rfl

/-- A wide letter in the last column goes to the next line. -/
theorem wide_chars_wraps :
    let t := (new 4 2).printAll accentVte ['a', 'b', 'c']
    t.cursorCol = 3 ∧
      Written accentVte '\u3042' t.wrapLine (t.perform accentVte (.print '\u3042')) := by
  have hwide := wide_chars (V := accentVte) (by decide) (shaped_new 4 2) bounded_new_four (by decide)
    ['a', 'b', 'c']
  have hwritten := (hwide.1 '\u3042').2.2
  exact ⟨by decide, hwritten⟩

/-- A combining accent has width 0, and takes a column. -/
theorem accent_takes_column :
    accentVte.width '\u0301' = some 0 ∧ (new 4 2).startFor accentVte '\u0301' = new 4 2 ∧
      ((new 4 2).perform accentVte (.print '\u0301')).cursorCol ≠ (new 4 2).cursorCol + 0 := by
  decide

end Screen

end Nexterm.Vt

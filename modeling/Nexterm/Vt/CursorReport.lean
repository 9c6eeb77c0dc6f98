/-
  The cursor position report (`CSI 6 n` in `performer.rs`).

  * `cursorReport`: the text of a reply; `cursorReport_inj`: it is read in one way only.
  * `NamesCell`, `Screen.ReportsCell`: the reply names a cell of the screen.
  * `Screen.WrapPending`: the cursor rests past the last column.
  * `cursor_reports_iff`: in every state of a run, the reply names a cell if no wrap is pending, and
    only then.
-/
import Nexterm.Lib.Digits
import Nexterm.Vt.Bounds

namespace Nexterm.Vt

/-! ## The reply -/

def cursorReport (row col : ℕ) : String :=
  "\x1b[" ++ toString row ++ ";" ++ toString col ++ "R"

theorem toList_cursorReport (row col : ℕ) : (cursorReport row col).toList =
    '\x1b' :: '[' :: ((toString row).toList ++ ';' :: ((toString col).toList ++ ['R'])) := by
  simp [cursorReport]

theorem cursorReport_inj {row col row' col' : ℕ} :
    cursorReport row col = cursorReport row' col' ↔ row = row' ∧ col = col' := by
  rw [← String.toList_inj, toList_cursorReport, toList_cursorReport, List.cons.injEq,
    List.cons.injEq, Digits.digits_append_inj (by rfl) (by rfl), List.cons.injEq,
    Digits.digits_append_inj (by rfl) (by rfl)]
  simp

/-- The report of a cell, with rows and columns counted from one. -/
def NamesCell (grid : Grid) (reply : String) : Prop :=
  ∃ row col, reply = cursorReport row col ∧ 1 ≤ row ∧ row ≤ grid.height ∧
    1 ≤ col ∧ col ≤ grid.width

theorem namesCell_cursorReport {grid : Grid} {row col : ℕ} :
    NamesCell grid (cursorReport row col) ↔
      1 ≤ row ∧ row ≤ grid.height ∧ 1 ≤ col ∧ col ≤ grid.width := by
  constructor
  · rintro ⟨row', col', heq, h⟩
    obtain ⟨rfl, rfl⟩ := cursorReport_inj.1 heq
    exact h
  · intro h
    exact ⟨row, col, rfl, h⟩

/-- The action asks for the cursor. -/
def Perform.asksCursor : Perform → Bool
  | .csiDispatch params intermediates _ action =>
    action = 'n' ∧ intermediates.head? ≠ some 0x3f ∧
      Screen.paramOr (params.map fun sub => sub.head?.getD 0) 0 0 = 6
  | _ => false

namespace Screen

variable {V : Vte} {s : Screen} {width height : ℕ}

theorem perform_asksCursor {action : Perform} (h : action.asksCursor = true) :
    s.perform V action = s.pushPendingResponse
      (cursorReport (saturatingAdd s.cursorRow 1) (saturatingAdd s.cursorCol 1)) := by
  cases action with
  | csiDispatch params intermediates ignore action =>
    simp only [Perform.asksCursor, decide_eq_true_eq] at h
    obtain ⟨rfl, hmark, hparam⟩ := h
    simp only [perform, csiDispatch, csiAction, hmark, hparam, cursorReport, false_and, if_false,
      if_true, Nat.reduceEqDiff]
  | _ => simp [Perform.asksCursor] at h

/-- The reply to a query that comes now names a cell of the screen. -/
def ReportsCell (V : Vte) (s : Screen) : Prop :=
  ∀ action : Perform, action.asksCursor = true → ∃ reply,
    (s.perform V action).pendingResponses = s.pendingResponses ++ [reply] ∧
      NamesCell s.grid reply

/-- The cursor rests past the last column, until the next character is written.  (Columns are
    counted in 16 bits, and the widest screen has no number past the last one.) -/
def WrapPending (s : Screen) : Prop := s.cursorCol = s.grid.width ∧ s.grid.width < 65535

theorem reportsCell_iff (hs : s.Shaped width height) (hb : s.Bounded width height)
    (hpos : 0 < width) : s.ReportsCell V ↔ ¬ s.WrapPending := by
  have hrow := hb.cursorRow
  have hcol := hb.cursorCol
  have hw := hs.grid.width_eq
  have hh := hs.grid.height_eq
  have hnames : NamesCell s.grid (cursorReport (saturatingAdd s.cursorRow 1)
      (saturatingAdd s.cursorCol 1)) ↔ ¬ s.WrapPending := by
    rw [namesCell_cursorReport]
    unfold saturatingAdd WrapPending
    omega
  constructor
  · intro h
    obtain ⟨reply, hreply, hcell⟩ := h (.csiDispatch [[6]] [] false 'n') rfl
    rw [perform_asksCursor rfl] at hreply
    obtain rfl := (List.cons.inj (List.append_cancel_left hreply)).1
    exact hnames.1 hcell
  · intro h action hasks
    refine ⟨_, ?_, hnames.2 h⟩
    rw [perform_asksCursor hasks]
    rfl

end Screen

namespace VtParser

/-- **Cursor reports**: in every state of a run, the reply to a query names a cell of the screen if
    and only if the cursor does not rest past the last column. -/
theorem cursor_reports_iff (V : Vte) {cols rows : ℕ} (hcols : 0 < cols) (hrows : 0 < rows)
    (ops : List Op) (hops : ∀ op ∈ ops, op.Nonzero) :
    Runs.Always (Screen.step V) (fun s => s.ReportsCell V ↔ ¬ s.WrapPending)
      (Screen.new cols rows) ((new V cols rows).trace ops) := by
  have hnonzero := nonzero_trace ops (p := new V cols rows) hops
  have h := Runs.always_of_along (P := Screen.Fits) (fun s op hs hop => hs.step V hop)
    (Screen.fits_new hcols hrows) (Runs.along_of_forall (D := ScreenOp.Nonzero) hnonzero)
  refine h.imp ?_
  rintro s ⟨width, height, hpos, hs, hb⟩
  exact Screen.reportsCell_iff hs hb hpos

theorem cursor_reports_iff_line : Runs.Always (Screen.step miniVte)
    (fun s => s.ReportsCell miniVte ↔ ¬ s.WrapPending) (Screen.new 2 1)
      ((new miniVte 2 1).trace [.advance [0x61, 0x62]]) :=
  cursor_reports_iff miniVte (by decide) (by decide) [.advance [0x61, 0x62]] (by simp [Op.Nonzero])

/-- A line is filled, and then the cursor is asked for: it is in column 3 of 2. -/
theorem not_reportsCell_line :
    ((new miniVte 2 1).advance [0x61, 0x62, 0x1b, 0x5b, 0x36, 0x6e]).screen.pendingResponses =
        [cursorReport 1 3] ∧
      ¬ ((new miniVte 2 1).advance [0x61, 0x62]).screen.ReportsCell miniVte := by
  refine ⟨by decide +kernel, fun h => ?_⟩
  obtain ⟨reply, hreply, hcell⟩ := h (.csiDispatch [[6]] [] false 'n') rfl
  have hrun : (((new miniVte 2 1).advance [0x61, 0x62]).screen.perform miniVte
      (.csiDispatch [[6]] [] false 'n')).pendingResponses = [cursorReport 1 3] ∧
        ((new miniVte 2 1).advance [0x61, 0x62]).screen.pendingResponses = [] ∧
        ((new miniVte 2 1).advance [0x61, 0x62]).screen.grid.width = 2 := by
    decide +kernel
  obtain ⟨hresponses, hempty, hwidth⟩ := hrun
  rw [hresponses, hempty, List.nil_append] at hreply
  obtain rfl := (List.cons.inj hreply).1
  have hcol := (namesCell_cursorReport.1 hcell).2.2.2
  omega

end VtParser

end Nexterm.Vt

/-
  The mouse reports of a run (`renderer/event_handler/mouse.rs`, `handle_mouse_report` in
  `ipc/pane_dispatch.rs`).

  * `PaneRun`: presses, moves and releases over the focused pane, which has mouse reporting on.
  * `sent`: the reports of a run, each with the event and the pointer.
  * `Describes`: the reports describe the gestures; `NoCellPressed`: the condition under which they
    do, and `describes_iff`: it is exact.
  * `col_eq`: the column of a report is one of the window.
-/
import Nexterm.Client.MouseSelect
import Nexterm.Vt.MouseMode

namespace Nexterm.Client

open Nexterm.Vt (mouseReport)

/-! ## Runs -/

/-- An event while the client is attached to a server on which the focused pane has mouse reporting
    enabled. -/
structure PaneEvent where
  frame : MouseFrame
  event : MouseEvent
  mouseMode : ℕ
  reporting : 0 < mouseMode
  connected : frame.connected = true

/-- A report, with the event that has caused it and where the pointer is. -/
structure Sent where
  source : PaneEvent
  position : Option Pointer
  report : MouseReport

namespace Sent

def isPress (x : Sent) : Bool := x.report.pressed && !x.report.motion

def isRelease (x : Sent) : Bool := !x.report.pressed && !x.report.motion

/-- What the server writes to the program if the cell is reported. -/
def written (x : Sent) (cell : ℕ × ℕ) : Option String :=
  mouseReport x.source.mouseMode x.report.button cell.1 cell.2 x.report.pressed x.report.motion

/-- The report is written as that of the cell of the pane under the pointer, and both of its
    numbers, which count from one, fit into 16 bits. -/
structure NamesCell (x : Sent) : Prop where
  cell : ∃ p cell, x.position = some p ∧ x.source.frame.Drawn cell ∧
    x.source.frame.InCell cell p ∧ x.written (x.report.col, x.report.row) = x.written cell
  col_lt : x.report.col + 1 < 2 ^ 16
  row_lt : x.report.row + 1 < 2 ^ 16

end Sent

namespace MouseState

/-- Before the first event. -/
def new : MouseState := ⟨none, ⟨false, (0, 0), (0, 0)⟩, none⟩

def after (s : MouseState) (events : List PaneEvent) : MouseState :=
  events.foldl (fun s e => (s.step e.frame e.event).1) s

/-- The reports of some events. -/
def sent (s : MouseState) : List PaneEvent → List Sent
  | [] => []
  | e :: events =>
    let next := s.step e.frame e.event
    (next.2.report.toList.map fun report => ⟨e, next.1.cursorPosition, report⟩) ++
      next.1.sent events

/-- The pointer is over a cell of the focused pane at every event. -/
def StaysOver (s : MouseState) : List PaneEvent → Prop
  | [] => True
  | e :: events =>
    let s := (s.step e.frame e.event).1
    (∃ p cell, s.cursorPosition = some p ∧ e.frame.Drawn cell ∧ e.frame.InCell cell p) ∧
      s.StaysOver events

end MouseState

/-- Presses, moves and releases over the focused pane. -/
structure PaneRun where
  events : List PaneEvent
  stays : MouseState.new.StaysOver events

namespace PaneRun

def sent (run : PaneRun) : List Sent := MouseState.new.sent run.events

/-- The reports name the cell under the pointer; every press is followed by exactly one release
    before the next press; and a move is reported after a press with no release in between. -/
structure Describes (run : PaneRun) : Prop where
  cells : ∀ x ∈ run.sent, x.NamesCell
  released : ∀ before x after, run.sent = before ++ x :: after → x.isPress = true →
    ((after.takeWhile fun y => !y.isPress).countP Sent.isRelease) = 1
  motion : ∀ before x after, run.sent = before ++ x :: after → x.report.motion = true →
    ∃ before' y between, before = before' ++ y :: between ∧ y.isPress = true ∧
      ∀ z ∈ between, z.isRelease = false

end PaneRun

/-- The press, from a state, hits a cell. -/
def MouseState.HitsCell (s : MouseState) (e : PaneEvent) : Prop :=
  e.event = .leftPressed ∧ ∃ p, s.cursorPosition = some p ∧ e.frame.pressTarget p = .cell

/-- No press hits a cell: all of them are on the outline of the window, on borders, badges and edges
    of blocks, or in the settings panel. -/
def PaneRun.NoCellPressed (run : PaneRun) : Prop :=
  ∀ before e after, run.events = before ++ e :: after →
    ¬(MouseState.new.after before).HitsCell e

/-! ## Reports -/

namespace MouseState

variable {s : MouseState} {e : PaneEvent}

/-- A report is about a move in a drag or about a press that hits a cell. -/
theorem report_cases {report : MouseReport} (h : (s.step e.frame e.event).2.report = some report) :
    (s.mouseSel.isDragging = true ∧ ∃ p, e.event = .cursorMoved p ∧
      report = ⟨0, (e.frame.cellUnder e.frame.enabledTabBarH p).1,
        (e.frame.cellUnder e.frame.enabledTabBarH p).2, true, true⟩) ∨
    s.HitsCell e ∧ ∃ p, s.cursorPosition = some p ∧
      report = ⟨0, (e.frame.cellUnder e.frame.tabBarH p).1,
        (e.frame.cellUnder e.frame.tabBarH p).2, true, false⟩ := by
  obtain ⟨f, event, mode, hmode, hconnected⟩ := e
  cases event with
  | cursorMoved p =>
    simp only [step, onCursorMoved, send, hconnected, if_true] at h
    split_ifs at h with hresize hdrag
    cases h
    exact .inl ⟨hdrag, p, rfl, rfl⟩
  | leftPressed =>
    simp only [step, onMouseLeftPressed, send, hconnected, if_true] at h
    split at h
    · cases h
    · next p hpos =>
      cases htarget : f.pressTarget p <;> simp only [htarget] at h <;> cases h
      exact .inr ⟨⟨rfl, p, hpos, htarget⟩, p, hpos, rfl⟩
  | leftReleased =>
    cases hpos : s.cursorPosition <;> simp only [step, onMouseLeftReleased, hpos] at h <;>
      split_ifs at h

/-- A drag begins with a press that hits a cell. -/
theorem isDragging_step (h : (s.step e.frame e.event).1.mouseSel.isDragging = true) :
    s.mouseSel.isDragging = true ∨ s.HitsCell e := by
  obtain ⟨f, event, mode, hmode, hconnected⟩ := e
  cases event with
  | cursorMoved p =>
    simp only [step, onCursorMoved] at h
    split_ifs at h with hresize hdrag
    · exact .inl h
    · exact .inl hdrag
    · exact .inl h
  | leftPressed =>
    simp only [step, onMouseLeftPressed] at h
    split at h
    · exact .inl h
    · next p hpos =>
      cases htarget : f.pressTarget p <;> simp only [htarget] at h <;>
        first | exact .inl h | exact .inr ⟨rfl, p, hpos, htarget⟩
  | leftReleased =>
    simp only [step, onMouseLeftReleased] at h
    split_ifs at h
    · exact .inl h
    · split at h <;> exact .inl h
    · split at h
      · exact .inl h
      · cases h

/-- A press that hits a cell is reported. -/
theorem report_of_hitsCell (h : s.HitsCell e) : ∃ report,
    (s.step e.frame e.event).2.report = some report ∧ report.pressed = true ∧
      report.motion = false := by
  obtain ⟨f, event, mode, hmode, hconnected⟩ := e
  obtain ⟨rfl, p, hpos, htarget⟩ := h
  refine ⟨⟨0, (f.cellUnder f.tabBarH p).1, (f.cellUnder f.tabBarH p).2, true, false⟩, ?_, rfl, rfl⟩
  simp only [step, onMouseLeftPressed, hpos, htarget, send, hconnected, if_true]

theorem sent_append (s : MouseState) (events events' : List PaneEvent) :
    s.sent (events ++ events') = s.sent events ++ (s.after events).sent events' := by
  induction events generalizing s with
  | nil => rfl
  | cons e events ih =>
    rw [List.cons_append, sent, sent, ih, List.append_assoc]
    rfl

/-- Every report is one of a press: no handler reports a release. -/
theorem pressed_of_mem_sent {events : List PaneEvent} {x : Sent} (hx : x ∈ s.sent events) :
    x.report.pressed = true := by
  induction events generalizing s with
  | nil => cases hx
  | cons e events ih =>
    rcases List.mem_append.1 hx with hx | hx
    · obtain ⟨report, hreport, rfl⟩ := List.mem_map.1 hx
      rcases report_cases (Option.mem_toList.1 hreport) with
        ⟨-, p, -, rfl⟩ | ⟨-, p, -, rfl⟩ <;> rfl
    · exact ih hx

/-- Without a press that hits a cell, nothing is reported. -/
theorem sent_eq_nil {events : List PaneEvent} (hdrag : s.mouseSel.isDragging = false)
    (h : ∀ before e after, events = before ++ e :: after → ¬(s.after before).HitsCell e) :
    s.sent events = [] := by
  induction events generalizing s with
  | nil => rfl
  | cons e events ih =>
    have hhead : ¬s.HitsCell e := h [] e events rfl
    have hreport : (s.step e.frame e.event).2.report = none := by
      rw [Option.eq_none_iff_forall_ne_some]
      intro report hreport
      rcases report_cases hreport with ⟨hdrag', -⟩ | ⟨hhits, -⟩
      · rw [hdrag] at hdrag'
        cases hdrag'
      · exact hhead hhits
    have hnext : (s.step e.frame e.event).1.mouseSel.isDragging = false := by
      rw [← Bool.not_eq_true]
      intro hdrag'
      rcases isDragging_step hdrag' with hdrag'' | hhits
      · rw [hdrag] at hdrag''
        cases hdrag''
      · exact hhead hhits
    rw [sent, hreport]
    exact ih hnext fun before e' after heq =>
      h (e :: before) e' after (by rw [heq, List.cons_append])

end MouseState

theorem MouseFrame.Drawn.lt_cols {f : MouseFrame} {cell : ℕ × ℕ} (h : f.Drawn cell) :
    cell.1 < f.layout.cols := by
  obtain ⟨row, hrow, hlt⟩ := h
  have hmem := List.mem_of_getElem? hrow
  unfold MouseFrame.drawnRows at hmem
  split_ifs at hmem
  · obtain ⟨row', -, rfl⟩ := List.mem_map.1 hmem
    exact hlt.trans_le ((List.length_take_le _ _).trans (min_le_left _ _))
  · obtain ⟨r, -, hr⟩ := List.mem_filterMap.1 hmem
    obtain ⟨row', -, rfl⟩ := Option.map_eq_some_iff.1 hr
    exact hlt.trans_le (List.length_take_le _ _)

namespace MouseState

theorem cursorPosition_moved (f : MouseFrame) (s : MouseState) (p : Pointer) :
    (s.onCursorMoved f p).1.cursorPosition = some p := by
  unfold onCursorMoved
  dsimp only
  split_ifs <;> rfl

theorem cursorPosition_pressed (f : MouseFrame) (s : MouseState) :
    (s.onMouseLeftPressed f).1.cursorPosition = s.cursorPosition := by
  unfold onMouseLeftPressed
  cases hpos : s.cursorPosition with
  | none => exact hpos
  | some p => cases hits : f.pressTarget p <;> simp [hits, hpos]

theorem cursorPosition_released (f : MouseFrame) (s : MouseState) :
    (s.onMouseLeftReleased f).1.cursorPosition = s.cursorPosition := by
  unfold onMouseLeftReleased
  split_ifs
  · rfl
  · cases hpos : s.cursorPosition <;> simp [hpos]
  · cases hpos : s.cursorPosition <;> simp [hpos]

/-- The column of a report is that of the pane after those on its left. -/
theorem col_eq {s : MouseState} {events : List PaneEvent} (h : s.StaysOver events)
    {x : Sent} (hx : x ∈ s.sent events) : ∃ p cell, x.position = some p ∧
      x.source.frame.Drawn cell ∧ x.source.frame.InCell cell p ∧
        x.report.col = x.source.frame.layout.colOffset + cell.1 := by
  induction events generalizing s with
  | nil => cases hx
  | cons e events ih =>
    obtain ⟨⟨p, cell, hpos, hdrawn, hin⟩, hrest⟩ := h
    rcases List.mem_append.1 hx with hx | hx
    · obtain ⟨report, hreport, rfl⟩ := List.mem_map.1 hx
      refine ⟨p, cell, hpos, hdrawn, hin, ?_⟩
      rcases report_cases (Option.mem_toList.1 hreport) with
        ⟨-, p', hevent, rfl⟩ | ⟨⟨hevent, -⟩, p', hpos', rfl⟩
      · rw [hevent, step, cursorPosition_moved] at hpos
        rw [Option.some.inj hpos]
        exact MouseFrame.cellUnder_col hin hdrawn.lt_cols e.frame.enabledTabBarH
      · rw [hevent, step, cursorPosition_pressed, hpos'] at hpos
        rw [Option.some.inj hpos]
        exact MouseFrame.cellUnder_col hin hdrawn.lt_cols e.frame.tabBarH
    · exact ih hrest hx

end MouseState

namespace PaneRun

variable (run : PaneRun)

/-- A press that hits a cell is reported, and its release is not. -/
theorem not_describes {before after : List PaneEvent} {e : PaneEvent}
    (hevents : run.events = before ++ e :: after)
    (hhits : (MouseState.new.after before).HitsCell e) : ¬run.Describes := by
  intro h
  obtain ⟨report, hreport, hpressed, hmotion⟩ := MouseState.report_of_hitsCell hhits
  have hsent : run.sent = MouseState.new.sent before ++
      ⟨e, (((MouseState.new.after before).step e.frame e.event).1).cursorPosition, report⟩ ::
        (((MouseState.new.after before).step e.frame e.event).1).sent after := by
    rw [sent, hevents, MouseState.sent_append, MouseState.sent, hreport]
    rfl
  have hone := h.released _ _ _ hsent (by simp [Sent.isPress, hpressed, hmotion])
  have hzero : ∀ x ∈ ((((MouseState.new.after before).step e.frame e.event).1).sent
      after).takeWhile (fun y => !y.isPress), ¬x.isRelease = true := by
    intro x hx
    have hpressed' := MouseState.pressed_of_mem_sent ((List.takeWhile_sublist _).subset hx)
    simp [Sent.isRelease, hpressed']
  rw [List.countP_eq_zero.2 hzero] at hone
  cases hone

/-- **Mouse reports**: they describe the gestures exactly if no press hits a cell, since no release
    is reported. -/
theorem describes_iff : run.Describes ↔ run.NoCellPressed := by
  constructor
  · exact fun h before e after hevents hhits => run.not_describes hevents hhits h
  · intro h
    have hnil : run.sent = [] := MouseState.sent_eq_nil rfl h
    refine ⟨?_, ?_, ?_⟩
    · rw [hnil]
      exact fun x hx => by cases hx
    · intro before x after hsent
      rw [hnil] at hsent
      exact absurd hsent.symm (by simp)
    · intro before x after hsent
      rw [hnil] at hsent
      exact absurd hsent.symm (by simp)

open Drag in
/-- A press in the first cell of the pane on the right, and its release. -/
def splitRun : PaneRun where
  events := [.cursorMoved ⟨28, 40⟩, .leftPressed, .leftReleased].map fun event =>
    ⟨splitFrame, event, 1, Nat.one_pos, rfl⟩
  stays := by
    have hmoved := MouseState.cursorPosition_moved splitFrame .new ⟨28, 40⟩
    have hpressed := (MouseState.cursorPosition_pressed splitFrame _).trans hmoved
    have hreleased := (MouseState.cursorPosition_released splitFrame _).trans hpressed
    have hcell : ∃ cell, splitFrame.Drawn cell ∧ splitFrame.InCell cell ⟨28, 40⟩ :=
      ⟨_, splitDrag.start_drawn, splitDrag.press_in⟩
    obtain ⟨cell, hdrawn, hin⟩ := hcell
    exact ⟨⟨_, cell, hmoved, hdrawn, hin⟩, ⟨_, cell, hpressed, hdrawn, hin⟩,
      ⟨_, cell, hreleased, hdrawn, hin⟩, trivial⟩

theorem splitRun_not_describes : ¬splitRun.Describes :=
  @not_describes splitRun [_] [_] _ rfl
    ⟨rfl, ⟨28, 40⟩, MouseState.cursorPosition_moved _ _ _, Drag.splitFrame_cell⟩

end PaneRun

end Nexterm.Client

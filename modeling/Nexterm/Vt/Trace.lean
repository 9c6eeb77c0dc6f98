/-
  What a byte stream does to the screen, action by action.

  * `ScreenOp`, `Screen.step`: everything that happens to a screen, one action at a time.
  * `VtParser.trace`: the operations on the screen during a run of the parser;
    `VtParser.screen_run`: they are what the run does to it.
  * `Screen.feeds`: the screens in which an action advances a line.
  * `Screen.Steady`: two screens differ neither in size nor in region nor in buffer, and the second
    one has some more lines of scrollback.
  * `Screen.perform_cases`: all that an action can do to these.
-/
import Nexterm.Vt.Apc

namespace Nexterm.Vt

/-! ## Operations on the screen -/

/-- What happens to a screen. -/
inductive ScreenOp
  | perform (action : Perform)
  | resize (cols rows : ℕ)
  | takeDirtyRows
  | takeScrolledOffLines

namespace Screen

/-- Drains the lines that have scrolled off the top. -/
def takeScrolledOffLines (s : Screen) : List (List Cell) × Screen :=
  (s.pendingScrollback, { s with pendingScrollback := [] })

/-- The screen after an operation. -/
def step (V : Vte) (s : Screen) : ScreenOp → Screen
  | .perform action => s.perform V action
  | .resize cols rows => s.resize cols rows
  | .takeDirtyRows => s.takeDirtyRows.2
  | .takeScrolledOffLines => s.takeScrolledOffLines.2

end Screen

/-- The actions that `vte` emits for a sequence of bytes. -/
def Vte.actions (V : Vte) (state : V.State) : List UInt8 → List Perform
  | [] => []
  | byte :: bytes => (V.advance state byte).2 ++ V.actions (V.advance state byte).1 bytes

theorem Vte.foldl_feed (V : Vte) : ∀ (bytes : List UInt8) (t : V.State × Screen),
    (bytes.foldl V.feed t).2 = (V.actions t.1 bytes).foldl (Screen.perform V) t.2
  | [], _ => rfl
  | byte :: bytes, t => by
    rw [List.foldl_cons, V.foldl_feed bytes, Vte.actions, List.foldl_append]
    rfl

namespace VtParser

variable {V : Vte}

/-- What happens to a parser. -/
inductive Op
  | advance (bytes : List UInt8)
  | resize (cols rows : ℕ)
  | takeDirtyRows
  | takeScrolledOffLines

/-- The parser after an operation. -/
def step (p : VtParser V) : Op → VtParser V
  | .advance bytes => p.advance bytes
  | .resize cols rows => p.resize cols rows
  | .takeDirtyRows => p.takeDirtyRows.2
  | .takeScrolledOffLines => { p with screen := p.screen.takeScrolledOffLines.2 }

/-- The actions on the screen during one call of `advance`. -/
def actions (p : VtParser V) (bytes : List UInt8) : List Perform :=
  V.actions p.parser (vteBytes (p.deliveries bytes))

/-- The operations on the screen during one operation of the parser. -/
def opTrace (p : VtParser V) : Op → List ScreenOp
  | .advance bytes => (p.actions bytes).map .perform
  | .resize cols rows => [.resize cols rows]
  | .takeDirtyRows => [.takeDirtyRows]
  | .takeScrolledOffLines => [.takeScrolledOffLines]

/-- The operations on the screen during a run. -/
def trace (p : VtParser V) : List Op → List ScreenOp
  | [] => []
  | op :: ops => p.opTrace op ++ (p.step op).trace ops

theorem screen_advance (p : VtParser V) (bytes : List UInt8) :
    (p.advance bytes).screen = (p.actions bytes).foldl (Screen.perform V) p.screen :=
  (congrArg Prod.snd (terminal_advance bytes p)).trans (V.foldl_feed _ p.terminal)

theorem screen_step (p : VtParser V) (op : Op) :
    (p.step op).screen = Runs.run (Screen.step V) p.screen (p.opTrace op) := by
  cases op with
  | advance bytes =>
    show (p.advance bytes).screen = ((p.actions bytes).map ScreenOp.perform).foldl _ _
    rw [screen_advance, List.foldl_map]
    rfl
  | resize cols rows => rfl
  | takeDirtyRows => rfl
  | takeScrolledOffLines => rfl

/-- **The trace of a run is what the run does to the screen.** -/
theorem screen_run : ∀ (ops : List Op) (p : VtParser V),
    (Runs.run step p ops).screen = Runs.run (Screen.step V) p.screen (p.trace ops)
  | [], _ => rfl
  | op :: ops, p => by
    rw [trace, Runs.run_append, ← screen_step]
    exact screen_run ops (p.step op)

end VtParser

namespace Screen

/-! ## Advancing a line -/

/-- The line that a scroll of the region retains. -/
def retained (s : Screen) : List (List Cell) :=
  if !s.altMode && s.scrollTop = 0 then s.grid.rows[s.scrollTop]?.toList else []

/-- The line that advancing a line retains. -/
def fedLine (s : Screen) : List (List Cell) :=
  if s.cursorRow ≥ s.scrollBottom then s.retained else []

/-- The screens in which writing a character of the given width advances a line. -/
def wrapFeeds (s : Screen) (charWidth : ℕ) : List Screen :=
  let first := if s.cursorCol ≥ s.grid.width then [{ s with cursorCol := 0 }] else []
  let s := if s.cursorCol ≥ s.grid.width then s.wrapLine else s
  first ++
    if charWidth = 2 ∧ s.cursorCol + 1 ≥ s.grid.width then [{ s with cursorCol := 0 }] else []

/-- The screens in which an action advances a line: a line feed, or a wrap. -/
def feeds (V : Vte) (s : Screen) : Perform → List Screen
  | .print c => s.wrapFeeds ((V.width c).getD 1)
  | .execute byte => if 0x0a ≤ byte ∧ byte ≤ 0x0c then [s] else []
  | _ => []

/-! ## What an action leaves alone -/

/-- The size, the region and the buffer are the same, and `lines` have been added to the
    scrollback. -/
structure Steady (lines : List (List Cell)) (s s' : Screen) : Prop where
  width : s'.grid.width = s.grid.width
  height : s'.grid.height = s.grid.height
  scrollTop : s'.scrollTop = s.scrollTop
  scrollBottom : s'.scrollBottom = s.scrollBottom
  altMode : s'.altMode = s.altMode
  altScreen : s'.altScreen = s.altScreen
  pending : s'.pendingScrollback = s.pendingScrollback ++ lines

variable {s s' s'' : Screen}

theorem Steady.refl (s : Screen) : Steady [] s s :=
  ⟨rfl, rfl, rfl, rfl, rfl, rfl, (List.append_nil _).symm⟩

theorem Steady.trans {lines lines' : List (List Cell)} (h : Steady lines s s')
    (h' : Steady lines' s' s'') : Steady (lines ++ lines') s s'' where
  width := h'.width.trans h.width
  height := h'.height.trans h.height
  scrollTop := h'.scrollTop.trans h.scrollTop
  scrollBottom := h'.scrollBottom.trans h.scrollBottom
  altMode := h'.altMode.trans h.altMode
  altScreen := h'.altScreen.trans h.altScreen
  pending := by rw [h'.pending, h.pending, List.append_assoc]

/-- Cells and dirty flags are all that differs. -/
def Edited (s s' : Screen) : Prop :=
  ∃ rows dirty, s' = { s with grid := { s.grid with rows := rows }, dirty := dirty }

theorem Edited.refl (s : Screen) : Edited s s := ⟨s.grid.rows, s.dirty, rfl⟩

theorem Edited.trans (h : Edited s s') (h' : Edited s' s'') : Edited s s'' := by
  obtain ⟨rows, dirty, rfl⟩ := h
  obtain ⟨rows', dirty', rfl⟩ := h'
  exact ⟨rows', dirty', rfl⟩

theorem Edited.steady (h : Edited s s') : Steady [] s s' := by
  obtain ⟨rows, dirty, rfl⟩ := h
  exact ⟨rfl, rfl, rfl, rfl, rfl, rfl, (List.append_nil _).symm⟩

theorem Edited.cursor (h : Edited s s') :
    s'.cursorCol = s.cursorCol ∧ s'.cursorRow = s.cursorRow := by
  obtain ⟨rows, dirty, rfl⟩ := h
  exact ⟨rfl, rfl⟩

theorem edited_foldl {α : Type} {f : Screen → α → Screen} (hf : ∀ s a, Edited s (f s a)) :
    ∀ (l : List α) (s : Screen), Edited s (l.foldl f s)
  | [], s => .refl s
  | a :: l, s => (hf s a).trans (edited_foldl hf l (f s a))

theorem edited_clearRows (s : Screen) (rows : List ℕ) : Edited s (s.clearRows rows) :=
  edited_foldl (fun _ _ => ⟨_, _, rfl⟩) rows s

theorem edited_copyUp (s : Screen) (rows : List ℕ) : Edited s (s.copyUp rows) := by
  refine edited_foldl ?_ rows s
  intro s r
  unfold Grid.copyRow
  split_ifs
  · exact ⟨_, _, rfl⟩
  · cases s.grid.rows[r + 1]? <;> exact ⟨_, _, rfl⟩

theorem edited_eraseColumns (s : Screen) (row : ℕ) (cols : List ℕ) :
    Edited s (s.eraseColumns row cols) := by
  have hgrid : ∀ (cols : List ℕ) (g : Grid),
      ∃ rows, cols.foldl (fun g col => g.set col row {}) g = { g with rows := rows } := by
    intro cols
    induction cols with
    | nil => exact fun g => ⟨g.rows, rfl⟩
    | cons col cols ih =>
      intro g
      obtain ⟨rows, hrows⟩ := ih (g.set col row {})
      exact ⟨rows, hrows⟩
  obtain ⟨rows, hrows⟩ := hgrid cols s.grid
  refine ⟨rows, s.dirty, ?_⟩
  unfold eraseColumns
  rw [hrows]

theorem edited_eraseInLine (s : Screen) (mode : ℕ) : Edited s (s.eraseInLine mode) := by
  have hmark : ∀ s : Screen, Edited s (s.markDirty s.cursorRow) := fun s => ⟨_, _, rfl⟩
  have herase : ∀ cols, Edited s ((s.eraseColumns s.cursorRow cols).markDirty s.cursorRow) := by
    intro cols
    exact (edited_eraseColumns s s.cursorRow cols).trans ⟨_, _, rfl⟩
  unfold eraseInLine
  match mode with
  | 0 => exact herase _
  | 1 => exact herase _
  | 2 => exact ⟨_, _, rfl⟩
  | _ + 3 => exact hmark s

theorem steady_eraseInDisplay (s : Screen) (mode : ℕ) : Steady [] s (s.eraseInDisplay mode) := by
  unfold eraseInDisplay
  match mode with
  | 0 => exact ((edited_eraseInLine s 0).trans (edited_clearRows _ _)).steady
  | 1 => exact ((edited_clearRows s _).trans (edited_eraseInLine _ 1)).steady
  | 2 =>
    have h := (edited_clearRows s (List.range s.grid.height)).steady
    exact ⟨h.width, h.height, h.scrollTop, h.scrollBottom, h.altMode, h.altScreen, h.pending⟩
  | 3 => exact (edited_clearRows s _).steady
  | _ + 4 => exact .refl s

theorem steady_moveCursor (s : Screen) (col row : ℕ) : Steady [] s (s.moveCursor col row) :=
  ⟨rfl, rfl, rfl, rfl, rfl, rfl, (List.append_nil _).symm⟩

/-! ## Scrolling and wrapping -/

theorem retainTopLine_eq (s : Screen) :
    s.retainTopLine = { s with pendingScrollback := s.pendingScrollback ++ s.retained } := by
  unfold retainTopLine retained
  split_ifs
  · cases s.grid.rows[s.scrollTop]? <;> simp
  · simp

/-- A scroll edits cells and flags, and retains a line. -/
theorem scrollUp_eq (s : Screen) :
    Edited { s with pendingScrollback := s.pendingScrollback ++ s.retained } s.scrollUp := by
  unfold scrollUp
  rw [retainTopLine_eq]
  exact (edited_copyUp _ _).trans (edited_clearRows _ _)

theorem steady_scrollUp (s : Screen) : Steady s.retained s s.scrollUp := by
  have h := (scrollUp_eq s).steady
  exact ⟨h.width, h.height, h.scrollTop, h.scrollBottom, h.altMode, h.altScreen,
    h.pending.trans (List.append_nil _)⟩

theorem steady_advanceLine (s : Screen) : Steady s.fedLine s s.advanceLine := by
  unfold advanceLine fedLine
  split_ifs
  · exact steady_scrollUp s
  · exact ⟨rfl, rfl, rfl, rfl, rfl, rfl, (List.append_nil _).symm⟩

theorem cursor_advanceLine (s : Screen) :
    s.advanceLine.cursorCol = s.cursorCol ∧
      s.advanceLine.cursorRow =
        if s.cursorRow ≥ s.scrollBottom then s.cursorRow else s.cursorRow + 1 := by
  unfold advanceLine
  split_ifs
  · exact (scrollUp_eq s).cursor
  · exact ⟨rfl, rfl⟩

theorem steady_wrapLine (s : Screen) :
    Steady (fedLine { s with cursorCol := 0 }) s s.wrapLine := by
  have h := steady_advanceLine { s with cursorCol := 0 }
  exact ⟨h.width, h.height, h.scrollTop, h.scrollBottom, h.altMode, h.altScreen, h.pending⟩

/-- Writing advances lines, then edits cells and moves the cursor. -/
theorem steady_writeChar (s : Screen) (ch : Char) (charWidth : ℕ) :
    Steady ((s.wrapFeeds charWidth).flatMap fedLine) s (s.writeChar ch charWidth) := by
  have hwrap : ∀ (s : Screen) (c : Prop) [Decidable c],
      Steady ((if c then [{ s with cursorCol := 0 }] else []).flatMap fedLine) s
        (if c then s.wrapLine else s) := by
    intro s c _
    split_ifs
    · rw [List.flatMap_singleton]
      exact steady_wrapLine s
    · exact .refl s
  have hset : ∀ (s : Screen) (grid : Grid) (dirty : List Bool) (col : ℕ),
      grid.width = s.grid.width → grid.height = s.grid.height →
      Steady [] s { s with grid := grid, dirty := dirty, cursorCol := col } := by
    intro s grid dirty col hw hh
    exact ⟨hw, hh, rfl, rfl, rfl, rfl, (List.append_nil _).symm⟩
  unfold writeChar wrapFeeds
  have h₁ := hwrap s (s.cursorCol ≥ s.grid.width)
  dsimp only
  rw [List.flatMap_append]
  generalize (if s.cursorCol ≥ s.grid.width then s.wrapLine else s) = s₁ at h₁ ⊢
  have h₂ := h₁.trans (hwrap s₁ (charWidth = 2 ∧ s₁.cursorCol + 1 ≥ s₁.grid.width))
  generalize (if charWidth = 2 ∧ s₁.cursorCol + 1 ≥ s₁.grid.width then s₁.wrapLine else s₁) = s₂
    at h₂ ⊢
  rw [← List.append_nil (List.flatMap _ _ ++ _)]
  refine h₂.trans ?_
  split_ifs
  · exact hset s₂ _ _ _ rfl rfl
  · exact hset s₂ _ _ _ rfl rfl

/-! ## Actions -/

theorem steady_execute (V : Vte) (s : Screen) (byte : UInt8) :
    Steady ((s.feeds V (.execute byte)).flatMap fedLine) s (s.execute byte) := by
  have hother : ∀ {t : Screen}, ¬(0x0a ≤ byte ∧ byte ≤ 0x0c) → Steady [] s t →
      Steady ((s.feeds V (.execute byte)).flatMap fedLine) s t := by
    intro t hbyte ht
    rw [feeds, if_neg hbyte]
    exact ht
  unfold execute
  split_ifs with h₁ h₂ h₃ h₄
  · refine hother ?_ (steady_moveCursor s _ _)
    rw [h₁.1]
    decide
  · refine hother ?_ (steady_moveCursor s _ _)
    rw [h₂]
    decide
  · rw [feeds, if_pos h₃, List.flatMap_singleton]
    exact steady_advanceLine s
  · exact hother h₃ (steady_moveCursor s _ _)
  · exact hother h₃ (.refl s)

theorem steady_popKeyboardProtocolFlags : ∀ (n : ℕ) (s : Screen),
    Steady [] s (s.popKeyboardProtocolFlags n)
  | 0, s => .refl s
  | n + 1, s => by
    unfold popKeyboardProtocolFlags
    split
    · exact ⟨rfl, rfl, rfl, rfl, rfl, rfl, (List.append_nil _).symm⟩
    · rename_i prev rest _
      have h :
          Steady [] s { s with keyboardProtocolStack := rest, keyboardProtocolFlags := prev } :=
        ⟨rfl, rfl, rfl, rfl, rfl, rfl, (List.append_nil _).symm⟩
      exact h.trans (steady_popKeyboardProtocolFlags n _)

theorem steady_csiAction (s : Screen) (params : List (List ℕ)) (intermediates : List UInt8)
    {action : Char} (haction : action ≠ 'r') :
    Steady [] s (s.csiAction params intermediates action) := by
  have hreply : ∀ reply, Steady [] s (s.pushPendingResponse reply) :=
    fun _ => ⟨rfl, rfl, rfl, rfl, rfl, rfl, (List.append_nil _).symm⟩
  unfold csiAction
  dsimp only
  split
  any_goals exact steady_moveCursor s _ _
  · exact steady_eraseInDisplay s _
  · exact (edited_eraseInLine s _).steady
  · exact ⟨rfl, rfl, rfl, rfl, rfl, rfl, (List.append_nil _).symm⟩
  · exact absurd rfl haction
  · split_ifs
    · exact ⟨rfl, rfl, rfl, rfl, rfl, rfl, (List.append_nil _).symm⟩
    · exact steady_popKeyboardProtocolFlags _ s
    · exact .refl s
  · split_ifs
    · exact hreply _
    · exact hreply _
    · exact .refl s
  · split_ifs
    · exact .refl s
    · exact hreply _
    · exact hreply _
    · exact .refl s
  · exact .refl s

theorem steady_setHyperlink (s : Screen) (url : Option String) :
    Steady [] s (s.setHyperlink url) := by
  have hfinish : Steady [] s s.finishHyperlink := by
    unfold finishHyperlink
    split
    · exact .refl s
    · exact ⟨rfl, rfl, rfl, rfl, rfl, rfl, (List.append_nil _).symm⟩
  have h : ∀ {t : Screen}, Steady [] s.finishHyperlink t → Steady [] s t := hfinish.trans
  unfold setHyperlink
  cases url with
  | none => exact hfinish
  | some url =>
    dsimp only
    split <;> exact h ⟨rfl, rfl, rfl, rfl, rfl, rfl, (List.append_nil _).symm⟩

theorem steady_oscDispatch (s : Screen) (params : List (List UInt8)) :
    Steady [] s (s.oscDispatch params) := by
  unfold oscDispatch
  cases params with
  | nil => exact .refl s
  | cons code args =>
    dsimp only
    by_cases hcode : (fromUtf8 code).map trim = some "8"
    · rw [if_pos hcode]
      exact steady_setHyperlink s _
    · rw [if_neg hcode]
      exact .refl s

/-- The size is the same, no line is retained, and the region is the same or the whole screen. -/
structure Switched (s s' : Screen) : Prop where
  width : s'.grid.width = s.grid.width
  height : s'.grid.height = s.grid.height
  pending : s'.pendingScrollback = s.pendingScrollback
  region : s'.scrollTop = s.scrollTop ∧ s'.scrollBottom = s.scrollBottom ∨
    s'.scrollTop = 0 ∧ s'.scrollBottom = s.grid.height - 1

theorem Switched.refl (s : Screen) : Switched s s := ⟨rfl, rfl, rfl, .inl ⟨rfl, rfl⟩⟩

theorem Switched.trans (h : Switched s s') (h' : Switched s' s'') : Switched s s'' := by
  refine ⟨h'.width.trans h.width, h'.height.trans h.height, h'.pending.trans h.pending, ?_⟩
  rcases h'.region with ⟨htop, hbottom⟩ | ⟨htop, hbottom⟩
  · rw [htop, hbottom]
    exact h.region
  · exact .inr ⟨htop, h.height ▸ hbottom⟩

theorem switched_setMode (s : Screen) (enable : Bool) (mode : ℕ) :
    Switched s (s.setMode enable mode) := by
  unfold setMode
  split_ifs
  · unfold switchToAlt
    split_ifs
    · exact .refl s
    · exact ⟨rfl, rfl, rfl, .inr ⟨rfl, rfl⟩⟩
  · unfold switchToPrimary
    by_cases halt : s.altMode
    · simp only [halt, Bool.not_true, Bool.false_eq_true, if_false]
      cases s.altScreen <;> exact ⟨rfl, rfl, rfl, .inr ⟨rfl, rfl⟩⟩
    · simp only [halt, Bool.not_false, if_true]
      exact .refl s
  all_goals exact ⟨rfl, rfl, rfl, .inl ⟨rfl, rfl⟩⟩

theorem switched_decPrivateMode (enable : Bool) : ∀ (params : List (List ℕ)) (s : Screen),
    Switched s (s.decPrivateMode params enable)
  | [], s => .refl s
  | _ :: params, s =>
    (switched_setMode s enable _).trans (switched_decPrivateMode enable params (s.setMode enable _))

/-- The region that an action asks for. -/
def regionAsked (s : Screen) : Perform → Option (ℕ × ℕ)
  | .csiDispatch params _ _ action =>
    let p := params.map fun sub => sub.head?.getD 0
    if action = 'r' then some (paramOr p 0 1 - 1, paramOr p 1 s.grid.height - 1) else none
  | _ => none

/-- What an action can do to the size, the region, the buffer and the scrollback. -/
inductive Performed (V : Vte) (s : Screen) (action : Perform) : Prop
  /-- It advances lines or does none of this. -/
  | steady (hregion : s.regionAsked action = none)
      (h : Steady ((s.feeds V action).flatMap fedLine) s (s.perform V action))
  /-- It sets the region. -/
  | region (top bottom : ℕ) (hregion : s.regionAsked action = some (top, bottom))
      (hfeeds : s.feeds V action = []) (h : s.perform V action = s.setScrollRegion top bottom)
  /-- It sets modes. -/
  | switched (hregion : s.regionAsked action = none) (hfeeds : s.feeds V action = [])
      (params : List (List ℕ)) (enable : Bool)
      (h : s.perform V action = s.decPrivateMode params enable)

theorem perform_cases (V : Vte) (s : Screen) (action : Perform) : Performed V s action := by
  cases action with
  | print c => exact .steady rfl (steady_writeChar s c _)
  | execute byte => exact .steady rfl (steady_execute V s byte)
  | csiDispatch params intermediates ignore action =>
    have hmode : ∀ enable, action = 'h' ∨ action = 'l' →
        s.csiDispatch params intermediates action = s.decPrivateMode params enable →
        Performed V s (.csiDispatch params intermediates ignore action) := by
      intro enable haction h
      refine .switched (if_neg ?_) rfl params enable h
      rintro rfl
      rcases haction with h | h <;> cases h
    by_cases h₁ : intermediates.head? = some 0x3f ∧ action = 'h'
    · exact hmode true (.inl h₁.2) (if_pos h₁)
    by_cases h₂ : intermediates.head? = some 0x3f ∧ action = 'l'
    · exact hmode false (.inr h₂.2) ((if_neg h₁).trans (if_pos h₂))
    have hcsi : s.csiDispatch params intermediates action =
        s.csiAction params intermediates action := (if_neg h₁).trans (if_neg h₂)
    by_cases hr : action = 'r'
    · subst hr
      exact .region _ _ rfl rfl hcsi
    · refine .steady (if_neg hr) ?_
      show Steady [] s (s.csiDispatch params intermediates action)
      rw [hcsi]
      exact steady_csiAction s params intermediates hr
  | oscDispatch params bellTerminated => exact .steady rfl (steady_oscDispatch s params)
  | escDispatch intermediates ignore byte => exact .steady rfl (.refl s)
  | hook params intermediates ignore action => exact .steady rfl (.refl s)
  | put byte => exact .steady rfl (.refl s)
  | unhook => exact .steady rfl (.refl s)

/-- The scrollback grows by the lines that the feeds of an action retain. -/
theorem pending_perform (V : Vte) (s : Screen) (action : Perform) :
    (s.perform V action).pendingScrollback =
      s.pendingScrollback ++ (s.feeds V action).flatMap fedLine := by
  cases perform_cases V s action with
  | steady _ h => exact h.pending
  | region top bottom _ hfeeds h =>
    rw [h, hfeeds]
    exact (List.append_nil _).symm
  | switched _ hfeeds params enable h =>
    rw [h, hfeeds, (switched_decPrivateMode enable params s).pending]
    exact (List.append_nil _).symm

/-- How many lines an action advances. -/
def linesFed (V : Vte) (s : Screen) : Perform → ℕ
  | .print c =>
    let wrapped := s.cursorCol ≥ s.grid.width
    let col := if wrapped then 0 else s.cursorCol
    (if wrapped then 1 else 0) +
      if (V.width c).getD 1 = 2 ∧ col + 1 ≥ s.grid.width then 1 else 0
  | .execute byte => if 0x0a ≤ byte ∧ byte ≤ 0x0c then 1 else 0
  | _ => 0

/-- The screens in which an action advances a line differ from the one it starts in by what the
    first line advanced. -/
theorem feeds_cases {V : Vte} {s : Screen} {action : Perform} {t : Screen}
    (ht : t ∈ s.feeds V action) :
    t = s ∨ t = { s with cursorCol := 0 } ∨ t = { s.wrapLine with cursorCol := 0 } := by
  cases action with
  | print c =>
    simp only [feeds, wrapFeeds, List.mem_append] at ht
    split_ifs at ht <;> simp_all
  | execute byte =>
    simp only [feeds] at ht
    split_ifs at ht <;> simp_all
  | _ => cases ht

theorem feeds_frame {V : Vte} {s : Screen} {action : Perform} {t : Screen}
    (ht : t ∈ s.feeds V action) :
    t.grid.height = s.grid.height ∧ t.scrollTop = s.scrollTop ∧ t.scrollBottom = s.scrollBottom ∧
      t.altMode = s.altMode := by
  have hwrap := steady_wrapLine s
  rcases feeds_cases ht with rfl | rfl | rfl
  · exact ⟨rfl, rfl, rfl, rfl⟩
  · exact ⟨rfl, rfl, rfl, rfl⟩
  · exact ⟨hwrap.height, hwrap.scrollTop, hwrap.scrollBottom, hwrap.altMode⟩

theorem length_feeds (V : Vte) (s : Screen) (action : Perform) :
    (s.feeds V action).length = s.linesFed V action := by
  cases action with
  | print c =>
    have hcol : s.wrapLine.cursorCol = 0 := (cursor_advanceLine _).1
    have hw : s.wrapLine.grid.width = s.grid.width := (steady_wrapLine s).width
    simp only [feeds, wrapFeeds, linesFed, List.length_append, apply_ite List.length,
      List.length_singleton, List.length_nil]
    split_ifs <;> simp_all
  | execute byte =>
    simp only [feeds, linesFed, apply_ite List.length, List.length_singleton, List.length_nil]
  | _ => rfl

end Screen

/-! ## A small part of `vte` -/

/-- The states of the automaton, as far as control sequences need them. -/
inductive MiniState
  | ground
  | escape
  | csi (intermediates : List UInt8) (params : List ℕ) (param : ℕ)

/-- The parser that prints printable ASCII, executes control characters and dispatches control
    sequences without subparameters. -/
def miniVte : Vte where
  State := MiniState
  init := .ground
  advance
    | .ground, byte =>
      if byte = 0x1b then (.escape, [])
      else if byte < 0x20 then (.ground, [.execute byte])
      else (.ground, [.print (Char.ofNat byte.toNat)])
    | .escape, byte =>
      if byte = 0x5b then (.csi [] [] 0, []) else (.ground, [.escDispatch [] false byte])
    | .csi intermediates params param, byte =>
      if 0x30 ≤ byte ∧ byte ≤ 0x39 then
        (.csi intermediates params (param * 10 + (byte.toNat - 0x30)), [])
      else if byte = 0x3b then (.csi intermediates (params ++ [param]) 0, [])
      else if byte < 0x40 then (.csi (intermediates ++ [byte]) params param, [])
      else
        (.ground, [.csiDispatch ((params ++ [param]).map fun p => [p]) intermediates false
          (Char.ofNat byte.toNat)])
  width _ := some 1

end Nexterm.Vt

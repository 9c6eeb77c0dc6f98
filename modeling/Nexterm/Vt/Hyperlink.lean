/-
  The hyperlink spans of the screen (`set_hyperlink` in `screen.rs`) against the ledger.

  * `Buffers.step`: what an event does to the grid, the saved rows and the open link.
  * `Screen.linkEvents`: the events of an action; `buffers_perform`: they are what it does.
  * `Refines`: the spans of the grid are those of the ledger.
  * `Traced`: a screen and its ledger; `hyperlinks_track`: the spans of a byte stream track the text
    as long as every event is harmless.
-/
import Nexterm.Vt.Ledger
import Nexterm.Vt.Trace

namespace Nexterm.Vt

/-! ## Events -/

/-- The grid after an edit. -/
def CellEdit.apply (g : Grid) : CellEdit → Grid
  | .write row col cell => g.set col row cell
  | .erase row col => g.set col row {}
  | .clearRow row => g.clearRow row
  | .copyRow dst src => g.copyRow dst src

/-- The active grid, the rows of the saved screen and the open link. -/
structure Buffers where
  grid : Grid
  saved : Option (List (List Cell))
  url : Option String

namespace Buffers

/-- The span of the open link. -/
def closed (b : Buffers) (range : Option (ℕ × ℕ × ℕ)) : List HyperlinkSpan :=
  match b.url, range with
  | some url, some (row, colStart, colEnd) => [⟨row, colStart, colEnd, url⟩]
  | _, _ => []

def step (b : Buffers) : LinkEvent → Buffers
  | .edit e => { b with grid := e.apply b.grid }
  | .setHyperlink range url =>
    { b with
      grid := { b.grid with hyperlinks := b.grid.hyperlinks ++ b.closed range }
      url := url }
  | .switchToAlt =>
    { b with grid := Grid.new b.grid.width b.grid.height, saved := some b.grid.rows }
  | .switchToPrimary =>
    match b.saved with
    | none => b
    | some rows => { b with grid := { b.grid with rows := rows }, saved := none }

end Buffers

namespace Screen

/-- What the events are about. -/
def buffers (s : Screen) : Buffers :=
  ⟨s.grid, s.altScreen.map ScreenBuffer.rows, s.currentHyperlinkUrl⟩

/-- A scroll of the region. -/
def scrollEdits (s : Screen) : List CellEdit :=
  (List.range' s.scrollTop (s.scrollBottom - s.scrollTop)).map (fun r => .copyRow r (r + 1)) ++
    [.clearRow s.scrollBottom]

def advanceEdits (s : Screen) : List CellEdit :=
  if s.cursorRow ≥ s.scrollBottom then s.scrollEdits else []

/-- A character, with the lines that are advanced before it. -/
def writeEdits (s : Screen) (ch : Char) (charWidth : ℕ) : List CellEdit :=
  let wrap := if s.cursorCol ≥ s.grid.width then s.advanceEdits else []
  let s := if s.cursorCol ≥ s.grid.width then s.wrapLine else s
  let wrapWide :=
    if charWidth = 2 ∧ s.cursorCol + 1 ≥ s.grid.width then s.advanceEdits else []
  let s := if charWidth = 2 ∧ s.cursorCol + 1 ≥ s.grid.width then s.wrapLine else s
  let placeholder :=
    if charWidth = 2 ∧ s.cursorCol + 1 < s.grid.width then
      [.write s.cursorRow (s.cursorCol + 1) (s.style.cell ' ')]
    else []
  wrap ++ wrapWide ++ .write s.cursorRow s.cursorCol (s.style.cell ch) :: placeholder

def eraseInLineEdits (s : Screen) (mode : ℕ) : List CellEdit :=
  match mode with
  | 0 => (List.range' s.cursorCol (s.grid.width - s.cursorCol)).map (.erase s.cursorRow)
  | 1 => (List.range (s.cursorCol + 1)).map (.erase s.cursorRow)
  | 2 => [.clearRow s.cursorRow]
  | _ => []

def eraseInDisplayEdits (s : Screen) (mode : ℕ) : List CellEdit :=
  match mode with
  | 0 => s.eraseInLineEdits 0 ++
    (List.range' (s.cursorRow + 1) (s.grid.height - (s.cursorRow + 1))).map .clearRow
  | 1 => (List.range s.cursorRow).map .clearRow ++ s.eraseInLineEdits 1
  | 2 | 3 => (List.range s.grid.height).map .clearRow
  | _ => []

/-- A mode that switches the buffer. -/
def modeEvents (s : Screen) (enable : Bool) (mode : ℕ) : List LinkEvent :=
  if mode = 47 ∨ mode = 1047 ∨ mode = 1049 then
    if enable then (if s.altMode then [] else [.switchToAlt])
    else (if s.altMode then [.switchToPrimary] else [])
  else []

def decPrivateModeEvents (s : Screen) (enable : Bool) : List (List ℕ) → List LinkEvent
  | [] => []
  | param :: params =>
    s.modeEvents enable (param.head?.getD 0) ++
      (s.setMode enable (param.head?.getD 0)).decPrivateModeEvents enable params

def csiEvents (s : Screen) (params : List (List ℕ)) (intermediates : List UInt8) (action : Char) :
    List LinkEvent :=
  if intermediates.head? = some 0x3f ∧ action = 'h' then s.decPrivateModeEvents true params
  else if intermediates.head? = some 0x3f ∧ action = 'l' then s.decPrivateModeEvents false params
  else
    let p1 := paramOr (params.map fun sub => sub.head?.getD 0) 0 0
    if action = 'J' then (s.eraseInDisplayEdits p1).map .edit
    else if action = 'K' then (s.eraseInLineEdits p1).map .edit
    else []

/-- The columns that a span is given when its link is closed. -/
def closingRange (s : Screen) : Option (ℕ × ℕ × ℕ) :=
  if s.cursorCol > s.hyperlinkStartCol then
    some (s.hyperlinkStartRow, s.hyperlinkStartCol, s.cursorCol)
  else none

def oscEvents (s : Screen) (params : List (List UInt8)) : List LinkEvent :=
  match params with
  | [] => []
  | code :: args =>
    if (fromUtf8 code).map trim = some "8" then
      let uri := trim ((args[1]?.bind fromUtf8).getD "")
      [.setHyperlink s.closingRange (if uri.isEmpty then none else validateHyperlinkUri uri)]
    else []

/-- What an action does to the cells and to the link. -/
def linkEvents (V : Vte) (s : Screen) : Perform → List LinkEvent
  | .print c => (s.writeEdits c ((V.width c).getD 1)).map .edit
  | .execute byte => if 0x0a ≤ byte ∧ byte ≤ 0x0c then s.advanceEdits.map .edit else []
  | .csiDispatch params intermediates _ action => s.csiEvents params intermediates action
  | .oscDispatch params _ => s.oscEvents params
  | _ => []

/-! ## They are what the action does -/

/-- The edits lead from one screen to the other. -/
structure Rewrites (s s' : Screen) (edits : List CellEdit) : Prop where
  grid : s'.grid = edits.foldl CellEdit.apply s.grid
  altScreen : s'.altScreen = s.altScreen
  url : s'.currentHyperlinkUrl = s.currentHyperlinkUrl

variable {s s' s'' : Screen}

theorem Rewrites.refl (s : Screen) : Rewrites s s [] := ⟨rfl, rfl, rfl⟩

theorem Rewrites.trans {edits edits' : List CellEdit} (h : Rewrites s s' edits)
    (h' : Rewrites s' s'' edits') : Rewrites s s'' (edits ++ edits') where
  grid := by rw [h'.grid, h.grid, List.foldl_append]
  altScreen := h'.altScreen.trans h.altScreen
  url := h'.url.trans h.url

theorem rewrites_foldl {α : Type} (f : Screen → α → Screen) (edit : α → CellEdit)
    (hf : ∀ s a, Rewrites s (f s a) [edit a]) :
    ∀ (l : List α) (s : Screen), Rewrites s (l.foldl f s) (l.map edit)
  | [], s => .refl s
  | a :: l, s => (hf s a).trans (rewrites_foldl f edit hf l (f s a))

theorem rewrites_clearRows (s : Screen) (rows : List ℕ) :
    Rewrites s (s.clearRows rows) (rows.map .clearRow) :=
  rewrites_foldl (fun s r => markDirty { s with grid := s.grid.clearRow r } r)
    .clearRow (fun _ _ => ⟨rfl, rfl, rfl⟩) rows s

theorem rewrites_copyUp (s : Screen) (rows : List ℕ) :
    Rewrites s (s.copyUp rows) (rows.map fun r => .copyRow r (r + 1)) :=
  rewrites_foldl
    (fun s r => markDirty { s with grid := s.grid.copyRow r (r + 1) } r)
    (fun r => .copyRow r (r + 1)) (fun _ _ => ⟨rfl, rfl, rfl⟩) rows s

theorem rewrites_scrollUp (s : Screen) : Rewrites s s.scrollUp s.scrollEdits := by
  have hretain : Rewrites s s.retainTopLine [] := by
    rw [retainTopLine_eq]
    exact ⟨rfl, rfl, rfl⟩
  have hregion : s.retainTopLine.scrollTop = s.scrollTop ∧
      s.retainTopLine.scrollBottom = s.scrollBottom := by
    rw [retainTopLine_eq]
    exact ⟨rfl, rfl⟩
  exact hretain.trans ((rewrites_copyUp _ _).trans (rewrites_clearRows _ _))

theorem rewrites_advanceLine (s : Screen) : Rewrites s s.advanceLine s.advanceEdits := by
  unfold advanceLine advanceEdits
  split_ifs
  · exact rewrites_scrollUp s
  · exact ⟨rfl, rfl, rfl⟩

theorem rewrites_wrapLine (s : Screen) : Rewrites s s.wrapLine s.advanceEdits := by
  have h := rewrites_advanceLine { s with cursorCol := 0 }
  exact ⟨h.grid, h.altScreen, h.url⟩

theorem rewrites_writeChar (s : Screen) (ch : Char) (charWidth : ℕ) :
    Rewrites s (s.writeChar ch charWidth) (s.writeEdits ch charWidth) := by
  have hwrap : ∀ (s : Screen) (c : Prop) [Decidable c],
      Rewrites s (if c then s.wrapLine else s) (if c then s.advanceEdits else []) := by
    intro s c _
    split_ifs
    · exact rewrites_wrapLine s
    · exact .refl s
  unfold writeChar writeEdits
  have h₁ := hwrap s (s.cursorCol ≥ s.grid.width)
  dsimp only
  generalize (if s.cursorCol ≥ s.grid.width then s.wrapLine else s) = s₁ at h₁ ⊢
  have h₂ := h₁.trans (hwrap s₁ (charWidth = 2 ∧ s₁.cursorCol + 1 ≥ s₁.grid.width))
  generalize (if charWidth = 2 ∧ s₁.cursorCol + 1 ≥ s₁.grid.width then s₁.wrapLine else s₁) = s₂
    at h₂ ⊢
  refine h₂.trans ?_
  split_ifs with hwide hwide' hwide'
  · exact ⟨rfl, rfl, rfl⟩
  · exact absurd hwide hwide'
  · exact absurd hwide' hwide
  · exact ⟨rfl, rfl, rfl⟩

theorem rewrites_eraseColumns (s : Screen) (row : ℕ) (cols : List ℕ) :
    Rewrites s (s.eraseColumns row cols) (cols.map (.erase row)) := by
  refine ⟨?_, rfl, rfl⟩
  rw [List.foldl_map]
  rfl

theorem rewrites_eraseInLine (s : Screen) (mode : ℕ) :
    Rewrites s (s.eraseInLine mode) (s.eraseInLineEdits mode) := by
  have hmark : ∀ {s' : Screen} {edits : List CellEdit}, Rewrites s s' edits →
      Rewrites s (s'.markDirty s.cursorRow) edits := fun h => ⟨h.grid, h.altScreen, h.url⟩
  unfold eraseInLine eraseInLineEdits
  match mode with
  | 0 => exact hmark (rewrites_eraseColumns s _ _)
  | 1 => exact hmark (rewrites_eraseColumns s _ _)
  | 2 => exact ⟨rfl, rfl, rfl⟩
  | _ + 3 => exact hmark (.refl s)

theorem rewrites_eraseInDisplay (s : Screen) (mode : ℕ) :
    Rewrites s (s.eraseInDisplay mode) (s.eraseInDisplayEdits mode) := by
  unfold eraseInDisplay eraseInDisplayEdits
  match mode with
  | 0 =>
    have hedited := edited_eraseInLine s 0
    have h := (rewrites_eraseInLine s 0).trans (rewrites_clearRows (s.eraseInLine 0)
      (List.range' (s.cursorRow + 1) (s.grid.height - (s.cursorRow + 1))))
    show Rewrites s ((s.eraseInLine 0).clearRows (List.range' ((s.eraseInLine 0).cursorRow + 1)
      ((s.eraseInLine 0).grid.height - ((s.eraseInLine 0).cursorRow + 1)))) _
    rw [hedited.cursor.2, hedited.steady.height]
    exact h
  | 1 =>
    have hcursor := (edited_clearRows s (List.range s.cursorRow)).cursor
    have h := rewrites_eraseInLine (s.clearRows (List.range s.cursorRow)) 1
    have hedits : (s.clearRows (List.range s.cursorRow)).eraseInLineEdits 1 =
        s.eraseInLineEdits 1 := by
      show List.map _ _ = List.map _ _
      rw [hcursor.1, hcursor.2]
    rw [hedits] at h
    exact (rewrites_clearRows s _).trans h
  | 2 =>
    have h := rewrites_clearRows s (List.range s.grid.height)
    exact ⟨h.grid, h.altScreen, h.url⟩
  | 3 => exact rewrites_clearRows s _
  | _ + 4 => exact .refl s

theorem Rewrites.buffers {edits : List CellEdit} (h : Rewrites s s' edits) :
    s'.buffers = (edits.map LinkEvent.edit).foldl Buffers.step s.buffers := by
  have hfold : ∀ (edits : List CellEdit) (b : Buffers),
      (edits.map LinkEvent.edit).foldl Buffers.step b =
        { b with grid := edits.foldl CellEdit.apply b.grid } := by
    intro edits
    induction edits with
    | nil => exact fun b => rfl
    | cons e edits ih => exact fun b => ih _
  rw [hfold]
  unfold Screen.buffers
  rw [h.grid, h.altScreen, h.url]

theorem buffers_setMode (s : Screen) (enable : Bool) (mode : ℕ) :
    (s.setMode enable mode).buffers = (s.modeEvents enable mode).foldl Buffers.step s.buffers := by
  unfold setMode modeEvents
  by_cases hswitch : mode = 47 ∨ mode = 1047 ∨ mode = 1049
  · rw [if_pos hswitch, if_pos hswitch]
    cases enable with
    | true =>
      simp only [if_true]
      unfold switchToAlt
      split_ifs <;> rfl
    | false =>
      simp only [Bool.false_eq_true, if_false]
      unfold switchToPrimary
      cases halt : s.altMode with
      | false => rfl
      | true =>
        simp only [Bool.not_true, Bool.false_eq_true, if_false, if_true, List.foldl_cons,
          List.foldl_nil]
        cases hsaved : s.altScreen with
        | none => simp [buffers, Buffers.step, hsaved]
        | some saved => simp [buffers, Buffers.step, hsaved]
  · rw [if_neg hswitch, if_neg hswitch]
    split_ifs <;> rfl

theorem buffers_decPrivateMode (enable : Bool) : ∀ (params : List (List ℕ)) (s : Screen),
    (s.decPrivateMode params enable).buffers =
      (s.decPrivateModeEvents enable params).foldl Buffers.step s.buffers
  | [], s => rfl
  | param :: params, s => by
    rw [decPrivateModeEvents, List.foldl_append, ← buffers_setMode]
    exact buffers_decPrivateMode enable params _

theorem buffers_finishHyperlink (s : Screen) :
    s.finishHyperlink.buffers = s.buffers.step (.setHyperlink s.closingRange none) := by
  unfold finishHyperlink
  split
  · next hurl =>
    simp [buffers, Buffers.step, Buffers.closed, hurl]
  · next url hurl =>
    unfold closingRange
    split_ifs <;> simp [buffers, Buffers.step, Buffers.closed, hurl]

theorem buffers_setHyperlink (s : Screen) (url : Option String) :
    (s.setHyperlink url).buffers =
      s.buffers.step (.setHyperlink s.closingRange (url.bind validateHyperlinkUri)) := by
  have hfinish := buffers_finishHyperlink s
  have hopen : ∀ validated, { s.finishHyperlink.buffers with url := validated } =
      s.buffers.step (.setHyperlink s.closingRange validated) := by
    intro validated
    rw [hfinish]
    rfl
  cases url with
  | none => exact hfinish
  | some url =>
    rw [Option.bind_some, ← hopen]
    unfold setHyperlink
    dsimp only
    split
    · next hvalid =>
      rw [hvalid]
      rfl
    · next validated hvalid =>
      rw [hvalid]
      rfl

theorem buffers_popKeyboardProtocolFlags : ∀ (n : ℕ) (s : Screen),
    (s.popKeyboardProtocolFlags n).buffers = s.buffers
  | 0, _ => rfl
  | n + 1, s => by
    unfold popKeyboardProtocolFlags
    split
    · rfl
    · exact buffers_popKeyboardProtocolFlags n _

/-- The other control sequences leave the cells and the link alone. -/
theorem buffers_csiAction (s : Screen) (params : List (List ℕ)) (intermediates : List UInt8)
    {action : Char} (herase : action ≠ 'J') (hline : action ≠ 'K') :
    (s.csiAction params intermediates action).buffers = s.buffers := by
  unfold csiAction
  dsimp only
  split
  any_goals rfl
  · exact absurd rfl herase
  · exact absurd rfl hline
  · split_ifs
    · rfl
    · exact buffers_popKeyboardProtocolFlags _ s
    · rfl
  · split_ifs <;> rfl
  · split_ifs <;> rfl

theorem buffers_csiDispatch (s : Screen) (params : List (List ℕ)) (intermediates : List UInt8)
    (action : Char) :
    (s.csiDispatch params intermediates action).buffers =
      (s.csiEvents params intermediates action).foldl Buffers.step s.buffers := by
  unfold csiDispatch csiEvents
  split_ifs with hset hreset herase hline
  · exact buffers_decPrivateMode true params s
  · exact buffers_decPrivateMode false params s
  · subst herase
    exact (rewrites_eraseInDisplay s _).buffers
  · subst hline
    exact (rewrites_eraseInLine s _).buffers
  · exact buffers_csiAction s params intermediates herase hline

/-- **The events of an action are what it does to the cells and to the link.** -/
theorem buffers_perform (V : Vte) (s : Screen) (action : Perform) :
    (s.perform V action).buffers = (s.linkEvents V action).foldl Buffers.step s.buffers := by
  cases action with
  | print c => exact (rewrites_writeChar s c _).buffers
  | execute byte =>
    show (s.execute byte).buffers = _
    unfold execute linkEvents
    dsimp only
    by_cases hfeed : 0x0a ≤ byte ∧ byte ≤ 0x0c
    · have hback : ¬(byte = 0x08 ∧ s.cursorCol > 0) := by
        rintro ⟨rfl, -⟩
        exact absurd hfeed.1 (by decide)
      have htab : byte ≠ 0x09 := by
        rintro rfl
        exact absurd hfeed.1 (by decide)
      rw [if_neg hback, if_neg htab, if_pos hfeed, if_pos hfeed]
      exact (rewrites_advanceLine s).buffers
    · rw [if_neg hfeed, if_neg hfeed]
      split_ifs <;> rfl
  | csiDispatch params intermediates ignore action =>
    exact buffers_csiDispatch s params intermediates action
  | oscDispatch params bell =>
    show (s.oscDispatch params).buffers = (s.oscEvents params).foldl Buffers.step s.buffers
    unfold oscDispatch oscEvents
    cases params with
    | nil => rfl
    | cons code args =>
      dsimp only
      generalize trim ((args[1]?.bind fromUtf8).getD "") = uri
      split_ifs with hcode huri
      · exact buffers_setHyperlink s none
      · exact buffers_setHyperlink s (some uri)
      · rfl
  | _ => rfl

end Screen

/-! ## The screen and the ledger -/

/-- The spans of the grid are those of the ledger, and the same link is open. -/
structure Refines (b : Buffers) (l : Ledger) : Prop where
  width : b.grid.width = l.width
  height : b.grid.height = l.height
  hyperlinks : b.grid.hyperlinks = l.spans.map Prod.fst
  url : b.url = l.active.map Link.url
  saved : b.saved.isSome = l.saved.isSome

namespace Refines

variable {b : Buffers} {l : Ledger}

theorem apply_fields (g : Grid) (e : CellEdit) :
    (e.apply g).width = g.width ∧ (e.apply g).height = g.height ∧
      (e.apply g).hyperlinks = g.hyperlinks := by
  cases e with
  | copyRow dst src =>
    show (g.copyRow dst src).width = _ ∧ (g.copyRow dst src).height = _ ∧
      (g.copyRow dst src).hyperlinks = _
    unfold Grid.copyRow
    split_ifs
    · exact ⟨rfl, rfl, rfl⟩
    · cases g.rows[src]? <;> exact ⟨rfl, rfl, rfl⟩
  | _ => exact ⟨rfl, rfl, rfl⟩

theorem closed_eq (h : Refines b l) (range : Option (ℕ × ℕ × ℕ)) :
    b.closed range = (l.closed range).map Prod.fst := by
  unfold Buffers.closed Ledger.closed
  rw [h.url]
  cases l.active with
  | none => rfl
  | some link => cases range <;> rfl

/-- An event does the same to both. -/
theorem step (h : Refines b l) (e : LinkEvent) : Refines (b.step e) (l.step e) := by
  cases e with
  | edit e =>
    obtain ⟨hwidth, hheight, hlinks⟩ := apply_fields b.grid e
    exact ⟨hwidth.trans h.width, hheight.trans h.height, hlinks.trans h.hyperlinks, h.url, h.saved⟩
  | setHyperlink range url =>
    refine ⟨h.width, h.height, ?_, ?_, h.saved⟩
    · show b.grid.hyperlinks ++ b.closed range = (l.spans ++ l.closed range).map Prod.fst
      rw [h.hyperlinks, h.closed_eq, List.map_append]
    · cases url <;> rfl
  | switchToAlt => exact ⟨h.width, h.height, rfl, h.url, rfl⟩
  | switchToPrimary =>
    have hsaved := h.saved
    unfold Buffers.step Ledger.step
    dsimp only
    cases hb : b.saved with
    | none =>
      cases hl : l.saved with
      | none => exact h
      | some marks =>
        rw [hb, hl] at hsaved
        cases hsaved
    | some rows =>
      cases hl : l.saved with
      | none =>
        rw [hb, hl] at hsaved
        cases hsaved
      | some marks => exact ⟨h.width, h.height, h.hyperlinks, h.url, rfl⟩

theorem foldl (events : List LinkEvent) : ∀ {b : Buffers} {l : Ledger}, Refines b l →
    Refines (events.foldl Buffers.step b) (events.foldl Ledger.step l) := by
  induction events with
  | nil => exact fun h => h
  | cons e events ih => exact fun h => ih (h.step e)

end Refines

/-- A screen, and the ledger of what has been written to it. -/
structure Traced where
  screen : Screen
  ledger : Ledger

namespace Traced

variable (V : Vte)

def new (cols rows : ℕ) : Traced := ⟨Screen.new cols rows, Ledger.new cols rows⟩

def step (t : Traced) (action : Perform) : Traced :=
  ⟨t.screen.perform V action, (t.screen.linkEvents V action).foldl Ledger.step t.ledger⟩

/-- Every event of the action is harmless. -/
def Harmless (t : Traced) (action : Perform) : Prop :=
  Runs.Along Ledger.step Ledger.Harmless t.ledger (t.screen.linkEvents V action)

/-- The spans of the active grid track the text: they are in the grid; each of them covers cells
    that were last written under one link with its URI and have not moved since; and every cell
    that was last written under a link that is closed is covered by a span with its URI. -/
structure LinksTrack (t : Traced) : Prop where
  inside : ∀ span ∈ t.screen.grid.hyperlinks,
    span.row < t.screen.grid.height ∧ span.colEnd ≤ t.screen.grid.width
  covered : ∀ span ∈ t.screen.grid.hyperlinks, ∃ id, ∀ row col, span.Covers row col →
    t.ledger.marks row col = some ⟨⟨id, span.url⟩, false⟩
  covers : ∀ row col mark, t.ledger.marks row col = some mark →
    t.ledger.active ≠ some mark.link →
    ∃ span ∈ t.screen.grid.hyperlinks, span.Covers row col ∧ span.url = mark.link.url

/-- The ledger tracks its spans, and the screen has the same ones. -/
structure Inv (t : Traced) : Prop where
  refines : Refines t.screen.buffers t.ledger
  tracks : t.ledger.Tracks

variable {V} {t : Traced}

theorem Inv.linksTrack (h : t.Inv) : t.LinksTrack := by
  have hlinks : t.screen.grid.hyperlinks = t.ledger.spans.map Prod.fst := h.refines.hyperlinks
  refine ⟨?_, ?_, ?_⟩
  · intro span hspan
    rw [hlinks] at hspan
    obtain ⟨e, he, rfl⟩ := List.mem_map.1 hspan
    obtain ⟨hrow, hcol⟩ := h.tracks.inside e he
    exact ⟨hrow.trans_eq h.refines.height.symm, hcol.trans_eq h.refines.width.symm⟩
  · intro span hspan
    rw [hlinks] at hspan
    obtain ⟨e, he, rfl⟩ := List.mem_map.1 hspan
    exact ⟨e.2, h.tracks.covered e he⟩
  · intro row col mark hmark hactive
    obtain ⟨e, he, hcovers, hurl⟩ := h.tracks.covers row col mark hmark hactive
    refine ⟨e.1, ?_, hcovers, hurl⟩
    rw [hlinks]
    exact List.mem_map_of_mem he

theorem inv_new (cols rows : ℕ) : (new cols rows).Inv :=
  ⟨⟨rfl, rfl, rfl, rfl, rfl⟩, Ledger.tracks_new cols rows⟩

/-- **One action.** -/
theorem Inv.step (h : t.Inv) {action : Perform} (hharmless : t.Harmless V action) :
    (t.step V action).Inv where
  refines := by
    show Refines (t.screen.perform V action).buffers _
    rw [Screen.buffers_perform]
    exact h.refines.foldl _
  tracks := (Runs.always_of_along (fun _ _ h hevent => h.step hevent) h.tracks hharmless).last

theorem screen_run (V : Vte) : ∀ (actions : List Perform) (t : Traced),
    (Runs.run (step V) t actions).screen = actions.foldl (Screen.perform V) t.screen
  | [], _ => rfl
  | action :: actions, t => screen_run V actions (t.step V action)

end Traced

/-- **The spans of a byte stream track the text** as long as every event is harmless. -/
theorem hyperlinks_track (V : Vte) (cols rows : ℕ) (bytes : List UInt8)
    (h : Runs.Along (Traced.step V) (Traced.Harmless V) (.new cols rows)
      ((VtParser.new V cols rows).actions bytes)) :
    Runs.Always (Traced.step V) Traced.LinksTrack (.new cols rows)
        ((VtParser.new V cols rows).actions bytes) ∧
      (Runs.run (Traced.step V) (.new cols rows)
        ((VtParser.new V cols rows).actions bytes)).screen =
          ((VtParser.new V cols rows).advance bytes).screen := by
  constructor
  · have hinv :=
      Runs.always_of_along (fun _ _ h haction => h.step haction) (Traced.inv_new cols rows) h
    exact hinv.imp fun _ => Traced.Inv.linksTrack
  · rw [Traced.screen_run, VtParser.screen_advance]
    rfl

/-! ## A small part of `vte` -/

/-- The states of the automaton, as far as OSC sequences need them. -/
inductive LinkState
  | ground
  | escape
  | osc (buf : List UInt8)

/-- The parser that prints printable ASCII, executes control characters and dispatches OSC sequences
    that BEL ends. -/
def linkVte : Vte where
  State := LinkState
  init := .ground
  advance
    | .ground, byte =>
      if byte = 0x1b then (.escape, [])
      else if byte < 0x20 then (.ground, [.execute byte])
      else (.ground, [.print (Char.ofNat byte.toNat)])
    | .escape, byte =>
      if byte = 0x5d then (.osc [], []) else (.ground, [.escDispatch [] false byte])
    | .osc buf, byte =>
      if byte = 0x07 then (.ground, [.oscDispatch (buf.splitOn 0x3b) true])
      else (.osc (buf ++ [byte]), [])
  width _ := some 1

/-- `ESC ] 8 ; ; ftp://a BEL`, one letter, and `ESC ] 8 ; ; BEL`. -/
def linkBytes : List UInt8 :=
  [0x1b, 0x5d, 0x38, 0x3b, 0x3b, 0x66, 0x74, 0x70, 0x3a, 0x2f, 0x2f, 0x61, 0x07, 0x78,
    0x1b, 0x5d, 0x38, 0x3b, 0x3b, 0x07]

/-- A letter under a link, on a screen of one line. -/
theorem hyperlinks_track_letter :
    Runs.Always (Traced.step linkVte) Traced.LinksTrack (.new 2 1)
        ((VtParser.new linkVte 2 1).actions linkBytes) ∧
      (Runs.run (Traced.step linkVte) (.new 2 1)
        ((VtParser.new linkVte 2 1).actions linkBytes)).screen =
          ((VtParser.new linkVte 2 1).advance linkBytes).screen := by
  refine hyperlinks_track linkVte 2 1 linkBytes ?_
  have hactions : (VtParser.new linkVte 2 1).actions linkBytes =
      [.oscDispatch [[0x38], [], [0x66, 0x74, 0x70, 0x3a, 0x2f, 0x2f, 0x61]] true, .print 'x',
        .oscDispatch [[0x38], [], []] true] := rfl
  rw [hactions]
  set opening : Perform :=
    .oscDispatch [[0x38], [], [0x66, 0x74, 0x70, 0x3a, 0x2f, 0x2f, 0x61]] true
  set closing : Perform := .oscDispatch [[0x38], [], []] true
  -- the events of the three actions, and the ledger that each of them leaves
  have hopen : (Traced.new 2 1).screen.linkEvents linkVte opening =
      [.setHyperlink none (some "ftp://a")] := by decide +kernel
  have hopened : ((Traced.new 2 1).step linkVte opening).ledger =
      (Ledger.new 2 1).step (.setHyperlink none (some "ftp://a")) :=
    congrArg (List.foldl Ledger.step _) hopen
  have hprint : ((Traced.new 2 1).step linkVte opening).screen.linkEvents linkVte (.print 'x') =
      [.edit (.write 0 0 { ch := 'x' })] := by decide +kernel
  have hprinted : (((Traced.new 2 1).step linkVte opening).step linkVte (.print 'x')).ledger =
      ((Ledger.new 2 1).step (.setHyperlink none (some "ftp://a"))).step
        (.edit (.write 0 0 { ch := 'x' })) :=
    (congrArg (List.foldl Ledger.step _) hprint).trans
      (congrArg (fun l => l.step (.edit (.write 0 0 { ch := 'x' }))) hopened)
  have hclose :
      (((Traced.new 2 1).step linkVte opening).step linkVte (.print 'x')).screen.linkEvents
        linkVte closing = [.setHyperlink (some (0, 0, 1)) none] := by decide +kernel
  refine ⟨?_, ?_, ?_, trivial⟩
  · unfold Traced.Harmless
    rw [hopen]
    refine ⟨?_, trivial⟩
    rintro link ⟨⟩
  · unfold Traced.Harmless
    rw [hprint, hopened]
    refine ⟨?_, trivial⟩
    rintro row col - s ⟨⟩
  · unfold Traced.Harmless
    rw [hclose, hprinted]
    refine ⟨?_, trivial⟩
    rintro link ⟨⟩
    refine ⟨?_, ?_, ?_⟩
    · rintro row colStart colEnd ⟨⟩
      decide
    · rintro row colStart colEnd ⟨⟩ col hstart hend
      obtain rfl : col = 0 := by omega
      rfl
    · intro row col mark hmark _
      by_cases hcell : row = 0 ∧ col = 0
      · obtain ⟨rfl, rfl⟩ := hcell
        exact ⟨0, 1, rfl, le_rfl, Nat.one_pos⟩
      · exact absurd ((if_neg hcell).symm.trans hmark) (Option.some_ne_none mark).symm

/-- **The spans do not scroll**: a line feed at the bottom clears the letter, and its span stays. -/
theorem not_linksTrack_scrolled :
    ¬(Runs.run (Traced.step linkVte) (.new 2 1)
      ((VtParser.new linkVte 2 1).actions (linkBytes ++ [0x0a]))).LinksTrack := by
  intro h
  obtain ⟨id, hcovered⟩ := h.covered ⟨0, 0, 1, "ftp://a"⟩ (by decide +kernel)
  have hmark := hcovered 0 0 (by decide)
  have hblank : (Runs.run (Traced.step linkVte) (.new 2 1)
      ((VtParser.new linkVte 2 1).actions (linkBytes ++ [0x0a]))).ledger.marks 0 0 = none := by
    decide +kernel
  rw [hblank] at hmark
  cases hmark

end Nexterm.Vt

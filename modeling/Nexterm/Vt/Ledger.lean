/-
  What hyperlink spans are for: a record of who last wrote each cell.

  * `Mark`: the link under which a cell was last written, and whether the cell has moved since.
  * `Ledger`: the marks of the screen and of the saved screen, the open link and the spans.
  * `LinkEvent`, `Ledger.step`: what happens to the cells and to the link.
  * `Ledger.Tracks`: the spans cover the cells that were written under their links, and no others.
  * `Ledger.Harmless`: the condition on an event; `Tracks.step`: with it the spans stay right.
-/
import Nexterm.Vt.Grid

namespace Nexterm.Vt

/-- An OSC 8 link; the number tells two links with one URI apart. -/
structure Link where
  id : ℕ
  url : String
  deriving DecidableEq

/-- The cell was last written under this link; `moved` if it has been scrolled since, or put back by
    a buffer switch. -/
structure Mark where
  link : Link
  moved : Bool
  deriving DecidableEq

/-- The marks by row and column. -/
abbrev Marks := ℕ → ℕ → Option Mark

/-- The span covers a cell. -/
def HyperlinkSpan.Covers (span : HyperlinkSpan) (row col : ℕ) : Prop :=
  span.row = row ∧ span.colStart ≤ col ∧ col < span.colEnd

instance (span : HyperlinkSpan) (row col : ℕ) : Decidable (span.Covers row col) :=
  inferInstanceAs (Decidable (_ ∧ _))

/-- What happens to the cells. -/
inductive CellEdit
  | write (row col : ℕ) (cell : Cell)
  | erase (row col : ℕ)
  | clearRow (row : ℕ)
  | copyRow (dst src : ℕ)
  deriving DecidableEq

/-- What happens to the cells and to the link.  A link is closed with the columns of a row that its
    span is to cover, and the next one is opened. -/
inductive LinkEvent
  | edit (e : CellEdit)
  | setHyperlink (range : Option (ℕ × ℕ × ℕ)) (url : Option String)
  | switchToAlt
  | switchToPrimary
  deriving DecidableEq

/-- The cells that an edit reads or writes. -/
def CellEdit.Touches (row col : ℕ) : CellEdit → Prop
  | .write row' col' _ => row = row' ∧ col = col'
  | .erase row' col' => row = row' ∧ col = col'
  | .clearRow row' => row = row'
  | .copyRow dst src => row = dst ∨ row = src

/-- The marks of the screen and of the saved screen, the open link, the number of links so far, and
    the spans, each with the number of its link. -/
structure Ledger where
  width : ℕ
  height : ℕ
  marks : Marks
  saved : Option Marks
  active : Option Link
  opened : ℕ
  spans : List (HyperlinkSpan × ℕ)

namespace Ledger

def new (width height : ℕ) : Ledger := ⟨width, height, fun _ _ => none, none, none, 0, []⟩

/-- The marks after an edit. -/
def edited (l : Ledger) (e : CellEdit) : Marks := fun row col =>
  match e with
  | .write row' col' _ =>
    if row = row' ∧ col = col' then
      if row < l.height ∧ col < l.width then l.active.map (⟨·, false⟩) else none
    else l.marks row col
  | .erase row' col' => if row = row' ∧ col = col' then none else l.marks row col
  | .clearRow row' => if row = row' then none else l.marks row col
  | .copyRow dst src =>
    if row = dst ∧ dst ≠ src ∧ src < l.height ∧ dst < l.height then
      (l.marks src col).map fun mark => { mark with moved := true }
    else l.marks row col

/-- The span of the open link. -/
def closed (l : Ledger) (range : Option (ℕ × ℕ × ℕ)) : List (HyperlinkSpan × ℕ) :=
  match l.active, range with
  | some link, some (row, colStart, colEnd) => [(⟨row, colStart, colEnd, link.url⟩, link.id)]
  | _, _ => []

def step (l : Ledger) : LinkEvent → Ledger
  | .edit e => { l with marks := l.edited e }
  | .setHyperlink range url =>
    { l with
      spans := l.spans ++ l.closed range
      active := url.map (⟨l.opened, ·⟩)
      opened := l.opened + 1 }
  | .switchToAlt => { l with marks := fun _ _ => none, saved := some l.marks, spans := [] }
  | .switchToPrimary =>
    match l.saved with
    | none => l
    | some marks =>
      { l with
        marks := fun row col => (marks row col).map fun mark => { mark with moved := true }
        saved := none }

/-- The spans are in the grid; what they cover was last written under their links and has not moved;
    and what was written under a link that is closed is covered. -/
structure Tracks (l : Ledger) : Prop where
  inside : ∀ e ∈ l.spans, e.1.row < l.height ∧ e.1.colEnd ≤ l.width
  covered : ∀ e ∈ l.spans, ∀ row col, e.1.Covers row col →
    l.marks row col = some ⟨⟨e.2, e.1.url⟩, false⟩
  covers : ∀ row col mark, l.marks row col = some mark → l.active ≠ some mark.link →
    ∃ e ∈ l.spans, e.1.Covers row col ∧ e.1.url = mark.link.url

/-- The cells that were written under the link are those of the range, and none of them has
    moved. -/
structure Written (l : Ledger) (link : Link) (range : Option (ℕ × ℕ × ℕ)) : Prop where
  inside : ∀ row colStart colEnd, range = some (row, colStart, colEnd) →
    row < l.height ∧ colEnd ≤ l.width
  marked : ∀ row colStart colEnd, range = some (row, colStart, colEnd) →
    ∀ col, colStart ≤ col → col < colEnd → l.marks row col = some ⟨link, false⟩
  only : ∀ row col mark, l.marks row col = some mark → mark.link = link →
    ∃ colStart colEnd, range = some (row, colStart, colEnd) ∧ colStart ≤ col ∧ col < colEnd

/-- No span covers a cell that is touched; a link is closed in the row in which it was opened, with
    the columns that it has written; and the primary screen comes back to a screen without spans,
    and without the cells of a link that is closed. -/
def Harmless (l : Ledger) : LinkEvent → Prop
  | .edit e => ∀ row col, e.Touches row col → ∀ s ∈ l.spans, ¬s.1.Covers row col
  | .setHyperlink range _ => ∀ link, l.active = some link → l.Written link range
  | .switchToAlt => True
  | .switchToPrimary => ∀ marks, l.saved = some marks →
    l.spans = [] ∧ ∀ row col mark, marks row col = some mark → l.active = some mark.link

variable {l : Ledger}

theorem edited_of_not_touches {e : CellEdit} {row col : ℕ} (h : ¬e.Touches row col) :
    l.edited e row col = l.marks row col := by
  cases e with
  | write row' col' cell => exact if_neg h
  | erase row' col' => exact if_neg h
  | clearRow row' => exact if_neg h
  | copyRow dst src => exact if_neg fun hrow => h (.inl hrow.1)

/-- The mark of a touched cell is that of the open link, or comes from another touched cell. -/
theorem edited_of_touches {e : CellEdit} {row col : ℕ} (h : e.Touches row col) {mark : Mark}
    (hmark : l.edited e row col = some mark) :
    l.active = some mark.link ∨
      ∃ row' mark', e.Touches row' col ∧ l.marks row' col = some mark' ∧
        mark'.link = mark.link := by
  cases e with
  | write row' col' cell =>
    replace h : row = row' ∧ col = col' := h
    replace hmark : ite _ _ _ = some mark := hmark
    rw [if_pos h] at hmark
    split_ifs at hmark
    obtain ⟨link, hactive, rfl⟩ := Option.map_eq_some_iff.1 hmark
    exact .inl hactive
  | erase row' col' =>
    replace h : row = row' ∧ col = col' := h
    replace hmark : ite _ _ _ = some mark := hmark
    rw [if_pos h] at hmark
    cases hmark
  | clearRow row' =>
    replace h : row = row' := h
    replace hmark : ite _ _ _ = some mark := hmark
    rw [if_pos h] at hmark
    cases hmark
  | copyRow dst src =>
    replace hmark : ite _ _ _ = some mark := hmark
    split_ifs at hmark
    · obtain ⟨mark', hsrc, rfl⟩ := Option.map_eq_some_iff.1 hmark
      exact .inr ⟨src, mark', .inr rfl, hsrc, rfl⟩
    · exact .inr ⟨row, mark, h, hmark, rfl⟩

theorem Tracks.edit (h : l.Tracks) {e : CellEdit} (hfree : l.Harmless (.edit e)) :
    (l.step (.edit e)).Tracks where
  inside := h.inside
  covered s hs row col hcovers := by
    have huntouched : ¬e.Touches row col := fun htouches => hfree row col htouches s hs hcovers
    exact (edited_of_not_touches huntouched).trans (h.covered s hs row col hcovers)
  covers row col mark hmark hactive := by
    by_cases htouches : e.Touches row col
    · rcases edited_of_touches htouches hmark with hopen | ⟨row', mark', htouches', hold, hlink⟩
      · exact absurd hopen hactive
      · rw [← hlink] at hactive
        obtain ⟨s, hs, hcovers, -⟩ := h.covers row' col mark' hold hactive
        exact absurd hcovers (hfree row' col htouches' s hs)
    · exact h.covers row col mark ((edited_of_not_touches htouches).symm.trans hmark) hactive

theorem mem_closed {range : Option (ℕ × ℕ × ℕ)} {s : HyperlinkSpan × ℕ} :
    s ∈ l.closed range ↔ ∃ link row colStart colEnd, l.active = some link ∧
      range = some (row, colStart, colEnd) ∧
      s = (⟨row, colStart, colEnd, link.url⟩, link.id) := by
  unfold closed
  constructor
  · intro hs
    obtain hactive | ⟨link, hactive⟩ := l.active.eq_none_or_eq_some
    · rw [hactive] at hs
      cases hs
    · rw [hactive] at hs
      obtain _ | ⟨row, colStart, colEnd⟩ := range
      · cases hs
      · exact ⟨link, row, colStart, colEnd, hactive, rfl, List.mem_singleton.1 hs⟩
  · rintro ⟨link, row, colStart, colEnd, hactive, rfl, rfl⟩
    rw [hactive]
    exact List.mem_singleton_self _

theorem Tracks.setHyperlink (h : l.Tracks) {range : Option (ℕ × ℕ × ℕ)} {url : Option String}
    (hwritten : l.Harmless (.setHyperlink range url)) :
    (l.step (.setHyperlink range url)).Tracks where
  inside s hs := by
    rcases List.mem_append.1 hs with hs | hs
    · exact h.inside s hs
    · obtain ⟨link, row, colStart, colEnd, hactive, hrange, rfl⟩ := mem_closed.1 hs
      exact (hwritten link hactive).inside row colStart colEnd hrange
  covered s hs row col hcovers := by
    rcases List.mem_append.1 hs with hs | hs
    · exact h.covered s hs row col hcovers
    · obtain ⟨link, row', colStart, colEnd, hactive, hrange, rfl⟩ := mem_closed.1 hs
      obtain ⟨rfl, hstart, hend⟩ := hcovers
      exact (hwritten link hactive).marked _ _ _ hrange col hstart hend
  covers row col mark hmark hactive' := by
    by_cases hactive : l.active = some mark.link
    · obtain ⟨colStart, colEnd, hrange, hstart, hend⟩ :=
        (hwritten mark.link hactive).only row col mark hmark rfl
      refine ⟨(⟨row, colStart, colEnd, mark.link.url⟩, mark.link.id), ?_, ⟨rfl, hstart, hend⟩, rfl⟩
      exact List.mem_append_right _ (mem_closed.2 ⟨_, _, _, _, hactive, hrange, rfl⟩)
    · obtain ⟨s, hs, hcovers, hurl⟩ := h.covers row col mark hmark hactive
      exact ⟨s, List.mem_append_left _ hs, hcovers, hurl⟩

/-- **The spans stay right.** -/
theorem Tracks.step (h : l.Tracks) {e : LinkEvent} (hharmless : l.Harmless e) :
    (l.step e).Tracks := by
  cases e with
  | edit e => exact h.edit hharmless
  | setHyperlink range url => exact h.setHyperlink hharmless
  | switchToAlt =>
    refine ⟨?_, ?_, ?_⟩
    · rintro s ⟨⟩
    · rintro s ⟨⟩
    · rintro row col mark ⟨⟩
  | switchToPrimary =>
    unfold Ledger.step
    dsimp only
    split
    · exact h
    · next marks hsaved =>
      obtain ⟨hspans, hopen⟩ := hharmless marks hsaved
      refine ⟨?_, ?_, ?_⟩
      · intro s hs
        exact h.inside s hs
      · intro s hs
        replace hs : s ∈ l.spans := hs
        rw [hspans] at hs
        cases hs
      · intro row col mark hmark hactive
        obtain ⟨mark', hmark', rfl⟩ := Option.map_eq_some_iff.1 hmark
        exact absurd (hopen row col mark' hmark') hactive

theorem tracks_new (width height : ℕ) : (new width height).Tracks :=
  ⟨fun _ hs => (nomatch hs), fun _ hs => (nomatch hs), fun _ _ _ h => (nomatch h)⟩

end Ledger

end Nexterm.Vt

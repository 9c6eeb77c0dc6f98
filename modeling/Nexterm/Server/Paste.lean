/-
  Pasting into panes (`ipc/pane_dispatch.rs`, `session.rs`, `window/mod.rs`).

  * `Window.writeToFocused`, `NamedSession.writeToAll`, `writeToFocused`: which panes are written
    to.
  * `NamedSession.handlePasteText`: the writes of a paste; the brackets follow the mode of the
    focused pane.
  * `Bracketed`: data that a program with bracketed paste reads as one paste;
    `bracketed_wrap_iff` says which texts the brackets protect.
  * `NamedSession.paste_iff`: when every pane with bracketed paste gets such data.

  Text is its UTF-8 bytes.  The bracketed paste mode of each pane is an argument, as it is read from
  the
  flag that the reader of the pane keeps.
-/
import Nexterm.Lib.Words
import Nexterm.Server.Snapshot

namespace Nexterm.Server

open Std.ExtTreeMap

/-- `ESC [ 2 0 0 ~` -/
def pasteStart : List UInt8 := [0x1b, 0x5b, 0x32, 0x30, 0x30, 0x7e]

/-- `ESC [ 2 0 1 ~` -/
def pasteEnd : List UInt8 := [0x1b, 0x5b, 0x32, 0x30, 0x31, 0x7e]

/-- Bytes written to a pane. -/
structure PaneWrite where
  kind : PaneKind
  paneId : ℕ
  data : List UInt8
  deriving DecidableEq

variable {F : Type}

namespace Window

/-- Write to the focused pane (PTY or serial port). -/
def writeToFocused (w : Window F) (data : List UInt8) : Except String (List PaneWrite) :=
  if w.focusedPaneId ∈ w.panes then .ok [⟨.pty, w.focusedPaneId, data⟩]
  else if w.focusedPaneId ∈ w.serialPanes then .ok [⟨.serial, w.focusedPaneId, data⟩]
  else .error "focused pane not found"

/-- Whether bracketed paste is on in the focused pane; a serial pane has no such mode. -/
def focusedBracketedPasteMode (w : Window F) (bracketedPaste : ℕ → Bool) : Bool :=
  if w.focusedPaneId ∈ w.panes then bracketedPaste w.focusedPaneId else false

end Window

namespace NamedSession

/-- Broadcast mode: write to every PTY pane of the focused window. -/
def writeToAll (s : NamedSession F) (data : List UInt8) : Except String (List PaneWrite) :=
  match s.session.focusedWindow with
  | none => .error "focused window not found"
  | some w => .ok ((w.paneIds.filter (· ∈ w.panes)).map fun id => ⟨.pty, id, data⟩)

/-- Write to the focused pane of the focused window, or to all its panes. -/
def writeToFocused (s : NamedSession F) (data : List UInt8) : Except String (List PaneWrite) :=
  if s.broadcast then s.writeToAll data
  else
    match s.session.focusedWindow with
    | none => .error "focused window not found"
    | some w => w.writeToFocused data

/-- Whether bracketed paste is on in the focused pane. -/
def focusedBracketedPasteMode (s : NamedSession F) (bracketedPaste : ℕ → Bool) : Bool :=
  match s.session.focusedWindow with
  | none => false
  | some w => w.focusedBracketedPasteMode bracketedPaste

/-- The writes of a paste; an error is only logged. -/
def handlePasteText (s : NamedSession F) (bracketedPaste : ℕ → Bool) (text : List UInt8) :
    List PaneWrite :=
  let data :=
    if s.focusedBracketedPasteMode bracketedPaste then pasteStart ++ text ++ pasteEnd else text
  match s.writeToFocused data with
  | .ok writes => writes
  | .error _ => []

/-- The PTY panes that a paste reaches. -/
def pasteTargets (s : NamedSession F) : List ℕ :=
  match s.session.focusedWindow with
  | none => []
  | some w =>
    if s.broadcast then w.panes.keys
    else if w.focusedPaneId ∈ w.panes then [w.focusedPaneId] else []

end NamedSession

/-! ## Brackets -/

/-- The data starts with the start marker, and the end marker is its last six bytes and occurs
    nowhere else. -/
def Bracketed (data : List UInt8) : Prop :=
  pasteStart <+: data ∧ ∀ i, Words.OccursAt pasteEnd data i ↔ i + pasteEnd.length = data.length

/-- The brackets protect the texts that do not contain the end marker. -/
theorem bracketed_wrap_iff {text : List UInt8} :
    Bracketed (pasteStart ++ text ++ pasteEnd) ↔ ¬pasteEnd <:+: text := by
  have hend : ∀ i, Words.OccursAt pasteEnd (pasteStart ++ text ++ pasteEnd) i ↔
      Words.OccursAt pasteEnd (pasteStart ++ text) i ∨ i = (pasteStart ++ text).length := fun i =>
    Words.occursAt_append_word (by decide)
  have hstart : ∀ i, Words.OccursAt pasteEnd (pasteStart ++ text) i ↔
      pasteStart.length ≤ i ∧ Words.OccursAt pasteEnd text (i - pasteStart.length) := fun i =>
    Words.occursAt_prefix_append rfl (by decide) (by decide)
  have hlen : (pasteStart ++ text ++ pasteEnd).length =
      (pasteStart ++ text).length + pasteEnd.length :=
    List.length_append
  constructor
  · rintro ⟨-, honce⟩ hinfix
    obtain ⟨i, hi⟩ := Words.infix_iff_occursAt.1 hinfix
    have hle := hi.le (by decide)
    have hat : Words.OccursAt pasteEnd (pasteStart ++ text) (i + pasteStart.length) :=
      (hstart _).2 ⟨Nat.le_add_left _ _, by rwa [Nat.add_sub_cancel]⟩
    have hlast := (honce _).1 ((hend _).2 (Or.inl hat))
    rw [hlen, List.length_append] at hlast
    simp only [pasteStart, pasteEnd, List.length_cons, List.length_nil] at hle hlast
    omega
  · intro hnot
    refine ⟨⟨text ++ pasteEnd, by rw [List.append_assoc]⟩, fun i => ?_⟩
    rw [hend, hlen]
    constructor
    · rintro (hat | rfl)
      · exact absurd (Words.infix_iff_occursAt.2 ⟨_, ((hstart i).1 hat).2⟩) hnot
      · rfl
    · intro hi
      exact Or.inr (by omega)

namespace NamedSession

variable {s : NamedSession F} {bracketedPaste : ℕ → Bool} {text : List UInt8}

/-- The writes to PTY panes: one and the same data for every target. -/
theorem pty_handlePasteText {id : ℕ} {data : List UInt8} :
    ⟨.pty, id, data⟩ ∈ s.handlePasteText bracketedPaste text ↔ id ∈ s.pasteTargets ∧
      data = if s.focusedBracketedPasteMode bracketedPaste then pasteStart ++ text ++ pasteEnd
        else text := by
  simp only [handlePasteText, writeToFocused, writeToAll, pasteTargets]
  generalize (if s.focusedBracketedPasteMode bracketedPaste then pasteStart ++ text ++ pasteEnd
    else text) = sent
  cases s.session.focusedWindow with
  | none => cases s.broadcast <;> simp
  | some w =>
    cases s.broadcast with
    | true =>
      simp only [if_true, List.mem_map, List.mem_filter, decide_eq_true_eq, PaneWrite.mk.injEq,
        true_and, Window.mem_paneIds, mem_keys]
      constructor
      · rintro ⟨i, ⟨-, hi⟩, rfl, rfl⟩
        exact ⟨hi, rfl⟩
      · rintro ⟨hi, rfl⟩
        exact ⟨id, ⟨Or.inl hi, hi⟩, rfl, rfl⟩
    | false =>
      simp only [Bool.false_eq_true, if_false, Window.writeToFocused]
      by_cases hpty : w.focusedPaneId ∈ w.panes
      · simp [hpty]
      · by_cases hserial : w.focusedPaneId ∈ w.serialPanes <;> simp [hpty, hserial]

/-- **Bracketed pastes.**  Every pane with bracketed paste that a paste reaches gets a single paste
    exactly if there is no such pane, or the focused pane has the mode too and the text does not
    contain the end marker, or it has not and the text brings its own brackets. -/
theorem paste_iff (s : NamedSession F) (bracketedPaste : ℕ → Bool) (text : List UInt8) :
    (∀ write ∈ s.handlePasteText bracketedPaste text, write.kind = .pty →
      bracketedPaste write.paneId = true → Bracketed write.data) ↔
    ∀ id ∈ s.pasteTargets, bracketedPaste id = true →
      if s.focusedBracketedPasteMode bracketedPaste then ¬pasteEnd <:+: text
      else Bracketed text := by
  have hdata : Bracketed (if s.focusedBracketedPasteMode bracketedPaste then
      pasteStart ++ text ++ pasteEnd else text) ↔
        if s.focusedBracketedPasteMode bracketedPaste then ¬pasteEnd <:+: text
        else Bracketed text := by
    split_ifs
    · exact bracketed_wrap_iff
    · exact Iff.rfl
  constructor
  · intro h id hid hmode
    exact hdata.1 (h _ (pty_handlePasteText.2 ⟨hid, rfl⟩) rfl hmode)
  · rintro h ⟨kind, id, data⟩ hmem rfl hmode
    obtain ⟨hid, rfl⟩ := pty_handlePasteText.1 hmem
    exact hdata.2 (h id hid hmode)

/-- A text with the end marker leaves the brackets of the pane it is pasted into; and a broadcast
    from a pane without brackets reaches a pane with them as plain input. -/
theorem paste_escapes :
    (¬∀ write ∈ (named Session.startSession).handlePasteText (fun _ => true)
        (pasteEnd ++ [0x72, 0x6d, 0x0a]),
      write.kind = .pty → Bracketed write.data) ∧
    ¬∀ write ∈ { named (Runs.run Session.step Session.startSession
        [.window (.split .vertical 2 (.ok ()))]) with broadcast := true }.handlePasteText (· = 1)
        [0x6c, 0x73, 0x0a],
      write.kind = .pty → write.paneId = 1 → Bracketed write.data := by
  constructor
  · intro h
    have hwrapped := h ⟨.pty, 1, pasteStart ++ (pasteEnd ++ [0x72, 0x6d, 0x0a]) ++ pasteEnd⟩
      (by decide +kernel) rfl
    exact bracketed_wrap_iff.1 hwrapped ⟨[], [0x72, 0x6d, 0x0a], rfl⟩
  · intro h
    have hplain := (h ⟨.pty, 1, [0x6c, 0x73, 0x0a]⟩ (by decide +kernel) rfl rfl).1
    exact absurd hplain (by decide)

end NamedSession

end Nexterm.Server

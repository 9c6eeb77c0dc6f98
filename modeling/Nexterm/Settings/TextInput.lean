/-
  Text fields (`settings/text_input.rs`): a buffer of bytes in UTF-8 and a byte index in it.

  * `TextInputState`: `insertChar`, `backspace`, `moveLeft` and so on; `none` is a panic.
  * `boundary_between`: inside a character there is no boundary; `floorBoundary_encode`,
    `ceilBoundary_encode`: where the two scans end.
  * `Shows`: the state shows a list of characters with a cursor in it; `shows_step`: every operation
    does to the state what it does to the list.
  * `text_input_run`: no run panics, and what it shows.
-/
import Nexterm.A11y.Widgets
import Nexterm.Lib.Zipper
import Nexterm.Server.PluginRead

namespace Nexterm.Settings.TextInput

open Server (isCharBoundary floorBoundary isCharBoundary_iff floorBoundary_spec)
open Utf8 (encode encode_append encode_cons exists_of_encode_append)

/-! ## Strings -/

/-- `String::insert_str`. -/
def insertStrAt (s : List UInt8) (i : ℕ) (t : List UInt8) : Option (List UInt8) :=
  if isCharBoundary s i then some (s.take i ++ t ++ s.drop i) else none

/-- `String::replace_range` with nothing. -/
def removeRange (s : List UInt8) (i j : ℕ) : Option (List UInt8) :=
  if i ≤ j ∧ isCharBoundary s i ∧ isCharBoundary s j then some (s.take i ++ s.drop j) else none

/-- The first boundary from some place on, in at most `fuel` steps. -/
def ceilBoundary (s : List UInt8) : ℕ → ℕ → ℕ
  | 0, next => next
  | fuel + 1, next =>
    if next < s.length ∧ isCharBoundary s next = false then ceilBoundary s fuel (next + 1) else next

/-! ## The state -/

/-- Inline text-input state. -/
structure TextInputState where
  /-- Edit buffer. -/
  buffer : List UInt8
  /-- Cursor position (byte index inside the buffer). -/
  cursor : ℕ
  /-- IME preedit text. -/
  preedit : Option (List UInt8)

namespace TextInputState

/-- The state of an initial string; the cursor goes to the end. -/
def new (initial : List UInt8) : TextInputState := ⟨initial, initial.length, none⟩

/-- Insert a string at the cursor and advance past it. -/
def insertStr (s : TextInputState) (t : List UInt8) : Option TextInputState :=
  (insertStrAt s.buffer s.cursor t).map fun buffer =>
    { s with buffer := buffer, cursor := s.cursor + t.length }

/-- Insert a single character at the cursor and advance past it. -/
def insertChar (s : TextInputState) (ch : Char) : Option TextInputState :=
  (insertStrAt s.buffer s.cursor (String.utf8EncodeChar ch)).map fun buffer =>
    { s with buffer := buffer, cursor := s.cursor + ch.utf8Size }

/-- The boundary before the cursor. -/
def prev (s : TextInputState) : ℕ := floorBoundary s.buffer (s.cursor - 1)

/-- The boundary after the cursor. -/
def next (s : TextInputState) : ℕ := ceilBoundary s.buffer s.buffer.length (s.cursor + 1)

/-- Delete the character immediately before the cursor. -/
def backspace (s : TextInputState) : Option TextInputState :=
  if s.cursor = 0 then some s
  else (removeRange s.buffer s.prev s.cursor).map fun buffer =>
    { s with buffer := buffer, cursor := s.prev }

/-- Delete the character immediately after the cursor. -/
def deleteForward (s : TextInputState) : Option TextInputState :=
  if s.buffer.length ≤ s.cursor then some s
  else (removeRange s.buffer s.cursor s.next).map fun buffer => { s with buffer := buffer }

/-- Move the cursor one character left. -/
def moveLeft (s : TextInputState) : TextInputState :=
  if s.cursor = 0 then s else { s with cursor := s.prev }

/-- Move the cursor one character right. -/
def moveRight (s : TextInputState) : TextInputState :=
  if s.buffer.length ≤ s.cursor then s else { s with cursor := s.next }

/-- Move the cursor to the start of the buffer. -/
def moveHome (s : TextInputState) : TextInputState := { s with cursor := 0 }

/-- Move the cursor to the end of the buffer. -/
def moveEnd (s : TextInputState) : TextInputState := { s with cursor := s.buffer.length }

/-- The display string. -/
def displayString (s : TextInputState) : Option (List UInt8) :=
  match s.preedit with
  | none => some s.buffer
  | some pe => insertStrAt s.buffer s.cursor pe

/-- The cursor position inside the display string. -/
def displayCursor (s : TextInputState) : ℕ :=
  match s.preedit with
  | none => s.cursor
  | some pe => s.cursor + pe.length

end TextInputState

/-- The operations. -/
inductive TextOp
  | insertChar (ch : Char)
  | insertStr (t : List Char)
  | backspace
  | deleteForward
  | moveLeft
  | moveRight
  | moveHome
  | moveEnd

namespace TextOp

def run (s : TextInputState) : TextOp → Option TextInputState
  | insertChar ch => s.insertChar ch
  | insertStr t => s.insertStr (encode t)
  | backspace => s.backspace
  | deleteForward => s.deleteForward
  | moveLeft => some s.moveLeft
  | moveRight => some s.moveRight
  | moveHome => some s.moveHome
  | moveEnd => some s.moveEnd

/-- What an operation does to a list of characters. -/
def edit (z : Zipper Char) : TextOp → Zipper Char
  | insertChar ch => z.insert [ch]
  | insertStr t => z.insert t
  | backspace => z.backspace
  | deleteForward => z.delete
  | moveLeft => z.moveLeft
  | moveRight => z.moveRight
  | moveHome => z.moveHome
  | moveEnd => z.moveEnd

end TextOp

/-! ## Boundaries -/

/-- The boundaries of a text are between its characters. -/
theorem isCharBoundary_encode_iff {cs : List Char} {i : ℕ} : isCharBoundary (encode cs) i = true ↔
    ∃ ds es, cs = ds ++ es ∧ i = (encode ds).length := by
  constructor
  · intro h
    have hle : i ≤ (encode cs).length := by
      by_contra hlt
      have hne : i ≠ 0 := by omega
      have hnone : (encode cs)[i]? = none := List.getElem?_eq_none (by omega)
      simp only [isCharBoundary, if_neg hne, hnone, decide_eq_true_eq] at h
      omega
    obtain ⟨ds, hds⟩ := (isCharBoundary_iff hle).1 h
    have hsplit := List.take_append_drop i (encode cs)
    rw [hds] at hsplit
    obtain ⟨es, -, rfl⟩ := exists_of_encode_append hsplit
    refine ⟨ds, es, rfl, ?_⟩
    rw [← hds, List.length_take_of_le hle]
  · rintro ⟨ds, es, rfl, rfl⟩
    have hle : (encode ds).length ≤ (encode (ds ++ es)).length := by
      rw [encode_append, List.length_append]
      omega
    rw [isCharBoundary_iff hle, encode_append]
    exact ⟨ds, List.take_left⟩

variable {ds es : List Char} {c : Char} {i : ℕ}

theorem isCharBoundary_left : isCharBoundary (encode (ds ++ es)) (encode ds).length = true :=
  isCharBoundary_encode_iff.2 ⟨ds, es, rfl, rfl⟩

theorem length_encode_concat :
    (encode (ds ++ [c])).length = (encode ds).length + (String.utf8EncodeChar c).length := by
  rw [encode_append, encode_cons, List.length_append]
  simp [encode]

/-- Inside a character there is no boundary. -/
theorem boundary_between (h : isCharBoundary (encode (ds ++ c :: es)) i = true)
    (hlow : (encode ds).length ≤ i) (hhigh : i < (encode (ds ++ [c])).length) :
    i = (encode ds).length := by
  obtain ⟨ds', es', hsplit, rfl⟩ := isCharBoundary_encode_iff.1 h
  rcases List.append_eq_append_iff.1 hsplit with ⟨mid, rfl, hmid⟩ | ⟨mid, rfl, -⟩
  · cases mid with
    | nil => simp
    | cons c' mid =>
      obtain ⟨rfl, -⟩ := List.cons.inj hmid
      rw [length_encode_concat, encode_append, encode_cons, List.length_append,
        List.length_append] at hhigh
      omega
  · rw [encode_append, List.length_append] at hlow ⊢
    omega

/-- The scan to the left ends before the character. -/
theorem floorBoundary_encode (hlow : (encode ds).length ≤ i)
    (hhigh : i < (encode (ds ++ [c])).length) :
    floorBoundary (encode (ds ++ c :: es)) i = (encode ds).length := by
  obtain ⟨hle, hbound, hlast⟩ := floorBoundary_spec (encode (ds ++ c :: es)) i
  exact boundary_between hbound (hlast _ hlow isCharBoundary_left) (by omega)

/-- The scan to the right ends after the character. -/
theorem ceilBoundary_encode (fuel : ℕ) (hlow : (encode ds).length < i)
    (hhigh : i ≤ (encode (ds ++ [c])).length)
    (hfuel : (encode (ds ++ [c])).length - i ≤ fuel) :
    ceilBoundary (encode (ds ++ c :: es)) fuel i = (encode (ds ++ [c])).length := by
  induction fuel generalizing i with
  | zero =>
    show i = _
    omega
  | succ fuel ih =>
    unfold ceilBoundary
    rcases hhigh.lt_or_eq with hlt | rfl
    · have hinside : isCharBoundary (encode (ds ++ c :: es)) i = false := by
        by_contra h
        have heq := boundary_between (Bool.not_eq_false _ ▸ h) hlow.le hlt
        omega
      have hlen : i < (encode (ds ++ c :: es)).length := by
        rw [List.append_cons, encode_append, List.length_append]
        omega
      rw [if_pos ⟨hlen, hinside⟩]
      exact ih (by omega) hlt (by omega)
    · have hbound : isCharBoundary (encode (ds ++ c :: es)) (encode (ds ++ [c])).length = true := by
        rw [List.append_cons]
        exact isCharBoundary_left
      rw [if_neg fun h => by rw [hbound] at h; cases h.2]

/-! ## What is shown -/

/-- The state shows a list of characters with a cursor in it. -/
structure Shows (s : TextInputState) (z : Zipper Char) : Prop where
  buffer : s.buffer = encode z.toList
  cursor : s.cursor = (encode z.left).length

variable {s : TextInputState} {z : Zipper Char}

theorem Shows.isCharBoundary (h : Shows s z) : isCharBoundary s.buffer s.cursor = true := by
  rw [h.buffer, h.cursor]
  exact isCharBoundary_left

theorem Shows.insertStrAt (h : Shows s z) (t : List Char) :
    insertStrAt s.buffer s.cursor (encode t) = some (encode (z.left ++ t ++ z.right)) := by
  rw [TextInput.insertStrAt, if_pos h.isCharBoundary, h.buffer, h.cursor, Zipper.toList,
    encode_append, List.take_left, List.drop_left, encode_append, encode_append]

theorem Shows.insert (h : Shows s z) (t : List Char) : ∃ s', (TextOp.insertStr t).run s = some s' ∧
    Shows s' (z.insert t) ∧ s'.preedit = s.preedit := by
  have hrun : (TextOp.insertStr t).run s = some { s with
      buffer := encode (z.left ++ t ++ z.right), cursor := s.cursor + (encode t).length } := by
    rw [TextOp.run, TextInputState.insertStr, h.insertStrAt t]
    rfl
  refine ⟨_, hrun, ⟨rfl, ?_⟩, rfl⟩
  show s.cursor + (encode t).length = (encode (z.left ++ t)).length
  rw [h.cursor, encode_append, List.length_append]

/-- The character before the cursor, if there is one. -/
theorem Shows.prev {l : List Char} (h : Shows s z) (hleft : z.left = l ++ [c]) :
    s.cursor ≠ 0 ∧ s.prev = (encode l).length ∧ s.buffer = encode (l ++ c :: z.right) := by
  have hcursor := h.cursor
  have hbuffer := h.buffer
  have hpos := String.length_utf8EncodeChar c
  have hsize := c.utf8Size_pos
  rw [hleft] at hcursor
  rw [Zipper.toList, hleft, List.append_assoc, List.singleton_append] at hbuffer
  have hconcat := hcursor.trans length_encode_concat
  refine ⟨by omega, ?_, hbuffer⟩
  rw [TextInputState.prev, hbuffer]
  exact floorBoundary_encode (by omega) (by omega)

/-- The character after the cursor, if there is one. -/
theorem Shows.next {r : List Char} (h : Shows s z) (hright : z.right = c :: r) :
    s.cursor < s.buffer.length ∧ s.next = (encode (z.left ++ [c])).length ∧
      s.buffer = encode (z.left ++ c :: r) := by
  have hcursor := h.cursor
  have hbuffer := h.buffer
  have hpos := String.length_utf8EncodeChar c
  have hsize := c.utf8Size_pos
  rw [Zipper.toList, hright] at hbuffer
  have hconcat := @length_encode_concat z.left c
  have hlen : (encode (z.left ++ [c])).length ≤ s.buffer.length := by
    rw [hbuffer, List.append_cons z.left c r, encode_append (z.left ++ [c]) r, List.length_append]
    omega
  refine ⟨by omega, ?_, hbuffer⟩
  rw [TextInputState.next, hbuffer]
  rw [hbuffer] at hlen
  exact ceilBoundary_encode _ (by omega) (by omega) (by omega)

theorem Shows.cursor_eq_zero (h : Shows s z) (hleft : z.left = []) : s.cursor = 0 := by
  rw [h.cursor, hleft]
  rfl

theorem Shows.length_le (h : Shows s z) (hright : z.right = []) : s.buffer.length ≤ s.cursor := by
  rw [h.cursor, h.buffer, Zipper.toList, hright, List.append_nil]

/-- Without the bytes between two places of the text. -/
theorem removeRange_encode (ds mid es : List Char) :
    removeRange (encode (ds ++ mid ++ es)) (encode ds).length (encode (ds ++ mid)).length =
      some (encode (ds ++ es)) := by
  have hle : (encode ds).length ≤ (encode (ds ++ mid)).length := by
    rw [encode_append, List.length_append]
    omega
  have hleft : isCharBoundary (encode (ds ++ mid ++ es)) (encode ds).length = true := by
    rw [List.append_assoc]
    exact isCharBoundary_left
  rw [removeRange, if_pos ⟨hle, hleft, isCharBoundary_left⟩, encode_append (ds ++ mid) es,
    List.drop_left, encode_append ds mid, List.append_assoc, List.take_left, encode_append]

theorem shows_step (h : Shows s z) (op : TextOp) :
    ∃ s', op.run s = some s' ∧ Shows s' (op.edit z) ∧ s'.preedit = s.preedit := by
  cases op with
  | insertChar ch =>
    have hrun : (TextOp.insertChar ch).run s = (TextOp.insertStr [ch]).run s := by
      simp [TextOp.run, TextInputState.insertChar, TextInputState.insertStr, encode]
    rw [hrun]
    exact h.insert [ch]
  | insertStr t => exact h.insert t
  | backspace =>
    rcases List.eq_nil_or_concat' z.left with hleft | ⟨l, c, hleft⟩
    · refine ⟨s, if_pos (h.cursor_eq_zero hleft), ⟨?_, ?_⟩, rfl⟩
      · rw [h.buffer, TextOp.edit, Zipper.backspace, Zipper.toList, Zipper.toList, hleft,
          List.dropLast_nil]
      · rw [h.cursor, TextOp.edit, Zipper.backspace, hleft, List.dropLast_nil]
    · obtain ⟨hpos, hprev, hbuffer⟩ := h.prev hleft
      have hrun : TextOp.backspace.run s = some { s with
          buffer := encode (l ++ z.right), cursor := (encode l).length } := by
        rw [TextOp.run, TextInputState.backspace, if_neg hpos, hprev, h.cursor, hbuffer, hleft,
          List.append_cons, removeRange_encode]
        rfl
      refine ⟨_, hrun, ⟨?_, ?_⟩, rfl⟩
      · rw [TextOp.edit, Zipper.backspace, Zipper.toList, hleft, List.dropLast_concat]
      · rw [TextOp.edit, Zipper.backspace, hleft, List.dropLast_concat]
  | deleteForward =>
    cases hright : z.right with
    | nil =>
      refine ⟨s, if_pos (h.length_le hright), ⟨?_, h.cursor⟩, rfl⟩
      rw [h.buffer, TextOp.edit, Zipper.delete, Zipper.toList, Zipper.toList, hright, List.tail_nil]
    | cons c r =>
      obtain ⟨hlt, hnext, hbuffer⟩ := h.next hright
      have hrun : TextOp.deleteForward.run s = some { s with buffer := encode (z.left ++ r) } := by
        rw [TextOp.run, TextInputState.deleteForward, if_neg (by omega), hnext, h.cursor, hbuffer,
          List.append_cons, removeRange_encode]
        rfl
      refine ⟨_, hrun, ⟨?_, h.cursor⟩, rfl⟩
      rw [TextOp.edit, Zipper.delete, Zipper.toList, hright, List.tail_cons]
  | moveLeft =>
    rcases List.eq_nil_or_concat' z.left with hleft | ⟨l, c, hleft⟩
    · have hrun : s.moveLeft = s := if_pos (h.cursor_eq_zero hleft)
      refine ⟨_, rfl, ⟨?_, ?_⟩, by rw [hrun]⟩
      · rw [hrun, h.buffer, TextOp.edit, Zipper.toList_moveLeft]
      · rw [hrun, h.cursor, TextOp.edit, Zipper.moveLeft, hleft, List.dropLast_nil]
    · obtain ⟨hpos, hprev, -⟩ := h.prev hleft
      have hrun : s.moveLeft = { s with cursor := (encode l).length } := by
        rw [TextInputState.moveLeft, if_neg hpos, hprev]
      refine ⟨_, rfl, ⟨?_, ?_⟩, by rw [hrun]⟩
      · rw [hrun, TextOp.edit, Zipper.toList_moveLeft]
        exact h.buffer
      · rw [hrun, TextOp.edit, Zipper.moveLeft, hleft, List.dropLast_concat]
  | moveRight =>
    cases hright : z.right with
    | nil =>
      have hrun : s.moveRight = s := if_pos (h.length_le hright)
      refine ⟨_, rfl, ⟨?_, ?_⟩, by rw [hrun]⟩
      · rw [hrun, h.buffer, TextOp.edit, Zipper.toList_moveRight]
      · rw [hrun, h.cursor, TextOp.edit, Zipper.moveRight, hright]
        simp
    | cons c r =>
      obtain ⟨hlt, hnext, -⟩ := h.next hright
      have hrun : s.moveRight = { s with cursor := (encode (z.left ++ [c])).length } := by
        rw [TextInputState.moveRight, if_neg (by omega), hnext]
      refine ⟨_, rfl, ⟨?_, ?_⟩, by rw [hrun]⟩
      · rw [hrun, TextOp.edit, Zipper.toList_moveRight]
        exact h.buffer
      · rw [hrun, TextOp.edit, Zipper.moveRight, hright]
        rfl
  | moveHome => exact ⟨_, rfl, ⟨h.buffer, rfl⟩, rfl⟩
  | moveEnd =>
    refine ⟨_, rfl, ⟨?_, ?_⟩, rfl⟩
    · show s.buffer = _
      rw [h.buffer, TextOp.edit, Zipper.moveEnd, Zipper.toList, Zipper.toList, List.append_nil]
    · show s.buffer.length = _
      rw [h.buffer, TextOp.edit, Zipper.moveEnd]

/-! ## Runs -/

theorem shows_run (ops : List TextOp) (h : Shows s z) : ∃ s', ops.foldlM TextOp.run s = some s' ∧
    Shows s' (ops.foldl TextOp.edit z) ∧ s'.preedit = s.preedit := by
  induction ops generalizing s z with
  | nil => exact ⟨s, rfl, h, rfl⟩
  | cons op ops ih =>
    obtain ⟨s₁, hrun, hshows, hpreedit⟩ := shows_step h op
    obtain ⟨s', hrun', hshows', hpreedit'⟩ := ih hshows
    refine ⟨s', ?_, hshows', hpreedit'.trans hpreedit⟩
    rw [List.foldlM_cons, hrun]
    exact hrun'

theorem shows_new (initial : List Char) :
    Shows (TextInputState.new (encode initial)) ⟨initial, []⟩ where
  buffer := by
    rw [Zipper.toList, List.append_nil]
    rfl
  cursor := rfl

/-- The display string ends the left part of the list with the preedit. -/
theorem Shows.displayed (h : Shows s z) (pe : Option (List Char))
    (hpe : s.preedit = pe.map encode) :
    s.displayString.map (fun d => (d.take s.displayCursor, d.drop s.displayCursor)) =
      some (encode (z.left ++ pe.getD []), encode z.right) := by
  have hcursor : s.displayCursor = (encode (z.left ++ pe.getD [])).length := by
    cases pe with
    | none =>
      simp only [TextInputState.displayCursor, hpe, Option.map_none, Option.getD_none,
        List.append_nil]
      exact h.cursor
    | some pe =>
      simp only [TextInputState.displayCursor, hpe, Option.map_some, Option.getD_some]
      rw [h.cursor, encode_append, List.length_append]
  have hstring : s.displayString = some (encode (z.left ++ pe.getD [] ++ z.right)) := by
    cases pe with
    | none =>
      simp only [TextInputState.displayString, hpe, Option.map_none, Option.getD_none,
        List.append_nil]
      exact congrArg some h.buffer
    | some pe =>
      simp only [TextInputState.displayString, hpe, Option.map_some, Option.getD_some]
      exact h.insertStrAt pe
  rw [hstring, hcursor, encode_append (z.left ++ _), Option.map_some, List.take_left,
    List.drop_left]

theorem takeBytes_encode (ds es : List Char) : Vt.takeBytes (encode ds).length (ds ++ es) = ds := by
  induction ds with
  | nil =>
    cases es with
    | nil => rfl
    | cons c es =>
      have hsize := c.utf8Size_pos
      exact if_neg (Nat.not_le.2 hsize)
  | cons c ds ih =>
    have hlen : (encode (c :: ds)).length = c.utf8Size + (encode ds).length := by
      rw [encode_cons, List.length_append, String.length_utf8EncodeChar]
    rw [hlen, List.cons_append, Vt.takeBytes, if_pos (Nat.le_add_right _ _),
      Nat.add_sub_cancel_left,
      ih]

/-- What the accessibility tree shows of the field. -/
theorem Shows.announced (h : Shows s z) (pe : List Char) :
    A11y.TextInputState.displayString
        ⟨String.ofList z.toList, s.cursor, some (String.ofList pe)⟩ =
      String.ofList (z.left ++ pe ++ z.right) := by
  simp only [A11y.TextInputState.displayString, String.toList_ofList, h.cursor, Zipper.toList,
    takeBytes_encode, List.drop_left]

/-- **Text fields edit whole characters**: no run panics, the cursor stays on a boundary, and the
    buffer is that of the same edits of a list of characters; a preedit is shown before the
    cursor. -/
theorem text_input_run (initial : List Char) (ops : List TextOp) :
    ∃ s, ops.foldlM TextOp.run (TextInputState.new (encode initial)) = some s ∧
      Server.isCharBoundary s.buffer s.cursor = true ∧
      (s.buffer.take s.cursor, s.buffer.drop s.cursor) =
        (encode (ops.foldl TextOp.edit ⟨initial, []⟩).left,
          encode (ops.foldl TextOp.edit ⟨initial, []⟩).right) ∧
      ∀ pe : Option (List Char), let t := { s with preedit := pe.map encode }
        t.displayString.map (fun d => (d.take t.displayCursor, d.drop t.displayCursor)) =
          some (encode ((ops.foldl TextOp.edit ⟨initial, []⟩).left ++ pe.getD []),
            encode (ops.foldl TextOp.edit ⟨initial, []⟩).right) := by
  obtain ⟨s, hrun, hshows, -⟩ := shows_run ops (shows_new initial)
  refine ⟨s, hrun, hshows.isCharBoundary, ?_, fun pe => ?_⟩
  · rw [hshows.buffer, hshows.cursor, Zipper.toList, encode_append, List.take_left, List.drop_left]
  · have hshows' : Shows { s with preedit := pe.map encode }
        (ops.foldl TextOp.edit ⟨initial, []⟩) := ⟨hshows.buffer, hshows.cursor⟩
    exact hshows'.displayed pe rfl

end Nexterm.Settings.TextInput

/-
  What plugins get to read of the output of a pane (`nexterm-plugin`, `sanitize_for_plugin`).

  * `sanitizeForPlugin`: the byte scanner of the source, with its two inner loops.
  * `sanitizer`: the same as a machine that reads one byte at a time;
    `sanitizeForPlugin_eq_out`.
-/
import Nexterm.Lib.Scan

namespace Nexterm.Plugin

/-- CSI: parameters, intermediates and the final byte; what follows them. -/
def skipCsi : List UInt8 → List UInt8
  | [] => []
  | b :: rest => if 0x40 ≤ b ∧ b ≤ 0x7E then rest else skipCsi rest

/-- OSC, DCS, APC and PM are terminated by ST (ESC \) or BEL; what follows. -/
def skipString : List UInt8 → List UInt8
  | [] => []
  | b :: rest =>
    if b = 0x07 then rest
    else if b = 0x1B ∧ rest.head? = some 0x5C then rest.tail
    else skipString rest

/-- The sequence after an ESC; what follows it. -/
def skipSequence : List UInt8 → List UInt8
  | [] => []
  | b :: rest =>
    if b = 0x5B then skipCsi rest
    else if b = 0x5D ∨ b = 0x50 ∨ b = 0x5F ∨ b = 0x5E then skipString rest
    -- two-byte escape
    else rest

theorem length_skipCsi_le (l : List UInt8) : (skipCsi l).length ≤ l.length := by
  induction l with
  | nil => exact Nat.le_refl _
  | cons b rest ih =>
    unfold skipCsi
    split_ifs
    · exact Nat.le_succ _
    · exact Nat.le_succ_of_le ih

theorem length_skipString_le (l : List UInt8) : (skipString l).length ≤ l.length := by
  induction l with
  | nil => exact Nat.le_refl _
  | cons b rest ih =>
    unfold skipString
    split_ifs
    · exact Nat.le_succ _
    · simp only [List.length_tail, List.length_cons]
      omega
    · exact Nat.le_succ_of_le ih

theorem length_skipSequence_le (l : List UInt8) : (skipSequence l).length ≤ l.length := by
  cases l with
  | nil => exact Nat.le_refl _
  | cons b rest =>
    rw [skipSequence]
    split_ifs
    · exact Nat.le_succ_of_le (length_skipCsi_le rest)
    · exact Nat.le_succ_of_le (length_skipString_le rest)
    · exact Nat.le_succ _

/-- Strip control characters and escape sequences before handing the bytes to a v2 plugin. -/
def sanitizeForPlugin : List UInt8 → List UInt8
  | [] => []
  | b :: rest =>
    if b = 0x1B then
      have := length_skipSequence_le rest
      sanitizeForPlugin (skipSequence rest)
    else if b = 0x09 ∨ b = 0x0A ∨ b = 0x0D then b :: sanitizeForPlugin rest
    else if b ≤ 0x1F ∨ b = 0x7F then sanitizeForPlugin rest
    else b :: sanitizeForPlugin rest
termination_by l => l.length

/-! ## Byte by byte -/

/-- Where in the input the scan is. -/
inductive Reading
  | text
  | escape
  | csi
  | string
  | stringEscape
  deriving DecidableEq

/-- What the next byte of a string sequence does. -/
def Reading.inString (b : UInt8) : Reading :=
  if b = 0x07 then .text else if b = 0x1B then .stringEscape else .string

/-- Where the scan is after the next byte. -/
def Reading.next : Reading → UInt8 → Reading
  | .text, b => if b = 0x1B then .escape else .text
  | .escape, b =>
    if b = 0x5B then .csi
    else if b = 0x5D ∨ b = 0x50 ∨ b = 0x5F ∨ b = 0x5E then .string
    else .text
  | .csi, b => if 0x40 ≤ b ∧ b ≤ 0x7E then .text else .csi
  | .string, b => inString b
  | .stringEscape, b => if b = 0x5C then .text else inString b

/-- Bytes that pass through outside sequences. -/
def isText (b : UInt8) : Bool :=
  b = 0x09 ∨ b = 0x0A ∨ b = 0x0D ∨ (0x1F < b ∧ b ≠ 0x7F)

/-- The sanitizer, one byte at a time. -/
def sanitizer : Scan.Scanner Reading UInt8 where
  start := .text
  next := .next
  keeps := fun s b => s = .text ∧ isText b

theorem out_of_ne_text {s : Reading} (hs : s ≠ .text) (b : UInt8) (l : List UInt8) :
    sanitizer.out s (b :: l) = sanitizer.out (s.next b) l := by
  rw [Scan.Scanner.out, if_neg (by simp [sanitizer, hs])]
  rfl

theorem out_csi (l : List UInt8) : sanitizer.out .csi l = sanitizer.out .text (skipCsi l) := by
  induction l with
  | nil => rfl
  | cons b rest ih =>
    rw [out_of_ne_text Reading.noConfusion, Reading.next, skipCsi]
    split_ifs
    · rfl
    · exact ih

/-- Behind an ESC only a backslash makes a difference. -/
theorem out_stringEscape (l : List UInt8) : sanitizer.out .stringEscape l =
    if l.head? = some 0x5C then sanitizer.out .text l.tail else sanitizer.out .string l := by
  cases l with
  | nil => rfl
  | cons b rest =>
    rw [out_of_ne_text Reading.noConfusion, out_of_ne_text Reading.noConfusion, Reading.next, Reading.next]
    by_cases hb : b = 0x5C
    · rw [if_pos hb, if_pos (by simp [hb])]
      rfl
    · rw [if_neg hb, if_neg (by simpa using hb)]

theorem out_string (l : List UInt8) :
    sanitizer.out .string l = sanitizer.out .text (skipString l) := by
  induction l with
  | nil => rfl
  | cons b rest ih =>
    rw [out_of_ne_text Reading.noConfusion, Reading.next, Reading.inString, skipString]
    by_cases hbel : b = 0x07
    · rw [if_pos hbel, if_pos hbel]
    rw [if_neg hbel, if_neg hbel]
    by_cases hesc : b = 0x1B
    · rw [if_pos hesc, out_stringEscape, ih]
      by_cases hst : rest.head? = some 0x5C
      · rw [if_pos hst, if_pos ⟨hesc, hst⟩]
      · rw [if_neg hst, if_neg fun h => hst h.2]
    · rw [if_neg hesc, if_neg fun h => hesc h.1]
      exact ih

theorem out_escape (l : List UInt8) :
    sanitizer.out .escape l = sanitizer.out .text (skipSequence l) := by
  cases l with
  | nil => rfl
  | cons b rest =>
    rw [out_of_ne_text Reading.noConfusion, Reading.next, skipSequence]
    split_ifs
    · exact out_csi rest
    · exact out_string rest
    · rfl

/-- The loops of the source and the machine let the same bytes through. -/
theorem sanitizeForPlugin_eq_out (input : List UInt8) :
    sanitizeForPlugin input = sanitizer.out .text input := by
  induction input using sanitizeForPlugin.induct with
  | case1 => rw [sanitizeForPlugin]; rfl
  | case2 rest _ ih =>
    rw [sanitizeForPlugin, if_pos rfl, ih, ← out_escape]
    rfl
  | case3 b rest hesc hpass ih =>
    have hkeep : sanitizer.keeps .text b = true := by
      rcases hpass with rfl | rfl | rfl <;> rfl
    rw [sanitizeForPlugin, if_neg hesc, if_pos hpass, ih, Scan.Scanner.out, if_pos hkeep]
    rw [show sanitizer.next .text b = .text from if_neg hesc]
  | case4 b rest hesc hpass hcontrol ih =>
    have hkeep : ¬ sanitizer.keeps .text b = true := by
      simp only [sanitizer, isText, decide_eq_true_eq, true_and]
      rintro (h | h | h | ⟨hlt, hdel⟩)
      · exact hpass (.inl h)
      · exact hpass (.inr (.inl h))
      · exact hpass (.inr (.inr h))
      · exact hcontrol.elim (fun h => absurd hlt (UInt8.not_lt.2 h)) hdel
    rw [sanitizeForPlugin, if_neg hesc, if_neg hpass, if_pos hcontrol, ih, Scan.Scanner.out,
      if_neg hkeep, show sanitizer.next .text b = .text from if_neg hesc]
  | case5 b rest hesc hpass hcontrol ih =>
    have hkeep : sanitizer.keeps .text b = true := by
      simp only [sanitizer, isText, decide_eq_true_eq, true_and]
      refine .inr (.inr (.inr ⟨UInt8.not_le.1 fun h => hcontrol (.inl h), fun h => ?_⟩))
      exact hcontrol (.inr h)
    rw [sanitizeForPlugin, if_neg hesc, if_neg hpass, if_neg hcontrol, ih, Scan.Scanner.out,
      if_pos hkeep, show sanitizer.next .text b = .text from if_neg hesc]

end Nexterm.Plugin

/-
  The command that a block replays (`command_blocks.rs`), before it is pasted into the shell.

  * `sanitizeReplayCommand`: the captured text without edges; it checks the bytes of the text.
  * `SanitizesReplay`: exactly a text without control characters is replayed.
  * `BytesAgree`: the condition under which the bytes tell which characters the text has.
  * `sanitizesReplay_iff`: it is exact.
-/
import Nexterm.Lib.Utf8
import Nexterm.Vt.Performer

namespace Nexterm.Client

open Nexterm.Vt (isWhitespace trim)

/-! ## The code -/

/-- Tolerate a single trailing newline. -/
def stripNewline (cs : List Char) : List Char :=
  if cs.getLast? = some '\n' then (cs.dropLast.reverse.dropWhile (· = '\r')).reverse else cs

/-- Whether a byte is refused: C0 except TAB, DEL, and the CSI start. -/
def refusedByte (byte : UInt8) : Bool :=
  byte ≠ 0x09 ∧ (byte < 0x20 ∨ byte = 0x7f ∨ byte = 0x9b)

/-- Strip a candidate replay command of anything that is not safe to re-inject into a PTY. -/
def sanitizeReplayCommand (raw : String) : Option String :=
  let s := stripNewline (trim raw).toList
  if s.isEmpty then none
  else if (Utf8.encode s).any refusedByte then none
  else some (String.ofList s)

/-! ## What may be replayed -/

/-- The control characters below 0x80. -/
def IsLowControl (c : Char) : Prop := c.toNat < 0x20 ∨ c.toNat = 0x7f

/-- The control characters above (C1). -/
def IsHighControl (c : Char) : Prop := 0x80 ≤ c.toNat ∧ c.toNat ≤ 0x9f

instance (c : Char) : Decidable (IsLowControl c) := inferInstanceAs (Decidable (_ ∨ _))

instance (c : Char) : Decidable (IsHighControl c) := inferInstanceAs (Decidable (_ ∧ _))

/-- The text has no control character but tabs. -/
def Printable (text : String) : Prop :=
  ∀ c ∈ text.toList, c ≠ '\t' → ¬IsLowControl c ∧ ¬IsHighControl c

/-- Exactly a printable text is replayed, without its edges. -/
def SanitizesReplay (raw : String) : Prop :=
  ∀ text, sanitizeReplayCommand raw = some text ↔
    text = trim raw ∧ trim raw ≠ "" ∧ Printable (trim raw)

/-- The character has the byte 0x9b. -/
def HasCsiByte (c : Char) : Prop :=
  0x80 ≤ c.toNat ∧ (c.toNat % 64 = 27 ∨ (0x800 ≤ c.toNat ∧ c.toNat / 64 % 64 = 27) ∨
    (0x10000 ≤ c.toNat ∧ c.toNat / 4096 % 64 = 27))

/-- The text has a control character that is its own byte, or it has control characters above 0x80
    and the byte 0x9b, or neither. -/
def BytesAgree (text : String) : Prop :=
  (∃ c ∈ text.toList, c ≠ '\t' ∧ IsLowControl c) ∨
    ((∃ c ∈ text.toList, IsHighControl c) ↔ ∃ c ∈ text.toList, HasCsiByte c)

/-! ## The bytes -/

/-- The edges of a trimmed text are no whitespace. -/
theorem getLast?_trim {raw : String} {c : Char} (h : (trim raw).toList.getLast? = some c) :
    isWhitespace c = false := by
  rw [trim, String.toList_ofList, List.getLast?_reverse] at h
  have hfirst := List.head?_dropWhile_not isWhitespace
    (raw.toList.dropWhile isWhitespace).reverse
  rw [h] at hfirst
  exact hfirst

theorem stripNewline_trim (raw : String) : stripNewline (trim raw).toList = (trim raw).toList :=
  if_neg fun h => absurd (getLast?_trim h) (by decide)

theorem csi_mem_utf8EncodeChar (c : Char) :
    0x9b ∈ String.utf8EncodeChar c ↔ HasCsiByte c := by
  have hbyte : ∀ n, (0x9b : UInt8) = UInt8.ofNat n ↔ 155 = n % 256 := fun n => by
    rw [← UInt8.toNat_inj, UInt8.toNat_ofNat']
    rfl
  unfold String.utf8EncodeChar HasCsiByte
  show _ ↔ 0x80 ≤ c.val.toNat ∧ (c.val.toNat % 64 = 27 ∨ (0x800 ≤ c.val.toNat ∧
    c.val.toNat / 64 % 64 = 27) ∨ (0x10000 ≤ c.val.toNat ∧ c.val.toNat / 4096 % 64 = 27))
  dsimp only
  split_ifs <;> simp only [List.mem_cons, List.not_mem_nil, or_false, hbyte] <;> omega

theorem csi_mem_encode (cs : List Char) : 0x9b ∈ Utf8.encode cs ↔ ∃ c ∈ cs, HasCsiByte c := by
  simp only [Utf8.encode, List.mem_flatMap, csi_mem_utf8EncodeChar]

/-- A byte below 0x80 that is refused is a control character. -/
theorem refusedByte_iff (b : UInt8) : refusedByte b = true ↔
    (b.toNat < 0x80 ∧ b.toNat ≠ 9 ∧ (b.toNat < 0x20 ∨ b.toNat = 0x7f)) ∨ b = 0x9b := by
  have heq : ∀ n : UInt8, b = n ↔ b.toNat = n.toNat := fun n => UInt8.toNat_inj.symm
  simp only [refusedByte, decide_eq_true_eq, heq, UInt8.lt_iff_toNat_lt, ne_eq, UInt8.reduceToNat]
  omega

theorem refused_iff (cs : List Char) : (Utf8.encode cs).any refusedByte = true ↔
    (∃ c ∈ cs, c ≠ '\t' ∧ IsLowControl c) ∨ ∃ c ∈ cs, HasCsiByte c := by
  rw [← csi_mem_encode, List.any_eq_true]
  constructor
  · rintro ⟨b, hb, hrefused⟩
    rcases (refusedByte_iff b).1 hrefused with ⟨hascii, htab, hcontrol⟩ | rfl
    · obtain ⟨c, hc, hcb⟩ := (Utf8.mem_encode_iff hascii).1 hb
      refine .inl ⟨c, hc, ?_, by rwa [IsLowControl, hcb]⟩
      rintro rfl
      exact htab hcb.symm
    · exact .inr hb
  · rintro (⟨c, hc, htab, hcontrol⟩ | hcsi)
    · have hne : c.toNat ≠ 9 := fun h => htab (Char.toNat_inj.1 h)
      unfold IsLowControl at hcontrol
      have hbyte : (UInt8.ofNat c.toNat).toNat = c.toNat := by
        rw [UInt8.toNat_ofNat']
        omega
      refine ⟨UInt8.ofNat c.toNat, ?_, (refusedByte_iff _).2 (.inl (by omega))⟩
      exact (Utf8.mem_encode_iff (by omega)).2 ⟨c, hc, hbyte.symm⟩
    · exact ⟨0x9b, hcsi, by decide⟩

theorem sanitizeReplayCommand_eq_some_iff (raw text : String) :
    sanitizeReplayCommand raw = some text ↔ text = trim raw ∧ trim raw ≠ "" ∧
      ¬((∃ c ∈ (trim raw).toList, c ≠ '\t' ∧ IsLowControl c) ∨
        ∃ c ∈ (trim raw).toList, HasCsiByte c) := by
  rw [← refused_iff]
  unfold sanitizeReplayCommand
  rw [stripNewline_trim]
  dsimp only
  split_ifs with hempty hrefused
  · have hnone : trim raw = "" := String.toList_eq_nil_iff.1 (List.isEmpty_iff.1 hempty)
    exact iff_of_false (fun h => nomatch h) fun h => h.2.1 hnone
  · exact iff_of_false (fun h => nomatch h) fun h => h.2.2 hrefused
  · have hsome : trim raw ≠ "" := fun h => hempty (List.isEmpty_iff.2 (String.toList_eq_nil_iff.2 h))
    rw [String.ofList_toList, Option.some.injEq]
    exact ⟨fun h => ⟨h.symm, hsome, hrefused⟩, fun h => h.1.symm⟩

theorem printable_iff (text : String) : Printable text ↔
    ¬((∃ c ∈ text.toList, c ≠ '\t' ∧ IsLowControl c) ∨ ∃ c ∈ text.toList, IsHighControl c) := by
  constructor
  · rintro h (⟨c, hc, htab, hcontrol⟩ | ⟨c, hc, hcontrol⟩)
    · exact (h c hc htab).1 hcontrol
    · refine (h c hc ?_).2 hcontrol
      rintro rfl
      exact absurd hcontrol.1 (by decide)
  · exact fun h c hc htab =>
      ⟨fun hcontrol => h (.inl ⟨c, hc, htab, hcontrol⟩), fun hcontrol => h (.inr ⟨c, hc, hcontrol⟩)⟩

/-- **Exactly a printable text is replayed, if and only if the bytes agree.** -/
theorem sanitizesReplay_iff (raw : String) : SanitizesReplay raw ↔ BytesAgree (trim raw) := by
  unfold SanitizesReplay BytesAgree
  simp only [sanitizeReplayCommand_eq_some_iff, printable_iff]
  generalize trim raw = t
  constructor
  · intro h
    by_cases hlow : ∃ c ∈ t.toList, c ≠ '\t' ∧ IsLowControl c
    · exact .inl hlow
    · refine .inr ?_
      by_cases hempty : t = ""
      · subst hempty
        exact iff_of_false (fun ⟨_, hc, _⟩ => nomatch hc) fun ⟨_, hc, _⟩ => nomatch hc
      · have hsame := h t
        simp only [hempty, hlow, true_and, not_false_eq_true, ne_eq, false_or] at hsame
        exact (not_iff_not.1 hsame).symm
  · intro h text
    refine and_congr_right fun _ => and_congr_right fun _ => not_congr ?_
    rcases h with hlow | hsame
    · exact iff_of_true (.inl hlow) (.inl hlow)
    · rw [hsame]

/-- A letter has the byte 0x9b, and a device control string has not. -/
theorem replay_bytes_disagree :
    (sanitizeReplayCommand "\u021b" = none ∧ ¬SanitizesReplay "\u021b") ∧
      sanitizeReplayCommand "l\u0090s" = some "l\u0090s" ∧ ¬SanitizesReplay "l\u0090s" := by
  have hrejected : sanitizeReplayCommand "\u021b" = none := by decide
  have haccepted : sanitizeReplayCommand "l\u0090s" = some "l\u0090s" := by decide
  refine ⟨⟨hrejected, fun h => ?_⟩, haccepted, fun h => ?_⟩
  · have hprintable : Printable (trim "\u021b") := by
      intro c hc _
      obtain rfl : c = '\u021b' := List.mem_singleton.1 hc
      exact ⟨by decide, by decide⟩
    have hreplayed := (h "\u021b").2 ⟨by decide, by decide, hprintable⟩
    exact absurd (hrejected.symm.trans hreplayed) (by decide)
  · have hcontrol : '\u0090' ∈ (trim "l\u0090s").toList := by decide
    exact (((h _).1 haccepted).2.2 _ hcontrol (by decide)).2 (by decide)

end Nexterm.Client

/-
  The log of a pane (`pane.rs`): lines with their times, without escape sequences.

  * `stripAnsiEscapes`: the cursor loop, with the two loops inside; `csi_ends`, `osc_ends`,
    `strip_ends`: all of them end.
  * `LogWriterInner`: `write`, `flushLine`, `flush`, `rotateIfNeeded`.
  * `Plain`: neither rotation nor times; `foldl_write`: the writes of a plain log are one write.
  * `log_stripping`: what is stripped, and that a plain log does not depend on the writes.
-/
import Nexterm.Lib.While
import Nexterm.Web.AccessLog

namespace Nexterm.Server.Log

open Web (Disk generationPath zeroPadded)

/-! ## Escape sequences -/

/-- The loop up to the terminator of a CSI sequence. -/
def csiBody (input : List UInt8) (i : ℕ) : Option ℕ :=
  if (input[i]?).any fun b => !(0x40 ≤ b && b ≤ 0x7e) then some (i + 1) else none

def csiEnd (input : List UInt8) (i : ℕ) : ℕ :=
  (While.run (csiBody input) input.length i).getD i

/-- The loop up to the BEL or ST of an OSC sequence, and whether it has been left there. -/
def oscBody (input : List UInt8) : ℕ × Bool → Option (ℕ × Bool)
  | (_, true) => none
  | (i, false) => (input[i]?).map fun b =>
    if b = 0x07 then (i + 1, true)
    else if b = 0x1b ∧ input[i + 1]? = some 0x5c then (i + 2, true)
    else (i + 1, false)

def oscEnd (input : List UInt8) (i : ℕ) : ℕ :=
  ((While.run (oscBody input) input.length (i, false)).getD (i, false)).1

/-- Where the cursor goes on after an ESC; behind a truncated CSI sequence it is past the end. -/
def escapeEnd (input : List UInt8) (i : ℕ) : ℕ :=
  match input[i]? with
  | some 0x5b => csiEnd input (i + 1) + 1
  | some 0x5d => oscEnd input (i + 1)
  | some _ => i + 1
  | none => i

/-- The loop over the input: the cursor and the output. -/
def stripBody (input : List UInt8) (s : ℕ × List UInt8) : Option (ℕ × List UInt8) :=
  (input[s.1]?).map fun b =>
    if b = 0x1b then (escapeEnd input (s.1 + 1), s.2) else (s.1 + 1, s.2 ++ [b])

/-- Strip ANSI escape sequences. -/
def stripAnsiEscapes (input : List UInt8) : List UInt8 :=
  ((While.run (stripBody input) input.length (0, [])).getD (0, [])).2

/-! ## The loops end -/

variable {input : List UInt8}

theorem csi_ends (input : List UInt8) (i : ℕ) :
    While.run (csiBody input) input.length i = some (csiEnd input i) ∧ i ≤ csiEnd input i := by
  have hstep : ∀ j j', csiBody input j = some j' → j' = j + 1 ∧ j < input.length := by
    intro j j' h
    unfold csiBody at h
    split_ifs at h with hany
    refine ⟨(Option.some.inj h).symm, ?_⟩
    by_contra hge
    rw [List.getElem?_eq_none (Nat.not_lt.1 hge)] at hany
    cases hany
  obtain ⟨j, hrun, -⟩ := While.exists_run (μ := fun j => input.length - j)
    (fun j j' h => by have hj := hstep j j' h; omega) (Nat.sub_le input.length i)
  have hend : csiEnd input i = j := by rw [csiEnd, hrun]; rfl
  have hle := While.run_inv (I := (i ≤ ·)) (fun j j' hj h => by have := hstep j j' h; omega)
    (Nat.le_refl i) hrun
  rw [hend]
  exact ⟨hrun, hle⟩

theorem osc_ends (input : List UInt8) (i : ℕ) :
    ∃ left, While.run (oscBody input) input.length (i, false) = some (oscEnd input i, left) ∧
      i ≤ oscEnd input i := by
  have hstep : ∀ s s', oscBody input s = some s' → s.1 < s'.1 ∧ s.1 < input.length := by
    rintro ⟨j, left⟩ s' h
    cases left with
    | true => cases h
    | false =>
      obtain ⟨b, hb, rfl⟩ := Option.map_eq_some_iff.1 h
      refine ⟨?_, (List.getElem?_eq_some_iff.1 hb).1⟩
      split_ifs <;> simp
  obtain ⟨⟨j, left⟩, hrun, -⟩ := While.exists_run (μ := fun s : ℕ × Bool => input.length - s.1)
    (s := (i, false)) (fun s s' h => by have hs := hstep s s' h; omega)
    (Nat.sub_le input.length i)
  have hend : oscEnd input i = j := by rw [oscEnd, hrun]; rfl
  have hle := While.run_inv (I := fun s : ℕ × Bool => i ≤ s.1)
    (fun s s' hs h => by have := hstep s s' h; omega) (Nat.le_refl i) hrun
  rw [hend]
  exact ⟨left, hrun, hle⟩

theorem le_escapeEnd (input : List UInt8) (i : ℕ) : i ≤ escapeEnd input i := by
  have hcsi := (csi_ends input (i + 1)).2
  obtain ⟨-, -, hosc⟩ := osc_ends input (i + 1)
  unfold escapeEnd
  split <;> omega

/-- What one round does. -/
theorem stripBody_cases {s s' : ℕ × List UInt8} (h : stripBody input s = some s') :
    ∃ hlt : s.1 < input.length,
      input[s.1] = 0x1b ∧ s' = (escapeEnd input (s.1 + 1), s.2) ∧ s.1 < s'.1 ∨
        input[s.1] ≠ 0x1b ∧ s' = (s.1 + 1, s.2 ++ [input[s.1]]) := by
  obtain ⟨b, hb, rfl⟩ := Option.map_eq_some_iff.1 h
  obtain ⟨hlt, rfl⟩ := List.getElem?_eq_some_iff.1 hb
  refine ⟨hlt, ?_⟩
  split_ifs with hesc
  · exact .inl ⟨hesc, rfl, le_escapeEnd input (s.1 + 1)⟩
  · exact .inr ⟨hesc, rfl⟩

/-- The loop over the input ends, after at most as many rounds as there are bytes. -/
theorem strip_ends (input : List UInt8) : ∃ i, input.length ≤ i ∧
    While.run (stripBody input) input.length (0, []) = some (i, stripAnsiEscapes input) := by
  have hμ : ∀ s s', stripBody input s = some s' → input.length - s'.1 < input.length - s.1 := by
    intro s s' h
    obtain ⟨hlt, ⟨-, -, hnext⟩ | ⟨-, rfl⟩⟩ := stripBody_cases h
    · omega
    · show input.length - (s.1 + 1) < _
      omega
  obtain ⟨⟨i, output⟩, hrun, hstop⟩ := While.exists_run
    (μ := fun s : ℕ × List UInt8 => input.length - s.1) (s := (0, [])) hμ
    (Nat.sub_le input.length 0)
  refine ⟨i, ?_, ?_⟩
  · by_contra hlt
    rw [stripBody, List.getElem?_eq_getElem (Nat.not_le.1 hlt)] at hstop
    cases hstop
  · rw [stripAnsiEscapes, hrun]
    rfl

/-- What every round keeps holds of the output. -/
theorem strip_inv (input : List UInt8) {I : ℕ × List UInt8 → Prop}
    (hI : ∀ s s', I s → stripBody input s = some s' → I s') (h : I (0, [])) :
    ∃ i, input.length ≤ i ∧ I (i, stripAnsiEscapes input) := by
  obtain ⟨i, hi, hrun⟩ := strip_ends input
  exact ⟨i, hi, While.run_inv hI h hrun⟩

/-! ## The output -/

theorem esc_notMem (input : List UInt8) : 0x1b ∉ stripAnsiEscapes input := by
  have h := strip_inv input (I := fun s => 0x1b ∉ s.2) ?_ List.not_mem_nil
  · obtain ⟨i, -, h⟩ := h
    exact h
  · intro s s' hs h
    obtain ⟨hlt, ⟨-, rfl, -⟩ | ⟨hne, rfl⟩⟩ := stripBody_cases h
    · exact hs
    · show 0x1b ∉ s.2 ++ [input[s.1]]
      rw [List.mem_append, List.mem_singleton, not_or]
      exact ⟨hs, hne.symm⟩

/-- Without ESC, nothing is stripped. -/
theorem stripAnsiEscapes_eq (hesc : 0x1b ∉ input) : stripAnsiEscapes input = input := by
  have h := strip_inv input (I := fun s => s.2 = input.take s.1) ?_ rfl
  · obtain ⟨i, hi, h⟩ := h
    exact h.trans (List.take_of_length_le hi)
  · intro s s' hs h
    obtain ⟨hlt, ⟨heq, -, -⟩ | ⟨-, rfl⟩⟩ := stripBody_cases h
    · exact absurd (heq ▸ List.getElem_mem hlt) hesc
    · show s.2 ++ [input[s.1]] = input.take (s.1 + 1)
      rw [List.take_add_one, List.getElem?_eq_getElem hlt, hs]
      rfl

theorem stripAnsiEscapes_sublist (input : List UInt8) :
    (stripAnsiEscapes input).Sublist input := by
  have h := strip_inv input (I := fun s => s.2.Sublist (input.take s.1)) ?_ .slnil
  · obtain ⟨i, -, h⟩ := h
    exact h.trans (List.take_sublist i input)
  · intro s s' hs h
    obtain ⟨hlt, ⟨-, rfl, hnext⟩ | ⟨-, rfl⟩⟩ := stripBody_cases h
    · exact hs.trans (List.take_sublist_take_left (Nat.le_of_lt hnext))
    · show (s.2 ++ [input[s.1]]).Sublist (input.take (s.1 + 1))
      rw [List.take_add_one, List.getElem?_eq_getElem hlt]
      exact hs.append (List.Sublist.refl _)

/-! ## The writer -/

/-- PTY output log writer. -/
structure LogWriterInner where
  /-- What is written to the current file. -/
  writer : List UInt8
  /-- The other files. -/
  disk : Disk
  /-- How often the clock has been read. -/
  readings : ℕ
  timestamp : Bool
  stripAnsi : Bool
  /-- Accumulates until a newline is seen. -/
  lineBuf : List UInt8
  path : String
  writtenBytes : ℕ
  /-- 0 is unlimited. -/
  maxBytes : ℕ
  maxFiles : ℕ

namespace LogWriterInner

variable (clock : ℕ → ℕ)

/-- The loop `for i in (1..=i).rev()`; a file that is not there is passed over. -/
def shiftFiles (path : String) : ℕ → Disk → Disk
  | 0, d => d
  | i + 1, d => shiftFiles path i
      ((d.rename (generationPath path (i + 1) false) (generationPath path (i + 2) false)).getD d)

/-- Check whether rotation is needed and perform it if so. -/
def rotateIfNeeded (w : LogWriterInner) : LogWriterInner :=
  if w.maxBytes = 0 ∨ w.writtenBytes < w.maxBytes then w
  else
    let d := (w.disk.removeFile (generationPath w.path w.maxFiles false)).getD w.disk
    let d := shiftFiles w.path (w.maxFiles - 1) d
    { w with
      writer := []
      disk := d.create (generationPath w.path 1 false) w.writer
      writtenBytes := 0 }

/-- The time in front of a line. -/
def timePrefix (secs : ℕ) : List UInt8 :=
  ("[" ++ zeroPadded 2 (secs / 3600 % 24) ++ ":" ++ zeroPadded 2 (secs / 60 % 60) ++ ":" ++
    zeroPadded 2 (secs % 60) ++ "] ").toUTF8.data.toList

/-- Process and write the accumulated line. -/
def flushLine (w : LogWriterInner) : LogWriterInner :=
  let processed := if w.stripAnsi then stripAnsiEscapes w.lineBuf else w.lineBuf
  if w.timestamp ∧ processed ≠ [] then
    { w with
      writer := w.writer ++ timePrefix (clock w.readings) ++ processed
      readings := w.readings + 1
      lineBuf := [] }
  else { w with writer := w.writer ++ processed, lineBuf := [] }

/-- The body of the loop over the bytes. -/
def push (w : LogWriterInner) (byte : UInt8) : LogWriterInner :=
  let w := { w with lineBuf := w.lineBuf ++ [byte], writtenBytes := w.writtenBytes + 1 }
  if byte = 0x0a then w.flushLine clock else w

/-- Write bytes. -/
def write (w : LogWriterInner) (data : List UInt8) : LogWriterInner :=
  let w := w.rotateIfNeeded
  if !w.timestamp ∧ !w.stripAnsi then
    { w with writtenBytes := w.writtenBytes + data.length, writer := w.writer ++ data }
  else data.foldl (push clock) w

/-- Write any remaining buffered bytes, as a line. -/
def flush (w : LogWriterInner) : LogWriterInner :=
  if w.lineBuf = [] then w else w.flushLine clock

/-! ## Plain logs -/

/-- Neither rotation nor times. -/
structure Plain (w : LogWriterInner) : Prop where
  maxBytes : w.maxBytes = 0
  timestamp : w.timestamp = false

variable {clock} {w : LogWriterInner}

theorem Plain.rotateIfNeeded (h : w.Plain) : w.rotateIfNeeded = w := if_pos (.inl h.maxBytes)

theorem Plain.flushLine (h : w.Plain) :
    (w.flushLine clock).Plain ∧ (w.flushLine clock).stripAnsi = w.stripAnsi := by
  have hstamp : ∀ p : Prop, ¬ (w.timestamp = true ∧ p) := by simp [h.timestamp]
  rw [LogWriterInner.flushLine, if_neg (hstamp _)]
  exact ⟨⟨h.maxBytes, h.timestamp⟩, rfl⟩

theorem Plain.push (h : w.Plain) (byte : UInt8) :
    (w.push clock byte).Plain ∧ (w.push clock byte).stripAnsi = w.stripAnsi := by
  have hw : Plain { w with lineBuf := w.lineBuf ++ [byte], writtenBytes := w.writtenBytes + 1 } :=
    ⟨h.maxBytes, h.timestamp⟩
  unfold LogWriterInner.push
  split_ifs
  · exact hw.flushLine
  · exact ⟨hw, rfl⟩

theorem Plain.foldl_push (data : List UInt8) {w : LogWriterInner} (h : w.Plain) :
    (data.foldl (LogWriterInner.push clock) w).Plain ∧
      (data.foldl (LogWriterInner.push clock) w).stripAnsi = w.stripAnsi := by
  induction data generalizing w with
  | nil => exact ⟨h, rfl⟩
  | cons byte data ih =>
    have hnext : (w.push clock byte).Plain ∧ _ := h.push byte
    obtain ⟨hplain, hstrip⟩ := hnext
    obtain ⟨hplain', hstrip'⟩ := ih hplain
    exact ⟨hplain', hstrip'.trans hstrip⟩

theorem Plain.write_eq (h : w.Plain) (data : List UInt8) : w.write clock data =
    if w.stripAnsi then data.foldl (LogWriterInner.push clock) w
    else { w with writtenBytes := w.writtenBytes + data.length, writer := w.writer ++ data } := by
  rw [LogWriterInner.write, h.rotateIfNeeded]
  cases hstrip : w.stripAnsi <;> simp [h.timestamp]

theorem Plain.write (h : w.Plain) (data : List UInt8) : (w.write clock data).Plain := by
  rw [h.write_eq]
  split_ifs
  · exact (h.foldl_push data).1
  · exact ⟨h.maxBytes, h.timestamp⟩

/-- Two writes are one. -/
theorem Plain.write_write (h : w.Plain) (a b : List UInt8) :
    (w.write clock a).write clock b = w.write clock (a ++ b) := by
  rw [(h.write a).write_eq, h.write_eq, h.write_eq]
  cases hstrip : w.stripAnsi with
  | true =>
    have hfold : (a.foldl (LogWriterInner.push clock) w).stripAnsi = _ := (h.foldl_push a).2
    simp only [if_true, hfold, hstrip, List.foldl_append]
  | false => simp [Nat.add_assoc]

theorem Plain.write_nil (h : w.Plain) : w.write clock [] = w := by
  rw [h.write_eq]
  split_ifs
  · rfl
  · simp

theorem foldl_write (chunks : List (List UInt8)) {w : LogWriterInner} (h : w.Plain) :
    chunks.foldl (write clock) w = w.write clock chunks.flatten := by
  induction chunks generalizing w with
  | nil => exact h.write_nil.symm
  | cons chunk chunks ih =>
    rw [List.foldl_cons, ih (h.write chunk), h.write_write, List.flatten_cons]

end LogWriterInner

/-- **ANSI stripping**: the loop ends; no ESC is left, nothing is stripped without one, and so
    stripping twice is stripping once; what is left is part of the input.  A log without rotation
    and times does not depend on how the input is divided into writes. -/
theorem log_stripping (input : List UInt8) :
    (∃ i, input.length ≤ i ∧
      While.run (stripBody input) input.length (0, []) = some (i, stripAnsiEscapes input)) ∧
      0x1b ∉ stripAnsiEscapes input ∧
      (0x1b ∉ input → stripAnsiEscapes input = input) ∧
      stripAnsiEscapes (stripAnsiEscapes input) = stripAnsiEscapes input ∧
      (stripAnsiEscapes input).Sublist input ∧
      ∀ (clock : ℕ → ℕ) (w : LogWriterInner), w.Plain → ∀ chunks chunks' : List (List UInt8),
        chunks.flatten = input → chunks'.flatten = input →
          ((chunks.foldl (LogWriterInner.write clock) w).flush clock).writer =
            ((chunks'.foldl (LogWriterInner.write clock) w).flush clock).writer := by
  refine ⟨strip_ends input, esc_notMem input, stripAnsiEscapes_eq,
    stripAnsiEscapes_eq (esc_notMem input), stripAnsiEscapes_sublist input, ?_⟩
  intro clock w hplain chunks chunks' hchunks hchunks'
  rw [LogWriterInner.foldl_write chunks hplain, LogWriterInner.foldl_write chunks' hplain, hchunks,
    hchunks']

/-- A log that strips escape sequences. -/
def strippedLog : LogWriterInner where
  writer := []
  disk := ⟨fun _ => none, []⟩
  readings := 0
  timestamp := false
  stripAnsi := true
  lineBuf := []
  path := "pane.log"
  writtenBytes := 0
  maxBytes := 0
  maxFiles := 5

/-- A sequence that is cut in two. -/
theorem log_stripping_line :
    (([[0x1b, 0x5b], [0x31, 0x6d, 0x41, 0x0a]].foldl
      (LogWriterInner.write fun _ => 0) strippedLog).flush fun _ => 0).writer =
    (([[0x1b, 0x5b, 0x31, 0x6d, 0x41, 0x0a]].foldl
      (LogWriterInner.write fun _ => 0) strippedLog).flush fun _ => 0).writer :=
  (log_stripping [0x1b, 0x5b, 0x31, 0x6d, 0x41, 0x0a]).2.2.2.2.2 (fun _ => 0) strippedLog
    ⟨rfl, rfl⟩ _ _ rfl rfl

end Nexterm.Server.Log

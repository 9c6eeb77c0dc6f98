/-
  The reading end of a byte stream of frames, while the bytes are still coming in.

  * `Inlet`: the bytes under way, those that have arrived, and (history variables) everything
    that was written and every message that was read.
  * `write`, `arrive`, `read`: bytes are written, some of them arrive, a frame is read.  The bytes
    arrive in pieces of any size.
  * `Reads`: what was read, and then what is still there, is what the frames of the whole stream
    are read as; it is kept by every operation.
  * `Reads.got_prefix`, `Reads.got_eq`: the messages are those of the stream, in order, and all of
    them once nothing is left.
-/
import Nexterm.Lib.Frames

namespace Frames

/-- The reading end of a stream. -/
structure Inlet (α : Type) where
  wire : List UInt8
  buf : List UInt8
  /-- A length above the limit was read. -/
  stopped : Bool
  written : List UInt8
  got : List α

namespace Inlet

variable {α : Type}

/-- Nothing was written yet. -/
def new : Inlet α := ⟨[], [], false, [], []⟩

/-- Bytes are written to the stream. -/
def write (s : Inlet α) (bytes : List UInt8) : Inlet α :=
  { s with wire := s.wire ++ bytes, written := s.written ++ bytes }

/-- The first `n` bytes under way arrive. -/
def arrive (s : Inlet α) (n : ℕ) : Inlet α :=
  { s with wire := s.wire.drop n, buf := s.buf ++ s.wire.take n }

section

variable (limit : ℕ) (decode : List UInt8 → Option α)

/-- Reads a frame if it is there; a payload that does not decode is skipped. -/
def read (s : Inlet α) : Inlet α × Option α :=
  if s.stopped ∨ s.buf.length < 4 then (s, none)
  else if limit < readLe (s.buf.take 4) then ({ s with stopped := true }, none)
  else if s.buf.length - 4 < readLe (s.buf.take 4) then (s, none)
  else
    let msg := decode ((s.buf.drop 4).take (readLe (s.buf.take 4)))
    ({ s with buf := (s.buf.drop 4).drop (readLe (s.buf.take 4)), got := s.got ++ msg.toList }, msg)

/-- Nothing is under way, and the reader waits for bytes. -/
def Drained (s : Inlet α) : Prop :=
  s.wire = [] ∧ s.stopped = false ∧
    (s.buf.length < 4 ∨ ¬limit < readLe (s.buf.take 4) ∧ s.buf.length - 4 < readLe (s.buf.take 4))

/-- What was read and what is there are what the whole stream is read as, however it goes on. -/
def Reads (s : Inlet α) : Prop :=
  ∀ more, readFrames limit decode (s.written ++ more) =
    if s.stopped then (s.got, true)
    else
      (s.got ++ (readFrames limit decode (s.buf ++ s.wire ++ more)).1,
        (readFrames limit decode (s.buf ++ s.wire ++ more)).2)

end

variable {limit : ℕ} {decode : List UInt8 → Option α} {s : Inlet α}

theorem reads_new : (new : Inlet α).Reads limit decode := by
  intro more
  simp [new]

theorem Reads.write (h : s.Reads limit decode) (bytes : List UInt8) :
    (s.write bytes).Reads limit decode := by
  intro more
  have hmore := h (bytes ++ more)
  simp only [Inlet.write, ← List.append_assoc] at hmore ⊢
  exact hmore

theorem Reads.arrive (h : s.Reads limit decode) (n : ℕ) : (s.arrive n).Reads limit decode := by
  intro more
  have hbytes : (s.arrive n).buf ++ (s.arrive n).wire = s.buf ++ s.wire := by
    simp only [Inlet.arrive, List.append_assoc, List.take_append_drop]
  rw [hbytes]
  exact h more

/-- A frame at the head of the stream. -/
theorem readFrames_head {buf : List UInt8} (hlen : ¬buf.length < 4)
    (hfits : ¬limit < readLe (buf.take 4)) (hall : ¬buf.length - 4 < readLe (buf.take 4))
    (more : List UInt8) :
    readFrames limit decode (buf ++ more) =
      ((decode ((buf.drop 4).take (readLe (buf.take 4)))).toList ++
          (readFrames limit decode ((buf.drop 4).drop (readLe (buf.take 4)) ++ more)).1,
        (readFrames limit decode ((buf.drop 4).drop (readLe (buf.take 4)) ++ more)).2) := by
  have htake : (buf ++ more).take 4 = buf.take 4 := List.take_append_of_le_length (by omega)
  have hdrop : (buf ++ more).drop 4 = buf.drop 4 ++ more := List.drop_append_of_le_length (by omega)
  have hlen' : (buf.drop 4).length = buf.length - 4 := List.length_drop
  have hlong : (buf ++ more).length = buf.length + more.length := List.length_append
  rw [readFrames, dif_neg (by omega), htake, if_neg hfits, if_neg (by omega), hdrop,
    List.take_append_of_le_length (by omega), List.drop_append_of_le_length (by omega)]

theorem Reads.read (h : s.Reads limit decode) : (s.read limit decode).1.Reads limit decode := by
  unfold Inlet.read
  split_ifs with hwait hlong hpart
  · exact h
  · -- the stream ends here
    obtain ⟨hgoes, hlen⟩ := not_or.1 hwait
    intro more
    have hread : readFrames limit decode (s.buf ++ s.wire ++ more) = ([], true) := by
      have htake : (s.buf ++ s.wire ++ more).take 4 = s.buf.take 4 := by
        rw [List.append_assoc]
        exact List.take_append_of_le_length (by omega)
      have hfour : ¬(s.buf ++ s.wire ++ more).length < 4 := by
        simp only [List.length_append]
        omega
      rw [readFrames, dif_neg hfour, htake, if_pos hlong]
    refine (h more).trans ?_
    rw [if_neg hgoes, hread, List.append_nil]
    rfl
  · exact h
  · obtain ⟨hgoes, hlen⟩ := not_or.1 hwait
    intro more
    refine (h more).trans ?_
    rw [if_neg hgoes, if_neg hgoes, List.append_assoc s.buf,
      readFrames_head hlen hlong hpart (s.wire ++ more)]
    simp only [List.append_assoc]

/-- **The messages that were read are those of the stream, in order.** -/
theorem Reads.got_prefix (h : s.Reads limit decode) :
    s.got <+: (readFrames limit decode s.written).1 := by
  have hall := h []
  rw [List.append_nil] at hall
  rw [hall]
  split_ifs
  · exact List.prefix_rfl
  · exact List.prefix_append _ _

/-- **Once nothing is left, all messages of the stream were read.** -/
theorem Reads.got_eq (h : s.Reads limit decode) (hdrained : s.Drained limit) :
    readFrames limit decode s.written = (s.got, false) := by
  obtain ⟨hwire, hgoes, hwait⟩ := hdrained
  have hall := h []
  have hnothing : readFrames limit decode s.buf = ([], false) := by
    rw [readFrames]
    split_ifs with hlen hlong hpart
    · rfl
    · exact absurd hlong (hwait.resolve_left hlen).1
    · rfl
    · exact absurd (hwait.resolve_left hlen).2 hpart
  rw [List.append_nil, List.append_nil, hgoes, hwire, List.append_nil, hnothing] at hall
  simpa using hall

end Inlet

end Frames

/-
  Length-prefixed frames on a byte stream.

  * `le`, `readLe`: a number in little-endian bytes; what does not fit is cut off.
  * `frame`: a payload after its length in four bytes.
  * `readFrames`: a reader that refuses payloads above a limit and closes the stream there.
  * `readFrames_frames`: frames within the limit are all read.
  * `readFrames_oversized`: at the first frame above the limit the reader stops.
  * `readFrames_frames_iff`: so it reads everything exactly if all frames are within the limit.
-/
import Mathlib.Data.List.Basic
import Mathlib.Tactic

namespace Frames

/-- The `width` low bytes of a number, the least significant one first. -/
def le : ℕ → ℕ → List UInt8
  | 0, _ => []
  | width + 1, n => UInt8.ofNat n :: le width (n / 256)

/-- The number that bytes stand for. -/
def readLe : List UInt8 → ℕ
  | [] => 0
  | byte :: bytes => byte.toNat + 256 * readLe bytes

@[simp] theorem length_le (width : ℕ) : ∀ n, (le width n).length = width := by
  induction width with
  | zero => exact fun n => rfl
  | succ width ih => exact fun n => congrArg (· + 1) (ih (n / 256))

/-- Reading gives the number back, up to what was cut off. -/
theorem readLe_le (width : ℕ) : ∀ n, readLe (le width n) = n % 256 ^ width := by
  induction width with
  | zero =>
    intro n
    simp [le, readLe, Nat.mod_one]
  | succ width ih =>
    intro n
    rw [le, readLe, ih, UInt8.toNat_ofNat', pow_succ' 256 width]
    exact Nat.mod_mul.symm

/-- A payload with its length in front. -/
def frame (payload : List UInt8) : List UInt8 := le 4 payload.length ++ payload

section

variable {α : Type} (limit : ℕ) (decode : List UInt8 → Option α)

/-- What a reader makes of the bytes that have arrived: the messages, and whether it has closed
    the stream.  A payload that does not decode is skipped; an incomplete frame is waited for. -/
def readFrames (bytes : List UInt8) : List α × Bool :=
  if _h : bytes.length < 4 then ([], false)
  else if limit < readLe (bytes.take 4) then ([], true)
  else if bytes.length - 4 < readLe (bytes.take 4) then ([], false)
  else
    let rest := readFrames ((bytes.drop 4).drop (readLe (bytes.take 4)))
    ((decode ((bytes.drop 4).take (readLe (bytes.take 4)))).toList ++ rest.1, rest.2)
termination_by bytes.length
decreasing_by
  rw [List.length_drop, List.length_drop]
  omega

end

variable {α : Type} {limit : ℕ} {decode : List UInt8 → Option α}

theorem readFrames_nil : readFrames limit decode [] = ([], false) := by
  rw [readFrames]
  simp

/-- The length in front of a frame, up to what four bytes cannot hold. -/
theorem readLe_frame (payload rest : List UInt8) :
    readLe ((frame payload ++ rest).take 4) = payload.length % 2 ^ 32 := by
  have htake : (frame payload ++ rest).take 4 = le 4 payload.length := by
    rw [frame, List.append_assoc]
    exact List.take_left' (length_le 4 _)
  rw [htake, readLe_le]
  norm_num

theorem drop_frame (payload rest : List UInt8) :
    (frame payload ++ rest).drop 4 = payload ++ rest := by
  rw [frame, List.append_assoc]
  exact List.drop_left' (length_le 4 _)

theorem length_frame (payload : List UInt8) : (frame payload).length = 4 + payload.length := by
  rw [frame, List.length_append, length_le]

/-- A frame within the limit. -/
theorem readFrames_frame {payload : List UInt8} (hfits : payload.length ≤ limit)
    (hlimit : limit < 2 ^ 32) (rest : List UInt8) :
    readFrames limit decode (frame payload ++ rest) =
      ((decode payload).toList ++ (readFrames limit decode rest).1,
        (readFrames limit decode rest).2) := by
  have hlen₄ : readLe ((frame payload ++ rest).take 4) = payload.length := by
    rw [readLe_frame]
    exact Nat.mod_eq_of_lt (by omega)
  have hlong : (frame payload ++ rest).length = 4 + payload.length + rest.length := by
    rw [List.length_append, length_frame]
  rw [readFrames, dif_neg (by omega), hlen₄, if_neg (by omega), if_neg (by omega), drop_frame,
    List.take_left, List.drop_left]

/-- At a frame above the limit the reader stops. -/
theorem readFrames_oversized {payload : List UInt8} (hlong : limit < payload.length)
    (hlen : payload.length < 2 ^ 32) (rest : List UInt8) :
    readFrames limit decode (frame payload ++ rest) = ([], true) := by
  have hlen₄ : readLe ((frame payload ++ rest).take 4) = payload.length := by
    rw [readLe_frame]
    exact Nat.mod_eq_of_lt hlen
  have hfour : ¬(frame payload ++ rest).length < 4 := by
    rw [List.length_append, length_frame]
    omega
  rw [readFrames, dif_neg hfour, hlen₄, if_pos hlong]

/-! ## Sequences of messages -/

/-- The first element of a list whose size is above a limit. -/
theorem exists_first (size : α → ℕ) {x : α} (hlong : limit < size x) : ∀ {l : List α}, x ∈ l →
    ∃ pre y rest, l = pre ++ y :: rest ∧ (∀ z ∈ pre, size z ≤ limit) ∧ limit < size y
  | y :: l, hx => by
    by_cases hy : limit < size y
    · exact ⟨[], y, l, rfl, by simp, hy⟩
    rcases List.mem_cons.1 hx with rfl | hx
    · exact absurd hlong hy
    obtain ⟨pre, y₀, rest, rfl, hpre, hy₀⟩ := exists_first size hlong hx
    refine ⟨y :: pre, y₀, rest, rfl, ?_, hy₀⟩
    intro z hz
    rcases List.mem_cons.1 hz with rfl | hz
    · exact not_lt.1 hy
    · exact hpre z hz

section

variable {encode : α → List UInt8} (hdecode : ∀ m, decode (encode m) = some m)
  (hlimit : limit < 2 ^ 32)
include hdecode hlimit

/-- The messages that fit are all read, and the reader goes on. -/
theorem readFrames_append : ∀ {msgs : List α}, (∀ m ∈ msgs, (encode m).length ≤ limit) →
    ∀ rest, readFrames limit decode (msgs.flatMap (fun m => frame (encode m)) ++ rest) =
      (msgs ++ (readFrames limit decode rest).1, (readFrames limit decode rest).2)
  | [], _, rest => rfl
  | m :: msgs, hfits, rest => by
    have hrest := readFrames_append (fun m' hm' => hfits m' (List.mem_cons_of_mem m hm')) rest
    rw [List.flatMap_cons, List.append_assoc,
      readFrames_frame (hfits m List.mem_cons_self) hlimit, hdecode, hrest]
    rfl

/-- **Messages that fit are all read**, and the stream stays open. -/
theorem readFrames_frames {msgs : List α} (hfits : ∀ m ∈ msgs, (encode m).length ≤ limit) :
    readFrames limit decode (msgs.flatMap fun m => frame (encode m)) = (msgs, false) := by
  have hread := readFrames_append hdecode hlimit hfits []
  rw [List.append_nil, readFrames_nil, List.append_nil] at hread
  exact hread

/-- The first message that does not fit closes the stream: nothing after it is read. -/
theorem readFrames_closed {msgs rest : List α} {m : α}
    (hfits : ∀ m ∈ msgs, (encode m).length ≤ limit) (hlong : limit < (encode m).length)
    (hlen : (encode m).length < 2 ^ 32) :
    readFrames limit decode ((msgs ++ m :: rest).flatMap fun m => frame (encode m)) =
      (msgs, true) := by
  rw [List.flatMap_append, List.flatMap_cons, readFrames_append hdecode hlimit hfits,
    readFrames_oversized hlong hlen, List.append_nil]

/-- **The messages are read exactly if all of them fit.** -/
theorem readFrames_frames_iff {msgs : List α} (hlen : ∀ m ∈ msgs, (encode m).length < 2 ^ 32) :
    readFrames limit decode (msgs.flatMap fun m => frame (encode m)) = (msgs, false) ↔
      ∀ m ∈ msgs, (encode m).length ≤ limit := by
  refine ⟨?_, readFrames_frames hdecode hlimit⟩
  intro hread
  by_contra hmisfit
  push Not at hmisfit
  obtain ⟨m, hm, hlong⟩ := hmisfit
  obtain ⟨pre, m, rest, rfl, hpre, hlong⟩ :=
    exists_first (fun m => (encode m).length) hlong hm
  rw [readFrames_closed hdecode hlimit hpre hlong (hlen m (by simp))] at hread
  exact absurd (congrArg Prod.snd hread) (by simp)

end

end Frames

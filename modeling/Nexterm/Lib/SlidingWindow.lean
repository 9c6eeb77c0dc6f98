/-
  A limit on events in a sliding window.

  * `live`: the times inside the window that ends now; `live_live`: dropping old times early
    makes no difference.
  * `Admitted`: times each of which came while the window had room.
  * `Admitted.countP_le`: no window of that length, wherever it begins, holds more.
-/
import Mathlib.Data.List.Count
import Mathlib.Order.Basic

namespace SlidingWindow

variable (w max : ℕ)

/-- The times inside the window that ends now. -/
def live (now : ℕ) (times : List ℕ) : List ℕ := times.filter (now - · < w)

/-- Each time came while the window had room, and not before those in front of it. -/
inductive Admitted : List ℕ → Prop
  | nil : Admitted []
  | snoc {times : List ℕ} {now : ℕ} (h : Admitted times) (hlast : ∀ t ∈ times, t ≤ now)
      (hroom : (live w now times).length < max) : Admitted (times ++ [now])

variable {w max} {now now' : ℕ} {times : List ℕ}

theorem live_append (times' : List ℕ) : live w now (times ++ times') =
    live w now times ++ live w now times' := List.filter_append _ _

theorem live_singleton (h : 0 < w) : live w now [now] = [now] := by simp [live, h]

/-- What is too old stays so. -/
theorem live_live (h : now ≤ now') : live w now' (live w now times) = live w now' times := by
  rw [live, live, List.filter_filter]
  refine List.filter_congr fun t _ => ?_
  rw [← Bool.decide_and, decide_eq_decide]
  omega

theorem live_eq_of_live_eq {times' : List ℕ} (h : live w now times = live w now times')
    (hle : now ≤ now') : live w now' times = live w now' times' := by
  rw [← live_live hle, h, live_live hle]

namespace Admitted

/-- The window that ends now, counted from its beginning. -/
theorem countP_le_live {start : ℕ} (hnow : now < start + w) :
    times.countP (fun t => start ≤ t ∧ t < start + w) ≤ (live w now times).length := by
  rw [live, ← List.countP_eq_length_filter]
  refine List.countP_mono_left fun t _ ht => ?_
  simp only [decide_eq_true_eq] at ht ⊢
  omega

theorem countP_le (h : Admitted w max times) (start : ℕ) :
    times.countP (fun t => start ≤ t ∧ t < start + w) ≤ max := by
  induction h with
  | nil => exact Nat.zero_le _
  | @snoc times now h hlast hroom ih =>
    rw [List.countP_append, List.countP_singleton]
    split_ifs with hin
    · -- the others of the window are still in the one that ends now
      have hle : times.countP (fun t => start ≤ t ∧ t < start + w) ≤ (live w now times).length :=
        countP_le_live (of_decide_eq_true hin).2
      omega
    · exact ih

theorem pos (h : Admitted w max times) (hne : times ≠ []) : 0 < max := by
  cases h with
  | nil => exact absurd rfl hne
  | snoc _ _ hroom => exact Nat.zero_lt_of_lt hroom

end Admitted

end SlidingWindow

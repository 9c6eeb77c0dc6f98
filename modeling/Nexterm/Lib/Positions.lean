/-
  Positions in a list, for a loop that walks a slice by an index.

  * `At`: what is left of a list from a position on; a lookup at the position reads its head.
-/
import Mathlib.Tactic.Common

namespace Nexterm

variable {α : Type} {data rest : List α} {i : ℕ} {a : α}

/-- The list from a position on. -/
structure At (data : List α) (i : ℕ) (rest : List α) : Prop where
  le : i ≤ data.length
  drop : data.drop i = rest

namespace At

theorem start (data : List α) : At data 0 data := ⟨Nat.zero_le _, rfl⟩

theorem length (h : At data i rest) : rest.length + i = data.length := by
  have hle := h.le
  rw [← h.drop, List.length_drop]
  omega

theorem nil (h : At data i []) : ¬i < data.length := by
  have hlen := h.length
  simp only [List.length_nil] at hlen
  omega

theorem lt (h : At data i (a :: rest)) : i < data.length := by
  have hlen := h.length
  simp only [List.length_cons] at hlen
  omega

/-- A lookup at an offset. -/
theorem getElem? (h : At data i rest) (k : ℕ) : data[i + k]? = rest[k]? := by
  rw [← h.drop, List.getElem?_drop]

theorem get (h : At data i (a :: rest)) : data[i]? = some a := h.getElem? 0

theorem next (h : At data i (a :: rest)) : At data (i + 1) rest := by
  refine ⟨h.lt, ?_⟩
  rw [← List.drop_drop, h.drop]
  rfl

end At

end Nexterm

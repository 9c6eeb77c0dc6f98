/-
  Lists that are overwritten at given positions.

  * `overwrite`: perform writes from left to right; a write past the end is ignored.
  * `getElem?_overwrite`: the last write to a position wins.
  * `Absorbed`: performing writes again changes nothing.  What has been written is absorbed
    (`absorbed_overwrite`), so is every later part of it (`Absorbed.of_append`), and it stays so
    when more is written after it (`Absorbed.overwrite`).
-/
import Mathlib.Data.List.Basic

namespace Overwrite

variable {α : Type}

/-- Perform the writes from left to right. -/
def overwrite (l : List α) (ws : List (ℕ × α)) : List α := ws.foldl (fun l w => l.set w.1 w.2) l

/-- The value of the last write to a position. -/
def lastWrite : List (ℕ × α) → ℕ → Option α
  | [], _ => none
  | w :: ws, i => (lastWrite ws i).or (if w.1 = i then some w.2 else none)

@[simp] theorem overwrite_nil (l : List α) : overwrite l [] = l := rfl

theorem overwrite_append (l : List α) (ws ws' : List (ℕ × α)) :
    overwrite l (ws ++ ws') = overwrite (overwrite l ws) ws' := List.foldl_append

@[simp] theorem length_overwrite (ws : List (ℕ × α)) :
    ∀ l : List α, (overwrite l ws).length = l.length := by
  induction ws with
  | nil => exact fun l => rfl
  | cons w ws ih => exact fun l => (ih _).trans List.length_set

theorem lastWrite_append (ws ws' : List (ℕ × α)) (i : ℕ) :
    lastWrite (ws ++ ws') i = (lastWrite ws' i).or (lastWrite ws i) := by
  induction ws with
  | nil => simp [lastWrite]
  | cons w ws ih => rw [List.cons_append, lastWrite, ih, lastWrite, Option.or_assoc]

/-- **The last write wins.** -/
theorem getElem?_overwrite (ws : List (ℕ × α)) : ∀ {l : List α} {i : ℕ}, i < l.length →
    (overwrite l ws)[i]? = (lastWrite ws i).or l[i]? := by
  induction ws with
  | nil => exact fun _ => rfl
  | cons w ws ih =>
    intro l i hi
    have hstep : (overwrite (l.set w.1 w.2) ws)[i]? = (lastWrite ws i).or (l.set w.1 w.2)[i]? :=
      ih (by rwa [List.length_set])
    rw [overwrite, List.foldl_cons, ← overwrite, hstep, lastWrite, Option.or_assoc]
    congr 1
    by_cases hw : w.1 = i
    · subst hw
      rw [List.getElem?_set_self hi, if_pos rfl, Option.some_or]
    · rw [List.getElem?_set_ne hw, if_neg hw, Option.none_or]

/-- Performing the writes changes nothing. -/
def Absorbed (ws : List (ℕ × α)) (l : List α) : Prop := overwrite l ws = l

theorem absorbed_iff {ws : List (ℕ × α)} {l : List α} :
    Absorbed ws l ↔ ∀ i, i < l.length → ∀ v, lastWrite ws i = some v → l[i]? = some v := by
  constructor
  · intro h i hi v hv
    rw [← h, getElem?_overwrite ws hi, hv, Option.some_or]
  · intro h
    refine List.ext_getElem? ?_
    intro i
    by_cases hi : i < l.length
    · rw [getElem?_overwrite ws hi]
      cases hv : lastWrite ws i with
      | none => rw [Option.none_or]
      | some v => rw [Option.some_or, h i hi v hv]
    · rw [List.getElem?_eq_none (by rw [length_overwrite]; omega),
        List.getElem?_eq_none (by omega)]

theorem absorbed_overwrite (ws : List (ℕ × α)) (l : List α) : Absorbed ws (overwrite l ws) := by
  rw [absorbed_iff]
  intro i hi v hv
  rw [length_overwrite] at hi
  rw [getElem?_overwrite ws hi, hv, Option.some_or]

/-- A later part of absorbed writes is absorbed. -/
theorem Absorbed.of_append {ws ws' : List (ℕ × α)} {l : List α} (h : Absorbed (ws ++ ws') l) :
    Absorbed ws' l := by
  rw [absorbed_iff] at h ⊢
  intro i hi v hv
  exact h i hi v (by rw [lastWrite_append, hv, Option.some_or])

/-- Absorbed writes stay absorbed when more is written, as long as that follows them. -/
theorem Absorbed.overwrite {ws : List (ℕ × α)} {l : List α} (h : Absorbed ws l)
    (ws' : List (ℕ × α)) : Absorbed (ws ++ ws') (overwrite l ws') := by
  rw [absorbed_iff] at h ⊢
  intro i hi v hv
  rw [length_overwrite] at hi
  rw [getElem?_overwrite ws' hi]
  rw [lastWrite_append] at hv
  cases hv' : lastWrite ws' i with
  | some w =>
    rw [hv', Option.some_or] at hv
    rw [Option.some_or, hv]
  | none =>
    rw [hv', Option.none_or] at hv
    rw [Option.none_or, h i hi v hv]

end Overwrite

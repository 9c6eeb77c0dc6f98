/-
  Occurrences of a word in a list.

  * `OccursAt`: the word occurs at a position; `occursAt_iff` reads the occurrence letter by letter.
  * `occursAt_append_word`: a word whose first letter is nowhere else in it cannot overlap itself,
    so appending it adds the one occurrence at the end.
  * `occursAt_prefix_append`: a different word of the same length in front of a list adds none.
-/
import Mathlib.Data.List.Infix

namespace Words

variable {α : Type}

/-- The word `w` occurs in `l` at the position `i`. -/
def OccursAt (w l : List α) (i : ℕ) : Prop := w <+: l.drop i

variable {w l p t : List α} {a : α} {i : ℕ}

theorem occursAt_iff : OccursAt w l i ↔ ∀ j < w.length, l[i + j]? = w[j]? := by
  rw [OccursAt, List.prefix_iff_getElem?]
  constructor
  · intro h j hj
    rw [List.getElem?_eq_getElem hj, ← h j hj, List.getElem?_drop]
  · intro h j hj
    rw [List.getElem?_drop, h j hj, List.getElem?_eq_getElem hj]

theorem infix_iff_occursAt : w <:+: l ↔ ∃ i, OccursAt w l i := by
  constructor
  · rintro ⟨s, t, rfl⟩
    refine ⟨s.length, ?_⟩
    rw [OccursAt, List.append_assoc, List.drop_left]
    exact List.prefix_append w t
  · rintro ⟨i, h⟩
    exact h.isInfix.trans (List.drop_suffix i l).isInfix

/-- An occurrence of a nonempty word starts with its first letter and stays inside the list. -/
theorem OccursAt.head (h : OccursAt (a :: t) l i) : l[i]? = some a :=
  occursAt_iff.1 h 0 (Nat.succ_pos _)

theorem OccursAt.le (h : OccursAt w l i) (hw : w ≠ []) : i + w.length ≤ l.length := by
  have hlen := List.IsPrefix.length_le h
  have hpos := List.length_pos_of_ne_nil hw
  rw [List.length_drop] at hlen
  omega

/-- Every occurrence in front of a list is one in the longer list. -/
theorem occursAt_append_of_le (r : List α) (hi : i + w.length ≤ l.length) :
    OccursAt w (l ++ r) i ↔ OccursAt w l i := by
  rw [occursAt_iff, occursAt_iff]
  refine forall₂_congr fun j hj => ?_
  rw [List.getElem?_append_left (by omega)]

/-- A word whose first letter occurs nowhere else in it. -/
theorem occursAt_append_word (ha : a ∉ t) :
    OccursAt (a :: t) (l ++ (a :: t)) i ↔ OccursAt (a :: t) l i ∨ i = l.length := by
  constructor
  · intro h
    by_cases hin : i + (a :: t).length ≤ l.length
    · exact Or.inl ((occursAt_append_of_le _ hin).1 h)
    rcases lt_trichotomy i l.length with hlt | heq | hgt
    · -- the first letter of the appended word would be a later letter of the occurrence
      exfalso
      obtain ⟨j, hj⟩ : ∃ j, l.length = i + (j + 1) := ⟨l.length - i - 1, by omega⟩
      have hjlt : j + 1 < (a :: t).length := by omega
      have hletter := occursAt_iff.1 h (j + 1) hjlt
      rw [← hj, List.getElem?_append_right le_rfl, Nat.sub_self, List.getElem?_cons_zero,
        List.getElem?_cons_succ] at hletter
      exact ha (List.mem_of_getElem? hletter.symm)
    · exact Or.inr heq
    · -- the first letter of the occurrence would be a later letter of the appended word
      exfalso
      obtain ⟨j, rfl⟩ : ∃ j, i = l.length + (j + 1) := ⟨i - l.length - 1, by omega⟩
      have hletter := h.head
      rw [List.getElem?_append_right (by omega), Nat.add_sub_cancel_left,
        List.getElem?_cons_succ] at hletter
      exact ha (List.mem_of_getElem? hletter)
  · rintro (h | rfl)
    · exact (occursAt_append_of_le _ (h.le (List.cons_ne_nil _ _))).2 h
    · rw [OccursAt, List.drop_left]

/-- A different word of the same length, with the same first letter nowhere else in it. -/
theorem occursAt_prefix_append {s : List α} (hlen : s.length = t.length) (ha : a ∉ s)
    (hne : s ≠ t) : OccursAt (a :: t) ((a :: s) ++ l) i ↔
      (a :: s).length ≤ i ∧ OccursAt (a :: t) l (i - (a :: s).length) := by
  have hdrop : (a :: s).length ≤ i →
      ((a :: s) ++ l).drop i = l.drop (i - (a :: s).length) := fun hi => by
    rw [List.drop_append, List.drop_eq_nil_of_le hi, List.nil_append]
  constructor
  · intro h
    by_cases hi : (a :: s).length ≤ i
    · refine ⟨hi, ?_⟩
      rwa [OccursAt, hdrop hi] at h
    exfalso
    cases i with
    | zero =>
      rw [OccursAt, List.drop_zero] at h
      have hs : a :: s <+: (a :: s) ++ l := List.prefix_append _ _
      have := List.prefix_of_prefix_length_le h hs (by simp [hlen])
      exact hne (List.cons.inj (this.eq_of_length (by simp [hlen]))).2.symm
    | succ i =>
      have hletter := h.head
      rw [List.getElem?_append_left (by omega), List.getElem?_cons_succ] at hletter
      exact ha (List.mem_of_getElem? hletter)
  · rintro ⟨hi, h⟩
    rwa [OccursAt, hdrop hi]

end Words

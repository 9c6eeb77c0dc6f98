/-
  Intervals of which some numbers are skipped.

  * `kept p a b`: the numbers from `a` up to `b` that satisfy `p`, in order.
  * `getElem?_kept`: a number stands behind the kept numbers that are below it.
  * `length_kept_eq_iff`: as many are kept as there are, exactly if none is skipped.
-/
import Mathlib.Algebra.Order.Ring.Nat
import Mathlib.Data.List.Basic
import Mathlib.Data.List.Nodup
import Mathlib.Tactic.Common

namespace Nexterm.Skips

variable {p : ℕ → Bool} {a b c k r : ℕ}

/-- The numbers from `a` up to `b` that are kept. -/
def kept (p : ℕ → Bool) (a b : ℕ) : List ℕ := (List.range' a (b - a)).filter p

theorem mem_kept : r ∈ kept p a b ↔ a ≤ r ∧ r < b ∧ p r = true := by
  rw [kept, List.mem_filter, List.mem_range'_1]
  constructor
  · rintro ⟨⟨hle, hlt⟩, hr⟩
    exact ⟨hle, by omega, hr⟩
  · rintro ⟨hle, hlt, hr⟩
    exact ⟨⟨hle, by omega⟩, hr⟩

theorem kept_eq_nil (h : b ≤ a) : kept p a b = [] := by
  rw [kept, Nat.sub_eq_zero_of_le h]
  rfl

theorem kept_append (hac : a ≤ c) (hcb : c ≤ b) : kept p a b = kept p a c ++ kept p c b := by
  have hrange : List.range' a (b - a) = List.range' a (c - a) ++ List.range' c (b - c) := by
    have happend := List.range'_append_1 (s := a) (m := c - a) (n := b - c)
    rw [show a + (c - a) = c by omega, show c - a + (b - c) = b - a by omega] at happend
    exact happend.symm
  rw [kept, hrange, List.filter_append]
  rfl

theorem kept_of_kept (hab : a < b) (ha : p a = true) : kept p a b = a :: kept p (a + 1) b := by
  rw [kept, show b - a = b - (a + 1) + 1 by omega, List.range'_succ, List.filter_cons_of_pos ha]
  rfl

theorem kept_of_skipped (ha : p a = false) : kept p a b = kept p (a + 1) b := by
  by_cases hab : a < b
  · rw [kept, show b - a = b - (a + 1) + 1 by omega, List.range'_succ,
      List.filter_cons_of_neg (by simp [ha])]
    rfl
  · rw [kept_eq_nil (not_lt.1 hab), kept_eq_nil (Nat.le_succ_of_le (not_lt.1 hab))]

theorem sorted_kept : (kept p a b).Pairwise (· < ·) :=
  List.Pairwise.filter _ List.pairwise_lt_range'

theorem length_kept_le : (kept p a b).length ≤ b - a :=
  (List.length_filter_le _ _).trans_eq List.length_range'

theorem length_kept_mono (hac : a ≤ c) (hcb : c ≤ b) :
    (kept p a c).length ≤ (kept p a b).length := by
  rw [kept_append hac hcb, List.length_append]
  exact Nat.le_add_right _ _

/-- None is skipped if and only if all are kept. -/
theorem length_kept_eq_iff :
    (kept p a b).length = b - a ↔ ∀ r, a ≤ r → r < b → p r = true := by
  have hfilter : (kept p a b).length = b - a ↔ ∀ r ∈ List.range' a (b - a), p r = true := by
    rw [← List.length_filter_eq_length_iff, List.length_range']
    rfl
  rw [hfilter]
  constructor
  · exact fun h r hle hlt => h r (List.mem_range'_1.2 ⟨hle, by omega⟩)
  · intro h r hr
    obtain ⟨hle, hlt⟩ := List.mem_range'_1.1 hr
    exact h r hle (by omega)

/-- A number stands behind the kept numbers below it. -/
theorem getElem?_kept :
    (kept p a b)[k]? = some r ↔ a ≤ r ∧ r < b ∧ p r = true ∧ (kept p a r).length = k := by
  have hplace : a ≤ r → r < b → p r = true → (kept p a b)[(kept p a r).length]? = some r := by
    intro hle hlt hr
    rw [kept_append hle hlt.le, kept_of_kept hlt hr, List.getElem?_append_right le_rfl,
      Nat.sub_self]
    rfl
  constructor
  · intro h
    obtain ⟨hle, hlt, hr⟩ := mem_kept.1 (List.mem_of_getElem? h)
    have hnodup : (kept p a b).Nodup := sorted_kept.imp ne_of_lt
    have hindex := (List.getElem?_eq_some_iff.1 (hplace hle hlt hr)).1
    exact ⟨hle, hlt, hr, (List.getElem?_inj hindex hnodup).1 ((hplace hle hlt hr).trans h.symm)⟩
  · rintro ⟨hle, hlt, hr, rfl⟩
    exact hplace hle hlt hr

end Nexterm.Skips

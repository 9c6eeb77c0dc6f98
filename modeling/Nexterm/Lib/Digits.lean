/-
  Numbers in texts, in decimal.

  * `isDigit_toString`, `toString_inj`: the digits of a number.
  * `digits_append_inj`: numbers in front of texts that do not begin with a digit.
-/
import Mathlib.Data.Nat.Notation
import Mathlib.Tactic.Common

namespace Digits

theorem isDigit_toString {n : ℕ} {c : Char} (hc : c ∈ (toString n).toList) : c.isDigit := by
  rw [Nat.toString_eq_repr, Nat.toList_repr] at hc
  exact Nat.isDigit_of_mem_toDigits (by decide) (by decide) hc

theorem toString_inj {i j : ℕ} (h : (toString i).toList = (toString j).toList) : i = j := by
  rw [Nat.toString_eq_repr, Nat.toString_eq_repr, Nat.toList_repr, Nat.toList_repr] at h
  have hvalue := congrArg (Nat.ofDigitChars 10 · 0) h
  rwa [Nat.ofDigitChars_toDigits (by decide) (by decide),
    Nat.ofDigitChars_toDigits (by decide) (by decide)] at hvalue

/-- The number in front of a text is its longest run of digits. -/
theorem takeWhile_toString_append {n : ℕ} {rest : List Char}
    (h : rest.takeWhile Char.isDigit = []) :
    ((toString n).toList ++ rest).takeWhile Char.isDigit = (toString n).toList := by
  rw [List.takeWhile_append_of_pos fun c hc => isDigit_toString hc, h, List.append_nil]

theorem digits_append_inj {i j : ℕ} {rest rest' : List Char}
    (hrest : rest.takeWhile Char.isDigit = []) (hrest' : rest'.takeWhile Char.isDigit = []) :
    (toString i).toList ++ rest = (toString j).toList ++ rest' ↔ i = j ∧ rest = rest' := by
  constructor
  · intro h
    have hdigits := congrArg (List.takeWhile Char.isDigit) h
    rw [takeWhile_toString_append hrest, takeWhile_toString_append hrest'] at hdigits
    obtain rfl := toString_inj hdigits
    exact ⟨rfl, List.append_cancel_left h⟩
  · rintro ⟨rfl, rfl⟩
    rfl

end Digits

/-
  Lists of computations that may fail.

  * `mapM_eq_some_iff`: what comes out if none fails; `exists_mapM_iff`: when none does.
  * `mem_of_mapM`: each result is that of one of the computations.
-/
import Mathlib.Data.List.Basic
import Mathlib.Tactic.Common

namespace Fallible

variable {α β : Type} {f : α → Option β} {l : List α} {l' : List β}

theorem mapM_eq_some_iff :
    l.mapM f = some l' ↔ l.map f = l'.map some := by
  induction l generalizing l' with
  | nil => cases l' <;> simp
  | cons a l ih =>
    rw [List.mapM_cons, List.map_cons]
    cases ha : f a with
    | none => cases l' <;> simp
    | some b =>
      cases l' with
      | nil => cases hl : l.mapM f <;> simp
      | cons b' l' => cases hl : l.mapM f <;> simp [← ih, hl]

theorem exists_mapM_iff :
    (∃ l', l.mapM f = some l') ↔ ∀ a ∈ l, (f a).isSome := by
  simp only [mapM_eq_some_iff]
  constructor
  · rintro ⟨l', h⟩ a ha
    have hmem : f a ∈ l'.map some := h ▸ List.mem_map_of_mem ha
    obtain ⟨b, -, hb⟩ := List.mem_map.1 hmem
    rw [← hb, Option.isSome_some]
  · intro h
    induction l with
    | nil => exact ⟨[], rfl⟩
    | cons a l ih =>
      obtain ⟨b, hb⟩ := Option.isSome_iff_exists.1 (h a List.mem_cons_self)
      obtain ⟨l', hl'⟩ := ih fun a ha => h a (List.mem_cons_of_mem _ ha)
      exact ⟨b :: l', by rw [List.map_cons, hb, hl', List.map_cons]⟩

theorem mem_of_mapM (h : l.mapM f = some l') {b : β} (hb : b ∈ l') : ∃ a ∈ l, f a = some b := by
  have hmem : some b ∈ l.map f := mapM_eq_some_iff.1 h ▸ List.mem_map_of_mem hb
  exact List.mem_map.1 hmem

end Fallible

/-
  Records of records: fields at the top and in sections, by name, and what a list of updates of
  single fields does to them.

  * `Separate`: two fields neither of which is, or is in, the other.
  * `read_foldl_of_separate`: updates of other fields leave a field alone.
  * `read_foldl`: a field that is updated once holds what its update makes of it.
-/
import Mathlib.Tactic.Common

namespace Nested

/-- A field at the top, or in a section. -/
abbrev Name := Option String × String

/-- Different fields, and a field at the top is not the section of the other. -/
def Separate (n n' : Name) : Prop :=
  n ≠ n' ∧ (n'.1 = none → n.1 ≠ some n'.2) ∧ (n.1 = none → n'.1 ≠ some n.2)

instance (n n' : Name) : Decidable (Separate n n') := inferInstanceAs (Decidable (_ ∧ _ ∧ _))

theorem Separate.symm {n n' : Name} (h : Separate n n') : Separate n' n := ⟨h.1.symm, h.2.2, h.2.1⟩

instance : Std.Symm Separate := ⟨fun _ _ => Separate.symm⟩

section

variable {σ υ β : Type} (read : σ → Name → β) (name : υ → Name) {update : σ → υ → σ}
  (hsep : ∀ (s : σ) (u : υ) (n : Name), Separate (name u) n → read (update s u) n = read s n)

include hsep

theorem read_foldl_of_separate (s : σ) {us : List υ} {n : Name}
    (h : ∀ m ∈ us.map name, Separate m n) : read (us.foldl update s) n = read s n := by
  induction us generalizing s with
  | nil => rfl
  | cons u us ih =>
    obtain ⟨hu, h⟩ := List.forall_mem_cons.1 h
    rw [List.foldl_cons, ih (update s u) h, hsep s u n hu]

/-- What is read after some updates is what was written. -/
theorem read_foldl (written : υ → β → β)
    (hself : ∀ (s : σ) (u : υ), read (update s u) (name u) = written u (read s (name u))) (s : σ)
    {us : List υ} (h : (us.map name).Pairwise Separate) {u : υ} (hu : u ∈ us) :
    read (us.foldl update s) (name u) = written u (read s (name u)) := by
  induction us generalizing s with
  | nil => cases hu
  | cons u₀ us ih =>
    obtain ⟨hu₀, h⟩ := List.pairwise_cons.1 h
    rw [List.foldl_cons]
    rcases List.mem_cons.1 hu with rfl | hu
    · rw [read_foldl_of_separate read name hsep (update s u) fun m hm => (hu₀ m hm).symm, hself]
    · rw [ih (update s u₀) h hu, hsep s u₀ _ (hu₀ _ (List.mem_map_of_mem hu))]

end

end Nested

/-
  Computations that change a state and may fail; the state is kept when they do.

  * `final`: the state at the end, of a success or of a failure.
  * `Keeps I m`: from a state with `I`, `m` ends in one with `I`; closed under the operations.
-/
import Mathlib.Tactic.Common

namespace Effects

variable {ε σ α β : Type} {I : σ → Prop}

/-- The state at the end. -/
def final : EStateM.Result ε σ α → σ
  | .ok _ s => s
  | .error _ s => s

/-- `m` preserves `I`, also when it fails. -/
def Keeps (I : σ → Prop) (m : EStateM ε σ α) : Prop := ∀ s, I s → I (final (m s))

theorem keeps_pure (a : α) : Keeps I (pure a : EStateM ε σ α) := fun _ hs => hs

theorem keeps_throw (e : ε) : Keeps I (throw e : EStateM ε σ α) := fun _ hs => hs

theorem keeps_bind {m : EStateM ε σ α} {f : α → EStateM ε σ β} (hm : Keeps I m)
    (hf : ∀ a, Keeps I (f a)) : Keeps I (m >>= f) := by
  intro s hs
  have hstep := hm s hs
  simp only [bind, EStateM.bind]
  cases hrun : m s with
  | ok a s' =>
    rw [hrun] at hstep
    exact hf a s' hstep
  | error e s' =>
    rw [hrun] at hstep
    exact hstep

theorem keeps_ite {p : Prop} [Decidable p] {m m' : EStateM ε σ α} (hm : Keeps I m)
    (hm' : Keeps I m') : Keeps I (if p then m else m') := by
  split_ifs
  · exact hm
  · exact hm'

/-- After a first step that may fail, what it establishes is preserved. -/
theorem final_bind {m : EStateM ε σ α} {f : α → EStateM ε σ β} {s : σ} (hm : I (final (m s)))
    (hf : ∀ a, Keeps I (f a)) : I (final ((m >>= f) s)) := by
  simp only [bind, EStateM.bind]
  cases hrun : m s with
  | ok a s' =>
    rw [hrun] at hm
    exact hf a s' hm
  | error e s' =>
    rw [hrun] at hm
    exact hm

end Effects

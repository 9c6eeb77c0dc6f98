/-
  Loops.

  * `run`: at most so many rounds of a loop.
  * `exists_run`: a loop whose measure goes down ends, in a state in which the body stops.
  * `run_inv`: what the body keeps.
-/
import Mathlib.Data.Nat.Notation
import Mathlib.Tactic.Common

namespace While

variable {σ : Type} (body : σ → Option σ)

/-- At most `fuel` rounds of a loop, whose body is `none` where it stops; `none` if it has not
    stopped by then. -/
def run : ℕ → σ → Option σ
  | 0, s => if (body s).isNone then some s else none
  | fuel + 1, s =>
    match body s with
    | none => some s
    | some s' => run fuel s'

variable {body}

theorem exists_run {μ : σ → ℕ} (hμ : ∀ s s', body s = some s' → μ s' < μ s) {fuel : ℕ} {s : σ}
    (h : μ s ≤ fuel) : ∃ s', run body fuel s = some s' ∧ body s' = none := by
  induction fuel generalizing s with
  | zero =>
    have hstop : body s = none := by
      by_contra hsome
      obtain ⟨s', hs'⟩ := Option.ne_none_iff_exists'.1 hsome
      have hlt := hμ s s' hs'
      omega
    exact ⟨s, by rw [run, hstop]; rfl, hstop⟩
  | succ fuel ih =>
    cases hbody : body s with
    | none => exact ⟨s, by rw [run, hbody], hbody⟩
    | some s₁ =>
      have hlt := hμ s s₁ hbody
      obtain ⟨s', hrun, hstop⟩ := ih (s := s₁) (by omega)
      exact ⟨s', by rw [run, hbody]; exact hrun, hstop⟩

theorem run_inv {I : σ → Prop} (hI : ∀ s s', I s → body s = some s' → I s') {fuel : ℕ} {s s' : σ}
    (hs : I s) (h : run body fuel s = some s') : I s' := by
  induction fuel generalizing s with
  | zero =>
    rw [run] at h
    split_ifs at h
    obtain rfl := Option.some.inj h
    exact hs
  | succ fuel ih =>
    rw [run] at h
    split at h
    · obtain rfl := Option.some.inj h
      exact hs
    · next s₁ hbody => exact ih (hI s s₁ hs hbody) h

end While

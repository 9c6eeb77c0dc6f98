/-
  Runs of a machine that puts something out at some steps.

  * `outputs`: what a run puts out, in its order.
  * `run_trail`: a property of the operations so far, the state and the outputs so far, from what
    one step does to it.
  * `Since`: something has happened in a run, and ever since all operations met a condition;
    `since_concat`: what the next operation does to it.
  * `Sublist.snoc`: a chain of operations of a run is longer by the next one.
-/
import Mathlib.Data.List.Induction
import Nexterm.Lib.Runs

namespace Runs

variable {σ ο β : Type} (step : σ → ο → σ) (emit : σ → ο → List β)

/-- What the operations `ops` put out. -/
def outputs : σ → List ο → List β
  | _, [] => []
  | s, o :: os => emit s o ++ outputs (step s o) os

variable {step emit}

theorem outputs_append (s : σ) (ops ops' : List ο) :
    outputs step emit s (ops ++ ops') =
      outputs step emit s ops ++ outputs step emit (run step s ops) ops' := by
  induction ops generalizing s with
  | nil => rfl
  | cons o ops ih =>
    show emit s o ++ outputs step emit (step s o) (ops ++ ops') = _
    rw [ih, ← List.append_assoc]
    rfl

theorem outputs_concat (s : σ) (ops : List ο) (o : ο) :
    outputs step emit s (ops ++ [o]) = outputs step emit s ops ++ emit (run step s ops) o := by
  rw [outputs_append]
  exact congrArg _ (List.append_nil _)

theorem run_concat (s : σ) (ops : List ο) (o : ο) :
    run step s (ops ++ [o]) = step (run step s ops) o := by
  rw [run_append]
  rfl

/-- A property that every step of a run keeps, told by all operations and outputs so far. -/
theorem run_trail {I : List ο → σ → List β → Prop} {s : σ} {ops : List ο} (hstart : I [] s [])
    (hstep : ∀ pre o, pre ++ [o] <+: ops →
      I pre (run step s pre) (outputs step emit s pre) →
        I (pre ++ [o]) (step (run step s pre) o)
          (outputs step emit s pre ++ emit (run step s pre) o)) :
    I ops (run step s ops) (outputs step emit s ops) := by
  induction ops using List.reverseRecOn with
  | nil => exact hstart
  | append_singleton ops o ih =>
    rw [run_concat, outputs_concat]
    refine hstep ops o (List.prefix_refl _) (ih fun pre o' hpre => ?_)
    exact hstep pre o' (hpre.trans (List.prefix_append _ _))

/-- What is read off the outputs is among what is read off the operations. -/
theorem outputs_filterMap_sublist {γ : Type} {f : β → Option γ} {g : ο → Option γ}
    (h : ∀ s o, ((emit s o).filterMap f).Sublist (g o).toList) (s : σ) (ops : List ο) :
    ((outputs step emit s ops).filterMap f).Sublist (ops.filterMap g) := by
  induction ops generalizing s with
  | nil => exact List.Sublist.refl _
  | cons o ops ih =>
    rw [outputs, List.filterMap_append]
    have hcons : (o :: ops).filterMap g = (g o).toList ++ ops.filterMap g := by
      cases hg : g o with
      | none => exact List.filterMap_cons_none hg
      | some c => exact List.filterMap_cons_some hg
    rw [hcons]
    exact (h s o).append (ih (step s o))

/-! ## Ever since -/

variable (step) in
/-- An operation has met `E`, and every operation after it has met `Q`. -/
def Since (E Q : σ → ο → Prop) (s : σ) (ops : List ο) : Prop :=
  ∃ pre o mid, ops = pre ++ o :: mid ∧ E (run step s pre) o ∧
    Along step Q (run step s (pre ++ [o])) mid

theorem along_concat {Q : σ → ο → Prop} (s : σ) (ops : List ο) (o : ο) :
    Along step Q s (ops ++ [o]) ↔ Along step Q s ops ∧ Q (run step s ops) o := by
  induction ops generalizing s with
  | nil => exact ⟨fun h => ⟨trivial, h.1⟩, fun h => ⟨h.2, trivial⟩⟩
  | cons o' ops ih =>
    show _ ∧ Along step Q (step s o') (ops ++ [o]) ↔ (_ ∧ _) ∧ _
    rw [ih, and_assoc]
    rfl

theorem not_since_nil {E Q : σ → ο → Prop} (s : σ) : ¬Since step E Q s [] := by
  rintro ⟨pre, o, mid, hops, -⟩
  simp at hops

/-- The next operation meets `E`, or it meets `Q` and one before it has met `E`. -/
theorem since_concat {E Q : σ → ο → Prop} (s : σ) (ops : List ο) (o : ο) :
    Since step E Q s (ops ++ [o]) ↔
      E (run step s ops) o ∨ (Since step E Q s ops ∧ Q (run step s ops) o) := by
  constructor
  · rintro ⟨pre, o', mid, hops, hE, hQ⟩
    rcases mid.eq_nil_or_concat with rfl | ⟨mid, last, rfl⟩
    · obtain ⟨rfl, hlast⟩ := List.append_inj' hops rfl
      obtain rfl := List.singleton_inj.1 hlast
      exact .inl hE
    · rw [List.concat_eq_append] at hops hQ
      rw [← List.cons_append, ← List.append_assoc] at hops
      obtain ⟨rfl, hlast⟩ := List.append_inj' hops rfl
      obtain rfl := List.singleton_inj.1 hlast
      obtain ⟨hmid, hlast⟩ := (along_concat _ mid o).1 hQ
      refine .inr ⟨⟨pre, o', mid, rfl, hE, hmid⟩, ?_⟩
      rw [← run_append, List.append_assoc] at hlast
      exact hlast
  · rintro (hE | ⟨⟨pre, o', mid, rfl, hE, hQ⟩, hlast⟩)
    · exact ⟨ops, o, [], rfl, hE, trivial⟩
    · refine ⟨pre, o', mid ++ [o], by simp, hE, (along_concat _ mid o).2 ⟨hQ, ?_⟩⟩
      rw [← run_append, List.append_assoc]
      exact hlast

end Runs

theorem List.Sublist.snoc {ο : Type} {chain ops : List ο} (h : chain.Sublist ops) (o : ο) :
    (chain ++ [o]).Sublist (ops ++ [o]) := h.append (List.Sublist.refl _)

theorem List.Sublist.later {ο : Type} {chain ops : List ο} (h : chain.Sublist ops) (o : ο) :
    chain.Sublist (ops ++ [o]) := h.trans (List.sublist_append_left _ _)

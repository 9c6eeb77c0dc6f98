/-
  Runs of a deterministic machine: a state, a list of operations and a step function.

  * `Always`: a property holds of every state of a run.
  * `Along`: every operation of a run meets a condition in the state it is applied to.
  * `always_of_along`, `always_iff_along`: from what one step does to what a run does.  When
    the condition is exact for one step, it is exact for every run.
-/
import Mathlib.Data.List.Basic

namespace Runs

variable {σ ο : Type} (step : σ → ο → σ)

/-- The state after the operations `ops`. -/
def run (s : σ) (ops : List ο) : σ := ops.foldl step s

/-- `P` holds of every state of the run, the first and the last one included. -/
def Always (P : σ → Prop) : σ → List ο → Prop
  | s, [] => P s
  | s, o :: os => P s ∧ Always P (step s o) os

/-- Every operation of the run meets `C` in the state it is applied to. -/
def Along (C : σ → ο → Prop) : σ → List ο → Prop
  | _, [] => True
  | s, o :: os => C s o ∧ Along C (step s o) os

variable {step} {P : σ → Prop} {C : σ → ο → Prop}

theorem run_append (s : σ) (ops ops' : List ο) :
    run step s (ops ++ ops') = run step (run step s ops) ops' := List.foldl_append

theorem Always.head {s : σ} : ∀ {ops : List ο}, Always step P s ops → P s
  | [], h => h
  | _ :: _, h => h.1

theorem Always.last : ∀ {s : σ} {ops : List ο}, Always step P s ops → P (run step s ops)
  | _, [], h => h
  | s, o :: _, h => Always.last (s := step s o) h.2

theorem Always.imp {Q : σ → Prop} (h : ∀ s, P s → Q s) :
    ∀ {s : σ} {ops : List ο}, Always step P s ops → Always step Q s ops
  | s, [], hp => h s hp
  | s, _ :: _, hp => ⟨h s hp.1, hp.2.imp h⟩

theorem Always.and {Q : σ → Prop} : ∀ {s : σ} {ops : List ο}, Always step P s ops →
    Always step Q s ops → Always step (fun s => P s ∧ Q s) s ops
  | _, [], hp, hq => ⟨hp, hq⟩
  | _, _ :: _, hp, hq => ⟨⟨hp.1, hq.1⟩, hp.2.and hq.2⟩

theorem always_of_along (hstep : ∀ s o, P s → C s o → P (step s o)) :
    ∀ {s : σ} {ops : List ο}, P s → Along step C s ops → Always step P s ops
  | _, [], h, _ => h
  | s, o :: _, h, hc => ⟨h, always_of_along hstep (hstep s o h hc.1) hc.2⟩

theorem along_of_always (hstep : ∀ s o, P s → P (step s o) → C s o) :
    ∀ {s : σ} {ops : List ο}, Always step P s ops → Along step C s ops
  | _, [], _ => trivial
  | s, o :: _, h => ⟨hstep s o h.1 h.2.head, along_of_always hstep h.2⟩

/-- **A condition that is exact for one step is exact for every run.** -/
theorem always_iff_along {s : σ} {ops : List ο}
    (hstep : ∀ s o, P s → (P (step s o) ↔ C s o)) (h : P s) :
    Always step P s ops ↔ Along step C s ops :=
  ⟨along_of_always fun s o hs => (hstep s o hs).1,
    always_of_along (fun s o hs => (hstep s o hs).2) h⟩

theorem run_inv (hstep : ∀ s o, P s → P (step s o)) :
    ∀ {s : σ} {ops : List ο}, P s → P (run step s ops)
  | _, [], h => h
  | s, o :: _, h => run_inv (s := step s o) hstep (hstep s o h)

/-- Two conditions that agree wherever an invariant holds agree along every run. -/
theorem along_congr {I : σ → Prop} {D : σ → ο → Prop} (hI : ∀ s o, I s → I (step s o))
    (h : ∀ s o, I s → (C s o ↔ D s o)) :
    ∀ {s : σ} {ops : List ο}, I s → (Along step C s ops ↔ Along step D s ops)
  | _, [], _ => Iff.rfl
  | s, o :: _, hs => and_congr (h s o hs) (along_congr hI h (hI s o hs))

/-- Two conditions that agree wherever `P` holds agree along every run, if the first one keeps
    `P`. -/
theorem along_iff {D : σ → ο → Prop} (hP : ∀ s o, P s → C s o → P (step s o))
    (h : ∀ s o, P s → (C s o ↔ D s o)) :
    ∀ {s : σ} {ops : List ο}, P s → (Along step C s ops ↔ Along step D s ops)
  | _, [], _ => Iff.rfl
  | s, o :: os, hs => by
    constructor
    · rintro ⟨hc, hrest⟩
      exact ⟨(h s o hs).1 hc, (along_iff hP h (hP s o hs hc)).1 hrest⟩
    · rintro ⟨hd, hrest⟩
      have hc := (h s o hs).2 hd
      exact ⟨hc, (along_iff hP h (hP s o hs hc)).2 hrest⟩

/-- A condition that is exact for one step wherever an invariant holds is exact for every run. -/
theorem always_iff_along_of_inv {I : σ → Prop} (hI : ∀ s o, I s → I (step s o))
    (hstep : ∀ s o, I s → P s → (P (step s o) ↔ C s o)) :
    ∀ {s : σ} {ops : List ο}, I s → P s → (Always step P s ops ↔ Along step C s ops)
  | _, [], _, h => iff_of_true h trivial
  | s, o :: os, hi, h => by
    constructor
    · rintro ⟨-, hrest⟩
      exact ⟨(hstep s o hi h).1 hrest.head,
        (always_iff_along_of_inv hI hstep (hI s o hi) hrest.head).1 hrest⟩
    · rintro ⟨hc, hrest⟩
      have hnext := (hstep s o hi h).2 hc
      exact ⟨h, (always_iff_along_of_inv hI hstep (hI s o hi) hnext).2 hrest⟩

theorem along_of_forall {D : ο → Prop} : ∀ {s : σ} {ops : List ο}, (∀ o ∈ ops, D o) →
    Along step (fun _ o => D o) s ops
  | _, [], _ => trivial
  | _, o :: _, h =>
    ⟨h o List.mem_cons_self, along_of_forall fun o' ho' => h o' (List.mem_cons_of_mem _ ho')⟩

theorem Along.and {D : σ → ο → Prop} : ∀ {s : σ} {ops : List ο}, Along step C s ops →
    Along step D s ops → Along step (fun s o => C s o ∧ D s o) s ops
  | _, [], _, _ => trivial
  | _, _ :: _, hc, hd => ⟨⟨hc.1, hd.1⟩, hc.2.and hd.2⟩

theorem Along.imp {D : σ → ο → Prop} (h : ∀ s o, C s o → D s o) :
    ∀ {s : σ} {ops : List ο}, Along step C s ops → Along step D s ops
  | _, [], _ => trivial
  | s, o :: _, hc => ⟨h s o hc.1, hc.2.imp h⟩

/-- A condition that implies another one wherever an invariant holds does so along every run. -/
theorem Along.imp_of_inv {I : σ → Prop} {D : σ → ο → Prop} (hI : ∀ s o, I s → I (step s o))
    (h : ∀ s o, I s → C s o → D s o) :
    ∀ {s : σ} {ops : List ο}, I s → Along step C s ops → Along step D s ops
  | _, [], _, _ => trivial
  | s, o :: _, hs, hc => ⟨h s o hs hc.1, Along.imp_of_inv hI h (hI s o hs) hc.2⟩

theorem Along.forget {τ : Type} {step' : τ → ο → τ} {f : σ → τ} {D : τ → ο → Prop}
    (hf : ∀ s o, f (step s o) = step' (f s) o) : ∀ {s : σ} {ops : List ο},
    Along step (fun s => D (f s)) s ops → Along step' D (f s) ops
  | _, [], _ => trivial
  | s, o :: _, h => ⟨h.1, hf s o ▸ h.2.forget hf⟩

/-- Forgetting a history variable: a run of the machine with it is a run of the one without. -/
theorem Always.forget {τ : Type} {step' : τ → ο → τ} {f : σ → τ} {Q : τ → Prop}
    (hf : ∀ s o, f (step s o) = step' (f s) o) : ∀ {s : σ} {ops : List ο},
    Always step (fun s => Q (f s)) s ops → Always step' Q (f s) ops
  | _, [], h => h
  | s, o :: _, h => ⟨h.1, hf s o ▸ h.2.forget hf⟩

end Runs

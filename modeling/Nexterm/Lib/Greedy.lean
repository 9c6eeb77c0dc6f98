/-
  Greedy selection: of the elements of a list each is kept that clashes with none kept before it.
-/
import Mathlib.Data.List.Basic
import Mathlib.Tactic.Common

namespace Greedy

variable {α : Type} (clash : α → α → Bool)

/-- Keep the element unless it clashes with one that is kept. -/
def push (kept : List α) (x : α) : List α := if kept.any (clash x) then kept else kept ++ [x]

def select (l : List α) : List α := l.foldl (push clash) []

variable {clash}

theorem prefix_push (kept : List α) (x : α) : kept <+: push clash kept x := by
  unfold push
  split_ifs
  · exact List.prefix_rfl
  · exact List.prefix_append kept [x]

theorem prefix_foldl (l kept : List α) : kept <+: l.foldl (push clash) kept := by
  induction l generalizing kept with
  | nil => exact List.prefix_rfl
  | cons x l ih => exact (prefix_push kept x).trans (ih _)

/-- What is kept of a list stays, whatever comes after it. -/
theorem select_prefix (l l' : List α) : select clash l <+: select clash (l ++ l') := by
  rw [select, select, List.foldl_append]
  exact prefix_foldl l' _

theorem pairwise_push {kept : List α} (x : α) (h : kept.Pairwise fun a b => clash b a = false) :
    (push clash kept x).Pairwise fun a b => clash b a = false := by
  unfold push
  split_ifs with hclash
  · exact h
  · refine List.pairwise_append.2 ⟨h, List.pairwise_singleton _ _, ?_⟩
    rintro a ha b hb
    obtain rfl := List.mem_singleton.1 hb
    rw [Bool.not_eq_true, List.any_eq_false] at hclash
    simpa using hclash a ha

/-- No two of the kept elements clash. -/
theorem select_pairwise (l : List α) : (select clash l).Pairwise fun a b => clash b a = false := by
  have hfold : ∀ l kept : List α, (kept.Pairwise fun a b => clash b a = false) →
      (l.foldl (push clash) kept).Pairwise fun a b => clash b a = false := by
    intro l
    induction l with
    | nil => exact fun kept h => h
    | cons x l ih => exact fun kept h => ih _ (pairwise_push x h)
  exact hfold l [] List.Pairwise.nil

end Greedy

/-
  Trees that are given as a list of nodes, each with the list of its children.

  * `ids`, `listed`: the nodes, and the children that they list.
  * `Spans r ns`: the nodes are one tree with the root `r`, in any order.
  * `Under cs ns`: the nodes are one tree for each of the roots `cs`; `Under.node` puts a root
    over them.
  * `Spans.listed_perm`: every node but the root is listed exactly once.
  * `Spans.count_listed`: if the ids are distinct, every node but the root has one parent.
-/
import Mathlib.Data.List.Count
import Mathlib.Data.List.Nodup
import Mathlib.Data.List.Perm.Basic
import Mathlib.Tactic.Common

namespace Forest

variable {α β : Type}

/-- Nodes with their children. -/
abbrev Nodes (α : Type) := List (α × List α)

/-- The ids of the nodes. -/
def ids (ns : Nodes α) : List α := ns.map Prod.fst

/-- The children of all nodes. -/
def listed (ns : Nodes α) : List α := ns.flatMap Prod.snd

@[simp] theorem ids_nil : ids ([] : Nodes α) = [] := rfl

@[simp] theorem listed_nil : listed ([] : Nodes α) = [] := rfl

@[simp] theorem ids_cons (n : α × List α) (ns : Nodes α) : ids (n :: ns) = n.1 :: ids ns := rfl

@[simp] theorem listed_cons (n : α × List α) (ns : Nodes α) :
    listed (n :: ns) = n.2 ++ listed ns := rfl

@[simp] theorem ids_append (ms ns : Nodes α) : ids (ms ++ ns) = ids ms ++ ids ns := List.map_append

@[simp] theorem listed_append (ms ns : Nodes α) : listed (ms ++ ns) = listed ms ++ listed ns :=
  List.flatMap_append

theorem ids_perm {ms ns : Nodes α} (h : ms.Perm ns) : (ids ms).Perm (ids ns) := h.map _

theorem listed_perm {ms ns : Nodes α} (h : ms.Perm ns) : (listed ms).Perm (listed ns) :=
  h.flatMap_right _

/-- The nodes are a tree with the root `r`: below the root there is one tree for each child. -/
inductive Spans : α → Nodes α → Prop
  | node {r : α} {bs : List (α × Nodes α)} {ns : Nodes α} : (∀ b ∈ bs, Spans b.1 b.2) →
      ns.Perm ((r, bs.map Prod.fst) :: bs.flatMap Prod.snd) → Spans r ns

namespace Spans

variable {r : α} {ms ns : Nodes α}

theorem perm (h : Spans r ms) (hp : ns.Perm ms) : Spans r ns := by
  cases h with
  | node hbs hperm => exact .node hbs (hp.trans hperm)

/-- The root, and what the nodes list: these are the ids of the nodes. -/
theorem listed_perm (h : Spans r ns) : (r :: listed ns).Perm (ids ns) := by
  induction h with
  | @node r bs ns hbs hperm ih =>
    have hsub : (bs.map Prod.fst ++ listed (bs.flatMap Prod.snd)).Perm
        (ids (bs.flatMap Prod.snd)) := by
      clear hperm hbs
      induction bs with
      | nil => exact List.Perm.refl _
      | cons b bs ihbs =>
        have hb := ih b List.mem_cons_self
        have hrest := ihbs fun b' hb' => ih b' (List.mem_cons_of_mem _ hb')
        simp only [List.map_cons, List.flatMap_cons, listed_append, ids_append, List.cons_append]
        refine List.Perm.trans ?_ (hb.append hrest)
        refine List.Perm.cons _ ?_
        exact List.perm_append_comm_assoc _ _ _
    refine ((Forest.listed_perm hperm).cons r).trans (List.Perm.trans ?_ (ids_perm hperm).symm)
    exact hsub.cons r

theorem mem_ids_of_listed (h : Spans r ns) {c : α} (hc : c ∈ listed ns) : c ∈ ids ns :=
  h.listed_perm.mem_iff.1 (List.mem_cons_of_mem _ hc)

/-- Every other node is the child of one node. -/
theorem count_listed [DecidableEq α] (h : Spans r ns) (hnodup : (ids ns).Nodup) {i : α}
    (hi : i ∈ ids ns) (hne : i ≠ r) : (listed ns).count i = 1 := by
  have hperm := h.listed_perm
  have hone := List.count_eq_one_of_mem hnodup hi
  rwa [← hperm.count_eq, List.count_cons_of_ne hne.symm] at hone

end Spans

/-- The nodes are trees with the roots `cs`. -/
def Under (cs : List α) (ns : Nodes α) : Prop :=
  ∃ bs : List (α × Nodes α), (∀ b ∈ bs, Spans b.1 b.2) ∧ bs.map Prod.fst = cs ∧
    ns.Perm (bs.flatMap Prod.snd)

namespace Under

variable {r : α} {cs ds : List α} {ms ns : Nodes α}

theorem nil : Under ([] : List α) [] := ⟨[], by simp, rfl, List.Perm.refl _⟩

/-- A root over trees. -/
theorem node (h : Under cs ns) : Spans r ((r, cs) :: ns) := by
  obtain ⟨bs, hbs, rfl, hns⟩ := h
  exact .node hbs (hns.cons _)

theorem spans_leaf (r : α) : Spans r [(r, [])] := nil.node

theorem single (h : Spans r ns) : Under [r] ns := by
  refine ⟨[(r, ns)], ?_, rfl, ?_⟩
  · intro b hb
    rwa [List.mem_singleton.1 hb]
  · rw [List.flatMap_singleton]

theorem append (hc : Under cs ms) (hd : Under ds ns) : Under (cs ++ ds) (ms ++ ns) := by
  obtain ⟨bs, hbs, rfl, hms⟩ := hc
  obtain ⟨bs', hbs', rfl, hns⟩ := hd
  refine ⟨bs ++ bs', ?_, List.map_append, ?_⟩
  · intro b hb
    exact (List.mem_append.1 hb).elim (hbs b) (hbs' b)
  · rw [List.flatMap_append]
    exact hms.append hns

theorem perm (h : Under cs ms) (hp : ns.Perm ms) : Under cs ns := by
  obtain ⟨bs, hbs, hcs, hms⟩ := h
  exact ⟨bs, hbs, hcs, hp.trans hms⟩

/-- One tree for each element of a list. -/
theorem flatMap {l : List β} {root : β → α} {f : β → Nodes α}
    (h : ∀ b ∈ l, Spans (root b) (f b)) : Under (l.map root) (l.flatMap f) := by
  induction l with
  | nil => exact nil
  | cons b l ih =>
    have hrest := ih fun b' hb' => h b' (List.mem_cons_of_mem _ hb')
    exact (single (h b List.mem_cons_self)).append hrest

theorem leaves (cs : List α) : Under cs (cs.map fun c => (c, [])) := by
  have h : Under (cs.map id) (cs.flatMap fun c => [(c, [])]) := flatMap fun c _ => spans_leaf c
  rwa [List.map_id, ← List.map_eq_flatMap] at h

end Under

end Forest

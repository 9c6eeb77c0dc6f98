/-
  Going round a list: what lies ahead comes first, and then the rest from the beginning.

  * `turned p l`: the elements with the property `p`, and then the others.
  * `past R x l`: in a list sorted by `R`, the elements that come after `x`, and then the others;
    `past_past`: what it begins with comes last once it has been passed.
  * `visits_iff`: whoever always goes on to the next element visits all of them in turn.
-/
import Mathlib.Data.List.Rotate
import Mathlib.Order.Defs.Unbundled
import Mathlib.Tactic.Common

namespace Turned

variable {α : Type} {l : List α} {p : α → Bool} {x y : α} {rest : List α}

/-- The elements with the property, and then the others. -/
def turned (p : α → Bool) (l : List α) : List α := l.filter p ++ l.filter (!p ·)

theorem turned_perm (p : α → Bool) (l : List α) : (turned p l).Perm l := List.filter_append_perm p l

theorem turned_eq_nil_iff : turned p l = [] ↔ l = [] := by
  rw [← List.length_eq_zero_iff, (turned_perm p l).length_eq, List.length_eq_zero_iff]

theorem filter_of_all (h : ∀ x ∈ l, p x = true) : l.filter p = l ∧ l.filter (!p ·) = [] := by
  refine ⟨List.filter_eq_self.2 h, ?_⟩
  rw [List.filter_eq_nil_iff]
  intro x hx
  simp [h x hx]

theorem filter_of_none (h : ∀ x ∈ l, p x = false) : l.filter p = [] ∧ l.filter (!p ·) = l := by
  constructor
  · rw [List.filter_eq_nil_iff]
    intro x hx
    simp [h x hx]
  · rw [List.filter_eq_self]
    intro x hx
    simp [h x hx]

/-- The elements with the property are the end of the list. -/
theorem turned_append {before after : List α} (hbefore : ∀ x ∈ before, p x = false)
    (hafter : ∀ x ∈ after, p x = true) : turned p (before ++ after) = after ++ before := by
  obtain ⟨hnone, hself⟩ := filter_of_none hbefore
  obtain ⟨hall, hnil⟩ := filter_of_all hafter
  rw [turned, List.filter_append, List.filter_append, hnone, hall, hself, hnil, List.nil_append,
    List.append_nil]

theorem turned_of_all (h : ∀ x ∈ l, p x = true) : turned p l = l := by
  have hturned : turned p ([] ++ l) = l ++ [] := turned_append (fun _ hx => nomatch hx) h
  rwa [List.nil_append, List.append_nil] at hturned

theorem turned_of_none (h : ∀ x ∈ l, p x = false) : turned p l = l := by
  have hturned : turned p (l ++ []) = [] ++ l := turned_append h fun _ hx => nomatch hx
  rwa [List.nil_append, List.append_nil] at hturned

/-- The elements of groups, some of them ahead and some of them not. -/
theorem turned_flatMap {ι : Type} {f : ι → List α} (i : ι) {is js : List ι}
    (his : ∀ j ∈ is, ∀ x ∈ f j, p x = false) (hjs : ∀ j ∈ js, ∀ x ∈ f j, p x = true) :
    turned p ((is ++ i :: js).flatMap f) =
      (f i).filter p ++ js.flatMap f ++ (is.flatMap f ++ (f i).filter (!p ·)) := by
  have hbefore : ∀ x ∈ is.flatMap f, p x = false := by
    intro x hx
    obtain ⟨j, hj, hx⟩ := List.mem_flatMap.1 hx
    exact his j hj x hx
  have hafter : ∀ x ∈ js.flatMap f, p x = true := by
    intro x hx
    obtain ⟨j, hj, hx⟩ := List.mem_flatMap.1 hx
    exact hjs j hj x hx
  obtain ⟨hnone, hself⟩ := filter_of_none hbefore
  obtain ⟨hall, hnil⟩ := filter_of_all hafter
  simp [turned, hnone, hself, hall, hnil]

/-- Going round the groups, with the ones before the start included or left out, and with only
    what is ahead of the group in the middle. -/
theorem prefix_turned {ι : Type} {f ahead : ι → List α} (i : ι) {is js : List ι}
    (his : ∀ j ∈ is, ∀ x ∈ f j, p x = false) (hjs : ∀ j ∈ js, ∀ x ∈ f j, p x = true)
    (hmiddle : ahead i = (f i).filter p) (hothers : ∀ j ∈ js ++ is, ahead j = f j) (round : Prop)
    [Decidable round] :
    (i :: js ++ if round then is else []).flatMap ahead <+:
        turned p ((is ++ i :: js).flatMap f) ∧
      ∀ x, (x ∈ (i :: js ++ if round then is else []).flatMap ahead) ↔
        x ∈ (is ++ i :: js).flatMap f ∧ (p x = true ∨ round ∧ x ∈ is.flatMap f) := by
  have hahead : js.flatMap ahead = js.flatMap f := by
    rw [List.flatMap_def, List.flatMap_def]
    congr 1
    exact List.map_congr_left fun j hj => hothers j (List.mem_append_left _ hj)
  have hbehind : is.flatMap ahead = is.flatMap f := by
    rw [List.flatMap_def, List.flatMap_def]
    congr 1
    exact List.map_congr_left fun j hj => hothers j (List.mem_append_right _ hj)
  have hround : (if round then is else []).flatMap ahead = if round then is.flatMap f else [] := by
    split_ifs
    · exact hbehind
    · rfl
  rw [List.flatMap_append, List.flatMap_cons, hmiddle, hahead, hround]
  constructor
  · rw [turned_flatMap i his hjs, List.prefix_append_right_inj]
    split_ifs
    · exact List.prefix_append _ _
    · exact List.nil_prefix
  · intro x
    have hround : (x ∈ if round then is.flatMap f else []) ↔ round ∧ x ∈ is.flatMap f := by
      split_ifs with h <;> simp [h]
    simp only [List.mem_append, hround, List.flatMap_append, List.flatMap_cons, List.mem_filter]
    constructor
    · rintro ((⟨hx, hp⟩ | hx) | ⟨hall, hx⟩)
      · exact ⟨.inr (.inl hx), .inl hp⟩
      · obtain ⟨j, hj, hxj⟩ := List.mem_flatMap.1 hx
        exact ⟨.inr (.inr hx), .inl (hjs j hj x hxj)⟩
      · exact ⟨.inl hx, .inr ⟨hall, hx⟩⟩
    · rintro ⟨hx, hp | ⟨hall, hx⟩⟩
      · rcases hx with hx | hx | hx
        · obtain ⟨j, hj, hxj⟩ := List.mem_flatMap.1 hx
          rw [his j hj x hxj] at hp
          cases hp
        · exact .inl (.inl ⟨hx, hp⟩)
        · exact .inl (.inr hx)
      · exact .inr ⟨hall, hx⟩

theorem turned_congr {q : α → Bool} (h : ∀ x ∈ l, p x = q x) : turned p l = turned q l := by
  have hnot : ∀ x ∈ l, (!p x) = !q x := by
    intro x hx
    rw [h x hx]
  rw [turned, turned, List.filter_congr h, List.filter_congr hnot]

/-! ## Sorted lists -/

section Sorted

variable (R : α → α → Prop) [DecidableRel R]

/-- The elements that come after `x`, and then the others. -/
def past (x : α) (l : List α) : List α := turned (fun y => R x y) l

/-- The first of them; `x` itself if there is none. -/
def next (x : α) (l : List α) : α := (past R x l).head?.getD x

variable {R}

omit [DecidableRel R] in
/-- What has a property that is kept on going forward is the end of the list. -/
theorem exists_append (h : l.Pairwise R) (hp : ∀ a b, R a b → p a = true → p b = true) :
    ∃ before after, l = before ++ after ∧ (∀ a ∈ before, p a = false) ∧
      ∀ a ∈ after, p a = true := by
  induction l with
  | nil => exact ⟨[], [], rfl, by simp, by simp⟩
  | cons a l ih =>
    obtain ⟨ha, hl⟩ := List.pairwise_cons.1 h
    cases hpa : p a with
    | true =>
      refine ⟨[], a :: l, rfl, by simp, ?_⟩
      intro b hb
      rcases List.mem_cons.1 hb with rfl | hb
      · exact hpa
      · exact hp a b (ha b hb) hpa
    | false =>
      obtain ⟨before, after, rfl, hbefore, hafter⟩ := ih hl
      refine ⟨a :: before, after, rfl, ?_, hafter⟩
      intro b hb
      rcases List.mem_cons.1 hb with rfl | hb
      · exact hpa
      · exact hbefore b hb

omit [DecidableRel R] in
/-- If something is ahead, the turned list begins with the first of it. -/
theorem head?_turned (h : l.Pairwise R) (hx : x ∈ l) (hp : p x = true) :
    ∃ y, (turned p l).head? = some y ∧ p y = true ∧ ∀ z ∈ l, p z = true → z = y ∨ R y z := by
  cases hahead : l.filter p with
  | nil => exact absurd hp (by simpa using List.filter_eq_nil_iff.1 hahead x hx)
  | cons y ys =>
    have hsorted : (y :: ys).Pairwise R := hahead ▸ h.filter p
    have hmem : ∀ z, z ∈ y :: ys ↔ z ∈ l ∧ p z = true := by
      intro z
      rw [← hahead, List.mem_filter]
    refine ⟨y, ?_, ((hmem y).1 List.mem_cons_self).2, ?_⟩
    · rw [turned, hahead, List.cons_append, List.head?_cons]
    · intro z hz hpz
      rcases List.mem_cons.1 ((hmem z).2 ⟨hz, hpz⟩) with rfl | hz
      · exact .inl rfl
      · exact .inr ((List.pairwise_cons.1 hsorted).1 z hz)

omit [DecidableRel R] in
/-- Turning a sorted list leaves its beginning where it is only if it leaves the whole list. -/
theorem head?_turned_eq_iff (h : l.Pairwise R) (hp : ∀ a b, R a b → p a = true → p b = true) :
    (turned p l).head? = l.head? ↔ (∀ x ∈ l, p x = true) ∨ ∀ x ∈ l, p x = false := by
  constructor
  · intro hhead
    obtain ⟨before, after, rfl, hbefore, hafter⟩ := exists_append h hp
    rw [turned_append hbefore hafter] at hhead
    cases before with
    | nil => exact .inl hafter
    | cons b before =>
      cases after with
      | nil =>
        rw [List.append_nil]
        exact .inr hbefore
      | cons a after =>
        obtain rfl : a = b := Option.some.inj hhead
        have hpa := hbefore a List.mem_cons_self
        rw [hafter a List.mem_cons_self] at hpa
        cases hpa
  · rintro (hall | hnone)
    · rw [turned_of_all hall]
    · rw [turned_of_none hnone]

omit [DecidableRel R] in
/-- Who looks at a part of the list only. -/
theorem head?_prefix_iff {found : List α} (hfound : found <+: l) :
    found.head? = l.head? ↔ l = [] ∨ found ≠ [] := by
  obtain ⟨rest, rfl⟩ := hfound
  cases found with
  | cons x found => simp
  | nil =>
    cases rest with
    | nil => simp
    | cons x rest => simp

omit [DecidableRel R] in
/-- Who looks at a part of the turned list only; from a start outside of the list, for what the
    list itself begins with. -/
theorem head?_eq_iff (h : l.Pairwise R) (hp : ∀ a b, R a b → p a = true → p b = true)
    {found aim : List α} (hfound : found <+: turned p l) {inside : Prop}
    (hin : inside → aim = turned p l) (hout : ¬inside → aim = l) :
    found.head? = aim.head? ↔ l = [] ∨ found ≠ [] ∧
      (inside ∨ (∀ x ∈ l, p x = true) ∨ ∀ x ∈ l, p x = false) := by
  have hpart : found.head? = (turned p l).head? ↔ l = [] ∨ found ≠ [] := by
    rw [head?_prefix_iff hfound, turned_eq_nil_iff]
  by_cases hinside : inside
  · rw [hin hinside, hpart, and_iff_left (.inl hinside)]
  · rw [hout hinside, or_iff_right hinside, ← head?_turned_eq_iff h hp]
    by_cases hempty : found = []
    · subst hempty
      cases l <;> simp
    · rw [hpart.2 (.inr hempty), and_iff_right hempty]
      constructor
      · exact .inr
      · rintro (rfl | hhead)
        · rfl
        · exact hhead

theorem past_append {before after : List α} (hbefore : ∀ a ∈ before, ¬R x a)
    (hafter : ∀ a ∈ after, R x a) : past R x (before ++ after) = after ++ before :=
  turned_append (fun a ha => decide_eq_false (hbefore a ha)) fun a ha =>
    decide_eq_true (hafter a ha)

/-- Past `y`, which came next, the list is turned by one, and `y` itself comes last. -/
theorem past_past [IsTrans α R] [Std.Asymm R] (h : l.Pairwise R) (hx : past R x l = y :: rest) :
    past R y l = rest ++ [y] := by
  have hirrefl : ¬R y y := fun hy => Std.Asymm.asymm y y hy hy
  have hforth : ∀ a b, R a b → decide (R x a) = true → decide (R x b) = true := by
    intro a b hab hxa
    exact decide_eq_true (IsTrans.trans x a b (of_decide_eq_true hxa) hab)
  obtain ⟨before, after, rfl, hbefore, hafter⟩ := exists_append h hforth
  have hturned : past R x (before ++ after) = after ++ before := turned_append hbefore hafter
  rw [hturned] at hx
  cases after with
  | nil =>
    -- nothing comes after `x`: the list begins with `y`
    obtain rfl : before = y :: rest := hx
    rw [List.append_nil] at h ⊢
    obtain ⟨hy, -⟩ := List.pairwise_cons.1 h
    have hnot : ∀ a ∈ [y], ¬R y a := by simpa using hirrefl
    exact past_append hnot hy
  | cons z zs =>
    obtain ⟨rfl, rfl⟩ := List.cons.inj hx
    obtain ⟨-, hz, hbz⟩ := List.pairwise_append.1 h
    obtain ⟨hzs, -⟩ := List.pairwise_cons.1 hz
    have hnot : ∀ a ∈ before ++ [z], ¬R z a := by
      intro a ha hza
      rcases List.mem_append.1 ha with ha | ha
      · exact Std.Asymm.asymm z a hza (hbz a ha z List.mem_cons_self)
      · rw [List.mem_singleton.1 ha] at hza
        exact hirrefl hza
    have hpast := past_append hnot hzs
    rw [List.append_assoc, List.singleton_append] at hpast
    rw [hpast, List.append_eq, List.append_assoc]

theorem past_eq_nil_iff : past R x l = [] ↔ l = [] := turned_eq_nil_iff

/-- Only in a list without other elements does nothing else come next. -/
theorem next_eq_self_iff [Std.Asymm R] (h : l.Pairwise R) :
    next R x l = x ↔ l = [] ∨ l = [x] := by
  have hirrefl : ¬R x x := fun hx => Std.Asymm.asymm x x hx hx
  constructor
  · intro hnext
    by_cases hahead : ∃ y ∈ l, R x y
    · obtain ⟨y, hy, hxy⟩ := hahead
      obtain ⟨z, hz, hxz, -⟩ :=
        head?_turned (p := fun y => R x y) h hy (decide_eq_true hxy)
      rw [next, past, hz, Option.getD_some] at hnext
      subst hnext
      exact absurd (of_decide_eq_true hxz) hirrefl
    · have hnone : ∀ y ∈ l, decide (R x y) = false := by
        intro y hy
        exact decide_eq_false fun hxy => hahead ⟨y, hy, hxy⟩
      rw [next, past, turned_of_none hnone] at hnext
      cases l with
      | nil => exact .inl rfl
      | cons y l =>
        obtain rfl : y = x := hnext
        cases l with
        | nil => exact .inr rfl
        | cons z l =>
          have hxz := (List.pairwise_cons.1 h).1 z List.mem_cons_self
          exact absurd ⟨z, by simp, hxz⟩ hahead
  · rintro (rfl | rfl)
    · rfl
    · simp [next, past, turned, hirrefl]

/-- Whoever moves to `found`, if anything, lands on what comes next just if it was found, or if
    there was nowhere else to go. -/
theorem getD_eq_next_iff [Std.Asymm R] (h : l.Pairwise R) {found : Option α}
    (hfound : ∀ y, found = some y → y ∈ l) :
    found.getD x = next R x l ↔ found = (past R x l).head? ∨ l = [x] := by
  constructor
  · intro hland
    cases hhead : (past R x l).head? with
    | none =>
      -- there are no elements at all
      have hl : l = [] := past_eq_nil_iff.1 (List.head?_eq_none_iff.1 hhead)
      subst hl
      cases found with
      | none => exact .inl rfl
      | some y => cases hfound y rfl
    | some y =>
      rw [next, hhead, Option.getD_some] at hland
      cases found with
      | some z => exact .inl (congrArg some hland)
      | none =>
        have hself : next R x l = x := by rw [next, hhead, Option.getD_some, ← hland]; rfl
        rcases (next_eq_self_iff h).1 hself with rfl | hl
        · cases hhead
        · exact .inr hl
  · rintro (hfound | rfl)
    · rw [hfound, next]
    · rw [(next_eq_self_iff h).2 (.inr rfl)]
      cases found with
      | none => rfl
      | some y => exact List.mem_singleton.1 (hfound y rfl)

theorem head?_rotate (l : List α) (k : ℕ) (x : α) :
    (l.rotate k).head?.getD x = l.getD (k % l.length) x := by
  cases l with
  | nil => rfl
  | cons a l =>
    rw [List.head?_eq_getElem?, List.getElem?_rotate (by simp), Nat.zero_add,
      List.getD_eq_getElem?_getD]

variable {cur : ℕ → α} {n : ℕ}

/-- Where a walk that goes on to the next element has got to. -/
theorem past_walk [IsTrans α R] [Std.Asymm R] (h : l.Pairwise R) {k : ℕ}
    (hwalk : ∀ j < k, cur (j + 1) = next R (cur j) l) :
    past R (cur k) l = (past R (cur 0) l).rotate k ∧ (l = [] → cur k = cur 0) := by
  induction k with
  | zero => exact ⟨(List.rotate_zero _).symm, fun _ => rfl⟩
  | succ k ih =>
    obtain ⟨hpast, hnil⟩ := ih fun j hj => hwalk j (by omega)
    have hstep : cur (k + 1) = next R (cur k) l := hwalk k (Nat.lt_succ_self k)
    rw [next] at hstep
    cases hrest : past R (cur k) l with
    | nil =>
      have hl : l = [] := past_eq_nil_iff.1 hrest
      rw [hrest] at hstep
      subst hl
      exact ⟨(List.rotate_nil _).symm, fun _ => hstep.trans (hnil rfl)⟩
    | cons y rest =>
      rw [hrest] at hstep
      obtain rfl : cur (k + 1) = y := hstep
      constructor
      · rw [past_past h hrest, ← List.rotate_rotate, ← hpast, hrest]
        simp
      · rintro rfl
        cases hrest

/-- **A walk that always goes on to the next element** is one that visits the elements in turn. -/
theorem visits_iff [IsTrans α R] [Std.Asymm R] (h : l.Pairwise R) (cur : ℕ → α) (n : ℕ) :
    (∀ k < n, cur (k + 1) = (past R (cur 0) l).getD (k % l.length) (cur 0)) ↔
      ∀ k < n, cur (k + 1) = next R (cur k) l := by
  have hlen : (past R (cur 0) l).length = l.length := (turned_perm _ l).length_eq
  have hnext : ∀ k, (∀ j < k, cur (j + 1) = next R (cur j) l) →
      next R (cur k) l = (past R (cur 0) l).getD (k % l.length) (cur 0) := by
    intro k hwalk
    obtain ⟨hpast, hnil⟩ := past_walk h hwalk
    rw [next, hpast, head?_rotate, hlen]
    by_cases hl : l = []
    · rw [hnil hl]
    · have hlt : k % l.length < (past R (cur 0) l).length := by
        rw [hlen]
        exact Nat.mod_lt _ (List.length_pos_of_ne_nil hl)
      rw [List.getD_eq_getElem?_getD, List.getD_eq_getElem?_getD, List.getElem?_eq_getElem hlt]
      rfl
  constructor
  · intro hvisits k
    induction k using Nat.strong_induction_on with
    | _ k ih =>
      intro hk
      rw [hnext k fun j hj => ih j hj (hj.trans hk)]
      exact hvisits k hk
  · intro hwalk k hk
    rw [hwalk k hk, hnext k fun j hj => hwalk j (hj.trans hk)]

end Sorted

end Turned

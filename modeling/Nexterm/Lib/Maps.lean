/-
  Finite maps — the lemmas on `Std.ExtTreeMap` that reasoning about a store needs,
  stated with equality of keys rather than with the comparison function.

  * `getElem?_insert_eq`, `getElem?_erase_eq`, `getElem?_modify_eq`: lookup after an update.
  * `toList_insert_perm`, `toList_erase_perm`: the entries after an update, as a
    permutation; these carry the multiset arguments.
  * `getElem?_ofList_iff`, `ofList_toList`: a map collected from a list of entries.
  * `sumValues`: the sum of a quantity over the values of a map, and what an update adds to it.
-/
import Mathlib.Algebra.BigOperators.Group.List.Basic
import Mathlib.Data.List.GetD
import Mathlib.Data.List.Nodup
import Mathlib.Data.List.Sort

namespace Std.ExtTreeMap

variable {α β : Type} {cmp : α → α → Ordering} [TransCmp cmp] {m : ExtTreeMap α β cmp}

/-! ## Membership -/

theorem mem_iff_getElem? {a : α} : a ∈ m ↔ ∃ v, m[a]? = some v := by
  rw [mem_iff_isSome_getElem?, Option.isSome_iff_exists]

theorem not_mem_iff_getElem? {a : α} : a ∉ m ↔ m[a]? = none := by
  rw [mem_iff_isSome_getElem?, Bool.not_eq_true, Option.isSome_eq_false_iff,
    Option.isNone_iff_eq_none]

theorem nodup_toList : m.toList.Nodup := by
  have h : (m.toList.map Prod.fst).Nodup := by rw [map_fst_toList_eq_keys]; exact nodup_keys
  exact List.Nodup.of_map _ h

variable [LawfulEqCmp cmp]

/-- Taking any of the keys of a map that has one. -/
theorem getD_keys_mem {k : α} (h : k ∈ m) (i : ℕ) (d : α) : m.keys.getD (i % m.size) d ∈ m := by
  have hpos : 0 < m.keys.length := List.length_pos_of_mem (mem_keys.2 h)
  have hlt : i % m.size < m.keys.length := by
    rw [← length_keys]
    exact Nat.mod_lt _ hpos
  rw [List.getD_eq_getElem _ _ hlt]
  exact mem_keys.1 (List.getElem_mem hlt)

theorem mem_insert_eq {k a : α} {v : β} : a ∈ m.insert k v ↔ k = a ∨ a ∈ m := by
  simp [mem_insert]

theorem mem_erase_eq {k a : α} : a ∈ m.erase k ↔ k ≠ a ∧ a ∈ m := by
  simp [mem_erase]

theorem size_erase_mem {k : α} (h : k ∈ m) : (m.erase k).size + 1 = m.size := by
  have hpos : m.size ≠ 0 := fun h0 => by
    rw [← length_keys, List.length_eq_zero_iff] at h0
    have := mem_keys.2 h
    rw [h0] at this; cases this
  have : (m.erase k).size = m.size - 1 := by simp [size_erase, h]
  omega

/-- The keys are listed in order, so they are determined by membership. -/
theorem keys_eq_of_mem_iff {γ : Type} {m' : ExtTreeMap α γ cmp} (h : ∀ a, a ∈ m ↔ a ∈ m') :
    m.keys = m'.keys := by
  have : m.map (fun _ _ => ()) = m'.map (fun _ _ => ()) := ext_getElem? fun a => by
    have ha := h a
    rw [mem_iff_isSome_getElem?, mem_iff_isSome_getElem?] at ha
    rw [getElem?_map, getElem?_map]
    cases hm : m[a]? <;> cases hm' : m'[a]? <;> simp_all
  rw [← keys_map (t := m) (f := fun _ _ => ()), this, keys_map]

theorem keys_modify {k : α} {f : β → β} : (m.modify k f).keys = m.keys :=
  keys_eq_of_mem_iff fun _ => mem_modify

variable [DecidableEq α]

/-! ## Lookup -/

theorem getElem?_insert_eq (k a : α) (v : β) :
    (m.insert k v)[a]? = if k = a then some v else m[a]? := by
  simp [getElem?_insert]

theorem getElem?_erase_eq (k a : α) : (m.erase k)[a]? = if k = a then none else m[a]? := by
  simp [getElem?_erase]

theorem getElem?_modify_eq (k a : α) (f : β → β) :
    (m.modify k f)[a]? = if k = a then m[a]?.map f else m[a]? := by
  by_cases h : k = a
  · subst h; simp
  · simp [getElem?_modify, h]

/-! ## Entries -/

theorem insert_eq_self {k : α} {v : β} (h : m[k]? = some v) : m.insert k v = m :=
  ext_getElem? fun a => by
    rw [getElem?_insert_eq]; split_ifs with ha
    · rw [← ha, h]
    · rfl

theorem insert_eq_self_iff {k : α} {v w : β} (h : m[k]? = some v) : m.insert k w = m ↔ w = v := by
  refine ⟨fun he => ?_, fun he => insert_eq_self (he ▸ h)⟩
  have := getElem?_insert_self (t := m) (k := k) (v := w)
  rw [he, h] at this
  exact (Option.some.inj this).symm

omit [DecidableEq α] in
theorem erase_ne_self {k : α} (h : k ∈ m) : m.erase k ≠ m := fun he => by
  rw [← he] at h; simp at h

theorem modify_eq_insert {k : α} {v : β} (f : β → β) (h : m[k]? = some v) :
    m.modify k f = m.insert k (f v) :=
  ext_getElem? fun a => by
    rw [getElem?_modify_eq, getElem?_insert_eq]; split_ifs with ha
    · rw [← ha, h]; rfl
    · rfl

theorem modify_of_not_mem {k : α} (f : β → β) (h : k ∉ m) : m.modify k f = m :=
  ext_getElem? fun a => by
    rw [getElem?_modify_eq]; split_ifs with ha
    · rw [← ha, not_mem_iff_getElem?.1 h]; rfl
    · rfl

theorem erase_of_not_mem {k : α} (h : k ∉ m) : m.erase k = m :=
  ext_getElem? fun a => by
    rw [getElem?_erase_eq]; split_ifs with ha
    · rw [← ha, not_mem_iff_getElem?.1 h]
    · rfl

omit [DecidableEq α] in
theorem keys_insert_mem {k : α} (v : β) (h : k ∈ m) : (m.insert k v).keys = m.keys :=
  keys_eq_of_mem_iff fun a => by
    rw [mem_insert_eq]; exact ⟨fun ha => ha.elim (fun he => he ▸ h) (fun ha => ha), Or.inr⟩

theorem insert_erase_eq (k : α) (v : β) : (m.erase k).insert k v = m.insert k v :=
  ext_getElem? fun a => by
    rw [getElem?_insert_eq, getElem?_insert_eq, getElem?_erase_eq]; split_ifs <;> rfl

theorem toList_insert_perm {k : α} {v : β} (h : k ∉ m) :
    (m.insert k v).toList.Perm ((k, v) :: m.toList) := by
  have hk : ∀ w, (k, w) ∉ m.toList := fun w hw => by
    rw [mem_toList_iff_getElem?_eq_some, not_mem_iff_getElem?.1 h] at hw; cases hw
  refine (List.perm_ext_iff_of_nodup nodup_toList (List.nodup_cons.2 ⟨hk v, nodup_toList⟩)).2 ?_
  rintro ⟨a, w⟩
  rw [mem_toList_iff_getElem?_eq_some, getElem?_insert_eq, List.mem_cons,
    mem_toList_iff_getElem?_eq_some, Prod.mk.injEq]
  by_cases ha : k = a
  · subst ha; simp [not_mem_iff_getElem?.1 h, eq_comm]
  · simp [ha, Ne.symm ha]

theorem toList_erase_perm {k : α} {v : β} (h : m[k]? = some v) :
    m.toList.Perm ((k, v) :: (m.erase k).toList) := by
  have hback : (m.erase k).insert k v = m := by rw [insert_erase_eq, insert_eq_self h]
  have hk : k ∉ m.erase k := by simp
  have := toList_insert_perm (v := v) hk
  rwa [hback] at this

theorem keys_insert_perm {k : α} {v : β} (h : k ∉ m) :
    (m.insert k v).keys.Perm (k :: m.keys) := by
  simpa only [map_fst_toList_eq_keys, List.map_cons] using (toList_insert_perm h).map Prod.fst

theorem keys_erase_perm {k : α} (h : k ∈ m) : m.keys.Perm (k :: (m.erase k).keys) := by
  obtain ⟨v, hv⟩ := mem_iff_getElem?.1 h
  simpa only [map_fst_toList_eq_keys, List.map_cons] using (toList_erase_perm hv).map Prod.fst

/-! ## Maps collected from a list -/

theorem mem_ofList_eq {l : List (α × β)} {a : α} : a ∈ ofList l cmp ↔ a ∈ l.map Prod.fst := by
  rw [mem_ofList, List.contains_iff_mem]

omit [TransCmp cmp] [DecidableEq α] in
theorem pairwise_fst {l : List (α × β)} (h : (l.map Prod.fst).Nodup) :
    l.Pairwise fun a b => ¬cmp a.1 b.1 = .eq := by
  rw [List.Nodup, List.pairwise_map] at h
  exact h.imp fun hne heq => hne (LawfulEqCmp.eq_of_compare heq)

/-- A map collected from a list holds pairs of the list only. -/
theorem mem_of_getElem?_ofList {l : List (α × β)} {a : α} {v : β}
    (h : (ofList l cmp)[a]? = some v) : (a, v) ∈ l := by
  rw [ofList_eq_foldl] at h
  have : ∀ (l : List (α × β)) (m : ExtTreeMap α β cmp),
      (l.foldl (fun m p => m.insert p.1 p.2) m)[a]? = some v → (a, v) ∈ l ∨ m[a]? = some v := by
    intro l
    induction l with
    | nil => exact fun m h => Or.inr h
    | cons p l ih =>
      intro m h
      rcases ih _ h with h | h
      · exact Or.inl (List.mem_cons_of_mem _ h)
      · rw [getElem?_insert_eq] at h
        split_ifs at h with hp
        · cases h
          subst hp
          exact Or.inl List.mem_cons_self
        · exact Or.inr h
  rcases this l ∅ h with h | h
  · exact h
  · simp at h

/-- With distinct keys it holds all of them. -/
theorem getElem?_ofList_iff {l : List (α × β)} (hl : (l.map Prod.fst).Nodup) {a : α} {v : β} :
    (ofList l cmp)[a]? = some v ↔ (a, v) ∈ l :=
  ⟨mem_of_getElem?_ofList, getElem?_ofList_of_mem ReflCmp.compare_self (pairwise_fst hl)⟩

theorem toList_ofList_perm {l : List (α × β)} (hl : (l.map Prod.fst).Nodup) :
    (ofList l cmp).toList.Perm l := by
  refine (List.perm_ext_iff_of_nodup nodup_toList (List.Nodup.of_map _ hl)).2 ?_
  rintro ⟨a, v⟩
  rw [mem_toList_iff_getElem?_eq_some, getElem?_ofList_iff hl]

/-- A map is collected again from its entries. -/
theorem ofList_toList (m : ExtTreeMap α β cmp) : ofList m.toList cmp = m := by
  have hnodup : (m.toList.map Prod.fst).Nodup := by
    rw [map_fst_toList_eq_keys]
    exact nodup_keys
  exact ext_toList (toList_ofList_perm hnodup)

/-! ## Sums over the values -/

variable {M : Type} [AddCommMonoid M]

/-- The sum of `f` over the values. -/
def sumValues (f : β → M) (m : ExtTreeMap α β cmp) : M := (m.toList.map fun e => f e.2).sum

omit [LawfulEqCmp cmp] [DecidableEq α] in
theorem sumValues_empty (f : β → M) : sumValues f (∅ : ExtTreeMap α β cmp) = 0 := rfl

theorem sumValues_insert (f : β → M) {k : α} (v : β) (h : k ∉ m) :
    sumValues f (m.insert k v) = f v + sumValues f m :=
  ((toList_insert_perm h).map _).sum_eq.trans List.sum_cons

theorem sumValues_erase (f : β → M) {k : α} {v : β} (h : m[k]? = some v) :
    sumValues f m = f v + sumValues f (m.erase k) :=
  ((toList_erase_perm h).map _).sum_eq.trans List.sum_cons

/-- Replacing the value of a key. -/
theorem sumValues_replace (f : β → M) {k : α} (v : β) :
    sumValues f (m.insert k v) = f v + sumValues f (m.erase k) := by
  rw [← insert_erase_eq, sumValues_insert f v (by simp)]

/-- The value of a key that may be missing, split off from the sum. -/
theorem sumValues_getD (f : β → M) (k : α) {d : β} (h : f d = 0) :
    sumValues f m = f (m.getD k d) + sumValues f (m.erase k) := by
  rw [getD_eq_getD_getElem?]
  cases hk : m[k]? with
  | some v => exact sumValues_erase f hk
  | none => rw [Option.getD_none, h, zero_add, erase_of_not_mem (not_mem_iff_getElem?.2 hk)]

omit [LawfulEqCmp cmp] [DecidableEq α] in
/-- Dropping entries that do not count. -/
theorem sumValues_filter {f : β → M} {p : α → β → Bool} (h : ∀ k v, p k v = false → f v = 0) :
    sumValues f (m.filter p) = sumValues f m := by
  rw [sumValues, sumValues, toList_filter]
  induction m.toList with
  | nil => rfl
  | cons e l ih =>
    rw [List.filter_cons, List.map_cons, List.sum_cons]
    split_ifs with he
    · rw [List.map_cons, List.sum_cons, ih]
    · rw [h e.1 e.2 (by simpa using he), zero_add, ih]

omit [LawfulEqCmp cmp] [DecidableEq α] in
theorem sumValues_le {f g : β → ℕ} (h : ∀ v, f v ≤ g v) : sumValues f m ≤ sumValues g m := by
  unfold sumValues
  induction m.toList with
  | nil => exact Nat.le_refl _
  | cons e l ih =>
    rw [List.map_cons, List.map_cons, List.sum_cons, List.sum_cons]
    exact Nat.add_le_add (h e.2) ih

end Std.ExtTreeMap

/-
  A cache that drops the least recently used entry: a list of entries with distinct keys, the most
  recently used one first, no longer than the capacity.

  * `get`, `push`, `popLru`, `resize`, `clear`: the operations.
  * `total w`: the weights of the values, added up; each operation's lemma says what it does to it.
-/
import Mathlib.Algebra.GroupWithZero.Nat
import Mathlib.Data.List.Nodup
import Mathlib.Tactic.Common

/-- A cache of at most `cap` entries. -/
structure Lru (κ ν : Type) where
  cap : ℕ
  entries : List (κ × ν)
  cap_pos : 0 < cap
  nodup : (entries.map Prod.fst).Nodup
  length_le : entries.length ≤ cap

namespace Lru

variable {κ ν : Type} [DecidableEq κ] {c : Lru κ ν} {k : κ} {v old : ν} {e : κ × ν} {w : ν → ℕ}

theorem perm_of_lookup {l : List (κ × ν)} (hl : (l.map Prod.fst).Nodup)
    (h : l.lookup k = some v) : l.Perm ((k, v) :: l.filter (·.1 ≠ k)) := by
  obtain ⟨before, after, rfl, hbefore⟩ := List.lookup_eq_some_iff.1 h
  rw [List.map_append, List.map_cons, List.nodup_append] at hl
  obtain ⟨-, hafter, -⟩ := hl
  obtain ⟨hnot, -⟩ := List.nodup_cons.1 hafter
  have hleft : before.filter (·.1 ≠ k) = before := by
    rw [List.filter_eq_self]
    intro p hp
    have hne := hbefore p hp
    simp only [bne_iff_ne, ne_eq] at hne
    exact decide_eq_true fun heq => hne heq.symm
  have hright : after.filter (·.1 ≠ k) = after := by
    rw [List.filter_eq_self]
    intro p hp
    exact decide_eq_true fun heq => hnot (List.mem_map.2 ⟨p, hp, heq⟩)
  have hfilter : (before ++ (k, v) :: after).filter (·.1 ≠ k) = before ++ after := by
    rw [List.filter_append, hleft, List.filter_cons_of_neg (by simp), hright]
  rw [hfilter]
  exact List.perm_middle

/-! ## Operations -/

omit [DecidableEq κ] in
theorem nodup_sublist {l l' : List (κ × ν)} (h : l'.Sublist l) (hl : (l.map Prod.fst).Nodup) :
    (l'.map Prod.fst).Nodup := hl.sublist (h.map _)

def len (c : Lru κ ν) : ℕ := c.entries.length

/-- An empty cache. -/
def empty (cap : ℕ) (hcap : 0 < cap) : Lru κ ν := ⟨cap, [], hcap, List.nodup_nil, Nat.zero_le _⟩

def clear (c : Lru κ ν) : Lru κ ν := empty c.cap c.cap_pos

/-- Move an entry to the front, with a new value. -/
def refresh (c : Lru κ ν) (k : κ) (v : ν) (h : c.entries.lookup k = some old) : Lru κ ν where
  cap := c.cap
  entries := (k, v) :: c.entries.filter (·.1 ≠ k)
  cap_pos := c.cap_pos
  nodup := by
    rw [List.map_cons, List.nodup_cons]
    refine ⟨?_, nodup_sublist List.filter_sublist c.nodup⟩
    rintro hk
    obtain ⟨e, he, rfl⟩ := List.mem_map.1 hk
    simp at he
  length_le := by
    have hlen := (perm_of_lookup c.nodup h).length_eq
    rw [List.length_cons] at hlen ⊢
    rw [← hlen]
    exact c.length_le

/-- A new entry at the front. -/
def insert (c : Lru κ ν) (k : κ) (v : ν) (h : c.entries.lookup k = none)
    (hlen : c.entries.length < c.cap) : Lru κ ν where
  cap := c.cap
  entries := (k, v) :: c.entries
  cap_pos := c.cap_pos
  nodup := by
    rw [List.map_cons, List.nodup_cons]
    refine ⟨?_, c.nodup⟩
    rintro hk
    obtain ⟨e, he, rfl⟩ := List.mem_map.1 hk
    simpa using List.lookup_eq_none_iff.1 h e he
  length_le := hlen

/-- Remove the least recently used entry. -/
def popLru (c : Lru κ ν) : Option (κ × ν) × Lru κ ν :=
  (c.entries.getLast?, {
    cap := c.cap
    entries := c.entries.dropLast
    cap_pos := c.cap_pos
    nodup := nodup_sublist (List.dropLast_sublist _) c.nodup
    length_le := Nat.le_trans (List.dropLast_sublist _).length_le c.length_le })

omit [DecidableEq κ] in
theorem length_popLru (h : 0 < c.len) : c.popLru.2.len + 1 = c.len := by
  change c.entries.dropLast.length + 1 = c.entries.length
  change 0 < c.entries.length at h
  rw [List.length_dropLast]
  omega

/-- The value of a key, which becomes the most recently used one. -/
def get (c : Lru κ ν) (k : κ) : Option ν × Lru κ ν :=
  match h : c.entries.lookup k with
  | some v => (some v, c.refresh k v h)
  | none => (none, c)

/-- Put an entry at the front, and return the one it replaces or drives out. -/
def push (c : Lru κ ν) (k : κ) (v : ν) : Option (κ × ν) × Lru κ ν :=
  match h : c.entries.lookup k with
  | some old => (some (k, old), c.refresh k v h)
  | none =>
    if hlen : c.entries.length < c.cap then (none, c.insert k v h hlen)
    else
      (c.popLru.1, c.popLru.2.insert k v
        (List.Sublist.lookup_eq_none (List.dropLast_sublist _) h) (by
          have hpos := c.cap_pos
          have hpop := length_popLru (c := c) (by unfold len; omega)
          have hle := c.length_le
          unfold len at hpop
          change c.popLru.2.entries.length < c.cap
          omega))

/-- Change the capacity; the entries that do not fit any more are dropped. -/
def resize (c : Lru κ ν) (cap : ℕ) (hcap : 0 < cap) : Lru κ ν where
  cap := cap
  entries := c.entries.take cap
  cap_pos := hcap
  nodup := nodup_sublist (List.take_sublist _ _) c.nodup
  length_le := List.length_take_le _ _

/-! ## What the operations do -/

theorem get_eq_some (h : (c.get k).1 = some v) : (k, v) ∈ c.entries := by
  unfold get at h
  split at h
  · next v' hlookup =>
    obtain rfl := Option.some.inj h
    obtain ⟨before, after, hsplit, -⟩ := List.lookup_eq_some_iff.1 hlookup
    rw [hsplit]
    simp
  · cases h

theorem perm_get (c : Lru κ ν) (k : κ) : (c.get k).2.entries.Perm c.entries := by
  unfold get
  split
  · next hlookup => exact (perm_of_lookup c.nodup hlookup).symm
  · exact .refl _

theorem get_of_lookup (h : c.entries.lookup k = none) : c.get k = (none, c) := by
  unfold get
  split
  · next hlookup =>
    rw [h] at hlookup
    cases hlookup
  · rfl

theorem push_of_lookup (h : c.entries.lookup k = none) (hlen : c.entries.length < c.cap) (v : ν) :
    c.push k v = (none, c.insert k v h hlen) := by
  unfold push
  split
  · next hlookup =>
    rw [h] at hlookup
    cases hlookup
  · rw [dif_pos hlen]

theorem mem_push (h : e ∈ (c.push k v).2.entries) : e = (k, v) ∨ e ∈ c.entries := by
  unfold push at h
  split at h
  · rcases List.mem_cons.1 h with rfl | h
    · exact .inl rfl
    · exact .inr (List.mem_of_mem_filter h)
  · split_ifs at h
    · exact List.mem_cons.1 h
    · rcases List.mem_cons.1 h with rfl | h
      · exact .inl rfl
      · exact .inr (List.dropLast_subset _ h)

theorem push_pos (c : Lru κ ν) (k : κ) (v : ν) : 0 < (c.push k v).2.len := by
  unfold push
  split
  · exact Nat.succ_pos _
  · split_ifs <;> exact Nat.succ_pos _

omit [DecidableEq κ] in
theorem mem_popLru (h : e ∈ c.popLru.2.entries) : e ∈ c.entries := List.dropLast_subset _ h

omit [DecidableEq κ] in
theorem mem_resize {cap : ℕ} {hcap : 0 < cap} (h : e ∈ (c.resize cap hcap).entries) :
    e ∈ c.entries := List.mem_of_mem_take h

/-! ## Weights -/

/-- The weights of the values, added up. -/
def total (w : ν → ℕ) (c : Lru κ ν) : ℕ := (c.entries.map fun e => w e.2).sum

/-- The weight of an entry that has left the cache, if any. -/
def weight (w : ν → ℕ) : Option (κ × ν) → ℕ
  | some e => w e.2
  | none => 0

theorem total_get (c : Lru κ ν) (k : κ) : (c.get k).2.total w = c.total w :=
  ((perm_get c k).map _).sum_nat

omit [DecidableEq κ] in
/-- What is popped leaves the total. -/
theorem total_popLru (c : Lru κ ν) : c.popLru.2.total w + weight w c.popLru.1 = c.total w := by
  change (c.entries.dropLast.map fun e => w e.2).sum + weight w c.entries.getLast? =
    (c.entries.map fun e => w e.2).sum
  rcases List.eq_nil_or_concat c.entries with hnil | ⟨l, e, hl⟩
  · rw [hnil]
    rfl
  · rw [hl, List.concat_eq_append, List.dropLast_concat, List.getLast?_concat]
    simp [weight]

/-- What is pushed enters the total, and what is returned leaves it. -/
theorem total_push (c : Lru κ ν) (k : κ) (v : ν) :
    (c.push k v).2.total w + weight w (c.push k v).1 = c.total w + w v := by
  unfold push
  split
  · next old hlookup =>
    have hperm := ((perm_of_lookup c.nodup hlookup).map fun e => w e.2).sum_nat
    simp only [List.map_cons, List.sum_cons] at hperm
    simp only [total, refresh, weight, List.map_cons, List.sum_cons]
    omega
  · split_ifs
    · simp only [total, insert, weight, List.map_cons, List.sum_cons]
      omega
    · have hpop := total_popLru (w := w) c
      simp only [total, insert, List.map_cons, List.sum_cons] at hpop ⊢
      omega

/-- What a push returns was in the cache. -/
theorem weight_push_le (c : Lru κ ν) (k : κ) (v : ν) :
    weight w (c.push k v).1 ≤ c.total w := by
  unfold push
  split
  · next old hlookup =>
    have hperm := ((perm_of_lookup c.nodup hlookup).map fun e => w e.2).sum_nat
    simp only [List.map_cons, List.sum_cons] at hperm
    simp only [total, weight]
    omega
  · split_ifs
    · exact Nat.zero_le _
    · have hpop := total_popLru (w := w) c
      dsimp only
      omega

omit [DecidableEq κ] in
/-- The entries that do not fit any more leave the total. -/
theorem total_resize (c : Lru κ ν) {cap : ℕ} (hcap : 0 < cap) :
    (c.resize cap hcap).total w + ((c.entries.drop cap).map fun e => w e.2).sum = c.total w := by
  change ((c.entries.take cap).map _).sum + _ = (c.entries.map _).sum
  rw [← List.sum_append, ← List.map_append, List.take_append_drop]

end Lru

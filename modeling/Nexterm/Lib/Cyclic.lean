/-
  Searching round a circle: the numbers below `n` from some start on, and then from 0.

  * `order`: the numbers in the order of the search; `next`: the first of them with a property.
  * `next_visits`: whoever goes on searching behind the last number found meets all the numbers with
    the property, one after the other, before the first one again.
-/
import Mathlib.Data.List.Rotate
import Mathlib.Tactic.Common

namespace Cyclic

variable {n start i r : ℕ} {p : ℕ → Bool} {before after : List ℕ}

/-- The numbers below `n` from the start on, round the circle. -/
def order (n start : ℕ) : List ℕ := (List.range n).rotate start

/-- The first number with the property. -/
def next (n : ℕ) (p : ℕ → Bool) (start : ℕ) : Option ℕ := (order n start).find? p

/-- The numbers with the property in the order of the search. -/
def hits (n : ℕ) (p : ℕ → Bool) (start : ℕ) : List ℕ := (order n start).filter p

theorem length_order : (order n start).length = n := by
  rw [order, List.length_rotate, List.length_range]

theorem mem_order {k : ℕ} : k ∈ order n start ↔ k < n := by
  rw [order, List.mem_rotate, List.mem_range]

theorem mem_hits {k : ℕ} : k ∈ hits n p start ↔ k < n ∧ p k = true := by
  rw [hits, List.mem_filter, mem_order]

theorem nodup_hits : (hits n p start).Nodup :=
  (List.nodup_rotate.2 List.nodup_range).filter p

theorem order_getElem? {k : ℕ} (hk : k < n) : (order n start)[k]? = some ((start + k) % n) := by
  have hlt : (start + k) % n < n := Nat.mod_lt _ (Nat.zero_lt_of_lt hk)
  rw [order, List.getElem?_rotate (by rwa [List.length_range]), List.length_range,
    List.getElem?_range (by rwa [Nat.add_comm]), Nat.add_comm]

theorem order_eq_map : order n start = (List.range n).map fun k => (start + k) % n := by
  refine List.ext_getElem? ?_
  intro k
  by_cases hk : k < n
  · rw [order_getElem? hk, List.getElem?_map, List.getElem?_range hk, Option.map_some]
  · rw [List.getElem?_eq_none (by rw [length_order]; omega),
      List.getElem?_eq_none (by rw [List.length_map, List.length_range]; omega)]

/-- Backwards, the numbers before the start, round the circle. -/
theorem reverse_order :
    (order n start).reverse = (List.range' 1 n).map fun k => (start + n - k) % n := by
  refine List.ext_getElem? ?_
  intro k
  by_cases hk : k < n
  · rw [List.getElem?_reverse (by rwa [length_order]), length_order, order_getElem? (by omega),
      List.getElem?_map, List.getElem?_range' hk, Option.map_some]
    congr 2
    omega
  · rw [List.getElem?_eq_none (by rw [List.length_reverse, length_order]; omega),
      List.getElem?_eq_none (by rw [List.length_map, List.length_range']; omega)]

theorem next_eq_head? : next n p start = (hits n p start)[0]? := by
  rw [next, hits, ← List.head?_filter, List.head?_eq_getElem?]

theorem next_eq_none_iff : next n p start = none ↔ ∀ k < n, p k = false := by
  simp [next, mem_order]

/-- The order from the number after `r` on is the old one, turned past `r`. -/
theorem order_past (h : order n start = before ++ r :: after) :
    order n (r + 1) = after ++ (before ++ [r]) := by
  have hlen : before.length < n := by
    have hall : (order n start).length = n := length_order
    rw [h, List.length_append, List.length_cons] at hall
    omega
  have hr : r = (start + before.length) % n := by
    have hget : (order n start)[before.length]? = _ := order_getElem? hlen
    rw [h, List.getElem?_append_right le_rfl, Nat.sub_self] at hget
    exact Option.some.inj hget
  have hturn : order n (r + 1) = (order n start).rotate (before.length + 1) := by
    rw [order, order, List.rotate_rotate, hr, ← List.rotate_mod (List.range n),
      ← List.rotate_mod (List.range n) (_ + _), List.length_range, Nat.mod_add_mod, Nat.add_assoc]
  rw [hturn, h, show before ++ r :: after = (before ++ [r]) ++ after by simp,
    show before.length + 1 = (before ++ [r]).length by simp, List.rotate_append_length_eq]

/-- So do the hits, turned past the one found. -/
theorem hits_past (h : (hits n p start)[i]? = some r) :
    hits n p (r + 1) = (hits n p start).rotate (i + 1) := by
  obtain ⟨hi, hget⟩ := List.getElem?_eq_some_iff.1 h
  have hsplit : (order n start).filter p =
      (hits n p start).take i ++ r :: (hits n p start).drop (i + 1) := by
    rw [← hget, ← List.drop_eq_getElem_cons hi, List.take_append_drop, hits]
  obtain ⟨before, rest, hrest, hbefore, hr⟩ := List.filter_eq_append_iff.1 hsplit
  obtain ⟨between, after, rfl, hbetween, hpr, hafter⟩ := List.filter_eq_cons_iff.1 hr
  rw [← List.append_assoc] at hrest
  have hnone : between.filter p = [] := List.filter_eq_nil_iff.2 hbetween
  have hleft : (before ++ between ++ [r]).filter p = (hits n p start).take i ++ [r] := by
    simp [hbefore, hnone, hpr]
  have hall : hits n p start =
      ((hits n p start).take i ++ [r]) ++ (hits n p start).drop (i + 1) := by
    conv_lhs => rw [hits, hsplit]
    simp
  have hlen : ((hits n p start).take i ++ [r]).length = i + 1 := by
    rw [List.length_append, List.length_take_of_le hi.le, List.length_singleton]
  have hturn := List.rotate_append_length_eq ((hits n p start).take i ++ [r])
    ((hits n p start).drop (i + 1))
  rw [← hall, hlen] at hturn
  rw [hits, order_past hrest, List.filter_append, hafter, hleft, hturn]

/-- **A search that goes on behind the last hit** visits the hits in order, round the circle. -/
theorem next_visits (cur : ℕ → Option ℕ) (hzero : cur 0 = next n p start)
    (hnone : ∀ k, cur k = none → ∃ start', cur (k + 1) = next n p start')
    (hsome : ∀ k r, cur k = some r → cur (k + 1) = next n p (r + 1)) (k : ℕ) :
    cur k = (hits n p start)[k % (hits n p start).length]? := by
  induction k with
  | zero => rw [hzero, next_eq_head?, Nat.zero_mod]
  | succ k ih =>
    cases hcur : cur k with
    | none =>
      -- there are no hits
      obtain ⟨start', hnext⟩ := hnone k hcur
      have hlen : (hits n p start).length = 0 := by
        by_contra hne
        have hlt := Nat.mod_lt k (Nat.pos_of_ne_zero hne)
        rw [hcur, List.getElem?_eq_getElem hlt] at ih
        cases ih
      have hempty := List.eq_nil_of_length_eq_zero hlen
      have hall : ∀ k < n, p k = false := by
        intro j hj
        by_contra hp
        have hmem : j ∈ hits n p start := mem_hits.2 ⟨hj, Bool.not_eq_false _ ▸ hp⟩
        rw [hempty] at hmem
        cases hmem
      rw [hnext, next_eq_none_iff.2 hall, hempty]
      rfl
    | some r =>
      rw [hcur] at ih
      have hlt := (List.getElem?_eq_some_iff.1 ih.symm).1
      have hpos : 0 < (hits n p start).length := Nat.zero_lt_of_lt hlt
      rw [hsome k r hcur, next_eq_head?, hits_past ih.symm, List.getElem?_rotate hpos, Nat.zero_add,
        Nat.mod_add_mod]

end Cyclic

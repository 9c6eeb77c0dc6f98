/-
  Spans of marked elements in the rows of a text, and the first or the last place of a kind in
  reading order.

  * `At`, `IsStart`, `IsEnd`: an element is marked; it is the first or the last one of its span.
  * `skip`: past all elements that meet a condition, as a `while` loop goes.
  * `Finds`, `FindsBack`: a search in one row; `FindsAt`, `FindsBackAt`: in the rows.
  * `findsAt_rows`, `findsBackAt_rows`: the rows are searched one after the other.
  * `eq_of_findsAt`: there and back again.
-/
import Mathlib.Data.List.TakeWhile
import Nexterm.Lib.TextRange

namespace Nexterm.Spans

open TextRange

section

variable {α : Type} {q : α → Bool} {l : List α}

/-! ## Spans -/

variable (q) in
/-- The element is marked. -/
def At (l : List α) (i : ℕ) : Prop := l[i]?.any q = true

variable (q) in
/-- The first element of a span. -/
def IsStart (l : List α) (i : ℕ) : Prop := At q l i ∧ (i = 0 ∨ ¬At q l (i - 1))

variable (q) in
/-- The last element of a span. -/
def IsEnd (l : List α) (i : ℕ) : Prop := At q l i ∧ ¬At q l (i + 1)

theorem at_append_left {l₁ l₂ : List α} {i : ℕ} (h : i < l₁.length) :
    At q (l₁ ++ l₂) i ↔ At q l₁ i := by
  rw [At, At, List.getElem?_append_left h]

theorem at_append_right {l₁ l₂ : List α} (i : ℕ) :
    At q (l₁ ++ l₂) (l₁.length + i) ↔ At q l₂ i := by
  rw [At, At, List.getElem?_append_right (Nat.le_add_right _ _), Nat.add_sub_cancel_left]

theorem at_of_all (h : ∀ a ∈ l, q a = true) {i : ℕ} (hi : i < l.length) : At q l i := by
  rw [At, List.getElem?_eq_getElem hi]
  exact h _ (List.getElem_mem hi)

theorem not_at_of_all (h : ∀ a ∈ l, q a = false) (i : ℕ) : ¬At q l i := by
  unfold At
  cases hi : l[i]? with
  | none => simp
  | some a => simp [h a (List.mem_of_getElem? hi)]

theorem lt_of_at {i : ℕ} (h : At q l i) : i < l.length := by
  by_contra hle
  rw [At, List.getElem?_eq_none (not_lt.1 hle)] at h
  cases h

theorem at_not_iff {i : ℕ} (hi : i < l.length) : At (!q ·) l i ↔ ¬At q l i := by
  simp [At, List.getElem?_eq_getElem hi]

/-! ## Loops -/

/-- Past the elements from `c` on that meet `p`. -/
def skip (p : α → Bool) (l : List α) (c : ℕ) : ℕ := c + ((l.drop c).takeWhile p).length

theorem skip_spec (p : α → Bool) (l : List α) (c : ℕ) :
    c ≤ skip p l c ∧ (∀ i, c ≤ i → i < skip p l c → At p l i) ∧ ¬At p l (skip p l c) := by
  have hat : ∀ i, At p l (c + i) ↔ At p (l.drop c) i := by
    intro i
    rw [At, At, List.getElem?_drop]
  refine ⟨Nat.le_add_right _ _, ?_, ?_⟩
  · intro i hc hi
    obtain ⟨j, rfl⟩ := Nat.exists_eq_add_of_le hc
    have hj : j < ((l.drop c).takeWhile p).length := by
      unfold skip at hi
      omega
    rw [hat, ← @List.takeWhile_append_dropWhile _ p (l.drop c), at_append_left hj]
    exact at_of_all (fun a ha => List.mem_takeWhile_imp ha) hj
  · rw [skip, hat, ← @List.takeWhile_append_dropWhile _ p (l.drop c)]
    have hhead : At p ((l.drop c).takeWhile p ++ (l.drop c).dropWhile p) ((l.drop c).takeWhile p).length ↔
        At p ((l.drop c).dropWhile p) 0 := at_append_right 0
    rw [List.takeWhile_append_dropWhile] at hhead ⊢
    rw [hhead, At, ← List.head?_eq_getElem?]
    have hnot := List.head?_dropWhile_not p (l.drop c)
    cases hd : ((l.drop c).dropWhile p).head? with
    | none => simp
    | some a => simp [hd] at hnot; simp [hnot]

/-- The span that ends last before `stop`, from its last element back, and all that is before it. -/
def backward (q : α → Bool) (l : List α) (stop : ℕ) : List α :=
  (l.take stop).reverse.dropWhile (!q ·)

/-! ## One row -/

/-- The first place of a kind from `start` on. -/
def Finds (S : ℕ → Prop) (start : ℕ) : Option ℕ → Prop
  | some i => start ≤ i ∧ S i ∧ ∀ j, start ≤ j → S j → i ≤ j
  | none => ∀ j, start ≤ j → ¬S j

/-- The last place of a kind before `stop`. -/
def FindsBack (S : ℕ → Prop) (stop : ℕ) : Option ℕ → Prop
  | some i => i < stop ∧ S i ∧ ∀ j, j < stop → S j → j ≤ i
  | none => ∀ j, j < stop → ¬S j

/-- The next marked element. -/
def nextMarked (q : α → Bool) (l : List α) (c : ℕ) : Option ℕ :=
  if skip (!q ·) l c < l.length then some (skip (!q ·) l c) else none

/-- The end of the next span. -/
def nextEnd (q : α → Bool) (l : List α) (c : ℕ) : Option ℕ :=
  if skip (!q ·) l c < l.length then some (skip q l (skip (!q ·) l c) - 1) else none

/-- The start of the last span before `stop`. -/
def lastStart (q : α → Bool) (l : List α) (stop : ℕ) : Option ℕ :=
  if backward q l stop = [] then none else some ((backward q l stop).dropWhile q).length

/-- No element between is marked. -/
theorem not_at_skip {c i : ℕ} (hc : c ≤ i) (hi : i < skip (!q ·) l c) : ¬At q l i := by
  have hat := (skip_spec (!q ·) l c).2.1 i hc hi
  exact (at_not_iff (lt_of_at hat)).1 hat

theorem at_skip {c : ℕ} (h : skip (!q ·) l c < l.length) : At q l (skip (!q ·) l c) := by
  have hnot := (skip_spec (!q ·) l c).2.2
  rwa [at_not_iff h, not_not] at hnot

theorem not_at_of_length_le {c i : ℕ} (h : ¬skip (!q ·) l c < l.length) (hc : c ≤ i) : ¬At q l i := by
  intro hat
  exact not_at_skip hc ((lt_of_at hat).trans_le (not_lt.1 h)) hat

/-- After a place that is not marked, or at the beginning, the next marked element starts a span. -/
theorem finds_nextMarked {c : ℕ} (hc : c = 0 ∨ ¬At q l (c - 1)) :
    Finds (IsStart q l) c (nextMarked q l c) := by
  unfold nextMarked
  have hle := (skip_spec (!q ·) l c).1
  split_ifs with h
  · refine ⟨hle, ⟨at_skip h, ?_⟩, ?_⟩
    · rcases hle.eq_or_lt with heq | hlt
      · rw [← heq]
        exact hc
      · exact .inr (@not_at_skip _ q l c _ (Nat.le_sub_one_of_lt hlt) (by omega))
    · intro j hj hstart
      by_contra hlt
      exact not_at_skip hj (not_le.1 hlt) hstart.1
  · intro j hj hstart
    exact not_at_of_length_le h hj hstart.1

/-- In a span, one has to leave it first. -/
theorem finds_nextMarked_skip (c : ℕ) :
    Finds (IsStart q l) (c + 1) (nextMarked q l (skip q l c)) := by
  obtain ⟨hle, hin, hout⟩ := skip_spec q l c
  -- no span starts in the rest of this one
  have hnone : ∀ j, c + 1 ≤ j → j < skip q l c → ¬IsStart q l j := by
    rintro j hj hlt ⟨-, hzero | hnot⟩
    · omega
    · exact hnot (hin _ (by omega) (by omega))
  unfold nextMarked
  have hle' := (skip_spec (!q ·) l (skip q l c)).1
  have hrest : ∀ j, c + 1 ≤ j → IsStart q l j → skip q l c ≤ j := by
    intro j hj hstart
    by_contra hlt
    exact hnone j hj (not_le.1 hlt) hstart
  split_ifs with h
  · have hat := at_skip h
    have hne : skip (!q ·) l (skip q l c) ≠ skip q l c := fun heq => hout (heq ▸ hat)
    have hbefore := @not_at_skip _ q l (skip q l c) (skip (!q ·) l (skip q l c) - 1) (by omega) (by omega)
    refine ⟨by omega, ⟨hat, .inr hbefore⟩, ?_⟩
    intro j hj hstart
    by_contra hlt
    exact not_at_skip (hrest j hj hstart) (not_le.1 hlt) hstart.1
  · intro j hj hstart
    exact not_at_of_length_le h (hrest j hj hstart) hstart.1

theorem finds_nextEnd (c : ℕ) : Finds (IsEnd q l) c (nextEnd q l c) := by
  unfold nextEnd
  have hle := (skip_spec (!q ·) l c).1
  obtain ⟨hle', hin, hout⟩ := skip_spec q l (skip (!q ·) l c)
  split_ifs with h
  · have hat := at_skip h
    have hne : skip q l (skip (!q ·) l c) ≠ skip (!q ·) l c := by
      intro heq
      rw [heq] at hout
      exact hout hat
    refine ⟨by omega, ⟨hin _ (by omega) (by omega), ?_⟩, ?_⟩
    · rwa [Nat.sub_add_cancel (by omega)]
    · intro j hj hend
      by_contra hlt
      have hmarked : ¬j < skip (!q ·) l c := fun hj' => not_at_skip hj hj' hend.1
      exact hend.2 (hin _ (by omega) (by omega))
  · intro j hj hend
    exact not_at_of_length_le h hj hend.1

theorem eq_false_of_head?_dropWhile {p : α → Bool} {a : α} (h : (l.dropWhile p).head? = some a) :
    p a = false := by
  have hnot := List.head?_dropWhile_not p l
  rw [h] at hnot
  exact hnot

theorem not_at_head_reverse {t : List α} (h : ∀ a ∈ t.head?, q a = false) :
    t.length = 0 ∨ ¬At q t.reverse (t.length - 1) := by
  cases t with
  | nil => exact .inl rfl
  | cons a t =>
    right
    have hlast := @at_append_right α q t.reverse [a] 0
    rw [Nat.add_zero, List.length_reverse] at hlast
    rw [List.reverse_cons, List.length_cons, Nat.add_sub_cancel, hlast]
    simp [At, h a rfl]

theorem findsBack_lastStart (stop : ℕ) : FindsBack (IsStart q l) stop (lastStart q l stop) := by
  -- the part before `stop`: what comes first, the last span, and elements that are not marked
  let before := (backward q l stop).dropWhile q
  let span := (backward q l stop).takeWhile q
  let after := (l.take stop).reverse.takeWhile (!q ·)
  have hsplit : l.take stop = before.reverse ++ (span.reverse ++ after.reverse) := by
    rw [← List.append_assoc, ← List.reverse_append, List.takeWhile_append_dropWhile,
      ← List.reverse_append, backward, List.takeWhile_append_dropWhile, List.reverse_reverse]
  have hlen : (l.take stop).length = before.length + (span.length + after.length) := by
    simp [hsplit]
  have hstop : (l.take stop).length ≤ stop := List.length_take_le _ _
  have hat : ∀ j, j < stop → (At q l j ↔ At q (before.reverse ++ (span.reverse ++ after.reverse)) j) := by
    intro j hj
    rw [← hsplit, At, At, List.getElem?_take_of_lt hj]
  have hspan : ∀ j, j < span.length →
      At q (before.reverse ++ (span.reverse ++ after.reverse)) (before.length + j) := by
    intro j hj
    rw [← @List.length_reverse _ before, at_append_right, at_append_left (by simpa using hj)]
    refine at_of_all (fun a ha => ?_) (by simpa using hj)
    exact List.mem_takeWhile_imp (List.mem_reverse.1 ha)
  have hafter : ∀ j, ¬At q (before.reverse ++ (span.reverse ++ after.reverse))
      (before.length + (span.length + j)) := by
    intro j
    rw [← @List.length_reverse _ before, at_append_right, ← @List.length_reverse _ span,
      at_append_right]
    refine not_at_of_all (fun a ha => ?_) j
    simpa using List.mem_takeWhile_imp (List.mem_reverse.1 ha)
  have hbefore : before.length = 0 ∨
      ¬At q (before.reverse ++ (span.reverse ++ after.reverse)) (before.length - 1) := by
    have hhead : ∀ a ∈ before.head?, q a = false := fun a ha =>
      eq_false_of_head?_dropWhile (Option.mem_def.1 ha)
    rcases not_at_head_reverse hhead with hzero | hnot
    · exact .inl hzero
    · by_cases hzero : before.length = 0
      · exact .inl hzero
      · right
        rwa [at_append_left (by rw [List.length_reverse]; omega)]
  unfold lastStart
  split_ifs with hnil
  · intro j hj hstart
    have hempty : before = [] ∧ span = [] := by
      simp [before, span, hnil]
    have hlast := hafter j
    rw [hempty.1, hempty.2, List.length_nil, Nat.zero_add, Nat.zero_add] at hlast
    have hmarked := (hat j hj).1 hstart.1
    rw [hempty.1, hempty.2] at hmarked
    exact hlast hmarked
  · -- the span has an element
    have hpos : 0 < span.length := by
      cases hb : backward q l stop with
      | nil => exact absurd hb hnil
      | cons a rest =>
        have hfirst : q a = true := by
          have hhead := @eq_false_of_head?_dropWhile _ (l.take stop).reverse (!q ·) a (by
            show (backward q l stop).head? = some a
            rw [hb]
            rfl)
          simpa using hhead
        simp [span, hb, hfirst]
    have hlt : before.length < stop := by omega
    refine ⟨hlt, ⟨(hat _ hlt).2 (hspan 0 hpos), ?_⟩, ?_⟩
    · rcases hbefore with hzero | hnot
      · exact .inl hzero
      · exact .inr fun h => hnot ((hat _ (by omega)).1 h)
    · intro j hj hstart
      by_contra hgt
      obtain ⟨i, rfl⟩ := Nat.exists_eq_add_of_lt (not_le.1 hgt)
      have hmarked := (hat _ hj).1 hstart.1
      rcases hstart.2 with hzero | hnot
      · omega
      · by_cases hi : i < span.length
        · refine hnot ((hat _ (by omega)).2 ?_)
          exact hspan i hi
        · obtain ⟨k, rfl⟩ := Nat.exists_eq_add_of_le (not_lt.1 hi)
          refine hafter (k + 1) ?_
          rw [← Nat.add_assoc span.length, ← Nat.add_assoc]
          exact hmarked

/-- The elements from one place up to another one, by their places; the list begins at `k`. -/
theorem take_drop_eq_filter (start stop : ℕ) : ∀ (l : List α) (k : ℕ),
    (l.take (stop - k)).drop (start - k) =
      ((l.zipIdx k).filter fun x => start ≤ x.2 ∧ x.2 < stop).map (·.1)
  | [], k => by simp
  | a :: l, k => by
    have ih := take_drop_eq_filter start stop l (k + 1)
    rw [List.zipIdx_cons]
    by_cases hstop : k < stop
    · rw [show stop - k = stop - (k + 1) + 1 by omega, List.take_succ_cons]
      by_cases hstart : start ≤ k
      · rw [show start - (k + 1) = 0 by omega, List.drop_zero] at ih
        rw [show start - k = 0 by omega, List.drop_zero, ih,
          List.filter_cons_of_pos (by simp [hstart, hstop])]
        rfl
      · rw [show start - k = start - (k + 1) + 1 by omega, List.drop_succ_cons, ih,
          List.filter_cons_of_neg (by simp [hstart])]
    · rw [show stop - (k + 1) = 0 by omega, List.take_zero, List.drop_nil] at ih
      rw [show stop - k = 0 by omega, List.take_zero, List.drop_nil, ih,
        List.filter_cons_of_neg (by simp [hstop])]

end

/-! ## The rows of a text -/

variable {S : ℕ × ℕ → Prop} {β : Type}

/-- The first place of a kind, in reading order, from `start` on. -/
def FindsAt (S : ℕ × ℕ → Prop) (start : ℕ × ℕ) (maxRow : ℕ) : Option (ℕ × ℕ) → Prop
  | some p => S p ∧ Reads start p ∧ p.2 ≤ maxRow ∧
    ∀ p', S p' → Reads start p' → p'.2 ≤ maxRow → Reads p p'
  | none => ∀ p, Reads start p → p.2 ≤ maxRow → ¬S p

/-- The last place of a kind before `stop`. -/
def FindsBackAt (S : ℕ × ℕ → Prop) (stop : ℕ × ℕ) : Option (ℕ × ℕ) → Prop
  | some p => S p ∧ ¬Reads stop p ∧ ∀ p', S p' → ¬Reads stop p' → Reads p' p
  | none => ∀ p, ¬Reads stop p → ¬S p

/-- From the next place of a kind, the last one before it is the one where the search began. -/
theorem eq_of_findsAt {p q : ℕ × ℕ} {maxRow : ℕ} {found : Option (ℕ × ℕ)} (hp : S p)
    (hnext : FindsAt S (p.1 + 1, p.2) maxRow (some q)) (hback : FindsBackAt S q found) :
    found = some p := by
  obtain ⟨-, hreads, hq, hleast⟩ := hnext
  have hpq : ¬Reads q p := by
    unfold Reads at hreads ⊢
    dsimp only at hreads
    omega
  cases found with
  | none => exact absurd hp (hback p hpq)
  | some b =>
    obtain ⟨hb, hbq, hlast⟩ := hback
    have hpb : Reads p b := hlast p hp hpq
    refine congrArg some (Reads.antisymm ?_ hpb)
    by_contra hbp
    -- a place after `p` and before `q` would have been found
    have hafter : Reads (p.1 + 1, p.2) b := by
      unfold Reads at hpb hbp ⊢
      dsimp only
      omega
    exact hbq (hleast b hb hafter ((reads_of_not hbq).row_le.trans hq))

theorem findSome?_range' (f : ℕ → Option β) : ∀ n start,
    match (List.range' start n).findSome? f with
    | some b => ∃ i, start ≤ i ∧ i < start + n ∧ f i = some b ∧ ∀ j, start ≤ j → j < i → f j = none
    | none => ∀ j, start ≤ j → j < start + n → f j = none
  | 0, start => by
    show ∀ j, _
    intro j hj hlt
    omega
  | n + 1, start => by
    have ih := findSome?_range' f n (start + 1)
    rw [List.range'_succ, List.findSome?_cons]
    cases hf : f start with
    | some b =>
      refine ⟨start, le_rfl, by omega, hf, ?_⟩
      intro j hj hlt
      omega
    | none =>
      have hall : ∀ {m}, (∀ j, start + 1 ≤ j → j < m → f j = none) →
          ∀ j, start ≤ j → j < m → f j = none := by
        intro m h j hj hlt
        rcases hj.eq_or_lt with rfl | hlt'
        · exact hf
        · exact h j hlt' hlt
      dsimp only
      generalize (List.range' (start + 1) n).findSome? f = found at ih ⊢
      cases found with
      | some b =>
        obtain ⟨i, hle, hlt, hi, hbefore⟩ := ih
        exact ⟨i, by omega, by omega, hi, hall hbefore⟩
      | none =>
        have hlast := hall ih
        intro j hj hlt
        exact hlast j hj (by omega)

theorem findSome?_range_reverse (f : ℕ → Option β) : ∀ n,
    match (List.range n).reverse.findSome? f with
    | some b => ∃ i < n, f i = some b ∧ ∀ j, i < j → j < n → f j = none
    | none => ∀ j < n, f j = none
  | 0 => by
    show ∀ j, _
    intro j hj
    omega
  | n + 1 => by
    have ih := findSome?_range_reverse f n
    rw [List.range_succ, List.reverse_append, List.reverse_singleton, List.singleton_append,
      List.findSome?_cons]
    cases hf : f n with
    | some b =>
      refine ⟨n, Nat.lt_succ_self n, hf, ?_⟩
      intro j hj hlt
      omega
    | none =>
      have hall : ∀ {P : ℕ → Prop}, (∀ j, P j → j < n → f j = none) →
          ∀ j, P j → j < n + 1 → f j = none := by
        intro P h j hP hlt
        rcases (Nat.lt_succ_iff.1 hlt).eq_or_lt with rfl | hlt'
        · exact hf
        · exact h j hP hlt'
      dsimp only
      generalize (List.range n).reverse.findSome? f = found at ih ⊢
      cases found with
      | some b =>
        obtain ⟨i, hlt, hi, hafter⟩ := ih
        exact ⟨i, hlt.trans (Nat.lt_succ_self n), hi, hall hafter⟩
      | none => exact fun j hj => hall (P := fun _ => True) (fun j _ => ih j) j trivial hj

/-- **The rows are searched one after the other**, the first one from a column on. -/
theorem findsAt_rows {col row maxRow : ℕ} {first : Option ℕ} {later : ℕ → Option ℕ}
    (hfirst : Finds (fun i => S (i, row)) col first)
    (hlater : ∀ r, Finds (fun i => S (i, r)) 0 (later r)) :
    FindsAt S (col, row) (max row maxRow) (first.map (·, row) <|>
      (List.range' (row + 1) (maxRow - row)).findSome? fun r => (later r).map (·, r)) := by
  cases first with
  | some i =>
    obtain ⟨hle, hi, hmin⟩ := hfirst
    refine ⟨hi, .inr ⟨rfl, hle⟩, le_max_left _ _, ?_⟩
    rintro ⟨col', row'⟩ hS (hlt | ⟨heq, hcol⟩) -
    · exact .inl hlt
    · obtain rfl : row = row' := heq
      exact .inr ⟨rfl, hmin col' hcol hS⟩
  | none =>
    have hfound := findSome?_range' (fun r => (later r).map (·, r)) (maxRow - row) (row + 1)
    rw [Option.map_none]
    show FindsAt S _ _ ((List.range' (row + 1) (maxRow - row)).findSome? _)
    -- a row without a result has no such place
    have hempty : ∀ r col', (later r).map (·, r) = none → ¬S (col', r) := by
      intro r col' hnone hS
      have hfinds := hlater r
      rw [Option.map_eq_none_iff.1 hnone] at hfinds
      exact hfinds col' (Nat.zero_le _) hS
    generalize (List.range' (row + 1) (maxRow - row)).findSome? _ = found at hfound ⊢
    cases found with
    | none =>
      rintro ⟨col', row'⟩ (hlt | ⟨heq, hcol⟩) hle hS
      · exact hempty row' col' (hfound row' hlt (by dsimp only at hle; omega)) hS
      · obtain rfl : row = row' := heq
        exact hfirst col' hcol hS
    | some p =>
      obtain ⟨r, hle, hlt, hp, hbefore⟩ := hfound
      obtain ⟨i, hi, rfl⟩ := Option.map_eq_some_iff.1 hp
      have hfinds := hlater r
      rw [hi] at hfinds
      refine ⟨hfinds.2.1, .inl hle, by dsimp only; omega, ?_⟩
      rintro ⟨col', row'⟩ hS (hgt | ⟨heq, hcol⟩) -
      · rcases lt_trichotomy row' r with hlt' | rfl | hgt'
        · exact absurd hS (hempty row' col' (hbefore row' hgt hlt'))
        · exact .inr ⟨rfl, hfinds.2.2 col' (Nat.zero_le _) hS⟩
        · exact .inl hgt'
      · obtain rfl : row = row' := heq
        exact absurd hS (hfirst col' hcol)

/-- **The rows are searched backward**, the first one before a column. -/
theorem findsBackAt_rows {col row : ℕ} {first : Option ℕ} {width : ℕ → ℕ} {earlier : ℕ → Option ℕ}
    (hfirst : FindsBack (fun i => S (i, row)) col first)
    (hearlier : ∀ r, FindsBack (fun i => S (i, r)) (width r) (earlier r))
    (hwidth : ∀ i r, S (i, r) → i < width r) :
    FindsBackAt S (col, row) (first.map (·, row) <|>
      (List.range row).reverse.findSome? fun r => (earlier r).map (·, r)) := by
  have hbelow : ∀ col' row', ¬Reads (col, row) (col', row') ↔
      row' < row ∨ row' = row ∧ col' < col := by
    intro col' row'
    unfold Reads
    dsimp only
    omega
  cases first with
  | some i =>
    obtain ⟨hlt, hi, hmax⟩ := hfirst
    refine ⟨hi, (hbelow i row).2 (.inr ⟨rfl, hlt⟩), ?_⟩
    rintro ⟨col', row'⟩ hS hbefore
    rcases (hbelow col' row').1 hbefore with hlt' | ⟨rfl, hcol⟩
    · exact .inl hlt'
    · exact .inr ⟨rfl, hmax col' hcol hS⟩
  | none =>
    have hfound := findSome?_range_reverse (fun r => (earlier r).map (·, r)) row
    rw [Option.map_none]
    show FindsBackAt S _ ((List.range row).reverse.findSome? _)
    have hempty : ∀ r col', (earlier r).map (·, r) = none → ¬S (col', r) := by
      intro r col' hnone hS
      have hfinds := hearlier r
      rw [Option.map_eq_none_iff.1 hnone] at hfinds
      exact hfinds col' (hwidth col' r hS) hS
    generalize (List.range row).reverse.findSome? _ = found at hfound ⊢
    cases found with
    | none =>
      rintro ⟨col', row'⟩ hbefore hS
      rcases (hbelow col' row').1 hbefore with hlt' | ⟨rfl, hcol⟩
      · exact hempty row' col' (hfound row' hlt') hS
      · exact hfirst col' hcol hS
    | some p =>
      obtain ⟨r, hlt, hp, hafter⟩ := hfound
      obtain ⟨i, hi, rfl⟩ := Option.map_eq_some_iff.1 hp
      have hfinds := hearlier r
      rw [hi] at hfinds
      refine ⟨hfinds.2.1, (hbelow i r).2 (.inl hlt), ?_⟩
      rintro ⟨col', row'⟩ hS hbefore
      rcases (hbelow col' row').1 hbefore with hlt' | ⟨rfl, hcol⟩
      · rcases lt_trichotomy row' r with hlt'' | rfl | hgt
        · exact .inl hlt''
        · exact .inr ⟨rfl, hfinds.2.2 col' (hwidth col' row' hS) hS⟩
        · exact absurd hS (hempty row' col' (hafter row' hgt hlt'))
      · exact absurd hS (hfirst col' hcol)

end Nexterm.Spans

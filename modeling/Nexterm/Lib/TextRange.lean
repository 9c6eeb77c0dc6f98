/-
  Text between two positions of some rows, in reading order.

  * `Reads`: a position comes before another one, or is it; `earlier`, `later`.
  * `range_congr_iff`: when two ranges have the same cells in a rectangle.
  * `piece`: the cells from one column to another; `lines`: a piece of each of some rows.
  * `trimmed_append_iff`: cells at the end are trimmed away exactly if they are blank.
  * `join_eq_iff`: lines that have grown, among others, are joined to the same text only if
    nothing has changed.
-/
import Mathlib.Data.List.Basic
import Mathlib.Data.List.DropRight
import Mathlib.Tactic

namespace Nexterm.TextRange

/-! ## Positions -/

/-- The position, a column and a row, comes before the other one, or is it. -/
def Reads (p q : ℕ × ℕ) : Prop := p.2 < q.2 ∨ p.2 = q.2 ∧ p.1 ≤ q.1

instance (p q : ℕ × ℕ) : Decidable (Reads p q) := inferInstanceAs (Decidable (_ ∨ _))

/-- The one that comes first, -/
def earlier (p q : ℕ × ℕ) : ℕ × ℕ := if Reads p q then p else q

/-- and the other one. -/
def later (p q : ℕ × ℕ) : ℕ × ℕ := if Reads p q then q else p

section

variable {p q r : ℕ × ℕ}

theorem Reads.refl (p : ℕ × ℕ) : Reads p p := .inr ⟨rfl, le_rfl⟩

theorem Reads.trans (h : Reads p q) (h' : Reads q r) : Reads p r := by
  unfold Reads at *
  omega

theorem Reads.antisymm (h : Reads p q) (h' : Reads q p) : p = q := by
  unfold Reads at h h'
  exact Prod.ext (by omega) (by omega)

theorem Reads.row_le (h : Reads p q) : p.2 ≤ q.2 := by
  unfold Reads at h
  omega

theorem reads_of_not (h : ¬Reads p q) : Reads q p := by
  unfold Reads at *
  omega

theorem earlier_reads_later (p q : ℕ × ℕ) : Reads (earlier p q) (later p q) := by
  unfold earlier later
  split_ifs with h
  · exact h
  · exact reads_of_not h

theorem earlier_later_cases (p q : ℕ × ℕ) :
    earlier p q = p ∧ later p q = q ∨ earlier p q = q ∧ later p q = p := by
  unfold earlier later
  split_ifs
  · exact .inl ⟨rfl, rfl⟩
  · exact .inr ⟨rfl, rfl⟩

/-! ## Ranges within a rectangle -/

variable {cols rows : ℕ} {first last first' last' : ℕ × ℕ}

/-- The ranges from two positions on have the same cells in a rectangle of `cols` times `rows`
    cells, one of which is the first position: the other one may be to the right of the row
    before. -/
theorem reads_congr_left_iff (hfirst : first.1 < cols ∧ first.2 < rows) :
    (∀ p : ℕ × ℕ, p.1 < cols → p.2 < rows → (Reads first' p ↔ Reads first p)) ↔
      first' = first ∨ first.1 = 0 ∧ first'.2 + 1 = first.2 ∧ cols ≤ first'.1 := by
  constructor
  · intro h
    have hreads : Reads first' first := (h first hfirst.1 hfirst.2).2 (.refl first)
    rcases hreads with hrow | ⟨hrow, hcol⟩
    · have hbelow : Reads first (0, first'.2 + 1) :=
        (h (0, first'.2 + 1) (by omega) (by omega)).1 (.inl (Nat.lt_succ_self _))
      have hcols : cols ≤ first'.1 := by
        by_contra hlt
        have := (h first' (by omega) (by omega)).1 (.refl first')
        exact absurd this.row_le (by omega)
      unfold Reads at hbelow
      dsimp only at hbelow
      exact .inr ⟨by omega, by omega, hcols⟩
    · have hback := (h first' (by omega) (by omega)).1 (.refl first')
      exact .inl (Reads.antisymm (.inr ⟨hrow, hcol⟩) hback)
  · rintro (rfl | ⟨hcol, hrow, hcols⟩) p hp _
    · rfl
    · unfold Reads
      omega

/-- The ranges up to two positions have the same cells in a rectangle, one of which is the first
    position: the other one may be to the right of it, or below the rectangle. -/
theorem reads_congr_right_iff (hlast : last.1 < cols ∧ last.2 < rows) :
    (∀ p : ℕ × ℕ, p.1 < cols → p.2 < rows → (Reads p last' ↔ Reads p last)) ↔
      last' = last ∨ last.1 + 1 = cols ∧ Reads last last' ∧
        (last'.2 = last.2 ∨ rows ≤ last.2 + 1) := by
  constructor
  · intro h
    have hreads : Reads last last' := (h last hlast.1 hlast.2).2 (.refl last)
    by_cases hne : last' = last
    · exact .inl hne
    -- The cell on the right is not in the range, and neither is the row below.
    have hright : last.1 + 1 = cols := by
      by_contra hcol
      have hnext := (h (last.1 + 1, last.2) (by dsimp only; omega) hlast.2).1
      by_cases hrow : last.2 < last'.2
      · exact absurd (hnext (.inl hrow)) (by unfold Reads; dsimp only; omega)
      · have hcol' : last.1 ≠ last'.1 := fun heq =>
          hne (Prod.ext heq.symm (le_antisymm (not_lt.1 hrow) hreads.row_le))
        unfold Reads at hreads hnext
        dsimp only at hnext
        omega
    refine .inr ⟨hright, hreads, ?_⟩
    by_contra hrow
    rw [not_or] at hrow
    have hbelow := (h (0, last.2 + 1) (by omega) (by omega)).1
    have hle := hreads.row_le
    unfold Reads at hbelow
    dsimp only at hbelow
    omega
  · rintro (rfl | ⟨hcol, hreads, hrow⟩) p hp hp'
    · rfl
    · unfold Reads at *
      omega

/-- **Two ranges have the same cells in a rectangle**, one of which starts and ends in it. -/
theorem range_congr_iff (hfirst : first.1 < cols ∧ first.2 < rows)
    (hlast : last.1 < cols ∧ last.2 < rows) (hle : Reads first last) :
    (∀ p : ℕ × ℕ, p.1 < cols → p.2 < rows →
      (Reads first' p ∧ Reads p last' ↔ Reads first p ∧ Reads p last)) ↔
      (first' = first ∨ first.1 = 0 ∧ first'.2 + 1 = first.2 ∧ cols ≤ first'.1) ∧
        (last' = last ∨ last.1 + 1 = cols ∧ Reads last last' ∧
          (last'.2 = last.2 ∨ rows ≤ last.2 + 1)) := by
  rw [← reads_congr_left_iff hfirst, ← reads_congr_right_iff hlast]
  constructor
  · intro h
    have hfirst' : Reads first' first :=
      ((h first hfirst.1 hfirst.2).2 ⟨.refl first, hle⟩).1
    have hlast' : Reads last last' := ((h last hlast.1 hlast.2).2 ⟨hle, .refl last⟩).2
    refine ⟨fun p hp hp' => ⟨fun hreads => ?_, hfirst'.trans⟩,
      fun p hp hp' => ⟨fun hreads => ?_, fun hreads => hreads.trans hlast'⟩⟩
    · by_cases hin : Reads p last'
      · exact ((h p hp hp').1 ⟨hreads, hin⟩).1
      · exact hle.trans (hlast'.trans (reads_of_not hin))
    · by_cases hin : Reads first' p
      · exact ((h p hp hp').1 ⟨hin, hreads⟩).2
      · exact (reads_of_not hin).trans (hfirst'.trans hle)
  · rintro ⟨hstart, hstop⟩ p hp hp'
    rw [hstart p hp hp', hstop p hp hp']

end

/-! ## Lines -/

variable {α : Type} {blank : α → Bool}

/-- The cells of a row from a column on up to another one. -/
def piece (start stop : ℕ) (row : List α) : List α := (row.take stop).drop start

/-- The rows from `start` on, `count` of them as far as they exist, each turned into a line. -/
def lines {β γ : Type} (f : ℕ → β → γ) (rows : List β) (start count : ℕ) : List γ :=
  (List.range' start count).filterMap fun r => rows[r]?.map (f r)

section

variable {β γ : Type} {f : ℕ → β → γ} {rows : List β}

theorem lines_append (start m n : ℕ) :
    lines f rows start (m + n) = lines f rows start m ++ lines f rows (start + m) n := by
  rw [lines, ← List.range'_append_1, List.filterMap_append]
  rfl

theorem lines_eq_map {start count : ℕ} (h : start + count ≤ rows.length) (d : β) :
    lines f rows start count = (List.range' start count).map fun r => f r (rows[r]?.getD d) := by
  rw [lines, ← List.filterMap_eq_map]
  refine List.filterMap_congr fun r hr => ?_
  have hlt : r < rows.length := by
    have := List.mem_range'_1.1 hr
    omega
  simp [List.getElem?_eq_getElem hlt]

theorem lines_eq_nil_iff {start count : ℕ} :
    lines f rows start count = [] ↔ count = 0 ∨ rows.length ≤ start := by
  rw [lines, List.filterMap_eq_nil_iff]
  simp only [List.mem_range'_1, Option.map_eq_none_iff, List.getElem?_eq_none_iff]
  constructor
  · intro h
    by_contra hne
    have := h start (by omega)
    omega
  · rintro h r hr
    omega

end

theorem piece_append {start stop stop' : ℕ} (h : start ≤ stop) (h' : stop ≤ stop')
    (row : List α) : piece start stop' row = piece start stop row ++ piece stop stop' row := by
  have htake : (row.take stop').take stop = row.take stop := by
    rw [List.take_take, min_eq_left h']
  rw [piece, piece, piece, ← htake]
  conv_lhs => rw [← List.take_append_drop stop (row.take stop')]
  rw [List.drop_append]
  by_cases hlen : stop ≤ (row.take stop').length
  · rw [List.length_take, min_eq_left hlen, Nat.sub_eq_zero_of_le h, List.drop_zero]
  · rw [List.drop_eq_nil_of_le (i := stop) (by omega), List.drop_nil]

theorem mem_piece {start stop : ℕ} {row : List α} {a : α} :
    a ∈ piece start stop row ↔ ∃ c, start ≤ c ∧ c < stop ∧ row[c]? = some a := by
  rw [piece, List.mem_iff_getElem?]
  constructor
  · rintro ⟨k, hk⟩
    rw [List.getElem?_drop, List.getElem?_take] at hk
    split_ifs at hk with hlt
    exact ⟨start + k, Nat.le_add_right _ _, hlt, hk⟩
  · rintro ⟨c, hstart, hstop, hc⟩
    refine ⟨c - start, ?_⟩
    rw [List.getElem?_drop, Nat.add_sub_cancel' hstart, List.getElem?_take, if_pos hstop, hc]

theorem piece_take {start stop width : ℕ} (h : stop ≤ width) (row : List α) :
    piece start stop (row.take width) = piece start stop row := by
  rw [piece, List.take_take, min_eq_left h, piece]

/-! ## Trimming -/

theorem trimmed_append_iff (l l' : List α) :
    l.rdropWhile blank = (l ++ l').rdropWhile blank ↔ ∀ a ∈ l', blank a = true := by
  induction l' using List.reverseRecOn with
  | nil => simp
  | append_singleton l' a ih =>
    rw [← List.append_assoc]
    by_cases ha : blank a = true
    · rw [List.rdropWhile_concat_pos _ _ _ ha, ih]
      constructor
      · intro h b hb
        rcases List.mem_append.1 hb with hb | hb
        · exact h b hb
        · rw [List.mem_singleton.1 hb]
          exact ha
      · exact fun h b hb => h b (List.mem_append_left _ hb)
    · rw [List.rdropWhile_concat_neg _ _ _ ha]
      constructor
      · intro h
        have hle : (l.rdropWhile blank).length ≤ l.length :=
          (List.rdropWhile_prefix blank l).length_le
        rw [h] at hle
        simp only [List.length_append, List.length_singleton] at hle
        omega
      · exact fun h => (ha (h a (by simp))).elim

theorem length_trimmed_le (l l' : List α) :
    (l.rdropWhile blank).length ≤ ((l ++ l').rdropWhile blank).length := by
  induction l' using List.reverseRecOn with
  | nil => rw [List.append_nil]
  | append_singleton l' a ih =>
    rw [← List.append_assoc]
    by_cases ha : blank a = true
    · rwa [List.rdropWhile_concat_pos _ _ _ ha]
    · rw [List.rdropWhile_concat_neg _ _ _ ha]
      have hle := (List.rdropWhile_prefix blank l).length_le
      simp only [List.length_append, List.length_singleton]
      omega

/-! ## Joined lines -/

/-- The number of characters of some lines, each with the separator after it. -/
def size (l : List (List α)) : ℕ := (l.map fun line => line.length + 1).sum

@[simp] theorem size_append (l l' : List (List α)) : size (l ++ l') = size l + size l' := by
  simp [size]

theorem size_eq_zero {l : List (List α)} (h : size l = 0) : l = [] := by
  cases l with
  | nil => rfl
  | cons line l => simp [size] at h

theorem length_intercalate (sep : α) : ∀ {l : List (List α)}, l ≠ [] →
    ([sep].intercalate l).length + 1 = size l
  | [], h => (h rfl).elim
  | [line], _ => by simp [size]
  | line :: line' :: l, _ => by
    have ih := length_intercalate sep (List.cons_ne_nil line' l)
    rw [List.intercalate_cons_cons]
    simp only [size, List.map_cons, List.sum_cons, List.length_append,
      List.length_singleton] at ih ⊢
    omega

theorem size_le {ι : Type} {f g : ι → List α} {is : List ι}
    (h : ∀ i ∈ is, (f i).length ≤ (g i).length) : size (is.map f) ≤ size (is.map g) := by
  induction is with
  | nil => exact le_rfl
  | cons i is ih =>
    have hle := ih fun j hj => h j (List.mem_cons_of_mem _ hj)
    have hi := h i List.mem_cons_self
    simp only [size, List.map_cons, List.sum_cons] at hle ⊢
    omega

theorem length_eq_of_size {ι : Type} {f g : ι → List α} {is : List ι}
    (h : ∀ i ∈ is, (f i).length ≤ (g i).length) (hsize : size (is.map g) ≤ size (is.map f)) :
    ∀ i ∈ is, (f i).length = (g i).length := by
  induction is with
  | nil => exact List.forall_mem_nil _
  | cons i is ih =>
    have htail : ∀ j ∈ is, (f j).length ≤ (g j).length :=
      fun j hj => h j (List.mem_cons_of_mem _ hj)
    have hle := size_le htail
    have hi := h i List.mem_cons_self
    simp only [size, List.map_cons, List.sum_cons] at hle hsize
    rw [List.forall_mem_cons]
    refine ⟨by omega, ih htail ?_⟩
    simp only [size]
    omega

/-- **Lines that have grown, with others before and after them.** -/
theorem join_eq_iff {ι : Type} (sep : α) {f g : ι → List α} {is : List ι} (his : is ≠ [])
    (h : ∀ i ∈ is, (f i).length ≤ (g i).length) (before after : List (List α)) :
    [sep].intercalate (before ++ is.map g ++ after) = [sep].intercalate (is.map f) ↔
      (∀ i ∈ is, f i = g i) ∧ before = [] ∧ after = [] := by
  constructor
  · intro heq
    have hne : is.map f ≠ [] := by simpa using his
    have hne' : before ++ is.map g ++ after ≠ [] := by simp [his]
    have hlen := congrArg List.length heq
    have hf := length_intercalate sep hne
    have hg := length_intercalate sep hne'
    rw [size_append, size_append] at hg
    have hle := size_le h
    have hbefore : before = [] := size_eq_zero (by omega)
    have hafter : after = [] := size_eq_zero (by omega)
    subst hbefore hafter
    rw [List.nil_append, List.append_nil] at heq
    have hlengths := length_eq_of_size h (by omega)
    refine ⟨?_, rfl, rfl⟩
    clear hne hne' hlen hf hg hle his h
    induction is with
    | nil => exact List.forall_mem_nil _
    | cons i is ih =>
      have hi := hlengths i List.mem_cons_self
      cases is with
      | nil =>
        rw [List.forall_mem_singleton]
        simpa using heq.symm
      | cons j is =>
        simp only [List.map_cons, List.intercalate_cons_cons, List.append_assoc] at heq ih
        obtain ⟨hhead, htail⟩ := List.append_inj heq hi.symm
        rw [List.forall_mem_cons]
        exact ⟨hhead.symm, ih (List.append_cancel_left htail)
          fun k hk => hlengths k (List.mem_cons_of_mem _ hk)⟩
  · rintro ⟨hall, rfl, rfl⟩
    rw [List.nil_append, List.append_nil, List.map_congr_left hall]

end Nexterm.TextRange

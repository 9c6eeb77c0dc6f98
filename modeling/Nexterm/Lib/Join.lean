/-
  Lists of pieces that are kept as one text: the pieces are joined, and the text is split again.

  * `Join`: joining and splitting, and the pieces that survive; `split_join_iff`, `join_split_iff`:
    what comes back is what was there.
  * `Join.words`: split wherever a predicate holds, without empty pieces.
  * `strip`, `Join.stripped`: split at a separator, each piece stripped, without empty pieces.
  * `Join.strings`: the same for strings.
-/
import Mathlib.Data.List.DropRight
import Mathlib.Tactic.Common

/-- Pieces joined into a text, and a text split into pieces. -/
structure Join (α β : Type) where
  join : List α → β
  split : β → List α
  Good : α → Prop
  good_split : ∀ t, ∀ x ∈ split t, Good x
  split_join : ∀ l, (∀ x ∈ l, Good x) → split (join l) = l

namespace Join

section

variable {α β : Type} (J : Join α β)

theorem split_join_iff (l : List α) : J.split (J.join l) = l ↔ ∀ x ∈ l, J.Good x := by
  constructor
  · intro h
    rw [← h]
    exact J.good_split (J.join l)
  · exact J.split_join l

theorem join_split_iff (t : β) :
    J.join (J.split t) = t ↔ ∃ l, (∀ x ∈ l, J.Good x) ∧ J.join l = t := by
  constructor
  · intro h
    exact ⟨J.split t, J.good_split t, h⟩
  · rintro ⟨l, hl, rfl⟩
    rw [J.split_join l hl]

end

variable {α : Type}

theorem mem_splitOnP {p : α → Bool} {t x : List α} (hx : x ∈ t.splitOnP p) {a : α} (ha : a ∈ x) :
    p a = false := by
  induction t generalizing x with
  | nil =>
    rw [List.splitOnP_nil, List.mem_singleton] at hx
    rw [hx] at ha
    exact nomatch ha
  | cons b t ih =>
    rw [List.splitOnP_cons_eq_if_modifyHead] at hx
    split at hx
    · rcases List.mem_cons.1 hx with rfl | hx
      · exact nomatch ha
      · exact ih hx ha
    · rename_i hb
      obtain ⟨y, ys, hsplit⟩ := List.exists_cons_of_ne_nil (List.splitOnP_ne_nil p t)
      rw [hsplit] at hx ih
      rcases List.mem_cons.1 hx with rfl | hx
      · rcases List.mem_cons.1 ha with rfl | ha
        · exact Bool.eq_false_iff.2 hb
        · exact ih List.mem_cons_self ha
      · exact ih (List.mem_cons_of_mem y hx) ha

/-- What is no separator stands in one of the pieces. -/
theorem exists_mem_splitOnP {p : α → Bool} {t : List α} {a : α} (ha : a ∈ t) (hp : p a = false) :
    ∃ x ∈ t.splitOnP p, a ∈ x := by
  induction t with
  | nil => exact nomatch ha
  | cons b t ih =>
    rw [List.splitOnP_cons_eq_if_modifyHead]
    split
    · rename_i hb
      rcases List.mem_cons.1 ha with rfl | ha
      · rw [hp] at hb
        cases hb
      · rcases ih ha with ⟨x, hx, hax⟩
        exact ⟨x, List.mem_cons_of_mem _ hx, hax⟩
    · obtain ⟨y, ys, hsplit⟩ := List.exists_cons_of_ne_nil (List.splitOnP_ne_nil p t)
      rw [hsplit] at ih ⊢
      rcases List.mem_cons.1 ha with rfl | ha
      · exact ⟨a :: y, List.mem_cons_self, List.mem_cons_self⟩
      · rcases ih ha with ⟨x, hx, hax⟩
        rcases List.mem_cons.1 hx with rfl | hx
        · exact ⟨b :: x, List.mem_cons_self, List.mem_cons_of_mem _ hax⟩
        · exact ⟨x, List.mem_cons_of_mem _ hx, hax⟩

theorem mem_intercalate {sep : α} {l : List (List α)} {x : List α} (hx : x ∈ l) {a : α}
    (ha : a ∈ x) : a ∈ [sep].intercalate l := by
  induction l with
  | nil => exact nomatch hx
  | cons y l ih =>
    cases l with
    | nil =>
      rw [List.intercalate_singleton, ← List.mem_singleton.1 hx]
      exact ha
    | cons z l =>
      rw [List.intercalate_cons_cons, List.append_assoc, List.mem_append, List.mem_append]
      rcases List.mem_cons.1 hx with rfl | hx
      · exact .inl ha
      · exact .inr (.inr (ih hx))

theorem of_mem_intercalate {sep : α} {l : List (List α)} {a : α} (ha : a ∈ [sep].intercalate l) :
    a = sep ∨ ∃ x ∈ l, a ∈ x := by
  induction l with
  | nil => exact nomatch ha
  | cons y l ih =>
    cases l with
    | nil =>
      rw [List.intercalate_singleton] at ha
      exact .inr ⟨y, List.mem_cons_self, ha⟩
    | cons z l =>
      rw [List.intercalate_cons_cons, List.append_assoc, List.mem_append, List.mem_append] at ha
      rcases ha with hy | hsep | hrest
      · exact .inr ⟨y, List.mem_cons_self, hy⟩
      · exact .inl (List.mem_singleton.1 hsep)
      · exact (ih hrest).imp_right fun ⟨x, hx, hax⟩ => ⟨x, List.mem_cons_of_mem y hx, hax⟩

/-- Splitting what was joined; `gap` stands between a separator and the next piece. -/
theorem splitOnP_intercalate {p : α → Bool} {sep : α} (hsep : p sep = true) {gap : List α}
    (hgap : ∀ a ∈ gap, p a = false) (x : List α) (l : List (List α))
    (h : ∀ y ∈ x :: l, ∀ a ∈ y, p a = false) :
    ((sep :: gap).intercalate (x :: l)).splitOnP p = x :: l.map (gap ++ ·) := by
  induction l generalizing x with
  | nil =>
    rw [List.intercalate_singleton, List.splitOnP_eq_singleton (h x List.mem_cons_self)]
    rfl
  | cons y l ih =>
    obtain ⟨hx, hy, hl⟩ := List.forall_mem_cons.1 h |>.imp_right List.forall_mem_cons.1
    have hnext : ∀ z ∈ (gap ++ y) :: l, ∀ a ∈ z, p a = false := by
      refine List.forall_mem_cons.2 ⟨fun a ha => ?_, hl⟩
      exact (List.mem_append.1 ha).elim (hgap a) (hy a)
    have hjoin : (sep :: gap).intercalate (x :: y :: l) =
        x ++ sep :: (sep :: gap).intercalate ((gap ++ y) :: l) := by
      cases l <;> simp [List.intercalate_cons_cons]
    rw [hjoin, List.splitOnP_append_cons_of_forall_mem hx sep hsep, ih (gap ++ y) hnext]
    rfl

/-! ## Words -/

/-- Split wherever `p` holds; joined with one separator. -/
def words (p : α → Bool) (sep : α) (hsep : p sep = true) : Join (List α) (List α) where
  join l := [sep].intercalate l
  split t := (t.splitOnP p).filter (!·.isEmpty)
  Good x := x ≠ [] ∧ ∀ a ∈ x, p a = false
  good_split t x hx := by
    obtain ⟨hmem, hne⟩ := List.mem_filter.1 hx
    exact ⟨fun hnil => by simp [hnil] at hne, fun a => mem_splitOnP hmem⟩
  split_join l hl := by
    cases l with
    | nil => simp
    | cons x l =>
      rw [splitOnP_intercalate hsep (List.forall_mem_nil _) x l fun y hy => (hl y hy).2]
      simp only [List.nil_append, List.map_id_fun', id_eq, List.filter_eq_self]
      exact fun y hy => by simp [(hl y hy).1]

/-- A text without words satisfies the predicate everywhere. -/
theorem words_split_eq_nil {p : α → Bool} {sep : α} {hsep : p sep = true} {t : List α}
    (h : (words p sep hsep).split t = []) : ∀ a ∈ t, p a = true := by
  intro a ha
  by_contra hp
  rcases exists_mem_splitOnP ha (Bool.eq_false_iff.2 hp) with ⟨x, hx, hax⟩
  have hmem : x ∈ (words p sep hsep).split t := by
    refine List.mem_filter.2 ⟨hx, ?_⟩
    cases x with
    | nil => exact nomatch hax
    | cons => rfl
  rw [h] at hmem
  exact nomatch hmem

/-! ## Stripped pieces -/

/-- Without what satisfies `p` at its ends. -/
def strip (p : α → Bool) (l : List α) : List α := (l.dropWhile p).rdropWhile p

theorem strip_strip (p : α → Bool) (l : List α) : strip p (strip p l) = strip p l := by
  have hdrop : (strip p l).dropWhile p = strip p l := by
    refine List.dropWhile_eq_self_iff.2 fun hl => ?_
    have hprefix : strip p l <+: l.dropWhile p := List.rdropWhile_prefix p _
    have hpos : 0 < (l.dropWhile p).length := Nat.lt_of_lt_of_le hl hprefix.length_le
    have hfix := List.dropWhile_eq_self_iff.1 (List.dropWhile_idempotent p l) hpos
    rwa [← hprefix.getElem hl] at hfix
  rw [strip, hdrop, strip, List.rdropWhile_idempotent]

theorem strip_append {p : α → Bool} {gap : List α} (hgap : ∀ a ∈ gap, p a = true) (l : List α) :
    strip p (gap ++ l) = strip p l := by
  rw [strip, List.dropWhile_append_of_pos hgap, strip]

theorem mem_of_mem_strip {p : α → Bool} {l : List α} {a : α} (h : a ∈ strip p l) : a ∈ l :=
  (List.dropWhile_suffix p).subset ((List.rdropWhile_prefix p _).subset h)

/-- Split at a separator; joined with it and a gap that is stripped again. -/
def stripped [DecidableEq α] (p : α → Bool) (sep : α) (gap : List α)
    (hgap : ∀ a ∈ gap, p a = true ∧ a ≠ sep) : Join (List α) (List α) where
  join l := (sep :: gap).intercalate l
  split t := ((t.splitOn sep).map (strip p)).filter (!·.isEmpty)
  Good x := x ≠ [] ∧ sep ∉ x ∧ strip p x = x
  good_split t x hx := by
    obtain ⟨hmem, hne⟩ := List.mem_filter.1 hx
    obtain ⟨y, hy, rfl⟩ := List.mem_map.1 hmem
    refine ⟨fun hnil => by simp [hnil] at hne, fun hsep => ?_, strip_strip p y⟩
    rw [List.splitOn_eq_splitOnP] at hy
    simpa using mem_splitOnP hy (mem_of_mem_strip hsep)
  split_join l hl := by
    cases l with
    | nil => simp [strip]
    | cons x l =>
      have hfree : ∀ y ∈ x :: l, ∀ a ∈ y, (a == sep) = false := by
        intro y hy a ha
        refine beq_eq_false_iff_ne.2 fun heq => (hl y hy).2.1 ?_
        rwa [heq] at ha
      have hsplit := splitOnP_intercalate (p := (· == sep)) (beq_self_eq_true sep)
        (fun a ha => beq_eq_false_iff_ne.2 (hgap a ha).2) x l hfree
      have hstrip : (x :: l.map (gap ++ ·)).map (strip p) = x :: l := by
        rw [List.map_cons, (hl x List.mem_cons_self).2.2, List.map_map]
        congr 1
        refine (List.map_congr_left fun y hy => ?_).trans (List.map_id l)
        rw [Function.comp_apply, strip_append fun a ha => (hgap a ha).1,
          (hl y (List.mem_cons_of_mem x hy)).2.2]
        rfl
      rw [List.splitOn_eq_splitOnP, hsplit, hstrip, List.filter_eq_self]
      exact fun y hy => by simp [(hl y hy).1]

/-! ## Strings -/

/-- Strings are lists of characters. -/
def strings (J : Join (List Char) (List Char)) : Join String String where
  join l := String.ofList (J.join (l.map String.toList))
  split t := (J.split t.toList).map String.ofList
  Good s := J.Good s.toList
  good_split t s hs := by
    obtain ⟨x, hx, rfl⟩ := List.mem_map.1 hs
    rw [String.toList_ofList]
    exact J.good_split t.toList x hx
  split_join l hl := by
    rw [String.toList_ofList, J.split_join _ (List.forall_mem_map.2 hl), List.map_map]
    exact (List.map_congr_left fun s _ => String.ofList_toList).trans (List.map_id l)

end Join

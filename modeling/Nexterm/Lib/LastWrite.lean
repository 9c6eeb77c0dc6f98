/-
  Places that are written several times: the last write counts.

  Lists have their last element first, so that what stands behind an element is what came before it.

  * `place`: where the last element stands that satisfies a predicate, which may depend on the
    elements before it; `value`: what it writes.
  * `value_eq_of_place_eq`, `place_eq_of_values`: two predicates give the same value, whatever is
    written, if and only if they give the same place.
  * `place_eq_iff_corrected`: they do if each element for which they differ is followed by one that
    satisfies both.
-/
import Mathlib.Data.Nat.Notation
import Mathlib.Tactic.Common

namespace LastWrite

variable {α β γ : Type}

/-- Where the last element stands that satisfies the predicate. -/
def place (P : List α → α → Bool) : List α → Option ℕ
  | [] => none
  | a :: before => if P before a then some before.length else place P before

/-- What the last element writes that satisfies the predicate. -/
def value (P : List α → α → Bool) (f : α → γ) : List α → Option γ
  | [] => none
  | a :: before => if P before a then some (f a) else value P f before

/-- Another element in each place. -/
def relabel (g : ℕ → α → β) : List α → List β
  | [] => []
  | a :: before => g before.length a :: relabel g before

variable {P Q : List α → α → Bool} {f : α → γ} {l : List α}

theorem place_lt {n : ℕ} (h : place P l = some n) : n < l.length := by
  induction l with
  | nil => cases h
  | cons a before ih =>
    rw [place] at h
    split_ifs at h with hP
    · rw [← Option.some.inj h]
      exact Nat.lt_succ_self _
    · exact Nat.lt_succ_of_lt (ih h)

theorem value_eq_of_place_eq (h : place P l = place Q l) : value P f l = value Q f l := by
  induction l with
  | nil => rfl
  | cons a before ih =>
    rw [place, place] at h
    rw [value, value]
    split_ifs at h ⊢ with hP hQ hQ
    · rfl
    · exact absurd (place_lt h.symm) (Nat.lt_irrefl _)
    · exact absurd (place_lt h) (Nat.lt_irrefl _)
    · exact ih h

theorem place_map {P' : List β → β → Bool} {k : α → β}
    (hP : ∀ before a, P' (before.map k) (k a) = P before a) :
    place P' (l.map k) = place P l := by
  induction l with
  | nil => rfl
  | cons a before ih => rw [List.map_cons, place, place, hP, ih, List.length_map]

theorem map_relabel (k : β → γ) (g : ℕ → α → β) (l : List α) :
    (relabel g l).map k = relabel (fun n a => k (g n a)) l := by
  induction l with
  | nil => rfl
  | cons a before ih => rw [relabel, List.map_cons, ih, relabel]

theorem relabel_const (k : α → β) (l : List α) : relabel (fun _ a => k a) l = l.map k := by
  induction l with
  | nil => rfl
  | cons a before ih => rw [relabel, ih, List.map_cons]

/-- The value in a relabelled list is the label of the place. -/
theorem value_relabel {P' : List β → β → Bool} {k : β → γ} {g : ℕ → α → β} {v : ℕ → γ}
    (hP : ∀ before a, P' (relabel g before) (g before.length a) = P before a)
    (hk : ∀ before a, P before a = true → k (g before.length a) = v before.length) :
    value P' k (relabel g l) = (place P l).map v := by
  induction l with
  | nil => rfl
  | cons a before ih =>
    rw [relabel, value, place, hP]
    split_ifs with h
    · rw [hk before a h]
      rfl
    · exact ih

/-- The label that tells the place of `P` from all others. -/
def label (p : Option ℕ) (a b : γ) (n : ℕ) : γ := if p = some n then a else b

/-- If the values are the same for these labels, then so are the places. -/
theorem place_eq_of_values {p q : Option ℕ} {a b d : γ} (hab : a ≠ b) (had : a ≠ d) (hbd : b ≠ d)
    (h : (p.map (label p a b)).getD d = (q.map (label p a b)).getD d) : p = q := by
  cases p with
  | none =>
    cases q with
    | none => rfl
    | some m =>
      rw [Option.map_none, Option.getD_none, Option.map_some, Option.getD_some, label,
        if_neg (by simp)] at h
      exact absurd h.symm hbd
  | some n =>
    rw [Option.map_some, Option.getD_some, label, if_pos rfl] at h
    cases q with
    | none => exact absurd h had
    | some m =>
      rw [Option.map_some, Option.getD_some, label] at h
      split_ifs at h with hm
      · exact hm
      · exact absurd h hab

/-! ## Elements for which two predicates differ -/

/-- Each element for which the predicates differ is followed by one that satisfies both. -/
def Corrected (P Q : List α → α → Bool) (l : List α) : Prop :=
  ∀ after a before, l = after ++ a :: before → P before a ≠ Q before a →
    ∃ late b early, after = late ++ b :: early ∧
      P (early ++ a :: before) b = true ∧ Q (early ++ a :: before) b = true

theorem corrected_cons_both {a : α} {before : List α} (hP : P before a = true)
    (hQ : Q before a = true) : Corrected P Q (a :: before) := by
  intro after x rest hl hne
  cases after with
  | nil =>
    obtain ⟨rfl, rfl⟩ := List.cons.inj hl
    exact absurd (hP.trans hQ.symm) hne
  | cons y after =>
    obtain ⟨rfl, rfl⟩ := List.cons.inj hl
    exact ⟨[], a, after, rfl, hP, hQ⟩

theorem corrected_cons_neither {a : α} {before : List α} (hP : P before a = false)
    (hQ : Q before a = false) : Corrected P Q (a :: before) ↔ Corrected P Q before := by
  constructor
  · intro h after x rest hl hne
    obtain ⟨late, b, early, hafter, hPb, hQb⟩ := h (a :: after) x rest (by rw [hl]; rfl) hne
    cases late with
    | nil =>
      obtain ⟨rfl, rfl⟩ := List.cons.inj hafter
      rw [← hl, hP] at hPb
      cases hPb
    | cons y late =>
      exact ⟨late, b, early, (List.cons.inj hafter).2, hPb, hQb⟩
  · intro h after x rest hl hne
    cases after with
    | nil =>
      obtain ⟨rfl, rfl⟩ := List.cons.inj hl
      exact absurd (hP.trans hQ.symm) hne
    | cons y after =>
      obtain ⟨rfl, htail⟩ := List.cons.inj hl
      obtain ⟨late, b, early, rfl, hPb, hQb⟩ := h after x rest htail hne
      exact ⟨a :: late, b, early, rfl, hPb, hQb⟩

theorem place_eq_iff_corrected : place P l = place Q l ↔ Corrected P Q l := by
  induction l with
  | nil =>
    refine ⟨fun _ after a before hl => ?_, fun _ => rfl⟩
    simp at hl
  | cons a before ih =>
    have hnot : P before a ≠ Q before a → ¬Corrected P Q (a :: before) := by
      intro hne h
      obtain ⟨late, b, early, hnil, -⟩ := h [] a before rfl hne
      simp at hnil
    rw [place, place]
    cases hP : P before a with
    | true =>
      cases hQ : Q before a with
      | true => exact ⟨fun _ => corrected_cons_both hP hQ, fun _ => rfl⟩
      | false =>
        refine ⟨fun h => ?_, fun h => absurd h (hnot (by rw [hP, hQ]; decide))⟩
        exact absurd (place_lt h.symm) (Nat.lt_irrefl _)
    | false =>
      cases hQ : Q before a with
      | true =>
        refine ⟨fun h => ?_, fun h => absurd h (hnot (by rw [hP, hQ]; decide))⟩
        exact absurd (place_lt h) (Nat.lt_irrefl _)
      | false => exact ih.trans (corrected_cons_neither hP hQ).symm

end LastWrite

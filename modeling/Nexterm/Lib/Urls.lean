/-
  The authority of a URL.

  * `splitOnce`: a list at the first occurrence of a pattern.
  * `scheme`, `authority`, `host`: what a standard parser extracts.  The authority ends at the
    first '/', '?', '#' or '\'; anything up to the last '@' in it is credentials; the host ends
    at a port, and an address in brackets at the closing one.
  * `Plain`: nothing but a host and perhaps a port stands in the authority, so that the host ends
    at the first ':' or '/'.
-/
import Mathlib.Data.List.TakeWhile
import Mathlib.Tactic.Common

namespace Urls

variable {α : Type} [DecidableEq α]

/-- The list before and after the first occurrence of the pattern. -/
def splitOnce (pat : List α) : List α → Option (List α × List α)
  | [] => none
  | x :: xs =>
    if pat.isPrefixOf (x :: xs) then some ([], (x :: xs).drop pat.length)
    else (splitOnce pat xs).map fun s => (x :: s.1, s.2)

theorem eq_of_splitOnce {pat l a b : List α} (h : splitOnce pat l = some (a, b)) :
    l = a ++ pat ++ b := by
  induction l generalizing a with
  | nil => cases h
  | cons x xs ih =>
    unfold splitOnce at h
    split_ifs at h with hpat
    · obtain ⟨rest, hrest⟩ := List.isPrefixOf_iff_prefix.1 hpat
      cases h
      rw [← hrest, List.drop_left, List.nil_append]
    · obtain ⟨⟨a', b'⟩, hsplit, heq⟩ := Option.map_eq_some_iff.1 h
      cases heq
      rw [ih hsplit]
      rfl

/-- A pattern that starts with an element that does not occur before it. -/
theorem splitOnce_append {x : α} {pat a : List α} (ha : x ∉ a) (b : List α) :
    splitOnce (x :: pat) (a ++ x :: pat ++ b) = some (a, b) := by
  induction a with
  | nil =>
    rw [List.nil_append, List.cons_append, splitOnce, ← List.cons_append, if_pos (by simp),
      List.drop_left]
  | cons y a ih =>
    rw [List.mem_cons, not_or] at ha
    rw [List.cons_append, List.cons_append, splitOnce, if_neg (by simp [ha.1]), ih ha.2]
    rfl

/-- What stands after the last `x`. -/
def afterLast (x : α) (l : List α) : List α := (l.reverse.takeWhile (· ≠ x)).reverse

theorem afterLast_of_not_mem {x : α} {l : List α} (h : x ∉ l) : afterLast x l = l := by
  rw [afterLast, List.takeWhile_eq_self_iff.2, List.reverse_reverse]
  intro y hy
  rw [List.mem_reverse] at hy
  exact decide_eq_true fun heq => h (heq ▸ hy)

theorem afterLast_append {x : α} {t : List α} (h : x ∉ t) (s : List α) :
    afterLast x (s ++ x :: t) = t := by
  have htake : t.reverse.takeWhile (· ≠ x) = t.reverse := by
    rw [List.takeWhile_eq_self_iff]
    intro y hy
    rw [List.mem_reverse] at hy
    exact decide_eq_true fun heq => h (heq ▸ hy)
  have hall : ∀ y ∈ t.reverse, decide (y ≠ x) = true := List.takeWhile_eq_self_iff.1 htake
  rw [afterLast, List.reverse_append, List.reverse_cons, List.append_assoc,
    List.takeWhile_append_of_pos hall]
  simp

/-! ## Scheme, authority and host -/

/-- The separator behind the scheme. -/
def separator : List Char := "://".toList

def scheme (url : List Char) : Option (List Char) := (splitOnce separator url).map Prod.fst

/-- What stands behind the scheme. -/
def rest (url : List Char) : Option (List Char) := (splitOnce separator url).map Prod.snd

/-- The authority ends here. -/
def isDelimiter (c : Char) : Bool := c = '/' ∨ c = '?' ∨ c = '#' ∨ c = '\\'

def authority (rest : List Char) : List Char := rest.takeWhile fun c => !isDelimiter c

/-- The host of an authority without credentials. -/
def hostOf : List Char → List Char
  | '[' :: cs => '[' :: cs.takeWhile (· ≠ ']') ++ [']']
  | cs => cs.takeWhile (· ≠ ':')

/-- The host of a URL. -/
def host (url : List Char) : Option (List Char) :=
  (rest url).map fun rest => hostOf (afterLast '@' (authority rest))

/-- What stands before the first ':' or '/'. -/
def simpleHost (rest : List Char) : List Char := rest.takeWhile fun c => c ≠ ':' ∧ c ≠ '/'

/-- There are no credentials and no brackets, and the first delimiter is a '/'. -/
structure Plain (rest : List Char) : Prop where
  credentials : '@' ∉ authority rest
  brackets : (authority rest).head? ≠ some '['
  delimiter : ∀ c ∈ simpleHost rest, isDelimiter c = false

omit [DecidableEq α] in
theorem takeWhile_congr_of_forall {p q : α → Bool} {l : List α} (hpq : ∀ x, p x → q x)
    (h : ∀ x ∈ l.takeWhile q, p x) : l.takeWhile p = l.takeWhile q := by
  induction l with
  | nil => rfl
  | cons x l ih =>
    rw [List.takeWhile_cons] at h ⊢
    rw [List.takeWhile_cons]
    by_cases hq : q x = true
    · rw [if_pos hq] at h ⊢
      rw [if_pos (h x List.mem_cons_self), ih fun y hy => h y (List.mem_cons_of_mem _ hy)]
    · rw [if_neg hq, if_neg fun hp => hq (hpq x hp)]

theorem Plain.hostOf_eq {rest : List Char} (h : Plain rest) :
    hostOf (afterLast '@' (authority rest)) = simpleHost rest := by
  have hbrackets := h.brackets
  rw [afterLast_of_not_mem h.credentials]
  have hhost : hostOf (authority rest) = (authority rest).takeWhile (· ≠ ':') := by
    unfold hostOf
    split
    · next heq =>
      rw [heq] at hbrackets
      exact absurd rfl hbrackets
    · rfl
  rw [hhost, authority, List.takeWhile_takeWhile]
  refine takeWhile_congr_of_forall ?_ ?_
  · intro c hc
    simp only [isDelimiter, Bool.decide_or, Bool.not_or, Bool.and_eq_true, Bool.not_eq_true',
      decide_eq_false_iff_not, decide_eq_true_eq] at hc ⊢
    exact ⟨hc.1, hc.2.1⟩
  · intro c hc
    have hdelimiter := h.delimiter c hc
    have hsimple := List.mem_takeWhile_imp hc
    simp only [decide_eq_true_eq] at hsimple
    simp [hdelimiter, hsimple.1]

end Urls

/-
  Values that are written one after the other, without a description of what is written.

  * `Delimited f R`: from a text that begins with what `f` writes for a value, one can read off what
    `R` says about the value, and where the rest begins.
  * `Delimited.append`, `Delimited.guarded`, `Delimited.optional`: from parts to the whole.
  * `Delimited.counted`, `Delimited.until`: lists with their length, and lists up to a value that no
    entry begins with.
-/
import Mathlib.Data.List.Basic
import Mathlib.Tactic.Common

/-- Two texts that begin with what `f` writes are equal only if `R` relates the values and the rests
    are equal. -/
def Delimited {σ τ : Type} (f : σ → List τ) (R : σ → σ → Prop) : Prop :=
  ∀ ⦃a b : σ⦄ ⦃r r' : List τ⦄, f a ++ r = f b ++ r' → R a b ∧ r = r'

namespace Delimited

variable {σ ρ κ τ : Type} {f g : σ → List τ} {R S : σ → σ → Prop}

theorem mono (hf : Delimited f R) (hRS : ∀ a b, R a b → S a b) : Delimited f S :=
  fun a b _ _ h => ⟨hRS a b (hf h).1, (hf h).2⟩

theorem comp (hf : Delimited f R) (k : ρ → σ) :
    Delimited (fun a => f (k a)) fun a b => R (k a) (k b) :=
  fun _ _ _ _ h => hf h

theorem append (hf : Delimited f R) (hg : Delimited g S) :
    Delimited (fun a => f a ++ g a) fun a b => R a b ∧ S a b := by
  intro a b r r' h
  simp only [List.append_assoc] at h
  obtain ⟨hR, hrest⟩ := hf h
  obtain ⟨hS, hr⟩ := hg hrest
  exact ⟨⟨hR, hS⟩, hr⟩

/-- A value that says whether more follows. -/
theorem guarded {c : Bool → τ} (hc : Function.Injective c) (p : σ → Bool) (hf : Delimited f R) :
    Delimited (fun a => c (p a) :: if p a then f a else [])
      fun a b => p a = p b ∧ (p a → R a b) := by
  intro a b r r' h
  obtain ⟨hcp, hrest⟩ := List.cons.inj h
  have hp := hc hcp
  rw [← hp] at hrest
  cases hpa : p a with
  | true =>
    rw [hpa] at hrest
    obtain ⟨hR, hr⟩ := hf hrest
    exact ⟨⟨hp, fun _ => hR⟩, hr⟩
  | false =>
    rw [hpa] at hrest
    refine ⟨⟨hp, fun h => ?_⟩, hrest⟩
    rw [hpa] at h
    exact absurd h Bool.false_ne_true

/-- A value, or the word that there is none. -/
theorem optional {yes no : τ} (hne : yes ≠ no) (hf : Delimited f R) :
    Delimited (fun o : Option σ => o.elim [no] fun a => yes :: f a) (Option.Rel R) := by
  rintro (_ | a) (_ | b) r r' h
  · exact ⟨.none, (List.cons.inj h).2⟩
  · exact absurd (List.cons.inj h).1 hne.symm
  · exact absurd (List.cons.inj h).1 hne
  · obtain ⟨hR, hr⟩ := hf (List.cons.inj h).2
    exact ⟨.some hR, hr⟩

variable {k : σ → κ}

/-- Entries whose number is known. -/
theorem entries (hf : Delimited f fun a b => k a = k b) {l l' : List σ} {r r' : List τ}
    (hlen : l.length = l'.length) (h : l.flatMap f ++ r = l'.flatMap f ++ r') :
    l.map k = l'.map k ∧ r = r' := by
  induction l generalizing l' with
  | nil =>
    obtain rfl := List.length_eq_zero_iff.1 hlen.symm
    exact ⟨rfl, h⟩
  | cons a l ih =>
    cases l' with
    | nil => cases hlen
    | cons b l' =>
      simp only [List.flatMap_cons, List.append_assoc] at h
      obtain ⟨hab, hrest⟩ := hf h
      obtain ⟨hmap, hr⟩ := ih (Nat.succ.inj hlen) hrest
      exact ⟨by rw [List.map_cons, List.map_cons, hab, hmap], hr⟩

/-- The number of the entries, and the entries. -/
theorem counted {c : ℕ → τ} (hc : Function.Injective c)
    (hf : Delimited f fun a b => k a = k b) :
    Delimited (fun l : List σ => c l.length :: l.flatMap f) fun l l' => l.map k = l'.map k := by
  intro l l' r r' h
  obtain ⟨hlen, hrest⟩ := List.cons.inj h
  exact hf.entries (hc hlen) hrest

/-- Entries, each of which begins with a value that is not one of the stops, and then a stop. -/
theorem until_stop (hf : Delimited f fun a b => k a = k b) {P : τ → Prop}
    (hhead : ∀ a, ∃ x ∈ (f a).head?, P x) {l l' : List σ} {r r' : List τ}
    (hr : ∀ x ∈ r.head?, ¬ P x) (hr' : ∀ x ∈ r'.head?, ¬ P x)
    (h : l.flatMap f ++ r = l'.flatMap f ++ r') : l.map k = l'.map k ∧ r = r' := by
  have hstop : ∀ {a : σ} {l : List σ} {r s : List τ}, (∀ x ∈ s.head?, ¬ P x) →
      (a :: l).flatMap f ++ r ≠ s := by
    rintro a l r _ hs rfl
    obtain ⟨x, hx, hP⟩ := hhead a
    refine hs x ?_ hP
    rw [List.flatMap_cons, List.append_assoc, List.head?_append, Option.mem_def.1 hx]
    rfl
  induction l generalizing l' with
  | nil =>
    cases l' with
    | nil => exact ⟨rfl, h⟩
    | cons b l' => exact absurd h.symm (hstop hr)
  | cons a l ih =>
    cases l' with
    | nil => exact absurd h (hstop hr')
    | cons b l' =>
      simp only [List.flatMap_cons, List.append_assoc] at h
      obtain ⟨hab, hrest⟩ := hf h
      obtain ⟨hmap, hr⟩ := ih hrest
      exact ⟨by rw [List.map_cons, List.map_cons, hab, hmap], hr⟩

/-- What two functions write for the same entries, if the writings for one entry can be told from
    what follows. -/
theorem flatMap_agree {l : List σ} {r r' : List τ}
    (hfg : ∀ a ∈ l, ∀ r r', f a ++ r = g a ++ r' → f a = g a)
    (h : l.flatMap f ++ r = l.flatMap g ++ r') : (∀ a ∈ l, f a = g a) ∧ r = r' := by
  induction l with
  | nil => exact ⟨fun a ha => absurd ha List.not_mem_nil, h⟩
  | cons a l ih =>
    simp only [List.flatMap_cons, List.append_assoc] at h
    have ha := hfg a List.mem_cons_self _ _ h
    rw [ha] at h
    obtain ⟨hl, hr⟩ := ih (fun b hb => hfg b (List.mem_cons_of_mem _ hb))
      (List.append_cancel_left h)
    exact ⟨List.forall_mem_cons.2 ⟨ha, hl⟩, hr⟩

end Delimited

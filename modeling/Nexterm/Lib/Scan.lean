/-
  Filters that read their input one symbol at a time (scanners), and what becomes of them when the
  input arrives in pieces and the scan starts afresh at each piece.

  * `Scanner`, `out`: what a scan lets through; `mask`: at which places.
  * `Piece`, `cut`: a piece may also be lost.
  * `Lined`: at each symbol the fresh scan and the scan of the whole input decide alike;
    `cut_eq_iff`: this is what it takes for nothing else to be let through.
-/
import Mathlib.Data.Nat.Notation
import Mathlib.Tactic.Common

namespace Scan

/-- A filter with a state: what it lets through may depend on what came before. -/
structure Scanner (σ α : Type) where
  start : σ
  next : σ → α → σ
  keeps : σ → α → Bool

variable {σ α : Type}

/-- The symbols of a list at the marked places. -/
def select : List Bool → List α → List α
  | true :: m, a :: l => a :: select m l
  | false :: m, _ :: l => select m l
  | _, _ => []

/-- The places marked in `m` are marked in `m'`. -/
def Within (m m' : List Bool) : Prop := ∀ i : ℕ, m[i]? = some true → m'[i]? = some true

theorem select_append {m : List Bool} {l : List α} (h : m.length = l.length) (m' : List Bool)
    (l' : List α) :
    select (m ++ m') (l ++ l') = select m l ++ select m' l' := by
  induction m generalizing l with
  | nil => rw [List.length_eq_zero_iff.1 h.symm]; rfl
  | cons b m ih =>
    obtain ⟨a, l, rfl⟩ := List.exists_cons_of_length_eq_add_one h.symm
    have hlen : m.length = l.length := by simpa using h
    cases b <;> simp [select, ih hlen]

theorem select_replicate_false (n : ℕ) (l : List α) : select (List.replicate n false) l = [] := by
  induction n generalizing l with
  | zero => rfl
  | succ n ih =>
    cases l with
    | nil => rfl
    | cons a l => exact ih l

theorem Within.tail {b b' : Bool} {m m' : List Bool} (h : Within (b :: m) (b' :: m')) :
    Within m m' := fun i hi => by simpa using h (i + 1) (by simpa using hi)

theorem length_select_le {m m' : List Bool} {l : List α} (hm : m.length = l.length)
    (hm' : m'.length = l.length) (h : Within m m') :
    (select m l).length ≤ (select m' l).length := by
  induction l generalizing m m' with
  | nil => simp [List.length_eq_zero_iff.1 hm, select]
  | cons a l ih =>
    obtain ⟨b, m, rfl⟩ := List.exists_cons_of_length_eq_add_one hm
    obtain ⟨b', m', rfl⟩ := List.exists_cons_of_length_eq_add_one hm'
    have hle := ih (by simpa using hm) (by simpa using hm') h.tail
    have hb := h 0
    cases b <;> cases b'
    · exact hle
    · exact Nat.le_succ_of_le hle
    · simp at hb
    · exact Nat.succ_le_succ hle

/-- Marks inside others that leave the same symbols are the same. -/
theorem select_within_iff {m m' : List Bool} {l : List α} (hm : m.length = l.length)
    (hm' : m'.length = l.length) : select m l = select m' l ∧ Within m m' ↔ m = m' := by
  refine ⟨fun h => ?_, fun h => by subst h; exact ⟨rfl, fun _ => id⟩⟩
  obtain ⟨hsel, hwithin⟩ := h
  induction l generalizing m m' with
  | nil => rw [List.length_eq_zero_iff.1 hm, List.length_eq_zero_iff.1 hm']
  | cons a l ih =>
    obtain ⟨b, m, rfl⟩ := List.exists_cons_of_length_eq_add_one hm
    obtain ⟨b', m', rfl⟩ := List.exists_cons_of_length_eq_add_one hm'
    have hlm : m.length = l.length := by simpa using hm
    have hlm' : m'.length = l.length := by simpa using hm'
    have hle := length_select_le hlm hlm' hwithin.tail
    have hb := hwithin 0
    cases b <;> cases b'
    · rw [ih hlm hlm' hsel hwithin.tail]
    · -- one symbol more on the right
      have := congrArg List.length hsel
      simp only [select, List.length_cons] at this
      omega
    · simp at hb
    · rw [ih hlm hlm' (List.cons.inj hsel).2 hwithin.tail]

namespace Scanner

variable (S : Scanner σ α)

/-- The state after some input. -/
def after (s : σ) (l : List α) : σ := l.foldl S.next s

/-- What is let through. -/
def out : σ → List α → List α
  | _, [] => []
  | s, a :: l => if S.keeps s a then a :: out (S.next s a) l else out (S.next s a) l

/-- The places of what is let through. -/
def mask : σ → List α → List Bool
  | _, [] => []
  | s, a :: l => S.keeps s a :: mask (S.next s a) l

@[simp] theorem length_mask (s : σ) (l : List α) : (S.mask s l).length = l.length := by
  induction l generalizing s with
  | nil => rfl
  | cons a l ih => simp [mask, ih]

theorem out_eq_select (s : σ) (l : List α) : S.out s l = select (S.mask s l) l := by
  induction l generalizing s with
  | nil => rfl
  | cons a l ih =>
    rw [out, mask, ih]
    cases S.keeps s a <;> rfl

theorem mask_append (s : σ) (l l' : List α) :
    S.mask s (l ++ l') = S.mask s l ++ S.mask (S.after s l) l' := by
  induction l generalizing s with
  | nil => rfl
  | cons a l ih => rw [List.cons_append, mask, ih]; rfl

theorem after_append (s : σ) (l l' : List α) :
    S.after s (l ++ l') = S.after (S.after s l) l' := by
  rw [after, after, after, List.foldl_append]

theorem mask_getElem? (s : σ) (l : List α) (i : ℕ) :
    (S.mask s l)[i]? = l[i]?.map (S.keeps (S.after s (l.take i))) := by
  induction l generalizing s i with
  | nil => rfl
  | cons a l ih =>
    cases i with
    | zero => rfl
    | succ i => simpa [mask, after] using ih (S.next s a) i

/-! ## Input in pieces -/

/-- A piece of the input, and whether it is scanned at all. -/
abbrev Piece (α : Type) := List α × Bool

/-- The whole input. -/
def whole (ps : List (Piece α)) : List α := ps.flatMap Prod.fst

/-- The scan starts afresh at each piece. -/
def pieceMask (p : Piece α) : List Bool :=
  if p.2 then S.mask S.start p.1 else List.replicate p.1.length false

/-- The places of what is let through, piece by piece. -/
def cutMask (ps : List (Piece α)) : List Bool := ps.flatMap S.pieceMask

/-- What is let through, piece by piece. -/
def cut (ps : List (Piece α)) : List α :=
  ps.flatMap fun p => if p.2 then S.out S.start p.1 else []

/-- At each symbol the scan of its piece and the scan of the whole input decide alike. -/
def Lined (ps : List (Piece α)) : Prop :=
  ∀ qs p rs u a v, ps = qs ++ p :: rs → p.1 = u ++ a :: v →
    (p.2 = true ∧ S.keeps (S.after S.start u) a = true ↔
      S.keeps (S.after S.start (whole qs ++ u)) a = true)

@[simp] theorem length_pieceMask (p : Piece α) : (S.pieceMask p).length = p.1.length := by
  unfold pieceMask
  split_ifs <;> simp

@[simp] theorem length_cutMask (ps : List (Piece α)) :
    (S.cutMask ps).length = (whole ps).length := by
  induction ps with
  | nil => rfl
  | cons p ps ih => simp_all [cutMask, whole]

theorem cut_eq_select (ps : List (Piece α)) : S.cut ps = select (S.cutMask ps) (whole ps) := by
  induction ps with
  | nil => rfl
  | cons p ps ih =>
    have hp : (if p.2 then S.out S.start p.1 else []) = select (S.pieceMask p) p.1 := by
      unfold pieceMask
      split_ifs
      · exact S.out_eq_select S.start p.1
      · exact (select_replicate_false _ _).symm
    have hsel := select_append (S.length_pieceMask p) (S.cutMask ps) (whole ps)
    rw [cut, List.flatMap_cons, hp, ← cut, ih]
    exact hsel.symm

/-- What is let through is something that the scan keeps in some state. -/
theorem exists_keeps_of_cutMask (ps : List (Piece α)) {i : ℕ} (hi : (S.cutMask ps)[i]? = some true) :
    ∃ a s, (whole ps)[i]? = some a ∧ S.keeps s a = true := by
  induction ps generalizing i with
  | nil => simp [cutMask] at hi
  | cons p ps ih =>
    have hm : S.cutMask (p :: ps) = S.pieceMask p ++ S.cutMask ps := rfl
    have hw : whole (p :: ps) = p.1 ++ whole ps := rfl
    rw [hm, List.getElem?_append] at hi
    rw [hw, List.getElem?_append]
    rw [length_pieceMask] at hi
    split_ifs at hi ⊢ with hlt
    · unfold pieceMask at hi
      split_ifs at hi
      · rw [mask_getElem?, Option.map_eq_some_iff] at hi
        obtain ⟨a, ha, hkeeps⟩ := hi
        exact ⟨a, _, ha, hkeeps⟩
      · simp [List.getElem?_replicate] at hi
    · exact ih hi

/-- A piece keeps the places it should, seen symbol by symbol. -/
theorem pieceMask_eq_iff (p : Piece α) (s : σ) : S.pieceMask p = S.mask s p.1 ↔
    ∀ u a v, p.1 = u ++ a :: v →
      (p.2 = true ∧ S.keeps (S.after S.start u) a = true ↔ S.keeps (S.after s u) a = true) := by
  have hget : ∀ i, (S.pieceMask p)[i]? =
      p.1[i]?.map fun a => p.2 && S.keeps (S.after S.start (p.1.take i)) a := by
    intro i
    unfold pieceMask
    split_ifs with h
    · simp [mask_getElem?, h]
    · have : p.2 = false := by simpa using h
      rcases Nat.lt_or_ge i p.1.length with hi | hi <;> simp [hi, this]
  constructor
  · intro h u a v hp
    have := hget u.length
    rw [h, mask_getElem?, hp] at this
    simp only [List.getElem?_append_right (Nat.le_refl _), Nat.sub_self, List.getElem?_cons_zero,
      List.take_left, Option.map_some, Option.some.injEq] at this
    rw [this, Bool.and_eq_true]
  · intro h
    refine List.ext_getElem? fun i => ?_
    rw [hget, mask_getElem?]
    rcases Nat.lt_or_ge i p.1.length with hi | hi
    · have := h (p.1.take i) p.1[i] (p.1.drop (i + 1)) (by simp)
      rw [List.getElem?_eq_getElem hi, Option.map_some, Option.map_some, Option.some.injEq,
        Bool.eq_iff_iff, Bool.and_eq_true]
      exact this
    · simp [hi]

theorem whole_append (ps qs : List (Piece α)) : whole (ps ++ qs) = whole ps ++ whole qs :=
  List.flatMap_append

/-- Behind some pieces, the scans in pieces and as a whole agree if they do so in each piece. -/
theorem cutMask_eq_iff_pieces (qs ps : List (Piece α)) :
    S.cutMask ps = S.mask (S.after S.start (whole qs)) (whole ps) ↔ ∀ q p r, ps = q ++ p :: r →
      S.pieceMask p = S.mask (S.after S.start (whole (qs ++ q))) p.1 := by
  induction ps generalizing qs with
  | nil => simp [cutMask, whole, mask]
  | cons p ps ih =>
    have hcons : S.cutMask (p :: ps) = S.mask (S.after S.start (whole qs)) (whole (p :: ps)) ↔
        S.pieceMask p = S.mask (S.after S.start (whole qs)) p.1 ∧
          S.cutMask ps = S.mask (S.after S.start (whole (qs ++ [p]))) (whole ps) := by
      have hw : whole (p :: ps) = p.1 ++ whole ps := rfl
      have hq : whole (qs ++ [p]) = whole qs ++ p.1 := by simp [whole]
      rw [hw, mask_append, ← after_append, ← hq]
      exact ⟨fun h => List.append_inj h (by simp), fun h => congrArg₂ (· ++ ·) h.1 h.2⟩
    rw [hcons, ih]
    constructor
    · rintro ⟨hp, hps⟩ q p' r heq
      cases q with
      | nil =>
        obtain ⟨rfl, rfl⟩ := List.cons.inj heq
        simpa using hp
      | cons q₀ q =>
        obtain ⟨rfl, htail⟩ := List.cons.inj heq
        simpa using hps q p' r htail
    · intro h
      refine ⟨by simpa using h [] p ps rfl, fun q p' r heq => ?_⟩
      simpa using h (p :: q) p' r (by rw [heq]; rfl)

/-- The scans in pieces and as a whole agree if and only if each symbol is decided alike. -/
theorem cutMask_eq_iff (ps : List (Piece α)) :
    S.cutMask ps = S.mask S.start (whole ps) ↔ S.Lined ps := by
  have h := S.cutMask_eq_iff_pieces [] ps
  simp only [List.nil_append] at h
  rw [show S.mask S.start (whole ps) = S.mask (S.after S.start (whole [])) (whole ps) from rfl, h]
  constructor
  · intro h qs p rs u a v hps hp
    rw [after_append]
    exact (S.pieceMask_eq_iff p _).1 (h qs p rs hps) u a v hp
  · intro h q p r hps
    refine (S.pieceMask_eq_iff p _).2 fun u a v hp => ?_
    rw [← after_append]
    exact h q p r u a v hps hp

/-- Piece by piece the same is let through as from the whole, and nothing from other places, if
    and only if each symbol is decided alike. -/
theorem cut_eq_iff (ps : List (Piece α)) :
    S.cut ps = S.out S.start (whole ps) ∧ Within (S.cutMask ps) (S.mask S.start (whole ps)) ↔
      S.Lined ps := by
  rw [← cutMask_eq_iff, cut_eq_select, out_eq_select]
  exact select_within_iff (by simp) (by simp)

end Scanner

end Scan

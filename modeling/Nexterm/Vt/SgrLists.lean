/-
  SGR lists as sequences of groups (`apply_sgr` in `screen.rs`).

  * `endsInside`: whether a list, read group by group, ends inside an extended color.
  * `applySgr_append`: a list that does not can be followed by any other list.
  * `applySgrAt`: the loop of the source position by position, every index looked up.
  * `sgr_lists`: lists compose, an extended color takes its own parameters and no others, and no
    index is out of range.
-/
import Nexterm.Lib.Positions
import Nexterm.Vt.Marked

namespace Nexterm.Vt

/-! ## Groups -/

/-- Whether a list of parameters, read group by group, ends inside an extended color: what follows
    the last 38 or 48 is the start of `5;n` or `2;r;g;b`. -/
def endsInside : List ℕ → Bool
  | [] => false
  | p :: params =>
    if p = 38 ∨ p = 48 then
      match params with
      | [] | [5] | [2] | [2, _] | [2, _, _] => true
      | 5 :: _ :: rest => endsInside rest
      | 2 :: _ :: _ :: _ :: rest => endsInside rest
      | params => endsInside params
    else endsInside params

/-- An extended color: its marker, its parameters and the color. -/
inductive ColorGroup : ℕ → List ℕ → Color → Prop where
  | indexed {m n : ℕ} : m = 38 ∨ m = 48 → ColorGroup m [m, 5, n] (.indexed (UInt8.ofNat n))
  | rgb {m r g b : ℕ} : m = 38 ∨ m = 48 →
      ColorGroup m [m, 2, r, g, b] (.rgb (UInt8.ofNat r) (UInt8.ofNat g) (UInt8.ofNat b))

/-- Sets the color that a marker stands for. -/
def Style.setColor (s : Style) (m : ℕ) (color : Color) : Style :=
  if m = 38 then { s with fg := color } else { s with bg := color }

theorem applySgr_nil (s : Style) : s.applySgr [] = s := by
  rw [Style.applySgr]

theorem applySgr_single {p : ℕ} (hp : ¬(p = 38 ∨ p = 48)) (params : List ℕ) (s : Style) :
    s.applySgr (p :: params) = (s.applyOne p).applySgr params := by
  conv_lhs => unfold Style.applySgr
  rw [if_neg hp]

theorem applySgr_indexed {m : ℕ} (hm : m = 38 ∨ m = 48) (n : ℕ) (rest : List ℕ) (s : Style) :
    s.applySgr (m :: 5 :: n :: rest) =
      (s.setColor m (.indexed (UInt8.ofNat n))).applySgr rest := by
  rw [applySgr_extended hm]
  rfl

theorem applySgr_rgb {m : ℕ} (hm : m = 38 ∨ m = 48) (r g b : ℕ) (rest : List ℕ) (s : Style) :
    s.applySgr (m :: 2 :: r :: g :: b :: rest) =
      (s.setColor m (.rgb (UInt8.ofNat r) (UInt8.ofNat g) (UInt8.ofNat b))).applySgr rest := by
  rw [applySgr_extended hm]
  rfl

/-- A marker in front of something that is no color is passed over. -/
theorem applySgr_stray {m : ℕ} (hm : m = 38 ∨ m = 48) {params : List ℕ}
    (hnone : extendedColor params = none) (s : Style) :
    s.applySgr (m :: params) = s.applySgr params := by
  rw [applySgr_extended hm, hnone]

theorem extendedColor_of_ne {q : ℕ} (h5 : q ≠ 5) (h2 : q ≠ 2) (params : List ℕ) :
    extendedColor (q :: params) = none := by
  rw [extendedColor]
  · rintro n rest h
    exact h5 (List.head_eq_of_cons_eq h)
  · rintro r g b rest h
    exact h2 (List.head_eq_of_cons_eq h)

/-- **Lists compose**: a list that does not end inside an extended color can be followed by any
    other list. -/
theorem applySgr_append {a : List ℕ} (h : endsInside a = false) (b : List ℕ) (s : Style) :
    s.applySgr (a ++ b) = (s.applySgr a).applySgr b := by
  fun_induction endsInside a generalizing s with
  | case1 => rw [applySgr_nil]; rfl
  | case2 | case3 | case4 | case5 | case6 => cases h
  | case7 m hm n rest ih =>
    rw [List.cons_append, List.cons_append, List.cons_append, applySgr_indexed hm,
      applySgr_indexed hm]
    exact ih h _
  | case8 m hm r g b' rest ih =>
    simp only [List.cons_append, applySgr_rgb hm]
    exact ih h _
  | case9 m hm params hnil h5 h2 h2' h2'' hindexed hrgb ih =>
    obtain ⟨q, rest, rfl, hq5, hq2⟩ : ∃ q rest, params = q :: rest ∧ q ≠ 5 ∧ q ≠ 2 := by
      rcases params with _ | ⟨q, rest⟩
      · exact absurd rfl hnil
      · refine ⟨q, rest, rfl, ?_, ?_⟩
        · rintro rfl
          rcases rest with _ | ⟨n, rest⟩
          · exact h5 rfl
          · exact hindexed n rest rfl
        · rintro rfl
          rcases rest with _ | ⟨r, _ | ⟨g, _ | ⟨b', rest⟩⟩⟩
          · exact h2 rfl
          · exact h2' r rfl
          · exact h2'' r g rfl
          · exact hrgb r g b' rest rfl
    rw [List.cons_append, List.cons_append, applySgr_stray hm (extendedColor_of_ne hq5 hq2 _),
      applySgr_stray hm (extendedColor_of_ne hq5 hq2 _)]
    exact ih h s
  | case10 p params hp ih =>
    rw [List.cons_append, applySgr_single hp, applySgr_single hp]
    exact ih h _

/-- An extended color takes its own parameters and no others. -/
theorem applySgr_group {m : ℕ} {group : List ℕ} {color : Color} (h : ColorGroup m group color)
    (rest : List ℕ) (s : Style) :
    s.applySgr (group ++ rest) = (s.setColor m color).applySgr rest := by
  cases h with
  | indexed hm => exact applySgr_indexed hm _ rest s
  | rgb hm => exact applySgr_rgb hm _ _ _ rest s

/-! ## The loop, position by position -/

/-- The loop of `apply_sgr` from a position on; `none` stands for the panic of an index that is out
    of range. -/
def applySgrAt (params : List ℕ) (s : Style) (i : ℕ) : Option Style :=
  if _h : i < params.length then
    params[i]?.bind fun p =>
      if p = 38 ∨ p = 48 then
        if params[i + 1]? = some 5 ∧ params[i + 2]?.isSome then
          params[i + 2]?.bind fun n =>
            applySgrAt params (s.setColor p (.indexed (UInt8.ofNat n))) (i + 2 + 1)
        else if params[i + 1]? = some 2 ∧ i + 4 < params.length then
          params[i + 2]?.bind fun r => params[i + 3]?.bind fun g => params[i + 4]?.bind fun b =>
            applySgrAt params
              (s.setColor p (.rgb (UInt8.ofNat r) (UInt8.ofNat g) (UInt8.ofNat b))) (i + 4 + 1)
        else applySgrAt params s (i + 1)
      else applySgrAt params (s.applyOne p) (i + 1)
  else some s
termination_by params.length - i

/-- The test of the loop for an indexed color. -/
theorem not_indexed {ps : List ℕ} (h : ¬∃ n rest, ps = 5 :: n :: rest) :
    ¬(ps[0]? = some 5 ∧ ps[1]?.isSome) := by
  rintro ⟨h5, hsome⟩
  rcases ps with _ | ⟨q, _ | ⟨n, rest⟩⟩
  · cases h5
  · cases hsome
  · obtain rfl := Option.some.inj h5
    exact h ⟨n, rest, rfl⟩

/-- The test of the loop for a direct color. -/
theorem not_rgb {params ps : List ℕ} {p i : ℕ} (hi : At params i (p :: ps))
    (h : ¬∃ r g b rest, ps = 2 :: r :: g :: b :: rest) :
    ¬(ps[0]? = some 2 ∧ i + 4 < params.length) := by
  rintro ⟨h2, hlt⟩
  have hlen := hi.length
  rcases ps with _ | ⟨q, _ | ⟨r, _ | ⟨g, _ | ⟨b, rest⟩⟩⟩⟩
  · cases h2
  all_goals simp only [List.length_cons, List.length_nil] at hlen
  · omega
  · omega
  · omega
  · obtain rfl := Option.some.inj h2
    exact h ⟨r, g, b, rest, rfl⟩

theorem applySgrAt_eq {params : List ℕ} : ∀ (rest : List ℕ) {i : ℕ}, At params i rest →
    ∀ s : Style, applySgrAt params s i = some (s.applySgr rest)
  | [], i, h, s => by
    rw [applySgrAt, dif_neg h.nil, applySgr_nil]
  | p :: ps, i, h, s => by
    have hfirst : params[i + 1]? = ps[0]? := h.getElem? 1
    have hsecond : params[i + 2]? = ps[1]? := h.getElem? 2
    rw [applySgrAt, dif_pos h.lt, h.get, Option.bind_some]
    by_cases hp : p = 38 ∨ p = 48
    · rw [if_pos hp, hfirst, hsecond]
      by_cases hindexed : ∃ n rest, ps = 5 :: n :: rest
      · obtain ⟨n, rest, rfl⟩ := hindexed
        rw [applySgr_indexed hp, if_pos ⟨rfl, rfl⟩]
        exact applySgrAt_eq rest h.next.next.next _
      by_cases hrgb : ∃ r g b rest, ps = 2 :: r :: g :: b :: rest
      · obtain ⟨r, g, b, rest, rfl⟩ := hrgb
        have hthird : params[i + 3]? = some g := h.getElem? 3
        have hfourth : params[i + 4]? = some b := h.getElem? 4
        have hlt : i + 4 < params.length := h.next.next.next.next.lt
        rw [applySgr_rgb hp, if_neg (by simp), if_pos ⟨rfl, hlt⟩, hthird, hfourth]
        exact applySgrAt_eq rest h.next.next.next.next.next _
      -- neither: the marker is passed over
      · have hnone : extendedColor ps = none := by
          rw [extendedColor]
          · exact fun n rest hps => hindexed ⟨n, rest, hps⟩
          · exact fun r g b rest hps => hrgb ⟨r, g, b, rest, hps⟩
        have hno5 := not_indexed hindexed
        have hno2 := not_rgb h hrgb
        rw [applySgr_stray hp hnone, if_neg hno5, if_neg hno2]
        exact applySgrAt_eq ps h.next s
    · rw [applySgr_single hp, if_neg hp]
      exact applySgrAt_eq ps h.next _
termination_by rest => rest.length

/-- **SGR lists**.  Lists compose, unless the first ends inside an extended color; an extended color
    takes its own parameters, and those after it do what they do without it; and no list makes the
    loop look up an index that is out of range. -/
theorem sgr_lists (s : Style) :
    (∀ a b, endsInside a = false → s.applySgr (a ++ b) = (s.applySgr a).applySgr b) ∧
      (∀ a m group color b, endsInside a = false → ColorGroup m group color →
        s.applySgr (a ++ (group ++ b)) = ((s.applySgr a).setColor m color).applySgr b) ∧
      ∀ params, applySgrAt params s 0 = some (s.applySgr params) := by
  refine ⟨fun a b ha => applySgr_append ha b s, fun a m group color b ha hgroup => ?_,
    fun params => applySgrAt_eq params (At.start params) s⟩
  rw [applySgr_append ha, applySgr_group hgroup]

end Nexterm.Vt

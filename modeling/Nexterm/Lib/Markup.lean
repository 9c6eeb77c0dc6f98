/-
  Texts with tags, and the search for a tag in them.

  * `find`: the first occurrence of a pattern.
  * `Token`: a tag and the text behind it; `render`: a list of tokens as a text.
  * `find_mark`, `find_element`: a tag, or an element with its content, is found at the first token
    that has it, whatever the tokens before it are.
-/
import Mathlib.Data.List.Basic
import Nexterm.Lib.Urls

namespace Markup

open Urls (splitOnce)

/-- Where a pattern occurs first. -/
def find (pat text : List Char) : Option ℕ := (splitOnce pat text).map fun s => s.1.length

theorem drop_of_splitOnce {pat text a b : List Char} (h : splitOnce pat text = some (a, b)) :
    find pat text = some a.length ∧ text.take a.length = a ∧ text.drop a.length = pat ++ b ∧
      text.drop (a.length + pat.length) = b ∧ text.take (a.length + pat.length) = a ++ pat := by
  have htext := Urls.eq_of_splitOnce h
  refine ⟨by rw [find, h]; rfl, ?_, ?_, ?_, ?_⟩
  · rw [htext, List.append_assoc, List.take_left]
  · rw [htext, List.append_assoc, List.drop_left]
  · rw [htext, ← List.length_append, List.drop_left]
  · rw [htext, ← List.length_append, List.take_left]

theorem find_eq_none {pat text : List Char} (h : splitOnce pat text = none) :
    find pat text = none := by
  rw [find, h]
  rfl

/-- What is in front of the search. -/
def before (a : List Char) (s : List Char × List Char) : List Char × List Char := (a ++ s.1, s.2)

/-- There is no occurrence where the first character of the pattern does not occur. -/
theorem splitOnce_skip {x : Char} {a : List Char} (ha : x ∉ a) (pat b : List Char) :
    splitOnce (x :: pat) (a ++ b) = (splitOnce (x :: pat) b).map (before a) := by
  induction a with
  | nil =>
    rw [List.nil_append]
    cases splitOnce (x :: pat) b <;> rfl
  | cons y a ih =>
    rw [List.mem_cons, not_or] at ha
    rw [List.cons_append, splitOnce, if_neg (by simp [ha.1]), ih ha.2, Option.map_map]
    rfl

theorem splitOnce_of_prefix {pat : List Char} (hpat : pat ≠ []) (b : List Char) :
    splitOnce pat (pat ++ b) = some ([], b) := by
  cases pat with
  | nil => exact absurd rfl hpat
  | cons x pat =>
    rw [List.cons_append, splitOnce, ← List.cons_append, if_pos (by simp), List.drop_left]

/-! ## Tokens -/

/-- A tag and the text up to the next one. -/
structure Token where
  tag : List Char
  text : List Char
  tag_plain : '<' ∉ tag ∧ '>' ∉ tag
  text_plain : '<' ∉ text

/-- The tag in its brackets. -/
def mark (tag : List Char) : List Char := '<' :: tag ++ ['>']

/-- An element with its content. -/
def element (tag content : List Char) : List Char := mark tag ++ content ++ mark ('/' :: tag)

namespace Token

def render (t : Token) : List Char := mark t.tag ++ t.text

end Token

/-- The text of the tokens. -/
def render (ts : List Token) : List Char := ts.flatMap Token.render

@[simp] theorem render_nil : render [] = [] := rfl

@[simp] theorem render_cons (t : Token) (ts : List Token) :
    render (t :: ts) = t.render ++ render ts := rfl

@[simp] theorem render_append (ts us : List Token) : render (ts ++ us) = render ts ++ render us :=
  List.flatMap_append

variable {t u : Token} {ts us : List Token} {tag content pat rest : List Char}

theorem mark_cons (tag : List Char) : mark tag = '<' :: (tag ++ ['>']) := rfl

theorem render_eq (t : Token) (rest : List Char) :
    t.render ++ rest = '<' :: (t.tag ++ '>' :: (t.text ++ rest)) := by
  simp [Token.render, mark]

theorem mark_append (tag rest : List Char) : mark tag ++ rest = '<' :: (tag ++ '>' :: rest) := by
  simp [mark]

/-- A token at which the pattern does not occur. -/
theorem splitOnce_token (h : ¬('<' :: pat) <+: t.render ++ rest) :
    splitOnce ('<' :: pat) (t.render ++ rest) =
      (splitOnce ('<' :: pat) rest).map (before t.render) := by
  have htail : '<' ∉ t.tag ++ '>' :: t.text := by
    simp [t.tag_plain.1, t.text_plain]
  have hrender : t.render = '<' :: (t.tag ++ '>' :: t.text) := by
    simp [Token.render, mark]
  rw [hrender, List.cons_append] at h ⊢
  rw [splitOnce, if_neg (by rwa [List.isPrefixOf_iff_prefix]), splitOnce_skip htail,
    Option.map_map]
  rfl

/-- Two texts up to the first `x`. -/
theorem upTo_inj {x : Char} {a b c d : List Char} (ha : x ∉ a) (hb : x ∉ b)
    (h : a ++ x :: c = b ++ x :: d) : a = b ∧ c = d := by
  have htake {l : List Char} (hl : x ∉ l) (r : List Char) :
      (l ++ x :: r).takeWhile (· ≠ x) = l := by
    have hall : ∀ y ∈ l, decide (y ≠ x) = true :=
      fun y hy => decide_eq_true fun heq => hl (heq ▸ hy)
    rw [List.takeWhile_append_of_pos hall]
    simp
  have hab : a = b := by rw [← htake ha c, h, htake hb d]
  subst hab
  exact ⟨rfl, (List.cons.inj (List.append_cancel_left h)).2⟩

/-! ## Tags -/

/-- A tag stands at a token if the token has it. -/
theorem mark_prefix_iff (htag : '>' ∉ tag) :
    mark tag <+: t.render ++ rest ↔ t.tag = tag := by
  rw [render_eq]
  constructor
  · rintro ⟨r, hr⟩
    rw [mark_append, List.cons.injEq] at hr
    exact (upTo_inj htag t.tag_plain.2 hr.2).1.symm
  · rintro rfl
    exact ⟨t.text ++ rest, by rw [mark_append]⟩

theorem splitOnce_mark_skip (htag : '>' ∉ tag) (h : ∀ t ∈ ts, t.tag ≠ tag) (rest : List Char) :
    splitOnce (mark tag) (render ts ++ rest) =
      (splitOnce (mark tag) rest).map (before (render ts)) := by
  induction ts with
  | nil =>
    rw [render_nil, List.nil_append]
    cases splitOnce (mark tag) rest <;> rfl
  | cons t ts ih =>
    have hne : ¬mark tag <+: t.render ++ (render ts ++ rest) := by
      rw [mark_prefix_iff htag]
      exact h t List.mem_cons_self
    rw [mark_cons] at hne
    rw [render_cons, List.append_assoc, mark_cons, splitOnce_token hne, ← mark_cons,
      ih fun t ht => h t (List.mem_cons_of_mem _ ht), Option.map_map]
    congr 1
    funext s
    simp [before]

theorem mark_ne_nil (tag : List Char) : mark tag ≠ [] := by simp [mark]

/-- **A tag is found at the first token that has it**, behind a text without tags. -/
theorem splitOnce_mark {gap : List Char} (hgap : '<' ∉ gap) (h : ∀ t ∈ ts, t.tag ≠ u.tag)
    (rest : List Char) :
    splitOnce (mark u.tag) (gap ++ (render ts ++ (u.render ++ rest))) =
      some (gap ++ render ts, u.text ++ rest) := by
  have hskip := splitOnce_skip hgap (u.tag ++ ['>']) (render ts ++ (u.render ++ rest))
  rw [← mark_cons] at hskip
  rw [hskip, splitOnce_mark_skip u.tag_plain.2 h, Token.render, List.append_assoc,
    splitOnce_of_prefix (mark_ne_nil _)]
  simp [before]

theorem splitOnce_mark_none {gap : List Char} (hgap : '<' ∉ gap) (htag : '>' ∉ tag)
    (h : ∀ t ∈ ts, t.tag ≠ tag) : splitOnce (mark tag) (gap ++ render ts) = none := by
  have hskip := splitOnce_skip hgap (tag ++ ['>']) (render ts)
  have hts := splitOnce_mark_skip htag h []
  rw [← mark_cons] at hskip
  rw [List.append_nil] at hts
  rw [hskip, hts]
  rfl

/-- The text behind a tag, up to the closing one. -/
theorem find_value {gap : List Char} (hgap : '<' ∉ gap) (ts : List Token) (u v : Token)
    (us : List Token) (h : ∀ t ∈ ts, t.tag ≠ u.tag) (hv : v.tag = '/' :: u.tag) :
    ∃ start stop inner, find (mark u.tag) (gap ++ render (ts ++ u :: v :: us)) = some start ∧
      (gap ++ render (ts ++ u :: v :: us)).drop (start + (mark u.tag).length) = inner ∧
      find (mark ('/' :: u.tag)) inner = some stop ∧ inner.take stop = u.text := by
  have hopen := splitOnce_mark hgap h (render (v :: us))
  have hclose : splitOnce (mark v.tag) (u.text ++ (render [] ++ (v.render ++ render us))) = _ :=
    splitOnce_mark u.text_plain (fun _ ht => absurd ht List.not_mem_nil) (render us)
  rw [hv] at hclose
  obtain ⟨hstart, -, -, hinner, -⟩ := drop_of_splitOnce hopen
  obtain ⟨hstop, htake, -, -, -⟩ := drop_of_splitOnce hclose
  rw [render_nil, List.append_nil] at hstop htake
  exact ⟨_, _, _, by simpa using hstart, by simpa using hinner, hstop, htake⟩

/-! ## Elements -/

/-- An element stands at a token if the token has its tag and its content, and is closed. -/
theorem element_prefix_iff (htag : '>' ∉ tag) (hcontent : '<' ∉ content)
    (hu : u.tag = '/' :: tag) :
    element tag content <+: t.render ++ (u.render ++ rest) ↔ t.tag = tag ∧ t.text = content := by
  rw [render_eq, element, List.append_assoc]
  constructor
  · rintro ⟨r, hr⟩
    rw [List.append_assoc, mark_append, List.cons.injEq] at hr
    obtain ⟨htags, htexts⟩ := upTo_inj htag t.tag_plain.2 hr.2
    rw [List.append_assoc, mark_append, render_eq] at htexts
    exact ⟨htags.symm, (upTo_inj hcontent t.text_plain htexts).1.symm⟩
  · rintro ⟨rfl, rfl⟩
    refine ⟨u.text ++ rest, ?_⟩
    rw [List.append_assoc, List.append_assoc, mark_append, mark_append, render_eq, hu]

theorem not_element_prefix (htag : '>' ∉ tag) (h : t.tag ≠ tag) :
    ¬element tag content <+: t.render ++ rest := by
  rw [element, List.append_assoc]
  exact fun hp => h ((mark_prefix_iff htag).1 ((List.prefix_append _ _).trans hp))

/-- The opening tokens are followed by closing ones. -/
inductive Closed (tag : List Char) : List Token → Prop
  | nil : Closed tag []
  | other {t : Token} {ts : List Token} : t.tag ≠ tag → Closed tag ts → Closed tag (t :: ts)
  | pair {t u : Token} {ts : List Token} : t.tag = tag → u.tag = '/' :: tag → Closed tag ts →
    Closed tag (t :: u :: ts)

theorem Closed.append (hts : Closed tag ts) (hus : Closed tag us) : Closed tag (ts ++ us) := by
  induction hts with
  | nil => exact hus
  | other h _ ih => exact .other h ih
  | pair h hu _ ih => exact .pair h hu ih

theorem Closed.of_forall (h : ∀ t ∈ ts, t.tag ≠ tag) : Closed tag ts := by
  induction ts with
  | nil => exact .nil
  | cons t ts ih =>
    exact .other (h t List.mem_cons_self) (ih fun t ht => h t (List.mem_cons_of_mem _ ht))

theorem slash_ne (tag : List Char) : '/' :: tag ≠ tag := by
  intro h
  have := congrArg List.length h
  simp at this

theorem splitOnce_element_skip (htag : '>' ∉ tag) (hcontent : '<' ∉ content)
    (hclosed : Closed tag ts) (h : ∀ t ∈ ts, t.tag = tag → t.text ≠ content) (rest : List Char) :
    splitOnce (element tag content) (render ts ++ rest) =
      (splitOnce (element tag content) rest).map (before (render ts)) := by
  have hcons : element tag content = '<' :: (tag ++ ['>'] ++ content ++ mark ('/' :: tag)) := rfl
  have hbefore (a b : List Char) : before a ∘ before b = before (a ++ b) := by
    funext s
    simp [before]
  induction hclosed with
  | nil =>
    rw [render_nil, List.nil_append]
    cases splitOnce (element tag content) rest <;> rfl
  | @other t ts hother _ ih =>
    have hne : ¬element tag content <+: t.render ++ (render ts ++ rest) :=
      not_element_prefix htag hother
    rw [hcons] at hne
    rw [render_cons, List.append_assoc, hcons, splitOnce_token hne, ← hcons,
      ih fun t ht => h t (List.mem_cons_of_mem _ ht), Option.map_map, hbefore]
  | @pair t u ts ht hu _ ih =>
    have hopen : ¬element tag content <+: t.render ++ (u.render ++ (render ts ++ rest)) := by
      rw [element_prefix_iff htag hcontent hu]
      exact fun heq => h t List.mem_cons_self heq.1 heq.2
    have hclose : ¬element tag content <+: u.render ++ (render ts ++ rest) :=
      not_element_prefix htag (by rw [hu]; exact slash_ne tag)
    rw [hcons] at hopen hclose
    rw [render_cons, render_cons, List.append_assoc, List.append_assoc, hcons,
      splitOnce_token hopen, splitOnce_token hclose, ← hcons,
      ih fun t ht => h t (List.mem_cons_of_mem _ (List.mem_cons_of_mem _ ht)), Option.map_map,
      Option.map_map, hbefore, hbefore, List.append_assoc]

/-- **An element is found at the first token that has it.** -/
theorem splitOnce_element (hcontent : '<' ∉ content) (hclosed : Closed t.tag ts)
    (h : ∀ u ∈ ts, u.tag = t.tag → u.text ≠ content) (ht : t.text = content)
    (hu : u.tag = '/' :: t.tag) (rest : List Char) :
    splitOnce (element t.tag content) (render ts ++ (t.render ++ (u.render ++ rest))) =
      some (render ts, u.text ++ rest) := by
  have hhere : t.render ++ (u.render ++ rest) = element t.tag content ++ (u.text ++ rest) := by
    simp [Token.render, element, ht, hu]
  rw [splitOnce_element_skip t.tag_plain.2 hcontent hclosed h, hhere,
    splitOnce_of_prefix (by simp [element, mark])]
  simp [before]

theorem splitOnce_element_none (htag : '>' ∉ tag) (hcontent : '<' ∉ content)
    (hclosed : Closed tag ts) (h : ∀ t ∈ ts, t.tag = tag → t.text ≠ content) :
    splitOnce (element tag content) (render ts) = none := by
  have hts := splitOnce_element_skip htag hcontent hclosed h []
  rw [List.append_nil] at hts
  rw [hts]
  rfl

end Markup

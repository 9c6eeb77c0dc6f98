/-
  Links on the screen (`state/selection.rs`, `find_url_at` in `input_handler/mod.rs`): what is
  opened when a cell is clicked.

  * `detectUrlsInRow`: every `https://` and `http://` of a row, up to the end of the URL.
  * `findUrlAt`: the OSC 8 link of a cell, or else the first URL of its row that covers it.
  * `LinkAt`: what stands on the screen there.
  * `findUrlAt_eq_some`, `isSome_findUrlAt_iff`: `findUrlAt` finds such a link whenever there is one.
-/
import Mathlib.Data.List.TakeWhile
import Nexterm.Vt.Grid
import Nexterm.Vt.Performer

namespace Nexterm.Client

open Vt

/-! ## Detection -/

/-- A URL on the grid with its range. -/
structure DetectedUrl where
  row : ℕ
  colStart : ℕ
  colEnd : ℕ
  url : String

/-- Whether a cell is in the range of the URL. -/
def DetectedUrl.contains (u : DetectedUrl) (col row : ℕ) : Bool :=
  row = u.row ∧ u.colStart ≤ col ∧ col < u.colEnd

/-- Whether a URL ends before the character: whitespace or a bracket. -/
def isUrlEnd (c : Char) : Bool := isWhitespace c || c ∈ ['"', '\'', '<', '>', ')']

/-- The URLs that begin with `scheme`, in a text that begins in column `col`; the search goes on
    one character after the beginning of the one that was found. -/
def detectFrom (rowIdx : ℕ) (scheme : List Char) (col : ℕ) : List Char → List DetectedUrl
  | [] => []
  | c :: text =>
    let rest := detectFrom rowIdx scheme (col + 1) text
    if scheme <+: c :: text then
      let url := (c :: text).takeWhile (!isUrlEnd ·)
      -- the columns are cast to `u16`
      if url ≠ [] then
        ⟨rowIdx, col % 2 ^ 16, (col + url.length) % 2 ^ 16, String.ofList url⟩ :: rest
      else rest
    else rest

/-- The beginnings of a URL. -/
def schemes : List (List Char) := ["https://".toList, "http://".toList]

/-- Detect the URLs in a row of the grid. -/
def detectUrlsInRow (rowIdx : ℕ) (cells : List Cell) : List DetectedUrl :=
  schemes.flatMap fun scheme => detectFrom rowIdx scheme 0 (cells.map Cell.ch)

/-- The URL at a cell. -/
def findUrlAt (g : Grid) (col row : ℕ) : Option String :=
  match g.hyperlinks.find? fun span => span.row = row ∧ span.colStart ≤ col ∧ col < span.colEnd with
  | some span => some span.url
  | none => (g.rows[row]?).bind fun cells =>
    ((detectUrlsInRow row cells).find? (·.contains col row)).map (·.url)

/-! ## What stands there -/

/-- The text has a URL that covers the column: it begins with a scheme and goes on as far as it
    can. -/
structure UrlIn (text : List Char) (col : ℕ) (before url after : List Char) : Prop where
  text_eq : text = before ++ url ++ after
  scheme : ∃ scheme ∈ schemes, scheme <+: url
  inside : ∀ c ∈ url, isUrlEnd c = false
  ends : ∀ c ∈ after.head?, isUrlEnd c = true
  covers : before.length ≤ col ∧ col < before.length + url.length

/-- The cell has an OSC 8 link, or there is none and it is in a URL that is written there. -/
def LinkAt (g : Grid) (col row : ℕ) (url : String) : Prop :=
  (∃ span ∈ g.hyperlinks, span.row = row ∧ span.colStart ≤ col ∧ col < span.colEnd ∧
    url = span.url) ∨
  ((∀ span ∈ g.hyperlinks, ¬(span.row = row ∧ span.colStart ≤ col ∧ col < span.colEnd)) ∧
    ∃ cells, g.rows[row]? = some cells ∧ ∃ before text after,
      UrlIn (cells.map Cell.ch) col before text after ∧ url = String.ofList text)

/-- The rows are no longer than a `u16` can count. -/
def Narrow (g : Grid) : Prop := ∀ cells ∈ g.rows, cells.length < 2 ^ 16

/-- No character of a scheme ends a URL. -/
theorem not_isUrlEnd_scheme : ∀ scheme ∈ schemes, scheme ≠ [] ∧ ∀ c ∈ scheme, isUrlEnd c = false := by
  simp only [schemes, List.mem_cons, List.not_mem_nil, or_false]
  rintro scheme (rfl | rfl) <;> exact ⟨by simp, by simp; decide +kernel⟩

/-- A text that begins with some characters that do not end a URL. -/
theorem prefix_takeWhile {scheme text : List Char} (h : scheme <+: text)
    (hscheme : ∀ c ∈ scheme, isUrlEnd c = false) :
    scheme <+: text.takeWhile (!isUrlEnd ·) := by
  obtain ⟨rest, rfl⟩ := h
  have hall : ∀ c ∈ scheme, (!isUrlEnd c) = true := by
    intro c hc
    rw [hscheme c hc]
    rfl
  rw [List.takeWhile_append_of_pos hall]
  exact List.prefix_append _ _

/-- The beginning of a text up to the end of a URL. -/
theorem takeWhile_eq_iff {text url : List Char} :
    text.takeWhile (!isUrlEnd ·) = url ↔ ∃ after, text = url ++ after ∧
      (∀ c ∈ url, isUrlEnd c = false) ∧ ∀ c ∈ after.head?, isUrlEnd c = true := by
  constructor
  · rintro rfl
    refine ⟨text.dropWhile (!isUrlEnd ·), List.takeWhile_append_dropWhile.symm, ?_, ?_⟩
    · intro c hc
      simpa using List.mem_takeWhile_imp hc
    · intro c hc
      have hhead := List.head?_dropWhile_not (fun c => !isUrlEnd c) text
      rw [Option.mem_def.1 hc] at hhead
      simpa using hhead
  · rintro ⟨after, rfl, hinside, hends⟩
    have hall : ∀ c ∈ url, (!isUrlEnd c) = true := by
      intro c hc
      rw [hinside c hc]
      rfl
    rw [List.takeWhile_append_of_pos hall]
    cases after with
    | nil => simp
    | cons c after => simp [hends c rfl]

/-- What is detected: every beginning of a URL, up to its end. -/
theorem mem_detectFrom {rowIdx : ℕ} {scheme : List Char} (hne : scheme ≠ [])
    (hscheme : ∀ c ∈ scheme, isUrlEnd c = false) {u : DetectedUrl} :
    ∀ (text : List Char) (col : ℕ), u ∈ detectFrom rowIdx scheme col text ↔
      ∃ before url after, text = before ++ url ++ after ∧ scheme <+: url ∧
        (∀ c ∈ url, isUrlEnd c = false) ∧ (∀ c ∈ after.head?, isUrlEnd c = true) ∧
        u = ⟨rowIdx, (col + before.length) % 2 ^ 16, (col + before.length + url.length) % 2 ^ 16,
          String.ofList url⟩
  | [], col => by
    refine iff_of_false List.not_mem_nil ?_
    rintro ⟨before, url, after, htext, hurl, -⟩
    obtain ⟨-, rfl, -⟩ : before = [] ∧ url = [] ∧ after = [] := by simpa using htext.symm
    exact hne (List.prefix_nil.1 hurl)
  | c :: text, col => by
    have hrest := @mem_detectFrom rowIdx scheme hne hscheme u text (col + 1)
    -- a later one has the character before it
    have hlater : u ∈ detectFrom rowIdx scheme (col + 1) text ↔
        ∃ before url after, c :: text = (c :: before) ++ url ++ after ∧ scheme <+: url ∧
          (∀ c ∈ url, isUrlEnd c = false) ∧ (∀ c ∈ after.head?, isUrlEnd c = true) ∧
          u = ⟨rowIdx, (col + (c :: before).length) % 2 ^ 16,
            (col + (c :: before).length + url.length) % 2 ^ 16, String.ofList url⟩ := by
      rw [hrest]
      simp only [List.cons_append, List.cons.injEq, true_and, List.length_cons]
      refine exists_congr fun before => exists_congr fun url => exists_congr fun after => ?_
      rw [Nat.add_right_comm col 1, ← Nat.add_assoc]
    -- the first one begins here
    have hfirst : ∀ url after, c :: text = url ++ after → scheme <+: url →
        (∀ c ∈ url, isUrlEnd c = false) → (∀ c ∈ after.head?, isUrlEnd c = true) →
        scheme <+: c :: text ∧ (c :: text).takeWhile (!isUrlEnd ·) = url := by
      intro url after htext hurl hinside hends
      exact ⟨htext ▸ hurl.trans (List.prefix_append _ _),
        takeWhile_eq_iff.2 ⟨after, htext, hinside, hends⟩⟩
    unfold detectFrom
    by_cases hbegins : scheme <+: c :: text
    · have hprefix := prefix_takeWhile hbegins hscheme
      have hurl : (c :: text).takeWhile (!isUrlEnd ·) ≠ [] := by
        intro hnil
        rw [hnil] at hprefix
        exact hne (List.prefix_nil.1 hprefix)
      dsimp only
      rw [if_pos hbegins, if_pos hurl, List.mem_cons, hlater]
      constructor
      · rintro (rfl | ⟨before, h⟩)
        · obtain ⟨after, htext, hinside, hends⟩ := takeWhile_eq_iff.1 (rfl :
            (c :: text).takeWhile (!isUrlEnd ·) = _)
          exact ⟨[], _, after, htext, hprefix, hinside, hends, rfl⟩
        · exact ⟨c :: before, h⟩
      · rintro ⟨_ | ⟨c', before⟩, url, after, htext, h⟩
        · obtain ⟨hscheme', hinside, hends, rfl⟩ := h
          left
          rw [(hfirst url after htext hscheme' hinside hends).2]
          rfl
        · obtain rfl : c = c' := (List.cons.inj htext).1
          exact .inr ⟨before, url, after, htext, h⟩
    · dsimp only
      rw [if_neg hbegins, hlater]
      constructor
      · rintro ⟨before, h⟩
        exact ⟨c :: before, h⟩
      · rintro ⟨_ | ⟨c', before⟩, url, after, htext, h⟩
        · exact absurd (hfirst url after htext h.1 h.2.1 h.2.2.1).1 hbegins
        · obtain rfl : c = c' := (List.cons.inj htext).1
          exact ⟨before, url, after, htext, h⟩

/-! ## The link of a cell -/

/-- The URLs of a row that cover a column. -/
theorem mem_detectUrlsInRow {row col : ℕ} {cells : List Cell} (hlen : cells.length < 2 ^ 16)
    {u : DetectedUrl} : u ∈ detectUrlsInRow row cells ∧ u.contains col row = true ↔
      ∃ before url after, UrlIn (cells.map Cell.ch) col before url after ∧
        u = ⟨row, before.length, before.length + url.length, String.ofList url⟩ := by
  have hcolumns : ∀ before url after : List Char, cells.map Cell.ch = before ++ url ++ after →
      before.length % 2 ^ 16 = before.length ∧
        (before.length + url.length) % 2 ^ 16 = before.length + url.length := by
    intro before url after htext
    have hsum := congrArg List.length htext
    simp only [List.length_map, List.length_append] at hsum
    constructor <;> exact Nat.mod_eq_of_lt (by omega)
  have hcontains : ∀ start stop url, (⟨row, start, stop, url⟩ : DetectedUrl).contains col row = true ↔
      start ≤ col ∧ col < stop := by
    intro start stop url
    simp [DetectedUrl.contains]
  rw [detectUrlsInRow, List.mem_flatMap]
  constructor
  · rintro ⟨⟨scheme, hmem, hu⟩, hcovers⟩
    obtain ⟨hne, hscheme⟩ := not_isUrlEnd_scheme scheme hmem
    obtain ⟨before, url, after, htext, hbegins, hinside, hends, rfl⟩ :=
      (mem_detectFrom hne hscheme _ _).1 hu
    obtain ⟨hstart, hstop⟩ := hcolumns before url after htext
    rw [Nat.zero_add, hstart, hstop] at hcovers ⊢
    exact ⟨before, url, after, ⟨htext, ⟨scheme, hmem, hbegins⟩, hinside, hends,
      (hcontains _ _ _).1 hcovers⟩, rfl⟩
  · rintro ⟨before, url, after, ⟨htext, ⟨scheme, hmem, hbegins⟩, hinside, hends, hcovers⟩, rfl⟩
    obtain ⟨hne, hscheme⟩ := not_isUrlEnd_scheme scheme hmem
    obtain ⟨hstart, hstop⟩ := hcolumns before url after htext
    refine ⟨⟨scheme, hmem, (mem_detectFrom hne hscheme _ _).2 ⟨before, url, after, htext, hbegins,
      hinside, hends, ?_⟩⟩, (hcontains _ _ _).2 hcovers⟩
    rw [Nat.zero_add, hstart, hstop]

/-- **The URL at a cell** is a link that the screen has there. -/
theorem linkAt_of_findUrlAt {g : Grid} (hg : Narrow g) {col row : ℕ} {url : String}
    (h : findUrlAt g col row = some url) : LinkAt g col row url := by
  unfold findUrlAt at h
  cases hspan : g.hyperlinks.find? fun span =>
      span.row = row ∧ span.colStart ≤ col ∧ col < span.colEnd with
  | some span =>
    rw [hspan] at h
    obtain ⟨hrow, hcol⟩ : span.row = row ∧ span.colStart ≤ col ∧ col < span.colEnd := by
      simpa using List.find?_some hspan
    exact .inl ⟨span, List.mem_of_find?_eq_some hspan, hrow, hcol.1, hcol.2,
      (Option.some.inj h).symm⟩
  | none =>
    rw [hspan] at h
    obtain ⟨cells, hcells, hfound⟩ := Option.bind_eq_some_iff.1 h
    obtain ⟨u, hu, rfl⟩ := Option.map_eq_some_iff.1 hfound
    obtain ⟨before, text, after, hin, rfl⟩ :=
      (mem_detectUrlsInRow (hg _ (List.mem_of_getElem? hcells))).1
        ⟨List.mem_of_find?_eq_some hu, @List.find?_some _ (fun u : DetectedUrl => u.contains col row) _ _ hu⟩
    refine .inr ⟨?_, cells, hcells, before, text, after, hin, rfl⟩
    simpa using List.find?_eq_none.1 hspan

/-- A URL is found wherever the screen has a link. -/
theorem isSome_findUrlAt_iff {g : Grid} (hg : Narrow g) (col row : ℕ) :
    (findUrlAt g col row).isSome ↔ ∃ url, LinkAt g col row url := by
  constructor
  · intro h
    obtain ⟨url, hurl⟩ := Option.isSome_iff_exists.1 h
    exact ⟨url, linkAt_of_findUrlAt hg hurl⟩
  · rintro ⟨url, ⟨span, hspan, hrow, hstart, hstop, -⟩ | ⟨hnone, cells, hcells, before, text, after,
      hin, -⟩⟩ <;> unfold findUrlAt
    · cases hfind : g.hyperlinks.find? fun span =>
          span.row = row ∧ span.colStart ≤ col ∧ col < span.colEnd with
      | some span => rfl
      | none =>
        have hno := List.find?_eq_none.1 hfind span hspan
        exact absurd (decide_eq_true ⟨hrow, hstart, hstop⟩) hno
    · have hfind : (g.hyperlinks.find? fun span =>
          span.row = row ∧ span.colStart ≤ col ∧ col < span.colEnd) = none := by
        rw [List.find?_eq_none]
        intro span hspan
        simpa using hnone span hspan
      obtain ⟨hu, hcontains⟩ :=
        (mem_detectUrlsInRow (hg _ (List.mem_of_getElem? hcells))).2 ⟨before, text, after, hin, rfl⟩
      rw [hfind, hcells]
      show (((detectUrlsInRow row cells).find? _).map _).isSome = true
      rw [Option.isSome_map, List.find?_isSome]
      exact ⟨_, hu, hcontains⟩

end Nexterm.Client

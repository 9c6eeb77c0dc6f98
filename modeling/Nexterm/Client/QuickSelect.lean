/-
  Quick Select (`state/menus.rs`, `input_handler/special_modes.rs`): what the patterns match on the
  screen, and the labels by which a match is picked.

  * `Match`: a match of a regular expression in a row; its offsets count bytes.
  * `rowMatches`, `allMatches`: the matches of a row and of the screen; where two overlap, the
    earlier pattern wins.
  * `indexToLabel`, `assignLabels`: their labels.
  * `QuickSelectState`: the mode, and what a key does in it.

  The regular expressions are those of a library: a `Pattern` is any function that finds matches.
-/
import Nexterm.Lib.Greedy
import Nexterm.Lib.Fallible
import Nexterm.Vt.Text

namespace Nexterm.Client

open Nexterm.Vt (Cell bytesLen)

/-- A match of a regular expression: where in the line its text stands. -/
structure Match (line : List Char) where
  before : List Char
  text : List Char
  after : List Char
  line_eq : before ++ text ++ after = line

/-- What a regular expression finds in a line. -/
abbrev Pattern : Type := (line : List Char) → List (Match line)

namespace Match

variable {line : List Char}

/-- The offset of the first byte. -/
def start (m : Match line) : ℕ := bytesLen m.before

/-- The offset past the last byte. -/
def stop (m : Match line) : ℕ := bytesLen (m.before ++ m.text)

end Match

/-- Match result in Quick Select mode. -/
structure QuickSelectMatch where
  row : ℕ
  colStart : ℕ
  colEnd : ℕ
  text : String
  /-- Selection label (a, b, c, ... / aa, ab, ...) -/
  label : String
  deriving DecidableEq

/-- The match as it is recorded: row and offsets as 16-bit numbers, the label still empty. -/
def Match.toQuickSelect {line : List Char} (rowIdx : ℕ) (m : Match line) : QuickSelectMatch where
  row := rowIdx % 2 ^ 16
  colStart := m.start % 2 ^ 16
  colEnd := m.stop % 2 ^ 16
  text := String.ofList m.text
  label := ""

/-- One match of a pattern; it is skipped if it overlaps an occupied range of the row. -/
def rowStep {line : List Char} (rowIdx : ℕ) (state : List (ℕ × ℕ) × List QuickSelectMatch)
    (m : Match line) : List (ℕ × ℕ) × List QuickSelectMatch :=
  let (occupied, rowMatches) := state
  if occupied.any fun r => !(m.stop ≤ r.1 || m.start ≥ r.2) then state
  else (occupied ++ [(m.start, m.stop)], rowMatches ++ [m.toQuickSelect rowIdx])

/-- The matches of one row, pattern by pattern. -/
def rowMatches (patterns : List Pattern) (rowIdx : ℕ) (cells : List Cell) :
    List QuickSelectMatch :=
  ((patterns.flatMap fun re => re (cells.map Cell.ch)).foldl (rowStep rowIdx) ([], [])).2

/-- All the matches of the screen, without their labels. -/
def allMatches (patterns : List Pattern) (rows : List (List Cell)) : List QuickSelectMatch :=
  (rows.mapIdx (rowMatches patterns)).flatten

def labelChars : List Char := "abcdefghijklmnopqrstuvwxyz".toList

/-- The label of the `i`-th match; an index out of range panics. -/
def indexToLabel (i total : ℕ) (chars : List Char) : Option String :=
  let base := chars.length
  if total ≤ base then chars[i % base]?.map fun c => String.ofList [c]
  else
    let second := i / base
    let first := i % base
    if second = 0 then chars[first]?.map fun c => String.ofList [c]
    else do
      let c ← chars[second - 1]?
      let c' ← chars[first]?
      some (String.ofList [c, c'])

def assignLabels (found : List QuickSelectMatch) : Option (List QuickSelectMatch) :=
  found.zipIdx.mapM fun (m, i) =>
    (indexToLabel i found.length labelChars).map fun label => { m with label := label }

/-- Find Quick Select matches in the grid. -/
def findQuickSelectMatches (patterns : List Pattern) (rows : List (List Cell)) :
    Option (List QuickSelectMatch) :=
  assignLabels (allMatches patterns rows)

/-- State of Quick Select mode. -/
structure QuickSelectState where
  isActive : Bool
  quickMatches : List QuickSelectMatch
  /-- Label currently being typed -/
  typedLabel : String

/-- The keys of the mode; a letter key stands for its letter. -/
inductive SelectKey
  | escape
  | backspace
  | char (ch : Char)
  | other

namespace QuickSelectState

def enter (patterns : List Pattern) (gridRows : List (List Cell)) : Option QuickSelectState :=
  (findQuickSelectMatches patterns gridRows).map fun found => ⟨true, found, ""⟩

def exit (_qs : QuickSelectState) : QuickSelectState := ⟨false, [], ""⟩

/-- The match whose label equals the typed label. -/
def accept (qs : QuickSelectState) : Option QuickSelectMatch :=
  if qs.typedLabel.isEmpty then none else qs.quickMatches.find? fun m => m.label = qs.typedLabel

/-- A key in the mode: the state after it, and the match whose text is copied. -/
def handleQuickSelectKey (qs : QuickSelectState) :
    SelectKey → QuickSelectState × Option QuickSelectMatch
  | .escape => (qs.exit, none)
  | .backspace => ({ qs with typedLabel := String.ofList qs.typedLabel.toList.dropLast }, none)
  | .char ch =>
    let qs := { qs with typedLabel := qs.typedLabel.push ch }
    match qs.accept with
    | some m => (qs.exit, some m)
    | none => (qs, none)
  | .other => (qs, none)

end QuickSelectState

/-! ## The matches of a row -/

/-- Do the byte ranges of the two matches overlap? -/
def Match.overlaps {line : List Char} (m m' : Match line) : Bool :=
  !(m.stop ≤ m'.start || m.start ≥ m'.stop)

/-- The matches of the row that are recorded. -/
def chosen (patterns : List Pattern) (line : List Char) : List (Match line) :=
  Greedy.select Match.overlaps (patterns.flatMap fun re => re line)

theorem foldl_rowStep {line : List Char} (rowIdx : ℕ) (ms kept : List (Match line)) :
    ms.foldl (rowStep rowIdx)
        (kept.map fun m => (m.start, m.stop), kept.map (Match.toQuickSelect rowIdx)) =
      ((ms.foldl (Greedy.push Match.overlaps) kept).map fun m => (m.start, m.stop),
        (ms.foldl (Greedy.push Match.overlaps) kept).map (Match.toQuickSelect rowIdx)) := by
  induction ms generalizing kept with
  | nil => rfl
  | cons m ms ih =>
    have hstep : rowStep rowIdx
        (kept.map fun m => (m.start, m.stop), kept.map (Match.toQuickSelect rowIdx)) m =
          ((Greedy.push Match.overlaps kept m).map fun m => (m.start, m.stop),
            (Greedy.push Match.overlaps kept m).map (Match.toQuickSelect rowIdx)) := by
      have hany : ((kept.map fun m => (m.start, m.stop)).any
          fun r => !(m.stop ≤ r.1 || m.start ≥ r.2)) = kept.any (m.overlaps ·) := List.any_map
      unfold rowStep Greedy.push
      dsimp only
      rw [hany]
      split_ifs
      · rfl
      · simp
    rw [List.foldl_cons, hstep, ih, List.foldl_cons]

theorem rowMatches_eq (patterns : List Pattern) (rowIdx : ℕ) (cells : List Cell) :
    rowMatches patterns rowIdx cells =
      (chosen patterns (cells.map Cell.ch)).map (Match.toQuickSelect rowIdx) :=
  congrArg Prod.snd (foldl_rowStep rowIdx _ [])

/-- A match of the screen is one that is chosen on its row. -/
theorem mem_allMatches {patterns : List Pattern} {rows : List (List Cell)} {q : QuickSelectMatch} :
    q ∈ allMatches patterns rows ↔ ∃ (rowIdx : ℕ) (cells : List Cell), rows[rowIdx]? = some cells ∧
      ∃ m ∈ chosen patterns (cells.map Cell.ch), m.toQuickSelect rowIdx = q := by
  simp only [allMatches, List.mem_flatten, List.mem_mapIdx]
  constructor
  · rintro ⟨_, ⟨i, hi, rfl⟩, hq⟩
    rw [rowMatches_eq] at hq
    exact ⟨i, rows[i], List.getElem?_eq_getElem hi, List.mem_map.1 hq⟩
  · rintro ⟨i, cells, hcells, hq⟩
    obtain ⟨hi, rfl⟩ := List.getElem?_eq_some_iff.1 hcells
    exact ⟨_, ⟨i, hi, rfl⟩, by rw [rowMatches_eq]; exact List.mem_map.2 hq⟩

/-! ## Bytes and cells -/

/-- The bytes of the characters past the first of each. -/
def continuationBytes (cs : List Char) : ℕ := (cs.map fun c => c.utf8Size - 1).sum

theorem bytesLen_eq (cs : List Char) : bytesLen cs = cs.length + continuationBytes cs := by
  induction cs with
  | nil => rfl
  | cons c cs ih =>
    have hpos := c.utf8Size_pos
    simp only [bytesLen, continuationBytes, List.map_cons, List.sum_cons, List.length_cons] at ih ⊢
    omega

theorem bytesLen_append (cs cs' : List Char) :
    bytesLen (cs ++ cs') = bytesLen cs + bytesLen cs' := by
  simp [bytesLen]

theorem continuationBytes_eq_zero {cs : List Char} (h : ∀ c ∈ cs, c.utf8Size = 1) :
    continuationBytes cs = 0 := by
  refine List.sum_eq_zero ?_
  rintro x hx
  obtain ⟨c, hc, rfl⟩ := List.mem_map.1 hx
  rw [h c hc, Nat.sub_self]

/-- Of two prefixes of a line the one with fewer bytes has fewer cells. -/
theorem length_le_of_bytesLen_le {line a b : List Char} (ha : a <+: line) (hb : b <+: line)
    (h : bytesLen a ≤ bytesLen b) : a.length ≤ b.length := by
  by_contra hlt
  obtain ⟨c, rfl⟩ := List.prefix_of_prefix_length_le hb ha (by omega)
  have hc := bytesLen_eq c
  rw [bytesLen_append] at h
  rw [List.length_append] at hlt
  omega

namespace Match

variable {line : List Char}

theorem before_prefix (m : Match line) : m.before <+: line :=
  ⟨m.text ++ m.after, by rw [← List.append_assoc, m.line_eq]⟩

theorem upTo_prefix (m : Match line) : m.before ++ m.text <+: line := ⟨m.after, m.line_eq⟩

/-- The text is what stands in its cells. -/
theorem text_eq (m : Match line) :
    (line.take (m.before ++ m.text).length).drop m.before.length = m.text := by
  have htake := congrArg (List.take (m.before ++ m.text).length) m.line_eq
  rw [List.take_left] at htake
  rw [← htake, List.drop_left]

/-- The recorded columns are the cells of the match. -/
def OwnCells (rowIdx : ℕ) (m : Match line) : Prop :=
  (m.toQuickSelect rowIdx).row = rowIdx ∧ (m.toQuickSelect rowIdx).colStart = m.before.length ∧
    (m.toQuickSelect rowIdx).colEnd = (m.before ++ m.text).length

/-- The row and the end of the match fit into 16 bits, and so many bytes of longer characters stand
    before its start and before its end that they are lost in the conversion; there are none, unless
    the row is very long. -/
structure Narrow (rowIdx : ℕ) (m : Match line) : Prop where
  row : rowIdx < 2 ^ 16
  colEnd : (m.before ++ m.text).length < 2 ^ 16
  bytesBefore : 2 ^ 16 ∣ continuationBytes m.before
  bytesUpTo : 2 ^ 16 ∣ continuationBytes (m.before ++ m.text)

theorem ownCells_iff (rowIdx : ℕ) (m : Match line) : m.OwnCells rowIdx ↔ m.Narrow rowIdx := by
  have hbefore := bytesLen_eq m.before
  have hupTo := bytesLen_eq (m.before ++ m.text)
  have hlen : m.before.length ≤ (m.before ++ m.text).length := by simp
  simp only [OwnCells, toQuickSelect, start, stop]
  constructor
  · rintro ⟨hrow, hstart, hend⟩
    exact ⟨by omega, by omega, by omega, by omega⟩
  · rintro ⟨hrow, hend, hbytes, hbytes'⟩
    exact ⟨by omega, by omega, by omega⟩

/-- Two matches that do not overlap are one before the other. -/
theorem apart_of_not_overlaps {m m' : Match line} (h : m'.overlaps m = false) :
    (m.before ++ m.text).length ≤ m'.before.length ∨
      (m'.before ++ m'.text).length ≤ m.before.length := by
  simp only [overlaps, Bool.not_eq_false', Bool.or_eq_true, decide_eq_true_eq] at h
  rcases h with h | h
  · exact .inr (length_le_of_bytesLen_le m'.upTo_prefix m.before_prefix h)
  · exact .inl (length_le_of_bytesLen_le m.upTo_prefix m'.before_prefix h)

end Match

/-! ## Positions -/

/-- The text of the match is what stands in its row, from its first column to its last. -/
def TextAt (rows : List (List Cell)) (q : QuickSelectMatch) : Prop :=
  ∃ cells : List Cell, rows[q.row]? = some cells ∧ q.colEnd ≤ cells.length ∧
    ((cells.map Cell.ch).take q.colEnd).drop q.colStart = q.text.toList

/-- **The positions of the matches**: the text of each is at its columns, no two on a row overlap,
    and the matches of the earlier patterns are the same with and without the later ones. -/
structure Positioned (patterns : List Pattern) (rows : List (List Cell)) : Prop where
  text : ∀ q ∈ allMatches patterns rows, TextAt rows q
  apart : (allMatches patterns rows).Pairwise fun q q' =>
    q.row = q'.row → q.colEnd ≤ q'.colStart ∨ q'.colEnd ≤ q.colStart
  priority : ∀ earlier later : List Pattern, patterns = earlier ++ later →
    ∀ (rowIdx : ℕ) (cells : List Cell), rows[rowIdx]? = some cells →
      rowMatches earlier rowIdx cells <+: rowMatches patterns rowIdx cells

/-- Every recorded match names its own cells. -/
def OwnCells (patterns : List Pattern) (rows : List (List Cell)) : Prop :=
  ∀ (rowIdx : ℕ) (cells : List Cell), rows[rowIdx]? = some cells →
    ∀ m ∈ chosen patterns (cells.map Cell.ch), m.OwnCells rowIdx

theorem rowMatches_prefix (earlier later : List Pattern) (rowIdx : ℕ) (cells : List Cell) :
    rowMatches earlier rowIdx cells <+: rowMatches (earlier ++ later) rowIdx cells := by
  rw [rowMatches_eq, rowMatches_eq, chosen, chosen, List.flatMap_append]
  exact (Greedy.select_prefix _ _).map _

variable {patterns : List Pattern} {rows : List (List Cell)}

theorem OwnCells.positioned (h : OwnCells patterns rows) : Positioned patterns rows where
  text := by
    intro q hq
    obtain ⟨rowIdx, cells, hcells, m, hm, rfl⟩ := mem_allMatches.1 hq
    obtain ⟨hrow, hstart, hend⟩ := h rowIdx cells hcells m hm
    have hle := m.upTo_prefix.length_le
    rw [List.length_map] at hle
    refine ⟨cells, by rw [hrow, hcells], by rw [hend]; exact hle, ?_⟩
    rw [hstart, hend, m.text_eq]
    simp [Match.toQuickSelect]
  apart := by
    refine List.pairwise_flatten.2 ⟨?_, ?_⟩
    · intro l hl
      obtain ⟨rowIdx, hlt, rfl⟩ := List.mem_mapIdx.1 hl
      have hown := h rowIdx rows[rowIdx] (List.getElem?_eq_getElem hlt)
      rw [rowMatches_eq]
      refine List.pairwise_map.2 ((Greedy.select_pairwise _).imp_of_mem ?_)
      rintro m m' hm hm' hclash -
      obtain ⟨-, hstart, hend⟩ := hown m hm
      obtain ⟨-, hstart', hend'⟩ := hown m' hm'
      rw [hstart, hend, hstart', hend']
      exact Match.apart_of_not_overlaps hclash
    · refine List.pairwise_iff_getElem.2 ?_
      intro i j hi hj hij q hq q' hq' hrow
      simp only [List.length_mapIdx] at hi hj
      rw [List.getElem_mapIdx, rowMatches_eq] at hq hq'
      obtain ⟨m, hm, rfl⟩ := List.mem_map.1 hq
      obtain ⟨m', hm', rfl⟩ := List.mem_map.1 hq'
      rw [(h i rows[i] (List.getElem?_eq_getElem hi) m hm).1,
        (h j rows[j] (List.getElem?_eq_getElem hj) m' hm').1] at hrow
      omega
  priority := by
    rintro earlier later rfl rowIdx cells -
    exact rowMatches_prefix earlier later rowIdx cells

/-- A pattern with one match on the line. -/
theorem chosen_singleton {line : List Char} {re : Pattern} {m : Match line} (h : re line = [m]) :
    chosen [re] line = [m] := by
  simp [chosen, h, Greedy.select, Greedy.push]

/-- A text that stands at its columns is as long as they are many. -/
theorem TextAt.length_eq {q : QuickSelectMatch} (h : TextAt rows q) :
    q.text.toList.length = q.colEnd - q.colStart := by
  obtain ⟨cells, -, hend, htext⟩ := h
  rw [← htext, List.length_drop, List.length_take, List.length_map, min_eq_left hend]

theorem length_of_positioned (h : ∀ patterns : List Pattern, Positioned patterns rows)
    {rowIdx : ℕ} {cells : List Cell} (hcells : rows[rowIdx]? = some cells) (re : Pattern)
    {m : Match (cells.map Cell.ch)} (hm : re (cells.map Cell.ch) = [m]) :
    m.text.length = m.stop % 2 ^ 16 - m.start % 2 ^ 16 := by
  have hmem : m ∈ chosen [re] (cells.map Cell.ch) := by
    rw [chosen_singleton hm]
    exact List.mem_singleton_self m
  have htext := (h [re]).text _ (mem_allMatches.2 ⟨rowIdx, cells, hcells, m, hmem, rfl⟩)
  simpa [Match.toQuickSelect] using htext.length_eq

/-- If the positions are right whatever the patterns find, then a row is short, -/
theorem length_lt_of_positioned (h : ∀ patterns : List Pattern, Positioned patterns rows)
    {rowIdx : ℕ} {cells : List Cell} (hcells : rows[rowIdx]? = some cells) :
    cells.length < 2 ^ 16 := by
  -- a pattern that matches the whole line
  have hlen := length_of_positioned h hcells (fun line => [⟨[], line, [], by simp⟩]) rfl
  rw [List.length_map] at hlen
  omega

/-- and its characters take one byte each. -/
theorem oneByte_of_positioned (h : ∀ patterns : List Pattern, Positioned patterns rows)
    {rowIdx : ℕ} {cells : List Cell} (hcells : rows[rowIdx]? = some cells) :
    ∀ c ∈ cells.map Cell.ch, c.utf8Size = 1 := by
  intro c hc
  obtain ⟨before, after, hline⟩ := List.append_of_mem hc
  -- a pattern that matches this character
  let re : Pattern := fun line =>
    if h : before ++ [c] ++ after = line then [⟨before, [c], after, h⟩] else []
  have hline' : before ++ [c] ++ after = cells.map Cell.ch := by simp [hline]
  have hlen := length_of_positioned h hcells re (dif_pos hline')
  have hpos := c.utf8Size_pos
  have hle := c.utf8Size_le_four
  have hsize : bytesLen [c] = c.utf8Size := by simp [bytesLen]
  simp only [Match.start, Match.stop, bytesLen_append, hsize, List.length_singleton] at hlen
  omega

/-- A grid on which columns are byte offsets: its rows are short, and of one-byte characters. -/
def OneByteCells (rows : List (List Cell)) : Prop :=
  ∀ cells ∈ rows, cells.length < 2 ^ 16 ∧ ∀ c ∈ cells.map Cell.ch, c.utf8Size = 1

theorem OneByteCells.ownCells (h : OneByteCells rows) (hrows : rows.length ≤ 2 ^ 16)
    (patterns : List Pattern) : OwnCells patterns rows := by
  intro rowIdx cells hcells m hm
  obtain ⟨hlen, hone⟩ := h cells (List.mem_of_getElem? hcells)
  have hlt := (List.getElem?_eq_some_iff.1 hcells).1
  have hupTo := m.upTo_prefix.length_le
  rw [List.length_map] at hupTo
  have hbefore := continuationBytes_eq_zero fun c hc => hone c (m.before_prefix.subset hc)
  have hbytes := continuationBytes_eq_zero fun c hc => hone c (m.upTo_prefix.subset hc)
  refine (m.ownCells_iff rowIdx).2 ⟨by omega, by omega, ?_, ?_⟩
  · exact hbefore ▸ dvd_zero _
  · exact hbytes ▸ dvd_zero _

theorem label_of_mem_allMatches {q : QuickSelectMatch} (hq : q ∈ allMatches patterns rows) :
    q.label = "" := by
  obtain ⟨_, _, _, m, _, rfl⟩ := mem_allMatches.1 hq
  rfl

/-- Labelling changes nothing else. -/
theorem map_label_assignLabels {found labelled : List QuickSelectMatch}
    (h : assignLabels found = some labelled) (hfound : ∀ q ∈ found, q.label = "") :
    (labelled.map fun q => { q with label := "" }) = found := by
  have hmap := Fallible.mapM_eq_some_iff.1 h
  have hlen : labelled.length = found.length := by
    simpa using (congrArg List.length hmap).symm
  refine List.ext_getElem (by simpa using hlen) ?_
  intro i hi hi'
  have hi'' : i < labelled.length := hlen ▸ hi'
  have hget : (found.zipIdx.map _)[i]? = (labelled.map some)[i]? := congrArg (·[i]?) hmap
  obtain ⟨label, -, hlabel⟩ : ∃ label, indexToLabel i found.length labelChars = some label ∧
      { found[i] with label := label } = labelled[i] := by
    simpa [hi', hi'', Option.map_eq_some_iff] using hget
  have hempty := hfound found[i] (List.getElem_mem hi')
  rw [List.getElem_map, ← hlabel]
  simp only
  rw [← hempty]

/-- **Quick Select positions** are right for every choice of patterns exactly on the grids of
    one-byte characters.  For given patterns, the columns are those of the matches if and only if
    every match is `Narrow`, and then the positions are right.  (A grid has at most 65535 rows.) -/
theorem quickSelect_positions_iff (rows : List (List Cell)) (hrows : rows.length ≤ 2 ^ 16) :
    ((∀ patterns : List Pattern, Positioned patterns rows) ↔ OneByteCells rows) ∧
    ∀ patterns : List Pattern,
      (OwnCells patterns rows ↔ ∀ (rowIdx : ℕ) (cells : List Cell), rows[rowIdx]? = some cells →
        ∀ m ∈ chosen patterns (cells.map Cell.ch), m.Narrow rowIdx) ∧
      (OwnCells patterns rows → Positioned patterns rows) ∧
      ∀ qs : List QuickSelectMatch, findQuickSelectMatches patterns rows = some qs →
        (qs.map fun q => { q with label := "" }) = allMatches patterns rows := by
  refine ⟨⟨fun h cells hcells => ?_, fun h patterns => ?_⟩, fun patterns => ⟨?_, ?_, ?_⟩⟩
  · obtain ⟨rowIdx, hlt, rfl⟩ := List.getElem_of_mem hcells
    have hget := List.getElem?_eq_getElem hlt
    exact ⟨length_lt_of_positioned h hget, oneByte_of_positioned h hget⟩
  · exact (h.ownCells hrows patterns).positioned
  · simp only [OwnCells, Match.ownCells_iff]
  · exact OwnCells.positioned
  · intro qs hqs
    exact map_label_assignLabels hqs fun q hq => label_of_mem_allMatches hq

/-- The first number of a line. -/
def firstNumber : Pattern := fun line =>
  let before := line.takeWhile fun c => !c.isDigit
  let rest := line.dropWhile fun c => !c.isDigit
  if rest = [] then []
  else [⟨before, rest.takeWhile Char.isDigit, rest.dropWhile Char.isDigit, by
    rw [List.append_assoc, List.takeWhile_append_dropWhile, List.takeWhile_append_dropWhile]⟩]

/-- The number in `é 42` is recorded at columns 3 to 5. -/
theorem accented_misplaced : ¬ ∀ (patterns : List Pattern) (rows : List (List Cell)),
    Positioned patterns rows := by
  intro h
  have hmem : (⟨0, 3, 5, "42", ""⟩ : QuickSelectMatch) ∈
      allMatches [firstNumber] [("é 42".toList.map fun ch => { ch := ch })] := by decide
  obtain ⟨cells, hcells, hend, -⟩ := (h _ _).text _ hmem
  cases hcells
  exact absurd hend (by decide)

theorem plain_positioned :
    Positioned [firstNumber] [("e 42".toList.map fun ch => { ch := ch })] := by
  have hiff := quickSelect_positions_iff [("e 42".toList.map fun ch => { ch := ch })] (by decide)
  refine hiff.1.2 ?_ [firstNumber]
  intro cells hcells
  obtain rfl := List.mem_singleton.1 hcells
  refine ⟨by decide, fun c hc => ?_⟩
  have hone : (("e 42".toList.map fun ch => { ch := ch : Cell }).map Cell.ch).all
      fun c => c.utf8Size = 1 := by decide
  exact of_decide_eq_true (List.all_eq_true.1 hone c hc)

end Nexterm.Client

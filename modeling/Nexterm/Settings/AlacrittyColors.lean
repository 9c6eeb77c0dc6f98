/-
  The import of colors from Alacritty (`theme.rs`).

  * `parseAlacrittyYaml`: the reader; it goes by how a line starts, in the last section it knows.
  * `YamlFile`: a file, as headings and entries; `render`: its text.
  * `YamlLine.owns`: a line has the key of a color under the heading of its section;
    `YamlLine.reads`: the reader takes the line for the color.
  * `readsOwn_iff`: the colors are imported, whatever they are, if for each of them the last line
    that is read is its last own line.
-/
import Nexterm.Lib.LastWrite
import Nexterm.Settings.ItermColors

namespace Nexterm.Settings.Theme

open Markup (find)
open Vt (isWhitespace)

/-! ## The reader -/

/-- `char::is_ascii_hexdigit`. -/
def isAsciiHexdigit (c : Char) : Bool := c.isDigit || ('a' ≤ c ∧ c ≤ 'f') || ('A' ≤ c ∧ c ≤ 'F')

/-- `#RRGGBB` from its digits; three of them are doubled. -/
def expandHex (hex : List Char) : Option (List Char) :=
  if hex.length = 6 then some ('#' :: hex.map Char.toUpper)
  else
    match hex with
    | [r, g, b] => some (['#', r, r, g, g, b, b].map Char.toUpper)
    | _ => none

/-- Extract `key: '#RRGGBB'` or `key: '#RGB'` from a line. -/
def yamlExtractHex (line : List Char) : Option (List Char) := do
  let hashPos ← find ['#'] line
  expandHex ((line.drop (hashPos + 1)).takeWhile isAsciiHexdigit)

/-- The section that is being read. -/
inductive Section
  | primary
  | normal
  | bright
  | cursor
  deriving DecidableEq

structure YamlState where
  foreground : List Char
  background : List Char
  ansi : List (List Char)
  current : Option Section

/-- ANSI color name → index mapping. -/
def normalMap : List (List Char × ℕ) :=
  [("black".toList, 0), ("red".toList, 1), ("green".toList, 2), ("yellow".toList, 3),
    ("blue".toList, 4), ("magenta".toList, 5), ("cyan".toList, 6), ("white".toList, 7)]

def brightMap : List (List Char × ℕ) :=
  [("black".toList, 8), ("red".toList, 9), ("green".toList, 10), ("yellow".toList, 11),
    ("blue".toList, 12), ("magenta".toList, 13), ("cyan".toList, 14), ("white".toList, 15)]

/-- The colors whose names the line starts with. -/
def setNamed (map : List (List Char × ℕ)) (trimmed : List Char) (ansi : List (List Char)) :
    List (List Char) :=
  map.foldl (fun ansi entry =>
    if entry.1.isPrefixOf trimmed then
      match yamlExtractHex trimmed with
      | some hex => ansi.set entry.2 hex
      | none => ansi
    else ansi) ansi

/-- What a line of the current section does. -/
def YamlState.read (s : YamlState) (trimmed : List Char) : YamlState :=
  match s.current with
  | some .primary =>
    if "background:".toList.isPrefixOf trimmed then
      match yamlExtractHex trimmed with
      | some hex => { s with background := hex }
      | none => s
    else if "foreground:".toList.isPrefixOf trimmed then
      match yamlExtractHex trimmed with
      | some hex => { s with foreground := hex }
      | none => s
    else s
  | some .normal => { s with ansi := setNamed normalMap trimmed s.ansi }
  | some .bright => { s with ansi := setNamed brightMap trimmed s.ansi }
  | _ => s

/-- What a line does, from its text without the blanks around it. -/
def YamlState.step (s : YamlState) (trimmed : List Char) : YamlState :=
  if "primary:".toList.isPrefixOf trimmed then { s with current := some .primary }
  else if "normal:".toList.isPrefixOf trimmed then { s with current := some .normal }
  else if "bright:".toList.isPrefixOf trimmed then { s with current := some .bright }
  else if "cursor:".toList.isPrefixOf trimmed ∧ '#' ∉ trimmed then
    { s with current := some .cursor }
  else if trimmed = "colors:".toList then { s with current := none }
  else s.read trimmed

/-- The state before the first line. -/
def YamlState.start : YamlState :=
  ⟨defaultForeground, defaultBackground, List.replicate 16 defaultAnsi, none⟩

def parseAlacrittyYaml (content : List Char) : ImportedPalette :=
  let s := (Str.lines content).foldl (fun s line => YamlState.step s (trim line)) .start
  { foreground := s.foreground
    background := s.background
    cursor := defaultForeground
    ansi := s.ansi }

/-! ## Files -/

/-- Blanks within a line. -/
abbrev Blanks := {text : List Char // text.all isWhitespace ∧ '\n' ∉ text}

/-- Whether a character may stand in a key. -/
def isKeyChar (c : Char) : Bool := c.isAlphanum || c = '_' || c = '-'

/-- The key of an entry, or the name of a section. -/
abbrev Key := {text : List Char // text ≠ [] ∧ text.all isKeyChar}

/-- The digits of a color. -/
structure Hex where
  digits : List Char
  hexdigits : digits.all isAsciiHexdigit
  length : digits.length = 6 ∨ digits.length = 3

/-- `#RRGGBB`, in upper case. -/
def Hex.color (hex : Hex) : List Char :=
  match hex.digits with
  | [r, g, b] => ['#', r, r, g, g, b, b].map Char.toUpper
  | digits => '#' :: digits.map Char.toUpper

inductive Quote
  | single
  | double

def Quote.text : Quote → List Char
  | single => [Char.ofNat 0x27]
  | double => [Char.ofNat 0x22]

/-- What follows the colon: nothing in a heading, a color, or some other value. -/
inductive YamlValue (α : Type)
  | heading
  | color (space : Blanks) (quote : Quote) (hex : α)
  | scalar (space : Blanks) (first : Char) (rest : List Char)
    (plain : isWhitespace first = false ∧ '#' ∉ first :: rest ∧ '\n' ∉ first :: rest)

/-- A line. -/
inductive YamlLine (α : Type)
  /-- a key, its value, and perhaps a comment -/
  | keyed (indent : Blanks) (key : Key) (value : YamlValue α) (tail : Blanks)
    (comment : Option {text : List Char // '\n' ∉ text})
  /-- a blank line, a comment or an item of a list -/
  | other (indent : Blanks) (text : List Char)
    (plain : (text.head? = none ∨ text.head? = some '#' ∨ text.head? = some '-') ∧ '\n' ∉ text)

/-- A file; the last line may end without a line break. -/
structure YamlFile (α : Type) where
  lines : List (YamlLine α)
  ended : Bool

variable {α β : Type}

def YamlValue.map (f : α → β) : YamlValue α → YamlValue β
  | heading => heading
  | color space quote hex => color space quote (f hex)
  | scalar space first rest plain => scalar space first rest plain

def YamlValue.text : YamlValue Hex → List Char
  | heading => []
  | color space quote hex => ' ' :: (space.1 ++ (quote.text ++ '#' :: (hex.digits ++ quote.text)))
  | scalar space first rest _ => ' ' :: (space.1 ++ first :: rest)

/-- A comment, behind a value. -/
def commentText : Option {text : List Char // '\n' ∉ text} → List Char
  | none => []
  | some text => ' ' :: '#' :: ' ' :: text.1

namespace YamlLine

def map (f : α → β) : YamlLine α → YamlLine β
  | keyed indent key value tail comment => keyed indent key (value.map f) tail comment
  | other indent text plain => other indent text plain

def text : YamlLine Hex → List Char
  | keyed indent key value tail comment =>
    indent.1 ++ (key.1 ++ ':' :: (value.text ++ (tail.1 ++ commentText comment)))
  | other indent text _ => indent.1 ++ text

/-- The key of a line with a key. -/
def key? : YamlLine α → Option (List Char)
  | keyed _ key .. => some key.1
  | other .. => none

/-- The name of the section that starts here. -/
def heading? : YamlLine α → Option (List Char)
  | keyed _ key .heading .. => some key.1
  | _ => none

def color? : YamlLine α → Option α
  | keyed _ _ (.color _ _ hex) .. => some hex
  | _ => none

/-- A line with the key `cursor` is a color if it has a '#', else a heading. -/
def hasHash : YamlLine α → Bool
  | keyed _ _ (.color ..) _ _ => true
  | keyed _ _ _ _ comment => comment.isSome
  | other .. => false

/-- The section that is read after a line which changes it. -/
def marker (line : YamlLine α) : Option (Option Section) :=
  if line.key? = some "primary".toList then some (some .primary)
  else if line.key? = some "normal".toList then some (some .normal)
  else if line.key? = some "bright".toList then some (some .bright)
  else if line.key? = some "cursor".toList ∧ line.hasHash = false then some (some .cursor)
  else if line.heading? = some "colors".toList ∧ line.hasHash = false then some none
  else none

end YamlLine

/-- The text of the file. -/
def YamlFile.render (file : YamlFile Hex) : List Char :=
  let text := file.lines.flatMap fun line => line.text ++ ['\n']
  if file.ended then text else text.dropLast

def YamlFile.map (f : α → β) (file : YamlFile α) : YamlFile β :=
  { file with lines := file.lines.map (YamlLine.map f) }

/-- A color of the palette. -/
inductive Slot
  | foreground
  | background
  | ansi (i : Fin 16)
  deriving DecidableEq

def colorNames : List (List Char) :=
  ["black".toList, "red".toList, "green".toList, "yellow".toList, "blue".toList, "magenta".toList,
    "cyan".toList, "white".toList]

namespace Slot

def part : Slot → Section
  | foreground => .primary
  | background => .primary
  | ansi i => if i.val < 8 then .normal else .bright

/-- The heading of its section. -/
def heading (slot : Slot) : List Char :=
  match slot.part with
  | .primary => "primary".toList
  | .normal => "normal".toList
  | .bright => "bright".toList
  | .cursor => "cursor".toList

def key : Slot → List Char
  | foreground => "foreground".toList
  | background => "background".toList
  | ansi i => colorNames[i.val % 8]?.getD []

def fallback : Slot → List Char
  | foreground => defaultForeground
  | background => defaultBackground
  | ansi _ => defaultAnsi

/-- The reader compares the whole key in the section `primary`, and how the key starts in the
    others. -/
def accepts (slot : Slot) (key : List Char) : Bool :=
  match slot.part with
  | .primary => key = slot.key
  | _ => slot.key.isPrefixOf key

end Slot

/-- The section that the reader is in after some lines, the last one first. -/
def currentSection (before : List (YamlLine α)) : Option Section :=
  (before.findSome? YamlLine.marker).getD none

/-- The reader takes the line, after some others, for the color. -/
def YamlLine.reads (slot : Slot) (before : List (YamlLine α)) (line : YamlLine α) : Bool :=
  line.marker = none ∧ currentSection before = some slot.part ∧ line.color?.isSome ∧
    line.key?.any slot.accepts

/-- The line has the key of the color, and the heading above it is the one of its section. -/
def YamlLine.owns (slot : Slot) (before : List (YamlLine α)) (line : YamlLine α) : Bool :=
  before.findSome? YamlLine.heading? = some slot.heading ∧ line.color?.isSome ∧
    line.key? = some slot.key

namespace YamlFile

/-- The number of the last line that the reader takes for the color. -/
def lastRead (file : YamlFile α) (slot : Slot) : Option ℕ :=
  LastWrite.place (YamlLine.reads slot) file.lines.reverse

/-- The number of the last line with the key of the color under its heading. -/
def lastOwn (file : YamlFile α) (slot : Slot) : Option ℕ :=
  LastWrite.place (YamlLine.owns slot) file.lines.reverse

/-- The color that is written under its own key in its own section, or else the default. -/
def color (file : YamlFile Hex) (slot : Slot) : List Char :=
  ((LastWrite.value (YamlLine.owns slot) YamlLine.color? file.lines.reverse).join.map
    Hex.color).getD slot.fallback

def SameShape (file file' : YamlFile Hex) : Prop :=
  file.map (fun _ => ()) = file'.map fun _ => ()

/-- The reader finds the colors of the file under their own keys. -/
structure Imports (file : YamlFile Hex) : Prop where
  foreground : (parseAlacrittyYaml file.render).foreground = file.color .foreground
  background : (parseAlacrittyYaml file.render).background = file.color .background
  ansi : (parseAlacrittyYaml file.render).ansi =
    (List.finRange 16).map fun i => file.color (.ansi i)

/-- It does so whatever the colors are, so that each depends on its own lines only. -/
def ReadsOwn (file : YamlFile Hex) : Prop := ∀ file', file.SameShape file' → file'.Imports

end YamlFile

/-! ## The text of a line -/

theorem rdropWhile_append_cons {p : Char → Bool} {c : Char} (hc : p c = false) (a b : List Char) :
    (a ++ c :: b).rdropWhile p = a ++ c :: b.rdropWhile p := by
  induction b using List.reverseRecOn with
  | nil => rw [List.rdropWhile_concat_neg _ _ _ (by simp [hc]), List.rdropWhile_nil]
  | append_singleton b d ih =>
    rw [← List.cons_append, ← List.append_assoc, List.rdropWhile_concat, List.rdropWhile_concat, ih]
    split_ifs
    · rfl
    · simp

theorem isWhitespace_keyChar {c : Char} (h : isKeyChar c = true) :
    isWhitespace c = false ∧ c ≠ ':' ∧ c ≠ '#' ∧ c ≠ '\n' := by
  have hrange : (0x2d ≤ c.toNat ∧ c.toNat ≤ 0x39) ∨ (0x41 ≤ c.toNat ∧ c.toNat ≤ 0x7a) := by
    have hchar : isKeyChar c = ((((65 ≤ c.val ∧ c.val ≤ 90 : Bool) ||
        (97 ≤ c.val && c.val ≤ 122)) || (48 ≤ c.val && c.val ≤ 57)) || c = '_' || c = '-') := rfl
    simp only [hchar, Bool.or_eq_true, Bool.and_eq_true, decide_eq_true_eq] at h
    rcases h with ((((hlow | hlow) | hlow)) | rfl) | rfl
    · have h1 : 65 ≤ c.toNat := hlow.1
      have h2 : c.toNat ≤ 90 := hlow.2
      omega
    · have h1 : 97 ≤ c.toNat := hlow.1
      have h2 : c.toNat ≤ 122 := hlow.2
      omega
    · have h1 : 48 ≤ c.toNat := hlow.1
      have h2 : c.toNat ≤ 57 := hlow.2
      omega
    · right; decide
    · left; decide
  refine ⟨?_, ?_, ?_, ?_⟩
  · simp only [isWhitespace, decide_eq_false_iff_not]
    omega
  all_goals
    rintro rfl
    revert hrange
    decide

/-- A line with a key, without the blanks around it. -/
theorem trim_keyed (indent : Blanks) (key : Key) (rest : List Char) :
    trim (indent.1 ++ (key.1 ++ ':' :: rest)) = key.1 ++ ':' :: rest.rdropWhile isWhitespace := by
  have hindent : ∀ c ∈ indent.1, isWhitespace c = true := List.all_eq_true.1 indent.2.1
  obtain ⟨c, key', hkey⟩ := List.exists_cons_of_ne_nil key.2.1
  have hc : isWhitespace c = false := by
    have hchar := List.all_eq_true.1 key.2.2 c (by rw [hkey]; exact List.mem_cons_self)
    exact (isWhitespace_keyChar hchar).1
  rw [trim, Join.strip_append hindent, Join.strip, hkey, List.cons_append,
    List.dropWhile_cons_of_neg (by simp [hc]), ← List.cons_append]
  exact rdropWhile_append_cons (by decide) _ _

theorem trim_stripCr (line : List Char) : trim (Str.stripCr line) = trim line := by
  unfold Str.stripCr
  split_ifs with h
  · obtain ⟨init, rfl⟩ : ∃ init, line = init ++ ['\r'] :=
      ⟨line.dropLast, (List.dropLast_append_getLast? _ h).symm⟩
    rw [List.dropLast_concat]
    have hws : isWhitespace '\r' = true := by decide
    rw [trim, trim, Join.strip, Join.strip]
    by_cases hall : ∀ c ∈ init, isWhitespace c = true
    · rw [List.dropWhile_append_of_pos hall, List.dropWhile_eq_nil_iff.2 hall]
      simp [hws]
    · rw [List.dropWhile_append]
      have hne : (init.dropWhile isWhitespace).isEmpty = false := by
        simpa [List.isEmpty_eq_false_iff] using hall
      rw [if_neg (by simp [hne]), List.rdropWhile_concat_pos _ _ _ hws]
  · rfl

theorem mem_rdropWhile {p : Char → Bool} {c : Char} (hc : p c = false) {l : List Char} :
    c ∈ l.rdropWhile p ↔ c ∈ l := by
  constructor
  · exact fun h => (List.rdropWhile_prefix p l).subset h
  · intro h
    rw [← List.rdropWhile_append_rtakeWhile (p := p) (l := l), List.mem_append] at h
    refine h.resolve_right fun hmem => ?_
    have hp := List.mem_rtakeWhile_imp hmem
    rw [hc] at hp
    cases hp

theorem Key.colon_notMem (key : Key) : ':' ∉ key.1 := fun h =>
  (isWhitespace_keyChar (List.all_eq_true.1 key.2.2 _ h)).2.1 rfl

theorem Key.hash_notMem (key : Key) : '#' ∉ key.1 := fun h =>
  (isWhitespace_keyChar (List.all_eq_true.1 key.2.2 _ h)).2.2.1 rfl

/-- A word with a colon starts a line if it is the key. -/
theorem word_prefix_iff {word : List Char} (hword : ':' ∉ word) (key : Key) (rest : List Char) :
    (word ++ [':']).isPrefixOf (key.1 ++ ':' :: rest) = true ↔ key.1 = word := by
  rw [List.isPrefixOf_iff_prefix]
  constructor
  · rintro ⟨r, hr⟩
    rw [List.append_assoc] at hr
    exact (Markup.upTo_inj hword key.colon_notMem hr).1.symm
  · intro h
    exact ⟨rest, by rw [h]; simp⟩

/-- A word without a colon starts a line if it starts the key. -/
theorem name_prefix_iff {word : List Char} (hword : ':' ∉ word) (key : Key) (rest : List Char) :
    word.isPrefixOf (key.1 ++ ':' :: rest) = word.isPrefixOf key.1 := by
  rw [Bool.eq_iff_iff, List.isPrefixOf_iff_prefix, List.isPrefixOf_iff_prefix]
  constructor
  · intro h
    by_contra hnot
    have hkey : key.1 ++ [':'] <+: key.1 ++ ':' :: rest := ⟨rest, by simp⟩
    rcases List.prefix_or_prefix_of_prefix h hkey with hp | hp
    · rcases List.prefix_concat_iff.1 hp with heq | hp
      · exact hword (by rw [heq]; simp)
      · exact hnot hp
    · exact hword (hp.subset (by simp))
  · exact fun h => h.trans (List.prefix_append _ _)

/-- A color is read behind the first '#'. -/
theorem yamlExtractHex_split {a : List Char} (ha : '#' ∉ a) (b : List Char) :
    yamlExtractHex (a ++ '#' :: b) = expandHex (b.takeWhile isAsciiHexdigit) := by
  have hsplit := Markup.splitOnce_skip ha [] ('#' :: b)
  rw [show Urls.splitOnce ['#'] ('#' :: b) = some ([], b) from
    Markup.splitOnce_of_prefix (by simp) b] at hsplit
  obtain ⟨hfind, -, -, hdrop, -⟩ := Markup.drop_of_splitOnce hsplit
  simp only [List.append_nil] at hfind hdrop
  rw [yamlExtractHex, hfind]
  exact congrArg (fun rest => expandHex (rest.takeWhile isAsciiHexdigit)) hdrop

theorem yamlExtractHex_eq_none {line : List Char} (h : '#' ∉ line) :
    yamlExtractHex line = none := by
  have hsplit := Markup.splitOnce_skip h [] []
  rw [List.append_nil] at hsplit
  rw [yamlExtractHex, Markup.find_eq_none hsplit]
  rfl

theorem Hex.expandHex_digits (hex : Hex) : expandHex hex.digits = some hex.color := by
  obtain ⟨digits, -, hlength⟩ := hex
  rcases hlength with hlength | hlength
  · obtain ⟨a, b, c, d, rest, rfl⟩ : ∃ a b c d rest, digits = a :: b :: c :: d :: rest := by
      match digits, hlength with
      | a :: b :: c :: d :: rest, _ => exact ⟨a, b, c, d, rest, rfl⟩
    exact (if_pos hlength).trans rfl
  · obtain ⟨r, g, b, rfl⟩ := List.length_eq_three.1 hlength
    rfl

/-! ## What a line says -/

namespace YamlLine

/-- The text of a line with a key, without the blanks around it. -/
def trimmed (key : Key) (value : YamlValue Hex) (tail : Blanks)
    (comment : Option {text : List Char // '\n' ∉ text}) : List Char :=
  key.1 ++ ':' :: (value.text ++ (tail.1 ++ commentText comment)).rdropWhile isWhitespace

theorem trim_text (indent : Blanks) (key : Key) (value : YamlValue Hex) (tail : Blanks)
    (comment : Option {text : List Char // '\n' ∉ text}) :
    trim (keyed indent key value tail comment).text = trimmed key value tail comment :=
  trim_keyed indent key _

variable {indent : Blanks} {key : Key} {value : YamlValue Hex} {tail : Blanks}
  {comment : Option {text : List Char // '\n' ∉ text}}

theorem hash_notMem_blanks (blanks : Blanks) : '#' ∉ blanks.1 := fun h =>
  absurd (List.all_eq_true.1 blanks.2.1 _ h) (by decide)

theorem hash_mem_iff (indent : Blanks) : '#' ∈ trimmed key value tail comment ↔
    (keyed indent key value tail comment).hasHash = true := by
  have hblanks := hash_notMem_blanks
  rw [trimmed, List.mem_append, List.mem_cons, mem_rdropWhile (by decide)]
  simp only [key.hash_notMem, List.mem_append, hblanks tail, false_or]
  have hcomment : '#' ∈ commentText comment ↔ comment.isSome = true := by
    cases comment <;> simp [commentText]
  rw [hcomment]
  cases value with
  | heading => simp [YamlValue.text, hasHash]
  | color space quote hex => simp [YamlValue.text, hasHash]
  | scalar space first rest plain =>
    have hplain := plain.2.1
    simp only [List.mem_cons, not_or] at hplain
    simp [YamlValue.text, hasHash, hblanks space, hplain.1, hplain.2]

theorem Quote.text_eq (quote : Quote) : ∃ q, quote.text = [q] ∧ isWhitespace q = false ∧
    isAsciiHexdigit q = false ∧ q ≠ '#' := by
  cases quote
  · exact ⟨Char.ofNat 0x27, rfl, by decide⟩
  · exact ⟨Char.ofNat 0x22, rfl, by decide⟩

theorem yamlExtractHex_color (space : Blanks) (quote : Quote) (hex : Hex) :
    yamlExtractHex (trimmed key (.color space quote hex) tail comment) = some hex.color := by
  obtain ⟨q, hq, hws, hhex, hhash⟩ := Quote.text_eq quote
  have htext : (YamlValue.color space quote hex).text ++ (tail.1 ++ commentText comment) =
      (' ' :: (space.1 ++ q :: '#' :: hex.digits)) ++ q :: (tail.1 ++ commentText comment) := by
    simp [YamlValue.text, hq]
  have hsplit : trimmed key (.color space quote hex) tail comment =
      (key.1 ++ ':' :: ' ' :: (space.1 ++ [q])) ++
        '#' :: (hex.digits ++ q :: (tail.1 ++ commentText comment).rdropWhile isWhitespace) := by
    rw [trimmed, htext, rdropWhile_append_cons hws]
    simp
  have hbefore : '#' ∉ key.1 ++ ':' :: ' ' :: (space.1 ++ [q]) := by
    simp [key.hash_notMem, hash_notMem_blanks space, hhash.symm]
  have htake (rest : List Char) :
      (hex.digits ++ q :: rest).takeWhile isAsciiHexdigit = hex.digits := by
    rw [List.takeWhile_append_of_pos (List.all_eq_true.1 hex.hexdigits),
      List.takeWhile_cons_of_neg (by simp [hhex]), List.append_nil]
  rw [hsplit, yamlExtractHex_split hbefore, htake, hex.expandHex_digits]

/-- No color is read from a comment. -/
theorem yamlExtractHex_comment (hvalue : '#' ∉ value.text)
    (text : {text : List Char // '\n' ∉ text}) :
    yamlExtractHex (trimmed key value tail (some text)) = none := by
  have htext : value.text ++ (tail.1 ++ commentText (some text)) =
      (value.text ++ (tail.1 ++ [' '])) ++ '#' :: (' ' :: text.1) := by
    simp [commentText]
  have hsplit : trimmed key value tail (some text) =
      (key.1 ++ ':' :: (value.text ++ (tail.1 ++ [' ']))) ++
        '#' :: (' ' :: text.1).rdropWhile isWhitespace := by
    rw [trimmed, htext, rdropWhile_append_cons (by decide)]
    simp
  have hbefore : '#' ∉ key.1 ++ ':' :: (value.text ++ (tail.1 ++ [' '])) := by
    simp [key.hash_notMem, hvalue, hash_notMem_blanks tail]
  have htake : ((' ' :: text.1).rdropWhile isWhitespace).takeWhile isAsciiHexdigit = [] := by
    rcases List.prefix_cons_iff.1 (List.rdropWhile_prefix isWhitespace (' ' :: text.1)) with
      hnil | ⟨rest, hcons, -⟩
    · rw [hnil]
      rfl
    · rw [hcons, List.takeWhile_cons_of_neg (by decide)]
  rw [hsplit, yamlExtractHex_split hbefore, htake]
  rfl

/-- What is extracted from a line is its color. -/
theorem yamlExtractHex_trimmed : yamlExtractHex (trimmed key value tail comment) =
    (keyed indent key value tail comment).color?.map Hex.color := by
  cases value with
  | color space quote hex => exact yamlExtractHex_color space quote hex
  | heading =>
    cases comment with
    | none =>
      exact yamlExtractHex_eq_none fun h => absurd ((hash_mem_iff indent).1 h) Bool.false_ne_true
    | some text => exact yamlExtractHex_comment List.not_mem_nil text
  | scalar space first rest plain =>
    have hvalue : '#' ∉ (YamlValue.scalar space first rest plain : YamlValue Hex).text := by
      have hplain := plain.2.1
      simp only [List.mem_cons, not_or] at hplain
      simp [YamlValue.text, hash_notMem_blanks space, hplain.1, hplain.2]
    cases comment with
    | none =>
      exact yamlExtractHex_eq_none fun h => absurd ((hash_mem_iff indent).1 h) Bool.false_ne_true
    | some text => exact yamlExtractHex_comment hvalue text

/-- Only the heading `colors:` itself ends all sections. -/
theorem trimmed_eq_colors_iff (indent : Blanks) :
    trimmed key value tail comment = "colors:".toList ↔
      (keyed indent key value tail comment).heading? = some "colors".toList ∧
        (keyed indent key value tail comment).hasHash = false := by
  have htail : ∀ c ∈ tail.1, isWhitespace c = true := List.all_eq_true.1 tail.2.1
  have hrest : trimmed key value tail comment = "colors:".toList ↔ key.1 = "colors".toList ∧
      ∀ c ∈ value.text ++ (tail.1 ++ commentText comment), isWhitespace c = true := by
    rw [trimmed, ← List.rdropWhile_eq_nil_iff]
    constructor
    · intro h
      exact Markup.upTo_inj key.colon_notMem (by decide) h
    · rintro ⟨hkey, hnil⟩
      rw [hkey, hnil]
      rfl
  rw [hrest]
  cases value with
  | heading =>
    simp only [heading?, Option.some.injEq, hasHash]
    refine and_congr_right fun _ => ?_
    cases comment with
    | none => simpa [YamlValue.text, commentText] using htail
    | some text =>
      refine ⟨fun h => ?_, fun h => by cases h⟩
      exact absurd (h '#' (by simp [commentText])) (by decide)
  | color space quote hex =>
    refine ⟨fun h => ?_, fun h => by cases h.1⟩
    exact absurd (h.2 '#' (by simp [YamlValue.text])) (by decide)
  | scalar space first rest plain =>
    refine ⟨fun h => ?_, fun h => by cases h.1⟩
    have hfirst := h.2 first (by simp [YamlValue.text])
    rw [plain.1] at hfirst
    cases hfirst

/-- A line with a key changes the section, or is read in the current one. -/
theorem step_keyed (indent : Blanks) (s : YamlState) : s.step (trimmed key value tail comment) =
    match (keyed indent key value tail comment).marker with
    | some part => { s with current := part }
    | none => s.read (trimmed key value tail comment) := by
  have hprimary : "primary:".toList.isPrefixOf (trimmed key value tail comment) = true ↔
      key.1 = "primary".toList :=
    word_prefix_iff (show ':' ∉ "primary".toList by decide) key _
  have hnormal : "normal:".toList.isPrefixOf (trimmed key value tail comment) = true ↔
      key.1 = "normal".toList :=
    word_prefix_iff (show ':' ∉ "normal".toList by decide) key _
  have hbright : "bright:".toList.isPrefixOf (trimmed key value tail comment) = true ↔
      key.1 = "bright".toList :=
    word_prefix_iff (show ':' ∉ "bright".toList by decide) key _
  have hcursor : "cursor:".toList.isPrefixOf (trimmed key value tail comment) = true ↔
      key.1 = "cursor".toList :=
    word_prefix_iff (show ':' ∉ "cursor".toList by decide) key _
  simp only [YamlState.step, marker, key?, Option.some.injEq, hprimary, hnormal, hbright, hcursor,
    hash_mem_iff indent, trimmed_eq_colors_iff indent, Bool.not_eq_true]
  split_ifs <;> rfl

end YamlLine

/-! ## What a line does -/

theorem setNamed_of_none {trimmed : List Char} (h : yamlExtractHex trimmed = none)
    (map : List (List Char × ℕ)) (ansi : List (List Char)) : setNamed map trimmed ansi = ansi := by
  rw [setNamed, h]
  induction map with
  | nil => rfl
  | cons entry map ih =>
    rw [List.foldl_cons, ite_self]
    exact ih

theorem length_setNamed (map : List (List Char × ℕ)) (trimmed : List Char)
    (ansi : List (List Char)) : (setNamed map trimmed ansi).length = ansi.length := by
  unfold setNamed
  induction map generalizing ansi with
  | nil => rfl
  | cons entry map ih =>
    rw [List.foldl_cons, ih]
    split_ifs
    · cases yamlExtractHex trimmed with
      | none => rfl
      | some hex => exact List.length_set
    · rfl

/-- A color is set if the line starts with its name. -/
theorem getElem?_setNamed {trimmed hex : List Char} (h : yamlExtractHex trimmed = some hex)
    (map : List (List Char × ℕ)) (ansi : List (List Char)) {i : ℕ} (hi : i < ansi.length) :
    (setNamed map trimmed ansi)[i]? =
      if ∃ entry ∈ map, entry.2 = i ∧ entry.1.isPrefixOf trimmed = true then some hex
      else ansi[i]? := by
  rw [setNamed, h]
  induction map generalizing ansi with
  | nil => simp
  | cons entry map ih =>
    rw [List.foldl_cons, ih _ (by split_ifs <;> simpa using hi)]
    by_cases hset : entry.2 = i ∧ entry.1.isPrefixOf trimmed = true
    · obtain ⟨rfl, hprefix⟩ := hset
      rw [if_pos hprefix, if_pos (⟨entry, List.mem_cons_self, rfl, hprefix⟩ : ∃ entry' ∈ _, _),
        List.getElem?_set_self hi, ite_self]
    · have hold : (if entry.1.isPrefixOf trimmed = true then ansi.set entry.2 hex else ansi)[i]? =
          ansi[i]? := by
        split_ifs with hprefix
        · exact List.getElem?_set_ne fun heq => hset ⟨heq, hprefix⟩
        · rfl
      have hany : (∃ e ∈ entry :: map, e.2 = i ∧ e.1.isPrefixOf trimmed = true) ↔
          ∃ e ∈ map, e.2 = i ∧ e.1.isPrefixOf trimmed = true := by
        simp only [List.mem_cons, exists_eq_or_imp, hset, false_or]
      rw [hold]
      simp only [hany]

namespace Slot

theorem colon_notMem_key (slot : Slot) : ':' ∉ slot.key := by
  have hansi : ∀ i : Fin 16, ':' ∉ (Slot.ansi i).key := by decide
  cases slot with
  | foreground => decide
  | background => decide
  | ansi i => exact hansi i

theorem accepts_of_primary {slot : Slot} (h : slot.part = .primary) (key : List Char) :
    slot.accepts key = decide (key = slot.key) := by
  rw [accepts, h]

/-- A line is read for a color of a section if its name is in the section. -/
theorem exists_entry_iff {map : List (List Char × ℕ)} {part : Section}
    (hto : ∀ entry ∈ map, ∀ i : Fin 16, entry.2 = i.val →
      (Slot.ansi i).part = part ∧ entry.1 = (Slot.ansi i).key)
    (hfrom : ∀ i : Fin 16, (Slot.ansi i).part = part → ((Slot.ansi i).key, i.val) ∈ map)
    (i : Fin 16) (text : List Char) :
    (∃ entry ∈ map, entry.2 = i.val ∧ entry.1.isPrefixOf text = true) ↔
      (Slot.ansi i).part = part ∧ (Slot.ansi i).key.isPrefixOf text = true := by
  constructor
  · rintro ⟨entry, hentry, hi, hprefix⟩
    obtain ⟨hpart, hkey⟩ := hto entry hentry i hi
    exact ⟨hpart, hkey ▸ hprefix⟩
  · rintro ⟨hpart, hprefix⟩
    exact ⟨_, hfrom i hpart, rfl, hprefix⟩

theorem exists_normal_iff (i : Fin 16) (text : List Char) :
    (∃ entry ∈ normalMap, entry.2 = i.val ∧ entry.1.isPrefixOf text = true) ↔
      (Slot.ansi i).part = .normal ∧ (Slot.ansi i).key.isPrefixOf text = true :=
  exists_entry_iff (by decide) (by decide) i text

theorem exists_bright_iff (i : Fin 16) (text : List Char) :
    (∃ entry ∈ brightMap, entry.2 = i.val ∧ entry.1.isPrefixOf text = true) ↔
      (Slot.ansi i).part = .bright ∧ (Slot.ansi i).key.isPrefixOf text = true :=
  exists_entry_iff (by decide) (by decide) i text

end Slot

namespace YamlState

/-- The palette so far. -/
def get (s : YamlState) : Slot → List Char
  | .foreground => s.foreground
  | .background => s.background
  | .ansi i => s.ansi[i.val]?.getD []

theorem current_read (s : YamlState) (trimmed : List Char) :
    (s.read trimmed).current = s.current := by
  obtain ⟨foreground, background, ansi, current⟩ := s
  rcases current with - | part
  · rfl
  cases part with
  | primary =>
    simp only [read]
    split_ifs
    · cases yamlExtractHex trimmed <;> rfl
    · cases yamlExtractHex trimmed <;> rfl
    · rfl
  | normal => rfl
  | bright => rfl
  | cursor => rfl

theorem length_read (s : YamlState) (trimmed : List Char) :
    (s.read trimmed).ansi.length = s.ansi.length := by
  obtain ⟨foreground, background, ansi, current⟩ := s
  rcases current with - | part
  · rfl
  cases part with
  | primary =>
    simp only [read]
    split_ifs
    · cases yamlExtractHex trimmed <;> rfl
    · cases yamlExtractHex trimmed <;> rfl
    · rfl
  | normal => exact length_setNamed _ _ _
  | bright => exact length_setNamed _ _ _
  | cursor => rfl

theorem read_of_none (s : YamlState) {trimmed : List Char} (h : yamlExtractHex trimmed = none) :
    s.read trimmed = s := by
  obtain ⟨foreground, background, ansi, current⟩ := s
  rcases current with - | part
  · rfl
  cases part with
  | primary => simp only [read, h, ite_self]
  | normal => simp only [read, setNamed_of_none h]
  | bright => simp only [read, setNamed_of_none h]
  | cursor => rfl

variable {key : Key} {rest hex : List Char}

theorem part_ansi (i : Fin 16) : (Slot.ansi i).part = .normal ∨ (Slot.ansi i).part = .bright := by
  rw [Slot.part]
  split_ifs
  · exact .inl rfl
  · exact .inr rfl

theorem read_primary (foreground background : List Char) (ansi : List (List Char))
    (hhex : yamlExtractHex (key.1 ++ ':' :: rest) = some hex) :
    (YamlState.mk foreground background ansi (some .primary)).read (key.1 ++ ':' :: rest) =
      if key.1 = "background".toList then ⟨foreground, hex, ansi, some .primary⟩
      else if key.1 = "foreground".toList then ⟨hex, background, ansi, some .primary⟩
      else ⟨foreground, background, ansi, some .primary⟩ := by
  have hback : "background:".toList.isPrefixOf (key.1 ++ ':' :: rest) = true ↔
      key.1 = "background".toList :=
    word_prefix_iff (show ':' ∉ "background".toList by decide) key rest
  have hfore : "foreground:".toList.isPrefixOf (key.1 ++ ':' :: rest) = true ↔
      key.1 = "foreground".toList :=
    word_prefix_iff (show ':' ∉ "foreground".toList by decide) key rest
  simp only [read, hback, hfore, hhex]

/-- In the section `primary` the whole key is compared. -/
theorem get_read_primary (foreground background : List Char) (ansi : List (List Char))
    (hhex : yamlExtractHex (key.1 ++ ':' :: rest) = some hex) (slot : Slot) :
    ((YamlState.mk foreground background ansi (some .primary)).read
        (key.1 ++ ':' :: rest)).get slot =
      if slot.part = .primary ∧ key.1 = slot.key then hex
      else (YamlState.mk foreground background ansi (some .primary)).get slot := by
  rw [read_primary foreground background ansi hhex]
  cases slot with
  | foreground =>
    have hslot : (Slot.foreground.part = .primary ∧ key.1 = Slot.foreground.key) ↔
        key.1 = "foreground".toList := and_iff_right rfl
    simp only [hslot]
    by_cases hback : key.1 = "background".toList
    · rw [if_pos hback, if_neg (by rw [hback]; decide)]
      rfl
    · rw [if_neg hback]
      split_ifs <;> rfl
  | background =>
    have hslot : (Slot.background.part = .primary ∧ key.1 = Slot.background.key) ↔
        key.1 = "background".toList := and_iff_right rfl
    simp only [hslot]
    split_ifs <;> rfl
  | ansi i =>
    have hslot : ¬((Slot.ansi i).part = .primary ∧ key.1 = (Slot.ansi i).key) := by
      rcases part_ansi i with hpart | hpart <;> simp [hpart]
    simp only [hslot, if_false]
    split_ifs <;> rfl

/-- A line is read for the colors of the current section that accept its key. -/
theorem get_read (s : YamlState) (hlen : s.ansi.length = 16)
    (hhex : yamlExtractHex (key.1 ++ ':' :: rest) = some hex) (slot : Slot) :
    (s.read (key.1 ++ ':' :: rest)).get slot =
      if s.current = some slot.part ∧ slot.accepts key.1 = true then hex else s.get slot := by
  obtain ⟨foreground, background, ansi, current⟩ := s
  rcases current with - | part
  · exact (if_neg fun h => nomatch h.1).symm
  have hi (i : Fin 16) : i.val < ansi.length := i.isLt.trans_eq (Eq.symm hlen)
  have hname (i : Fin 16) : (Slot.ansi i).key.isPrefixOf (key.1 ++ ':' :: rest) =
      (Slot.ansi i).key.isPrefixOf key.1 := name_prefix_iff (Slot.colon_notMem_key _) key rest
  have haccepts (i : Fin 16) :
      (Slot.ansi i).accepts key.1 = (Slot.ansi i).key.isPrefixOf key.1 := by
    rw [Slot.accepts]
    rcases part_ansi i with hpart | hpart <;> rw [hpart]
  cases part with
  | cursor =>
    refine (if_neg fun h => ?_).symm
    cases slot with
    | foreground => cases h.1
    | background => cases h.1
    | ansi i => rcases part_ansi i with hpart | hpart <;> simp [hpart] at h
  | primary =>
    rw [get_read_primary foreground background ansi hhex]
    refine if_congr ?_ rfl rfl
    constructor
    · rintro ⟨hpart, hkey⟩
      rw [Slot.accepts_of_primary hpart]
      exact ⟨congrArg some hpart.symm, decide_eq_true hkey⟩
    · rintro ⟨hpart, hkey⟩
      have hpart := (Option.some.inj hpart).symm
      rw [Slot.accepts_of_primary hpart] at hkey
      exact ⟨hpart, of_decide_eq_true hkey⟩
  | normal =>
    cases slot with
    | foreground => exact (if_neg fun h => nomatch h.1).symm
    | background => exact (if_neg fun h => nomatch h.1).symm
    | ansi i =>
      show ((setNamed normalMap _ ansi)[i.val]?).getD [] = _
      rw [getElem?_setNamed hhex _ _ (hi i)]
      simp only [Slot.exists_normal_iff, hname, haccepts, Option.some.injEq]
      by_cases h : (Slot.ansi i).part = .normal ∧ (Slot.ansi i).key.isPrefixOf key.1 = true
      · rw [if_pos h, if_pos ⟨h.1.symm, h.2⟩]
        rfl
      · rw [if_neg h, if_neg fun h' => h ⟨h'.1.symm, h'.2⟩]
        rfl
  | bright =>
    cases slot with
    | foreground => exact (if_neg fun h => nomatch h.1).symm
    | background => exact (if_neg fun h => nomatch h.1).symm
    | ansi i =>
      show ((setNamed brightMap _ ansi)[i.val]?).getD [] = _
      rw [getElem?_setNamed hhex _ _ (hi i)]
      simp only [Slot.exists_bright_iff, hname, haccepts, Option.some.injEq]
      by_cases h : (Slot.ansi i).part = .bright ∧ (Slot.ansi i).key.isPrefixOf key.1 = true
      · rw [if_pos h, if_pos ⟨h.1.symm, h.2⟩]
        rfl
      · rw [if_neg h, if_neg fun h' => h ⟨h'.1.symm, h'.2⟩]
        rfl

end YamlState

/-! ## Runs -/

theorem trim_other (indent : Blanks) {text : List Char}
    (h : text.head? = none ∨ text.head? = some '#' ∨ text.head? = some '-') :
    (trim (indent.1 ++ text)).head? = text.head? := by
  have hindent : ∀ c ∈ indent.1, isWhitespace c = true := List.all_eq_true.1 indent.2.1
  rw [trim, Join.strip_append hindent]
  cases text with
  | nil => rfl
  | cons c text =>
    have hc : isWhitespace c = false := by
      simp only [List.head?_cons, Option.some.injEq, reduceCtorEq, false_or] at h
      rcases h with rfl | rfl <;> decide
    rw [Join.strip, List.dropWhile_cons_of_neg (by simp [hc])]
    have hkeep := rdropWhile_append_cons hc [] text
    rw [List.nil_append, List.nil_append] at hkeep
    rw [hkeep]
    rfl

/-- Blank lines, comments and items of lists do nothing. -/
theorem YamlState.step_other (s : YamlState) {trimmed : List Char}
    (h : trimmed.head? = none ∨ trimmed.head? = some '#' ∨ trimmed.head? = some '-') :
    s.step trimmed = s := by
  obtain ⟨foreground, background, ansi, current⟩ := s
  cases trimmed with
  | nil => rcases current with - | part <;> first | rfl | (cases part <;> rfl)
  | cons c trimmed =>
    simp only [List.head?_cons, Option.some.injEq, reduceCtorEq, false_or] at h
    rcases h with rfl | rfl <;> rcases current with - | part <;>
      first | rfl | (cases part <;> rfl)

namespace YamlFile

/-- The state after some lines, the last one first. -/
def scan (rev : List (YamlLine Hex)) : YamlState :=
  rev.foldr (fun line s => s.step (trim line.text)) .start

variable {before : List (YamlLine Hex)} {line : YamlLine Hex}

/-- A line changes the section, or is read in the current one. -/
theorem step_line (s : YamlState) (line : YamlLine Hex) : s.step (trim line.text) =
    match line.marker with
    | some part => { s with current := part }
    | none => if line.key?.isSome then s.read (trim line.text) else s := by
  cases line with
  | keyed indent key value tail comment =>
    rw [YamlLine.trim_text, YamlLine.step_keyed indent]
    rfl
  | other indent text plain => exact s.step_other ((trim_other indent plain.1) ▸ plain.1)

theorem scan_inv (rev : List (YamlLine Hex)) :
    (scan rev).current = currentSection rev ∧ (scan rev).ansi.length = 16 := by
  induction rev with
  | nil => exact ⟨rfl, rfl⟩
  | cons line before ih =>
    show ((scan before).step (trim line.text)).current = _ ∧
      ((scan before).step (trim line.text)).ansi.length = 16
    rw [step_line, currentSection, List.findSome?_cons]
    cases line.marker with
    | some part => exact ⟨rfl, ih.2⟩
    | none =>
      dsimp only
      split_ifs
      · rw [YamlState.current_read, YamlState.length_read]
        exact ih
      · exact ih

/-- A line that is read for a color sets it; the others leave it as it is. -/
theorem get_scan_cons (slot : Slot) : (scan (line :: before)).get slot =
    if line.reads slot before = true then (line.color?.map Hex.color).getD []
    else (scan before).get slot := by
  obtain ⟨hcurrent, hlen⟩ := scan_inv before
  show ((scan before).step (trim line.text)).get slot = _
  rw [step_line]
  cases hmarker : line.marker with
  | some part =>
    have hnot : ¬line.reads slot before = true := by simp [YamlLine.reads, hmarker]
    rw [if_neg hnot]
    cases slot <;> rfl
  | none =>
    cases line with
    | other indent text plain =>
      have hnot : ¬(YamlLine.other indent text plain).reads slot before = true := by
        simp [YamlLine.reads, YamlLine.color?]
      rw [if_neg hnot]
      rfl
    | keyed indent key value tail comment =>
      have hextract : yamlExtractHex (YamlLine.trimmed key value tail comment) =
          (YamlLine.keyed indent key value tail comment).color?.map Hex.color :=
        YamlLine.yamlExtractHex_trimmed
      show ((scan before).read (trim _)).get slot = _
      rw [YamlLine.trim_text]
      cases hcolor : (YamlLine.keyed indent key value tail comment).color? with
      | none =>
        rw [hcolor] at hextract
        have hnot : ¬(YamlLine.keyed indent key value tail comment).reads slot before = true := by
          simp [YamlLine.reads, hcolor]
        rw [YamlState.read_of_none _ hextract, if_neg hnot]
      | some hex =>
        rw [hcolor] at hextract
        have hread := YamlState.get_read (scan before) hlen hextract slot
        refine hread.trans (if_congr ?_ rfl rfl)
        simp [YamlLine.reads, hmarker, hcolor, YamlLine.key?, hcurrent]

/-- The color after some lines is the last one that is read for it. -/
theorem get_scan (slot : Slot) (rev : List (YamlLine Hex)) : (scan rev).get slot =
    ((LastWrite.value (YamlLine.reads slot) YamlLine.color? rev).join.map Hex.color).getD
      slot.fallback := by
  induction rev with
  | nil =>
    have hansi : ∀ i : Fin 16, (scan []).get (.ansi i) = (Slot.ansi i).fallback := by decide
    cases slot with
    | foreground => rfl
    | background => rfl
    | ansi i => exact hansi i
  | cons line before ih =>
    rw [get_scan_cons, LastWrite.value]
    split_ifs with h
    · simp only [YamlLine.reads, decide_eq_true_eq] at h
      obtain ⟨hex, hhex⟩ := Option.isSome_iff_exists.1 h.2.2.1
      rw [hhex]
      rfl
    · exact ih

/-! ## Lines of the text -/

theorem newline_notMem (line : YamlLine Hex) : '\n' ∉ line.text := by
  have hblanks (blanks : Blanks) : '\n' ∉ blanks.1 := blanks.2.2
  cases line with
  | other indent text plain =>
    exact fun h => (List.mem_append.1 h).elim (hblanks indent) plain.2
  | keyed indent key value tail comment =>
    have hkey : '\n' ∉ key.1 := fun h =>
      (isWhitespace_keyChar (List.all_eq_true.1 key.2.2 _ h)).2.2.2 rfl
    have hcomment : '\n' ∉ commentText comment := by
      cases comment with
      | none => exact List.not_mem_nil
      | some text => simp [commentText, text.2]
    have hvalue : '\n' ∉ value.text := by
      cases value with
      | heading => exact List.not_mem_nil
      | color space quote hex =>
        have hquote : '\n' ∉ quote.text := by cases quote <;> decide
        have hdigits : '\n' ∉ hex.digits := fun h =>
          absurd (List.all_eq_true.1 hex.hexdigits _ h) (by decide)
        simp [YamlValue.text, hblanks space, hquote, hdigits]
      | scalar space first rest plain =>
        have hplain := plain.2.2
        simp only [List.mem_cons, not_or] at hplain
        simp [YamlValue.text, hblanks space, hplain.1, hplain.2]
    simp [YamlLine.text, hblanks indent, hblanks tail, hkey, hvalue, hcomment]

theorem foldl_stripCr (lines : List (YamlLine Hex)) (s : YamlState) :
    ((lines.map YamlLine.text).map Str.stripCr).foldl (fun s line => s.step (trim line)) s =
      lines.foldl (fun s line => s.step (trim line.text)) s := by
  rw [List.map_map, List.foldl_map]
  simp only [Function.comp_apply, trim_stripCr]

/-- The reader goes through the lines of the file. -/
theorem foldl_render (file : YamlFile Hex) :
    (Str.lines file.render).foldl (fun s line => YamlState.step s (trim line)) .start =
      scan file.lines.reverse := by
  have hscan : scan file.lines.reverse =
      file.lines.foldl (fun s line => s.step (trim line.text)) .start := List.foldr_reverse
  have hflat (lines : List (YamlLine Hex)) : (lines.flatMap fun line => line.text ++ ['\n']) =
      (lines.map YamlLine.text).flatMap (· ++ ['\n']) := by
    rw [List.flatMap_map]
  have hnewline (lines : List (YamlLine Hex)) : ∀ text ∈ lines.map YamlLine.text, '\n' ∉ text := by
    intro text htext
    obtain ⟨line, -, rfl⟩ := List.mem_map.1 htext
    exact newline_notMem line
  obtain ⟨lines, ended⟩ := file
  rw [hscan]
  cases ended with
  | true =>
    have hlines := Str.lines_flatMap_append (hnewline lines) []
    rw [List.append_nil, show Str.lines [] = [] from rfl, List.append_nil] at hlines
    show (Str.lines (lines.flatMap fun line => line.text ++ ['\n'])).foldl _ _ = _
    rw [hflat, hlines, foldl_stripCr]
  | false =>
    rcases List.eq_nil_or_concat lines with rfl | ⟨init, last, rfl⟩
    · rfl
    have htext : ((init.concat last).flatMap fun line => line.text ++ ['\n']).dropLast =
        (init.map YamlLine.text).flatMap (· ++ ['\n']) ++ last.text := by
      rw [List.concat_eq_append, List.flatMap_append, hflat, List.flatMap_singleton,
        ← List.append_assoc, List.dropLast_concat]
    show (Str.lines ((init.concat last).flatMap fun line => line.text ++ ['\n']).dropLast).foldl
      _ _ = _
    rw [htext, Str.lines_flatMap_append (hnewline init), Str.lines_last (newline_notMem last),
      List.foldl_append, foldl_stripCr, List.concat_eq_append, List.foldl_append]
    split_ifs with hlast
    · show _ = YamlState.step _ (trim last.text)
      rw [hlast]
      exact (YamlState.step_other _ (.inl rfl)).symm
    · rfl

theorem parse_eq (file : YamlFile Hex) :
    (parseAlacrittyYaml file.render).foreground = (scan file.lines.reverse).get .foreground ∧
      (parseAlacrittyYaml file.render).background = (scan file.lines.reverse).get .background ∧
      (parseAlacrittyYaml file.render).ansi =
        (List.finRange 16).map fun i => (scan file.lines.reverse).get (.ansi i) := by
  have hlen := (scan_inv file.lines.reverse).2
  unfold parseAlacrittyYaml
  rw [foldl_render]
  refine ⟨rfl, rfl, ?_⟩
  refine List.ext_getElem (by rw [hlen, List.length_map, List.length_finRange]) fun i hi _ => ?_
  rw [List.getElem_map, List.getElem_finRange]
  show _ = (scan file.lines.reverse).ansi[i]?.getD []
  rw [List.getElem?_eq_getElem hi]
  rfl

theorem imports_iff (file : YamlFile Hex) :
    file.Imports ↔ ∀ slot, (scan file.lines.reverse).get slot = file.color slot := by
  obtain ⟨hfore, hback, hansi⟩ := parse_eq file
  constructor
  · intro h slot
    cases slot with
    | foreground => exact hfore ▸ h.foreground
    | background => exact hback ▸ h.background
    | ansi i => exact List.map_inj_left.1 (hansi.symm.trans h.ansi) i (List.mem_finRange i)
  · intro h
    refine ⟨hfore.trans (h _), hback.trans (h _), hansi.trans ?_⟩
    exact List.map_congr_left fun i _ => h (.ansi i)

end YamlFile

/-! ## Other colors -/

namespace YamlLine

variable (f : α → β) (line : YamlLine α) (before : List (YamlLine α))

@[simp] theorem key?_map : (line.map f).key? = line.key? := by
  cases line <;> rfl

@[simp] theorem heading?_map : (line.map f).heading? = line.heading? := by
  rcases line with ⟨indent, key, value, tail, comment⟩ | _
  · cases value <;> rfl
  · rfl

@[simp] theorem hasHash_map : (line.map f).hasHash = line.hasHash := by
  rcases line with ⟨indent, key, value, tail, comment⟩ | _
  · cases value <;> rfl
  · rfl

@[simp] theorem color?_map : (line.map f).color? = line.color?.map f := by
  rcases line with ⟨indent, key, value, tail, comment⟩ | _
  · cases value <;> rfl
  · rfl

@[simp] theorem marker_map : (line.map f).marker = line.marker := by
  simp only [marker, key?_map, heading?_map, hasHash_map]

theorem reads_map (slot : Slot) :
    (line.map f).reads slot (before.map (YamlLine.map f)) = line.reads slot before := by
  have hcurrent : currentSection (before.map (YamlLine.map f)) = currentSection before := by
    rw [currentSection, List.findSome?_map]
    simp [currentSection, Function.comp_def]
  simp [reads, hcurrent]

theorem owns_map (slot : Slot) :
    (line.map f).owns slot (before.map (YamlLine.map f)) = line.owns slot before := by
  have hheading : (before.map (YamlLine.map f)).findSome? heading? = before.findSome? heading? := by
    rw [List.findSome?_map]
    simp [Function.comp_def]
  simp [owns, hheading]

end YamlLine

/-- Two colors that are no defaults. -/
def Hex.ones : Hex := ⟨"111111".toList, by decide, by decide⟩
def Hex.twos : Hex := ⟨"222222".toList, by decide, by decide⟩

theorem Hex.ones_ne (slot : Slot) : Hex.ones.color ≠ Hex.twos.color ∧
    Hex.ones.color ≠ slot.fallback ∧ Hex.twos.color ≠ slot.fallback := by
  cases slot <;> simp only [Slot.fallback] <;> decide

namespace YamlFile

variable {file file' : YamlFile Hex} {slot : Slot}

theorem place_eq_of_sameShape {P : ∀ α : Type, List (YamlLine α) → YamlLine α → Bool}
    (hP : ∀ {α β : Type} (f : α → β) (line : YamlLine α) (before : List (YamlLine α)),
      P β (before.map (YamlLine.map f)) (line.map f) = P α before line)
    (h : file.SameShape file') : LastWrite.place (P Hex) file'.lines.reverse =
      LastWrite.place (P Hex) file.lines.reverse := by
  have hlines := congrArg (fun file : YamlFile Unit => file.lines.reverse) h
  simp only [map, ← List.map_reverse] at hlines
  have hplace (g : YamlFile Hex) : LastWrite.place (P Unit)
      (g.lines.reverse.map (YamlLine.map fun _ => ())) =
        LastWrite.place (P Hex) g.lines.reverse :=
    LastWrite.place_map fun before line => hP (fun _ => ()) line before
  rw [← hplace, ← hplace, hlines]

theorem ReadsOwn.of_places (h : ∀ slot, file.lastRead slot = file.lastOwn slot) :
    file.ReadsOwn := by
  intro file' hshape
  rw [imports_iff]
  intro slot
  have hread := place_eq_of_sameShape (P := fun _ => YamlLine.reads slot)
    (fun f line before => line.reads_map f before slot) hshape
  have hown := place_eq_of_sameShape (P := fun _ => YamlLine.owns slot)
    (fun f line before => line.owns_map f before slot) hshape
  have hplace : LastWrite.place (YamlLine.reads slot) file'.lines.reverse =
      LastWrite.place (YamlLine.owns slot) file'.lines.reverse := by
    rw [hread, hown]
    exact h slot
  rw [get_scan, color, LastWrite.value_eq_of_place_eq hplace]

/-- The file with other colors, by the numbers of their lines. -/
def recolor (file : YamlFile Hex) (v : ℕ → Hex) : YamlFile Hex :=
  { file with
    lines := (LastWrite.relabel (fun n line => line.map fun _ => v n) file.lines.reverse).reverse }

theorem map_relabel_unit (v : ℕ → Hex) (rev : List (YamlLine Hex)) :
    (LastWrite.relabel (fun n line => line.map fun _ => v n) rev).map (YamlLine.map fun _ => ()) =
      rev.map (YamlLine.map fun _ => ()) := by
  have hmap (n : ℕ) (line : YamlLine Hex) :
      (line.map fun _ => v n).map (fun _ => ()) = line.map fun _ => () := by
    rcases line with ⟨indent, key, value, tail, comment⟩ | _
    · cases value <;> rfl
    · rfl
  rw [LastWrite.map_relabel]
  simp only [hmap]
  exact LastWrite.relabel_const _ _

theorem sameShape_recolor (file : YamlFile Hex) (v : ℕ → Hex) :
    file.SameShape (file.recolor v) := by
  have hlines := map_relabel_unit v file.lines.reverse
  rw [List.map_reverse] at hlines
  simp only [SameShape, map, recolor, List.map_reverse, hlines, List.reverse_reverse]

/-- The value of a color in the file with other colors. -/
theorem value_recolor (file : YamlFile Hex) {P : ∀ α : Type, List (YamlLine α) → YamlLine α → Bool}
    (hP : ∀ {α β : Type} (f : α → β) (line : YamlLine α) (before : List (YamlLine α)),
      P β (before.map (YamlLine.map f)) (line.map f) = P α before line)
    (hcolor : ∀ (before : List (YamlLine Hex)) line, P Hex before line = true → line.color?.isSome)
    (v : ℕ → Hex) :
    LastWrite.value (P Hex) YamlLine.color? (file.recolor v).lines.reverse =
      (LastWrite.place (P Hex) file.lines.reverse).map fun n => some (v n) := by
  rw [recolor, List.reverse_reverse]
  refine LastWrite.value_relabel (fun before line => ?_) fun before line h => ?_
  · rw [← hP (fun _ => ()), map_relabel_unit, ← hP (fun _ => ()) line before]
    congr 1
    rcases line with ⟨indent, key, value, tail, comment⟩ | _
    · cases value <;> rfl
    · rfl
  · obtain ⟨hex, hhex⟩ := Option.isSome_iff_exists.1 (hcolor before line h)
    rw [YamlLine.color?_map, hhex]
    rfl

theorem lastRead_eq_lastOwn (h : file.ReadsOwn) (slot : Slot) :
    file.lastRead slot = file.lastOwn slot := by
  obtain ⟨hne, hones, htwos⟩ := Hex.ones_ne slot
  let v : ℕ → Hex := LastWrite.label (file.lastRead slot) Hex.ones Hex.twos
  have himports := (imports_iff _).1 (h _ (sameShape_recolor file v)) slot
  have hread := file.value_recolor (P := fun _ => YamlLine.reads slot)
    (fun f line before => line.reads_map f before slot)
    (fun before line h => by
      simp only [YamlLine.reads, decide_eq_true_eq] at h
      exact h.2.2.1) v
  have hown := file.value_recolor (P := fun _ => YamlLine.owns slot)
    (fun f line before => line.owns_map f before slot)
    (fun before line h => by
      simp only [YamlLine.owns, decide_eq_true_eq] at h
      exact h.2.1) v
  rw [get_scan, color, hread, hown] at himports
  refine LastWrite.place_eq_of_values hne hones htwos ?_
  have hlabel (p : Option ℕ) : ((p.map fun n => some (v n)).join.map Hex.color) =
      p.map (LastWrite.label (file.lastRead slot) Hex.ones.color Hex.twos.color) := by
    cases p with
    | none => rfl
    | some n =>
      show some (v n).color = some (LastWrite.label _ _ _ n)
      simp only [v, LastWrite.label]
      split_ifs <;> rfl
  rw [hlabel, hlabel] at himports
  exact himports

/-- The lines that are misread for a color are followed by a line of its own that is read. -/
def Corrected (file : YamlFile α) (slot : Slot) : Prop :=
  LastWrite.Corrected (YamlLine.reads slot) (YamlLine.owns slot) file.lines.reverse

/-- **The colors of Alacritty are read under their own keys**, whatever they are, if and only if
    each line that is misread for a color is followed by a line of its own that is read. -/
theorem readsOwn_iff (file : YamlFile Hex) : file.ReadsOwn ↔ ∀ slot, file.Corrected slot := by
  have hplaces (slot : Slot) : file.lastRead slot = file.lastOwn slot ↔ file.Corrected slot :=
    LastWrite.place_eq_iff_corrected
  simp only [← hplaces]
  exact ⟨lastRead_eq_lastOwn, ReadsOwn.of_places⟩

end YamlFile

/-! ## Both readers -/

/-- **Palettes are imported from their own keys**, whatever their colors are: those of iTerm2 if and
    only if no `<integer>` of a color stands before a `<real>`, those of Alacritty if and only if
    each line that is misread for a color is followed by a line of its own that is read. -/
theorem palette_import_iff (xml : ITermFile Number) (yaml : YamlFile Hex) :
    (xml.ReadsOwn ↔ ∀ name ∈ ITermFile.colorKeys, ∀ e, xml.entry name = some e → ¬e.Mixed) ∧
      (yaml.ReadsOwn ↔ ∀ slot, yaml.Corrected slot) :=
  ⟨xml.readsOwn_iff, yaml.readsOwn_iff⟩

/-- No red, as an `<integer>`, with green and blue as `<real>`. -/
def mixedFile : ITermFile Number where
  header := []
  header_keys := fun _ ht => nomatch ht
  entries :=
    [{ name := ⟨"Ansi 0 Color".toList, by decide⟩
       keyGap := noText
       dictGap := noText
       items :=
         [.component .red noText .integer zero noText,
           .component .green noText .real one noText,
           .component .blue noText .real one noText]
       gap := noText }]
  footer := []
  footer_keys := fun _ ht => nomatch ht

/-- A heading, and a color. -/
def headingLine (name : String) (h : name.toList ≠ [] ∧ name.toList.all isKeyChar = true) :
    YamlLine Hex :=
  .keyed ⟨[], by decide⟩ ⟨name.toList, h⟩ .heading ⟨[], by decide⟩ none

def blackLine (hex : Hex) : YamlLine Hex :=
  .keyed ⟨[' '], by decide⟩ ⟨"black".toList, by decide⟩ (.color ⟨[], by decide⟩ .single hex)
    ⟨[], by decide⟩ none

/-- The section `dim` behind the section `normal`. -/
def dimFile : YamlFile Hex where
  lines :=
    [headingLine "colors" (by decide), headingLine "normal" (by decide), blackLine .ones,
      headingLine "dim" (by decide), blackLine .twos]
  ended := true

/-- Red is read from green, and the color of `normal` from `dim`. -/
theorem not_imports :
    (itermExtractColor mixedFile.render "Ansi 0 Color".toList = some "#FFFFFF".toList ∧
      mixedFile.color "Ansi 0 Color".toList = some "#00FFFF".toList ∧ ¬mixedFile.Imports) ∧
    ((parseAlacrittyYaml dimFile.render).ansi[0]? = some "#222222".toList ∧
      dimFile.color (.ansi 0) = "#111111".toList ∧ ¬dimFile.Imports) := by
  have hred : itermExtractColor mixedFile.render "Ansi 0 Color".toList = some "#FFFFFF".toList := by
    decide +kernel
  have hown : mixedFile.color "Ansi 0 Color".toList = some "#00FFFF".toList := by decide +kernel
  have hblack : (parseAlacrittyYaml dimFile.render).ansi[0]? = some "#222222".toList := by
    decide +kernel
  have hnormal : dimFile.color (.ansi 0) = "#111111".toList := by decide +kernel
  refine ⟨⟨hred, hown, fun h => ?_⟩, hblack, hnormal, fun h => ?_⟩
  · have hname : "Ansi 0 Color".toList ∈ ITermFile.colorKeys := by decide
    obtain ⟨d, hd⟩ := h.getD_eq hname
    rw [hred, hown, Option.getD_some, Option.getD_some] at hd
    exact absurd hd (by decide)
  · have hansi := congrArg (fun ansi => ansi[0]?) h.ansi
    rw [hblack] at hansi
    exact absurd (hansi.trans (congrArg some hnormal)) (by decide)

end Nexterm.Settings.Theme

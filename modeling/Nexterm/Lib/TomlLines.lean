/-
  TOML texts line by line.

  * `Table.insertAt`: a new key in the table that is open.
  * `Value`, `keyLine`, `headingLine`: lines with a string or an array of strings, and headings.
  * `Reader`: a parser, with what TOML says about a text to which such a line is added;
    `parse_section`: a whole section at the end.
  * `lineReader`: a reader of the texts that consist of such lines.
-/
import Nexterm.Lib.Join
import Nexterm.Lib.Toml
import Nexterm.Lib.Urls

namespace Toml

/-! ## The open table -/

namespace Table

/-- A new key in the table at a path; an array of tables stands for its last row. -/
def insertAt : List String → String → Item → Table → Option Table
  | [], key, v, t => if (t key).isSome then none else some (t.insert key v)
  | k :: path, key, v, t =>
    match t k with
    | some (.table fields) => (insertAt path key v fields).map fun f => t.insert k (.table f)
    | some (.arrayOfTables rows) =>
      rows.getLast?.bind fun row =>
        (insertAt path key v row).map fun f => t.insert k (.arrayOfTables (rows.dropLast ++ [f]))
    | _ => none

theorem insertAt_nil_eq_some_iff {key : String} {v : Item} {t t' : Table} :
    insertAt [] key v t = some t' ↔ t key = none ∧ t' = t.insert key v := by
  unfold insertAt
  cases t key <;> simp [eq_comm]

/-- Only the key at the top is written; it stays a table or an array of tables. -/
theorem insertAt_cons {k key : String} {path : List String} {v : Item} {t t' : Table}
    (h : insertAt (k :: path) key v t = some t') :
    (∃ f f', t k = some (.table f) ∧ insertAt path key v f = some f' ∧
      t' = t.insert k (.table f')) ∨ ∃ rows, t' = t.insert k (.arrayOfTables rows) := by
  unfold insertAt at h
  split at h
  · next f hf =>
    obtain ⟨f', hf', rfl⟩ := Option.map_eq_some_iff.1 h
    exact .inl ⟨f, f', hf, hf', rfl⟩
  · obtain ⟨row, -, hrow⟩ := Option.bind_eq_some_iff.1 h
    obtain ⟨f, -, rfl⟩ := Option.map_eq_some_iff.1 hrow
    exact .inr ⟨_, rfl⟩
  · cases h

theorem insertAt_cons_of_ne {k key : String} {path : List String} {v : Item} {t t' : Table}
    (h : insertAt (k :: path) key v t = some t') {key' : String} (hne : key' ≠ k) :
    t' key' = t key' := by
  rcases insertAt_cons h with ⟨f, f', -, -, rfl⟩ | ⟨rows, rfl⟩
  · exact if_neg hne
  · exact if_neg hne

end Table

/-! ## Lines -/

def quoteChar : Char := Char.ofNat 0x22

/-- A value on one line. -/
inductive Value
  | string (s : List Char)
  | strings (l : List (List Char))

namespace Value

def quoted (s : List Char) : List Char := quoteChar :: s ++ [quoteChar]

def text : Value → List Char
  | .string s => quoted s
  | .strings l => '[' :: [',', ' '].intercalate (l.map quoted) ++ [']']

def item : Value → Item
  | .string s => .string (String.ofList s)
  | .strings l => .array (l.map fun s => .string (String.ofList s))

/-- A character that stands for itself in a string. -/
def PlainChar (c : Char) : Prop := c.isAlphanum = true ∨ c = '#'

def Plain : Value → Prop
  | .string s => ∀ c ∈ s, PlainChar c
  | .strings l => ∀ s ∈ l, ∀ c ∈ s, PlainChar c

end Value

def bareChar (c : Char) : Bool := c.isAlphanum || c = '-' || c = '_'

/-- A key without quotes. -/
def Bare (key : List Char) : Prop := key ≠ [] ∧ ∀ c ∈ key, bareChar c = true

instance (key : List Char) : Decidable (Bare key) :=
  decidable_of_iff (key ≠ [] ∧ key.all bareChar = true) (by simp only [Bare, List.all_eq_true])

def keyLine (key : String) (v : Value) : List Char := key.toList ++ [' ', '=', ' '] ++ v.text

def headingLine (path : List String) : List Char :=
  '[' :: ['.'].intercalate (path.map String.toList) ++ [']']

/-- A text with one more line for each key. -/
def appendKeys (text : List Char) (fields : List (String × Value)) : List Char :=
  fields.foldl (fun text field => text ++ '\n' :: keyLine field.1 field.2) text

theorem getLast?_keyLine (text : List Char) (key : String) (v : Value) :
    (text ++ '\n' :: keyLine key v).getLast? ≠ some '\r' := by
  cases v with
  | string s =>
    have hlast : (text ++ '\n' :: keyLine key (.string s)).getLast? = some quoteChar := by
      simp [keyLine, Value.text, Value.quoted, List.getLast?_append, List.getLast?_cons]
    rw [hlast]
    decide
  | strings l =>
    have hlast : (text ++ '\n' :: keyLine key (.strings l)).getLast? = some ']' := by
      simp [keyLine, Value.text, List.getLast?_append, List.getLast?_cons]
    rw [hlast]
    decide

theorem getLast?_headingLine (text : List Char) (path : List String) :
    (text ++ '\n' :: headingLine path).getLast? ≠ some '\r' := by
  have hlast : (text ++ '\n' :: headingLine path).getLast? = some ']' := by
    simp [headingLine, List.getLast?_append, List.getLast?_cons]
  rw [hlast]
  decide

theorem getLast?_appendKeys {text : List Char} (h : text.getLast? ≠ some '\r')
    (fields : List (String × Value)) : (appendKeys text fields).getLast? ≠ some '\r' := by
  induction fields generalizing text with
  | nil => exact h
  | cons field fields ih => exact ih (getLast?_keyLine text field.1 field.2)

/-! ## Readers -/

/-- A parser, the path of the table that is open at the end of a text, and what TOML says about one
    more line, or the end of a line, after a text that does not end within one. -/
structure Reader where
  parse : List Char → Option Table
  openTable : List Char → List String
  parse_newline : ∀ t, t.getLast? ≠ some '\r' → parse (t ++ ['\n']) = parse t
  parse_keyLine : ∀ t key v, t.getLast? ≠ some '\r' → Bare key.toList → v.Plain →
    parse (t ++ '\n' :: keyLine key v) =
      (parse t).bind (Table.insertAt (openTable t) key v.item)
  openTable_keyLine : ∀ t key v, t.getLast? ≠ some '\r' → Bare key.toList → v.Plain →
    (parse (t ++ '\n' :: keyLine key v)).isSome = true →
      openTable (t ++ '\n' :: keyLine key v) = openTable t
  parse_headingLine : ∀ t k path d', t.getLast? ≠ some '\r' → (∀ key ∈ k :: path, Bare key.toList) →
    parse (t ++ '\n' :: headingLine (k :: path)) = some d' →
      ∃ d item, parse t = some d ∧ d' = d.insert k item
  openTable_headingLine : ∀ t k path, t.getLast? ≠ some '\r' →
    (∀ key ∈ k :: path, Bare key.toList) →
    (parse (t ++ '\n' :: headingLine (k :: path))).isSome = true →
      openTable (t ++ '\n' :: headingLine (k :: path)) = k :: path

namespace Reader

variable (R : Reader)

/-- Keys in a table below the top change nothing else. -/
theorem parse_appendKeys {text : List Char} {k : String} {path : List String}
    (hlast : text.getLast? ≠ some '\r')
    (hopen : (R.parse text).isSome = true → R.openTable text = k :: path)
    (fields : List (String × Value)) (hfields : ∀ f ∈ fields, Bare f.1.toList ∧ f.2.Plain)
    {d' : Table} (h : R.parse (appendKeys text fields) = some d') :
    ∃ d, R.parse text = some d ∧ ∀ key, key ≠ k → d' key = d key := by
  induction fields generalizing text with
  | nil => exact ⟨d', h, fun key _ => rfl⟩
  | cons field fields ih =>
    obtain ⟨hfield, hrest⟩ := List.forall_mem_cons.1 hfields
    have hparse := R.parse_keyLine text field.1 field.2 hlast hfield.1 hfield.2
    have hopen' : (R.parse (text ++ '\n' :: keyLine field.1 field.2)).isSome = true →
        R.openTable (text ++ '\n' :: keyLine field.1 field.2) = k :: path := by
      intro hsome
      rw [R.openTable_keyLine text field.1 field.2 hlast hfield.1 hfield.2 hsome]
      refine hopen ?_
      rw [hparse] at hsome
      exact Option.isSome_of_isSome_bind hsome
    obtain ⟨d₁, hd₁, hkept₁⟩ := ih (getLast?_keyLine text field.1 field.2) hopen' hrest h
    rw [hparse] at hd₁
    obtain ⟨d, hd, hinsert⟩ := Option.bind_eq_some_iff.1 hd₁
    rw [hopen (by rw [hd]; rfl)] at hinsert
    refine ⟨d, hd, fun key hne => ?_⟩
    rw [hkept₁ key hne, Table.insertAt_cons_of_ne hinsert hne]

/-- A section at the end changes nothing but its first key. -/
theorem parse_section {text : List Char} (hlast : text.getLast? ≠ some '\r') {k : String}
    {path : List String} (hpath : ∀ key ∈ k :: path, Bare key.toList)
    (fields : List (String × Value)) (hfields : ∀ f ∈ fields, Bare f.1.toList ∧ f.2.Plain)
    {d' : Table}
    (h : R.parse (appendKeys (text ++ '\n' :: headingLine (k :: path)) fields) = some d') :
    ∃ d, R.parse text = some d ∧ ∀ key, key ≠ k → d' key = d key := by
  obtain ⟨d₁, hd₁, hkept⟩ := R.parse_appendKeys (getLast?_headingLine text (k :: path))
    (R.openTable_headingLine text k path hlast hpath) fields hfields h
  obtain ⟨d, item, hd, rfl⟩ := R.parse_headingLine text k path d₁ hlast hpath hd₁
  refine ⟨d, hd, fun key hne => ?_⟩
  rw [hkept key hne]
  exact if_neg hne

end Reader

/-! ## A reader of such lines -/

namespace Lines

/-- A line: blank, a key, or a heading. -/
inductive Expr
  | blank
  | key (key : String) (v : Value)
  | heading (path : List String)

def readStrings : List (List Char) → Option (List (List Char))
  | [s, [']']] => some [s]
  | s :: [',', ' '] :: rest => (readStrings rest).map (s :: ·)
  | _ => none

def readValue (text : List Char) : Option Value :=
  match text.splitOn quoteChar with
  | [[], s, []] => some (.string s)
  | [['[', ']']] => some (.strings [])
  | ['['] :: rest => (readStrings rest).map .strings
  | _ => none

def readKey (line : List Char) : Option Expr := do
  let (key, text) ← Urls.splitOnce [' ', '=', ' '] line
  let v ← readValue text
  if Bare key then some (.key (String.ofList key) v) else none

def readHeading (rest : List Char) : Option Expr :=
  let keys := rest.dropLast.splitOn '.'
  if rest.getLast? = some ']' ∧ ∀ key ∈ keys, Bare key then some (.heading (keys.map String.ofList))
  else none

def readLine : List Char → Option Expr
  | [] => some .blank
  | '[' :: rest => readHeading rest
  | line => readKey line

/-- The table that a heading opens, for the first time. -/
def nest : List String → Table
  | [] => Table.empty
  | k :: path => Table.empty.insert k (.table (nest path))

/-- The document and the path of the open table, after one more line; a heading is read only if its
    first key is new. -/
def step (s : Table × List String) : Expr → Option (Table × List String)
  | .blank => some s
  | .key key v => (Table.insertAt s.2 key v.item s.1).map fun d => (d, s.2)
  | .heading [] => none
  | .heading (k :: path) =>
    if (s.1 k).isSome then none else some (s.1.insert k (.table (nest path)), k :: path)

def scan (text : List Char) : Option (Table × List String) :=
  (text.splitOn '\n').foldlM (fun s line => (readLine line).bind (step s)) (Table.empty, [])

/-! ## Reading what is written -/

theorem notMem_of_plain {s : List Char} (h : ∀ c ∈ s, Value.PlainChar c) {c : Char}
    (hc : c.isAlphanum = false) (hhash : c ≠ '#') : c ∉ s := by
  intro hmem
  rcases h c hmem with halnum | heq
  · rw [hc] at halnum
    cases halnum
  · exact hhash heq

theorem quoteChar_notMem {s : List Char} (h : ∀ c ∈ s, Value.PlainChar c) : quoteChar ∉ s :=
  notMem_of_plain h (by decide) (by decide)

/-- An array after its first quote. -/
def stringsTail : List Char → List (List Char) → List Char
  | s, [] => s ++ quoteChar :: [']']
  | s, s' :: l => s ++ quoteChar :: ([',', ' '] ++ quoteChar :: stringsTail s' l)

theorem strings_text (s : List Char) (l : List (List Char)) :
    (Value.strings (s :: l)).text = ['['] ++ quoteChar :: stringsTail s l := by
  have htail : ∀ s l, [',', ' '].intercalate ((s :: l).map Value.quoted) ++ [']'] =
      quoteChar :: stringsTail s l := by
    intro s l
    induction l generalizing s with
    | nil => simp [Value.quoted, stringsTail]
    | cons s' l ih =>
      rw [List.map_cons, List.map_cons, List.intercalate_cons_cons, List.append_assoc,
        ← List.map_cons, ih s']
      simp [Value.quoted, stringsTail]
  rw [Value.text, List.cons_append, htail]
  rfl

theorem readStrings_tail (s : List Char) (l : List (List Char))
    (h : ∀ s' ∈ s :: l, quoteChar ∉ s') :
    readStrings ((stringsTail s l).splitOn quoteChar) = some (s :: l) := by
  induction l generalizing s with
  | nil =>
    rw [stringsTail, List.splitOn_append_cons_self_of_not_mem (h s List.mem_cons_self)]
    rfl
  | cons s' l ih =>
    have htail := ih s' fun x hx => h x (List.mem_cons_of_mem s hx)
    have hgap : quoteChar ∉ [',', ' '] := by decide
    rw [stringsTail, List.splitOn_append_cons_self_of_not_mem (h s List.mem_cons_self),
      List.splitOn_append_cons_self_of_not_mem hgap, readStrings, htail]
    rfl

theorem readValue_text (v : Value) (h : v.Plain) : readValue v.text = some v := by
  cases v with
  | string s =>
    have hsplit : (Value.quoted s).splitOn quoteChar = [[], s, []] := by
      rw [show Value.quoted s = [] ++ quoteChar :: (s ++ quoteChar :: []) from rfl,
        List.splitOn_append_cons_self_of_not_mem List.not_mem_nil,
        List.splitOn_append_cons_self_of_not_mem (quoteChar_notMem h), List.splitOn_nil]
    rw [readValue, Value.text, hsplit]
  | strings l =>
    cases l with
    | nil =>
      have hsplit : (Value.strings []).text.splitOn quoteChar = [['[', ']']] := by decide
      rw [readValue, hsplit]
      rfl
    | cons s l =>
      have hopen : quoteChar ∉ ['['] := by decide
      have hread := readStrings_tail s l fun s' hs' => quoteChar_notMem (h s' hs')
      rw [readValue, strings_text, List.splitOn_append_cons_self_of_not_mem hopen]
      obtain ⟨x, rest, hrest⟩ := List.exists_cons_of_ne_nil
        (List.splitOn_ne_nil quoteChar (stringsTail s l))
      rw [hrest] at hread ⊢
      show (readStrings (x :: rest)).map Value.strings = _
      rw [hread]
      rfl

theorem ne_bracket_of_bare {key : List Char} (h : Bare key) {c : Char} {rest : List Char}
    (hcons : key = c :: rest) : c ≠ '[' := by
  rintro rfl
  have hc := h.2 '[' (by rw [hcons]; exact List.mem_cons_self)
  exact absurd hc (by decide)

theorem readLine_keyLine (key : String) (v : Value) (hkey : Bare key.toList) (hv : v.Plain) :
    readLine (keyLine key v) = some (.key key v) := by
  have hspace : ' ' ∉ key.toList := fun hmem => absurd (hkey.2 ' ' hmem) (by decide)
  have hread : readKey (keyLine key v) = some (.key key v) := by
    rw [readKey, keyLine, Urls.splitOnce_append hspace]
    simp [readValue_text v hv, hkey]
  obtain ⟨c, rest, hcons⟩ := List.exists_cons_of_ne_nil hkey.1
  have hne := ne_bracket_of_bare hkey hcons
  rw [keyLine, hcons] at hread ⊢
  simp only [List.cons_append] at hread ⊢
  unfold readLine
  split
  · next heq => cases heq
  · next heq => exact (hne (List.cons.inj heq).1).elim
  · exact hread

theorem readLine_headingLine (k : String) (path : List String)
    (h : ∀ key ∈ k :: path, Bare key.toList) :
    readLine (headingLine (k :: path)) = some (.heading (k :: path)) := by
  have hdot : ∀ l ∈ (k :: path).map String.toList, '.' ∉ l := by
    intro l hl hmem
    obtain ⟨key, hkey, rfl⟩ := List.mem_map.1 hl
    exact absurd ((h key hkey).2 '.' hmem) (by decide)
  have hsplit : ((['.'].intercalate ((k :: path).map String.toList) ++ [']']).dropLast).splitOn '.' =
      (k :: path).map String.toList := by
    rw [List.dropLast_concat, List.splitOn_intercalate '.' hdot (by simp)]
  have hbare : ∀ key ∈ (k :: path).map String.toList, Bare key := by
    intro l hl
    obtain ⟨key, hkey, rfl⟩ := List.mem_map.1 hl
    exact h key hkey
  show readHeading (['.'].intercalate ((k :: path).map String.toList) ++ [']']) = _
  rw [readHeading, hsplit, if_pos ⟨List.getLast?_concat .., hbare⟩]
  simp

/-! ## Scanning -/

theorem scan_line (text : List Char) {line : List Char} (h : '\n' ∉ line) :
    scan (text ++ '\n' :: line) = (scan text).bind fun s => (readLine line).bind (step s) := by
  rw [scan, List.splitOn_append_cons_self, List.splitOn_eq_singleton h, List.foldlM_append]
  simp only [List.foldlM_cons, List.foldlM_nil, bind_pure]
  rfl

theorem newline_notMem_plain {s : List Char} (h : ∀ c ∈ s, Value.PlainChar c) : '\n' ∉ s :=
  notMem_of_plain h (by decide) (by decide)

theorem newline_notMem_stringsTail (s : List Char) (l : List (List Char))
    (h : ∀ s' ∈ s :: l, ∀ c ∈ s', Value.PlainChar c) : '\n' ∉ stringsTail s l := by
  have hs := newline_notMem_plain (h s List.mem_cons_self)
  have hquote : '\n' ≠ quoteChar := by decide
  induction l generalizing s with
  | nil => simp [stringsTail, hs, hquote]
  | cons s' l ih =>
    have htail := ih s' (fun x hx => h x (List.mem_cons_of_mem s hx))
      (newline_notMem_plain (h s' (by simp)))
    simp [stringsTail, hs, hquote, htail]

theorem newline_notMem_text {v : Value} (h : v.Plain) : '\n' ∉ v.text := by
  have hquote : '\n' ≠ quoteChar := by decide
  cases v with
  | string s => simp [Value.text, Value.quoted, newline_notMem_plain h, hquote]
  | strings l =>
    cases l with
    | nil => decide
    | cons s l =>
      rw [strings_text]
      simp [newline_notMem_stringsTail s l h, hquote]

theorem newline_notMem_bare {key : List Char} (h : Bare key) : '\n' ∉ key :=
  fun hmem => absurd (h.2 '\n' hmem) (by decide)

theorem newline_notMem_keyLine {key : String} {v : Value} (hkey : Bare key.toList) (hv : v.Plain) :
    '\n' ∉ keyLine key v := by
  simp [keyLine, newline_notMem_bare hkey, newline_notMem_text hv]

theorem newline_notMem_headingLine {path : List String} (h : ∀ key ∈ path, Bare key.toList) :
    '\n' ∉ headingLine path := by
  intro hmem
  simp only [headingLine, List.cons_append, List.mem_cons, List.mem_append, List.not_mem_nil,
    or_false] at hmem
  rcases hmem with hopen | hkeys | hclose
  · exact absurd hopen (by decide)
  · rcases Join.of_mem_intercalate hkeys with hdot | ⟨l, hl, hmem⟩
    · exact absurd hdot (by decide)
    · obtain ⟨key, hkey, rfl⟩ := List.mem_map.1 hl
      exact newline_notMem_bare (h key hkey) hmem
  · exact absurd hclose (by decide)

end Lines

/-- A parser of the texts of blank lines, keys with plain values, and headings with a new first
    key. -/
def lineReader : Reader where
  parse text := (Lines.scan text).map Prod.fst
  openTable text := ((Lines.scan text).map Prod.snd).getD []
  parse_newline t _ := by
    have hscan := Lines.scan_line t (List.not_mem_nil (a := '\n'))
    rw [hscan]
    cases Lines.scan t <;> rfl
  parse_keyLine t key v _ hkey hv := by
    rw [Lines.scan_line t (Lines.newline_notMem_keyLine hkey hv),
      Lines.readLine_keyLine key v hkey hv]
    cases Lines.scan t with
    | none => rfl
    | some s => simp [Lines.step, Function.comp_def]
  openTable_keyLine t key v _ hkey hv := by
    rw [Lines.scan_line t (Lines.newline_notMem_keyLine hkey hv),
      Lines.readLine_keyLine key v hkey hv]
    cases Lines.scan t with
    | none => simp
    | some s => cases hs : Table.insertAt s.2 key v.item s.1 <;> simp [Lines.step, hs]
  parse_headingLine t k path d' _ h := by
    rw [Lines.scan_line t (Lines.newline_notMem_headingLine h), Lines.readLine_headingLine k path h]
    cases Lines.scan t with
    | none => simp
    | some s =>
      intro hd
      cases hk : s.1 k <;> simp [Lines.step, hk] at hd
      exact ⟨s.1, _, rfl, hd.symm⟩
  openTable_headingLine t k path _ h := by
    rw [Lines.scan_line t (Lines.newline_notMem_headingLine h), Lines.readLine_headingLine k path h]
    cases Lines.scan t with
    | none => simp
    | some s => cases hk : s.1 k <;> simp [Lines.step, hk]

end Toml

/-
  The import of colors from iTerm2 (`theme.rs`).

  * `parseItermColors`: the reader; it searches the text for the next tag.
  * `ITermFile`: a file, as keys with dicts of components; `render`: its text.
  * `Entry.color`: the color that is written in an entry; `ReadsOwn`: the reader finds these colors,
    whatever the numbers are.
  * `readsOwn_iff`: it does if no `<integer>` of a color stands before a `<real>` in its dict.
-/
import Mathlib.Data.Rat.Floor
import Nexterm.Lib.Markup
import Nexterm.Settings.Theme

namespace Nexterm.Settings.Theme

open Markup (find mark element Token)

/-! ## Numbers -/

/-- Without its sign, and whether this is a minus. -/
def stripSign : List Char → Bool × List Char
  | '-' :: text => (true, text)
  | '+' :: text => (false, text)
  | text => (false, text)

/-- What follows the digits of a number. -/
def parseExponent : List Char → Option ℤ
  | [] => some 0
  | c :: text =>
    let (negative, digits) := stripSign text
    if (c = 'e' ∨ c = 'E') ∧ digits ≠ [] ∧ digits.all Char.isDigit then
      let n : ℤ := Nat.ofDigitChars 10 digits 0
      some (if negative then -n else n)
    else none

/-- `str::parse::<f64>` for numbers in decimal, with their exact value. -/
def parseF64 (text : List Char) : Option ℚ :=
  let (negative, body) := stripSign text
  let whole := body.takeWhile Char.isDigit
  let (fraction, rest) :=
    match body.dropWhile Char.isDigit with
    | '.' :: rest => (rest.takeWhile Char.isDigit, rest.dropWhile Char.isDigit)
    | rest => ([], rest)
  if whole = [] ∧ fraction = [] then none
  else
    (parseExponent rest).map fun e : ℤ =>
      let n : ℚ := Nat.ofDigitChars 10 (whole ++ fraction) 0 * 10 ^ (e - (fraction.length : ℤ))
      if negative then -n else n

/-- A component between 0 and 255, rounded half up. -/
def channel (x : ℚ) : ℕ := ⌊min (max x 0) 1 * 255 + 1 / 2⌋.toNat

/-- `{:02X}`. -/
def hexByte (n : ℕ) : List Char :=
  [(Nat.digitChar (n / 16)).toUpper, (Nat.digitChar (n % 16)).toUpper]

/-- Convert an RGB triple (0–1) into `#RRGGBB`. -/
def rgbFloatToHex (r g b : ℚ) : List Char :=
  '#' :: (hexByte (channel r) ++ (hexByte (channel g) ++ hexByte (channel b)))

/-! ## The reader -/

/-- The `<real>` or else the `<integer>` that follows. -/
def itermValue (after : List Char) : Option (List Char) :=
  match find "<real>".toList after with
  | some realStart => do
    let inner := after.drop (realStart + 6)
    let stop ← find "</real>".toList inner
    some (inner.take stop)
  | none => do
    let intStart ← find "<integer>".toList after
    let inner := after.drop (intStart + 9)
    let stop ← find "</integer>".toList inner
    some (inner.take stop)

def itermExtractComponent (dict componentKey : List Char) : Option ℚ := do
  let keyTag := "<key>".toList ++ componentKey ++ "</key>".toList
  let pos ← find keyTag dict
  let value ← itermValue (dict.drop (pos + keyTag.length))
  parseF64 (trim value)

/-- The color of a dict. -/
def itermDictColor (dict : List Char) : Option (List Char) := do
  let r ← itermExtractComponent dict "Red Component".toList
  let g ← itermExtractComponent dict "Green Component".toList
  let b ← itermExtractComponent dict "Blue Component".toList
  some (rgbFloatToHex r g b)

/-- Extract a value from the XML block following a `<key>K</key>`. -/
def itermExtractColor (xml colorKey : List Char) : Option (List Char) := do
  let search := "<key>".toList ++ colorKey ++ "</key>".toList
  let start ← find search xml
  let afterKey := xml.drop (start + search.length)
  let dictStart ← find "<dict>".toList afterKey
  let dictContent := afterKey.drop dictStart
  let dictEnd ← find "</dict>".toList dictContent
  itermDictColor (dictContent.take (dictEnd + 7))

/-- Mapping for ANSI 0–15. -/
def ansiKeyNames : List (List Char) :=
  ["Ansi 0 Color".toList, "Ansi 1 Color".toList, "Ansi 2 Color".toList, "Ansi 3 Color".toList,
    "Ansi 4 Color".toList, "Ansi 5 Color".toList, "Ansi 6 Color".toList, "Ansi 7 Color".toList,
    "Ansi 8 Color".toList, "Ansi 9 Color".toList, "Ansi 10 Color".toList, "Ansi 11 Color".toList,
    "Ansi 12 Color".toList, "Ansi 13 Color".toList, "Ansi 14 Color".toList, "Ansi 15 Color".toList]

def defaultAnsi : List Char := "#000000".toList
def defaultForeground : List Char := "#c5c8c6".toList
def defaultBackground : List Char := "#1d1f21".toList

def parseItermColors (content : List Char) : ImportedPalette :=
  let foreground :=
    (itermExtractColor content "Foreground Color".toList).getD defaultForeground
  { foreground := foreground
    background := (itermExtractColor content "Background Color".toList).getD defaultBackground
    cursor := (itermExtractColor content "Cursor Color".toList).getD foreground
    ansi := ansiKeyNames.map fun key => (itermExtractColor content key).getD defaultAnsi }

/-! ## Files -/

/-- Text between two tags. -/
abbrev Text := {text : List Char // '<' ∉ text}

theorem plain_nil : '<' ∉ ([] : List Char) := List.not_mem_nil

def noText : Text := ⟨[], plain_nil⟩

@[simp] theorem val_noText : noText.1 = [] := rfl

/-- A token with a fixed tag. -/
def token (tag : String) (h : '<' ∉ tag.toList ∧ '>' ∉ tag.toList) (text : Text) : Token :=
  ⟨tag.toList, text.1, h, text.2⟩

def keyToken : Text → Token := token "key" (by decide)
def keyEnd : Text → Token := token "/key" (by decide)
def dictToken : Text → Token := token "dict" (by decide)
def dictEnd : Text → Token := token "/dict" (by decide)
def realToken : Text → Token := token "real" (by decide)
def realEnd : Text → Token := token "/real" (by decide)
def integerToken : Text → Token := token "integer" (by decide)
def integerEnd : Text → Token := token "/integer" (by decide)
def stringToken : Text → Token := token "string" (by decide)
def stringEnd : Text → Token := token "/string" (by decide)

/-- The components of a color. -/
inductive Component
  | red
  | green
  | blue
  | alpha
  deriving DecidableEq

def Component.key : Component → Text
  | red => ⟨"Red Component".toList, by decide⟩
  | green => ⟨"Green Component".toList, by decide⟩
  | blue => ⟨"Blue Component".toList, by decide⟩
  | alpha => ⟨"Alpha Component".toList, by decide⟩

/-- The tag of a number. -/
inductive NumberTag
  | real
  | integer
  deriving DecidableEq

def NumberTag.tokens (text gap : Text) : NumberTag → List Token
  | real => [realToken text, realEnd gap]
  | integer => [integerToken text, integerEnd gap]

/-- A number with its text. -/
structure Number where
  text : Text
  value : ℚ
  parses : parseF64 (trim text.1) = some value

/-- What stands in the dict of a color: a component, or the name of the color space. -/
inductive Item (α : Type)
  | component (key : Component) (keyGap : Text) (tag : NumberTag) (number : α) (gap : Text)
  | colorSpace (keyGap name gap : Text)

/-- A color key with its dict. -/
structure Entry (α : Type) where
  name : Text
  keyGap : Text
  dictGap : Text
  items : List (Item α)
  gap : Text

/-- A file; what stands around the entries has no keys. -/
structure ITermFile (α : Type) where
  header : List Token
  header_keys : ∀ t ∈ header, t.tag ≠ "key".toList
  entries : List (Entry α)
  footer : List Token
  footer_keys : ∀ t ∈ footer, t.tag ≠ "key".toList

variable {α β : Type}

namespace Item

def component? : Item α → Option Component
  | component key .. => some key
  | colorSpace .. => none

/-- Whether this is a number with the tag `<real>`. -/
def isReal : Item α → Bool
  | component _ _ tag .. => tag = .real
  | colorSpace .. => false

def number? : Item α → Option α
  | component _ _ _ number _ => some number
  | colorSpace .. => none

/-- The key of an item. -/
def key (item : Item α) : List Char :=
  match item.component? with
  | some c => c.key.1
  | none => "Color Space".toList

/-- Other numbers with the same tags. -/
def mapNumbers (f : NumberTag → α → β) : Item α → Item β
  | component key keyGap tag number gap => component key keyGap tag (f tag number) gap
  | colorSpace keyGap name gap => colorSpace keyGap name gap

def tokens : Item Number → List Token
  | component key keyGap tag number gap =>
    keyToken key.key :: keyEnd keyGap :: tag.tokens number.text gap
  | colorSpace keyGap name gap =>
    [keyToken ⟨"Color Space".toList, by decide⟩, keyEnd keyGap, stringToken name, stringEnd gap]

end Item

namespace Entry

def mapNumbers (f : NumberTag → α → β) (e : Entry α) : Entry β :=
  { e with items := e.items.map (Item.mapNumbers f) }

def tokens (e : Entry Number) : List Token :=
  [keyToken e.name, keyEnd e.keyGap, dictToken e.dictGap] ++
    e.items.flatMap Item.tokens ++ [dictEnd e.gap]

/-- The number that is written under the key of a component. -/
def number (e : Entry Number) (c : Component) : Option ℚ :=
  ((e.items.find? (·.component? = some c)).bind Item.number?).map Number.value

/-- The color that is written in an entry. -/
def color (e : Entry Number) : Option (List Char) := do
  let r ← e.number .red
  let g ← e.number .green
  let b ← e.number .blue
  some (rgbFloatToHex r g b)

end Entry

namespace ITermFile

def mapNumbers (f : NumberTag → α → β) (file : ITermFile α) : ITermFile β :=
  { file with entries := file.entries.map (Entry.mapNumbers f) }

/-- The text of the file. -/
def render (file : ITermFile Number) : List Char :=
  Markup.render (file.header ++ (file.entries.flatMap Entry.tokens ++ file.footer))

def entry (file : ITermFile α) (name : List Char) : Option (Entry α) :=
  file.entries.find? (·.name.1 = name)

/-- The color that is written under a key, if it is there. -/
def color (file : ITermFile Number) (name : List Char) : Option (List Char) :=
  (file.entry name).bind Entry.color

/-- Two files that differ only in their numbers. -/
def SameShape (file file' : ITermFile Number) : Prop :=
  file.mapNumbers (fun _ _ => ()) = file'.mapNumbers fun _ _ => ()

/-- The reader finds the colors of the file under their own keys. -/
structure Imports (file : ITermFile Number) : Prop where
  ansi : (parseItermColors file.render).ansi =
    ansiKeyNames.map fun key => (file.color key).getD defaultAnsi
  foreground : (parseItermColors file.render).foreground =
    (file.color "Foreground Color".toList).getD defaultForeground
  background : (parseItermColors file.render).background =
    (file.color "Background Color".toList).getD defaultBackground

/-- It does so whatever the numbers are, so that each color depends on its own ones only. -/
def ReadsOwn (file : ITermFile Number) : Prop := ∀ file', file.SameShape file' → file'.Imports

/-- The keys of the colors. -/
def colorKeys : List (List Char) :=
  "Foreground Color".toList :: "Background Color".toList :: ansiKeyNames

end ITermFile

/-- The components that are read. -/
def rgb : List Component := [.red, .green, .blue]

/-- The dict has the three components, and one of them is an `<integer>` before a `<real>`. -/
def Entry.Mixed (e : Entry α) : Prop :=
  (∀ c ∈ rgb, ∃ item ∈ e.items, item.component? = some c) ∧
    ∃ c ∈ rgb, ∃ before item after, e.items = before ++ item :: after ∧
      (∀ other ∈ before, other.component? ≠ some c) ∧ item.component? = some c ∧
      item.isReal = false ∧ ∃ other ∈ after, other.isReal = true

/-! ## Values -/

theorem itermValue_real {gap : List Char} (hgap : '<' ∉ gap) {ts : List Token}
    (h : ∀ t ∈ ts, t.tag ≠ "real".toList) (number g : Text) (us : List Token) :
    itermValue (gap ++ Markup.render (ts ++ realToken number :: realEnd g :: us)) =
      some number.1 := by
  obtain ⟨start, stop, inner, hstart, hinner, hstop, htake⟩ :=
    Markup.find_value hgap ts (realToken number) (realEnd g) us h rfl
  change find "<real>".toList _ = _ at hstart
  change find "</real>".toList _ = _ at hstop
  change List.drop (start + 6) _ = _ at hinner
  rw [itermValue, hstart]
  dsimp only
  rw [hinner, hstop]
  exact congrArg some htake

theorem itermValue_integer {gap : List Char} (hgap : '<' ∉ gap) (number g : Text)
    {us : List Token} (h : ∀ t ∈ us, t.tag ≠ "real".toList) :
    itermValue (gap ++ Markup.render (integerToken number :: integerEnd g :: us)) =
      some number.1 := by
  obtain ⟨start, stop, inner, hstart, hinner, hstop, htake⟩ :=
    Markup.find_value hgap [] (integerToken number) (integerEnd g) us
      (fun t ht => nomatch ht) rfl
  have hreal : find (mark "real".toList)
      (gap ++ Markup.render (integerToken number :: integerEnd g :: us)) = none := by
    refine Markup.find_eq_none (Markup.splitOnce_mark_none hgap (by decide) ?_)
    intro t ht
    rcases List.mem_cons.1 ht with rfl | ht
    · simp [integerToken, token]
    rcases List.mem_cons.1 ht with rfl | ht
    · simp [integerEnd, token]
    · exact h t ht
  change find "<real>".toList _ = _ at hreal
  change find "<integer>".toList _ = _ at hstart
  change find "</integer>".toList _ = _ at hstop
  change List.drop (start + 9) _ = _ at hinner
  rw [itermValue, hreal]
  dsimp only
  rw [List.nil_append] at hstart hinner
  rw [hstart]
  show (find "</integer>".toList (List.drop (start + 9) _)).bind _ = _
  rw [hinner, hstop]
  exact congrArg some htake

/-- The number that is found behind a key, from its own number and the items after it. -/
def NumberTag.nextNumber (number : α) (after : List (Item α)) : NumberTag → α
  | real => number
  | integer => ((after.find? Item.isReal).bind Item.number?).getD number

theorem Item.not_real {item : Item Number} (h : item.isReal = false) :
    ∀ t ∈ item.tokens, t.tag ≠ "real".toList := by
  cases item with
  | component key keyGap tag number gap =>
    cases tag with
    | real => cases h
    | integer => simp [tokens, NumberTag.tokens, keyToken, keyEnd, integerToken, integerEnd, token]
  | colorSpace keyGap name gap => simp [tokens, keyToken, keyEnd, stringToken, stringEnd, token]

/-- What is found behind a key. -/
theorem itermValue_tokens (keyGap : Text) (tag : NumberTag) (number : Number) (gap : Text)
    (after : List (Item Number)) (last : Text) :
    itermValue (keyGap.1 ++ Markup.render (tag.tokens number.text gap ++
      (after.flatMap Item.tokens ++ [dictEnd last]))) =
      some (tag.nextNumber number after).text.1 := by
  cases tag with
  | real =>
    have hvalue := itermValue_real keyGap.2 (fun _ ht => absurd ht List.not_mem_nil) number.text gap
      (after.flatMap Item.tokens ++ [dictEnd last])
    exact hvalue
  | integer =>
    cases hfind : after.find? Item.isReal with
    | none =>
      rw [NumberTag.nextNumber, hfind]
      show itermValue (keyGap.1 ++ Markup.render (integerToken number.text :: integerEnd gap ::
        (after.flatMap Item.tokens ++ [dictEnd last]))) = _
      refine itermValue_integer keyGap.2 number.text gap fun t ht => ?_
      rcases List.mem_append.1 ht with ht | ht
      · obtain ⟨item, hitem, ht⟩ := List.mem_flatMap.1 ht
        exact item.not_real (by simpa using List.find?_eq_none.1 hfind item hitem) t ht
      · rw [List.mem_singleton.1 ht]
        simp [dictEnd, token]
    | some item =>
      obtain ⟨hreal, before, rest, rfl, hbefore⟩ := List.find?_eq_some_iff_append.1 hfind
      cases item with
      | colorSpace => cases hreal
      | component key keyGap' tag number' gap' =>
        obtain rfl : tag = .real := of_decide_eq_true hreal
        have hskipped : ∀ t ∈ integerToken number.text :: integerEnd gap ::
            (before.flatMap Item.tokens ++ [keyToken key.key, keyEnd keyGap']),
            t.tag ≠ "real".toList := by
          intro t ht
          simp only [List.mem_cons, List.mem_append, List.not_mem_nil, or_false,
            List.mem_flatMap] at ht
          rcases ht with rfl | rfl | ⟨other, hother, ht⟩ | rfl | rfl
          · simp [integerToken, token]
          · simp [integerEnd, token]
          · exact other.not_real (by simpa using hbefore other hother) t ht
          · simp [keyToken, token]
          · simp [keyEnd, token]
        have hvalue := itermValue_real keyGap.2 hskipped number'.text gap'
          (rest.flatMap Item.tokens ++ [dictEnd last])
        rw [NumberTag.nextNumber, hfind]
        simpa [Item.tokens, Item.number?, NumberTag.tokens] using hvalue

/-! ## Dicts -/

namespace Entry

variable {e : Entry Number} {c : Component}

/-- The dict of an entry. -/
def dict (e : Entry Number) : List Char :=
  Markup.render (dictToken e.dictGap :: (e.items.flatMap Item.tokens ++ [dictEnd noText]))

/-- The items, at the first one with the key. -/
theorem items_split (e : Entry α) (c : Component) :
    (∀ item ∈ e.items, item.component? ≠ some c) ∨
      ∃ before keyGap tag number gap after,
        e.items = before ++ .component c keyGap tag number gap :: after ∧
          ∀ item ∈ before, item.component? ≠ some c := by
  cases hfind : e.items.find? (·.component? = some c) with
  | none =>
    left
    intro item hitem
    simpa using List.find?_eq_none.1 hfind item hitem
  | some item =>
    obtain ⟨hc, before, after, hitems, hbefore⟩ := List.find?_eq_some_iff_append.1 hfind
    right
    cases item with
    | component key keyGap tag number gap =>
      obtain rfl : key = c := Option.some.inj (of_decide_eq_true hc)
      exact ⟨before, keyGap, tag, number, gap, after, hitems,
        fun item hitem => by simpa using hbefore item hitem⟩
    | colorSpace => simp [Item.component?] at hc

theorem number_eq_none (h : ∀ item ∈ e.items, item.component? ≠ some c) : e.number c = none := by
  have hfind : e.items.find? (·.component? = some c) = none :=
    List.find?_eq_none.2 fun item hitem => by simpa using h item hitem
  rw [number, hfind]
  rfl

theorem number_of_split {before after : List (Item Number)} {keyGap gap : Text} {tag : NumberTag}
    {number : Number} (h : e.items = before ++ .component c keyGap tag number gap :: after)
    (hbefore : ∀ item ∈ before, item.component? ≠ some c) : e.number c = some number.value := by
  have hfind : e.items.find? (·.component? = some c) =
      some (.component c keyGap tag number gap) := by
    rw [List.find?_eq_some_iff_append]
    refine ⟨decide_eq_true rfl, before, after, h, fun item hitem => ?_⟩
    simpa using hbefore item hitem
  rw [Entry.number, hfind]
  rfl

/-- The keys in a dict are closed, and they are those of its items. -/
theorem closed_items (items : List (Item Number)) :
    Markup.Closed "key".toList (items.flatMap Item.tokens) := by
  induction items with
  | nil => exact .nil
  | cons item items ih =>
    rw [List.flatMap_cons]
    refine Markup.Closed.append ?_ ih
    cases item with
    | component key keyGap tag number gap =>
      refine .pair rfl rfl (Markup.Closed.of_forall ?_)
      cases tag <;>
        simp [NumberTag.tokens, realToken, realEnd, integerToken, integerEnd, token]
    | colorSpace keyGap name gap =>
      refine .pair rfl rfl (Markup.Closed.of_forall ?_)
      simp [stringToken, stringEnd, token]

theorem key_of_mem {item : Item Number} {t : Token} (ht : t ∈ item.tokens)
    (hkey : t.tag = "key".toList) : t.text = item.key := by
  cases item with
  | component key keyGap tag number gap =>
    rcases List.mem_cons.1 ht with rfl | ht
    · rfl
    rcases List.mem_cons.1 ht with rfl | ht
    · simp [keyEnd, token] at hkey
    cases tag <;>
      simp only [NumberTag.tokens, List.mem_cons, List.not_mem_nil, or_false] at ht <;>
      rcases ht with rfl | rfl <;>
      simp [realToken, realEnd, integerToken, integerEnd, token] at hkey
  | colorSpace keyGap name gap =>
    simp only [Item.tokens, List.mem_cons, List.not_mem_nil, or_false] at ht
    rcases ht with rfl | rfl | rfl | rfl
    · rfl
    all_goals simp [keyEnd, stringToken, stringEnd, token] at hkey

theorem key_ne {item : Item α} (h : item.component? ≠ some c) : item.key ≠ c.key.1 := by
  cases item with
  | component key =>
    rw [Item.component?, Ne, Option.some.injEq] at h
    show key.key.1 ≠ c.key.1
    cases key <;> cases c <;> first | exact absurd rfl h | decide
  | colorSpace =>
    show "Color Space".toList ≠ c.key.1
    cases c <;> decide

/-- The tokens of a dict up to some of its items are closed, and no key of theirs is the one of a
    component that they do not have. -/
theorem dict_tokens (gap : Text) {items : List (Item Number)}
    (h : ∀ item ∈ items, item.component? ≠ some c) :
    Markup.Closed "key".toList (dictToken gap :: items.flatMap Item.tokens) ∧
      ∀ t ∈ dictToken gap :: items.flatMap Item.tokens, t.tag = "key".toList →
        t.text ≠ c.key.1 := by
  constructor
  · exact .other (by simp [dictToken, token]) (closed_items items)
  · intro t ht hkey
    rcases List.mem_cons.1 ht with rfl | ht
    · simp [dictToken, token] at hkey
    obtain ⟨item, hitem, ht⟩ := List.mem_flatMap.1 ht
    rw [key_of_mem ht hkey]
    exact key_ne (h item hitem)

theorem component_eq_none (h : ∀ item ∈ e.items, item.component? ≠ some c) :
    itermExtractComponent e.dict c.key.1 = none := by
  have htokens := dict_tokens e.dictGap h
  have hlast : ∀ t ∈ [dictEnd noText], t.tag ≠ "key".toList := by
    simp [dictEnd, token]
  have hnone : Urls.splitOnce (element "key".toList c.key.1) e.dict = none := by
    refine Markup.splitOnce_element_none (by decide) c.key.2
      (htokens.1.append (.of_forall hlast)) ?_
    intro t ht hkey
    rcases List.mem_append.1 (show t ∈ (dictToken e.dictGap :: e.items.flatMap Item.tokens) ++ _
      from ht) with ht | ht
    · exact htokens.2 t ht hkey
    · exact absurd hkey (hlast t ht)
  have hfind : find ("<key>".toList ++ c.key.1 ++ "</key>".toList) e.dict = none :=
    Markup.find_eq_none hnone
  rw [itermExtractComponent, hfind]
  rfl

/-- What is read for a component is the next `<real>`, or else its own number. -/
theorem component_of_split {before after : List (Item Number)} {keyGap gap : Text}
    {tag : NumberTag} {number : Number}
    (h : e.items = before ++ .component c keyGap tag number gap :: after)
    (hbefore : ∀ item ∈ before, item.component? ≠ some c) :
    itermExtractComponent e.dict c.key.1 = some (tag.nextNumber number after).value := by
  have htokens := dict_tokens e.dictGap hbefore
  have hdict : e.dict = Markup.render (dictToken e.dictGap :: before.flatMap Item.tokens) ++
      ((keyToken c.key).render ++ ((keyEnd keyGap).render ++
        Markup.render (tag.tokens number.text gap ++
          (after.flatMap Item.tokens ++ [dictEnd noText])))) := by
    simp [dict, h, Item.tokens]
  have hsplit := Markup.splitOnce_element (t := keyToken c.key) (u := keyEnd keyGap) c.key.2
    htokens.1 htokens.2 rfl rfl (Markup.render (tag.tokens number.text gap ++
      (after.flatMap Item.tokens ++ [dictEnd noText])))
  rw [← hdict] at hsplit
  obtain ⟨hfind, -, -, hafter, -⟩ := Markup.drop_of_splitOnce hsplit
  change find ("<key>".toList ++ c.key.1 ++ "</key>".toList) e.dict = _ at hfind
  change e.dict.drop (_ + ("<key>".toList ++ c.key.1 ++ "</key>".toList).length) = keyGap.1 ++ _
    at hafter
  have hvalue := itermValue_tokens keyGap tag number gap after noText
  rw [itermExtractComponent, hfind]
  show (itermValue (e.dict.drop _)).bind _ = _
  rw [hafter, hvalue]
  exact (tag.nextNumber number after).parses

/-- Each component is read as its own number, unless an `<integer>` stands before a `<real>`. -/
theorem component_eq_number
    (h : ∀ before keyGap number gap after,
      e.items = before ++ .component c keyGap .integer number gap :: after →
      (∀ item ∈ before, item.component? ≠ some c) → ∀ other ∈ after, other.isReal = false) :
    itermExtractComponent e.dict c.key.1 = e.number c := by
  rcases items_split e c with hnone | ⟨before, keyGap, tag, number, gap, after, hitems, hbefore⟩
  · rw [component_eq_none hnone, number_eq_none hnone]
  rw [component_of_split hitems hbefore, number_of_split hitems hbefore]
  cases tag with
  | real => rfl
  | integer =>
    have hfind : after.find? Item.isReal = none :=
      List.find?_eq_none.2 fun other hother => by
        simp [h before keyGap number gap after hitems hbefore other hother]
    rw [NumberTag.nextNumber, hfind]
    rfl

/-- A color without one of its components is not read. -/
theorem color_eq_none (hc : c ∈ rgb) (h : ∀ item ∈ e.items, item.component? ≠ some c) :
    itermDictColor e.dict = none ∧ e.color = none := by
  have hread := component_eq_none h
  have hown := number_eq_none h
  simp only [rgb, List.mem_cons, List.not_mem_nil, or_false] at hc
  constructor
  · unfold itermDictColor
    rcases hc with rfl | rfl | rfl
    · change itermExtractComponent e.dict "Red Component".toList = none at hread
      rw [hread]
      rfl
    · change itermExtractComponent e.dict "Green Component".toList = none at hread
      rw [hread]
      cases itermExtractComponent e.dict "Red Component".toList <;> rfl
    · change itermExtractComponent e.dict "Blue Component".toList = none at hread
      rw [hread]
      cases itermExtractComponent e.dict "Red Component".toList <;>
        cases itermExtractComponent e.dict "Green Component".toList <;> rfl
  · unfold color
    rcases hc with rfl | rfl | rfl
    · rw [hown]
      rfl
    · rw [hown]
      cases e.number .red <;> rfl
    · rw [hown]
      cases e.number .red <;> cases e.number .green <;> rfl

theorem itermDictColor_of_not_mixed (h : ¬e.Mixed) : itermDictColor e.dict = e.color := by
  by_cases hall : ∀ c ∈ rgb, ∃ item ∈ e.items, item.component? = some c
  · have hnumber : ∀ c ∈ rgb, itermExtractComponent e.dict c.key.1 = e.number c := by
      intro c hc
      refine component_eq_number fun before keyGap number gap after hitems hbefore => ?_
      intro other hother
      by_contra hreal
      rw [Bool.not_eq_false] at hreal
      exact h ⟨hall, c, hc, before, _, after, hitems, hbefore, rfl, rfl, other, hother, hreal⟩
    have hred := hnumber .red (by decide)
    have hgreen := hnumber .green (by decide)
    have hblue := hnumber .blue (by decide)
    change itermExtractComponent e.dict "Red Component".toList = _ at hred
    change itermExtractComponent e.dict "Green Component".toList = _ at hgreen
    change itermExtractComponent e.dict "Blue Component".toList = _ at hblue
    rw [itermDictColor, hred, hgreen, hblue, color]
  · obtain ⟨c, hc⟩ := not_forall.1 hall
    obtain ⟨hc, hmissing⟩ := Classical.not_imp.1 hc
    have hnone := color_eq_none hc fun item hitem heq => hmissing ⟨item, hitem, heq⟩
    rw [hnone.1, hnone.2]

end Entry

/-! ## Numbers that tell the tags apart -/

def zero : Number where
  text := ⟨['0'], by decide⟩
  value := 0
  parses := by decide +kernel

def one : Number where
  text := ⟨['1'], by decide⟩
  value := 1
  parses := by decide +kernel

/-- 1 in each `<real>`, 0 in each `<integer>`. -/
def byTag : NumberTag → Number → Number
  | .real, _ => one
  | .integer, _ => zero

theorem rgbFloatToHex_inj {r g b r' g' b' : ℚ} (h : rgbFloatToHex r g b = rgbFloatToHex r' g' b') :
    hexByte (channel r) = hexByte (channel r') ∧ hexByte (channel g) = hexByte (channel g') ∧
      hexByte (channel b) = hexByte (channel b') := by
  simp only [rgbFloatToHex, hexByte, List.cons_append, List.nil_append, List.cons.injEq, true_and,
    and_true] at h ⊢
  exact ⟨⟨h.1, h.2.1⟩, ⟨h.2.2.1, h.2.2.2.1⟩, h.2.2.2.2⟩

theorem hexByte_one_ne : hexByte (channel 1) ≠ hexByte (channel 0) := by decide +kernel

@[simp] theorem Item.component?_mapNumbers (f : NumberTag → α → β) (item : Item α) :
    (item.mapNumbers f).component? = item.component? := by
  cases item <;> rfl

@[simp] theorem Item.isReal_mapNumbers (f : NumberTag → α → β) (item : Item α) :
    (item.mapNumbers f).isReal = item.isReal := by
  cases item <;> rfl

theorem nextNumber_byTag {after : List (Item Number)} (h : ∃ other ∈ after, other.isReal = true)
    (number : Number) :
    NumberTag.integer.nextNumber number (after.map (Item.mapNumbers byTag)) = one := by
  obtain ⟨other, hother, hreal⟩ := h
  cases hfind : (after.map (Item.mapNumbers byTag)).find? Item.isReal with
  | none =>
    have hnot := List.find?_eq_none.1 hfind _ (List.mem_map_of_mem hother)
    rw [Item.isReal_mapNumbers] at hnot
    exact absurd hreal hnot
  | some found =>
    have hfound := List.find?_some hfind
    obtain ⟨item, -, rfl⟩ := List.mem_map.1 (List.mem_of_find?_eq_some hfind)
    rw [Item.isReal_mapNumbers] at hfound
    rw [NumberTag.nextNumber, hfind]
    cases item with
    | component key keyGap tag number gap =>
      obtain rfl : tag = .real := of_decide_eq_true hfound
      rfl
    | colorSpace => cases hfound

namespace Entry

variable {e : Entry Number}

theorem mixed_mapNumbers {e : Entry α} (f : NumberTag → α → β) (h : e.Mixed) :
    (e.mapNumbers f).Mixed := by
  obtain ⟨hall, c, hc, before, item, after, hitems, hbefore, hitem, hreal, other, hother,
    hother'⟩ := h
  refine ⟨fun c hc => ?_, c, hc, before.map (Item.mapNumbers f), item.mapNumbers f,
    after.map (Item.mapNumbers f), ?_, ?_, ?_, ?_, other.mapNumbers f, ?_, ?_⟩
  · obtain ⟨item, hitem, hkey⟩ := hall c hc
    exact ⟨item.mapNumbers f, List.mem_map_of_mem hitem, by rwa [Item.component?_mapNumbers]⟩
  · rw [mapNumbers, hitems, List.map_append, List.map_cons]
  · intro _ hmapped
    obtain ⟨skipped, hskipped, rfl⟩ := List.mem_map.1 hmapped
    rw [Item.component?_mapNumbers]
    exact hbefore skipped hskipped
  · rwa [Item.component?_mapNumbers]
  · rwa [Item.isReal_mapNumbers]
  · exact List.mem_map_of_mem hother
  · rwa [Item.isReal_mapNumbers]

theorem mixed_of_mapNumbers {e : Entry α} {f : NumberTag → α → β} (h : (e.mapNumbers f).Mixed) :
    e.Mixed := by
  obtain ⟨hall, c, hc, before', item', after', hitems, hbefore, hitem, hreal, other', hother,
    hother'⟩ := h
  obtain ⟨before, tail, hsplit, rfl, htail⟩ := List.map_eq_append_iff.1 hitems
  obtain ⟨item, after, rfl, rfl, rfl⟩ := List.map_eq_cons_iff.1 htail
  obtain ⟨other, hmem, rfl⟩ := List.mem_map.1 hother
  rw [Item.component?_mapNumbers] at hitem
  rw [Item.isReal_mapNumbers] at hreal hother'
  refine ⟨fun c hc => ?_, c, hc, before, item, after, hsplit, fun first hfirst => ?_, hitem, hreal,
    other, hmem, hother'⟩
  · obtain ⟨mapped, hmapped, hkey⟩ := hall c hc
    obtain ⟨item, hitem, rfl⟩ := List.mem_map.1 hmapped
    rw [Item.component?_mapNumbers] at hkey
    exact ⟨item, hitem, hkey⟩
  · rw [← Item.component?_mapNumbers f]
    exact hbefore _ (List.mem_map_of_mem hfirst)

/-- With all components, a color is read and one is written. -/
theorem exists_color (h : ∀ c ∈ rgb, ∃ item ∈ e.items, item.component? = some c) :
    ∃ read own : Component → ℚ,
      (∀ c ∈ rgb, itermExtractComponent e.dict c.key.1 = some (read c) ∧
        e.number c = some (own c)) ∧
      itermDictColor e.dict = some (rgbFloatToHex (read .red) (read .green) (read .blue)) ∧
      e.color = some (rgbFloatToHex (own .red) (own .green) (own .blue)) := by
  have hpart : ∀ c ∈ rgb, ∃ q q',
      itermExtractComponent e.dict c.key.1 = some q ∧ e.number c = some q' := by
    intro c hc
    rcases items_split e c with hnone | ⟨before, keyGap, tag, number, gap, after, hitems, hbefore⟩
    · obtain ⟨item, hitem, hkey⟩ := h c hc
      exact absurd hkey (hnone item hitem)
    · exact ⟨_, _, component_of_split hitems hbefore, number_of_split hitems hbefore⟩
  have hdefined : ∀ c ∈ rgb, itermExtractComponent e.dict c.key.1 =
      some ((itermExtractComponent e.dict c.key.1).getD 0) ∧
        e.number c = some ((e.number c).getD 0) := by
    intro c hc
    obtain ⟨q, q', hq, hq'⟩ := hpart c hc
    rw [hq, hq']
    exact ⟨rfl, rfl⟩
  refine ⟨fun c => (itermExtractComponent e.dict c.key.1).getD 0,
    fun c => (e.number c).getD 0, hdefined, ?_, ?_⟩
  · rw [itermDictColor, show itermExtractComponent e.dict "Red Component".toList = _ from
      (hdefined .red (by decide)).1, show itermExtractComponent e.dict "Green Component".toList = _
      from (hdefined .green (by decide)).1, show itermExtractComponent e.dict
      "Blue Component".toList = _ from (hdefined .blue (by decide)).1]
    rfl
  · rw [color, (hdefined .red (by decide)).2, (hdefined .green (by decide)).2,
      (hdefined .blue (by decide)).2]
    rfl

/-- An `<integer>` before a `<real>` is misread, for some numbers. -/
theorem misread_of_mixed (h : e.Mixed) :
    ∃ color color', itermDictColor (e.mapNumbers byTag).dict = some color ∧
      (e.mapNumbers byTag).color = some color' ∧ color ≠ color' := by
  obtain ⟨read, own, hparts, hread, hown⟩ := exists_color (mixed_mapNumbers byTag h).1
  refine ⟨_, _, hread, hown, fun heq => hexByte_one_ne ?_⟩
  obtain ⟨hred, hgreen, hblue⟩ := rgbFloatToHex_inj heq
  obtain ⟨-, c, hc, before, item, after, hitems, hbefore, hitem, hreal, hother⟩ := h
  cases item with
  | colorSpace => cases hitem
  | component key keyGap tag number gap =>
    obtain rfl : key = c := Option.some.inj hitem
    obtain rfl : tag = .integer := by
      cases tag with
      | real => cases hreal
      | integer => rfl
    have hitems' : (e.mapNumbers byTag).items = before.map (Item.mapNumbers byTag) ++
        .component key keyGap .integer zero gap :: after.map (Item.mapNumbers byTag) := by
      rw [mapNumbers, hitems, List.map_append, List.map_cons]
      rfl
    have hbefore' : ∀ item ∈ before.map (Item.mapNumbers byTag), item.component? ≠ some key := by
      intro _ hmapped
      obtain ⟨skipped, hskipped, rfl⟩ := List.mem_map.1 hmapped
      rw [Item.component?_mapNumbers]
      exact hbefore skipped hskipped
    -- 1 is read where 0 is written
    have hone := component_of_split hitems' hbefore'
    have hzero := number_of_split hitems' hbefore'
    rw [nextNumber_byTag hother, (hparts key hc).1] at hone
    rw [(hparts key hc).2] at hzero
    have hone' : read key = 1 := Option.some.inj hone
    have hzero' : own key = 0 := Option.some.inj hzero
    rw [← hone', ← hzero']
    simp only [rgb, List.mem_cons, List.not_mem_nil, or_false] at hc
    rcases hc with rfl | rfl | rfl
    · exact hred
    · exact hgreen
    · exact hblue

/-! ## Entries -/

theorem closed_tokens (e : Entry Number) : Markup.Closed "key".toList e.tokens := by
  refine .pair rfl rfl (.other (by simp [dictToken, token]) ?_)
  refine (closed_items e.items).append (Markup.Closed.of_forall ?_)
  simp [dictEnd, token]

theorem key_of_mem_tokens {t : Token} (ht : t ∈ e.tokens) (hkey : t.tag = "key".toList) :
    t.text = e.name.1 ∨ ∃ item ∈ e.items, t.text = item.key := by
  simp only [tokens, List.mem_append, List.mem_cons, List.not_mem_nil, or_false,
    List.mem_flatMap] at ht
  rcases ht with ((rfl | rfl | rfl) | ⟨item, hitem, ht⟩) | rfl
  · exact .inl rfl
  · simp [keyEnd, token] at hkey
  · simp [dictToken, token] at hkey
  · exact .inr ⟨item, hitem, key_of_mem ht hkey⟩
  · simp [dictEnd, token] at hkey

end Entry

theorem Item.not_dictEnd (item : Item Number) : ∀ t ∈ item.tokens, t.tag ≠ "/dict".toList := by
  cases item with
  | component key keyGap tag number gap =>
    cases tag <;>
      simp [tokens, NumberTag.tokens, keyToken, keyEnd, realToken, realEnd, integerToken,
        integerEnd, token]
  | colorSpace keyGap name gap => simp [tokens, keyToken, keyEnd, stringToken, stringEnd, token]

/-- The dict behind the key of an entry. -/
theorem Entry.find_dict (e : Entry Number) (rest : List Token) :
    ∃ start stop,
      find "<dict>".toList (e.keyGap.1 ++ Markup.render (dictToken e.dictGap ::
        (e.items.flatMap Item.tokens ++ Theme.dictEnd e.gap :: rest))) = some start ∧
      find "</dict>".toList ((e.keyGap.1 ++ Markup.render (dictToken e.dictGap ::
        (e.items.flatMap Item.tokens ++ Theme.dictEnd e.gap :: rest))).drop start) = some stop ∧
      ((e.keyGap.1 ++ Markup.render (dictToken e.dictGap ::
        (e.items.flatMap Item.tokens ++ Theme.dictEnd e.gap :: rest))).drop start).take (stop + 7) =
          e.dict := by
  have hstart : Urls.splitOnce (mark (dictToken e.dictGap).tag) (e.keyGap.1 ++
      (Markup.render [] ++ ((dictToken e.dictGap).render ++
        Markup.render (e.items.flatMap Item.tokens ++ dictEnd e.gap :: rest)))) = _ :=
    Markup.splitOnce_mark e.keyGap.2 (fun _ ht => absurd ht List.not_mem_nil) _
  have hstop : Urls.splitOnce (mark (dictEnd e.gap).tag) ([] ++
      (Markup.render (dictToken e.dictGap :: e.items.flatMap Item.tokens) ++
        ((dictEnd e.gap).render ++ Markup.render rest))) = _ :=
    Markup.splitOnce_mark List.not_mem_nil (fun t ht => by
      rcases List.mem_cons.1 ht with rfl | ht
      · simp [dictToken, dictEnd, token]
      · obtain ⟨item, -, ht⟩ := List.mem_flatMap.1 ht
        exact item.not_dictEnd t ht) _
  obtain ⟨hdictStart, -, -, -, -⟩ := Markup.drop_of_splitOnce hstart
  obtain ⟨hdictEnd, -, -, -, htake⟩ := Markup.drop_of_splitOnce hstop
  simp only [Markup.render_nil, List.nil_append, List.append_nil] at hdictStart hdictEnd htake
  have hdrop : (e.keyGap.1 ++ Markup.render (dictToken e.dictGap ::
      (e.items.flatMap Item.tokens ++ dictEnd e.gap :: rest))).drop e.keyGap.1.length =
        Markup.render (dictToken e.dictGap :: e.items.flatMap Item.tokens) ++
          ((dictEnd e.gap).render ++ Markup.render rest) := by
    rw [List.drop_left]
    simp
  refine ⟨e.keyGap.1.length,
    (Markup.render (dictToken e.dictGap :: e.items.flatMap Item.tokens)).length, hdictStart, ?_, ?_⟩
  · rw [hdrop]
    exact hdictEnd
  · rw [hdrop]
    refine htake.trans ?_
    simp [dict, dictEnd, token, Token.render]

namespace ITermFile

theorem colorKey_plain {name : List Char} (h : name ∈ colorKeys) :
    '<' ∉ name ∧ ∀ item : Item α, item.key ≠ name := by
  have hall : ∀ name ∈ colorKeys, '<' ∉ name ∧ "Color Space".toList ≠ name ∧
      Component.red.key.1 ≠ name ∧ Component.green.key.1 ≠ name ∧ Component.blue.key.1 ≠ name ∧
      Component.alpha.key.1 ≠ name := by
    decide
  obtain ⟨hplain, hspace, hred, hgreen, hblue, halpha⟩ := hall name h
  refine ⟨hplain, fun item => ?_⟩
  cases item with
  | component key =>
    cases key
    · exact hred
    · exact hgreen
    · exact hblue
    · exact halpha
  | colorSpace => exact hspace

/-- The tokens of entries with other names. -/
theorem closed_entries (entries : List (Entry Number)) :
    Markup.Closed "key".toList (entries.flatMap Entry.tokens) := by
  induction entries with
  | nil => exact .nil
  | cons e entries ih => exact e.closed_tokens.append ih

theorem entries_keys {name : List Char} (hname : name ∈ colorKeys) {entries : List (Entry Number)}
    (h : ∀ e ∈ entries, e.name.1 ≠ name) :
    ∀ t ∈ entries.flatMap Entry.tokens, t.tag = "key".toList → t.text ≠ name := by
  intro t ht hkey
  obtain ⟨e, he, ht⟩ := List.mem_flatMap.1 ht
  rcases Entry.key_of_mem_tokens ht hkey with htext | ⟨item, -, htext⟩
  · exact htext ▸ h e he
  · exact htext ▸ (colorKey_plain hname).2 item

/-- **The first entry with the key is read**, up to the end of its dict. -/
theorem itermExtractColor_render (file : ITermFile Number) {name : List Char}
    (hname : name ∈ colorKeys) :
    itermExtractColor file.render name =
      (file.entry name).bind fun e => itermDictColor e.dict := by
  have hplain := (colorKey_plain (α := Number) hname).1
  have hheader : Markup.Closed "key".toList file.header := .of_forall file.header_keys
  cases hfind : file.entry name with
  | none =>
    have hother : ∀ e ∈ file.entries, e.name.1 ≠ name := fun e he => by
      simpa using List.find?_eq_none.1 hfind e he
    have hnone : Urls.splitOnce (element "key".toList name) file.render = none := by
      refine Markup.splitOnce_element_none (by decide) hplain
        (hheader.append ((closed_entries file.entries).append (.of_forall file.footer_keys))) ?_
      intro t ht hkey
      rcases List.mem_append.1 ht with ht | ht
      · exact absurd hkey (file.header_keys t ht)
      rcases List.mem_append.1 ht with ht | ht
      · exact entries_keys hname hother t ht hkey
      · exact absurd hkey (file.footer_keys t ht)
    have hsearch : find ("<key>".toList ++ name ++ "</key>".toList) file.render = none :=
      Markup.find_eq_none hnone
    rw [itermExtractColor, hsearch]
    rfl
  | some e =>
    obtain ⟨he, before, after, hentries, hbefore⟩ := List.find?_eq_some_iff_append.1 hfind
    obtain rfl : e.name.1 = name := of_decide_eq_true he
    have hother : ∀ e' ∈ before, e'.name.1 ≠ e.name.1 := fun e' he' => by
      simpa using hbefore e' he'
    obtain ⟨rest, hrest⟩ : ∃ rest, rest = after.flatMap Entry.tokens ++ file.footer := ⟨_, rfl⟩
    -- the key
    have hrender : file.render = Markup.render (file.header ++ before.flatMap Entry.tokens) ++
        ((keyToken e.name).render ++ ((keyEnd e.keyGap).render ++
          Markup.render (dictToken e.dictGap :: (e.items.flatMap Item.tokens ++
            dictEnd e.gap :: rest)))) := by
      simp [render, hentries, Entry.tokens, hrest]
    have hkey := Markup.splitOnce_element (t := keyToken e.name) (u := keyEnd e.keyGap) e.name.2
      (hheader.append (closed_entries before))
      (fun t ht hkey => (List.mem_append.1 ht).elim (fun ht => absurd hkey (file.header_keys t ht))
        fun ht => entries_keys hname hother t ht hkey) rfl rfl
      (Markup.render (dictToken e.dictGap ::
        (e.items.flatMap Item.tokens ++ dictEnd e.gap :: rest)))
    rw [← hrender] at hkey
    obtain ⟨hstart, -, -, hafter, -⟩ := Markup.drop_of_splitOnce hkey
    change find ("<key>".toList ++ e.name.1 ++ "</key>".toList) file.render = _ at hstart
    change file.render.drop
      (_ + ("<key>".toList ++ e.name.1 ++ "</key>".toList).length) = e.keyGap.1 ++ _ at hafter
    obtain ⟨dictStart, dictEnd, hdictStart, hdictEnd, hdict⟩ := e.find_dict rest
    rw [itermExtractColor, hstart]
    show (find "<dict>".toList (file.render.drop _)).bind _ = _
    rw [hafter, hdictStart]
    show (find "</dict>".toList _).bind _ = _
    rw [hdictEnd]
    show itermDictColor _ = _
    rw [hdict]
    rfl

/-! ## Files -/

theorem entry_mapNumbers (f : NumberTag → α → β) (file : ITermFile α) (name : List Char) :
    (file.mapNumbers f).entry name = (file.entry name).map (Entry.mapNumbers f) := by
  rw [entry, mapNumbers, List.find?_map]
  rfl

theorem SameShape.mixed {file file' : ITermFile Number} (h : file.SameShape file')
    {name : List Char} {e' : Entry Number} (he' : file'.entry name = some e') (hmixed : e'.Mixed) :
    ∃ e, file.entry name = some e ∧ e.Mixed := by
  have hentry := congrArg (fun file => file.entry name) h
  simp only [entry_mapNumbers, he', Option.map_some, Option.map_eq_some_iff] at hentry
  obtain ⟨e, he, hshape⟩ := hentry
  refine ⟨e, he, Entry.mixed_of_mapNumbers (f := fun _ _ => ()) ?_⟩
  rw [hshape]
  exact Entry.mixed_mapNumbers _ hmixed

theorem sameShape_mapNumbers (file : ITermFile Number) (f : NumberTag → Number → Number) :
    file.SameShape (file.mapNumbers f) := by
  have hitem : Item.mapNumbers (fun _ (_ : Number) => ()) ∘ Item.mapNumbers f =
      Item.mapNumbers fun _ _ => () := by
    funext item
    cases item <;> rfl
  have hentry : Entry.mapNumbers (fun _ (_ : Number) => ()) ∘ Entry.mapNumbers f =
      Entry.mapNumbers fun _ _ => () := by
    funext e
    simp [Entry.mapNumbers, hitem]
  simp [SameShape, mapNumbers, hentry]

theorem imports_of_forall {file : ITermFile Number}
    (h : ∀ name ∈ colorKeys, itermExtractColor file.render name = file.color name) :
    file.Imports where
  ansi := List.map_congr_left fun key hkey => by
    rw [h key (List.mem_cons_of_mem _ (List.mem_cons_of_mem _ hkey))]
  foreground := congrArg (Option.getD · defaultForeground) (h _ List.mem_cons_self)
  background :=
    congrArg (Option.getD · defaultBackground) (h _ (List.mem_cons_of_mem _ List.mem_cons_self))

theorem Imports.getD_eq {file : ITermFile Number} (h : file.Imports) {name : List Char}
    (hname : name ∈ colorKeys) :
    ∃ d, (itermExtractColor file.render name).getD d = (file.color name).getD d := by
  rcases List.mem_cons.1 hname with rfl | hname
  · exact ⟨_, h.foreground⟩
  rcases List.mem_cons.1 hname with rfl | hname
  · exact ⟨_, h.background⟩
  · exact ⟨_, List.map_inj_left.1 h.ansi name hname⟩

/-- **The colors of iTerm2 are read under their own keys**, whatever their numbers are, if and only
    if no `<integer>` of a color stands before a `<real>`. -/
theorem readsOwn_iff (file : ITermFile Number) :
    file.ReadsOwn ↔ ∀ name ∈ colorKeys, ∀ e, file.entry name = some e → ¬e.Mixed := by
  constructor
  · intro h name hname e he hmixed
    obtain ⟨d, hd⟩ := (h _ (sameShape_mapNumbers file byTag)).getD_eq hname
    obtain ⟨color, color', hread, hown, hne⟩ := Entry.misread_of_mixed hmixed
    rw [itermExtractColor_render _ hname, ITermFile.color, entry_mapNumbers, he] at hd
    change (itermDictColor (e.mapNumbers byTag).dict).getD d = (e.mapNumbers byTag).color.getD d
      at hd
    rw [hread, hown] at hd
    exact hne hd
  · intro h file' hshape
    refine imports_of_forall fun name hname => ?_
    rw [itermExtractColor_render file' hname, ITermFile.color]
    cases he : file'.entry name with
    | none => rfl
    | some e' =>
      refine Entry.itermDictColor_of_not_mixed fun hmixed => ?_
      obtain ⟨e, he, hmixed⟩ := hshape.mixed he hmixed
      exact h name hname e he hmixed

end ITermFile

end Nexterm.Settings.Theme

/-
  The theme commands (`nexterm-ctl`, `theme apply` and `theme import`), which edit the text of the
  configuration line by line.

  * `removeTomlSection`, `applyBuiltinSchemeToConfig`, `writeCustomPalette`: the texts written.
  * `ThemeEnv`: the parser of the loader, as far as lines go; `loads`: what a text is loaded to.
  * `loads_congr`: a document that differs in its colors.
  * `AppliesSchemes`, `WritesPalette`: only the colors change; `theme_commands_iff`: when they do.
-/
import Nexterm.Lib.Join
import Nexterm.Lib.StrLines
import Nexterm.Lib.TomlLines
import Nexterm.Settings.Load
import Nexterm.Settings.Save
import Nexterm.Vt.Performer

namespace Nexterm.Settings.Theme

open Str (lines)
open Toml (Table Item Value)
open Vt (isWhitespace)

/-! ## Editing the text -/

/-- `str::trim`. -/
def trim (text : List Char) : List Char := Join.strip isWhitespace text

/-- `str::trim_start`. -/
def trimStart (text : List Char) : List Char := text.dropWhile isWhitespace

/-- `str::trim_end`. -/
def trimEnd (text : List Char) : List Char := text.rdropWhile isWhitespace

/-- The lines outside the sections with this heading; `skip` holds inside one. -/
def outside (search : List Char) : Bool → List (List Char) → List (List Char)
  | _, [] => []
  | skip, line :: rest =>
    let trimmed := trim line
    if trimmed = search then outside search true rest
    else
      -- A section ends at the next heading, but not at the heading of an array of tables.
      let skip := skip && !("[".toList.isPrefixOf trimmed && !"[[".toList.isPrefixOf trimmed)
      if skip then outside search skip rest else line :: outside search skip rest

/-- Remove the section of this name. -/
def removeTomlSection (content : List Char) (sectionName : String) : List Char :=
  ['\n'].intercalate (outside ('[' :: sectionName.toList ++ [']']) false (lines content))

/-- A single-line assignment of the colors. -/
def isColorsLine (line : List Char) : Bool := "colors =".toList.isPrefixOf (trimStart line)

/-- What is left of the text before a built-in scheme is written. -/
def cleanedForScheme (existing : List Char) : List Char :=
  let cleaned := removeTomlSection existing "colors"
  let cleaned := removeTomlSection cleaned "color-scheme"
  let cleaned := removeTomlSection cleaned "color-scheme.custom"
  ['\n'].intercalate ((lines cleaned).filter (!isColorsLine ·))

/-- The line of a built-in scheme. -/
def schemeValue (scheme : BuiltinScheme) : Value := .string scheme.tomlName.toList

/-- The text with `colors = "..."` instead of its sections. -/
def applyBuiltinSchemeToConfig (existing : List Char) (scheme : BuiltinScheme) : List Char :=
  trimEnd (cleanedForScheme existing) ++ '\n' :: Toml.keyLine "colors" (schemeValue scheme) ++
    ['\n']

/-- Color palette (internal representation used during import). -/
structure ImportedPalette where
  foreground : List Char
  background : List Char
  cursor : List Char
  ansi : List (List Char)

namespace ImportedPalette

/-- The lines of the section. -/
def fields (palette : ImportedPalette) : List (String × Value) :=
  [("foreground", .string palette.foreground), ("background", .string palette.background),
    ("cursor", .string palette.cursor), ("ansi", .strings palette.ansi)]

/-- Colors without quotes and escapes, such as `#RRGGBB`. -/
def Plain (palette : ImportedPalette) : Prop := ∀ field ∈ palette.fields, field.2.Plain

/-- The palette as the loader has it. -/
def toCustom (palette : ImportedPalette) : CustomPalette where
  foreground := String.ofList palette.foreground
  background := String.ofList palette.background
  cursor := String.ofList palette.cursor
  ansi := palette.ansi.map String.ofList

end ImportedPalette

/-- What is left of the text before a palette is written. -/
def cleanedForPalette (existing : List Char) : List Char :=
  removeTomlSection existing "color-scheme.custom"

/-- The text with the palette in a section `[color-scheme.custom]` at its end. -/
def writeCustomPalette (existing : List Char) (palette : ImportedPalette) : List Char :=
  Toml.appendKeys
    (trimEnd (cleanedForPalette existing) ++ '\n' :: Toml.headingLine ["color-scheme", "custom"])
    palette.fields ++ ['\n']

/-! ## Loading the text -/

/-- The parser of the loader; no field of the configuration is called `color-scheme`. -/
structure ThemeEnv (ρ : Type) extends TomlEnv ρ where
  reader : Toml.Reader
  parse_eq : ∀ text, parse (String.ofList text) = reader.parse text
  others_congr : ∀ t t' : Table, (∀ key, key ≠ "color-scheme" → t' key = t key) →
    others t' = others t

variable {ρ : Type}

/-- The configuration that a text is loaded to. -/
def ThemeEnv.loads (env : ThemeEnv ρ) (text : List Char) : Option (Config (Extra ρ)) :=
  (env.parse (String.ofList text)).bind (loadConfig env.toTomlEnv)

/-- Every built-in scheme is loaded, and nothing else has changed. -/
def AppliesSchemes (env : ThemeEnv ρ) (text : List Char) (c : Config (Extra ρ)) : Prop :=
  ∀ scheme, env.loads (applyBuiltinSchemeToConfig text scheme) =
    some { c with colors := .builtin scheme }

/-- The palette is loaded, and nothing else has changed. -/
def WritesPalette (env : ThemeEnv ρ) (text : List Char) (palette : ImportedPalette)
    (c : Config (Extra ρ)) : Prop :=
  env.loads (writeCustomPalette text palette) = some { c with colors := .custom palette.toCustom }

/-- What is left of the text has no table open at its end and no colors, and it still holds all
    other settings. -/
structure EndsAtTop (env : ThemeEnv ρ) (text : List Char) (c : Config (Extra ρ)) : Prop where
  openTable : env.reader.openTable (trimEnd (cleanedForScheme text)) = []
  colors : ∀ d, env.reader.parse (trimEnd (cleanedForScheme text)) = some d → d "colors" = none
  others : env.loads (trimEnd (cleanedForScheme text)) =
    some { c with colors := .builtin .tokyoNight }

/-! ## Documents that differ in their colors -/

/-- The same settings, with the colors of the second document. -/
theorem loads_congr {env : TomlEnv ρ} {d d₁ : Table} {c : Config (Extra ρ)} {colors : ColorScheme}
    (htop : ∀ key ∈ topKeys, key ≠ "colors" → d₁ key = d key)
    (hothers : env.others (d₁.without topKeys) = env.others (d.without topKeys))
    (hcolors : ColorScheme.load (d₁ "colors") = some colors) (h : Loads env d c) :
    Loads env d₁ { c with colors } := by
  have hkey : ∀ key, key ∈ topKeys ∧ key ≠ "colors" → d₁ key = d key :=
    fun key hkey => htop key hkey.1 hkey.2
  have hfield : ∀ {α : Type} (key : String) (dec : Item → Option α) (dflt : α),
      key ∈ topKeys ∧ key ≠ "colors" → d₁.field key dec dflt = d.field key dec dflt := by
    intro α key dec dflt hk
    rw [Table.field, hkey key hk, Table.field]
  constructor
  case colors => exact hcolors
  case configErrors => exact h.configErrors
  case others => exact hothers.trans h.others
  case font => rw [hkey _ (by decide)]; exact h.font
  case shell => rw [hkey _ (by decide)]; exact h.shell
  case window => rw [hkey _ (by decide)]; exact h.window
  case tabBar => rw [hkey _ (by decide)]; exact h.tabBar
  case hosts => rw [hkey _ (by decide)]; exact h.hosts
  case gpu => rw [hkey _ (by decide)]; exact h.gpu
  case cursor => rw [hkey _ (by decide)]; exact h.cursor
  case security => rw [hkey _ (by decide)]; exact h.security
  case animations => rw [hkey _ (by decide)]; exact h.animations
  case blocks => rw [hkey _ (by decide)]; exact h.blocks
  case colorsFollowSystem => rw [hfield _ _ _ (by decide)]; exact h.colorsFollowSystem
  case scrollbackLines => rw [hfield _ _ _ (by decide)]; exact h.scrollbackLines
  case activeProfile => rw [hfield _ _ _ (by decide)]; exact h.activeProfile
  case language => rw [hfield _ _ _ (by decide)]; exact h.language
  case cursorStyle => rw [hfield _ _ _ (by decide)]; exact h.cursorStyle
  case autoCheckUpdate => rw [hfield _ _ _ (by decide)]; exact h.autoCheckUpdate
  case leaderKey => rw [hfield _ _ _ (by decide)]; exact h.leaderKey

theorem without_insert_of_mem (d : Table) {key : String} {keys : List String} (h : key ∈ keys)
    (v : Item) : (d.insert key v).without keys = d.without keys := by
  funext k
  simp only [Table.without]
  split_ifs with hk
  · rfl
  · refine if_neg ?_
    rintro rfl
    exact hk h

/-- A scheme in a document without colors. -/
theorem loads_insert_colors_iff {env : TomlEnv ρ} {d : Table} (hnone : d "colors" = none)
    (c : Config (Extra ρ)) (scheme : BuiltinScheme) :
    loadConfig env (d.insert "colors" (schemeValue scheme).item) =
        some { c with colors := .builtin scheme } ↔
      loadConfig env d = some { c with colors := .builtin .tokyoNight } := by
  have hothers := congrArg env.others (without_insert_of_mem d
    (show "colors" ∈ topKeys by decide) (schemeValue scheme).item)
  have hcolors : ColorScheme.load (d.insert "colors" (schemeValue scheme).item "colors") =
      some (.builtin scheme) := by
    rw [Table.insert_self]
    simp [schemeValue, Value.item, ColorScheme.load, parseBuiltinScheme,
      BuiltinScheme.fromTomlName_tomlName]
  rw [loadConfig_eq_some_iff, loadConfig_eq_some_iff]
  constructor
  · intro h
    have hdefault : ColorScheme.load (d "colors") = some (.builtin .tokyoNight) := by
      rw [hnone]
      rfl
    have hloads := loads_congr (fun key _ hne => (if_neg hne).symm) hothers.symm hdefault h
    exact hloads
  · intro h
    have hloads := loads_congr (fun key _ hne => if_neg hne) hothers hcolors h
    exact hloads

/-- The loader never looks at `color-scheme`. -/
theorem loadConfig_congr (env : ThemeEnv ρ) {d d' : Table}
    (h : ∀ key, key ≠ "color-scheme" → d' key = d key) :
    loadConfig env.toTomlEnv d' = loadConfig env.toTomlEnv d := by
  have hothers : env.others (d'.without topKeys) = env.others (d.without topKeys) := by
    refine env.others_congr _ _ fun key hne => ?_
    simp only [Table.without, h key hne]
  have htop : ∀ key ∈ topKeys, key ≠ "colors" → d' key = d key := by
    intro key hmem _
    refine h key ?_
    rintro rfl
    exact absurd hmem (by decide)
  have hcolors : d' "colors" = d "colors" := h "colors" (by decide)
  ext c
  rw [loadConfig_eq_some_iff, loadConfig_eq_some_iff]
  constructor
  · intro hloads
    have hload := hloads.colors
    rw [hcolors] at hload
    exact loads_congr (fun key hmem hne => (htop key hmem hne).symm) hothers.symm hload hloads
  · intro hloads
    have hload := hloads.colors
    rw [← hcolors] at hload
    exact loads_congr htop hothers hload hloads

theorem load_table_eq_builtin_iff {f : Table} {scheme : BuiltinScheme} :
    ColorScheme.load (some (.table f)) = some (.builtin scheme) ↔
      ∃ name, f "scheme" = some (.string name) ∧ parseBuiltinScheme name = scheme := by
  simp only [ColorScheme.load, Item.fields, Option.bind_eq_bind, Option.bind_some]
  constructor
  · intro h
    split at h
    · next name hname => exact ⟨name, hname, by simpa using h⟩
    · simp [Option.bind_eq_some_iff] at h
  · rintro ⟨name, hname, rfl⟩
    simp [hname]

/-- A key below the top is no scheme name. -/
theorem scheme_of_insertAt {path : List String} {v : Item} {f f' : Table} {name : String}
    (h : Table.insertAt path "colors" v f = some f') (hname : f' "scheme" = some (.string name)) :
    f "scheme" = some (.string name) := by
  cases path with
  | nil =>
    obtain ⟨-, rfl⟩ := Table.insertAt_nil_eq_some_iff.1 h
    exact hname
  | cons k path =>
    by_cases hk : "scheme" = k
    · subst hk
      rcases Table.insertAt_cons h with ⟨_, _, -, -, rfl⟩ | ⟨rows, rfl⟩
      · rw [Table.insert_self] at hname
        cases hname
      · rw [Table.insert_self] at hname
        cases hname
    · rw [← Table.insertAt_cons_of_ne h hk]
      exact hname

/-- In a table below the top, the line of a scheme does not change the scheme. -/
theorem colors_of_insertAt {k : String} {path : List String} {v : Item} {d d₁ : Table}
    {scheme : BuiltinScheme} (h : Table.insertAt (k :: path) "colors" v d = some d₁)
    (hload : ColorScheme.load (d₁ "colors") = some (.builtin scheme)) :
    ColorScheme.load (d "colors") = some (.builtin scheme) := by
  by_cases hk : "colors" = k
  · subst hk
    rcases Table.insertAt_cons h with ⟨f, f', hf, hf', rfl⟩ | ⟨rows, rfl⟩
    · rw [Table.insert_self, load_table_eq_builtin_iff] at hload
      obtain ⟨name, hname, hscheme⟩ := hload
      rw [hf, load_table_eq_builtin_iff]
      exact ⟨name, scheme_of_insertAt hf' hname, hscheme⟩
    · rw [Table.insert_self] at hload
      simp [ColorScheme.load, Item.fields] at hload
  · rw [← Table.insertAt_cons_of_ne h hk]
    exact hload

/-! ## What is loaded -/

theorem getLast?_trimEnd (text : List Char) : (trimEnd text).getLast? ≠ some '\r' := by
  intro hlast
  have hne : trimEnd text ≠ [] := by
    intro hnil
    rw [hnil] at hlast
    cases hlast
  rw [List.getLast?_eq_some_getLast hne] at hlast
  have hnot := List.rdropWhile_last_not isWhitespace text hne
  rw [show (text.rdropWhile isWhitespace).getLast hne = '\r' from Option.some.inj hlast] at hnot
  exact hnot (by decide)

theorem loads_eq (env : ThemeEnv ρ) (text : List Char) :
    env.loads text = (env.reader.parse text).bind (loadConfig env.toTomlEnv) := by
  rw [ThemeEnv.loads, env.parse_eq]

theorem plain_schemeValue (scheme : BuiltinScheme) : (schemeValue scheme).Plain := by
  have halnum : scheme.tomlName.toList.all Char.isAlphanum = true := by
    cases scheme <;> decide
  exact fun c hc => .inl (List.all_eq_true.1 halnum c hc)

theorem parse_applyBuiltinSchemeToConfig (env : ThemeEnv ρ) (text : List Char)
    (scheme : BuiltinScheme) :
    env.reader.parse (applyBuiltinSchemeToConfig text scheme) =
      (env.reader.parse (trimEnd (cleanedForScheme text))).bind
        (Table.insertAt (env.reader.openTable (trimEnd (cleanedForScheme text))) "colors"
          (schemeValue scheme).item) := by
  rw [applyBuiltinSchemeToConfig, env.reader.parse_newline _ (Toml.getLast?_keyLine _ _ _),
    env.reader.parse_keyLine _ _ _ (getLast?_trimEnd _) (by decide) (plain_schemeValue scheme)]

theorem exists_insertAt {env : ThemeEnv ρ} {text : List Char} {scheme : BuiltinScheme}
    {c : Config (Extra ρ)} (h : env.loads (applyBuiltinSchemeToConfig text scheme) = some c) :
    ∃ d d', env.reader.parse (trimEnd (cleanedForScheme text)) = some d ∧
      Table.insertAt (env.reader.openTable (trimEnd (cleanedForScheme text))) "colors"
        (schemeValue scheme).item d = some d' ∧ loadConfig env.toTomlEnv d' = some c := by
  rw [loads_eq, parse_applyBuiltinSchemeToConfig] at h
  obtain ⟨d', hparse, hload⟩ := Option.bind_eq_some_iff.1 h
  obtain ⟨d, hd, hd'⟩ := Option.bind_eq_some_iff.1 hparse
  exact ⟨d, d', hd, hd', hload⟩

/-- One table below the top cannot become two schemes. -/
theorem openTable_of_appliesSchemes {env : ThemeEnv ρ} {text : List Char} {c : Config (Extra ρ)}
    (h : AppliesSchemes env text c) :
    env.reader.openTable (trimEnd (cleanedForScheme text)) = [] := by
  obtain ⟨d, d₁, hd, hdark, hloadDark⟩ := exists_insertAt (h .dark)
  obtain ⟨d₂, d₃, hd₂, hlight, hloadLight⟩ := exists_insertAt (h .light)
  obtain rfl := Option.some.inj (hd.symm.trans hd₂)
  cases hpath : env.reader.openTable (trimEnd (cleanedForScheme text)) with
  | nil => rfl
  | cons k path =>
    rw [hpath] at hdark hlight
    have hdark' := colors_of_insertAt hdark (loadConfig_eq_some_iff.1 hloadDark).colors
    have hlight' := colors_of_insertAt hlight (loadConfig_eq_some_iff.1 hloadLight).colors
    rw [hdark'] at hlight'
    cases hlight'

theorem appliesSchemes_iff (env : ThemeEnv ρ) (text : List Char) (c : Config (Extra ρ)) :
    AppliesSchemes env text c ↔ EndsAtTop env text c := by
  constructor
  · intro h
    have hopen := openTable_of_appliesSchemes h
    obtain ⟨d, d', hd, hd', hload⟩ := exists_insertAt (h .dark)
    rw [hopen] at hd'
    obtain ⟨hnone, rfl⟩ := Table.insertAt_nil_eq_some_iff.1 hd'
    refine ⟨hopen, fun d₁ hd₁ => ?_, ?_⟩
    · obtain rfl := Option.some.inj (hd.symm.trans hd₁)
      exact hnone
    · rw [loads_eq, hd]
      exact (loads_insert_colors_iff hnone c .dark).1 hload
  · intro h scheme
    have hothers := h.others
    rw [loads_eq] at hothers
    obtain ⟨d, hd, hload⟩ := Option.bind_eq_some_iff.1 hothers
    have hnone := h.colors d hd
    rw [loads_eq, parse_applyBuiltinSchemeToConfig, hd, h.openTable, Option.bind_some,
      Table.insertAt_nil_eq_some_iff.2 ⟨hnone, rfl⟩]
    exact (loads_insert_colors_iff hnone c scheme).2 hload

/-- A palette that is written is not looked at. -/
theorem loads_writeCustomPalette (env : ThemeEnv ρ) (text : List Char) {palette : ImportedPalette}
    (hplain : palette.Plain)
    (hparse : (env.reader.parse (writeCustomPalette text palette)).isSome = true) :
    env.loads (writeCustomPalette text palette) = env.loads (trimEnd (cleanedForPalette text)) := by
  have hfields : ∀ f ∈ palette.fields, Toml.Bare f.1.toList ∧ f.2.Plain := by
    intro f hf
    refine ⟨?_, hplain f hf⟩
    have hkey : f.1 ∈ ["foreground", "background", "cursor", "ansi"] := List.mem_map_of_mem hf
    have hbare : ∀ key ∈ ["foreground", "background", "cursor", "ansi"],
        Toml.Bare key.toList := by decide
    exact hbare f.1 hkey
  obtain ⟨d', hd'⟩ := Option.isSome_iff_exists.1 hparse
  have hsection := hd'
  rw [writeCustomPalette, env.reader.parse_newline _
    (Toml.getLast?_appendKeys (Toml.getLast?_headingLine _ _) _)] at hsection
  obtain ⟨d, hd, hkept⟩ := env.reader.parse_section (getLast?_trimEnd _) (by decide) palette.fields
    hfields hsection
  rw [loads_eq, loads_eq, hd', hd]
  exact loadConfig_congr env hkept

/-- A parser of lines. -/
def lineEnv : ThemeEnv Unit :=
  { colorsEnv with
    parse := fun text => Toml.lineReader.parse text.toList
    parse_empty := rfl
    reader := Toml.lineReader
    parse_eq := fun text => by rw [String.toList_ofList]
    others_congr := fun _ _ _ => rfl }

example : (lineEnv.loads (applyBuiltinSchemeToConfig
    (Toml.keyLine "colors" (.string "dark".toList)) .nord)).map (·.colors) =
      some (.builtin .nord) := by
  decide +kernel

/-- A text whose last table is `shell`. -/
def shellText : List Char :=
  Toml.headingLine ["shell"] ++ '\n' :: Toml.keyLine "program" (.string "/bin/sh".toList) ++ ['\n']

def blackPalette : ImportedPalette where
  foreground := "#FFFFFF".toList
  background := "#000000".toList
  cursor := "#FFFFFF".toList
  ansi := List.replicate 16 "#000000".toList

end Nexterm.Settings.Theme

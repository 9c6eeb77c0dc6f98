/-
  The Lua layer of the configuration (`loader.rs`): the table that a script finds, and how what it
  returns is merged.

  * `configToLuaTable`, `applyLuaTableToConfig`: the two field lists.
  * `Assignments`: what a script sets, in the table it finds or in a table of its own;
    `Config.assign`: what it means.
  * `Kept`: nothing is there that the merge would lose; `lua_frame_iff`.
-/
import Mathlib.Algebra.Ring.Nat
import Nexterm.Lib.Nested
import Nexterm.Settings.Schema

namespace Nexterm.Settings

/-! ## Tables -/

/-- Lua values; a table has named fields and a list part. -/
inductive LuaValue
  | nil
  | boolean (b : Bool)
  | integer (n : ℕ)
  | number (x : F32)
  | string (s : String)
  | table (fields : String → LuaValue) (items : List LuaValue)

/-- The named fields of a table. -/
abbrev LuaTable := String → LuaValue

namespace LuaValue

/-- `get::<String>`, `get::<f32>` and so on; conversions between types are left out. -/
def asString : LuaValue → Option String
  | string s => some s
  | _ => none

/-- `get::<bool>`; `ofNil` is what it makes of nil: an error, or Lua's `false`. -/
def asBool (ofNil : Option Bool) : LuaValue → Option Bool
  | boolean b => some b
  | nil => ofNil
  | _ => none

def asF32 : LuaValue → Option F32
  | number x => some x
  | _ => none

def asUsize : LuaValue → Option ℕ
  | integer n => some n
  | _ => none

def asU32 : LuaValue → Option UInt32
  | integer n => if n < 2 ^ 32 then some (UInt32.ofNat n) else none
  | _ => none

/-- An optional string; `none` is nil. -/
def ofOption (s : Option String) : LuaValue := s.elim nil string

def isTable : LuaValue → Bool
  | table _ _ => true
  | _ => false

end LuaValue

namespace LuaTable

def ofList (fields : List (String × LuaValue)) : LuaTable := fun key =>
  (fields.lookup key).getD .nil

def empty : LuaTable := fun _ => .nil

def set (t : LuaTable) (key : String) (v : LuaValue) : LuaTable :=
  fun key' => if key' = key then v else t key'

/-- Set a field of a nested table, which is made if it is not there. -/
def setIn (t : LuaTable) (sec key : String) (v : LuaValue) : LuaTable :=
  match t sec with
  | .table fields items => t.set sec (.table (set fields key v) items)
  | _ => t.set sec (.table (set empty key v) [])

end LuaTable

/-! ## Export and import -/

variable {ρ : Type}

/-- The exported name of a color scheme; a palette is not exported. -/
def schemeStr : ColorScheme → String
  | .builtin b => String.ofList (b.debugName.toList.map Char.toLower)
  | .custom _ => "custom"

/-- Converts a configuration into a Lua table. -/
def configToLuaTable (c : Config ρ) : LuaTable := LuaTable.ofList
  [("font", .table (LuaTable.ofList
      [("family", .string c.font.family), ("size", .number c.font.size),
        ("ligatures", .boolean c.font.ligatures)]) []),
    ("colors", .string (schemeStr c.colors)),
    ("shell", .table (LuaTable.ofList [("program", .string c.shell.program)]) []),
    ("scrollback_lines", .integer c.scrollbackLines),
    ("tab_bar", .table (LuaTable.ofList
      [("enabled", .boolean c.tabBar.enabled), ("height", .integer c.tabBar.height.toNat),
        ("active_tab_bg", .ofOption c.tabBar.activeTabBg),
        ("inactive_tab_bg", .ofOption c.tabBar.inactiveTabBg),
        ("separator", .string c.tabBar.separator)]) []),
    ("hooks", .table (LuaTable.ofList
      [("on_pane_open", .ofOption c.hooks.onPaneOpen),
        ("on_pane_close", .ofOption c.hooks.onPaneClose),
        ("on_session_start", .ofOption c.hooks.onSessionStart),
        ("on_attach", .ofOption c.hooks.onAttach),
        ("on_detach", .ofOption c.hooks.onDetach)]) [])]

/-- Parses a color-scheme string. -/
def parseColorScheme (s : String) : ColorScheme := .builtin (parseBuiltinScheme s)

/-- The strings at the beginning of the list part. -/
def takeStrings : List LuaValue → List String
  | .string s :: items => s :: takeStrings items
  | _ => []

/-- Merges values from a Lua table into a configuration. -/
def applyLuaTableToConfig (ofNil : Option Bool) (c : Config ρ) (tbl : LuaTable) : Config ρ :=
  { c with
    font :=
      match tbl "font" with
      | .table font _ =>
        { c.font with
          family := (font "family").asString.getD c.font.family
          size := (font "size").asF32.getD c.font.size
          ligatures := ((font "ligatures").asBool ofNil).getD c.font.ligatures }
      | _ => c.font
    colors := ((tbl "colors").asString.map parseColorScheme).getD c.colors
    shell :=
      match tbl "shell" with
      | .table shell _ =>
        { program := (shell "program").asString.getD c.shell.program
          args :=
            match shell "args" with
            | .table _ items => if takeStrings items = [] then c.shell.args else takeStrings items
            | _ => c.shell.args }
      | _ => c.shell
    scrollbackLines := (tbl "scrollback_lines").asUsize.getD c.scrollbackLines
    tabBar :=
      match tbl "tab_bar" with
      | .table tabBar _ =>
        { c.tabBar with
          enabled := ((tabBar "enabled").asBool ofNil).getD c.tabBar.enabled
          height := (tabBar "height").asU32.getD c.tabBar.height
          activeTabBg := (tabBar "active_tab_bg").asString.or c.tabBar.activeTabBg
          inactiveTabBg := (tabBar "inactive_tab_bg").asString.or c.tabBar.inactiveTabBg
          separator := (tabBar "separator").asString.getD c.tabBar.separator }
      | _ => c.tabBar
    hooks :=
      match tbl "hooks" with
      | .table hooks _ =>
        { c.hooks with
          onPaneOpen := (hooks "on_pane_open").asString
          onPaneClose := (hooks "on_pane_close").asString
          onSessionStart := (hooks "on_session_start").asString
          onAttach := (hooks "on_attach").asString
          onDetach := (hooks "on_detach").asString }
      | _ => c.hooks }

/-! ## Scripts -/

/-- What a script sets: the fields of the table it finds, each with a value of its type; an
    optional field may be set to nil. -/
structure Assignments where
  family : Option String
  size : Option F32
  ligatures : Option Bool
  colors : Option String
  program : Option String
  scrollbackLines : Option ℕ
  enabled : Option Bool
  height : Option UInt32
  activeTabBg : Option (Option String)
  inactiveTabBg : Option (Option String)
  separator : Option String
  onPaneOpen : Option (Option String)
  onPaneClose : Option (Option String)
  onSessionStart : Option (Option String)
  onAttach : Option (Option String)
  onDetach : Option (Option String)

/-- A field of the table, or of one of its sections, that is set or not. -/
structure Update where
  sec : Option String
  key : String
  value : Option LuaValue

def LuaTable.update (t : LuaTable) (u : Update) : LuaTable :=
  match u.value, u.sec with
  | none, _ => t
  | some v, none => t.set u.key v
  | some v, some sec => t.setIn sec u.key v

/-- The fields, by their names in Lua. -/
def Assignments.updates (a : Assignments) : List Update :=
  [⟨some "font", "family", a.family.map .string⟩,
    ⟨some "font", "size", a.size.map .number⟩,
    ⟨some "font", "ligatures", a.ligatures.map .boolean⟩,
    ⟨none, "colors", a.colors.map .string⟩,
    ⟨some "shell", "program", a.program.map .string⟩,
    ⟨none, "scrollback_lines", a.scrollbackLines.map .integer⟩,
    ⟨some "tab_bar", "enabled", a.enabled.map .boolean⟩,
    ⟨some "tab_bar", "height", a.height.map fun n => .integer n.toNat⟩,
    ⟨some "tab_bar", "active_tab_bg", a.activeTabBg.map .ofOption⟩,
    ⟨some "tab_bar", "inactive_tab_bg", a.inactiveTabBg.map .ofOption⟩,
    ⟨some "tab_bar", "separator", a.separator.map .string⟩,
    ⟨some "hooks", "on_pane_open", a.onPaneOpen.map .ofOption⟩,
    ⟨some "hooks", "on_pane_close", a.onPaneClose.map .ofOption⟩,
    ⟨some "hooks", "on_session_start", a.onSessionStart.map .ofOption⟩,
    ⟨some "hooks", "on_attach", a.onAttach.map .ofOption⟩,
    ⟨some "hooks", "on_detach", a.onDetach.map .ofOption⟩]

/-- The table after the script has set its fields. -/
def Assignments.run (a : Assignments) (t : LuaTable) : LuaTable :=
  a.updates.foldl LuaTable.update t

/-- What the script asks for: exactly the assigned fields change. -/
def Config.assign (c : Config ρ) (a : Assignments) : Config ρ :=
  { c with
    font :=
      { c.font with
        family := a.family.getD c.font.family
        size := a.size.getD c.font.size
        ligatures := a.ligatures.getD c.font.ligatures }
    colors := (a.colors.map parseColorScheme).getD c.colors
    shell := { c.shell with program := a.program.getD c.shell.program }
    scrollbackLines := a.scrollbackLines.getD c.scrollbackLines
    tabBar :=
      { c.tabBar with
        enabled := a.enabled.getD c.tabBar.enabled
        height := a.height.getD c.tabBar.height
        activeTabBg := a.activeTabBg.getD c.tabBar.activeTabBg
        inactiveTabBg := a.inactiveTabBg.getD c.tabBar.inactiveTabBg
        separator := a.separator.getD c.tabBar.separator }
    hooks :=
      { c.hooks with
        onPaneOpen := a.onPaneOpen.getD c.hooks.onPaneOpen
        onPaneClose := a.onPaneClose.getD c.hooks.onPaneClose
        onSessionStart := a.onSessionStart.getD c.hooks.onSessionStart
        onAttach := a.onAttach.getD c.hooks.onAttach
        onDetach := a.onDetach.getD c.hooks.onDetach } }

/-! ## Reading a table back -/

namespace LuaTable

/-- A field of a table, or of one of its sections. -/
def read (t : LuaTable) (sec : Option String) (key : String) : LuaValue :=
  match sec with
  | none => t key
  | some sec =>
    match t sec with
    | .table fields _ => fields key
    | _ => .nil

theorem read_setIn (t : LuaTable) (sec key : String) (v : LuaValue) (sec' key' : String) :
    (t.setIn sec key v).read (some sec') key' =
      if sec' = sec ∧ key' = key then v else t.read (some sec') key' := by
  by_cases hsec : sec' = sec
  · subst hsec
    simp only [setIn, read, true_and]
    cases t sec' <;> simp [set, empty]
  · have hother : t.setIn sec key v sec' = t sec' := by
      unfold setIn
      cases t sec <;> simp [set, hsec]
    simp only [read, hother, hsec, false_and, if_false]

theorem setIn_of_ne (t : LuaTable) {sec key' : String} (key : String) (v : LuaValue)
    (h : key' ≠ sec) : t.setIn sec key v key' = t key' := by
  unfold setIn
  cases t sec <;> simp [set, h]

theorem isTable_setIn (t : LuaTable) (sec key : String) (v : LuaValue) (sec' : String) :
    (t.setIn sec key v sec').isTable = (decide (sec' = sec) || (t sec').isTable) := by
  by_cases hsec : sec' = sec
  · subst hsec
    unfold setIn
    cases t sec' <;> simp [set, LuaValue.isTable]
  · rw [setIn_of_ne t key v hsec, decide_eq_false hsec, Bool.false_or]

end LuaTable

/-- Where the field is. -/
def Update.name (u : Update) : Nested.Name := (u.sec, u.key)

namespace LuaTable

theorem read_update_self (t : LuaTable) (u : Update) :
    (t.update u).read u.sec u.key = u.value.getD (t.read u.sec u.key) := by
  rcases u with ⟨_ | sec, key, _ | v⟩
  · rfl
  · exact if_pos rfl
  · rfl
  · exact (read_setIn t sec key v sec key).trans (if_pos ⟨rfl, rfl⟩)

theorem read_update_of_separate (t : LuaTable) {u : Update} {sec' : Option String} {key' : String}
    (h : Nested.Separate u.name (sec', key')) : (t.update u).read sec' key' = t.read sec' key' := by
  obtain ⟨hname, hsec, hsec'⟩ := h
  rcases u with ⟨sec, key, _ | v⟩
  · rfl
  rcases sec with _ | sec <;> rcases sec' with _ | sec'
  · exact if_neg fun heq => hname (by rw [Update.name, heq])
  · have hne : sec' ≠ key := fun heq => hsec' rfl (congrArg some heq)
    simp only [read, update, set, hne, if_false]
  · exact setIn_of_ne t key v fun heq : key' = sec => hsec rfl (congrArg some heq.symm)
  · refine (read_setIn t sec key v sec' key').trans (if_neg ?_)
    rintro ⟨rfl, rfl⟩
    exact hname rfl

/-- What is read after some updates is what was set. -/
theorem read_updates (t : LuaTable) {us : List Update}
    (h : (us.map Update.name).Pairwise Nested.Separate) {u : Update} (hu : u ∈ us) :
    (us.foldl update t).read u.sec u.key = u.value.getD (t.read u.sec u.key) :=
  Nested.read_foldl (fun t n => t.read n.1 n.2) Update.name
    (fun t _ _ hsep => read_update_of_separate t hsep) (fun u v => u.value.getD v)
    read_update_self t h hu

/-- After some updates there is a section if there was one, or something is set in it. -/
theorem isTable_updates (t : LuaTable) {us : List Update} {sec : String}
    (h : ∀ u ∈ us, u.sec = none → u.key ≠ sec) :
    (us.foldl update t sec).isTable =
      ((t sec).isTable || us.any fun u => u.sec == some sec && u.value.isSome) := by
  induction us generalizing t with
  | nil => simp
  | cons u us ih =>
    obtain ⟨hu, h⟩ := List.forall_mem_cons.1 h
    have hstep : (t.update u sec).isTable =
        ((t sec).isTable || (u.sec == some sec && u.value.isSome)) := by
      rcases u with ⟨_ | sec', key, _ | v⟩
      · simp [update]
      · have hne : sec ≠ key := fun heq => hu rfl heq.symm
        simp [update, set, hne]
      · simp [update]
      · refine (isTable_setIn t sec' key v sec).trans ?_
        by_cases hsec : sec = sec'
        · simp [hsec]
        · simp [hsec, Ne.symm hsec]
    rw [List.foldl_cons, ih (t.update u) h, hstep, List.any_cons, Bool.or_assoc]

end LuaTable

/-! ## What a script changes -/

namespace Assignments

theorem map_name_updates (a : Assignments) : a.updates.map Update.name =
    [(some "font", "family"), (some "font", "size"), (some "font", "ligatures"),
      (none, "colors"), (some "shell", "program"), (none, "scrollback_lines"),
      (some "tab_bar", "enabled"), (some "tab_bar", "height"),
      (some "tab_bar", "active_tab_bg"), (some "tab_bar", "inactive_tab_bg"),
      (some "tab_bar", "separator"), (some "hooks", "on_pane_open"),
      (some "hooks", "on_pane_close"), (some "hooks", "on_session_start"),
      (some "hooks", "on_attach"), (some "hooks", "on_detach")] := rfl

theorem separate (a : Assignments) : (a.updates.map Update.name).Pairwise Nested.Separate := by
  rw [map_name_updates]
  decide

/-- The fields outside the sections. -/
theorem key_of_top (a : Assignments) {u : Update} (hu : u ∈ a.updates) (hsec : u.sec = none) :
    u.key = "colors" ∨ u.key = "scrollback_lines" := by
  have hnames : ∀ n ∈ a.updates.map Update.name,
      n.1 = none → n.2 = "colors" ∨ n.2 = "scrollback_lines" := by
    rw [map_name_updates]
    decide
  exact hnames _ (List.mem_map_of_mem hu) hsec

/-- The script sets a field of this section. -/
def touches (a : Assignments) (sec : String) : Bool :=
  a.updates.any fun u => u.sec == some sec && u.value.isSome

theorem read_run (a : Assignments) (t : LuaTable) (i : ℕ) {u : Update}
    (h : a.updates[i]? = some u) : (a.run t).read u.sec u.key = u.value.getD (t.read u.sec u.key) :=
  LuaTable.read_updates t a.separate (List.mem_of_getElem? h)

/-- The table has no other fields. -/
theorem read_run_args (a : Assignments) (t : LuaTable) :
    (a.run t).read (some "shell") "args" = t.read (some "shell") "args" := by
  refine Nested.read_foldl_of_separate (fun t n => LuaTable.read t n.1 n.2) Update.name
    (n := (some "shell", "args")) (fun t _ _ hsep => LuaTable.read_update_of_separate t hsep) t ?_
  rw [map_name_updates]
  decide

theorem isTable_run (a : Assignments) (t : LuaTable) {sec : String}
    (h : sec ≠ "colors" ∧ sec ≠ "scrollback_lines") :
    (a.run t sec).isTable = ((t sec).isTable || a.touches sec) := by
  refine LuaTable.isTable_updates t fun u hu hsec heq => ?_
  rcases a.key_of_top hu hsec with hkey | hkey
  · exact h.1 (heq.symm.trans hkey)
  · exact h.2 (heq.symm.trans hkey)

end Assignments

namespace LuaValue

variable (w : LuaValue)

theorem asString_getD (v : Option String) : ((v.map string).getD w).asString = v.or w.asString := by
  cases v <;> rfl

theorem asString_getD_ofOption (v : Option (Option String)) :
    ((v.map ofOption).getD w).asString = v.getD w.asString := by
  rcases v with _ | _ | s <;> rfl

theorem asF32_getD (v : Option F32) : ((v.map number).getD w).asF32 = v.or w.asF32 := by
  cases v <;> rfl

theorem asBool_getD (ofNil : Option Bool) (v : Option Bool) :
    ((v.map boolean).getD w).asBool ofNil = v.or (w.asBool ofNil) := by
  cases v <;> rfl

theorem asUsize_getD (v : Option ℕ) : ((v.map integer).getD w).asUsize = v.or w.asUsize := by
  cases v <;> rfl

theorem asU32_getD (v : Option UInt32) :
    ((v.map fun n => integer n.toNat).getD w).asU32 = v.or w.asU32 := by
  rcases v with _ | n
  · rfl
  · have hlt : n.toNat < 2 ^ 32 := n.toNat_lt
    exact (if_pos hlt).trans (congrArg some UInt32.ofNat_toNat)

end LuaValue

section

variable (ofNil : Option Bool) (c : Config ρ) (a : Assignments) (t : LuaTable)

/-! The merge of what a script has left in a table, by what was in the table before. -/

theorem font_apply_run : (applyLuaTableToConfig ofNil c (a.run t)).font =
    { c.font with
      family := (a.family.or (t.read (some "font") "family").asString).getD c.font.family
      size := (a.size.or (t.read (some "font") "size").asF32).getD c.font.size
      ligatures :=
        if (t "font").isTable || a.touches "font" then
          (a.ligatures.or ((t.read (some "font") "ligatures").asBool ofNil)).getD c.font.ligatures
        else c.font.ligatures } := by
  rw [← a.isTable_run t (by decide), ← LuaValue.asString_getD, ← LuaValue.asF32_getD,
    ← LuaValue.asBool_getD, ← a.read_run t 0 rfl, ← a.read_run t 1 rfl, ← a.read_run t 2 rfl]
  simp only [applyLuaTableToConfig, LuaTable.read]
  cases a.run t "font" <;> rfl

theorem colors_apply_run : (applyLuaTableToConfig ofNil c (a.run t)).colors =
    ((a.colors.or (t.read none "colors").asString).map parseColorScheme).getD c.colors := by
  rw [← LuaValue.asString_getD, ← a.read_run t 3 rfl]
  rfl

theorem shell_apply_run : (applyLuaTableToConfig ofNil c (a.run t)).shell =
    { program := (a.program.or (t.read (some "shell") "program").asString).getD c.shell.program
      args :=
        match t.read (some "shell") "args" with
        | .table _ items => if takeStrings items = [] then c.shell.args else takeStrings items
        | _ => c.shell.args } := by
  rw [← LuaValue.asString_getD, ← a.read_run t 4 rfl, ← a.read_run_args t]
  simp only [applyLuaTableToConfig, LuaTable.read]
  cases a.run t "shell" <;> rfl

theorem scrollbackLines_apply_run :
    (applyLuaTableToConfig ofNil c (a.run t)).scrollbackLines =
      (a.scrollbackLines.or (t.read none "scrollback_lines").asUsize).getD c.scrollbackLines := by
  rw [← LuaValue.asUsize_getD, ← a.read_run t 5 rfl]
  rfl

theorem tabBar_apply_run : (applyLuaTableToConfig ofNil c (a.run t)).tabBar =
    { c.tabBar with
      enabled :=
        if (t "tab_bar").isTable || a.touches "tab_bar" then
          (a.enabled.or ((t.read (some "tab_bar") "enabled").asBool ofNil)).getD c.tabBar.enabled
        else c.tabBar.enabled
      height := (a.height.or (t.read (some "tab_bar") "height").asU32).getD c.tabBar.height
      activeTabBg :=
        (a.activeTabBg.getD (t.read (some "tab_bar") "active_tab_bg").asString).or
          c.tabBar.activeTabBg
      inactiveTabBg :=
        (a.inactiveTabBg.getD (t.read (some "tab_bar") "inactive_tab_bg").asString).or
          c.tabBar.inactiveTabBg
      separator :=
        (a.separator.or (t.read (some "tab_bar") "separator").asString).getD
          c.tabBar.separator } := by
  rw [← a.isTable_run t (by decide), ← LuaValue.asBool_getD, ← LuaValue.asU32_getD,
    ← LuaValue.asString_getD, ← LuaValue.asString_getD_ofOption,
    ← LuaValue.asString_getD_ofOption, ← a.read_run t 6 rfl, ← a.read_run t 7 rfl,
    ← a.read_run t 8 rfl, ← a.read_run t 9 rfl, ← a.read_run t 10 rfl]
  simp only [applyLuaTableToConfig, LuaTable.read]
  cases a.run t "tab_bar" <;> rfl

theorem hooks_apply_run : (applyLuaTableToConfig ofNil c (a.run t)).hooks =
    if (t "hooks").isTable || a.touches "hooks" then
      { c.hooks with
        onPaneOpen := a.onPaneOpen.getD (t.read (some "hooks") "on_pane_open").asString
        onPaneClose := a.onPaneClose.getD (t.read (some "hooks") "on_pane_close").asString
        onSessionStart :=
          a.onSessionStart.getD (t.read (some "hooks") "on_session_start").asString
        onAttach := a.onAttach.getD (t.read (some "hooks") "on_attach").asString
        onDetach := a.onDetach.getD (t.read (some "hooks") "on_detach").asString }
    else c.hooks := by
  simp only [← LuaValue.asString_getD_ofOption]
  rw [← a.isTable_run t (by decide), ← a.read_run t 11 rfl, ← a.read_run t 12 rfl,
    ← a.read_run t 13 rfl, ← a.read_run t 14 rfl, ← a.read_run t 15 rfl]
  simp only [applyLuaTableToConfig, LuaTable.read]
  cases a.run t "hooks" <;> rfl

theorem apply_eta : (applyLuaTableToConfig ofNil c t) =
    { c with
      font := (applyLuaTableToConfig ofNil c t).font
      colors := (applyLuaTableToConfig ofNil c t).colors
      shell := (applyLuaTableToConfig ofNil c t).shell
      scrollbackLines := (applyLuaTableToConfig ofNil c t).scrollbackLines
      tabBar := (applyLuaTableToConfig ofNil c t).tabBar
      hooks := (applyLuaTableToConfig ofNil c t).hooks } := rfl

end

/-! ## Frame -/

section

variable (ofNil : Option Bool) (c : Config ρ) (a : Assignments)

theorem or_eq_getD_iff {α : Type} (v : Option (Option α)) (x : Option α) :
    (v.getD x).or x = v.getD x ↔ (v = some none → x = none) := by
  rcases v with _ | _ | y <;> cases x <;> simp

/-- The exported name of a scheme is read as that scheme; a palette has no name. -/
theorem parseColorScheme_schemeStr (s : ColorScheme) :
    parseColorScheme (schemeStr s) = s ↔ ∃ b, s = .builtin b := by
  rcases s with b | p
  · refine iff_of_true ?_ ⟨b, rfl⟩
    cases b <;> decide +kernel
  · simp [parseColorScheme]

/-- What is read in the exported table. -/
theorem exported :
    ((configToLuaTable c "font").isTable = true ∧
      ((configToLuaTable c).read (some "font") "family").asString = some c.font.family ∧
      ((configToLuaTable c).read (some "font") "size").asF32 = some c.font.size ∧
      ((configToLuaTable c).read (some "font") "ligatures").asBool ofNil =
        some c.font.ligatures) ∧
    ((configToLuaTable c).read none "colors").asString = some (schemeStr c.colors) ∧
    (((configToLuaTable c).read (some "shell") "program").asString = some c.shell.program ∧
      (configToLuaTable c).read (some "shell") "args" = .nil) ∧
    ((configToLuaTable c).read none "scrollback_lines").asUsize = some c.scrollbackLines ∧
    ((configToLuaTable c "tab_bar").isTable = true ∧
      ((configToLuaTable c).read (some "tab_bar") "enabled").asBool ofNil =
        some c.tabBar.enabled ∧
      ((configToLuaTable c).read (some "tab_bar") "height").asU32 = some c.tabBar.height ∧
      ((configToLuaTable c).read (some "tab_bar") "active_tab_bg").asString =
        c.tabBar.activeTabBg ∧
      ((configToLuaTable c).read (some "tab_bar") "inactive_tab_bg").asString =
        c.tabBar.inactiveTabBg ∧
      ((configToLuaTable c).read (some "tab_bar") "separator").asString =
        some c.tabBar.separator) ∧
    ((configToLuaTable c "hooks").isTable = true ∧
      ((configToLuaTable c).read (some "hooks") "on_pane_open").asString = c.hooks.onPaneOpen ∧
      ((configToLuaTable c).read (some "hooks") "on_pane_close").asString = c.hooks.onPaneClose ∧
      ((configToLuaTable c).read (some "hooks") "on_session_start").asString =
        c.hooks.onSessionStart ∧
      ((configToLuaTable c).read (some "hooks") "on_attach").asString = c.hooks.onAttach ∧
      ((configToLuaTable c).read (some "hooks") "on_detach").asString = c.hooks.onDetach) := by
  have hopt : ∀ s : Option String, (LuaValue.ofOption s).asString = s := by
    rintro (_ | s) <;> rfl
  have hheight : (LuaValue.integer c.tabBar.height.toNat).asU32 = some c.tabBar.height :=
    (if_pos c.tabBar.height.toNat_lt).trans (congrArg some UInt32.ofNat_toNat)
  exact ⟨⟨rfl, rfl, rfl, rfl⟩, rfl, ⟨rfl, rfl⟩, rfl,
    ⟨rfl, rfl, hheight, hopt _, hopt _, rfl⟩, rfl, hopt _, hopt _, hopt _, hopt _, hopt _⟩

/-- The exported table. -/
theorem exported_iff : applyLuaTableToConfig ofNil c (a.run (configToLuaTable c)) = c.assign a ↔
    (a.colors = none → ∃ b, c.colors = .builtin b) ∧
      (a.activeTabBg = some none → c.tabBar.activeTabBg = none) ∧
      (a.inactiveTabBg = some none → c.tabBar.inactiveTabBg = none) := by
  obtain ⟨hfont, hcolors, hshell, hscrollback, htabBar, hhooks⟩ := exported ofNil c
  have hscheme : parseColorScheme (a.colors.getD (schemeStr c.colors)) =
      (a.colors.map parseColorScheme).getD c.colors ↔
        (a.colors = none → ∃ b, c.colors = .builtin b) := by
    rw [← parseColorScheme_schemeStr]
    cases a.colors <;> simp
  rw [apply_eta, font_apply_run, colors_apply_run, shell_apply_run,
    scrollbackLines_apply_run, tabBar_apply_run, hooks_apply_run]
  simp [Config.assign, hfont, hcolors, hshell, hscrollback, htabBar, hhooks, or_eq_getD_iff,
    hscheme]

theorem getD_none_or_eq_getD_iff {α : Type} (v : Option (Option α)) (x : Option α) :
    (v.getD none).or x = v.getD x ↔ (v = some none → x = none) := by
  rcases v with _ | _ | y <;> cases x <;> simp

theorem getD_none_eq_getD_iff {α : Type} (v : Option (Option α)) (x : Option α) :
    v.getD none = v.getD x ↔ (v = none → x = none) := by
  cases v <;> simp [eq_comm]

theorem ite_or_eq_getD_iff {α : Type} {touched : Bool} {v : Option α} (w : Option α) (x : α)
    (h : touched = false → v = none) :
    (if touched then (v.or w).getD x else x) = v.getD x ↔
      (touched = true → v = none → w.getD x = x) := by
  rcases touched with _ | _
  · simp [h rfl]
  · cases v <;> simp

variable {a} in
theorem Assignments.eq_none_of_not_touches {sec : String} (h : a.touches sec = false) (i : ℕ)
    {u : Update} (hu : a.updates[i]? = some u) (hsec : u.sec = some sec) : u.value = none := by
  have hany := List.any_eq_false.1 h u (List.mem_of_getElem? hu)
  simpa [hsec] using hany

/-- In a table of the script's own, a section of hooks sets them all. -/
theorem hooks_partial_iff :
    (if a.touches "hooks" then
      { c.hooks with
        onPaneOpen := a.onPaneOpen.getD none
        onPaneClose := a.onPaneClose.getD none
        onSessionStart := a.onSessionStart.getD none
        onAttach := a.onAttach.getD none
        onDetach := a.onDetach.getD none }
    else c.hooks) = (c.assign a).hooks ↔
      (a.touches "hooks" = true →
        (a.onPaneOpen = none → c.hooks.onPaneOpen = none) ∧
        (a.onPaneClose = none → c.hooks.onPaneClose = none) ∧
        (a.onSessionStart = none → c.hooks.onSessionStart = none) ∧
        (a.onAttach = none → c.hooks.onAttach = none) ∧
        (a.onDetach = none → c.hooks.onDetach = none)) := by
  cases h : a.touches "hooks"
  · have hnone := fun i u hu hsec => Assignments.eq_none_of_not_touches h i (u := u) hu hsec
    have h₁ : a.onPaneOpen = none := Option.map_eq_none_iff.1 (hnone 11 _ rfl rfl)
    have h₂ : a.onPaneClose = none := Option.map_eq_none_iff.1 (hnone 12 _ rfl rfl)
    have h₃ : a.onSessionStart = none := Option.map_eq_none_iff.1 (hnone 13 _ rfl rfl)
    have h₄ : a.onAttach = none := Option.map_eq_none_iff.1 (hnone 14 _ rfl rfl)
    have h₅ : a.onDetach = none := Option.map_eq_none_iff.1 (hnone 15 _ rfl rfl)
    simp [Config.assign, h₁, h₂, h₃, h₄, h₅]
  · simp [Config.assign, getD_none_eq_getD_iff]

/-- A table of the script's own. -/
theorem partial_iff : applyLuaTableToConfig ofNil c (a.run LuaTable.empty) = c.assign a ↔
    (a.touches "font" = true → a.ligatures = none →
      ofNil.getD c.font.ligatures = c.font.ligatures) ∧
    ((a.touches "tab_bar" = true → a.enabled = none →
        ofNil.getD c.tabBar.enabled = c.tabBar.enabled) ∧
      (a.activeTabBg = some none → c.tabBar.activeTabBg = none) ∧
      (a.inactiveTabBg = some none → c.tabBar.inactiveTabBg = none)) ∧
    (a.touches "hooks" = true →
      (a.onPaneOpen = none → c.hooks.onPaneOpen = none) ∧
      (a.onPaneClose = none → c.hooks.onPaneClose = none) ∧
      (a.onSessionStart = none → c.hooks.onSessionStart = none) ∧
      (a.onAttach = none → c.hooks.onAttach = none) ∧
      (a.onDetach = none → c.hooks.onDetach = none)) := by
  have hnil : ∀ sec key, LuaTable.empty.read sec key = .nil := by
    rintro (_ | sec) key <;> rfl
  have hsec : ∀ sec, (LuaTable.empty sec).isTable = false := fun _ => rfl
  have hligatures : a.touches "font" = false → a.ligatures = none := fun h =>
    Option.map_eq_none_iff.1 (Assignments.eq_none_of_not_touches h 2 rfl rfl)
  have henabled : a.touches "tab_bar" = false → a.enabled = none := fun h =>
    Option.map_eq_none_iff.1 (Assignments.eq_none_of_not_touches h 6 rfl rfl)
  rw [← hooks_partial_iff, apply_eta, font_apply_run, colors_apply_run, shell_apply_run,
    scrollbackLines_apply_run, tabBar_apply_run, hooks_apply_run]
  simp only [Config.assign, hnil, hsec, LuaValue.asString, LuaValue.asF32, LuaValue.asBool,
    LuaValue.asUsize, LuaValue.asU32, Option.or_none, Bool.false_or, Config.mk.injEq,
    FontConfig.mk.injEq, TabBarConfig.mk.injEq, true_and, and_true, getD_none_or_eq_getD_iff,
    ite_or_eq_getD_iff _ _ hligatures, ite_or_eq_getD_iff _ _ henabled]

/-- What the script leaves alone survives, in the exported table and in one of its own: nothing
    that is not exported (a palette) or that cannot be unset (a color of the tab bar), and in a
    partial section no boolean that nil would overwrite and no hook. -/
structure Kept (ofNil : Option Bool) (c : Config ρ) (a : Assignments) : Prop where
  colors : a.colors = none → ∃ b, c.colors = .builtin b
  activeTabBg : a.activeTabBg = some none → c.tabBar.activeTabBg = none
  inactiveTabBg : a.inactiveTabBg = some none → c.tabBar.inactiveTabBg = none
  ligatures : a.touches "font" = true → a.ligatures = none →
    ofNil.getD c.font.ligatures = c.font.ligatures
  enabled : a.touches "tab_bar" = true → a.enabled = none →
    ofNil.getD c.tabBar.enabled = c.tabBar.enabled
  hooks : a.touches "hooks" = true →
    (a.onPaneOpen = none → c.hooks.onPaneOpen = none) ∧
    (a.onPaneClose = none → c.hooks.onPaneClose = none) ∧
    (a.onSessionStart = none → c.hooks.onSessionStart = none) ∧
    (a.onAttach = none → c.hooks.onAttach = none) ∧
    (a.onDetach = none → c.hooks.onDetach = none)

/-- Exactly the assigned fields change, whichever table the script sets them in, if and only if
    nothing the merge cannot keep is there. -/
theorem lua_frame_iff :
    applyLuaTableToConfig ofNil c (a.run (configToLuaTable c)) = c.assign a ∧
      applyLuaTableToConfig ofNil c (a.run LuaTable.empty) = c.assign a ↔ Kept ofNil c a := by
  rw [exported_iff, partial_iff]
  constructor
  · rintro ⟨⟨hcolors, hactive, hinactive⟩, hligatures, ⟨henabled, -, -⟩, hhooks⟩
    exact ⟨hcolors, hactive, hinactive, hligatures, henabled, hhooks⟩
  · rintro ⟨hcolors, hactive, hinactive, hligatures, henabled, hhooks⟩
    exact ⟨⟨hcolors, hactive, hinactive⟩, hligatures, ⟨henabled, hactive, hinactive⟩, hhooks⟩

end

/-- No assignment. -/
def Assignments.nothing : Assignments :=
  { family := none, size := none, ligatures := none, colors := none, program := none,
    scrollbackLines := none, enabled := none, height := none, activeTabBg := none,
    inactiveTabBg := none, separator := none, onPaneOpen := none, onPaneClose := none,
    onSessionStart := none, onAttach := none, onDetach := none }

/-- A configuration with a palette, and a hook. -/
def paletteConfig : Config Unit :=
  { configErrors := []
    font := { family := "JetBrains Mono", size := 0x41600000, ligatures := true,
              fontFallbacks := [] }
    colors := .custom { foreground := "#CCCCCC", background := "#000000", cursor := "#FFFFFF",
                        ansi := [] }
    shell := { program := "/bin/sh", args := [] }
    scrollbackLines := 10000
    tabBar := { enabled := true, height := 28, activeTabBg := none, inactiveTabBg := none,
                separator := "|", activityTabBg := none, activeAccentColor := none,
                showTabNumber := true, inactiveTextBrightness := 0x3F000000,
                hoverHighlight := true, hideWhenSingle := false, showNewTabButton := true,
                showProcessIcon := true }
    hosts := []
    log := { autoLog := false, logDir := none, timestamp := false, stripAnsi := false,
             fileNameTemplate := none, binaryLog := false }
    hooks := { onPaneOpen := some "notify", onPaneClose := none, onSessionStart := none,
               onAttach := none, onDetach := none, luaOnPaneOpen := none, luaOnPaneClose := none,
               luaOnSessionStart := none, luaOnAttach := none, luaOnDetach := none }
    rest := () }

/-- The exported table alone takes the palette away; a table with one hook takes the other. -/
theorem not_frame_palette :
    applyLuaTableToConfig (some false) paletteConfig
        (Assignments.nothing.run (configToLuaTable paletteConfig)) ≠ paletteConfig.assign .nothing ∧
      (applyLuaTableToConfig (some false) paletteConfig
          (Assignments.run { Assignments.nothing with onPaneClose := some (some "bye") }
            LuaTable.empty)).hooks.onPaneOpen = none := by
  refine ⟨fun heq => ?_, by decide +kernel⟩
  have hcolors := congrArg Config.colors heq
  revert hcolors
  decide +kernel

end Nexterm.Settings

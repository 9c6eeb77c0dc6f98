/-
  The settings round trip: load, edit, save, load again.

  * `fallbackNames`, `shellWords`: lists that are edited as one text.
  * `Representable`: the panels that are read back as they were saved.
  * `Plain`: the documents that are saved without a change.
  * `round_trip_iff`: saving keeps the panel, or without an edit the configuration, in these cases
    and no other.
-/
import Nexterm.Lib.Join
import Nexterm.Settings.Keybindings
import Nexterm.Settings.Reloaded

namespace Nexterm.Settings

open Toml (Table Item)

variable {ρ : Type}

/-! ## Joined texts -/

/-- A name of a font that survives the joined text. -/
def FallbackName (s : String) : Prop := s ≠ "" ∧ ',' ∉ s.toList ∧ Vt.trim s = s

/-- An argument of the shell that survives the joined text. -/
def ShellWord (s : String) : Prop := s ≠ "" ∧ ∀ ch ∈ s.toList, Vt.isWhitespace ch = false

def fallbackNames : Join String String :=
  (Join.stripped Vt.isWhitespace ',' [' ']
    (List.forall_mem_singleton.2 ⟨rfl, by simp⟩)).strings

def shellWords : Join String String := (Join.words Vt.isWhitespace ' ' Vt.isWhitespace_space).strings

theorem toList_ne_nil {s : String} : s.toList ≠ [] ↔ s ≠ "" := by
  rw [Ne, Ne, String.toList_eq_nil_iff]

theorem good_fallbackNames (s : String) : fallbackNames.Good s ↔ FallbackName s := by
  have htrim : Vt.trim s = String.ofList (Join.strip Vt.isWhitespace s.toList) := rfl
  have hfix : Join.strip Vt.isWhitespace s.toList = s.toList ↔ Vt.trim s = s := by
    rw [htrim, ← String.toList_inj, String.toList_ofList]
  exact and_congr toList_ne_nil (and_congr_right' hfix)

theorem good_shellWords (s : String) : shellWords.Good s ↔ ShellWord s :=
  and_congr_left' toList_ne_nil

theorem isEmpty_eq (cs : List Char) : (!cs.isEmpty) = decide (String.ofList cs ≠ "") := by
  rw [Bool.eq_iff_iff, decide_eq_true_eq, ← toList_ne_nil, String.toList_ofList]
  simp

theorem fontFallbacksList_eq (text : String) :
    SettingsPanel.fontFallbacksList text = fallbackNames.split text := by
  have htrim : Vt.trim ∘ String.ofList = String.ofList ∘ Join.strip Vt.isWhitespace := by
    ext1 cs
    rw [Function.comp_apply, Vt.trim, String.toList_ofList]
    rfl
  show ((Vt.splitAt ',' text).map Vt.trim).filter (· ≠ "") =
    (((text.toList.splitOn ',').map (Join.strip Vt.isWhitespace)).filter (!·.isEmpty)).map
      String.ofList
  rw [Vt.splitAt, List.map_map, htrim, ← List.map_map, List.filter_map]
  congr 2
  ext1 cs
  exact (isEmpty_eq cs).symm

theorem splitWhitespace_eq (text : String) :
    SettingsPanel.splitWhitespace text = shellWords.split text := by
  show ((text.toList.splitOnP Vt.isWhitespace).filter (· ≠ [])).map String.ofList =
    ((text.toList.splitOnP Vt.isWhitespace).filter (!·.isEmpty)).map String.ofList
  congr 2
  ext1 cs
  cases cs <;> rfl

theorem join_fallbacks (l : List String) : ", ".intercalate l = fallbackNames.join l := by
  rw [← String.ofList_toList (s := ", ".intercalate l), String.toList_intercalate]
  rfl

theorem join_args (l : List String) : " ".intercalate l = shellWords.join l := by
  rw [← String.ofList_toList (s := " ".intercalate l), String.toList_intercalate]
  rfl

/-- A list of names comes back from its text if and only if each of them survives. -/
theorem fontFallbacksList_join (names : List String) :
    SettingsPanel.fontFallbacksList (", ".intercalate names) = names ↔
      ∀ s ∈ names, FallbackName s := by
  rw [fontFallbacksList_eq, join_fallbacks, fallbackNames.split_join_iff]
  exact forall₂_congr fun s _ => good_fallbackNames s

theorem splitWhitespace_join (args : List String) :
    SettingsPanel.splitWhitespace (" ".intercalate args) = args ↔ ∀ s ∈ args, ShellWord s := by
  rw [splitWhitespace_eq, join_args, shellWords.split_join_iff]
  exact forall₂_congr fun s _ => good_shellWords s

/-- A text comes back from its names if and only if it is one that joining gives. -/
theorem join_fontFallbacksList (text : String) :
    ", ".intercalate (SettingsPanel.fontFallbacksList text) = text ↔
      ∃ names, (∀ s ∈ names, FallbackName s) ∧ ", ".intercalate names = text := by
  simp only [fontFallbacksList_eq, join_fallbacks, ← good_fallbackNames]
  exact fallbackNames.join_split_iff text

theorem join_splitWhitespace (text : String) :
    " ".intercalate (SettingsPanel.splitWhitespace text) = text ↔
      ∃ args, (∀ s ∈ args, ShellWord s) ∧ " ".intercalate args = text := by
  simp only [splitWhitespace_eq, join_args, ← good_shellWords]
  exact shellWords.join_split_iff text

/-! ## Indices -/

theorem schemeIndex_iff (i : ℕ) :
    schemeNameToIndex (.builtin (BuiltinScheme.all.getD (i % BuiltinScheme.all.length) .dark)) = i ↔
      i < BuiltinScheme.all.length := by
  have hindex : ∀ j < BuiltinScheme.all.length,
      schemeNameToIndex (.builtin (BuiltinScheme.all.getD j .dark)) = j := by
    decide
  rw [hindex _ (Nat.mod_lt i (by decide)), Nat.mod_eq_iff_lt (by decide)]

theorem languageIndex_iff (i : ℕ) :
    (languageOptions.idxOf? ((languageOptions[i]?).getD "auto")).getD 0 = i ↔
      i < languageOptions.length := by
  constructor
  · intro h
    by_contra hge
    rw [List.getElem?_eq_none (Nat.le_of_not_lt hge), Option.getD_none] at h
    have hzero : (languageOptions.idxOf? "auto").getD 0 = 0 := rfl
    rw [hzero] at h
    subst h
    exact hge (by decide)
  · revert i
    decide +kernel

theorem isFinite_default : F32.isFinite 0x3F733333 = true := by
  decide +kernel

theorem finiteOr_eq_iff (x : F32) : finiteOr x 0x3F733333 = x ↔ x.isFinite = true := by
  unfold finiteOr
  split
  · rename_i h
    exact iff_of_true rfl h
  · rename_i h
    refine iff_of_false (fun heq => h ?_) h
    rw [← heq]
    exact isFinite_default

theorem orElse_eq_iff {s t : String} : (if s = "" then t else s) = s ↔ (s = "" → t = "") := by
  split
  · rename_i h
    simp [h]
  · rename_i h
    exact iff_of_true rfl fun heq => absurd heq h

section

variable {α : Type} (name : α → String)

/-- One more than the index of the first element of this name; 0 if there is none. -/
def indexOfName (l : List α) (n : Option String) : ℕ :=
  (n.bind fun n => (l.findIdx? (name · = n)).map (· + 1)).getD 0

/-- The name at an index from 1. -/
def nameAt (l : List α) (i : ℕ) : Option String := if i = 0 then none else (l[i - 1]?).map name

theorem indexOfName_nameAt (l : List α) (i : ℕ) : indexOfName name l (nameAt name l i) = i ↔
    ∀ j, i = j + 1 → ∃ a, l[j]? = some a ∧ ∀ k < j, ∀ b, l[k]? = some b → name b ≠ name a := by
  rcases i with _ | j
  · exact iff_of_true rfl nofun
  · simp only [nameAt, Nat.add_one_ne_zero, if_false, Nat.add_sub_cancel, Nat.add_right_cancel_iff,
      forall_eq']
    cases ha : l[j]? with
    | none => simp [indexOfName]
    | some a =>
      obtain ⟨hlt, hget⟩ := List.getElem?_eq_some_iff.1 ha
      have hindex : indexOfName name l (some (name a)) = j + 1 ↔
          l.findIdx? (name · = name a) = some j := by
        show ((l.findIdx? (name · = name a)).map (· + 1)).getD 0 = j + 1 ↔ _
        cases l.findIdx? (name · = name a) <;> simp
      rw [Option.map_some, hindex, List.findIdx?_eq_some_iff_getElem]
      constructor
      · rintro ⟨_, -, hfirst⟩
        refine ⟨a, rfl, fun k hk b hb hname => hfirst k hk ?_⟩
        obtain ⟨_, rfl⟩ := List.getElem?_eq_some_iff.1 hb
        exact decide_eq_true hname
      · rintro ⟨_, ⟨⟩, hfirst⟩
        refine ⟨hlt, decide_eq_true (congrArg name hget), fun k hk hname => ?_⟩
        have hkl : k < l.length := Nat.lt_trans hk hlt
        exact hfirst k hk _ (List.getElem?_eq_getElem hkl) (of_decide_eq_true hname)

theorem nameAt_indexOfName (l : List α) (n : Option String) :
    nameAt name l (indexOfName name l n) = n ↔ ∀ s, n = some s → ∃ a ∈ l, name a = s := by
  rcases n with _ | s
  · exact iff_of_true rfl nofun
  · simp only [Option.some.injEq, forall_eq']
    cases hs : l.findIdx? (name · = s) with
    | none =>
      rw [List.findIdx?_eq_none_iff] at hs
      have hindex : indexOfName name l (some s) = 0 := by
        simp [indexOfName, List.findIdx?_eq_none_iff.2 hs]
      rw [hindex]
      refine iff_of_false nofun ?_
      rintro ⟨a, ha, hname⟩
      exact of_decide_eq_false (hs a ha) hname
    | some i =>
      have hindex : indexOfName name l (some s) = i + 1 := by
        simp [indexOfName, hs]
      obtain ⟨hlt, hname, -⟩ := List.findIdx?_eq_some_iff_getElem.1 hs
      have hname' : name l[i] = s := of_decide_eq_true hname
      refine iff_of_true ?_ ⟨l[i], List.getElem_mem hlt, hname'⟩
      rw [hindex, nameAt, if_neg (Nat.succ_ne_zero i), Nat.add_sub_cancel,
        List.getElem?_eq_getElem hlt, Option.map_some, hname']

end

/-! ## Hosts -/

/-- A host as the panel shows it. -/
def entryOf (h : HostConfig) : SshHostEntry :=
  { name := h.name, host := h.host, port := h.port, username := h.username, authType := h.authType }

/-- A host with nothing that the panel does not manage. -/
structure OnlyManaged (h : HostConfig) : Prop where
  keyPath : h.keyPath = none
  forwardLocal : h.forwardLocal = []
  forwardRemote : h.forwardRemote = []
  proxyJump : h.proxyJump = none
  x11Forward : h.x11Forward = false
  x11Trusted : h.x11Trusted = false
  group : h.group = ""
  tags : h.tags = []

theorem newHost_entryOf_iff (h : HostConfig) : newHost (entryOf h) = h ↔ OnlyManaged h := by
  rcases h with ⟨name, host, port, username, authType, keyPath, forwardLocal, forwardRemote,
    proxyJump, x11Forward, x11Trusted, group, tags⟩
  constructor
  · intro heq
    injection heq with _ _ _ _ _ hkey hlocal hremote hproxy hforward htrusted hgroup htags
    exact ⟨hkey.symm, hlocal.symm, hremote.symm, hproxy.symm, hforward.symm, htrusted.symm,
      hgroup.symm, htags.symm⟩
  · rintro ⟨⟨⟩, ⟨⟩, ⟨⟩, ⟨⟩, ⟨⟩, ⟨⟩, ⟨⟩, ⟨⟩⟩
    rfl

/-- The panel shows the hosts that it has written. -/
theorem map_entryOf_reloadedHosts (entries : List SshHostEntry) (hosts : List HostConfig) :
    (reloadedHosts entries hosts).map entryOf = entries := by
  induction entries generalizing hosts with
  | nil => rfl
  | cons entry entries ih =>
    rcases hosts with _ | ⟨h, hosts⟩
    · exact congrArg (entry :: ·) (ih [])
    · exact congrArg (entry :: ·) (ih hosts)

theorem reloadedHosts_self (hosts : List HostConfig) :
    reloadedHosts (hosts.map entryOf) hosts = hosts := by
  induction hosts with
  | nil => rfl
  | cons h hosts ih => exact congrArg (h :: ·) ih

theorem reloadedHosts_nil (hosts : List HostConfig) :
    reloadedHosts (hosts.map entryOf) [] = hosts ↔ ∀ h ∈ hosts, OnlyManaged h := by
  induction hosts with
  | nil => exact iff_of_true rfl (List.forall_mem_nil _)
  | cons h hosts ih =>
    rw [List.map_cons, reloadedHosts, List.cons_eq_cons, ih, newHost_entryOf_iff,
      List.forall_mem_cons]

theorem reloadedHosts_iff (item : Option Item) (hosts : List HostConfig) :
    reloadedHosts (hosts.map entryOf) (keptHosts item hosts) = hosts ↔
      (∃ rows, item = some (.arrayOfTables rows)) ∨ ∀ h ∈ hosts, OnlyManaged h := by
  by_cases harray : ∃ rows, item = some (.arrayOfTables rows)
  · obtain ⟨rows, rfl⟩ := harray
    exact iff_of_true (reloadedHosts_self hosts) (.inl ⟨rows, rfl⟩)
  · have hnone : keptHosts item hosts = [] := by
      unfold keptHosts
      split
      · exact absurd ⟨_, rfl⟩ harray
      · rfl
    rw [hnone, reloadedHosts_nil, or_iff_right harray]

/-! ## The panel -/

/-- A panel, opened with `c`, that is read back as it was saved. -/
structure Representable (c : Config (Extra ρ)) (p : SettingsPanel) : Prop where
  fontFamily : p.fontFamily = "" → c.font.family = ""
  leaderKey : p.leaderKey = "" → c.rest.leaderKey = ""
  shellProgram : p.shellProgram = "" → c.shell.program = ""
  schemeIndex : p.schemeIndex < BuiltinScheme.all.length
  languageIndex : p.languageIndex < languageOptions.length
  opacity : p.opacity.isFinite = true
  paddingX : p.paddingX ≤ 32
  paddingY : p.paddingY ≤ 32
  keybindings : p.keybindings = (SettingsPanel.ofConfig c).keybindings
  profiles : p.profiles = (SettingsPanel.ofConfig c).profiles
  fontFallbacks : ∃ names, (∀ s ∈ names, FallbackName s) ∧
    ", ".intercalate names = p.fontFallbacksText
  shellArgs : ∃ args, (∀ s ∈ args, ShellWord s) ∧ " ".intercalate args = p.shellArgs
  /-- No profile, or the first of its name. -/
  activeProfile : ∀ i, p.activeProfileIndex = i + 1 → ∃ a, p.profiles[i]? = some a ∧
    ∀ k < i, ∀ b, p.profiles[k]? = some b → b.name ≠ a.name
  sizes : SizesFit p

theorem min_eq_iff (x : UInt32) : min x 32 = x ↔ x ≤ 32 := by
  show (if x ≤ 32 then x else 32) = x ↔ x ≤ 32
  split
  · rename_i h
    exact iff_of_true rfl h
  · rename_i h
    refine iff_of_false ?_ h
    rintro rfl
    exact h (by decide)

theorem activeProfileIndex_ofConfig (c : Config (Extra ρ)) :
    (SettingsPanel.ofConfig c).activeProfileIndex =
      indexOfName ProfileEntry.name (SettingsPanel.ofConfig c).profiles c.rest.activeProfile := by
  unfold indexOfName SettingsPanel.ofConfig
  simp only [List.findIdx?_map]
  rfl

theorem activeProfileName_eq (p : SettingsPanel) :
    p.activeProfileName = nameAt ProfileEntry.name p.profiles p.activeProfileIndex := rfl

/-- The panel after saving and loading; the other fields are as they were. -/
theorem ofConfig_reloaded (doc : Table) (c : Config (Extra ρ)) (p : SettingsPanel) :
    SettingsPanel.ofConfig (reloaded doc c p) =
      { p with
        schemeIndex := schemeNameToIndex
          (.builtin (BuiltinScheme.all.getD (p.schemeIndex % BuiltinScheme.all.length) .dark))
        opacity := finiteOr p.opacity 0x3F733333
        fontFamily := if p.fontFamily = "" then c.font.family else p.fontFamily
        profiles := (SettingsPanel.ofConfig c).profiles
        keybindings := (SettingsPanel.ofConfig c).keybindings
        languageIndex :=
          (languageOptions.idxOf? ((languageOptions[p.languageIndex]?).getD "auto")).getD 0
        paddingX := min p.paddingX 32
        paddingY := min p.paddingY 32
        fontFallbacksText := ", ".intercalate (SettingsPanel.fontFallbacksList p.fontFallbacksText)
        leaderKey := if p.leaderKey = "" then c.rest.leaderKey else p.leaderKey
        shellProgram := if p.shellProgram = "" then c.shell.program else p.shellProgram
        shellArgs := " ".intercalate (SettingsPanel.splitWhitespace p.shellArgs)
        activeProfileIndex := indexOfName ProfileEntry.name (SettingsPanel.ofConfig c).profiles
          p.activeProfileName } := by
  have hhosts : (SshPanel.ofHosts (reloaded doc c p).hosts).sshHosts = p.sshHosts :=
    map_entryOf_reloadedHosts p.sshHosts _
  have hactive := activeProfileIndex_ofConfig (reloaded doc c p)
  have hset : ∀ (q : SettingsPanel) {hosts : List SshHostEntry} {i : ℕ}, q.sshHosts = hosts →
      q.activeProfileIndex = i → q = { q with sshHosts := hosts, activeProfileIndex := i } := by
    rintro q _ _ rfl rfl
    rfl
  exact (hset _ hhosts hactive).trans rfl

theorem ofConfig_reloaded_iff (doc : Table) (c : Config (Extra ρ)) {p : SettingsPanel}
    (hsizes : SizesFit p) :
    SettingsPanel.ofConfig (reloaded doc c p) = p ↔ Representable c p := by
  rw [ofConfig_reloaded]
  constructor
  · intro h
    have hprofiles : (SettingsPanel.ofConfig c).profiles = p.profiles :=
      (congrArg SettingsPanel.profiles h :)
    have hactive : indexOfName ProfileEntry.name (SettingsPanel.ofConfig c).profiles
        p.activeProfileName = p.activeProfileIndex := (congrArg SettingsPanel.activeProfileIndex h :)
    rw [hprofiles, activeProfileName_eq] at hactive
    exact
      { fontFamily := orElse_eq_iff.1 (congrArg SettingsPanel.fontFamily h)
        leaderKey := orElse_eq_iff.1 (congrArg SettingsPanel.leaderKey h)
        shellProgram := orElse_eq_iff.1 (congrArg SettingsPanel.shellProgram h)
        schemeIndex := (schemeIndex_iff _).1 (congrArg SettingsPanel.schemeIndex h)
        languageIndex := (languageIndex_iff _).1 (congrArg SettingsPanel.languageIndex h)
        opacity := (finiteOr_eq_iff _).1 (congrArg SettingsPanel.opacity h)
        paddingX := (min_eq_iff _).1 (congrArg SettingsPanel.paddingX h)
        paddingY := (min_eq_iff _).1 (congrArg SettingsPanel.paddingY h)
        keybindings := (congrArg SettingsPanel.keybindings h).symm
        profiles := hprofiles.symm
        fontFallbacks := (join_fontFallbacksList _).1 (congrArg SettingsPanel.fontFallbacksText h)
        shellArgs := (join_splitWhitespace _).1 (congrArg SettingsPanel.shellArgs h)
        activeProfile := (indexOfName_nameAt _ _ _).1 hactive
        sizes := hsizes }
  · intro h
    rw [(schemeIndex_iff _).2 h.schemeIndex, (finiteOr_eq_iff _).2 h.opacity,
      orElse_eq_iff.2 h.fontFamily, orElse_eq_iff.2 h.leaderKey, orElse_eq_iff.2 h.shellProgram,
      (languageIndex_iff _).2 h.languageIndex, (min_eq_iff _).2 h.paddingX,
      (min_eq_iff _).2 h.paddingY, (join_fontFallbacksList _).2 h.fontFallbacks,
      (join_splitWhitespace _).2 h.shellArgs, ← h.profiles, ← h.keybindings, activeProfileName_eq,
      (indexOfName_nameAt _ _ _).2 h.activeProfile]

/-! ## The configuration -/

/-- A document, loaded to `c`, that a panel without an edit leaves as it is. -/
structure Plain (doc : Table) (c : Config (Extra ρ)) : Prop where
  builtin : ∃ b, c.colors = .builtin b
  paddingX : c.rest.window.paddingX ≤ 32
  paddingY : c.rest.window.paddingY ≤ 32
  fontFallbacks : ∀ s ∈ c.font.fontFallbacks, FallbackName s
  shellArgs : ∀ s ∈ c.shell.args, ShellWord s
  language : c.rest.language ∈ languageOptions
  /-- No profile, or one that is there. -/
  activeProfile : ∀ s, c.rest.activeProfile = some s → ∃ a ∈ c.rest.profiles, a.name = s
  /-- The section is there: its defaults are not those of a missing one. -/
  gpu : (doc "gpu").isSome = true
  hosts : (∃ rows, doc "hosts" = some (.arrayOfTables rows)) ∨ ∀ h ∈ c.hosts, OnlyManaged h

theorem asNat_lt {bound n : ℕ} {item : Item} (h : item.asNat bound = some n) : n < bound := by
  cases item with
  | integer k =>
    rw [Item.asNat] at h
    split at h
    · rename_i hk
      obtain rfl := Option.some.inj h
      omega
    · cases h
  | _ => cases h

theorem field_cases {α : Type} {t : Table} {key : String} {dec : Item → Option α} {dflt x : α}
    (h : t.field key dec dflt = some x) : x = dflt ∨ ∃ item, dec item = some x := by
  rw [Table.field] at h
  cases hkey : t key with
  | none =>
    rw [hkey] at h
    exact .inl (Option.some.inj h).symm
  | some item =>
    rw [hkey] at h
    exact .inr ⟨item, h⟩

theorem asUsize_lt {t : Table} {key : String} {dflt n : ℕ}
    (h : t.field key asUsize dflt = some n) (hdflt : dflt < 2 ^ 63) : n < 2 ^ 63 := by
  rcases field_cases h with rfl | ⟨item, hitem⟩
  · exact hdflt
  · exact asNat_lt hitem

section

variable {env : TomlEnv ρ} {doc : Table} {c : Config (Extra ρ)} (h : Loads env doc c)

include h

/-- The sizes of a loaded configuration are within the integers of TOML. -/
theorem Loads.sizes : SizesFit (SettingsPanel.ofConfig c) := by
  obtain ⟨t, -, hsecurity⟩ := Option.bind_eq_some_iff.1 h.security
  simp only [SecurityConfig.load, Option.bind_eq_bind, Option.bind_eq_some_iff] at hsecurity
  obtain ⟨_, -, _, -, _, -, _, hosc52, _, hnotification, _, -, _, hplugin, hsecurity⟩ := hsecurity
  have hload := Option.some.inj hsecurity
  exact
    { scrollbackLines := asUsize_lt h.scrollbackLines (by decide)
      osc52MaxBytes := by
        show c.rest.security.osc52MaxBytes < 2 ^ 63
        rw [← hload]
        exact asUsize_lt hosc52 (by decide)
      notificationMaxBytes := by
        show c.rest.security.notificationMaxBytes < 2 ^ 63
        rw [← hload]
        exact asUsize_lt hnotification (by decide)
      pluginReadMaxBytes := by
        show c.rest.security.pluginReadMaxBytes < 2 ^ 63
        rw [← hload]
        exact asUsize_lt hplugin (by decide) }

theorem Loads.opacity : c.rest.window.backgroundOpacity.isFinite = true := by
  obtain ⟨t, -, hwindow⟩ := Option.bind_eq_some_iff.1 h.window
  simp only [WindowConfig.load, Option.bind_eq_bind, Option.bind_eq_some_iff] at hwindow
  obtain ⟨opacity, hopacity, _, -, _, -, _, -, _, -, _, -, _, -, _, -, _, -, hload⟩ := hwindow
  rw [← Option.some.inj hload]
  rcases field_cases hopacity with rfl | ⟨item, hitem⟩
  · exact isFinite_default
  · obtain ⟨value, -, rfl⟩ := Option.map_eq_some_iff.1 hitem
    show (finiteOr value 0x3F733333).isFinite = true
    unfold finiteOr
    split
    · assumption
    · exact isFinite_default

theorem Loads.atlasSize (hgpu : doc "gpu" = none) : c.rest.gpu.atlasSize = 0 := by
  have hload := h.gpu
  rw [hgpu] at hload
  obtain ⟨t, ht, hload⟩ := Option.bind_eq_some_iff.1 hload
  obtain rfl := Option.some.inj ht
  simp only [GpuConfig.load, Option.bind_eq_bind, Option.bind_eq_some_iff] at hload
  obtain ⟨_, -, atlasSize, hatlas, _, -, _, -, hload⟩ := hload
  rw [← Option.some.inj hload]
  exact (Option.some.inj hatlas).symm

end

theorem colors_iff (colors : ColorScheme) :
    ColorScheme.builtin (BuiltinScheme.all.getD
        (schemeNameToIndex colors % BuiltinScheme.all.length) .dark) = colors ↔
      ∃ b, colors = .builtin b := by
  cases colors with
  | builtin b =>
    refine iff_of_true ?_ ⟨b, rfl⟩
    cases b <;> rfl
  | custom palette => exact iff_of_false nofun nofun

theorem language_iff (language : String) :
    (languageOptions[(languageOptions.idxOf? language).getD 0]?).getD "auto" = language ↔
      language ∈ languageOptions := by
  cases hindex : languageOptions.idxOf? language with
  | none =>
    have hnot := List.idxOf?_eq_none_iff.1 hindex
    refine iff_of_false ?_ hnot
    rintro rfl
    exact hnot (by decide +kernel)
  | some i =>
    obtain ⟨hlt, hget, -⟩ := List.idxOf?_eq_some_iff.1 hindex
    refine iff_of_true ?_ (hget ▸ List.getElem_mem hlt)
    rw [Option.getD_some, List.getElem?_eq_getElem hlt, hget]
    rfl

theorem atlasSize_iff (gpu : Option Item) {atlasSize : UInt32}
    (h : gpu = none → atlasSize = 0) :
    (if gpu.isNone then 2048 else atlasSize) = atlasSize ↔ gpu.isSome = true := by
  cases gpu with
  | none =>
    rw [h rfl]
    exact iff_of_false (by decide) (by decide)
  | some item => exact iff_of_true rfl rfl

/-- A configuration after saving without an edit; the other fields are as they were. -/
theorem reloaded_ofConfig (doc : Table) (c : Config (Extra ρ)) :
    reloaded doc c (SettingsPanel.ofConfig c) =
      { c with
        font :=
          { c.font with
            fontFallbacks :=
              SettingsPanel.fontFallbacksList (", ".intercalate c.font.fontFallbacks) }
        colors := .builtin (BuiltinScheme.all.getD
          (schemeNameToIndex c.colors % BuiltinScheme.all.length) .dark)
        shell :=
          { c.shell with
            args := SettingsPanel.splitWhitespace (" ".intercalate c.shell.args) }
        hosts := reloadedHosts (c.hosts.map entryOf) (keptHosts (doc "hosts") c.hosts)
        rest :=
          { c.rest with
            window :=
              { c.rest.window with
                backgroundOpacity := finiteOr c.rest.window.backgroundOpacity 0x3F733333
                paddingX := min c.rest.window.paddingX 32
                paddingY := min c.rest.window.paddingY 32 }
            gpu :=
              { c.rest.gpu with
                atlasSize := if (doc "gpu").isNone then 2048 else c.rest.gpu.atlasSize }
            language :=
              (languageOptions[(languageOptions.idxOf? c.rest.language).getD 0]?).getD "auto"
            activeProfile := nameAt ProfileEntry.name (SettingsPanel.ofConfig c).profiles
              (indexOfName ProfileEntry.name (SettingsPanel.ofConfig c).profiles
                c.rest.activeProfile) } } := by
  rw [← activeProfileIndex_ofConfig, ← activeProfileName_eq]
  have hfamily : (SettingsPanel.ofConfig c).fontFamily = c.font.family := rfl
  have hleader : (SettingsPanel.ofConfig c).leaderKey = c.rest.leaderKey := rfl
  have hprogram : (SettingsPanel.ofConfig c).shellProgram = c.shell.program := rfl
  simp only [reloaded, hfamily, hleader, hprogram, ite_self]
  rfl

/-- The names of the profiles are those of the entries. -/
theorem exists_profile_iff (c : Config (Extra ρ)) (s : String) :
    (∃ a ∈ (SettingsPanel.ofConfig c).profiles, a.name = s) ↔
      ∃ a ∈ c.rest.profiles, a.name = s := by
  simp [SettingsPanel.ofConfig]

theorem reloaded_ofConfig_iff {env : TomlEnv ρ} {doc : Table} {c : Config (Extra ρ)}
    (h : Loads env doc c) : reloaded doc c (SettingsPanel.ofConfig c) = c ↔ Plain doc c := by
  have hactive := nameAt_indexOfName ProfileEntry.name (SettingsPanel.ofConfig c).profiles
    c.rest.activeProfile
  simp only [exists_profile_iff] at hactive
  rw [reloaded_ofConfig]
  constructor
  · intro heq
    exact
      { builtin := (colors_iff _).1 (congrArg Config.colors heq)
        paddingX := (min_eq_iff _).1 (congrArg (·.rest.window.paddingX) heq)
        paddingY := (min_eq_iff _).1 (congrArg (·.rest.window.paddingY) heq)
        fontFallbacks := (fontFallbacksList_join _).1 (congrArg (·.font.fontFallbacks) heq)
        shellArgs := (splitWhitespace_join _).1 (congrArg (·.shell.args) heq)
        language := (language_iff _).1 (congrArg (·.rest.language) heq)
        activeProfile := hactive.1 (congrArg (·.rest.activeProfile) heq)
        gpu := (atlasSize_iff _ h.atlasSize).1 (congrArg (·.rest.gpu.atlasSize) heq)
        hosts := (reloadedHosts_iff _ _).1 (congrArg Config.hosts heq) }
  · intro hplain
    rw [(colors_iff _).2 hplain.builtin, (min_eq_iff _).2 hplain.paddingX,
      (min_eq_iff _).2 hplain.paddingY, (fontFallbacksList_join _).2 hplain.fontFallbacks,
      (splitWhitespace_join _).2 hplain.shellArgs, (language_iff _).2 hplain.language,
      hactive.2 hplain.activeProfile, (atlasSize_iff _ h.atlasSize).2 hplain.gpu,
      (reloadedHosts_iff _ _).2 hplain.hosts, (finiteOr_eq_iff _).2 h.opacity]

/-! ## The round trip -/

/-- Saving this panel into the text from which the configuration is loaded, and loading again,
    gives the panel back. -/
def RoundTrips (env : TomlEnv ρ) (text : String) (p : SettingsPanel) : Prop :=
  ∀ doc c, env.parse text = some doc → loadConfig env doc = some c →
    ∃ saved c', p.applyToTomlString env text = some saved ∧ loadConfig env saved = some c' ∧
      SettingsPanel.ofConfig c' = p

/-- Saving without an edit, and loading again, gives the configuration back. -/
def Unchanged (env : TomlEnv ρ) (text : String) : Prop :=
  ∀ doc c, env.parse text = some doc → loadConfig env doc = some c →
    ∃ saved, (SettingsPanel.ofConfig c).applyToTomlString env text = some saved ∧
      loadConfig env saved = some c

theorem applyToTomlString_eq {env : TomlEnv ρ} {text : String} {doc : Table}
    (h : env.parse text = some doc) (p : SettingsPanel) :
    p.applyToTomlString env text = p.applyToDoc env doc := by
  rw [SettingsPanel.applyToTomlString, h]
  rfl

/-- The panel comes back if and only if it can be represented; a configuration comes back without
    an edit if and only if it is plain. -/
theorem round_trip_iff (env : TomlEnv ρ) (text : String) (p : SettingsPanel) :
    (RoundTrips env text p ↔ ∀ doc c, env.parse text = some doc → loadConfig env doc = some c →
      Fits doc ∧ Representable c p) ∧
    (Unchanged env text ↔ ∀ doc c, env.parse text = some doc → loadConfig env doc = some c →
      Fits doc ∧ Plain doc c) := by
  constructor
  · refine forall₂_congr fun doc c => forall₂_congr fun hparse hload => ?_
    have hloads := loadConfig_eq_some_iff.1 hload
    rw [applyToTomlString_eq hparse]
    constructor
    · rintro ⟨saved, c', hsaved, hload', hpanel⟩
      have hfits := (isSome_applyToDoc env p doc).1 (by rw [hsaved]; rfl)
      have hsizes := (loadConfig_eq_some_iff.1 hload').sizes
      rw [hpanel] at hsizes
      have hreloaded := loadConfig_eq_some_iff.2 (loads_saved hloads hfits hsaved hsizes)
      obtain rfl := Option.some.inj (hload'.symm.trans hreloaded)
      exact ⟨hfits, (ofConfig_reloaded_iff doc c hsizes).1 hpanel⟩
    · rintro ⟨hfits, hp⟩
      obtain ⟨saved, hsaved⟩ := Option.isSome_iff_exists.1 ((isSome_applyToDoc env p doc).2 hfits)
      exact ⟨saved, reloaded doc c p, hsaved,
        loadConfig_eq_some_iff.2 (loads_saved hloads hfits hsaved hp.sizes),
        (ofConfig_reloaded_iff doc c hp.sizes).2 hp⟩
  · refine forall₂_congr fun doc c => forall₂_congr fun hparse hload => ?_
    have hloads := loadConfig_eq_some_iff.1 hload
    rw [applyToTomlString_eq hparse]
    constructor
    · rintro ⟨saved, hsaved, hload'⟩
      have hfits := (isSome_applyToDoc env _ doc).1 (by rw [hsaved]; rfl)
      have hreloaded := loadConfig_eq_some_iff.2 (loads_saved hloads hfits hsaved hloads.sizes)
      have heq := Option.some.inj (hreloaded.symm.trans hload')
      exact ⟨hfits, (reloaded_ofConfig_iff hloads).1 heq⟩
    · rintro ⟨hfits, hplain⟩
      obtain ⟨saved, hsaved⟩ := Option.isSome_iff_exists.1 ((isSome_applyToDoc env _ doc).2 hfits)
      refine ⟨saved, hsaved, ?_⟩
      have hreloaded := loadConfig_eq_some_iff.2 (loads_saved hloads hfits hsaved hloads.sizes)
      rwa [(reloaded_ofConfig_iff hloads).2 hplain] at hreloaded

/-- A document with a palette of its own and an argument with a space. -/
def paletteDoc : Table :=
  ((Table.empty.insert "colors" (.table
    ((((Table.empty.insert "foreground" (.string "#c0caf5")).insert "background"
      (.string "#1a1b26")).insert "cursor" (.string "#c0caf5")).insert "ansi" (.array [])))).insert
    "shell" (.table (Table.empty.insert "args" (.array [.string "-c", .string "exec zsh"])))).insert
    "gpu" (.table Table.empty)

/-- A parser that knows the text of the palette. -/
def paletteEnv : TomlEnv Unit :=
  { colorsEnv with
    parse := fun text => if text = "" then some Table.empty else some paletteDoc
    parse_empty := if_pos rfl }

/-- The panel of the default configuration after a binding has been added and its key recorded. -/
def boundPanel : SettingsPanel :=
  { defaultPanel with
    keybindings := ((KeyPanel.ofKeys defaultPanel.keybindings).run
      [.addKeyBinding, .captureKeyRecord "ctrl+alt+x"]).keybindings }

/-- A binding that was added is lost, and a palette is replaced by a built-in scheme. -/
theorem not_round_trips_palette :
    boundPanel.keybindings = [{ key := "ctrl+alt+x", action := "Quit" }] ∧
      ¬ RoundTrips paletteEnv "" boundPanel ∧
      ((loadConfig paletteEnv paletteDoc).map (·.shell.args)) = some ["-c", "exec zsh"] ∧
      ¬ Unchanged paletteEnv "palette" := by
  have hloads : (loadConfig paletteEnv Table.empty).isSome = true ∧
      (loadConfig paletteEnv paletteDoc).isSome = true ∧
      boundPanel.keybindings = [{ key := "ctrl+alt+x", action := "Quit" }] ∧
      ((loadConfig paletteEnv paletteDoc).map (·.shell.args)) = some ["-c", "exec zsh"] := by
    decide +kernel
  obtain ⟨hempty, hpalette, hbound, hargs⟩ := hloads
  refine ⟨hbound, fun h => ?_, hargs, fun h => ?_⟩
  · obtain ⟨c, hload⟩ := Option.isSome_iff_exists.1 hempty
    obtain ⟨saved, c', -, hload', hpanel⟩ := h _ c rfl hload
    have hothers := (loadConfig_eq_some_iff.1 hload').others
    have hkeys : c'.rest.keys = [] := (congrArg Others.keys (Option.some.inj hothers)).symm
    have hnone : boundPanel.keybindings = [] := by
      rw [← hpanel]
      exact hkeys
    rw [hbound] at hnone
    exact nomatch hnone
  · obtain ⟨c, hload⟩ := Option.isSome_iff_exists.1 hpalette
    obtain ⟨saved, hsaved, hload'⟩ := h _ c rfl hload
    have hcustom := (loadConfig_eq_some_iff.1 hload).colors
    have hbuiltin := (loadConfig_eq_some_iff.1 hload').colors
    rw [load_colors hsaved] at hbuiltin
    have hcolors := (Option.some.inj hcustom).trans (Option.some.inj hbuiltin).symm
    exact nomatch hcolors

end Nexterm.Settings

/-
  File names that clients send: layout templates (`template.rs`, `ipc/file_dispatch.rs`) and the
  output paths of recordings (`ipc/dispatch_util.rs`), on Unix and on Windows.

  * `Env`: the directories and variables of the server process.
  * `handleSaveTemplate`, `handleLoadTemplate`: the file that is opened; `validateRecordingPath`.
  * `InTemplateDir`: in every environment the file is a direct child of the template directory;
    `InRecordingDirs`: in every environment an accepted path leads below an allowed directory or
    below the current one.
  * `Inside`, `Relative`: the names and paths with these properties; `client_paths_iff`.
-/
import Mathlib.Data.Fintype.EquivFin
import Mathlib.Data.Set.Finite.List
import Nexterm.Lib.Paths

namespace Nexterm.Server.ClientPaths

open Paths

/-! ## The server process -/

/-- On Windows places have a prefix. -/
def FitsOs (os : Os) (l : Loc) : Prop := l.pfx.isSome = decide (os = .windows)

/-- The current directory, the configuration directory of the user (an absolute one, or the current
    one if there is none), variables, and which directories can be created. -/
structure Env (os : Os) where
  cwd : Cwd
  cwd_fits : FitsOs os cwd.loc
  configDir : Loc
  configDir_fits : FitsOs os configDir
  home : Option (List Char)
  userProfile : Option (List Char)
  tmpDir : Option (List Char)
  temp : Option (List Char)
  creates : Path → Bool

section
variable {os : Os}

/-! ## Templates -/

def nexterm : Name := "nexterm".toList

def templates : Name := "templates".toList

/-- Return the directory where templates are stored. -/
def templateDir (env : Env os) : Path :=
  (env.configDir.path.join (.ofName nexterm)).join (.ofName templates)

/-- Return the file path of the template with the given name. -/
def templatePath (env : Env os) (name : List Char) : Path :=
  (templateDir env).join (parse os (name ++ ".json".toList))

/-- Whether `fs::write` and `fs::read_to_string` open a file at all: a name with a NUL is refused. -/
def canOpen (name : List Char) : Bool := '\x00' ∉ name

/-- The file opened by `SaveTemplate`; the session of the client may be missing. -/
def handleSaveTemplate (env : Env os) (hasSession : Bool) (name : List Char) : Option Path :=
  if hasSession ∧ env.creates (templateDir env) ∧ canOpen name then some (templatePath env name)
  else none

/-- The file opened by `LoadTemplate`. -/
def handleLoadTemplate (env : Env os) (name : List Char) : Option Path :=
  if canOpen name then some (templatePath env name) else none

/-! ## Recordings -/

def recordings : Name := "recordings".toList

/-- Return the list of directories where recording files are allowed to be saved. -/
def allowedRecordingDirs (env : Env os) : List Path :=
  let home := (env.home.or env.userProfile).map fun home =>
    ((parse os home).join (.ofName nexterm)).join (.ofName recordings)
  let tmpBase := parse os ((env.tmpDir.or env.temp).getD "/tmp".toList)
  let unixTmp := if os = .unix then [parse os "/tmp/nexterm".toList] else []
  home.toList ++ tmpBase.join (.ofName nexterm) :: unixTmp

inductive RecordingError where
  | empty
  | parentDir (outputPath : List Char)
  | outside (allowed : List Path) (outputPath : List Char)
  | notCreated (parent : Path)
  deriving DecidableEq

/-- Validate a recording output path. -/
def validateRecordingPath (env : Env os) (outputPath : List Char) : Except RecordingError Unit :=
  let inputPath := parse os outputPath
  if outputPath = [] then .error .empty
  else if .parentDir ∈ inputPath.parts then .error (.parentDir outputPath)
  else if inputPath.isAbsolute os then
    let parent := inputPath.parent.getD inputPath
    if !(allowedRecordingDirs env).any parent.startsWith then
      .error (.outside (allowedRecordingDirs env) outputPath)
    else if !env.creates parent then .error (.notCreated parent)
    else .ok ()
  else .ok ()

end

/-! ## What is promised -/

/-- Whatever file a request with this name opens is a direct child of the template directory. -/
def InTemplateDir (os : Os) (name : List Char) : Prop :=
  ∀ (env : Env os) (hasSession : Bool) (path : Path),
    handleSaveTemplate env hasSession name = some path ∨ handleLoadTemplate env name = some path →
      ∃ file, env.cwd.locate path = (env.cwd.locate (templateDir env)).child file

/-- An accepted path leads below an allowed directory or below the current one. -/
def InRecordingDirs (os : Os) (outputPath : List Char) : Prop :=
  ∀ env : Env os, validateRecordingPath env outputPath = .ok () →
    (∃ dir ∈ allowedRecordingDirs env,
      (env.cwd.locate (parse os outputPath)).Below (env.cwd.locate dir)) ∨
    (env.cwd.locate (parse os outputPath)).Below env.cwd.loc

/-- A relative path that leads from the template directory to one of its children, by the names of
    the last two directories only. -/
def Inside (p : Path) : Prop :=
  p.pfx = none ∧ p.physicalRoot = false ∧ (reduce p.parts).1 ≤ 2 ∧
    ∃ file, follow [nexterm, templates] (reduce p.parts) = [nexterm, templates, file]

/-- A relative path, without a drive, that has a name. -/
def Relative (p : Path) : Prop :=
  p.pfx = none ∧ p.physicalRoot = false ∧ ∃ name, Part.normal name ∈ p.parts

section
variable {os : Os} {env : Env os} {name outputPath : List Char}

/-! ## The template directory -/

theorem pfx_eq_none (env : Env os) {l : Loc} (hfits : FitsOs os l) (h : l.pfx = none) :
    env.cwd.loc.pfx = none := by
  have hcwd := env.cwd_fits
  rw [FitsOs, h] at hfits
  rw [FitsOs, ← hfits] at hcwd
  simpa using hcwd

/-- The place of the template directory. -/
def templateLoc (env : Env os) : Loc := (env.configDir.child nexterm).child templates

theorem templateDir_eq (env : Env os) : templateDir env = (templateLoc env).path := by
  rw [templateDir, Loc.path_join_ofName, Loc.path_join_ofName, templateLoc]

theorem locate_templateDir (env : Env os) : env.cwd.locate (templateDir env) = templateLoc env := by
  rw [templateDir_eq]
  exact locate_path fun h => pfx_eq_none env env.configDir_fits h

theorem locate_templatePath (env : Env os) (hpfx : (parse os (name ++ ".json".toList)).pfx = none)
    (hroot : (parse os (name ++ ".json".toList)).physicalRoot = false) :
    env.cwd.locate (templatePath env name) =
      ⟨env.configDir.pfx, follow (env.configDir.names ++ [nexterm, templates])
        (reduce (parse os (name ++ ".json".toList)).parts)⟩ := by
  have hnone : (templateLoc env).pfx = none → env.cwd.loc.pfx = none :=
    fun h => pfx_eq_none env env.configDir_fits h
  have hlocate := locate_join hnone hpfx hroot
  rw [templatePath, templateDir_eq, hlocate, walk_eq]
  simp [templateLoc, Loc.child]

theorem inTemplateDir_of_inside (h : Inside (parse os (name ++ ".json".toList))) :
    InTemplateDir os name := by
  rcases h with ⟨hpfx, hroot, hups, file, hfile⟩
  have hchild : ∀ env : Env os, env.cwd.locate (templatePath env name) =
      (env.cwd.locate (templateDir env)).child file := by
    intro env
    rw [locate_templatePath env hpfx hroot, follow_append _ _ hups, hfile, locate_templateDir]
    simp [templateLoc, Loc.child]
  rintro env hasSession path (h | h)
  · unfold handleSaveTemplate at h
    split_ifs at h
    cases h
    exact ⟨file, hchild env⟩
  · unfold handleLoadTemplate at h
    split_ifs at h
    cases h
    exact ⟨file, hchild env⟩

/-! ## Environments -/

/-- The prefix of the places of a system, on a drive. -/
def systemPfx (os : Os) (drive : Char) : Option Prefix :=
  if os = .windows then some (.disk drive) else none

/-- Everything on one drive, where all directories can be created. -/
def plainEnv (os : Os) (drive : Char) (cwd configDir : List Name) (temp : Option (List Char)) :
    Env os where
  cwd := ⟨⟨systemPfx os drive, cwd⟩, fun _ => []⟩
  cwd_fits := by cases os <;> rfl
  configDir := ⟨systemPfx os drive, configDir⟩
  configDir_fits := by cases os <;> rfl
  home := none
  userProfile := none
  tmpDir := none
  temp := temp
  creates _ := true

theorem handleLoadTemplate_plainEnv (hnul : '\x00' ∉ name) (configDir : List Name) :
    handleLoadTemplate (plainEnv os 'C' [] configDir none) name =
      some (templatePath (plainEnv os 'C' [] configDir none) name) := by
  rw [handleLoadTemplate, if_pos (by simp [canOpen, hnul])]

/-- The file of a direct child has all directories of the configuration in its path. -/
theorem subset_of_inTemplateDir (h : InTemplateDir os name) (hnul : '\x00' ∉ name)
    (configDir : List Name) :
    ∃ file, ((plainEnv os 'C' [] configDir none).cwd.locate
        (templatePath (plainEnv os 'C' [] configDir none) name)).names =
      configDir ++ [nexterm, templates, file] := by
  rcases h (plainEnv os 'C' [] configDir none) true _
    (Or.inr (handleLoadTemplate_plainEnv hnul configDir)) with ⟨file, hfile⟩
  refine ⟨file, ?_⟩
  rw [hfile, locate_templateDir]
  simp [templateLoc, Loc.child, plainEnv]

theorem exists_fresh (names : List Name) : ∃ name : Name, name ∉ names := by
  rcases Infinite.exists_notMem_finset names.toFinset with ⟨name, hname⟩
  exact ⟨name, fun hmem => hname (List.mem_toFinset.2 hmem)⟩

/-- With a prefix or a root the configuration directory has no part in the path. -/
theorem relative_of_inTemplateDir (h : InTemplateDir os name) (hnul : '\x00' ∉ name) :
    (parse os (name ++ ".json".toList)).pfx = none ∧
      (parse os (name ++ ".json".toList)).physicalRoot = false := by
  by_contra hnot
  have hconst : ∃ q : Path, ∀ configDir,
      templatePath (plainEnv os 'C' [] configDir none) name = q := by
    cases hpfx : (parse os (name ++ ".json".toList)).pfx with
    | some pre =>
      refine ⟨parse os (name ++ ".json".toList), fun configDir => ?_⟩
      rw [templatePath, Path.join, if_pos (by rw [hpfx]; rfl)]
    | none =>
      have hroot : (parse os (name ++ ".json".toList)).physicalRoot = true := by
        by_contra hroot
        exact hnot ⟨hpfx, Bool.eq_false_iff.2 hroot⟩
      refine ⟨{ parse os (name ++ ".json".toList) with pfx := systemPfx os 'C' },
        fun configDir => ?_⟩
      rw [templatePath, Path.join, if_neg (by rw [hpfx]; simp), if_pos hroot, templateDir_eq]
      rfl
  rcases hconst with ⟨q, hq⟩
  rcases exists_fresh (((plainEnv os 'C' [] [] none).cwd.locate q).names) with ⟨x, hx⟩
  rcases subset_of_inTemplateDir h hnul [x] with ⟨file, hfile⟩
  rw [hq] at hfile
  refine hx ?_
  change x ∈ ((plainEnv os 'C' [] [x] none).cwd.locate q).names
  rw [hfile]
  simp

theorem inside_of_inTemplateDir (h : InTemplateDir os name) (hnul : '\x00' ∉ name) :
    Inside (parse os (name ++ ".json".toList)) := by
  rcases relative_of_inTemplateDir h hnul with ⟨hpfx, hroot⟩
  set r := reduce (parse os (name ++ ".json".toList)).parts with hr
  have hfollow : ∀ configDir, ∃ file, follow (configDir ++ [nexterm, templates]) r =
      configDir ++ [nexterm, templates, file] := by
    intro configDir
    rcases subset_of_inTemplateDir h hnul configDir with ⟨file, hfile⟩
    rw [locate_templatePath _ hpfx hroot, ← hr] at hfile
    exact ⟨file, hfile⟩
  have hups : r.1 ≤ 2 := by
    by_contra hups
    rw [not_le] at hups
    rcases exists_fresh r.2 with ⟨x, hx⟩
    rcases hfollow (List.replicate r.1 x) with ⟨file, hfile⟩
    have hlen : (List.replicate r.1 x ++ [nexterm, templates]).length - r.1 = 2 := by simp
    -- only two names of the configuration directory are left
    have hdrop := congrArg (List.drop 2) hfile
    rw [follow, hlen, List.take_append_of_le_length (by simp; omega), List.take_replicate,
      Nat.min_eq_left hups.le, List.drop_append_of_le_length (by simp),
      List.drop_append_of_le_length (by simp; omega)] at hdrop
    simp only [List.drop_replicate, Nat.sub_self, List.replicate_zero, List.nil_append] at hdrop
    rw [hdrop] at hx
    exact hx (List.mem_append_left _ (List.mem_replicate.2 ⟨by omega, rfl⟩))
  rcases hfollow [] with ⟨file, hfile⟩
  exact ⟨hpfx, hroot, hups, file, hfile⟩

theorem inTemplateDir_iff :
    InTemplateDir os name ↔ '\x00' ∈ name ∨ Inside (parse os (name ++ ".json".toList)) := by
  constructor
  · intro h
    by_cases hnul : '\x00' ∈ name
    · exact Or.inl hnul
    · exact Or.inr (inside_of_inTemplateDir h hnul)
  · rintro (hnul | h)
    · have hopen : canOpen name = false := by simp [canOpen, hnul]
      rintro env hasSession path (h | h)
      · simp [handleSaveTemplate, hopen] at h
      · simp [handleLoadTemplate, hopen] at h
    · exact inTemplateDir_of_inside h

/-! ## Recording paths -/

theorem validate_ok (h : validateRecordingPath env outputPath = .ok ()) :
    outputPath ≠ [] ∧ Part.parentDir ∉ (parse os outputPath).parts ∧
      ((parse os outputPath).isAbsolute os → ∃ dir ∈ allowedRecordingDirs env,
        ((parse os outputPath).parent.getD (parse os outputPath)).startsWith dir) := by
  unfold validateRecordingPath at h
  simp only at h
  split_ifs at h with hempty hparent habs hdirs hcreates
  · refine ⟨hempty, hparent, fun _ => ?_⟩
    simpa using hdirs
  · exact ⟨hempty, hparent, fun h => absurd h habs⟩

theorem validate_relative (hempty : outputPath ≠ [])
    (hparent : Part.parentDir ∉ (parse os outputPath).parts)
    (habs : (parse os outputPath).isAbsolute os = false) (env : Env os) :
    validateRecordingPath env outputPath = .ok () := by
  simp [validateRecordingPath, hempty, hparent, habs]

theorem parts_ne_nil {dir : Path} (h : dir ∈ allowedRecordingDirs env) : dir.parts ≠ [] := by
  have hjoin : ∀ (base : Path) (name : Name), (base.join (.ofName name)).parts ≠ [] := by
    intro base name
    simp [parts_join_ofName]
  simp only [allowedRecordingDirs, List.mem_append, List.mem_cons] at h
  rcases h with h | rfl | h
  · cases hhome : env.home.or env.userProfile with
    | none => simp [hhome] at h
    | some home =>
      simp only [hhome, Option.map_some, Option.toList_some, List.mem_singleton] at h
      subst h
      exact hjoin _ _
  · exact hjoin _ _
  · split_ifs at h with hos
    · rw [List.mem_singleton] at h
      subst h
      subst hos
      decide
    · cases h

theorem hasRoot_of_isAbsolute {p : Path} (h : p.isAbsolute os) : p.hasRoot := by
  cases os with
  | unix => exact h
  | windows =>
    simp only [Path.isAbsolute, Bool.and_eq_true] at h
    exact h.1

theorem inRecordingDirs_of_isAbsolute (h : (parse os outputPath).isAbsolute os) :
    InRecordingDirs os outputPath := by
  intro env hok
  rcases validate_ok hok with ⟨-, hparent, hdir⟩
  rcases hdir h with ⟨dir, hmem, hstarts⟩
  have hroot := hasRoot_of_isAbsolute h
  refine Or.inl ⟨dir, hmem, below_of_startsWith hroot ?_ hparent (parts_ne_nil hmem) hstarts⟩
  intro hcur
  rcases not_hasRoot_of_curDir hcur with hverbatim | hno
  · exact hverbatim
  · rw [hno] at hroot
    cases hroot

theorem locate_relative {p : Path} (hpfx : p.pfx = none) (hroot : p.physicalRoot = false)
    (hparent : Part.parentDir ∉ p.parts) (cwd : Cwd) :
    cwd.locate p = ⟨cwd.loc.pfx, cwd.loc.names ++ p.parts.filterMap (Part.name? false)⟩ := by
  simp [Cwd.locate, hpfx, hroot, walk_of_notMem false hparent]

theorem inRecordingDirs_of_relative (h : Relative (parse os outputPath)) :
    InRecordingDirs os outputPath := by
  intro env hok
  rcases h with ⟨hpfx, hroot, name, hname⟩
  rw [locate_relative hpfx hroot (validate_ok hok).2.1]
  refine Or.inr ⟨rfl, _, ?_, rfl⟩
  intro hnil
  have hmem : name ∈ (parse os outputPath).parts.filterMap (Part.name? false) :=
    List.mem_filterMap.2 ⟨_, hname, rfl⟩
  rw [hnil] at hmem
  cases hmem

theorem not_below_of_pfx {l dir : Loc} (h : l.pfx ≠ dir.pfx) : ¬ l.Below dir :=
  fun hbelow => h hbelow.1

theorem not_below_of_length {l dir : Loc} (h : l.names.length ≤ dir.names.length) :
    ¬ l.Below dir := by
  rintro ⟨-, names, hne, heq⟩
  rw [heq, List.length_append] at h
  exact hne (List.eq_nil_of_length_eq_zero (by omega))

/-- A drive other than the given one. -/
def otherDrive (drive : Char) : Char := if drive = 'C' then 'D' else 'C'

theorem otherDrive_ne (drive : Char) : drive ≠ otherDrive drive := by
  unfold otherDrive
  split_ifs with h
  · rw [h]
    decide
  · exact h

theorem allowedRecordingDirs_plainEnv (drive : Char) (cwd configDir : List Name)
    (temp : Option (List Char)) :
    allowedRecordingDirs (plainEnv .windows drive cwd configDir temp) =
      [(parse .windows (temp.getD "/tmp".toList)).join (.ofName nexterm)] := rfl

/-- A directory on drive D. -/
def dText : List Char := "D:\\t".toList

theorem locate_pfx_dText (cwd : Cwd) :
    (cwd.locate ((parse .windows dText).join (.ofName nexterm))).pfx = some (.disk 'D') := by
  have hparse : parse .windows dText = ⟨some (.disk 'D'), true, [.normal ['t']]⟩ := by decide
  rw [hparse]
  rfl

theorem locate_pfx_tmp (cwd : Cwd) :
    (cwd.locate ((parse .windows "/tmp".toList).join (.ofName nexterm))).pfx = cwd.loc.pfx := by
  have hparse : parse .windows "/tmp".toList = ⟨none, true, [.normal "tmp".toList]⟩ := by decide
  rw [hparse]
  rfl

section
variable (habs : (parse os outputPath).isAbsolute os = false)
  (hbelow : ∀ env : Env os, (∃ dir ∈ allowedRecordingDirs env,
    (env.cwd.locate (parse os outputPath)).Below (env.cwd.locate dir)) ∨
      (env.cwd.locate (parse os outputPath)).Below env.cwd.loc)

include habs hbelow

/-- Only a drive can be without a root, and it is not the drive of every environment. -/
theorem pfx_of_below : (parse os outputPath).pfx = none := by
  cases hpfx : (parse os outputPath).pfx with
  | none => rfl
  | some pre =>
    cases os with
    | unix => simp [parse_unix_pfx] at hpfx
    | windows =>
      have hnoRoot : (parse .windows outputPath).hasRoot = false := by
        simpa [Path.isAbsolute, hpfx] using habs
      have hdisk : ∃ drive, pre = .disk drive := by
        cases pre <;> simp_all [Path.hasRoot, Prefix.hasImplicitRoot]
      rcases hdisk with ⟨drive, rfl⟩
      have hlocate : ∀ cwd : Cwd,
          (cwd.locate (parse .windows outputPath)).pfx = some (.disk drive) := by
        intro cwd
        simp [Cwd.locate, hpfx]
      have hne : (some (.disk drive) : Option Prefix) ≠ some (.disk (otherDrive drive)) := by
        simpa using otherDrive_ne drive
      rcases hbelow (plainEnv .windows (otherDrive drive) [] [] none) with
        ⟨dir, hdir, hbelow⟩ | hbelow
      · rw [allowedRecordingDirs_plainEnv, List.mem_singleton] at hdir
        subst hdir
        refine absurd hbelow (not_below_of_pfx ?_)
        rw [hlocate, Option.getD_none, locate_pfx_tmp]
        exact hne
      · refine absurd hbelow (not_below_of_pfx ?_)
        rw [hlocate]
        exact hne

/-- A path with a root leads to the drive of the current directory, which can be another one than
    that of the allowed directory. -/
theorem physicalRoot_of_below (hpfx : (parse os outputPath).pfx = none) :
    (parse os outputPath).physicalRoot = false := by
  cases hroot : (parse os outputPath).physicalRoot with
  | false => rfl
  | true =>
    cases os with
    | unix => simp [Path.isAbsolute, Path.hasRoot, hroot] at habs
    | windows =>
      have hlocate : ∀ cwd : Cwd, cwd.locate (parse .windows outputPath) =
          ⟨cwd.loc.pfx, walk false [] (parse .windows outputPath).parts⟩ := by
        intro cwd
        simp [Cwd.locate, hpfx, hroot]
      rcases hbelow (plainEnv .windows 'C' (walk false [] (parse .windows outputPath).parts) []
        (some dText)) with ⟨dir, hdir, hbelow⟩ | hbelow
      · rw [allowedRecordingDirs_plainEnv, List.mem_singleton] at hdir
        subst hdir
        refine absurd hbelow (not_below_of_pfx ?_)
        rw [hlocate, Option.getD_some, locate_pfx_dText]
        change (some (.disk 'C') : Option Prefix) ≠ some (.disk 'D')
        decide
      · rw [hlocate] at hbelow
        exact absurd hbelow (not_below_of_length le_rfl)

end

/-- An accepted path that is not absolute leads away from the current directory if it has a root or
    a drive, and to itself if it has no name. -/
theorem relative_of_inRecordingDirs (h : InRecordingDirs os outputPath) (hempty : outputPath ≠ [])
    (hparent : Part.parentDir ∉ (parse os outputPath).parts)
    (habs : (parse os outputPath).isAbsolute os = false) : Relative (parse os outputPath) := by
  have hbelow := fun env => h env (validate_relative hempty hparent habs env)
  have hpfx := pfx_of_below habs hbelow
  have hroot := physicalRoot_of_below habs hbelow hpfx
  refine ⟨hpfx, hroot, ?_⟩
  by_contra hname
  have hnil : (parse os outputPath).parts.filterMap (Part.name? false) = [] := by
    rw [List.filterMap_eq_nil_iff]
    intro part hpart
    cases part with
    | curDir => rfl
    | parentDir => exact absurd hpart hparent
    | normal name => exact absurd ⟨name, hpart⟩ hname
  have hlocate : (plainEnv os 'C' [] [] none).cwd.locate (parse os outputPath) =
      ⟨systemPfx os 'C', []⟩ := by
    rw [locate_relative hpfx hroot hparent, hnil]
    rfl
  rcases hbelow (plainEnv os 'C' [] [] none) with ⟨dir, hdir, hbelow⟩ | hbelow
  · rw [hlocate] at hbelow
    exact absurd hbelow (not_below_of_length (Nat.zero_le _))
  · rw [hlocate] at hbelow
    exact absurd hbelow (not_below_of_length (Nat.zero_le _))

theorem inRecordingDirs_iff :
    InRecordingDirs os outputPath ↔
      outputPath = [] ∨ Part.parentDir ∈ (parse os outputPath).parts ∨
        (parse os outputPath).isAbsolute os ∨ Relative (parse os outputPath) := by
  constructor
  · intro h
    by_cases hempty : outputPath = []
    · exact Or.inl hempty
    by_cases hparent : Part.parentDir ∈ (parse os outputPath).parts
    · exact Or.inr (Or.inl hparent)
    cases habs : (parse os outputPath).isAbsolute os with
    | true => exact Or.inr (Or.inr (Or.inl rfl))
    | false =>
      exact Or.inr (Or.inr (Or.inr (relative_of_inRecordingDirs h hempty hparent habs)))
  · rintro (hempty | hparent | habs | hrelative)
    · exact fun env hok => absurd hempty (validate_ok hok).1
    · exact fun env hok => absurd hparent (validate_ok hok).2.1
    · exact inRecordingDirs_of_isAbsolute habs
    · exact inRecordingDirs_of_relative hrelative

/-- **Template names have to stay in two known directories, and recording paths that are not
    absolute must be relative to the current directory.** -/
theorem client_paths_iff (os : Os) (name outputPath : List Char) :
    (InTemplateDir os name ↔ '\x00' ∈ name ∨ Inside (parse os (name ++ ".json".toList))) ∧
      (InRecordingDirs os outputPath ↔
        outputPath = [] ∨ Part.parentDir ∈ (parse os outputPath).parts ∨
          (parse os outputPath).isAbsolute os ∨ Relative (parse os outputPath)) :=
  ⟨inTemplateDir_iff, inRecordingDirs_iff⟩

/-- A template three directories up on Unix; a rooted path and one on another drive on Windows. -/
theorem traversal_and_drive_relative :
    ¬ InTemplateDir .unix "../../../x".toList ∧
      ¬ InRecordingDirs .windows "\\Windows\\x".toList ∧
      ¬ InRecordingDirs .windows "D:x".toList := by
  refine ⟨?_, ?_, ?_⟩
  · rw [inTemplateDir_iff]
    rintro (h | ⟨-, -, h, -⟩) <;> revert h <;> decide
  · rw [inRecordingDirs_iff]
    rintro (h | h | h | ⟨-, h, -⟩) <;> revert h <;> decide
  · rw [inRecordingDirs_iff]
    rintro (h | h | h | ⟨h, -⟩) <;> revert h <;> decide

end

end Nexterm.Server.ClientPaths

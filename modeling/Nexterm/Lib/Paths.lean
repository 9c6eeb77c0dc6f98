/-
  Lexical file paths on Unix and on Windows, as `std::path` takes them apart.

  * `parse`: a text as a prefix, a root and parts; `components`, `join`, `parent`, `startsWith`.
  * `Loc`: a place in the file system; `locate`: where a path leads from a current directory, which
    on Windows every drive has.
  * `walk`: the names after some parts; `reduce`: parts as a number of steps up and names to go
    down, `walk_eq`.
  * `Loc.Below`; `below_of_startsWith`: an absolute path whose parent starts with a directory leads
    below it.
-/
import Mathlib.Data.List.DropRight
import Mathlib.Tactic.Common

namespace Paths

inductive Os where
  | unix
  | windows
  deriving DecidableEq

abbrev Name := List Char

/-- The prefixes of Windows paths; drives in upper case. -/
inductive Prefix where
  | verbatim (name : Name)
  | verbatimUnc (server share : Name)
  | verbatimDisk (drive : Char)
  | deviceNs (name : Name)
  | unc (server share : Name)
  | disk (drive : Char)
  deriving DecidableEq

namespace Prefix

def isVerbatim : Prefix → Bool
  | verbatim _ | verbatimUnc _ _ | verbatimDisk _ => true
  | deviceNs _ | unc _ _ | disk _ => false

/-- Only a drive may be without a root. -/
def hasImplicitRoot : Prefix → Bool
  | disk _ => false
  | _ => true

/-- The length in the text. -/
def len : Prefix → ℕ
  | verbatim name => 4 + name.length
  | verbatimUnc server share => 8 + server.length + if share = [] then 0 else 1 + share.length
  | verbatimDisk _ => 6
  | deviceNs name => 4 + name.length
  | unc server share => 2 + server.length + if share = [] then 0 else 1 + share.length
  | disk _ => 2

end Prefix

/-- What stands between separators. -/
inductive Part where
  | curDir
  | parentDir
  | normal (name : Name)
  deriving DecidableEq

/-- A path; the root is that of the text. -/
structure Path where
  pfx : Option Prefix
  physicalRoot : Bool
  parts : List Part
  deriving DecidableEq

inductive Component where
  | pfx (p : Prefix)
  | rootDir
  | part (p : Part)
  deriving DecidableEq

/-! ## Parsing -/

def isSepByte : Os → Char → Bool
  | .unix, c => c = '/'
  | .windows, c => c = '/' ∨ c = '\\'

/-- A literal at the beginning of a Windows path; '/' stands for '\' as well. -/
def stripLiteral (literal path : List Char) : Option (List Char) :=
  if (path.take literal.length).map (fun c => if c = '/' then '\\' else c) = literal then
    some (path.drop literal.length)
  else none

/-- The text up to the next separator, and what follows it. -/
def parseNextComponent (path : List Char) (isVerbatim : Bool) : Name × List Char :=
  let sep := fun c => if isVerbatim then c = '\\' else isSepByte .windows c
  (path.takeWhile fun c => !sep c, (path.dropWhile fun c => !sep c).drop 1)

def parseDrive : List Char → Option Char
  | drive :: ':' :: _ => if drive.isAlpha then some drive.toUpper else none
  | _ => none

/-- A drive and nothing else before the separator. -/
def parseDriveExact (path : List Char) : Option Char :=
  if (path.drop 2).head?.all (isSepByte .windows) then parseDrive path else none

def parsePrefix (path : List Char) : Option Prefix :=
  match stripLiteral ['\\', '\\'] path with
  | none => (parseDrive path).map .disk
  | some rest =>
    match stripLiteral ['?', '\\'] rest with
    | some verbatimRest =>
      -- the separators of a verbatim prefix are '\' only
      if '/' ∈ path.take 4 then uncPrefix rest else verbatimPrefix verbatimRest
    | none =>
      match stripLiteral ['.', '\\'] rest with
      | some deviceRest => some (.deviceNs (parseNextComponent deviceRest false).1)
      | none => uncPrefix rest
where
  verbatimPrefix (rest : List Char) : Option Prefix :=
    match stripLiteral ['U', 'N', 'C', '\\'] rest with
    | some uncRest =>
      let (server, afterServer) := parseNextComponent uncRest true
      some (.verbatimUnc server (parseNextComponent afterServer true).1)
    | none =>
      match parseDriveExact rest with
      | some drive => some (.verbatimDisk drive)
      | none => some (.verbatim (parseNextComponent rest true).1)
  uncPrefix (rest : List Char) : Option Prefix :=
    let (server, afterServer) := parseNextComponent rest false
    let share := (parseNextComponent afterServer false).1
    if server ≠ [] ∧ share ≠ [] then some (.unc server share) else none

/-- Empty parts are skipped, and "." as well unless the path is verbatim. -/
def parsePart (isVerbatim : Bool) (text : List Char) : Option Part :=
  if text = [] then none
  else if text = ['.'] then if isVerbatim then some .curDir else none
  else if text = ['.', '.'] then some .parentDir
  else some (.normal text)

/-- A leading "." of a relative path is kept. -/
def leadingCurDir (pfx : Option Prefix) (physicalRoot : Bool) (pieces : List (List Char)) :
    List Part :=
  if pfx = none ∧ physicalRoot = false ∧ pieces.head? = some ['.'] then [.curDir] else []

/-- `Path::new`. -/
def parse (os : Os) (text : List Char) : Path :=
  let pfx := if os = .windows then parsePrefix text else none
  let rest := text.drop ((pfx.map Prefix.len).getD 0)
  let physicalRoot := rest.head?.any (isSepByte os)
  let isVerbatim := pfx.any Prefix.isVerbatim
  let pieces := rest.splitOnP fun c => if isVerbatim then c = '\\' else isSepByte os c
  { pfx := pfx
    physicalRoot := physicalRoot
    parts := leadingCurDir pfx physicalRoot pieces ++ pieces.filterMap (parsePart isVerbatim) }

namespace Path

def isVerbatim (p : Path) : Bool := p.pfx.any Prefix.isVerbatim

def hasRoot (p : Path) : Bool := p.physicalRoot || p.pfx.any Prefix.hasImplicitRoot

def isAbsolute (os : Os) (p : Path) : Bool :=
  match os with
  | .unix => p.hasRoot
  | .windows => p.hasRoot && p.pfx.isSome

/-- Whether the root is among the components; that of a verbatim prefix alone is not. -/
def showsRoot (p : Path) : Bool :=
  p.physicalRoot || p.pfx.any fun pre => pre.hasImplicitRoot && !pre.isVerbatim

def components (p : Path) : List Component :=
  (p.pfx.map Component.pfx).toList ++ (if p.showsRoot then [.rootDir] else []) ++
    p.parts.map Component.part

def parent (p : Path) : Option Path :=
  if p.parts = [] then none else some { p with parts := p.parts.dropLast }

def startsWith (p base : Path) : Bool := base.components.isPrefixOf p.components

/-- What is added to a verbatim path is resolved at once. -/
def pushVerbatim (buf : List Part) : Part → List Part
  | .curDir => buf
  | .parentDir =>
    match buf.getLast? with
    | some (.normal _) => buf.dropLast
    | _ => buf
  | .normal name => buf ++ [.normal name]

/-- A path with a prefix replaces the base, one with a root all but the base's prefix.  (The base
    is not empty.) -/
def join (base p : Path) : Path :=
  if p.pfx.isSome then p
  else if p.physicalRoot then { p with pfx := base.pfx }
  else
    { pfx := base.pfx
      physicalRoot := base.hasRoot
      parts :=
        if base.isVerbatim then p.parts.foldl pushVerbatim base.parts
        else base.parts ++ p.parts.filter (· ≠ .curDir) }

/-- A relative path of one name. -/
def ofName (name : Name) : Path := ⟨none, false, [.normal name]⟩

end Path

/-! ## Places -/

/-- A place in the file system. -/
structure Loc where
  pfx : Option Prefix
  names : List Name
  deriving DecidableEq

namespace Loc

/-- The absolute path of a place. -/
def path (l : Loc) : Path := ⟨l.pfx, true, l.names.map .normal⟩

def child (l : Loc) (name : Name) : Loc := ⟨l.pfx, l.names ++ [name]⟩

/-- Strictly below. -/
def Below (l dir : Loc) : Prop := l.pfx = dir.pfx ∧ ∃ names ≠ [], l.names = dir.names ++ names

end Loc

/-- One step; on verbatim paths "." and ".." are names. -/
def step (isVerbatim : Bool) (names : List Name) : Part → List Name
  | .curDir => if isVerbatim then names ++ [['.']] else names
  | .parentDir => if isVerbatim then names ++ [['.', '.']] else names.dropLast
  | .normal name => names ++ [name]

def walk (isVerbatim : Bool) (names : List Name) (parts : List Part) : List Name :=
  parts.foldl (step isVerbatim) names

/-- The current directory, and those of the other drives. -/
structure Cwd where
  loc : Loc
  drives : Char → List Name

/-- Where a path leads. -/
def Cwd.locate (cwd : Cwd) (p : Path) : Loc :=
  match p.pfx with
  | some (.disk drive) =>
    let start :=
      if p.physicalRoot then []
      else if cwd.loc.pfx = some (.disk drive) then cwd.loc.names
      else cwd.drives drive
    ⟨some (.disk drive), walk false start p.parts⟩
  | some pre => ⟨some pre, walk pre.isVerbatim [] p.parts⟩
  | none => ⟨cwd.loc.pfx, walk false (if p.physicalRoot then [] else cwd.loc.names) p.parts⟩

theorem parse_unix_pfx (text : List Char) : (parse .unix text).pfx = none := by simp [parse]

theorem isVerbatim_of_parsePart {v : Bool} {text : List Char}
    (h : parsePart v text = some .curDir) : v = true := by
  unfold parsePart at h
  split_ifs at h with _ _ hv
  · exact hv
  · cases h
  · cases h

theorem leadingCurDir_cases {pfx : Option Prefix} {physicalRoot : Bool} {p : Part}
    {pieces : List (List Char)} (h : p ∈ leadingCurDir pfx physicalRoot pieces) :
    pfx = none ∧ physicalRoot = false := by
  unfold leadingCurDir at h
  split_ifs at h with hlead
  · exact ⟨hlead.1, hlead.2.1⟩
  · cases h

/-- A "." is a part only at the beginning of a relative path and in verbatim paths. -/
theorem not_hasRoot_of_curDir {os : Os} {text : List Char} (h : Part.curDir ∈ (parse os text).parts) :
    (parse os text).isVerbatim ∨ (parse os text).hasRoot = false := by
  simp only [parse, List.mem_append] at h
  rcases h with h | h
  · right
    have hlead := leadingCurDir_cases h
    rw [Path.hasRoot]
    simp only [parse]
    rw [hlead.2, hlead.1]
    rfl
  · left
    rcases List.mem_filterMap.1 h with ⟨piece, -, hpiece⟩
    exact isVerbatim_of_parsePart hpiece

/-! ## Walking -/

theorem walk_append (v : Bool) (names : List Name) (ps qs : List Part) :
    walk v names (ps ++ qs) = walk v (walk v names ps) qs := List.foldl_append

/-- The name that a part adds, if it adds one. -/
def Part.name? (isVerbatim : Bool) : Part → Option Name
  | .curDir => if isVerbatim then some ['.'] else none
  | .parentDir => if isVerbatim then some ['.', '.'] else none
  | .normal name => some name

/-- Without ".." a walk only adds names. -/
theorem walk_of_notMem (v : Bool) {ps : List Part} (h : Part.parentDir ∉ ps) (names : List Name) :
    walk v names ps = names ++ ps.filterMap (Part.name? v) := by
  induction ps generalizing names with
  | nil => simp [walk]
  | cons p ps ih =>
    rw [List.mem_cons, not_or] at h
    change walk v (step v names p) ps = _
    rw [ih h.2]
    cases p with
    | curDir => cases v <;> simp [step, Part.name?]
    | parentDir => exact absurd rfl h.1
    | normal name => simp [step, Part.name?]

theorem walk_normal (v : Bool) (names more : List Name) :
    walk v names (more.map .normal) = names ++ more := by
  rw [walk_of_notMem v (by simp)]
  simp [List.filterMap_map, Function.comp_def, Part.name?]

theorem walk_filter_curDir (names : List Name) (ps : List Part) :
    walk false names (ps.filter (· ≠ .curDir)) = walk false names ps := by
  induction ps generalizing names with
  | nil => rfl
  | cons p ps ih =>
    by_cases hp : p = .curDir
    · subst hp
      rw [List.filter_cons_of_neg (by simp), ih]
      rfl
    · rw [List.filter_cons_of_pos (by simpa using hp)]
      exact ih _

/-- One part after so many steps up and these names down. -/
def reduceStep : ℕ × List Name → Part → ℕ × List Name
  | (ups, downs), .curDir => (ups, downs)
  | (ups, downs), .parentDir => if downs = [] then (ups + 1, []) else (ups, downs.dropLast)
  | (ups, downs), .normal name => (ups, downs ++ [name])

/-- How many steps up the parts lead, and the names then to go down. -/
def reduce (parts : List Part) : ℕ × List Name := parts.foldl reduceStep (0, [])

/-- So many steps up and these names down. -/
def follow (names : List Name) (r : ℕ × List Name) : List Name :=
  names.take (names.length - r.1) ++ r.2

theorem step_follow (names : List Name) (r : ℕ × List Name) (p : Part) :
    step false (follow names r) p = follow names (reduceStep r p) := by
  rcases r with ⟨ups, downs⟩
  cases p with
  | curDir => rfl
  | parentDir =>
    by_cases hdowns : downs = []
    · subst hdowns
      have hle : names.length - ups - 1 ≤ names.length := by omega
      simp only [step, follow, reduceStep, if_true, List.append_nil, Bool.false_eq_true, if_false,
        List.dropLast_eq_take, List.length_take, List.take_take]
      congr 1
      omega
    · simp [step, follow, reduceStep, hdowns, List.dropLast_append_of_ne_nil]
  | normal name => simp [step, follow, reduceStep]

/-- A walk goes so many steps up, at most to the root, and then down. -/
theorem walk_eq (names : List Name) (ps : List Part) :
    walk false names ps = follow names (reduce ps) := by
  have hrun : ∀ r, ps.foldl (step false) (follow names r) = follow names (ps.foldl reduceStep r) := by
    induction ps with
    | nil => exact fun _ => rfl
    | cons p ps ih =>
      intro r
      rw [List.foldl_cons, step_follow, ih, List.foldl_cons]
  have hstart : follow names (0, []) = names := by simp [follow]
  rw [walk, reduce, ← hrun, hstart]

/-- Steps that stay above the first names do not see them. -/
theorem follow_append (names more : List Name) {r : ℕ × List Name} (h : r.1 ≤ more.length) :
    follow (names ++ more) r = names ++ follow more r := by
  have hlen : (names ++ more).length - r.1 = names.length + (more.length - r.1) := by
    rw [List.length_append]
    omega
  rw [follow, hlen, List.take_length_add_append, follow, List.append_assoc]

/-! ## Paths from a place -/

section
variable {cwd : Cwd} {l : Loc} {p dir : Path}

theorem Loc.path_join_ofName (l : Loc) (name : Name) :
    l.path.join (.ofName name) = (l.child name).path := by
  simp [Path.join, Path.ofName, Path.hasRoot, Path.pushVerbatim, Loc.path, Loc.child]

theorem parts_join_ofName (base : Path) (name : Name) :
    (base.join (.ofName name)).parts = base.parts ++ [.normal name] := by
  simp [Path.join, Path.ofName, Path.pushVerbatim]

theorem foldl_pushVerbatim (names : List Name) (ps : List Part) :
    ps.foldl Path.pushVerbatim (names.map .normal) = (walk false names ps).map .normal := by
  induction ps generalizing names with
  | nil => rfl
  | cons p ps ih =>
    have hstep : Path.pushVerbatim (names.map .normal) p = (step false names p).map .normal := by
      cases p with
      | curDir => rfl
      | parentDir =>
        rcases List.eq_nil_or_concat names with rfl | ⟨init, last, rfl⟩
        · rfl
        · simp [Path.pushVerbatim, step]
      | normal name => simp [Path.pushVerbatim, step]
    rw [List.foldl_cons, hstep, ih]
    rfl

/-- The place of an absolute path; a place without a prefix needs a file system without. -/
theorem locate_path (h : l.pfx = none → cwd.loc.pfx = none) : cwd.locate l.path = l := by
  rcases l with ⟨pfx, names⟩
  rcases pfx with _ | pre
  · simp [Cwd.locate, Loc.path, walk_normal, h rfl]
  · cases pre <;> simp [Cwd.locate, Loc.path, walk_normal]

/-- A relative path is walked from the place. -/
theorem locate_join (h : l.pfx = none → cwd.loc.pfx = none) (hpfx : p.pfx = none)
    (hroot : p.physicalRoot = false) :
    cwd.locate (l.path.join p) = ⟨l.pfx, walk false l.names p.parts⟩ := by
  by_cases hv : l.path.isVerbatim = true
  · have hjoin : l.path.join p = (⟨l.pfx, walk false l.names p.parts⟩ : Loc).path := by
      have hfold : p.parts.foldl Path.pushVerbatim l.path.parts =
          (walk false l.names p.parts).map .normal := foldl_pushVerbatim l.names p.parts
      simp only [Path.join, hpfx, hroot, hv, hfold]
      rfl
    rw [hjoin]
    exact locate_path h
  · have hjoin : l.path.join p =
        ⟨l.pfx, true, l.names.map .normal ++ p.parts.filter (· ≠ .curDir)⟩ := by
      simp only [Path.join, hpfx, hroot, hv]
      rfl
    have hwalk : walk false [] (l.names.map .normal ++ p.parts.filter (· ≠ .curDir)) =
        walk false l.names p.parts := by
      rw [walk_append, walk_normal, List.nil_append, walk_filter_curDir]
    rw [hjoin]
    cases hl : l.pfx with
    | none => simp only [Cwd.locate, if_true, hwalk, h hl]
    | some pre =>
      have hpre : pre.isVerbatim = false := by
        simpa [Path.isVerbatim, Loc.path, hl] using hv
      cases pre <;> simp_all [Cwd.locate]

/-! ## Directories on the way -/

theorem part_of_prefix_map {c : Component} {cs : List Component} {ps : List Part}
    (h : c :: cs <+: ps.map .part) : ∃ q, c = .part q := by
  cases ps with
  | nil => simp at h
  | cons q ps =>
    rw [List.map_cons, List.cons_prefix_cons] at h
    exact ⟨q, h.1⟩

/-- The components of a path with parts determine its prefix, its root and its parts. -/
theorem parts_of_components (h : dir.components <+: p.components) (hdir : dir.parts ≠ []) :
    dir.pfx = p.pfx ∧ dir.showsRoot = p.showsRoot ∧ dir.parts <+: p.parts := by
  rcases List.exists_cons_of_ne_nil hdir with ⟨d, ds, hd⟩
  have hinj : Function.Injective Component.part := fun _ _ heq => by injection heq
  have hno : ∀ {c : Component} {cs : List Component}, c :: cs <+: p.parts.map Component.part →
      (∀ q, c ≠ .part q) → False := by
    intro c cs hc hne
    rcases part_of_prefix_map hc with ⟨q, hq⟩
    exact hne q hq
  rw [← List.prefix_map_iff_of_injective hinj]
  simp only [Path.components] at h
  cases hdp : dir.pfx <;> cases hpp : p.pfx <;> cases hdr : dir.showsRoot <;>
    cases hpr : p.showsRoot <;>
    simp only [hdp, hpp, hdr, hpr, hd, Option.map_some, Option.map_none, Option.toList_some,
      Option.toList_none, List.map_cons, List.cons_append, List.nil_append, List.cons_prefix_cons,
      if_true, if_false, Bool.false_eq_true, reduceCtorEq, false_and, Component.pfx.injEq,
      true_and] at h ⊢
  all_goals first
    | exact h
    | exact ⟨congrArg some h.1, h.2⟩
    | exact (hno h (by simp)).elim
    | exact (hno h.2 (by simp)).elim

/-- A path with a root does not depend on the current directory, but for the prefix. -/
theorem locate_of_hasRoot (h : p.hasRoot) :
    cwd.locate p = ⟨p.pfx.or cwd.loc.pfx, walk p.isVerbatim [] p.parts⟩ := by
  rcases p with ⟨pfx, root, parts⟩
  rcases pfx with _ | pre
  · simp_all [Path.hasRoot, Path.isVerbatim, Cwd.locate]
  · cases pre <;> simp_all [Path.hasRoot, Path.isVerbatim, Cwd.locate, Prefix.hasImplicitRoot,
      Prefix.isVerbatim]

theorem hasRoot_of_showsRoot (hpfx : dir.pfx = p.pfx) (hshows : dir.showsRoot = p.showsRoot)
    (h : p.hasRoot) : dir.hasRoot := by
  rcases p with ⟨pfx, root, parts⟩
  rcases dir with ⟨pfx', root', parts'⟩
  subst hpfx
  simp only [Path.hasRoot, Path.showsRoot, Bool.or_eq_true] at h hshows ⊢
  rcases pfx' with _ | pre
  · simp_all
  · cases pre <;> simp_all [Prefix.hasImplicitRoot, Prefix.isVerbatim]

/-- An absolute path, without "..", whose parent starts with a directory leads below it. -/
theorem below_of_startsWith (hroot : p.hasRoot) (hcur : Part.curDir ∈ p.parts → p.isVerbatim)
    (hparent : Part.parentDir ∉ p.parts) (hdir : dir.parts ≠ [])
    (h : (p.parent.getD p).startsWith dir) : (cwd.locate p).Below (cwd.locate dir) := by
  rcases List.eq_nil_or_concat p.parts with hnil | ⟨init, last, hlast⟩
  · have hself : p.parent.getD p = p := by simp [Path.parent, hnil]
    rw [hself] at h
    have hpre := (parts_of_components (List.isPrefixOf_iff_prefix.1 h) hdir).2.2
    rw [hnil, List.prefix_nil] at hpre
    exact absurd hpre hdir
  have hself : p.parent.getD p = { p with parts := init } := by
    simp [Path.parent, hlast]
  rw [hself] at h
  rcases parts_of_components (List.isPrefixOf_iff_prefix.1 h) hdir with ⟨hpfx, hshows, more, hmore⟩
  have hparts : p.parts = dir.parts ++ (more ++ [last]) := by
    rw [hlast, ← List.append_assoc, hmore, List.concat_eq_append]
  rw [hparts, List.mem_append, not_or] at hparent
  -- the last part adds a name
  have hname : ∃ name, last.name? p.isVerbatim = some name := by
    cases last with
    | curDir => exact ⟨['.'], by simp [Part.name?, hcur (by simp [hlast])]⟩
    | parentDir => exact absurd hparent.2 (by simp)
    | normal name => exact ⟨name, rfl⟩
  rcases hname with ⟨name, hname⟩
  have hv : dir.isVerbatim = p.isVerbatim := by rw [Path.isVerbatim, hpfx, Path.isVerbatim]
  have hwalk : walk p.isVerbatim [] p.parts = walk dir.isVerbatim [] dir.parts ++
      (more ++ [last]).filterMap (Part.name? p.isVerbatim) := by
    rw [hparts, walk_append, walk_of_notMem _ hparent.2, hv]
  rw [locate_of_hasRoot hroot, locate_of_hasRoot (hasRoot_of_showsRoot hpfx hshows hroot)]
  exact ⟨by rw [hpfx], _, by simp [hname], hwalk⟩

end

end Paths

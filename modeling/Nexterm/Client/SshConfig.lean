/-
  Import of SSH hosts (`parse_ssh_config` of the host manager).

  * `readLine`, `step`, `parseSshConfig`: the scanner, one line after the other.
  * `OpenSsh.directive`: a line under the syntax of OpenSSH, a keyword and its arguments;
    `OpenSsh.entries`: one entry for each literal alias of a Host line, from its block.
  * `parseSshConfig_eq`: what the scanner returns, Host line by Host line.
  * `BlocksAgree`: the texts whose Host lines have at most one alias, written plainly, and whose
    blocks end where the scanner ends them; `parse_of_blocksAgree`, `blocksAgree_of_parse`.
-/
import Nexterm.Lib.Join
import Nexterm.Lib.StrLines
import Nexterm.Settings.Schema
import Nexterm.Vt.Text

namespace Nexterm.Client.SshConfig

open Settings (HostConfig)
open Str (lines)
open Vt (isWhitespace)

/-! ## Lines -/

/-- `str::trim`. -/
def trim (text : List Char) : List Char := Join.strip isWhitespace text

/-- Parse `keyword value` or `keyword=value`. -/
def splitDirective (trimmed : List Char) : Option (List Char × List Char) :=
  if '=' ∈ trimmed then
    some (trim (trimmed.takeWhile (· ≠ '=')), trim ((trimmed.dropWhile (· ≠ '=')).drop 1))
  else if trimmed.any isWhitespace then
    some (trim (trimmed.takeWhile (!isWhitespace ·)), trim (trimmed.dropWhile (!isWhitespace ·)))
  else none

/-- The keyword in lower case and the value.  (Outside ASCII only the Kelvin sign has a lower case
    in it, a letter of none of the keywords.) -/
def readLine (line : List Char) : Option (List Char × List Char) :=
  let trimmed := trim line
  if trimmed = [] ∨ trimmed.head? = some '#' then none
  else (splitDirective trimmed).map fun (keyword, value) => (keyword.map Char.toLower, value)

/-! ## Entries -/

/-- Expand the `~/` prefix. -/
def expandHome (home key : List Char) : List Char :=
  if ['~', '/'].isPrefixOf key then home ++ key.drop 1 else key

/-- The entry of an alias, with defaults for what is not given. -/
def hostConfig (home hostAlias : List Char) (hostname user : Option (List Char)) (port : UInt16)
    (key : Option (List Char)) : HostConfig where
  name := String.ofList (hostAlias ++ " (ssh config)".toList)
  host := String.ofList (hostname.getD hostAlias)
  port := port
  username := String.ofList (user.getD "root".toList)
  authType := if key.isSome then "key" else "agent"
  keyPath := key.map fun key => String.ofList (expandHome home key)
  forwardLocal := []
  forwardRemote := []
  proxyJump := none
  x11Forward := false
  x11Trusted := false
  group := ""
  tags := []

/-- `value.parse().unwrap_or(22)`. -/
def parsePort (value : List Char) : UInt16 := (Vt.parseU16 (String.ofList value)).getD 22

def hasWildcard (hostAlias : List Char) : Bool := '*' ∈ hostAlias ∨ '?' ∈ hostAlias

/-! ## The scanner -/

/-- The block currently being parsed. -/
structure Current where
  hostAlias : Option (List Char)
  hostname : Option (List Char)
  user : Option (List Char)
  port : UInt16
  key : Option (List Char)

def Current.start (hostAlias : Option (List Char)) : Current := ⟨hostAlias, none, none, 22, none⟩

/-- The entry of a block; wildcards are skipped. -/
def flush (home : List Char) (c : Current) : List HostConfig :=
  match c.hostAlias with
  | none => []
  | some hostAlias =>
    if hasWildcard hostAlias then [] else [hostConfig home hostAlias c.hostname c.user c.port c.key]

def kwHost : List Char := "host".toList
def kwHostname : List Char := "hostname".toList
def kwUser : List Char := "user".toList
def kwPort : List Char := "port".toList
def kwIdentityfile : List Char := "identityfile".toList

/-- One line. -/
def step (home : List Char) (s : List HostConfig × Current) (line : List Char) :
    List HostConfig × Current :=
  match readLine line with
  | none => s
  | some (keyword, value) =>
    if keyword = kwHost then (s.1 ++ flush home s.2, .start (some value))
    else if keyword = kwHostname then (s.1, { s.2 with hostname := some value })
    else if keyword = kwUser then (s.1, { s.2 with user := some value })
    else if keyword = kwPort then (s.1, { s.2 with port := parsePort value })
    else if keyword = kwIdentityfile then (s.1, { s.2 with key := some value })
    else s

/-- Parse the SSH config text. -/
def parseSshConfig (home content : List Char) : List HostConfig :=
  let s := (lines content).foldl (step home) ([], .start none)
  s.1 ++ flush home s.2

/-! ## The syntax of OpenSSH -/

namespace OpenSsh

def isBlank (c : Char) : Bool := c = ' ' ∨ c = '\t' ∨ c = '\r' ∨ c = '\n'

def quote : Char := Char.ofNat 0x22

def apostrophe : Char := Char.ofNat 0x27

/-- The next token, up to a blank, a quote or a '='; one '=' is skipped. -/
def strdelim (s : List Char) : Option (List Char × List Char) :=
  let inToken := fun c => !(isBlank c || c = quote || c = '=')
  let before := s.takeWhile inToken
  match s.dropWhile inToken with
  | [] => some (before, [])
  | c :: rest =>
    if c = quote then
      match rest.dropWhile (· ≠ quote) with
      | [] => none
      | _ :: after => some (before ++ rest.takeWhile (· ≠ quote), after.dropWhile isBlank)
    else
      let after := rest.dropWhile isBlank
      if c ≠ '=' ∧ after.head? = some '=' then some (before, (after.drop 1).dropWhile isBlank)
      else some (before, after)

/-- Whether a backslash before a character is left out. -/
def isEscaped (open_ : Option Char) (c : Char) : Bool :=
  c = apostrophe ∨ c = quote ∨ c = '\\' ∨ (open_ = none ∧ c = ' ')

/-- The arguments; `word` is the one being read, `open_` the quotation mark it is inside, and a
    character behind a backslash is skipped.  A '#' between arguments starts a comment. -/
def argvSplit (skip : Bool) (word : Option (List Char)) (open_ : Option Char) :
    List Char → Option (List (List Char))
  | [] => if open_.isSome then none else some word.toList
  | c :: cs =>
    let text := word.getD []
    if skip then argvSplit false word open_ cs
    else if c = '\\' then
      match cs.head?.filter (isEscaped open_) with
      | some d => argvSplit true (some (text ++ [d])) open_ cs
      | none => argvSplit false (some (text ++ [c])) open_ cs
    else if open_ = none ∧ (c = ' ' ∨ c = '\t') then
      (argvSplit false none none cs).map (word.toList ++ ·)
    else if open_ = none ∧ word = none ∧ c = '#' then some []
    else if open_ = none ∧ (c = quote ∨ c = apostrophe) then
      argvSplit false (some text) (some c) cs
    else if open_ = some c then argvSplit false (some text) none cs
    else argvSplit false (some (text ++ [c])) open_ cs

/-- A keyword in lower case and its arguments; nothing for blank lines, comments and lines that are
    rejected. -/
def directive (line : List Char) : Option (List Char × List (List Char)) :=
  let text := (line.dropWhile isBlank).rdropWhile fun c => isBlank c || c = '\x0c'
  (strdelim text).bind fun first =>
    (if first.1 = [] then strdelim first.2 else some first).bind fun (keyword, rest) =>
      if keyword = [] ∨ keyword.head? = some '#' then none
      else
        (argvSplit false none none rest).map fun args => (keyword.map Char.toLower, args)

/-- A pattern of a Host line that is neither negated nor contains a wildcard. -/
def isAlias (arg : List Char) : Bool := arg ≠ [] ∧ arg.head? ≠ some '!' ∧ !hasWildcard arg

/-- The literal aliases of a Host line. -/
def aliases (line : List Char) : List (List Char) :=
  match directive line with
  | some (keyword, args) => if keyword = kwHost then args.filter isAlias else []
  | none => []

/-- A line that starts a block. -/
def startsBlock (line : List Char) : Bool :=
  (directive line).any fun d => d.1 = kwHost ∨ d.1 = "match".toList

/-- The rest of the block. -/
def block (rest : List (List Char)) : List (List Char) := rest.takeWhile (!startsBlock ·)

/-- The value that a line gives for a keyword. -/
def value? (keyword line : List Char) : Option (List Char) :=
  (directive line).bind fun d => if d.1 = keyword then d.2.head? else none

/-- The first value that is given for a keyword. -/
def firstValue (keyword : List Char) (block : List (List Char)) : Option (List Char) :=
  block.findSome? (value? keyword)

/-- The entry of an alias, from its block. -/
def entry (home hostAlias : List Char) (block : List (List Char)) : HostConfig :=
  hostConfig home hostAlias (firstValue kwHostname block) (firstValue kwUser block)
    (((firstValue kwPort block).map parsePort).getD 22) (firstValue kwIdentityfile block)

/-- The entries of a text, in file order. -/
def entries (home : List Char) : List (List Char) → List HostConfig
  | [] => []
  | line :: rest => (aliases line).map (entry home · (block rest)) ++ entries home rest

end OpenSsh

/-! ## What the scanner returns -/

/-- The value that the scanner reads for a keyword. -/
def readValue? (keyword line : List Char) : Option (List Char) :=
  (readLine line).bind fun d => if d.1 = keyword then some d.2 else none

/-- The lines that the scanner takes for the rest of a block: up to the next Host line it reads, and
    through Match lines. -/
def seen (rest : List (List Char)) : List (List Char) :=
  rest.takeWhile fun line => (readValue? kwHost line).isNone

/-- The last value that the scanner reads for a keyword. -/
def lastValue (keyword : List Char) (ls : List (List Char)) : Option (List Char) :=
  (ls.filterMap (readValue? keyword)).getLast?

/-- The whole value of a Host line, unless it has a wildcard. -/
def readAliases (line : List Char) : List (List Char) :=
  (readValue? kwHost line).toList.filter (!hasWildcard ·)

def readEntry (home hostAlias : List Char) (ls : List (List Char)) : HostConfig :=
  hostConfig home hostAlias (lastValue kwHostname ls) (lastValue kwUser ls)
    (((lastValue kwPort ls).map parsePort).getD 22) (lastValue kwIdentityfile ls)

/-- The entries of the scanner, Host line by Host line. -/
def scanned (home : List Char) : List (List Char) → List HostConfig
  | [] => []
  | line :: rest => (readAliases line).map (readEntry home · (seen rest)) ++ scanned home rest

/-- The block after some lines without a Host line. -/
def Current.after (c : Current) (ls : List (List Char)) : Current where
  hostAlias := c.hostAlias
  hostname := (lastValue kwHostname ls).or c.hostname
  user := (lastValue kwUser ls).or c.user
  port := ((lastValue kwPort ls).map parsePort).getD c.port
  key := (lastValue kwIdentityfile ls).or c.key

section
variable {home : List Char}

theorem lastValue_append (keyword : List Char) (as bs : List (List Char)) :
    lastValue keyword (as ++ bs) = (lastValue keyword bs).or (lastValue keyword as) := by
  simp [lastValue, List.filterMap_append, List.getLast?_append]

theorem Current.after_nil (c : Current) : c.after [] = c := rfl

theorem Current.after_append (c : Current) (as bs : List (List Char)) :
    (c.after as).after bs = c.after (as ++ bs) := by
  simp only [Current.after, lastValue_append, Option.or_assoc, Current.mk.injEq, true_and, and_true]
  cases lastValue kwPort bs <;> simp

/-- A line that is no Host line changes the block only. -/
theorem step_of_readHost {line : List Char} (h : readValue? kwHost line = none)
    (hosts : List HostConfig) (c : Current) :
    step home (hosts, c) line = (hosts, c.after [line]) := by
  have hvalue : ∀ keyword, lastValue keyword [line] = readValue? keyword line := by
    intro keyword
    cases hread : readValue? keyword line <;> simp [lastValue, hread]
  simp only [step, Current.after, hvalue]
  cases hline : readLine line with
  | none => simp [readValue?, hline]
  | some d =>
    rcases d with ⟨keyword, value⟩
    have hhost : keyword ≠ kwHost := by
      rintro rfl
      simp [readValue?, hline] at h
    simp only [readValue?, hline, Option.bind_some, if_neg hhost]
    by_cases hname : keyword = kwHostname
    · subst hname
      rfl
    by_cases huser : keyword = kwUser
    · subst huser
      rfl
    by_cases hport : keyword = kwPort
    · subst hport
      rfl
    by_cases hkey : keyword = kwIdentityfile
    · subst hkey
      rfl
    · simp [hname, huser, hport, hkey]

theorem flush_after (value : List Char) (ls : List (List Char)) :
    flush home ((Current.start (some value)).after ls) =
      ([value].filter (!hasWildcard ·)).map (readEntry home · ls) := by
  by_cases hwild : hasWildcard value = true <;>
    simp [flush, Current.after, Current.start, readEntry, hwild]

/-- Whatever block is open, the rest of the text adds its own entries. -/
theorem run_eq (ls : List (List Char)) (hosts : List HostConfig) (c : Current) :
    (ls.foldl (step home) (hosts, c)).1 ++ flush home (ls.foldl (step home) (hosts, c)).2 =
      hosts ++ flush home (c.after (seen ls)) ++ scanned home ls := by
  induction ls generalizing hosts c with
  | nil => simp [seen, scanned, Current.after_nil]
  | cons line rest ih =>
    cases hread : readValue? kwHost line with
    | none =>
      have hseen : seen (line :: rest) = line :: seen rest := by simp [seen, hread]
      have hafter : (c.after [line]).after (seen rest) = c.after (line :: seen rest) :=
        c.after_append [line] (seen rest)
      rw [List.foldl_cons, step_of_readHost hread, ih, hafter, hseen]
      simp [scanned, readAliases, hread]
    | some value =>
      have hseen : seen (line :: rest) = [] := by simp [seen, hread]
      have hstep : step home (hosts, c) line = (hosts ++ flush home c, .start (some value)) := by
        rcases Option.bind_eq_some_iff.1 hread with ⟨⟨keyword, value'⟩, hline, hvalue⟩
        simp only at hvalue
        split_ifs at hvalue with hhost
        cases hvalue
        simp [step, hline, hhost]
      rw [List.foldl_cons, hstep, ih, hseen, Current.after_nil, flush_after]
      simp [scanned, readAliases, hread]

theorem parseSshConfig_eq (home content : List Char) :
    parseSshConfig home content = scanned home (lines content) := by
  have hrun := @run_eq home (lines content) [] (.start none)
  rw [parseSshConfig, hrun]
  rfl

/-! ## Entry by entry -/

theorem hostConfig_inj {a a' : List Char} {h h' u u' : Option (List Char)} {p p' : UInt16}
    {k k' : Option (List Char)} :
    hostConfig home a h u p k = hostConfig home a' h' u' p' k' ↔
      a = a' ∧ h.getD a = h'.getD a' ∧ u.getD "root".toList = u'.getD "root".toList ∧ p = p' ∧
        k.map (expandHome home) = k'.map (expandHome home) := by
  have hof : ∀ {s t : List Char}, String.ofList s = String.ofList t ↔ s = t := by
    intro s t
    exact ⟨fun h => by simpa using congrArg String.toList h, congrArg String.ofList⟩
  have hkey : (k.map fun key => String.ofList (expandHome home key)) =
      (k'.map fun key => String.ofList (expandHome home key)) ↔
        k.map (expandHome home) = k'.map (expandHome home) := by
    cases k <;> cases k' <;> simp [hof]
  have hauth : k.map (expandHome home) = k'.map (expandHome home) →
      (if k.isSome then "key" else "agent") = (if k'.isSome then "key" else "agent") := by
    intro heq
    have hsome := congrArg Option.isSome heq
    rw [Option.isSome_map, Option.isSome_map] at hsome
    rw [hsome]
  simp only [hostConfig, HostConfig.mk.injEq, hof, List.append_cancel_right_eq, hkey, and_true]
  constructor
  · rintro ⟨ha, hh, hp, hu, -, hk⟩
    exact ⟨ha, hh, hu, hp, hk⟩
  · rintro ⟨ha, hh, hu, hp, hk⟩
    exact ⟨ha, hh, hp, hu, hauth hk, hk⟩

/-- A Host line that the scanner reads as OpenSSH does, with a block whose first values are the last
    ones that the scanner reads before the next Host line. -/
structure BlockAgrees (home line : List Char) (rest : List (List Char)) : Prop where
  aliases : readAliases line = OpenSsh.aliases line
  hostname : ∀ hostAlias ∈ OpenSsh.aliases line,
    (lastValue kwHostname (seen rest)).getD hostAlias =
      (OpenSsh.firstValue kwHostname (OpenSsh.block rest)).getD hostAlias
  user : OpenSsh.aliases line ≠ [] → (lastValue kwUser (seen rest)).getD "root".toList =
    (OpenSsh.firstValue kwUser (OpenSsh.block rest)).getD "root".toList
  port : OpenSsh.aliases line ≠ [] → ((lastValue kwPort (seen rest)).map parsePort).getD 22 =
    ((OpenSsh.firstValue kwPort (OpenSsh.block rest)).map parsePort).getD 22
  key : OpenSsh.aliases line ≠ [] →
    (lastValue kwIdentityfile (seen rest)).map (expandHome home) =
      (OpenSsh.firstValue kwIdentityfile (OpenSsh.block rest)).map (expandHome home)

/-- All blocks of a text. -/
def BlocksAgree (home : List Char) : List (List Char) → Prop
  | [] => True
  | line :: rest => BlockAgrees home line rest ∧ BlocksAgree home rest

/-- The aliases can be read off the entries. -/
theorem aliases_eq_of_map_eq {l l' : List (List Char)} {ls ls' : List (List Char)}
    (h : l.map (readEntry home · ls) = l'.map (OpenSsh.entry home · ls')) : l = l' := by
  induction l generalizing l' with
  | nil =>
    cases l' with
    | nil => rfl
    | cons => cases h
  | cons a l ih =>
    cases l' with
    | nil => cases h
    | cons a' l' =>
      rw [List.map_cons, List.map_cons, List.cons.injEq] at h
      rw [(hostConfig_inj.1 h.1).1, ih h.2]

theorem blockAgrees_iff {line : List Char} {rest : List (List Char)} :
    BlockAgrees home line rest ↔
      (readAliases line).map (readEntry home · (seen rest)) =
        (OpenSsh.aliases line).map (OpenSsh.entry home · (OpenSsh.block rest)) := by
  constructor
  · intro h
    rw [h.aliases, List.map_inj_left]
    intro a ha
    have hne := List.ne_nil_of_mem ha
    exact hostConfig_inj.2 ⟨rfl, h.hostname a ha, h.user hne, h.port hne, h.key hne⟩
  · intro h
    have haliases := aliases_eq_of_map_eq h
    rw [haliases, List.map_inj_left] at h
    have hentry := fun a ha => hostConfig_inj.1 (h a ha)
    refine ⟨haliases, fun a ha => (hentry a ha).2.1, ?_, ?_, ?_⟩
    · intro hne
      rcases List.exists_mem_of_ne_nil _ hne with ⟨a, ha⟩
      exact (hentry a ha).2.2.1
    · intro hne
      rcases List.exists_mem_of_ne_nil _ hne with ⟨a, ha⟩
      exact (hentry a ha).2.2.2.1
    · intro hne
      rcases List.exists_mem_of_ne_nil _ hne with ⟨a, ha⟩
      exact (hentry a ha).2.2.2.2

theorem scanned_of_blocksAgree {ls : List (List Char)} (h : BlocksAgree home ls) :
    scanned home ls = OpenSsh.entries home ls := by
  induction ls with
  | nil => rfl
  | cons line rest ih => rw [scanned, OpenSsh.entries, blockAgrees_iff.1 h.1, ih h.2]

theorem length_scanned_le {ls : List (List Char)}
    (h : ∀ line ∈ ls, (readAliases line).length ≤ (OpenSsh.aliases line).length) :
    (scanned home ls).length ≤ (OpenSsh.entries home ls).length := by
  induction ls with
  | nil => exact le_rfl
  | cons line rest ih =>
    simp only [scanned, OpenSsh.entries, List.length_append, List.length_map]
    exact Nat.add_le_add (h line List.mem_cons_self)
      (ih fun l hl => h l (List.mem_cons_of_mem _ hl))

/-- If no Host line is read without having an alias, the entries can only agree block by block. -/
theorem blocksAgree_of_scanned {ls : List (List Char)}
    (hle : ∀ line ∈ ls, (readAliases line).length ≤ (OpenSsh.aliases line).length)
    (h : scanned home ls = OpenSsh.entries home ls) : BlocksAgree home ls := by
  induction ls with
  | nil => trivial
  | cons line rest ih =>
    have hrest := fun l hl => hle l (List.mem_cons_of_mem line hl)
    have hfirst := hle line List.mem_cons_self
    have hlen := congrArg List.length h
    have hrestLen := @length_scanned_le home rest hrest
    simp only [scanned, OpenSsh.entries, List.length_append, List.length_map] at hlen
    rcases List.append_inj h (by simp only [List.length_map]; omega) with ⟨hblock, hblocks⟩
    exact ⟨blockAgrees_iff.2 hblock, ih hrest hblocks⟩

end

/-! ## Plain lines -/

/-- No quotation marks or backslashes, and no other blanks than spaces, tabs and line ends. -/
def PlainChar (c : Char) : Prop :=
  c ≠ OpenSsh.quote ∧ c ≠ OpenSsh.apostrophe ∧ c ≠ '\\' ∧ (isWhitespace c = OpenSsh.isBlank c)

theorem dropWhile_congr {p q : Char → Bool} {l : List Char} (h : ∀ c ∈ l, p c = q c) :
    l.dropWhile p = l.dropWhile q := by
  induction l with
  | nil => rfl
  | cons c l ih =>
    rw [List.dropWhile_cons, List.dropWhile_cons, h c List.mem_cons_self,
      ih fun d hd => h d (List.mem_cons_of_mem _ hd)]

theorem rdropWhile_congr {p q : Char → Bool} {l : List Char} (h : ∀ c ∈ l, p c = q c) :
    l.rdropWhile p = l.rdropWhile q := by
  rw [List.rdropWhile, List.rdropWhile, dropWhile_congr fun c hc => h c (List.mem_reverse.1 hc)]

/-- A trimmed text, with what was trimmed. -/
theorem trim_split (text : List Char) : ∃ before after, text = before ++ trim text ++ after ∧
    (∀ c ∈ before, isWhitespace c) ∧ (∀ c ∈ after, isWhitespace c) ∧
      text.dropWhile isWhitespace = trim text ++ after := by
  refine ⟨text.takeWhile isWhitespace, (text.dropWhile isWhitespace).rtakeWhile isWhitespace,
    ?_, fun c hc => List.mem_takeWhile_imp hc, fun c hc => List.mem_rtakeWhile_imp hc, ?_⟩
  · rw [trim, Join.strip, List.append_assoc, List.rdropWhile_append_rtakeWhile,
      List.takeWhile_append_dropWhile]
  · rw [trim, Join.strip, List.rdropWhile_append_rtakeWhile]

/-- Splitting at the first character of a kind. -/
theorem takeWhile_dropWhile_append {p : Char → Bool} {before : List Char} {c : Char}
    (h : ∀ d ∈ before, p d) (hc : p c = false) (after : List Char) :
    (before ++ c :: after).takeWhile p = before ∧
      (before ++ c :: after).dropWhile p = c :: after := by
  rw [List.takeWhile_append_of_pos h, List.dropWhile_append_of_pos h, List.takeWhile_cons,
    List.dropWhile_cons, hc]
  simp

/-- On plain lines OpenSSH trims what the scanner trims. -/
theorem trim_plain {line : List Char} (h : ∀ c ∈ line, PlainChar c) :
    ((line.dropWhile OpenSsh.isBlank).rdropWhile fun c => OpenSsh.isBlank c || c = '\x0c') =
      trim line := by
  have hdrop : line.dropWhile OpenSsh.isBlank = line.dropWhile isWhitespace :=
    dropWhile_congr fun c hc => (h c hc).2.2.2.symm
  have hmem : ∀ c ∈ line.dropWhile isWhitespace, c ∈ line :=
    fun c hc => (List.dropWhile_suffix _).subset hc
  rw [hdrop, trim, Join.strip]
  refine rdropWhile_congr fun c hc => ?_
  have hplain := (h c (hmem c hc)).2.2.2
  by_cases hff : c = '\x0c'
  · subst hff
    revert hplain
    decide
  · simp [hff, hplain]

/-- A plain character that is no blank is added to the argument. -/
theorem argvSplit_cons {c : Char} {cs : List Char} {word : Option (List Char)} (h : PlainChar c)
    (hblank : ¬ (c = ' ' ∨ c = '\t')) (hcomment : word = none → c ≠ '#') :
    OpenSsh.argvSplit false word none (c :: cs) =
      OpenSsh.argvSplit false (some (word.getD [] ++ [c])) none cs := by
  rcases h with ⟨hquote, hapostrophe, hbackslash, -⟩
  rw [OpenSsh.argvSplit]
  simp only [Bool.false_eq_true, if_false, if_neg hbackslash, true_and, if_neg hblank,
    if_neg (not_or.2 ⟨hquote, hapostrophe⟩), reduceCtorEq]
  rw [if_neg fun hword => hcomment hword.1 hword.2]

theorem argvSplit_blank {c : Char} (hblank : c = ' ' ∨ c = '\t') (cs : List Char)
    (word : Option (List Char)) :
    OpenSsh.argvSplit false word none (c :: cs) =
      (OpenSsh.argvSplit false none none cs).map (word.toList ++ ·) := by
  have hbackslash : c ≠ '\\' := by
    rcases hblank with rfl | rfl <;> decide
  rw [OpenSsh.argvSplit]
  simp only [Bool.false_eq_true, if_false, if_neg hbackslash, true_and, if_pos hblank]

/-- The first argument of a plain text. -/
theorem argvSplit_plain {cs : List Char} (h : ∀ c ∈ cs, PlainChar c) :
    (OpenSsh.argvSplit false none none cs).isSome ∧
      ∀ text, ∃ more, OpenSsh.argvSplit false (some text) none cs =
        some ((text ++ cs.takeWhile fun c => !(c = ' ' || c = '\t')) :: more) := by
  induction cs with
  | nil => exact ⟨rfl, fun text => ⟨[], by simp [OpenSsh.argvSplit]⟩⟩
  | cons c cs ih =>
    have hplain := h c List.mem_cons_self
    have ih := ih fun d hd => h d (List.mem_cons_of_mem _ hd)
    by_cases hblank : c = ' ' ∨ c = '\t'
    · rcases Option.isSome_iff_exists.1 ih.1 with ⟨more, hmore⟩
      refine ⟨?_, fun text => ⟨more, ?_⟩⟩
      · rw [argvSplit_blank hblank, hmore]
        rfl
      · rw [argvSplit_blank hblank, hmore]
        rcases hblank with rfl | rfl
        · simp
        · simp
    · refine ⟨?_, fun text => ?_⟩
      · by_cases hcomment : c = '#'
        · subst hcomment
          rw [OpenSsh.argvSplit]
          rfl
        · rcases ih.2 [c] with ⟨more, hmore⟩
          rw [argvSplit_cons hplain hblank fun _ => hcomment, Option.getD_none, List.nil_append,
            hmore]
          rfl
      · rcases ih.2 (text ++ [c]) with ⟨more, hmore⟩
        refine ⟨more, ?_⟩
        have hword : some text = none → c ≠ '#' := fun hnone => by cases hnone
        have htake : ((c :: cs).takeWhile fun c => !(c = ' ' || c = '\t')) =
            c :: cs.takeWhile fun c => !(c = ' ' || c = '\t') := by
          rw [List.takeWhile_cons, if_pos (by simpa using not_or.1 hblank)]
        rw [argvSplit_cons hplain hblank hword, Option.getD_some, hmore, htake]
        simp

theorem keyword_char {c : Char} (h : c.toLower ∈ kwHost) :
    isWhitespace c = false ∧ c ≠ '=' ∧ c ≠ OpenSsh.quote ∧ c ≠ '#' := by
  by_cases hupper : 'A' ≤ c ∧ c ≤ 'Z'
  · have hlow : 65 ≤ c.toNat := hupper.1
    have hhigh : c.toNat ≤ 90 := hupper.2
    refine ⟨?_, ?_, ?_, ?_⟩
    · simp only [isWhitespace, decide_eq_false_iff_not]
      omega
    · rintro rfl
      revert hlow
      decide
    · rintro rfl
      revert hlow
      decide
    · rintro rfl
      revert hlow
      decide
  · have hself : c.toLower = c := dif_neg hupper
    rw [hself] at h
    have hletter : c = 'h' ∨ c = 'o' ∨ c = 's' ∨ c = 't' := by simpa [kwHost] using h
    rcases hletter with rfl | rfl | rfl | rfl <;> decide

theorem isWhitespace_of_isBlank {c : Char} (h : OpenSsh.isBlank c) : isWhitespace c := by
  simp only [OpenSsh.isBlank, decide_eq_true_eq] at h
  rcases h with rfl | rfl | rfl | rfl <;> decide

/-- Trimming what is trimmed already drops nothing. -/
theorem dropWhile_of_trim {t : List Char} (h : trim t = t) : t.dropWhile isWhitespace = t := by
  rcases trim_split t with ⟨_, after, -, -, -, hdrop⟩
  have hlen : (t.dropWhile isWhitespace).length ≤ t.length :=
    (List.dropWhile_suffix isWhitespace).length_le
  rw [hdrop, h, List.length_append] at hlen
  have hnil : after = [] := List.eq_nil_of_length_eq_zero (by omega)
  rw [hdrop, h, hnil, List.append_nil]

theorem eq_nil_of_dropWhile {before rest : List Char} (hbefore : ∀ c ∈ before, isWhitespace c)
    (h : (before ++ rest).dropWhile isWhitespace = before ++ rest) : before = [] := by
  rw [List.dropWhile_append_of_pos hbefore] at h
  have hlen : (rest.dropWhile isWhitespace).length ≤ rest.length :=
    (List.dropWhile_suffix isWhitespace).length_le
  rw [h, List.length_append] at hlen
  exact List.eq_nil_of_length_eq_zero (by omega)

theorem trim_of_forall {text : List Char} (h : ∀ c ∈ text, isWhitespace c = false) :
    trim text = text := by
  have hnil : ∀ l : List Char, (∀ c ∈ l, c ∈ text) → (∀ c ∈ l, isWhitespace c) → l = [] := by
    intro l hmem hspace
    cases l with
    | nil => rfl
    | cons c l =>
      have hc := hspace c List.mem_cons_self
      rw [h c (hmem c List.mem_cons_self)] at hc
      cases hc
  rcases trim_split text with ⟨before, after, heq, hbefore, hafter, -⟩
  have hbeforeNil := hnil before (fun c hc => by rw [heq]; simp [hc]) hbefore
  have hafterNil := hnil after (fun c hc => by rw [heq]; simp [hc]) hafter
  rw [hbeforeNil, hafterNil] at heq
  simpa using heq.symm

/-- The characters of a keyword are in its token. -/
theorem keyword_inToken {keyword : List Char} (hkeyword : keyword.map Char.toLower = kwHost) :
    ∀ c ∈ keyword, (!(OpenSsh.isBlank c || c = OpenSsh.quote || c = '=')) = true := by
  intro c hc
  rcases keyword_char (hkeyword ▸ List.mem_map_of_mem hc) with ⟨hspace, heq, hquote, -⟩
  have hblank : OpenSsh.isBlank c = false := by
    by_contra hblank
    rw [Bool.not_eq_false] at hblank
    rw [isWhitespace_of_isBlank hblank] at hspace
    cases hspace
  simp [hblank, heq, hquote]

/-- A token ends at a blank or a '='. -/
theorem strdelim_append {keyword : List Char} (hkeyword : keyword.map Char.toLower = kwHost)
    {c : Char} (hc : OpenSsh.isBlank c ∨ c = '=') (rest : List Char) :
    OpenSsh.strdelim (keyword ++ c :: rest) =
      if c ≠ '=' ∧ (rest.dropWhile OpenSsh.isBlank).head? = some '=' then
        some (keyword, ((rest.dropWhile OpenSsh.isBlank).drop 1).dropWhile OpenSsh.isBlank)
      else some (keyword, rest.dropWhile OpenSsh.isBlank) := by
  have hend : (!(OpenSsh.isBlank c || c = OpenSsh.quote || c = '=')) = false := by
    rcases hc with hc | hc <;> simp [hc]
  have hquote : c ≠ OpenSsh.quote := by
    rintro rfl
    revert hc
    decide
  have hsplit := takeWhile_dropWhile_append (keyword_inToken hkeyword) hend rest
  rw [OpenSsh.strdelim, hsplit.1, hsplit.2]
  simp only [if_neg hquote]

/-- On plain texts the blanks of OpenSSH are those of the scanner. -/
theorem dropWhile_isBlank {l : List Char} (h : ∀ c ∈ l, PlainChar c) :
    l.dropWhile OpenSsh.isBlank = l.dropWhile isWhitespace :=
  dropWhile_congr fun c hc => (h c hc).2.2.2.symm

/-- A text `keyword=value`, with perhaps some blanks around the sign and behind the value. -/
theorem strdelim_of_eqSign {x y : List Char} (h : ∀ c ∈ x ++ '=' :: y, PlainChar c)
    (htrim : trim (x ++ '=' :: y) = x ++ '=' :: y)
    (hkeyword : (trim x).map Char.toLower = kwHost) :
    ∃ after, (∀ c ∈ after, isWhitespace c) ∧ (∀ c ∈ trim y ++ after, c ∈ x ++ '=' :: y) ∧
      OpenSsh.strdelim (x ++ '=' :: y) = some (trim x, trim y ++ after) := by
  have hdrop := dropWhile_of_trim htrim
  rcases trim_split x with ⟨before, blanks, hsplitx, hbefore, hblanks, -⟩
  rcases trim_split y with ⟨-, after, -, -, hafter, hdropy⟩
  generalize trim x = keyword at *
  subst hsplitx
  simp only [List.append_assoc] at hdrop
  have hnil := eq_nil_of_dropWhile hbefore hdrop
  subst hnil
  have hy : y.dropWhile OpenSsh.isBlank = trim y ++ after := by
    rw [dropWhile_isBlank fun c hc => h c (by simp [hc]), hdropy]
  have hmemy : ∀ c ∈ trim y ++ after, c ∈ y := by
    rw [← hy]
    exact fun c hc => (List.dropWhile_suffix _).subset hc
  refine ⟨after, hafter, fun c hc => by simp [hmemy c hc], ?_⟩
  rw [List.nil_append, List.append_assoc]
  cases blanks with
  | nil =>
    rw [List.nil_append, strdelim_append hkeyword (Or.inr rfl), if_neg fun hne => hne.1 rfl, hy]
  | cons blank blanks =>
    have hmem : ∀ c ∈ blank :: blanks, OpenSsh.isBlank c := by
      intro c hc
      rw [← (h c (List.mem_append_left _ (List.mem_append_right _ hc))).2.2.2]
      exact hblanks c hc
    have hrest : (blanks ++ '=' :: y).dropWhile OpenSsh.isBlank = '=' :: y := by
      rw [List.dropWhile_append_of_pos fun c hc => hmem c (List.mem_cons_of_mem _ hc)]
      rfl
    have hne : blank ≠ '=' := by
      rintro rfl
      have hbad := hmem '=' List.mem_cons_self
      revert hbad
      decide
    rw [List.cons_append, strdelim_append hkeyword (Or.inl (hmem _ List.mem_cons_self)), hrest,
      if_pos ⟨hne, rfl⟩, List.drop_one, List.tail_cons, hy]

/-- A text `keyword value`, with perhaps some blanks behind the value. -/
theorem strdelim_of_space {t : List Char} (h : ∀ c ∈ t, PlainChar c) (heq : '=' ∉ t)
    (hspace : t.any isWhitespace = true)
    (hkeyword : (trim (t.takeWhile (!isWhitespace ·))).map Char.toLower = kwHost) :
    ∃ after, (∀ c ∈ after, isWhitespace c) ∧
      (∀ c ∈ trim (t.dropWhile (!isWhitespace ·)) ++ after, c ∈ t) ∧
      OpenSsh.strdelim t = some (trim (t.takeWhile (!isWhitespace ·)),
        trim (t.dropWhile (!isWhitespace ·)) ++ after) := by
  have hword : ∀ c ∈ t.takeWhile (!isWhitespace ·), isWhitespace c = false := by
    intro c hc
    simpa using List.mem_takeWhile_imp hc
  rw [trim_of_forall hword] at hkeyword ⊢
  have hsplit := (List.takeWhile_append_dropWhile (p := (!isWhitespace ·)) (l := t)).symm
  cases hrest : t.dropWhile (!isWhitespace ·) with
  | nil =>
    rw [hrest, List.append_nil] at hsplit
    rcases List.any_eq_true.1 hspace with ⟨c, hc, hcspace⟩
    rw [hsplit] at hc
    rw [hword c hc] at hcspace
    cases hcspace
  | cons blank y =>
    have hblank : isWhitespace blank = true := by
      have hhead := List.head?_dropWhile_not (!isWhitespace ·) t
      rw [hrest] at hhead
      simpa using hhead
    rw [hrest] at hsplit
    have hmem : ∀ c ∈ blank :: y, c ∈ t := by
      intro c hc
      rw [hsplit]
      exact List.mem_append_right _ hc
    rcases trim_split (blank :: y) with ⟨-, after, -, -, hafter, hdropy⟩
    rw [List.dropWhile_cons_of_pos hblank] at hdropy
    have hy : y.dropWhile OpenSsh.isBlank = trim (blank :: y) ++ after := by
      rw [dropWhile_isBlank fun c hc => h c (hmem c (List.mem_cons_of_mem _ hc)), hdropy]
    have hnoEq : (y.dropWhile OpenSsh.isBlank).head? ≠ some '=' := by
      intro hhead
      have hin := (List.dropWhile_suffix _).subset (List.mem_of_head? hhead)
      exact heq (hmem '=' (List.mem_cons_of_mem _ hin))
    have hisBlank : OpenSsh.isBlank blank := by
      rw [← (h blank (hmem blank List.mem_cons_self)).2.2.2]
      exact hblank
    have hmemy : ∀ c ∈ trim (blank :: y) ++ after, c ∈ t := by
      rw [← hy]
      exact fun c hc => hmem c (List.mem_cons_of_mem _ ((List.dropWhile_suffix _).subset hc))
    refine ⟨after, hafter, hmemy, ?_⟩
    conv_lhs => rw [hsplit]
    rw [strdelim_append hkeyword (Or.inl hisBlank), if_neg fun hne => hnoEq hne.2, hy]

/-- A text that is split as `keyword value` or `keyword=value` has these parts for OpenSSH, with
    perhaps some blanks behind the value. -/
theorem strdelim_of_splitDirective {t keyword value : List Char} (h : ∀ c ∈ t, PlainChar c)
    (htrim : trim t = t) (hsplit : splitDirective t = some (keyword, value))
    (hkeyword : keyword.map Char.toLower = kwHost) :
    ∃ after, (∀ c ∈ after, isWhitespace c) ∧ (∀ c ∈ value ++ after, c ∈ t) ∧
      OpenSsh.strdelim t = some (keyword, value ++ after) := by
  unfold splitDirective at hsplit
  split_ifs at hsplit with heq hspace
  · rcases List.eq_append_cons_of_mem heq with ⟨x, y, rfl, hx⟩
    have hxEq : ∀ d ∈ x, decide (d ≠ '=') = true :=
      fun d hd => decide_eq_true fun heq => hx (heq ▸ hd)
    have hxy := takeWhile_dropWhile_append hxEq (c := '=') (by decide) y
    rw [hxy.1, hxy.2, List.drop_one, List.tail_cons, Option.some.injEq, Prod.mk.injEq] at hsplit
    rcases hsplit with ⟨rfl, rfl⟩
    exact strdelim_of_eqSign h htrim hkeyword
  · rw [Option.some.injEq, Prod.mk.injEq] at hsplit
    rcases hsplit with ⟨rfl, rfl⟩
    exact strdelim_of_space h heq hspace hkeyword

theorem trim_trim (text : List Char) : trim (trim text) = trim text := Join.strip_strip _ _

theorem trim_of_splitDirective {t keyword value : List Char}
    (h : splitDirective t = some (keyword, value)) : trim value = value := by
  unfold splitDirective at h
  split_ifs at h
  · rw [Option.some.injEq, Prod.mk.injEq] at h
    rw [← h.2, trim_trim]
  · rw [Option.some.injEq, Prod.mk.injEq] at h
    rw [← h.2, trim_trim]

theorem head_not_isWhitespace {c : Char} {cs : List Char}
    (h : (c :: cs).dropWhile isWhitespace = c :: cs) : isWhitespace c = false := by
  by_contra hspace
  rw [Bool.not_eq_false] at hspace
  rw [List.dropWhile_cons_of_pos hspace] at h
  have hlen : (cs.dropWhile isWhitespace).length ≤ cs.length :=
    (List.dropWhile_suffix isWhitespace).length_le
  rw [h, List.length_cons] at hlen
  omega

/-- The first argument of a plain Host line begins where the value of the scanner does, and goes no
    further than it. -/
theorem directive_of_readHost {line cs : List Char} {c : Char} (h : ∀ d ∈ line, PlainChar d)
    (hread : readValue? kwHost line = some (c :: cs)) (hcomment : c ≠ '#') :
    ∃ after more, (∀ d ∈ after, isWhitespace d) ∧ OpenSsh.directive line = some (kwHost,
      ([c] ++ (cs ++ after).takeWhile fun c => !(c = ' ' || c = '\t')) :: more) := by
  rcases Option.bind_eq_some_iff.1 hread with ⟨⟨keyword', value'⟩, hline, hvalue⟩
  simp only at hvalue
  split_ifs at hvalue with hhost
  cases hvalue
  unfold readLine at hline
  simp only at hline
  split_ifs at hline
  rcases Option.map_eq_some_iff.1 hline with ⟨⟨keyword, value'⟩, hsplit, heq⟩
  rw [Prod.mk.injEq] at heq
  rcases heq with ⟨hlower, rfl⟩
  rw [hhost] at hlower
  have hplain : ∀ d ∈ trim line, PlainChar d := fun d hd => h d (Join.mem_of_mem_strip hd)
  rcases strdelim_of_splitDirective hplain (trim_trim line) hsplit hlower with
    ⟨after, hafter, hmem, hdelim⟩
  have hc : PlainChar c := hplain c (hmem c (by simp))
  have hspace := head_not_isWhitespace (dropWhile_of_trim (trim_of_splitDirective hsplit))
  have hnoBlank : ¬ (c = ' ' ∨ c = '\t') := by
    rintro (rfl | rfl) <;> revert hspace <;> decide
  rcases (argvSplit_plain fun d hd => hplain d (hmem d (List.mem_cons_of_mem c hd))).2 [c] with
    ⟨more, hmore⟩
  have hargs : OpenSsh.argvSplit false none none (c :: (cs ++ after)) =
      some (([c] ++ (cs ++ after).takeWhile fun c => !(c = ' ' || c = '\t')) :: more) :=
    (argvSplit_cons hc hnoBlank fun _ => hcomment).trans hmore
  have hkeywordNe : keyword ≠ [] := by
    rintro rfl
    cases hlower
  have hhash : keyword.head? ≠ some '#' := by
    intro hhead
    exact (keyword_char (hlower ▸ List.mem_map_of_mem (List.mem_of_head? hhead))).2.2.2 rfl
  refine ⟨after, more, hafter, ?_⟩
  rw [OpenSsh.directive, trim_plain h, hdelim]
  simp only [Option.bind_some, if_neg hkeywordNe, if_neg (not_or.2 ⟨hkeywordNe, hhash⟩),
    List.cons_append, hargs, Option.map_some, hlower]

/-- A plain Host line that the scanner reads as one literal alias has an alias. -/
theorem aliases_ne_nil {line value : List Char} (h : ∀ c ∈ line, PlainChar c)
    (hread : readValue? kwHost line = some value) (hne : value ≠ [])
    (hnegated : value.head? ≠ some '!') (hcomment : value.head? ≠ some '#')
    (hwild : hasWildcard value = false) : OpenSsh.aliases line ≠ [] := by
  rcases List.exists_cons_of_ne_nil hne with ⟨c, cs, rfl⟩
  have hnoComment : c ≠ '#' := fun heq => hcomment (by rw [heq]; rfl)
  rcases directive_of_readHost h hread hnoComment with ⟨after, more, hafter, hdirective⟩
  have hnoWild : ∀ d : Char, isWhitespace d = false → d ∉ c :: cs →
      d ∉ [c] ++ (cs ++ after).takeWhile fun c => !(c = ' ' || c = '\t') := by
    intro d hd hnot hin
    rcases List.mem_append.1 hin with hin | hin
    · exact hnot (List.mem_singleton.1 hin ▸ List.mem_cons_self)
    · rcases List.mem_append.1 ((List.takeWhile_prefix _).subset hin) with hin | hin
      · exact hnot (List.mem_cons_of_mem c hin)
      · rw [hafter d hin] at hd
        cases hd
  have halias : OpenSsh.isAlias
      ([c] ++ (cs ++ after).takeWhile fun c => !(c = ' ' || c = '\t')) = true := by
    simp only [hasWildcard, decide_eq_false_iff_not, not_or] at hwild
    have hstar := hnoWild '*' (by decide) hwild.1
    have hmark := hnoWild '?' (by decide) hwild.2
    have hhead : c ≠ '!' := fun heq => hnegated (by rw [heq]; rfl)
    simp only [OpenSsh.isAlias, hasWildcard, hstar, hmark, or_self, decide_false, Bool.not_false,
      and_true, decide_eq_true_eq]
    exact ⟨by simp, by simpa using hhead⟩
  intro hnil
  simp only [OpenSsh.aliases, hdirective, if_true, List.filter_cons_of_pos halias] at hnil
  cases hnil

theorem mem_of_strdelim {s keyword rest : List Char}
    (h : OpenSsh.strdelim s = some (keyword, rest)) : ∀ c ∈ rest, c ∈ s := by
  intro c hc
  unfold OpenSsh.strdelim at h
  simp only at h
  split at h
  · cases h
    cases hc
  · next d after heq =>
    have hmem : ∀ x ∈ after, x ∈ s := fun x hx =>
      (List.dropWhile_suffix _).subset (heq ▸ List.mem_cons_of_mem d hx)
    have hdrop : ∀ {l : List Char}, c ∈ l.dropWhile OpenSsh.isBlank → c ∈ l :=
      fun hx => (List.dropWhile_suffix _).subset hx
    split_ifs at h
    · split at h
      · cases h
      · next close behind hclose =>
        cases h
        have hin : c ∈ after.dropWhile (· ≠ OpenSsh.quote) := by
          rw [hclose]
          exact List.mem_cons_of_mem close (hdrop hc)
        exact hmem c ((List.dropWhile_suffix _).subset hin)
    · cases h
      exact hmem c (hdrop (List.mem_of_mem_drop (hdrop hc)))
    · cases h
      exact hmem c (hdrop hc)

/-- On plain lines an argument does not start with '#', which starts a comment. -/
theorem head_of_argvSplit {cs : List Char} (h : ∀ c ∈ cs, PlainChar c) (word : Option (List Char))
    (hword : ∀ text, word = some text → text ≠ [] ∧ text.head? ≠ some '#')
    {args : List (List Char)} (hargs : OpenSsh.argvSplit false word none cs = some args) :
    ∀ arg ∈ args, arg.head? ≠ some '#' := by
  induction cs generalizing word args with
  | nil =>
    cases hargs
    intro arg harg
    rw [Option.mem_toList] at harg
    exact (hword arg harg).2
  | cons c cs ih =>
    have hplain := h c List.mem_cons_self
    have hcs := fun d hd => h d (List.mem_cons_of_mem c hd)
    by_cases hblank : c = ' ' ∨ c = '\t'
    · rw [argvSplit_blank hblank] at hargs
      rcases Option.map_eq_some_iff.1 hargs with ⟨more, hmore, rfl⟩
      intro arg harg
      rcases List.mem_append.1 harg with harg | harg
      · rw [Option.mem_toList] at harg
        exact (hword arg harg).2
      · exact ih hcs none (fun text hnone => by cases hnone) hmore arg harg
    · by_cases hcomment : word = none ∧ c = '#'
      · rcases hcomment with ⟨rfl, rfl⟩
        rw [OpenSsh.argvSplit] at hargs
        cases hargs
        exact fun arg harg => by cases harg
      · have hstep : word = none → c ≠ '#' := fun hnone heq => hcomment ⟨hnone, heq⟩
        rw [argvSplit_cons hplain hblank hstep] at hargs
        refine ih hcs _ ?_ hargs
        intro text htext
        cases htext
        cases word with
        | none => exact ⟨by simp, by simpa using hstep rfl⟩
        | some text =>
          rcases hword text rfl with ⟨hne, hhead⟩
          rcases List.exists_cons_of_ne_nil hne with ⟨d, ds, rfl⟩
          exact ⟨by simp, by simpa using hhead⟩

/-- The literal aliases of a plain line. -/
theorem alias_of_mem {line hostAlias : List Char} (h : ∀ c ∈ line, PlainChar c)
    (hmem : hostAlias ∈ OpenSsh.aliases line) :
    OpenSsh.isAlias hostAlias ∧ hostAlias.head? ≠ some '#' := by
  unfold OpenSsh.aliases at hmem
  cases hdirective : OpenSsh.directive line with
  | none => simp [hdirective] at hmem
  | some d =>
    simp only [hdirective] at hmem
    split_ifs at hmem
    · rcases List.mem_filter.1 hmem with ⟨harg, halias⟩
      refine ⟨halias, ?_⟩
      rw [OpenSsh.directive, trim_plain h] at hdirective
      simp only [Option.bind_eq_some_iff] at hdirective
      rcases hdirective with ⟨⟨first, rest⟩, hfirst, ⟨keyword, rest'⟩, hsecond, hargs⟩
      have hrest : ∀ c ∈ rest', PlainChar c := by
        intro c hc
        have hin : c ∈ rest := by
          split_ifs at hsecond
          · exact mem_of_strdelim hsecond c hc
          · cases hsecond
            exact hc
        exact h c (Join.mem_of_mem_strip (mem_of_strdelim hfirst c hin))
      split_ifs at hargs
      rcases Option.map_eq_some_iff.1 hargs with ⟨args, hsplit, rfl⟩
      exact head_of_argvSplit hrest none (fun text hnone => by cases hnone) hsplit hostAlias harg
    · cases hmem

/-! ## The agreement -/

section
variable {home : List Char}

theorem exists_alias_of_mem_entries {ls : List (List Char)} {e : HostConfig}
    (h : e ∈ OpenSsh.entries home ls) : ∃ line ∈ ls, ∃ hostAlias ∈ OpenSsh.aliases line,
      ∃ block, e = OpenSsh.entry home hostAlias block := by
  induction ls with
  | nil => cases h
  | cons line rest ih =>
    rcases List.mem_append.1 h with h | h
    · rcases List.mem_map.1 h with ⟨hostAlias, hmem, rfl⟩
      exact ⟨line, List.mem_cons_self, hostAlias, hmem, _, rfl⟩
    · rcases ih h with ⟨line', hline, hrest⟩
      exact ⟨line', List.mem_cons_of_mem _ hline, hrest⟩

theorem exists_entry_of_readAliases {ls : List (List Char)} {line value : List Char}
    (hline : line ∈ ls) (hmem : value ∈ readAliases line) :
    ∃ block, readEntry home value block ∈ scanned home ls := by
  induction ls with
  | nil => cases hline
  | cons first rest ih =>
    rcases List.mem_cons.1 hline with rfl | hline
    · exact ⟨_, List.mem_append_left _ (List.mem_map_of_mem hmem)⟩
    · rcases ih hline with ⟨block, hblock⟩
      exact ⟨block, List.mem_append_right _ hblock⟩

theorem mem_readAliases {line value : List Char} (h : value ∈ readAliases line) :
    readValue? kwHost line = some value ∧ hasWildcard value = false := by
  rcases List.mem_filter.1 h with ⟨hmem, hwild⟩
  exact ⟨Option.mem_toList.1 hmem, by simpa using hwild⟩

theorem length_readAliases_le (line : List Char) : (readAliases line).length ≤ 1 := by
  refine (List.length_filter_le _ _).trans ?_
  cases readValue? kwHost line <;> simp

/-- On plain texts the entries can only agree block by block. -/
theorem blocksAgree_of_plain {ls : List (List Char)} (hplain : ∀ line ∈ ls, ∀ c ∈ line, PlainChar c)
    (h : scanned home ls = OpenSsh.entries home ls) : BlocksAgree home ls := by
  refine blocksAgree_of_scanned (fun line hline => ?_) h
  by_cases hnil : readAliases line = []
  · rw [hnil]
    exact Nat.zero_le _
  refine (length_readAliases_le line).trans (List.length_pos_iff.2 ?_)
  rcases List.exists_mem_of_ne_nil _ hnil with ⟨value, hmem⟩
  rcases mem_readAliases hmem with ⟨hread, hwild⟩
  -- its entry is that of an alias
  have hscanned : ∃ block, readEntry home value block ∈ scanned home ls :=
    exists_entry_of_readAliases hline hmem
  rcases hscanned with ⟨block, hentry⟩
  rw [h] at hentry
  rcases exists_alias_of_mem_entries hentry with ⟨line', hline', hostAlias, halias, block', heq⟩
  have hname : value = hostAlias := (hostConfig_inj.1 heq).1
  subst hname
  rcases alias_of_mem (hplain line' hline') halias with ⟨hisAlias, hcomment⟩
  simp only [OpenSsh.isAlias, decide_eq_true_eq] at hisAlias
  exact aliases_ne_nil (hplain line hline) hread hisAlias.1 hisAlias.2.1 hcomment hwild

end

/-- **The import is right where all blocks agree, and on plain texts only there.** -/
theorem parse_iff_blocksAgree (home content : List Char) :
    (BlocksAgree home (lines content) →
      parseSshConfig home content = OpenSsh.entries home (lines content)) ∧
    ((∀ line ∈ lines content, ∀ c ∈ line, PlainChar c) →
      parseSshConfig home content = OpenSsh.entries home (lines content) →
        BlocksAgree home (lines content)) := by
  rw [parseSshConfig_eq]
  exact ⟨scanned_of_blocksAgree, blocksAgree_of_plain⟩

theorem parse_iff_blocksAgree_example :
    parseSshConfig [] "Host a\nUser u".toList =
      OpenSsh.entries [] (lines "Host a\nUser u".toList) := by
  refine (parse_iff_blocksAgree [] "Host a\nUser u".toList).1 ?_
  have hlines : lines "Host a\nUser u".toList = ["Host a".toList, "User u".toList] := by decide
  rw [hlines]
  refine ⟨⟨by decide, ?_, ?_, ?_, ?_⟩, ⟨by decide, ?_, ?_, ?_, ?_⟩, trivial⟩ <;> decide

/-- Two aliases become one, a Match block adds to the block before it, and the last value counts. -/
theorem aliases_match_and_repeated :
    ((parseSshConfig [] "Host a b".toList).map (·.host) = ["a b"] ∧
      (OpenSsh.entries [] (lines "Host a b".toList)).map (·.host) = ["a", "b"]) ∧
    ((parseSshConfig [] "Host a\nMatch all\nUser u".toList).map (·.username) = ["u"] ∧
      (OpenSsh.entries [] (lines "Host a\nMatch all\nUser u".toList)).map (·.username) =
        ["root"]) ∧
    ((parseSshConfig [] "Host a\nUser u\nUser v".toList).map (·.username) = ["v"] ∧
      (OpenSsh.entries [] (lines "Host a\nUser u\nUser v".toList)).map (·.username) = ["u"]) := by
  decide

end Nexterm.Client.SshConfig

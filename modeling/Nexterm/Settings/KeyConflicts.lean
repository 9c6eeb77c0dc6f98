/-
  Warnings about key bindings that share a chord (`find_key_conflict` of the settings panel) and the
  matcher of key presses (`key_map.rs`).

  * `configKeyMatchesToken`, `expandLeader`, `Matches`: which presses a binding answers to.
  * `findKeyConflict`: another binding with the same text, but for case and blanks.
  * `chords`: the one sequence of presses that a binding matches, `matches_iff`.
  * `Warns`, `Truthful`: the two halves of the agreement; `Agreeing`: the lists of bindings that
    have both, `warns_and_truthful_iff`.
-/
import Nexterm.Lib.Fallible
import Nexterm.Lib.Join
import Nexterm.Settings.Load
import Nexterm.Vt.Performer

namespace Nexterm.Settings.KeyConflicts

/-! ## Key presses -/

/-- The key codes of `winit` that have a name in the configuration; `other` are the rest. -/
inductive WKeyCode where
  | key (letter : Fin 26)
  | digit (digit : Fin 10)
  | f (n : Fin 12)
  | quote | bracketLeft | bracketRight | backslash | slash | minus | equal | comma | period
  | semicolon | backquote
  | enter | backspace | delete | escape | tab | space
  | arrowUp | arrowDown | arrowLeft | arrowRight | home | «end» | pageUp | pageDown | insert
  | other (n : ℕ)
  deriving DecidableEq

/-- The modifiers that are held. -/
structure ModifiersState where
  control : Bool
  shift : Bool
  alt : Bool
  super : Bool
  deriving DecidableEq

structure Press where
  code : WKeyCode
  mods : ModifiersState
  deriving DecidableEq

/-! ## Key names -/

/-- The keys of punctuation: a double quote and an apostrophe, and a backquote, by their codes. -/
def punctuation : List (Char × WKeyCode) :=
  [('%', .digit 5), (Char.ofNat 0x22, .quote), (Char.ofNat 0x27, .quote), ('[', .bracketLeft),
    (']', .bracketRight), ('\\', .backslash), ('/', .slash), ('-', .minus), ('=', .equal),
    (',', .comma), ('.', .period), (';', .semicolon), (Char.ofNat 0x60, .backquote)]

/-- Convert a single character into a key code. -/
def charToKeycode (ch : Char) : Option WKeyCode :=
  if 'a' ≤ ch ∧ ch ≤ 'z' then some (.key (Fin.ofNat 26 (ch.toNat - 'a'.toNat)))
  else if 'A' ≤ ch ∧ ch ≤ 'Z' then some (.key (Fin.ofNat 26 (ch.toNat - 'A'.toNat)))
  else if '0' ≤ ch ∧ ch ≤ '9' then some (.digit (Fin.ofNat 10 (ch.toNat - '0'.toNat)))
  else punctuation.lookup ch

/-- The names of the special keys. -/
def keyNames : List (String × WKeyCode) :=
  [("enter", .enter), ("return", .enter), ("backspace", .backspace), ("delete", .delete),
    ("del", .delete), ("escape", .escape), ("esc", .escape), ("tab", .tab), ("space", .space),
    ("up", .arrowUp), ("down", .arrowDown), ("left", .arrowLeft), ("right", .arrowRight),
    ("home", .home), ("end", .end), ("pageup", .pageUp), ("pagedown", .pageDown),
    ("insert", .insert), ("f1", .f 0), ("f2", .f 1), ("f3", .f 2), ("f4", .f 3), ("f5", .f 4),
    ("f6", .f 5), ("f7", .f 6), ("f8", .f 7), ("f9", .f 8), ("f10", .f 9), ("f11", .f 10),
    ("f12", .f 11)]

/-- Replace every occurrence of a pattern; `skip` characters belong to one that was replaced. -/
def replaceFrom (pat replacement : List Char) : ℕ → List Char → List Char
  | _, [] => []
  | skip + 1, _ :: cs => replaceFrom pat replacement skip cs
  | 0, c :: cs =>
    if pat.isPrefixOf (c :: cs) then replacement ++ replaceFrom pat replacement (pat.length - 1) cs
    else c :: replaceFrom pat replacement 0 cs

def leaderPattern : List Char := "<leader>".toList

/-- Expands `<leader>` in a key-binding string. -/
def expandLeader (leaderKey key : List Char) : List Char :=
  replaceFrom leaderPattern leaderKey 0 key

/-- `split_whitespace`, and `join` with one space. -/
def words : Join (List Char) (List Char) := Join.words Vt.isWhitespace ' ' Vt.isWhitespace_space

section
variable (toLowercase : List Char → List Char)

/-! ## The matcher -/

/-- Convert a key name into a key code; a single byte stands for itself. -/
def keyStrToKeycode (s : List Char) : Option WKeyCode :=
  let named := keyNames.lookup (String.ofList (toLowercase s))
  match s with
  | [ch] => if ch.utf8Size = 1 then charToKeycode ch else named
  | _ => named

/-- One modifier more; unknown ones are ignored. -/
def needModifier (need : ModifiersState) (part : List Char) : ModifiersState :=
  let name := String.ofList (toLowercase part)
  if name ∈ ["ctrl", "control"] then { need with control := true }
  else if name = "shift" then { need with shift := true }
  else if name ∈ ["alt", "option"] then { need with alt := true }
  else if name ∈ ["meta", "super", "cmd", "command"] then { need with super := true }
  else need

/-- Match a single `+`-delimited key spec. -/
def configKeyMatchesToken (token : List Char) (code : WKeyCode) (mods : ModifiersState) : Bool :=
  let parts := token.splitOn '+'
  let mainKey := parts.getLast?.getD []
  let need := parts.dropLast.foldl (needModifier toLowercase) ⟨false, false, false, false⟩
  if need.control ≠ mods.control then false
  else if need.shift ≠ mods.shift then false
  else if need.alt ≠ mods.alt then false
  else if need.super ≠ mods.super then false
  else keyStrToKeycode toLowercase mainKey = some code

/-- A sequence of presses is matched token by token. -/
def matchesTokens : List (List Char) → List Press → Bool
  | [], [] => true
  | token :: tokens, press :: presses =>
    configKeyMatchesToken toLowercase token press.code press.mods && matchesTokens tokens presses
  | _, _ => false

/-- The tokens of a binding. -/
def tokens (leaderKey : List Char) (binding : KeyBinding) : List (List Char) :=
  words.split (expandLeader leaderKey binding.key.toList)

/-- A binding is matched by a sequence of presses, at least one. -/
def Matches (leaderKey : List Char) (binding : KeyBinding) (presses : List Press) : Prop :=
  presses ≠ [] ∧ matchesTokens toLowercase (tokens leaderKey binding) presses

/-! ## The warning -/

/-- Lower case, with single spaces. -/
def norm (binding : KeyBinding) : List Char :=
  toLowercase (words.join (words.split binding.key.toList))

/-- Index of another binding using the same key chord. -/
def findKeyConflict (bindings : List KeyBinding) (idx : ℕ) : Option ℕ :=
  match bindings[idx]? with
  | none => none
  | some target =>
    let key := norm toLowercase target
    if key = [] then none
    else
      (List.range bindings.length).find? fun i =>
        i ≠ idx ∧ bindings[i]?.any fun b => norm toLowercase b = key

/-! ## What is promised -/

/-- If two bindings are matched by the same presses, there is a warning for each. -/
def Warns (leaderKey : List Char) (bindings : List KeyBinding) : Prop :=
  ∀ (i j : ℕ) (b b' : KeyBinding) (presses : List Press), i ≠ j → bindings[i]? = some b →
    bindings[j]? = some b' → Matches toLowercase leaderKey b presses →
      Matches toLowercase leaderKey b' presses → (findKeyConflict toLowercase bindings i).isSome

/-- The binding of a warning is matched whenever the one it is given for is. -/
def Truthful (leaderKey : List Char) (bindings : List KeyBinding) : Prop :=
  ∀ (i j : ℕ) (b b' : KeyBinding) (presses : List Press),
    findKeyConflict toLowercase bindings i = some j → bindings[i]? = some b →
      bindings[j]? = some b' → Matches toLowercase leaderKey b presses →
        Matches toLowercase leaderKey b' presses

/-! ## The chords of a binding -/

/-- The press that a token stands for. -/
def chord (token : List Char) : Option Press :=
  let parts := token.splitOn '+'
  let mainKey := parts.getLast?.getD []
  let need := parts.dropLast.foldl (needModifier toLowercase) ⟨false, false, false, false⟩
  (keyStrToKeycode toLowercase mainKey).map fun code => ⟨code, need⟩

/-- The presses that a binding stands for. -/
def chords (leaderKey : List Char) (binding : KeyBinding) : Option (List Press) :=
  (tokens leaderKey binding).mapM (chord toLowercase)

/-- The first other binding of the same text, but for case and blanks. -/
def Namesake (bindings : List KeyBinding) (i k : ℕ) (b b' : KeyBinding) : Prop :=
  bindings[k]? = some b' ∧ k ≠ i ∧ norm toLowercase b' = norm toLowercase b ∧
    ∀ k' < k, ∀ b'', bindings[k']? = some b'' → k' ≠ i →
      norm toLowercase b'' ≠ norm toLowercase b

/-- A binding that shares its presses with another one also shares its text with one, and the first
    binding of its text has the same presses. -/
structure Agreeing (leaderKey : List Char) (bindings : List KeyBinding) : Prop where
  shared : ∀ (i j : ℕ) (b b' : KeyBinding) (presses : List Press), i ≠ j →
    bindings[i]? = some b → bindings[j]? = some b' →
      chords toLowercase leaderKey b = some presses →
      chords toLowercase leaderKey b' = some presses → presses ≠ [] → ∃ k b'', k ≠ i ∧ bindings[k]? = some b'' ∧
        norm toLowercase b'' = norm toLowercase b
  alike : ∀ (i k : ℕ) (b b' : KeyBinding) (presses : List Press), bindings[i]? = some b →
    Namesake toLowercase bindings i k b b' →
    chords toLowercase leaderKey b = some presses → presses ≠ [] →
      chords toLowercase leaderKey b' = some presses

end

/-! ## Matching -/

section
variable {toLowercase : List Char → List Char} {leaderKey : List Char} {bindings : List KeyBinding}
  {b : KeyBinding}

theorem configKeyMatchesToken_iff (token : List Char) (press : Press) :
    configKeyMatchesToken toLowercase token press.code press.mods ↔
      chord toLowercase token = some press := by
  rcases press with ⟨code, ⟨control, shift, alt, super⟩⟩
  simp only [configKeyMatchesToken, chord, Option.map_eq_some_iff, Press.mk.injEq]
  generalize List.foldl _ _ _ = need
  rcases need with ⟨control', shift', alt', super'⟩
  simp only [ModifiersState.mk.injEq]
  split_ifs <;> simp_all

theorem matchesTokens_iff (tokens : List (List Char)) (presses : List Press) :
    matchesTokens toLowercase tokens presses ↔
      tokens.mapM (chord toLowercase) = some presses := by
  rw [Fallible.mapM_eq_some_iff]
  induction tokens generalizing presses with
  | nil => cases presses <;> simp [matchesTokens]
  | cons token tokens ih =>
    cases presses with
    | nil => simp [matchesTokens]
    | cons press presses =>
      simp only [matchesTokens, Bool.and_eq_true, configKeyMatchesToken_iff, ih, List.map_cons,
        List.cons.injEq]

/-- A binding is matched by one sequence of presses at most. -/
theorem matches_iff (b : KeyBinding) (presses : List Press) :
    Matches toLowercase leaderKey b presses ↔
      presses ≠ [] ∧ chords toLowercase leaderKey b = some presses := by
  rw [Matches, matchesTokens_iff, chords]

/-! ## The text of a binding -/

theorem replaceFrom_of_forall {pat replacement cs : List Char} {c : Char} (hc : pat.head? = some c)
    (h : c ∉ cs) : replaceFrom pat replacement 0 cs = cs := by
  induction cs with
  | nil => rfl
  | cons d cs ih =>
    rw [List.mem_cons, not_or] at h
    cases pat with
    | nil => cases hc
    | cons p pat =>
      cases hc
      rw [replaceFrom, if_neg (by simp [h.1]), ih h.2]

/-- A binding with presses has a text. -/
theorem norm_ne_nil (hlower : ∀ s, toLowercase s = [] → s = []) {presses : List Press}
    (h : chords toLowercase leaderKey b = some presses) (hne : presses ≠ []) :
    norm toLowercase b ≠ [] := by
  intro hnorm
  have hjoin := hlower _ hnorm
  have hsplit : words.split b.key.toList = [] := by
    cases hwords : words.split b.key.toList with
    | nil => rfl
    | cons x l =>
      have hgood := (words.good_split b.key.toList x (by simp [hwords])).1
      rcases List.exists_cons_of_ne_nil hgood with ⟨c, cs, rfl⟩
      have hmem : c ∈ words.join (words.split b.key.toList) := by
        rw [hwords]
        exact Join.mem_intercalate List.mem_cons_self List.mem_cons_self
      rw [hjoin] at hmem
      cases hmem
  have hblank := Join.words_split_eq_nil hsplit
  have hexpand : expandLeader leaderKey b.key.toList = b.key.toList := by
    refine replaceFrom_of_forall (c := '<') rfl fun hmem => ?_
    have hbad := hblank _ hmem
    revert hbad
    decide
  rw [chords, tokens, hexpand, hsplit] at h
  cases h
  exact hne rfl

theorem findKeyConflict_isSome_iff {i : ℕ} (hb : bindings[i]? = some b) :
    (findKeyConflict toLowercase bindings i).isSome ↔
      norm toLowercase b ≠ [] ∧ ∃ k b', k ≠ i ∧ bindings[k]? = some b' ∧
        norm toLowercase b' = norm toLowercase b := by
  simp only [findKeyConflict, hb]
  split_ifs with hnorm
  · simp [hnorm]
  · simp only [List.find?_isSome, List.mem_range, decide_eq_true_eq, Option.any_eq_true]
    constructor
    · rintro ⟨k, -, hk, b', hb', heq⟩
      exact ⟨hnorm, k, b', hk, hb', heq⟩
    · rintro ⟨-, k, b', hk, hb', heq⟩
      exact ⟨k, (List.getElem?_eq_some_iff.1 hb').1, hk, b', hb', heq⟩

theorem findKeyConflict_eq_some_iff {i k : ℕ} {b' : KeyBinding} (hb : bindings[i]? = some b)
    (hb' : bindings[k]? = some b') :
    findKeyConflict toLowercase bindings i = some k ↔
      norm toLowercase b ≠ [] ∧ Namesake toLowercase bindings i k b b' := by
  simp only [findKeyConflict, hb]
  split_ifs with hnorm
  · simp [hnorm]
  · simp only [List.find?_range_eq_some, List.mem_range, decide_eq_true_eq, Option.any_eq_true,
      Bool.not_eq_true', decide_eq_false_iff_not, not_and, not_exists]
    constructor
    · rintro ⟨⟨hk, b'', hb'', heq⟩, -, hfirst⟩
      rw [hb'] at hb''
      cases hb''
      exact ⟨hnorm, hb', hk, heq, fun k' hk' c hc hne => hfirst k' hk' hne c hc⟩
    · rintro ⟨-, -, hk, heq, hfirst⟩
      exact ⟨⟨hk, b', hb', heq⟩, (List.getElem?_eq_some_iff.1 hb').1,
        fun k' hk' hne c hc => hfirst k' hk' c hc hne⟩

/-- **The warnings agree with the matcher exactly for lists where presses and texts agree.** -/
theorem warns_and_truthful_iff (hlower : ∀ s, toLowercase s = [] → s = []) :
    Warns toLowercase leaderKey bindings ∧ Truthful toLowercase leaderKey bindings ↔
      Agreeing toLowercase leaderKey bindings := by
  constructor
  · rintro ⟨hwarns, htruthful⟩
    refine ⟨?_, ?_⟩
    · intro i j b b' presses hij hb hb' hchords hchords' hne
      have hsome := hwarns i j b b' presses hij hb hb' ((matches_iff b presses).2 ⟨hne, hchords⟩)
        ((matches_iff b' presses).2 ⟨hne, hchords'⟩)
      exact ((findKeyConflict_isSome_iff hb).1 hsome).2
    · intro i k b b' presses hb hnamesake hchords hne
      have hfind := (findKeyConflict_eq_some_iff hb hnamesake.1).2
        ⟨norm_ne_nil hlower hchords hne, hnamesake⟩
      have hmatches := htruthful i k b b' presses hfind hb hnamesake.1
        ((matches_iff b presses).2 ⟨hne, hchords⟩)
      exact ((matches_iff b' presses).1 hmatches).2
  · intro h
    refine ⟨?_, ?_⟩
    · intro i j b b' presses hij hb hb' hmatches hmatches'
      rcases (matches_iff b presses).1 hmatches with ⟨hne, hchords⟩
      have hchords' := ((matches_iff b' presses).1 hmatches').2
      exact (findKeyConflict_isSome_iff hb).2 ⟨norm_ne_nil hlower hchords hne,
        h.shared i j b b' presses hij hb hb' hchords hchords' hne⟩
    · intro i k b b' presses hfind hb hb' hmatches
      rcases (matches_iff b presses).1 hmatches with ⟨hne, hchords⟩
      have hnamesake := ((findKeyConflict_eq_some_iff hb hb').1 hfind).2
      exact (matches_iff b' presses).2 ⟨hne, h.alike i k b b' presses hb hnamesake hchords hne⟩

end

theorem warns_and_truthful_iff_example :
    Warns (·.map Char.toLower) "ctrl+b".toList [⟨"<leader> d", "Detach"⟩, ⟨"f5", "Quit"⟩] ∧
        Truthful (·.map Char.toLower) "ctrl+b".toList [⟨"<leader> d", "Detach"⟩, ⟨"f5", "Quit"⟩] ↔
      Agreeing (·.map Char.toLower) "ctrl+b".toList [⟨"<leader> d", "Detach"⟩, ⟨"f5", "Quit"⟩] :=
  warns_and_truthful_iff fun _ => List.map_eq_nil_iff.1

/-- Modifiers in another order are the same presses without a warning; "<LEADER>" is no leader. -/
theorem other_order_and_leader_case :
    ¬ Warns (·.map Char.toLower) "ctrl+b".toList [⟨"ctrl+shift+p", ""⟩, ⟨"shift+ctrl+p", ""⟩] ∧
      ¬ Truthful (·.map Char.toLower) "ctrl+b".toList [⟨"<leader> d", ""⟩, ⟨"<LEADER> d", ""⟩] := by
  refine ⟨?_, ?_⟩
  · intro h
    have hmatches : ∀ b ∈ [(⟨"ctrl+shift+p", ""⟩ : KeyBinding), ⟨"shift+ctrl+p", ""⟩],
        matchesTokens (·.map Char.toLower) (tokens "ctrl+b".toList b)
          [⟨.key 15, true, true, false, false⟩] = true := by
      decide
    have hwarned := h 0 1 _ _ [⟨.key 15, true, true, false, false⟩] (by decide) rfl rfl
      ⟨by simp, hmatches _ (by simp)⟩ ⟨by simp, hmatches _ (by simp)⟩
    revert hwarned
    decide
  · intro h
    have hfind : findKeyConflict (·.map Char.toLower) [⟨"<leader> d", ""⟩, ⟨"<LEADER> d", ""⟩] 0 =
        some 1 := by
      decide
    have hmatches := h 0 1 _ _
      [⟨.key 1, true, false, false, false⟩, ⟨.key 3, false, false, false, false⟩] hfind rfl rfl
      ⟨by simp, by decide⟩
    revert hmatches
    rw [Matches]
    decide

end Nexterm.Settings.KeyConflicts

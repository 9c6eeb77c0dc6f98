/-
  Rotation of the access log (`web/access_log.rs`, `rotate_files`).

  * `Disk`: files and the paths that an operation wrote over; `removeFile`, `rename`, `create`.
  * `generationPath`, `rotateFiles`: the code; `none` is an operation that failed.
  * `generationPath_inj`: the generations have different paths.
  * `shiftGenerations_spec`: what the loop does, from the generations down to any of them.
  * `rotateFiles_shifts`: rotation shifts the generations, and writes over no file.
-/
import Mathlib.Data.List.Basic
import Mathlib.Logic.Function.Basic
import Nexterm.Lib.Digits

namespace Nexterm.Web

/-! ## Files -/

/-- Files by their paths, and the paths of files that an operation wrote over. -/
structure Disk where
  files : String → Option (List UInt8)
  overwritten : List String

namespace Disk

/-- `Path::exists`. -/
def «exists» (d : Disk) (path : String) : Bool := (d.files path).isSome

/-- `fs::remove_file`. -/
def removeFile (d : Disk) (path : String) : Option Disk :=
  if d.exists path then some { d with files := Function.update d.files path none } else none

/-- Puts a file in place, over the one that is there. -/
def create (d : Disk) (path : String) (content : List UInt8) : Disk where
  files := Function.update d.files path (some content)
  overwritten := if d.exists path then d.overwritten ++ [path] else d.overwritten

/-- `fs::rename`. -/
def rename (d : Disk) (src dst : String) : Option Disk :=
  (d.files src).map fun content =>
    { d with files := Function.update d.files src none }.create dst content

/-- Removes a file if it is there. -/
def removeIfExists (d : Disk) (path : String) : Option Disk :=
  if d.exists path then d.removeFile path else some d

end Disk

/-- The `flate2` crate: what it compresses, it decompresses. -/
structure Gzip where
  compress : List UInt8 → List UInt8
  decompress : List UInt8 → Option (List UInt8)
  decompress_compress : ∀ content, decompress (compress content) = some content

/-! ## Generations -/

/-- The file path of a generation. -/
def generationPath (base : String) (n : ℕ) (compress : Bool) : String :=
  base ++ "." ++ toString n ++ if compress then ".gz" else ""

/-- One step of the loop: a generation file is renamed to the next one. -/
def shiftFile (base : String) (i : ℕ) (d : Disk) (extCompress : Bool) : Option Disk :=
  let src := generationPath base i extCompress
  if d.exists src then
    let dst := generationPath base (i + 1) extCompress
    let d := if d.exists dst then (d.removeFile dst).getD d else d
    d.rename src dst
  else some d

/-- The loop `for i in (1..=i).rev()`, over both forms of a generation. -/
def shiftGenerations (base : String) (compress : Bool) : ℕ → Disk → Option Disk
  | 0, d => some d
  | i + 1, d =>
    ([compress, !compress].foldlM (shiftFile base (i + 1)) d).bind
      (shiftGenerations base compress i)

/-- Gzip-compresses a file. -/
def gzipFile (Z : Gzip) (d : Disk) (src dest : String) : Option Disk :=
  (d.files src).map fun input => d.create dest (Z.compress input)

/-- Rotates the log: the oldest generation is deleted, the others are renamed, and the current file
    becomes the first one. -/
def rotateFiles (Z : Gzip) (d : Disk) (path : String) (maxGenerations : ℕ) (compress : Bool) :
    Option Disk :=
  if maxGenerations = 0 then some d
  else do
    let d ← d.removeIfExists (generationPath path maxGenerations compress)
    let d ← d.removeIfExists (generationPath path maxGenerations (!compress))
    let d ← shiftGenerations path compress (maxGenerations - 1) d
    let dest := generationPath path 1 compress
    let d := if d.exists dest then (d.removeFile dest).getD d else d
    if compress then
      let d ← gzipFile Z d path dest
      d.removeFile path
    else d.rename path dest

/-! ## Paths -/

theorem toList_generationPath (base : String) (n : ℕ) (compress : Bool) :
    (generationPath base n compress).toList =
      base.toList ++ '.' :: ((toString n).toList ++ if compress then ['.', 'g', 'z'] else []) := by
  cases compress <;> simp [generationPath]

/-- **The generations have different paths.** -/
theorem generationPath_inj {base : String} {i j : ℕ} {f g : Bool} :
    generationPath base i f = generationPath base j g ↔ i = j ∧ f = g := by
  constructor
  · intro h
    have hlist := congrArg String.toList h
    rw [toList_generationPath, toList_generationPath] at hlist
    have htail := (List.cons.inj (List.append_cancel_left hlist)).2
    have hrest : ∀ f : Bool,
        (if f then ['.', 'g', 'z'] else []).takeWhile Char.isDigit = [] := by
      intro f
      cases f <;> decide
    obtain ⟨rfl, hform⟩ := (Digits.digits_append_inj (hrest f) (hrest g)).1 htail
    refine ⟨rfl, ?_⟩
    cases f <;> cases g <;> simp_all
  · rintro ⟨rfl, rfl⟩
    rfl

theorem generationPath_ne (base : String) {i j : ℕ} (h : i ≠ j) (f g : Bool) :
    generationPath base i f ≠ generationPath base j g :=
  fun heq => h (generationPath_inj.1 heq).1

theorem generationPath_forms_ne (base : String) (i j : ℕ) (f : Bool) :
    generationPath base i (!f) ≠ generationPath base j f :=
  fun heq => by simpa using (generationPath_inj.1 heq).2

theorem generationPath_ne_base (base : String) (n : ℕ) (compress : Bool) :
    generationPath base n compress ≠ base := by
  intro h
  have hlen := congrArg (fun s => s.toList.length) h
  simp only [toList_generationPath, List.length_append, List.length_cons] at hlen
  omega

/-! ## One generation -/

namespace Disk

/-- From `d` to `d'` a file is moved, if it is there, and none is written over. -/
structure Moved (src dst : String) (d d' : Disk) : Prop where
  dst_eq : d'.files dst = d.files src
  src_eq : d'.files src = none
  others : ∀ p, p ≠ src → p ≠ dst → d'.files p = d.files p
  overwritten : d'.overwritten = d.overwritten

variable {d : Disk} {src dst path : String}

theorem exists_eq_false : d.exists path = false ↔ d.files path = none := by
  rw [Disk.exists, Option.isSome_eq_false_iff, Option.isNone_iff_eq_none]

/-- A file is moved to a free path. -/
theorem rename_spec {content : List UInt8} (hsrc : d.files src = some content)
    (hdst : d.files dst = none) (hne : src ≠ dst) :
    ∃ d', d.rename src dst = some d' ∧ Moved src dst d d' := by
  have hfree : ({ d with files := Function.update d.files src none } : Disk).exists dst = false := by
    rw [exists_eq_false]
    exact (Function.update_of_ne hne.symm _ _).trans hdst
  refine ⟨_, by rw [rename, hsrc, Option.map_some], ?_, ?_, ?_, ?_⟩
  · exact (Function.update_self ..).trans hsrc.symm
  · exact (Function.update_of_ne hne _ _).trans (Function.update_self ..)
  · intro p hp hp'
    exact (Function.update_of_ne hp' _ _).trans (Function.update_of_ne hp _ _)
  · exact if_neg (by rw [hfree]; exact Bool.false_ne_true)

/-- A file is removed. -/
theorem removeIfExists_spec (d : Disk) (path : String) :
    d.removeIfExists path = some { d with files := Function.update d.files path none } := by
  unfold removeIfExists removeFile
  cases hpath : d.exists path with
  | true => rfl
  | false =>
    rw [if_neg Bool.false_ne_true, ← exists_eq_false.1 hpath, Function.update_eq_self]

end Disk

open Disk

variable {base : String} {d : Disk}

/-- A generation file moves to a free path, in its form. -/
theorem shiftFile_spec {i : ℕ} {f : Bool} (hfree : d.files (generationPath base (i + 1) f) = none) :
    ∃ d', shiftFile base i d f = some d' ∧
      Moved (generationPath base i f) (generationPath base (i + 1) f) d d' := by
  have hne : generationPath base i f ≠ generationPath base (i + 1) f :=
    generationPath_ne base (Nat.ne_of_lt (Nat.lt_succ_self i)) f f
  unfold shiftFile
  dsimp only
  rw [exists_eq_false.2 hfree, if_neg Bool.false_ne_true]
  cases hsrc : d.files (generationPath base i f) with
  | none =>
    rw [exists_eq_false.2 hsrc, if_neg Bool.false_ne_true]
    exact ⟨d, rfl, hfree.trans hsrc.symm, hsrc, fun _ _ _ => rfl, rfl⟩
  | some content =>
    have hexists : d.exists (generationPath base i f) = true := by rw [Disk.exists, hsrc]; rfl
    rw [hexists, if_pos rfl]
    exact rename_spec hsrc hfree hne

/-- Both forms of a generation move to the next one, which is free. -/
theorem shiftForms_spec {i : ℕ} (compress : Bool)
    (hfree : ∀ f, d.files (generationPath base (i + 1) f) = none) :
    ∃ d', [compress, !compress].foldlM (shiftFile base i) d = some d' ∧
      (∀ f, d'.files (generationPath base (i + 1) f) = d.files (generationPath base i f)) ∧
      (∀ f, d'.files (generationPath base i f) = none) ∧
      (∀ p, (∀ f, p ≠ generationPath base i f ∧ p ≠ generationPath base (i + 1) f) →
        d'.files p = d.files p) ∧
      d'.overwritten = d.overwritten := by
  have hforms := fun j k => generationPath_forms_ne base j k compress
  obtain ⟨d₁, h₁, hmoved₁⟩ := shiftFile_spec (hfree compress)
  have hfree₁ : d₁.files (generationPath base (i + 1) !compress) = none :=
    (hmoved₁.others _ (hforms _ _) (hforms _ _)).trans (hfree !compress)
  obtain ⟨d₂, h₂, hmoved₂⟩ := shiftFile_spec hfree₁
  refine ⟨d₂, ?_, ?_, ?_, ?_, hmoved₂.overwritten.trans hmoved₁.overwritten⟩
  · rw [List.foldlM_cons, h₁, Option.bind_eq_bind, Option.bind_some, List.foldlM_cons, h₂]
    rfl
  · have hsecond : d₂.files (generationPath base (i + 1) !compress) =
        d.files (generationPath base i !compress) :=
      hmoved₂.dst_eq.trans (hmoved₁.others _ (hforms _ _) (hforms _ _))
    have hfirst : d₂.files (generationPath base (i + 1) compress) =
        d.files (generationPath base i compress) :=
      (hmoved₂.others _ (hforms _ _).symm (hforms _ _).symm).trans hmoved₁.dst_eq
    intro f
    by_cases hf : f = compress
    · exact hf ▸ hfirst
    · exact Bool.eq_not_of_ne hf ▸ hsecond
  · intro f
    by_cases hf : f = compress
    · rw [hf]
      exact (hmoved₂.others _ (hforms _ _).symm (hforms _ _).symm).trans hmoved₁.src_eq
    · rw [Bool.eq_not_of_ne hf]
      exact hmoved₂.src_eq
  · intro p hp
    rw [hmoved₂.others p (hp _).1 (hp _).2, hmoved₁.others p (hp _).1 (hp _).2]

/-! ## The loop -/

/-- The generations up to `k` move to the next ones; the one after them has to be free. -/
theorem shiftGenerations_spec (compress : Bool) : ∀ (k : ℕ) {d : Disk},
    (∀ f, d.files (generationPath base (k + 1) f) = none) →
    ∃ d', shiftGenerations base compress k d = some d' ∧
      (∀ i f, 1 ≤ i → i ≤ k →
        d'.files (generationPath base (i + 1) f) = d.files (generationPath base i f)) ∧
      (∀ f, d'.files (generationPath base 1 f) = none) ∧
      (∀ p, (∀ i f, 1 ≤ i → i ≤ k + 1 → p ≠ generationPath base i f) → d'.files p = d.files p) ∧
      d'.overwritten = d.overwritten
  | 0, d, hfree => ⟨d, rfl, fun i _ h h' => by omega, hfree, fun _ _ => rfl, rfl⟩
  | k + 1, d, hfree => by
    obtain ⟨d₁, h₁, hshifted₁, hfree₁, hothers₁, hover₁⟩ := shiftForms_spec compress hfree
    obtain ⟨d₂, h₂, hshifted₂, hfirst₂, hothers₂, hover₂⟩ :=
      shiftGenerations_spec compress k hfree₁
    refine ⟨d₂, ?_, ?_, hfirst₂, ?_, hover₂.trans hover₁⟩
    · rw [shiftGenerations, h₁, Option.bind_some, h₂]
    · intro i f hi hik
      rcases Nat.lt_or_ge k i with hlast | hbefore
      · -- the generation that this step moves
        obtain rfl : i = k + 1 := by omega
        rw [hothers₂ _ fun j g hj hjk => generationPath_ne base (by omega) f g, hshifted₁]
      · rw [hshifted₂ i f hi hbefore]
        exact hothers₁ _ fun g =>
          ⟨generationPath_ne base (by omega) f g, generationPath_ne base (by omega) f g⟩
    · intro p hp
      rw [hothers₂ p fun i f hi hik => hp i f hi (by omega)]
      exact hothers₁ p fun f => ⟨hp _ f (by omega) (by omega), hp _ f (by omega) (by omega)⟩

/-! ## Rotation -/

/-- What a generation file in a form has for content. -/
def readGeneration (Z : Gzip) (compress : Bool) (stored : List UInt8) : Option (List UInt8) :=
  if compress then Z.decompress stored else some stored

/-- From `d` to `d'` the generations are shifted: the current file is the first one, those before the
    last are the next ones, in the form that they had, and nothing else is touched. -/
structure Rotated (Z : Gzip) (base : String) (n : ℕ) (compress : Bool) (content : List UInt8)
    (d d' : Disk) : Prop where
  shifted : ∀ i f, 1 ≤ i → i < n →
    d'.files (generationPath base (i + 1) f) = d.files (generationPath base i f)
  first : ∃ stored, d'.files (generationPath base 1 compress) = some stored ∧
    readGeneration Z compress stored = some content
  otherForm : d'.files (generationPath base 1 !compress) = none
  current : d'.files base = none
  others : ∀ p, p ≠ base → (∀ i f, 1 ≤ i → i ≤ n → p ≠ generationPath base i f) →
    d'.files p = d.files p
  overwritten : d'.overwritten = d.overwritten

/-- The current file becomes the first generation, which is free. -/
theorem moveCurrent_spec (Z : Gzip) {content : List UInt8} (compress : Bool)
    (hcurrent : d.files base = some content)
    (hfree : d.files (generationPath base 1 compress) = none) :
    ∃ d' stored, (if compress then
        (gzipFile Z d base (generationPath base 1 compress)).bind (·.removeFile base)
      else d.rename base (generationPath base 1 compress)) = some d' ∧
      d'.files (generationPath base 1 compress) = some stored ∧
      readGeneration Z compress stored = some content ∧ d'.files base = none ∧
      (∀ p, p ≠ base → p ≠ generationPath base 1 compress → d'.files p = d.files p) ∧
      d'.overwritten = d.overwritten := by
  have hne := generationPath_ne_base base 1 compress
  cases compress with
  | false =>
    obtain ⟨d', hrename, hmoved⟩ := rename_spec hcurrent hfree hne.symm
    exact ⟨d', content, hrename, hmoved.dst_eq.trans hcurrent, rfl, hmoved.src_eq, hmoved.others,
      hmoved.overwritten⟩
  | true =>
    let dest := generationPath base 1 true
    have hcreated : (d.create dest (Z.compress content)).files base = some content :=
      (Function.update_of_ne hne.symm _ _).trans hcurrent
    refine ⟨{ d.create dest (Z.compress content) with
        files := Function.update (d.create dest (Z.compress content)).files base none },
      Z.compress content, ?_, ?_, Z.decompress_compress content, Function.update_self .., ?_, ?_⟩
    · rw [if_pos rfl, gzipFile, hcurrent, Option.map_some, Option.bind_some, removeFile,
        if_pos (by rw [Disk.exists, hcreated]; rfl)]
    · exact (Function.update_of_ne hne _ _).trans (Function.update_self ..)
    · intro p hbase hdest
      exact (Function.update_of_ne hbase _ _).trans (Function.update_of_ne hdest _ _)
    · exact if_neg (by rw [exists_eq_false.2 hfree]; exact Bool.false_ne_true)

/-- The oldest generation is deleted, in both forms. -/
theorem deleteOldest_spec (d : Disk) (base : String) (n : ℕ) (compress : Bool) :
    ∃ d', ((d.removeIfExists (generationPath base n compress)).bind
        (·.removeIfExists (generationPath base n !compress))) = some d' ∧
      (∀ f, d'.files (generationPath base n f) = none) ∧
      (∀ p, (∀ f, p ≠ generationPath base n f) → d'.files p = d.files p) ∧
      d'.overwritten = d.overwritten := by
  rw [removeIfExists_spec, Option.bind_some, removeIfExists_spec]
  refine ⟨_, rfl, ?_, ?_, rfl⟩
  · intro f
    by_cases hf : f = compress
    · rw [hf]
      exact (Function.update_of_ne (generationPath_forms_ne base n n compress).symm _ _).trans
        (Function.update_self ..)
    · rw [Bool.eq_not_of_ne hf]
      exact Function.update_self ..
  · intro p hp
    exact (Function.update_of_ne (hp _) _ _).trans (Function.update_of_ne (hp _) _ _)

/-- **Rotation shifts the generations**, and no operation writes over a file. -/
theorem rotateFiles_shifts (Z : Gzip) (d : Disk) (base : String) {n : ℕ} (hn : 1 ≤ n)
    (compress : Bool) {content : List UInt8} (hcurrent : d.files base = some content) :
    ∃ d', rotateFiles Z d base n compress = some d' ∧ Rotated Z base n compress content d d' := by
  obtain ⟨k, rfl⟩ : ∃ k, n = k + 1 := ⟨n - 1, by omega⟩
  have hbase : ∀ i f, generationPath base i f ≠ base := generationPath_ne_base base
  -- the oldest generation goes, the others move to the next ones
  obtain ⟨d₁, h₁, hdeleted, hkept, hover₁⟩ := deleteOldest_spec d base (k + 1) compress
  obtain ⟨d₂, h₂, hshifted, hfirst, hothers, hover₂⟩ := shiftGenerations_spec compress k hdeleted
  have hcurrent₂ : d₂.files base = some content := by
    rw [hothers base fun i f _ _ => (hbase i f).symm, hkept base fun f => (hbase _ f).symm, hcurrent]
  -- the current file takes the place of the first one
  obtain ⟨d₃, stored, h₃, hstored, hread, hgone, hsame, hover₃⟩ :=
    moveCurrent_spec Z compress hcurrent₂ (hfirst compress)
  refine ⟨d₃, ?_, ?_, ⟨stored, hstored, hread⟩, ?_, hgone, ?_, ?_⟩
  · rw [rotateFiles, if_neg (Nat.succ_ne_zero k)]
    simp only [Option.bind_eq_bind, Nat.add_sub_cancel]
    rw [← Option.bind_assoc, h₁, Option.bind_some, h₂, Option.bind_some,
      exists_eq_false.2 (hfirst compress), if_neg Bool.false_ne_true]
    exact h₃
  · intro i f hi hik
    rw [hsame _ (hbase _ f) (generationPath_ne base (by omega) f compress),
      hshifted i f hi (by omega)]
    exact hkept _ (generationPath_ne base (by omega) f)
  · rw [hsame _ (hbase _ _) (generationPath_forms_ne base 1 1 compress), hfirst]
  · intro p hp hgens
    rw [hsame p hp (hgens _ _ (Nat.le_refl _) (by omega)), hothers p hgens]
    exact hkept p fun f => hgens _ f (by omega) (Nat.le_refl _)
  · exact hover₃.trans (hover₂.trans hover₁)

/-- A log with two generations, of which the older one is compressed. -/
theorem rotateFiles_shifts_three :
    let Z : Gzip := ⟨fun c => 0x1f :: c, fun c => some c.tail, fun _ => rfl⟩
    let d : Disk := ⟨fun p =>
      if p = "access.log" then some [0x63] else if p = "access.log.1" then some [0x62]
      else if p = "access.log.2.gz" then some [0x1f, 0x61] else none, []⟩
    ∃ d', rotateFiles Z d "access.log" 3 false = some d' ∧
      d'.files (generationPath "access.log" 3 true) =
        d.files (generationPath "access.log" 2 true) ∧
      d'.files "access.log" = none ∧ d'.overwritten = [] := by
  intro Z d
  have hn : 1 ≤ 3 := by decide
  obtain ⟨d', hrotate, hrotated⟩ := rotateFiles_shifts Z d "access.log" hn false rfl
  exact ⟨d', hrotate, hrotated.shifted 2 true (by decide) (by decide), hrotated.current,
    hrotated.overwritten⟩

end Nexterm.Web

/-
  The validation of the URI of an OSC 8 hyperlink (`screen.rs`), its warning included.

  * `checkedHyperlinkUri`: the warning for a refused scheme slices the URI; a slice that is not at a
    character boundary panics.
  * `Validates`: the validation answers, and exactly a short URI with an allowed scheme is accepted.
  * `SlicesAtBoundary`: the condition under which it is so; `validates_iff`: it is exact.
-/
import Nexterm.Vt.Text

namespace Nexterm.Vt

/-! ## The code -/

/-- `&s[..end]`; an end that is not a character boundary panics. -/
def sliceTo (cs : List Char) (last : ℕ) : Option (List Char) :=
  let taken := takeBytes last cs
  if bytesLen taken = last then some taken else none

/-- Whether a URI has an allowed scheme. -/
def hasAllowedScheme (uri : String) : Bool :=
  allowedHyperlinkSchemes.any fun scheme =>
    scheme.toList.isPrefixOf (uri.toList.map Char.toLower)

/-- Validates an OSC 8 hyperlink URI; `none` if the slice in the warning panics. -/
def checkedHyperlinkUri (uri : String) : Option (Option String) :=
  if uri.isEmpty ∨ uri.utf8ByteSize > maxHyperlinkUriLen then some none
  else if !hasAllowedScheme uri then do
    let _shown ← sliceTo uri.toList (min uri.utf8ByteSize 80)
    some none
  else
    let cleaned := uri.toList.filter fun c =>
      0x20 ≤ c.toNat ∧ c.toNat ≠ 0x7f ∧ ¬(0x80 ≤ c.toNat ∧ c.toNat ≤ 0x9f)
    some (if cleaned.isEmpty then none else some (String.ofList cleaned))

/-- The validation answers what the rest of the model says. -/
theorem checkedHyperlinkUri_eq {uri : String} {result : Option String}
    (h : checkedHyperlinkUri uri = some result) : validateHyperlinkUri uri = result := by
  unfold checkedHyperlinkUri hasAllowedScheme at h
  unfold validateHyperlinkUri
  split_ifs at h ⊢ with hlen hscheme
  · cases h
    rfl
  · obtain ⟨_, -, h⟩ := Option.bind_eq_some_iff.1 h
    cases h
    rfl
  · exact Option.some.inj h

/-! ## What is accepted -/

/-- Whether a character is a control character. -/
def isControl (c : Char) : Bool := c.toNat < 0x20 ∨ (0x7f ≤ c.toNat ∧ c.toNat ≤ 0x9f)

/-- The text without its control characters. -/
def withoutControls (s : String) : String := String.ofList (s.toList.filter fun c => !isControl c)

/-- The text starts with the scheme, in any case. -/
def StartsWith (scheme uri : String) : Prop := scheme.toList <+: uri.toList.map Char.toLower

/-- The validation answers.  Exactly a URI within the cap that starts with an allowed scheme is
    accepted, without its control characters, and then still starts with the scheme. -/
def Validates (uri : String) : Prop :=
  ∃ result, checkedHyperlinkUri uri = some result ∧
    (∀ u, result = some u ↔ (uri.utf8ByteSize ≤ maxHyperlinkUriLen ∧
      ∃ scheme ∈ allowedHyperlinkSchemes, StartsWith scheme uri) ∧ u = withoutControls uri) ∧
    ∀ u, result = some u → ∀ scheme ∈ allowedHyperlinkSchemes, StartsWith scheme uri →
      StartsWith scheme u

/-- A number of bytes is that of the first characters. -/
def IsCharBoundary (cs : List Char) (n : ℕ) : Prop := ∃ k, bytesLen (cs.take k) = n

/-- A URI within the cap, longer than 80 bytes, without an allowed scheme: its first 80 bytes are
    characters. -/
def SlicesAtBoundary (uri : String) : Prop :=
  80 < uri.utf8ByteSize → uri.utf8ByteSize ≤ maxHyperlinkUriLen → hasAllowedScheme uri = false →
    IsCharBoundary uri.toList 80

/-! ## Slices -/

theorem bytesLen_cons (c : Char) (cs : List Char) :
    bytesLen (c :: cs) = c.utf8Size + bytesLen cs := rfl

theorem exists_takeBytes_eq : ∀ (n : ℕ) (cs : List Char), ∃ k, takeBytes n cs = cs.take k
  | _, [] => ⟨0, rfl⟩
  | n, c :: cs => by
    unfold takeBytes
    split_ifs with hc
    · obtain ⟨k, hk⟩ := exists_takeBytes_eq (n - c.utf8Size) cs
      exact ⟨k + 1, congrArg _ hk⟩
    · exact ⟨0, rfl⟩

theorem bytesLen_takeBytes_of_take : ∀ (cs : List Char) (k n : ℕ),
    bytesLen (cs.take k) = n → bytesLen (takeBytes n cs) = n
  | [], k, n, h => by
    rw [List.take_nil] at h
    exact h
  | c :: cs, 0, n, h => by
    have hzero : n = 0 := h.symm
    have hnone : takeBytes n (c :: cs) = [] := if_neg (by have := c.utf8Size_pos; omega)
    rw [hnone, hzero]
    rfl
  | c :: cs, k + 1, n, h => by
    rw [List.take_succ_cons, bytesLen_cons] at h
    have htaken : takeBytes n (c :: cs) = c :: takeBytes (n - c.utf8Size) cs := if_pos (by omega)
    have hrest := bytesLen_takeBytes_of_take cs k (n - c.utf8Size) (by omega)
    rw [htaken, bytesLen_cons, hrest]
    omega

/-- The longest prefix that fits fills a character boundary. -/
theorem bytesLen_takeBytes_eq_iff {cs : List Char} {n : ℕ} :
    bytesLen (takeBytes n cs) = n ↔ IsCharBoundary cs n := by
  constructor
  · intro h
    obtain ⟨k, hk⟩ := exists_takeBytes_eq n cs
    exact ⟨k, hk ▸ h⟩
  · rintro ⟨k, hk⟩
    exact bytesLen_takeBytes_of_take cs k n hk

theorem sliceTo_ne_none_iff {cs : List Char} {n : ℕ} :
    (∃ taken, sliceTo cs n = some taken) ↔ IsCharBoundary cs n := by
  rw [← bytesLen_takeBytes_eq_iff]
  unfold sliceTo
  dsimp only
  split_ifs with h
  · exact iff_of_true ⟨_, rfl⟩ h
  · exact iff_of_false (fun ⟨_, hnone⟩ => nomatch hnone) h

/-- The slice in the warning is of the whole URI or of its first 80 bytes. -/
theorem slice_warning_iff (uri : String) :
    (∃ taken, sliceTo uri.toList (min uri.utf8ByteSize 80) = some taken) ↔
      (80 < uri.utf8ByteSize → IsCharBoundary uri.toList 80) := by
  rw [sliceTo_ne_none_iff]
  have hlen : bytesLen uri.toList = uri.utf8ByteSize := by
    rw [← utf8ByteSize_ofList, String.ofList_toList]
  rcases le_or_gt uri.utf8ByteSize 80 with hle | hlt
  · rw [min_eq_left hle]
    exact iff_of_true ⟨uri.toList.length, by rw [List.take_length, hlen]⟩
      fun h => absurd hle (not_le.2 h)
  · rw [min_eq_right hlt.le]
    exact ⟨fun h _ => h, fun h => h hlt⟩

/-! ## Schemes -/

theorem hasAllowedScheme_iff (uri : String) : hasAllowedScheme uri = true ↔
    ∃ scheme ∈ allowedHyperlinkSchemes, StartsWith scheme uri := by
  simp only [hasAllowedScheme, List.any_eq_true, List.isPrefixOf_iff_prefix, StartsWith]

/-- A letter is lowered to a letter. -/
theorem isControl_toLower (c : Char) : isControl c.toLower = isControl c := by
  unfold Char.toLower
  split_ifs with hupper
  · have hlow : 65 ≤ c.val.toNat := hupper.1
    have hhigh : c.val.toNat ≤ 90 := hupper.2
    have hletter : ∀ d : Char, 65 ≤ d.toNat → d.toNat ≤ 122 → isControl d = false := by
      intro d _ _
      rw [isControl, decide_eq_false_iff_not]
      omega
    have hsum : (c.val + ('a'.val - 'A'.val)).toNat = c.val.toNat + 32 := by
      have hdiff : ('a'.val - 'A'.val).toNat = 32 := rfl
      rw [UInt32.toNat_add, hdiff]
      exact Nat.mod_eq_of_lt (by omega)
    rw [hletter c hlow (by show c.val.toNat ≤ 122; omega)]
    exact hletter _ (hsum.ge.trans' (by omega)) (hsum.le.trans (by omega))
  · rfl

theorem allowed_printable : (allowedHyperlinkSchemes.all fun scheme =>
    scheme.toList.all fun c => !isControl c) = true := by decide

/-- The letters of a scheme are no control characters, and so they stay. -/
theorem StartsWith.withoutControls {scheme uri : String}
    (hscheme : scheme ∈ allowedHyperlinkSchemes) (h : StartsWith scheme uri) :
    StartsWith scheme (withoutControls uri) := by
  have hprintable : scheme.toList.filter (fun c => !isControl c) = scheme.toList :=
    List.filter_eq_self.2 (List.all_eq_true.1 (List.all_eq_true.1 allowed_printable _ hscheme))
  have hlowered : (uri.toList.filter fun c => !isControl c).map Char.toLower =
      (uri.toList.map Char.toLower).filter fun c => !isControl c := by
    rw [List.filter_map]
    congr 2
    funext c
    exact congrArg _ (isControl_toLower c).symm
  rw [StartsWith, Vt.withoutControls, String.toList_ofList, hlowered, ← hprintable]
  exact h.filter _

theorem scheme_ne_nil : (allowedHyperlinkSchemes.all fun scheme => scheme.toList ≠ []) = true := by
  decide

/-- What starts with a scheme is not empty. -/
theorem StartsWith.ne_nil {scheme uri : String} (hscheme : scheme ∈ allowedHyperlinkSchemes)
    (h : StartsWith scheme uri) : uri.toList ≠ [] := by
  intro hnil
  have hprefix : scheme.toList <+: [] := by
    have h' : scheme.toList <+: uri.toList.map Char.toLower := h
    rwa [hnil] at h'
  have hne := List.all_eq_true.1 scheme_ne_nil _ hscheme
  exact of_decide_eq_true hne (List.prefix_nil.1 hprefix)

/-! ## Exactly when -/

/-- What the validation strips is the control characters. -/
theorem stripped_eq (c : Char) :
    decide (0x20 ≤ c.toNat ∧ c.toNat ≠ 0x7f ∧ ¬(0x80 ≤ c.toNat ∧ c.toNat ≤ 0x9f)) =
      !isControl c := by
  rw [isControl, ← decide_not, decide_eq_decide]
  omega

/-- A URI with an allowed scheme is accepted within the cap. -/
theorem checked_of_allowed {uri : String} (hlen : uri.utf8ByteSize ≤ maxHyperlinkUriLen)
    (hscheme : hasAllowedScheme uri = true) :
    checkedHyperlinkUri uri = some (some (withoutControls uri)) := by
  obtain ⟨scheme, hmem, hstarts⟩ := (hasAllowedScheme_iff uri).1 hscheme
  have hempty : ¬(uri.isEmpty = true ∨ uri.utf8ByteSize > maxHyperlinkUriLen) := by
    rintro (hempty | hlong)
    · exact hstarts.ne_nil hmem (String.toList_eq_nil_iff.2 (String.isEmpty_iff.1 hempty))
    · exact absurd hlen (not_le.2 hlong)
  have hkept : (uri.toList.filter fun c => !isControl c) ≠ [] := by
    have hne := (hstarts.withoutControls hmem).ne_nil hmem
    rwa [withoutControls, String.toList_ofList] at hne
  unfold checkedHyperlinkUri
  rw [if_neg hempty, if_neg (by simp [hscheme])]
  simp only [stripped_eq]
  rw [if_neg fun h => hkept (List.isEmpty_iff.1 h)]
  rfl

/-- Any other URI is refused, unless the warning panics. -/
theorem checked_of_refused {uri : String}
    (hrefused : ¬(uri.utf8ByteSize ≤ maxHyperlinkUriLen ∧ hasAllowedScheme uri = true)) :
    checkedHyperlinkUri uri = some none ↔ SlicesAtBoundary uri := by
  unfold checkedHyperlinkUri SlicesAtBoundary
  by_cases hlen : uri.isEmpty = true ∨ uri.utf8ByteSize > maxHyperlinkUriLen
  · rw [if_pos hlen]
    refine iff_of_true rfl fun hlong hcap => ?_
    rcases hlen with hempty | hlen
    · rw [String.isEmpty_iff.1 hempty] at hlong
      exact absurd hlong (by decide)
    · exact absurd hcap (not_le.2 hlen)
  · rw [not_or, not_lt] at hlen
    have hscheme : hasAllowedScheme uri = false :=
      Bool.eq_false_iff.2 fun hscheme => hrefused ⟨hlen.2, hscheme⟩
    rw [if_neg (not_or.2 ⟨hlen.1, not_lt.2 hlen.2⟩), if_pos (by simp [hscheme])]
    have hwarn := slice_warning_iff uri
    constructor
    · intro h hlong _ _
      obtain ⟨taken, htaken, -⟩ := Option.bind_eq_some_iff.1 h
      exact hwarn.1 ⟨taken, htaken⟩ hlong
    · intro h
      obtain ⟨taken, htaken⟩ := hwarn.2 fun hlong => h hlong hlen.2 hscheme
      rw [htaken]
      rfl

/-- **The validation is total and exact** for exactly those URIs that are accepted, too long, or
    refused with a character boundary at byte 80. -/
theorem validates_iff (uri : String) : Validates uri ↔ SlicesAtBoundary uri := by
  unfold Validates
  simp only [← hasAllowedScheme_iff]
  by_cases hallowed : uri.utf8ByteSize ≤ maxHyperlinkUriLen ∧ hasAllowedScheme uri = true
  · refine iff_of_true ⟨_, checked_of_allowed hallowed.1 hallowed.2, fun u => ?_, ?_⟩ ?_
    · rw [Option.some.injEq]
      exact ⟨fun h => ⟨hallowed, h.symm⟩, fun h => h.2.symm⟩
    · rintro u hu scheme hmem hstarts
      cases hu
      exact hstarts.withoutControls hmem
    · exact fun _ _ hrefused => absurd (hallowed.2.symm.trans hrefused) (by decide)
  · rw [← checked_of_refused hallowed]
    constructor
    · rintro ⟨result, hresult, hexact, -⟩
      cases result with
      | none => exact hresult
      | some u => exact absurd ((hexact u).1 rfl).1 hallowed
    · intro h
      exact ⟨none, h, fun u => iff_of_false (fun hu => nomatch hu) fun hu => hallowed hu.1,
        fun u hu => nomatch hu⟩

/-- The last byte that the warning shows is the first one of a letter. -/
theorem warning_panics :
    let uri := "javascript:" ++ String.ofList (List.replicate 68 'a') ++ "é"
    uri.utf8ByteSize = 81 ∧ checkedHyperlinkUri uri = none ∧ ¬Validates uri := by
  intro uri
  have hpanics : checkedHyperlinkUri uri = none := by decide
  exact ⟨by decide, hpanics, fun ⟨_, h, _⟩ => nomatch hpanics.symm.trans h⟩

end Nexterm.Vt

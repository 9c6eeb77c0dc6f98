/-
  The free text at the end of OSC sequences (`osc_dispatch` in `performer.rs`).

  * `oscParams`: the string is split at every `;`.
  * `OscText`: the sequences that end in a free text, with the fields before it.
  * `Survives`: whatever was before, what is received is the text that was sent.
  * `OscText.read`: what a sequence makes of the field in the place of its text.
  * `survives_iff`: a text survives exactly if it is without `;` and one that its sequence asks for.
-/
import Nexterm.Vt.Percent
import Nexterm.Vt.Pending
import Nexterm.Vt.Uri

namespace Nexterm.Vt

open Utf8

/-! ## Sequences -/

/-- The parameters of an OSC string: `vte` splits it at every `;`. -/
def oscParams (osc : String) : List (List UInt8) := osc.toUTF8.data.toList.splitOn 0x3b

/-- What stands between two `;`. -/
abbrev Field := {field : String // ';' ∉ field.toList}

/-- A sequence that ends in a free text, with the fields that differ. -/
inductive OscText
  | title (code : Field) (known : code.1 = "0" ∨ code.1 = "1" ∨ code.1 = "2")
  | cwd
  | uri (attributes : Field)
  | notification
  | body (heading : Field)
  | sizing (metadata : Field)

namespace OscText

/-- The fields before the text. -/
def head : OscText → List Field
  | title code _ => [code]
  | cwd => [⟨"7", by decide⟩]
  | uri attributes => [⟨"8", by decide⟩, attributes]
  | notification => [⟨"9", by decide⟩]
  | body heading => [⟨"777", by decide⟩, ⟨"notify", by decide⟩, heading]
  | sizing metadata => [⟨"66", by decide⟩, metadata]

/-- The string of the sequence. -/
def sequence (form : OscText) (text : String) : String :=
  form.head.foldr (fun field rest => field.1 ++ ";" ++ rest) text

/-- The cap on the length of the text. -/
def cap : OscText → ℕ
  | title _ _ => Pending.maxTitleLen
  | cwd => maxCwdLen
  | uri _ => maxHyperlinkUriLen
  | notification => Pending.maxNotificationLen
  | body _ => Pending.maxNotificationLen
  | sizing _ => Pending.maxTextLen

/-- The text is what the screen or the queues have afterwards. -/
def Received (form : OscText) (text : String) (q : Pending) (s' : Screen) (q' : Pending) : Prop :=
  match form with
  | title _ _ => q'.pendingTitle = some text
  | cwd => q'.pendingCwd = some text
  | uri _ => s'.currentHyperlinkUrl = some text
  | notification => q'.pendingNotification = some ("Nexterm", text)
  | body _ => q'.pendingNotification.map Prod.snd = some text
  | sizing _ => ∃ event : TextSizingEvent,
      q'.pendingTextSizing = q.pendingTextSizing ++ [event] ∧ event.text = text

/-- **The text that is received is the text that was sent**, whatever was before. -/
def Survives (form : OscText) (text : String) : Prop :=
  ∀ (I : ImageCrate) (s : Screen) (q : Pending) (bellTerminated : Bool),
    form.Received text q (s.oscDispatch (oscParams (form.sequence text)))
      (q.oscDispatch I s (oscParams (form.sequence text)) bellTerminated)

/-- The progress form of OSC 9: the first field is a `4`, and there are others. -/
def IsProgress (text : String) : Prop :=
  ∃ code rest : String, text = code ++ ";" ++ rest ∧ ';' ∉ code.toList ∧ trim code = "4"

/-- What the sequence asks of its text: a plain path, without a scheme and without `%XX`; a URI with
    an allowed scheme; no white space around either; something to be sized. -/
def Asks : OscText → String → Prop
  | cwd, text => text ≠ "" ∧ trim text = text ∧ ¬"file://".toList <+: text.toList ∧
      hasTriplet text.toList = false
  | uri _, text => trim text = text ∧ hasAllowedScheme text = true
  | sizing _, text => text ≠ ""
  | _, _ => True

/-- The text that the sequence makes of the field in its place. -/
def read : OscText → String → Option String
  | title _ _, field => some (sanitizeOscString field Pending.maxTitleLen)
  | cwd, field => (parseOsc7Cwd (trim field)).map (sanitizeOscString · maxCwdLen)
  | uri _, field => if (trim field).isEmpty then none else validateHyperlinkUri (trim field)
  | notification, field => some (sanitizeOscString field Pending.maxNotificationLen)
  | body _, field => some (sanitizeOscString field Pending.maxNotificationLen)
  | sizing _, field =>
    if field.isEmpty then none else some (sanitizeOscString field Pending.maxTextLen)

end OscText

/-! ## Splitting -/

theorem oscParams_eq (osc : String) : oscParams osc = (encode osc.toList).splitOn 0x3b := by
  rw [oscParams, String.toUTF8_eq_toByteArray, ← toByteArray_ofList, String.ofList_toList]

theorem oscParams_cons {field : String} (hfield : ';' ∉ field.toList) (rest : String) :
    oscParams (field ++ ";" ++ rest) = encode field.toList :: oscParams rest := by
  have hchars : (field ++ ";" ++ rest).toList = field.toList ++ ';' :: rest.toList := by
    rw [String.toList_append, String.toList_append, List.append_assoc]
    rfl
  rw [oscParams_eq, oscParams_eq, hchars]
  exact splitOn_encode_cons (by decide) hfield

theorem oscParams_text {text : String} (htext : ';' ∉ text.toList) :
    oscParams text = [encode text.toList] := by
  rw [oscParams_eq]
  exact splitOn_encode (by decide) htext

/-- The fields before the text are the first parameters. -/
theorem OscText.oscParams_sequence (form : OscText) (text : String) :
    oscParams (form.sequence text) =
      form.head.map (fun field => encode field.1.toList) ++ oscParams text := by
  unfold OscText.sequence
  induction form.head with
  | nil => rfl
  | cons field fields ih =>
    rw [List.foldr_cons, oscParams_cons field.2, ih]
    rfl

/-- A text with a `;` goes into several parameters, the first of them up to the first `;`. -/
theorem exists_first {text : String} (h : ';' ∈ text.toList) :
    ∃ first rest : String, text = first ++ ";" ++ rest ∧ ';' ∉ first.toList ∧
      oscParams text = encode first.toList :: oscParams rest := by
  obtain ⟨pre, post, htext, hpre⟩ := List.eq_append_cons_of_mem h
  have hfirst : ';' ∉ (String.ofList pre).toList := by rwa [String.toList_ofList]
  have heq : text = String.ofList pre ++ ";" ++ String.ofList post := by
    rw [← String.toList_inj, htext]
    simp only [String.toList_append, String.toList_ofList, List.append_assoc]
    rfl
  exact ⟨_, _, heq, hfirst, heq ▸ oscParams_cons hfirst _⟩

/-! ## Dispatch -/

theorem fromUtf8_encode (s : String) : fromUtf8 (encode s.toList) = some s := by
  rw [fromUtf8, fromUTF8?_encode, String.ofList_toList]

/-- The URI of the link after OSC 8. -/
theorem url_setHyperlink (s : Screen) (url : Option String) :
    (s.setHyperlink url).currentHyperlinkUrl = url.bind validateHyperlinkUri := by
  have hfinished : s.finishHyperlink.currentHyperlinkUrl = none := by
    unfold Screen.finishHyperlink
    split
    · assumption
    · rfl
  cases url with
  | none => exact hfinished
  | some url =>
    unfold Screen.setHyperlink
    dsimp only [Option.bind_some]
    split
    · next h => exact h.symm
    · next validated h => exact h.symm

section
variable (I : ImageCrate) (s : Screen) (q : Pending) (bellTerminated : Bool) (first : String)
  (rest : List (List UInt8))

theorem dispatch_title {code : String} (known : code = "0" ∨ code = "1" ∨ code = "2") :
    (q.oscDispatch I s (encode code.toList :: encode first.toList :: rest)
      bellTerminated).pendingTitle = some (sanitizeOscString first Pending.maxTitleLen) := by
  have htrim : trim code = code := by
    rcases known with rfl | rfl | rfl <;> decide
  unfold Pending.oscDispatch
  dsimp only [List.getElem?_cons_zero, Option.bind_some]
  rw [fromUtf8_encode, fromUtf8_encode, Option.map_some, htrim]
  dsimp only
  rw [if_pos known, Option.map_some, Option.getD_some]
  dsimp only [Pending.setPendingTitle]

theorem dispatch_cwd :
    (q.oscDispatch I s (encode "7".toList :: encode first.toList :: rest)
      bellTerminated).pendingCwd =
      ((parseOsc7Cwd (trim first)).map (sanitizeOscString · maxCwdLen)).or q.pendingCwd := by
  have htrim : trim "7" = "7" := by decide
  unfold Pending.oscDispatch
  dsimp only [List.getElem?_cons_zero, Option.bind_some]
  rw [fromUtf8_encode, fromUtf8_encode, Option.map_some, htrim]
  dsimp only
  rw [if_neg (by decide), if_pos rfl, Option.bind_some]
  cases parseOsc7Cwd (trim first) with
  | none => rw [Option.map_none, Option.map_none, Option.getD_none, Option.none_or]
  | some path =>
    rw [Option.map_some, Option.map_some, Option.getD_some, Option.some_or]
    dsimp only [Pending.setPendingCwd]

theorem dispatch_uri (attributes : String) :
    (s.oscDispatch (encode "8".toList :: encode attributes.toList :: encode first.toList ::
      rest)).currentHyperlinkUrl =
      if (trim first).isEmpty then none else validateHyperlinkUri (trim first) := by
  have htrim : trim "8" = "8" := by decide
  unfold Screen.oscDispatch
  simp only [List.getElem?_cons_succ, List.getElem?_cons_zero, Option.bind_some, fromUtf8_encode,
    Option.map_some, htrim, if_true, Option.getD_some, url_setHyperlink]
  split_ifs
  · rw [Option.bind_none]
  · rw [Option.bind_some]

theorem dispatch_notification (hplain : ¬(trim first = "4" ∧ rest ≠ [])) :
    (q.oscDispatch I s (encode "9".toList :: encode first.toList :: rest)
      bellTerminated).pendingNotification =
      some ("Nexterm", sanitizeOscString first Pending.maxNotificationLen) := by
  have htrim : trim "9" = "9" := by decide
  have hname : sanitizeOscString "Nexterm" Pending.maxNotificationLen = "Nexterm" := by decide
  have hone : ¬(trim first = "4" ∧ (encode first.toList :: rest).length ≥ 2) := fun h =>
    hplain ⟨h.1, List.ne_nil_of_length_pos (Nat.le_of_succ_le_succ h.2)⟩
  unfold Pending.oscDispatch Pending.osc9
  dsimp only [List.getElem?_cons_zero, Option.bind_some]
  rw [fromUtf8_encode, fromUtf8_encode, Option.map_some, htrim]
  dsimp only
  rw [if_neg (by decide), if_neg (by decide), if_pos rfl, if_neg hone]
  dsimp only [Pending.setPendingNotification]
  rw [hname]

theorem dispatch_body (heading : String) :
    (q.oscDispatch I s (encode "777".toList :: encode "notify".toList :: encode heading.toList ::
      encode first.toList :: rest) bellTerminated).pendingNotification =
      some (sanitizeOscString heading Pending.maxNotificationLen,
        sanitizeOscString first Pending.maxNotificationLen) := by
  have htrim : trim "777" = "777" := by decide
  unfold Pending.oscDispatch Pending.osc777
  simp only [List.getElem?_cons_succ, List.getElem?_cons_zero, Option.bind_some, fromUtf8_encode,
    Option.map_some, htrim, Option.getD_some, ne_eq, not_true, if_false]
  rw [if_neg (by decide), if_neg (by decide), if_neg (by decide), if_neg (by decide),
    if_neg (by decide), if_neg (by decide), if_true]
  dsimp only [Pending.setPendingNotification]

theorem dispatch_sizing (metadata : String) : ∃ event : TextSizingEvent,
    event.text = sanitizeOscString first Pending.maxTextLen ∧
      (q.oscDispatch I s (encode "66".toList :: encode metadata.toList :: encode first.toList :: rest)
        bellTerminated).pendingTextSizing =
        if first.isEmpty then q.pendingTextSizing else q.pendingTextSizing ++ [event] := by
  have htrim : trim "66" = "66" := by decide
  unfold Pending.oscDispatch Pending.handleOsc66
  dsimp only
  rw [fromUtf8_encode, fromUtf8_encode, Option.map_some, htrim]
  dsimp only
  rw [if_neg (by decide), if_neg (by decide), if_neg (by decide), if_neg (by decide),
    if_neg (by decide), if_neg (by decide), if_neg (by decide), if_pos rfl]
  by_cases hempty : first.isEmpty = true
  · rw [if_pos hempty]
    refine ⟨⟨0, 0, 0, 0, 0, 0, 0, sanitizeOscString first Pending.maxTextLen⟩, ?_,
      (if_pos hempty).symm⟩
    dsimp only
  · rw [if_neg hempty]
    refine ⟨_, ?_, (if_neg hempty).symm⟩
    dsimp only

end

/-! ## What a field becomes -/

theorem trim_sublist (s : String) : (trim s).toList.Sublist s.toList := by
  rw [trim, String.toList_ofList]
  refine List.Sublist.trans ?_ (List.dropWhile_sublist isWhitespace)
  rw [← List.reverse_sublist, List.reverse_reverse]
  exact List.dropWhile_sublist isWhitespace

theorem sanitize_sublist (s : String) (maxLen : ℕ) :
    (sanitizeOscString s maxLen).toList.Sublist s.toList := by
  have hfilter : (String.ofList (s.toList.filter fun c => !isOscControl c)).toList.Sublist
      s.toList := by
    rw [String.toList_ofList]
    exact List.filter_sublist
  unfold sanitizeOscString
  dsimp only
  split_ifs with hlen
  · exact hfilter
  · obtain ⟨k, hk⟩ := exists_takeBytes_eq maxLen
      (String.ofList (s.toList.filter fun c => !isOscControl c)).toList
    rw [String.toList_ofList, hk]
    exact (List.take_sublist k _).trans hfilter

/-- A text without control characters and within the cap is not changed. -/
theorem sanitize_of_plain {s : String} {maxLen : ℕ} (hcontrol : ∀ c ∈ s.toList, isControl c = false)
    (hlen : s.utf8ByteSize ≤ maxLen) : sanitizeOscString s maxLen = s := by
  have hkept : (s.toList.filter fun c => !isOscControl c) = s.toList := by
    refine List.filter_eq_self.2 fun c hc => ?_
    have hplain := hcontrol c hc
    rw [isControl, decide_eq_false_iff_not] at hplain
    rw [isOscControl, Bool.not_eq_true', decide_eq_false_iff_not]
    omega
  unfold sanitizeOscString
  rw [hkept, String.ofList_toList]
  exact if_pos hlen

/-- A string is what it was before something that only drops characters if it is as long. -/
theorem eq_of_sublist {s t : String} (h : s.toList.Sublist t.toList)
    (hlen : t.toList.length ≤ s.toList.length) : s = t :=
  String.toList_inj.1 (h.eq_of_length_le hlen)

/-- The path is not longer than the input, and shorter after a scheme or with a triplet. -/
theorem length_parseOsc7Cwd {input path : String} (h : parseOsc7Cwd input = some path) :
    path.toList.length ≤ input.toList.length ∧
      (input.toList.length ≤ path.toList.length → input ≠ "" ∧
        ¬"file://".toList <+: input.toList ∧ hasTriplet input.toList = false) := by
  have hcleaned : ∀ cs : List Char,
      (sanitizeOscString (percentDecode (String.ofList cs)) maxCwdLen).toList.length ≤
        (percentDecode (String.ofList cs)).toList.length := fun cs =>
    (sanitize_sublist _ _).length_le
  unfold parseOsc7Cwd at h
  split_ifs at h with hinput
  have hne : input ≠ "" := fun hempty => hinput (.inl (by rw [hempty]; rfl))
  obtain ⟨cs, hcs, h⟩ := Option.bind_eq_some_iff.1 h
  have hpath : path = sanitizeOscString (percentDecode (String.ofList cs)) maxCwdLen := by
    dsimp only at h
    split_ifs at h
    exact (Option.some.inj h).symm
  have hlen := hpath ▸ hcleaned cs
  obtain ⟨hle, hlt⟩ := length_percentDecode cs
  split_ifs at hcs with hscheme
  · have hshort : cs.length + 7 ≤ input.toList.length := by
      have hprefix : 7 ≤ input.toList.length := (List.isPrefixOf_iff_prefix.1 hscheme).length_le
      have hrest : cs = (input.toList.drop 7).dropWhile (· ≠ '/') := by
        split at hcs
        · cases hcs
        · exact (Option.some.inj hcs).symm
      have hsuffix := (List.dropWhile_sublist (· ≠ '/') (l := input.toList.drop 7)).length_le
      rw [← hrest, List.length_drop] at hsuffix
      omega
    exact ⟨by omega, fun hlong => by omega⟩
  · cases hcs
    refine ⟨by omega, fun hlong => ⟨hne, ?_, ?_⟩⟩
    · rwa [← List.isPrefixOf_iff_prefix]
    · exact Bool.eq_false_iff.2 fun htriplet => by have := hlt htriplet; omega

/-- A plain path is its own path. -/
theorem parseOsc7Cwd_of_plain {input : String} (hne : input ≠ "")
    (hscheme : ¬"file://".toList <+: input.toList) (htriplet : hasTriplet input.toList = false)
    (hcontrol : ∀ c ∈ input.toList, isControl c = false) (hlen : input.utf8ByteSize ≤ maxCwdLen) :
    parseOsc7Cwd input = some input := by
  have hinput : ¬(input.isEmpty = true ∨ input.utf8ByteSize > maxCwdLen * 4) := by
    rw [String.isEmpty_iff, not_or]
    exact ⟨hne, by omega⟩
  rw [← List.isPrefixOf_iff_prefix] at hscheme
  unfold parseOsc7Cwd
  rw [if_neg hinput]
  dsimp only
  rw [if_neg hscheme, Option.bind_some, percentDecode_of_no_triplet htriplet,
    String.ofList_toList, sanitize_of_plain hcontrol hlen]
  exact if_neg fun hempty => hne (String.isEmpty_iff.1 hempty)

theorem validateHyperlinkUri_of_allowed {uri : String} (hscheme : hasAllowedScheme uri = true)
    (hcontrol : ∀ c ∈ uri.toList, isControl c = false)
    (hlen : uri.utf8ByteSize ≤ maxHyperlinkUriLen) : validateHyperlinkUri uri = some uri := by
  have hkept : withoutControls uri = uri := by
    have hfilter : (uri.toList.filter fun c => !isControl c) = uri.toList :=
      List.filter_eq_self.2 fun c hc => by rw [hcontrol c hc]; rfl
    rw [withoutControls, hfilter, String.ofList_toList]
  have hchecked := checkedHyperlinkUri_eq (checked_of_allowed hlen hscheme)
  rwa [hkept] at hchecked

/-- What is validated has an allowed scheme, and only loses characters. -/
theorem of_validateHyperlinkUri {uri validated : String}
    (h : validateHyperlinkUri uri = some validated) :
    hasAllowedScheme uri = true ∧ validated.toList.Sublist uri.toList := by
  unfold validateHyperlinkUri at h
  dsimp only at h
  split_ifs at h with hlen hscheme hcleaned
  rw [Bool.not_eq_true', Bool.not_eq_false] at hscheme
  refine ⟨hscheme, ?_⟩
  rw [← Option.some.inj h, String.toList_ofList]
  exact List.filter_sublist

namespace OscText

variable {form : OscText}

/-- What is read is not longer than the field. -/
theorem length_read {field text : String} (h : form.read field = some text) :
    text.toList.length ≤ field.toList.length := by
  cases form with
  | title code known | notification | body heading =>
    rw [← Option.some.inj h]
    exact (sanitize_sublist _ _).length_le
  | cwd =>
    rw [read] at h
    obtain ⟨path, hpath, rfl⟩ := Option.map_eq_some_iff.1 h
    exact ((sanitize_sublist _ _).length_le.trans (length_parseOsc7Cwd hpath).1).trans
      (trim_sublist field).length_le
  | uri attributes =>
    rw [read] at h
    split_ifs at h
    exact ((of_validateHyperlinkUri h).2.trans (trim_sublist field)).length_le
  | sizing metadata =>
    rw [read] at h
    split_ifs at h
    rw [← Option.some.inj h]
    exact (sanitize_sublist _ _).length_le

/-- A text is read as itself exactly if it is one that the sequence asks for. -/
theorem read_self_iff {text : String} (hcontrol : ∀ c ∈ text.toList, isControl c = false)
    (hlen : text.utf8ByteSize ≤ form.cap) : form.read text = some text ↔ form.Asks text := by
  cases form with
  | title code known | notification | body heading =>
    exact iff_of_true (congrArg some (sanitize_of_plain hcontrol hlen)) trivial
  | cwd =>
    constructor
    · intro h
      rw [read] at h
      obtain ⟨path, hpath, htext⟩ := Option.map_eq_some_iff.1 h
      obtain ⟨hle, hplain⟩ := length_parseOsc7Cwd hpath
      have hsanitized : text.toList.length ≤ path.toList.length := by
        rw [← htext]
        exact (sanitize_sublist _ _).length_le
      have htrim : trim text = text := eq_of_sublist (trim_sublist text) (hsanitized.trans hle)
      obtain ⟨hne, hscheme, htriplet⟩ :=
        hplain ((trim_sublist text).length_le.trans hsanitized)
      rw [htrim] at hne hscheme htriplet
      exact ⟨hne, htrim, hscheme, htriplet⟩
    · rintro ⟨hne, htrim, hscheme, htriplet⟩
      have hcap : text.utf8ByteSize ≤ maxCwdLen := hlen
      rw [read, htrim, parseOsc7Cwd_of_plain hne hscheme htriplet hcontrol hcap, Option.map_some,
        sanitize_of_plain hcontrol hcap]
  | uri attributes =>
    rw [read]
    constructor
    · intro h
      split_ifs at h with hempty
      obtain ⟨hscheme, hsub⟩ := of_validateHyperlinkUri h
      have htrim : trim text = text := eq_of_sublist (trim_sublist text) hsub.length_le
      exact ⟨htrim, htrim ▸ hscheme⟩
    · rintro ⟨htrim, hscheme⟩
      have hvalid := validateHyperlinkUri_of_allowed hscheme hcontrol hlen
      have hne : ¬(trim text).isEmpty = true := fun hempty => by
        rw [htrim, String.isEmpty_iff] at hempty
        rw [hempty] at hscheme
        exact absurd hscheme (by decide)
      rw [if_neg hne, htrim, hvalid]
  | sizing metadata =>
    rw [read]
    constructor
    · rintro h rfl
      exact nomatch h
    · intro hne
      have hempty : ¬text.isEmpty = true := fun h => hne (String.isEmpty_iff.1 h)
      have hcap : text.utf8ByteSize ≤ Pending.maxTextLen := hlen
      rw [if_neg hempty, sanitize_of_plain hcontrol hcap]

/-- What is read from the field of the text is what is received. -/
theorem received_of_read {first text : String} {rest : List (List UInt8)}
    (hplain : form = notification → ¬(trim first = "4" ∧ rest ≠ []))
    (h : form.read first = some text) (I : ImageCrate) (s : Screen) (q : Pending)
    (bellTerminated : Bool) :
    let params := form.head.map (fun field => encode field.1.toList) ++ encode first.toList :: rest
    form.Received text q (s.oscDispatch params) (q.oscDispatch I s params bellTerminated) := by
  intro params
  cases form with
  | title code known =>
    rw [read] at h
    exact (dispatch_title I s q bellTerminated first rest known).trans h
  | cwd =>
    rw [read] at h
    have hcwd := dispatch_cwd I s q bellTerminated first rest
    rw [h, Option.some_or] at hcwd
    exact hcwd
  | uri attributes =>
    rw [read] at h
    exact (dispatch_uri s first rest attributes.1).trans h
  | notification =>
    rw [read] at h
    have hnotification := dispatch_notification I s q bellTerminated first rest (hplain rfl)
    rw [Option.some.inj h] at hnotification
    exact hnotification
  | body heading =>
    rw [read] at h
    have hbody := dispatch_body I s q bellTerminated first rest heading.1
    rw [Option.some.inj h] at hbody
    exact congrArg (Option.map Prod.snd) hbody
  | sizing metadata =>
    rw [read] at h
    obtain ⟨event, hevent, hq⟩ := dispatch_sizing I s q bellTerminated first rest metadata.1
    split_ifs at h with hempty
    rw [if_neg hempty] at hq
    exact ⟨event, hq, hevent.trans (Option.some.inj h)⟩

/-- Nothing else is received by a new screen. -/
theorem read_of_received {first text : String} {rest : List (List UInt8)}
    (hplain : form = notification → ¬(trim first = "4" ∧ rest ≠ []))
    (h : ∀ (I : ImageCrate) (s : Screen) (q : Pending) (bellTerminated : Bool),
      let params := form.head.map (fun field => encode field.1.toList) ++ encode first.toList :: rest
      form.Received text q (s.oscDispatch params) (q.oscDispatch I s params bellTerminated)) :
    form.read first = some text := by
  let I : ImageCrate := ⟨fun _ => none, fun h => nomatch h⟩
  let s := Screen.new 1 1
  have hnew := h I s Pending.new false
  cases form with
  | title code known =>
    rw [read, ← dispatch_title I s Pending.new false first rest known]
    exact hnew
  | cwd =>
    have hcwd := dispatch_cwd I s Pending.new false first rest
    have hempty : Pending.new.pendingCwd = none := rfl
    rw [hempty, Option.or_none] at hcwd
    rw [read, ← hcwd]
    exact hnew
  | uri attributes =>
    rw [read, ← dispatch_uri s first rest attributes.1]
    exact hnew
  | notification =>
    have hnotification := dispatch_notification I s Pending.new false first rest (hplain rfl)
    have hpair := Option.some.inj (hnotification.symm.trans hnew)
    rw [read, (Prod.mk.inj hpair).2]
  | body heading =>
    have hbody := dispatch_body I s Pending.new false first rest heading.1
    have htext := congrArg (Option.map Prod.snd) hbody
    rw [Option.map_some] at htext
    rw [read, ← htext]
    exact hnew
  | sizing metadata =>
    obtain ⟨event, hsizing, rfl⟩ := hnew
    obtain ⟨event', hevent, hq⟩ := dispatch_sizing I s Pending.new false first rest metadata.1
    have happended := hq.symm.trans hsizing
    rw [read]
    split_ifs at happended ⊢
    · exact absurd happended.symm (List.append_ne_nil_of_right_ne_nil _ (List.cons_ne_nil _ _))
    · cases List.singleton_inj.1 (List.append_cancel_left happended)
      exact congrArg some hevent.symm

/-! ## Exactly when -/

/-- **A text survives exactly if it is without `;`** and one that its sequence asks for. -/
theorem survives_iff {text : String} (hcontrol : ∀ c ∈ text.toList, isControl c = false)
    (hlen : text.utf8ByteSize ≤ form.cap) (hprogress : form = notification → ¬IsProgress text) :
    form.Survives text ↔ ';' ∉ text.toList ∧ form.Asks text := by
  rw [← read_self_iff hcontrol hlen]
  unfold Survives
  rw [form.oscParams_sequence]
  by_cases h : ';' ∈ text.toList
  · obtain ⟨first, rest, htext, hfirst, hparams⟩ := exists_first h
    have hplain : form = notification → ¬(trim first = "4" ∧ oscParams rest ≠ []) :=
      fun hform hfour => hprogress hform ⟨first, rest, htext, hfirst, hfour.1⟩
    refine iff_of_false (fun hsurvives => ?_) fun hno => hno.1 h
    rw [hparams] at hsurvives
    -- what is left of the first `;` is too short
    have hshort := length_read (read_of_received hplain hsurvives)
    rw [htext] at hshort
    simp only [String.toList_append, List.length_append] at hshort
    have hone : ";".toList.length = 1 := rfl
    omega
  · rw [oscParams_text h, and_iff_right h]
    have hplain : form = notification → ¬(trim text = "4" ∧ ([] : List (List UInt8)) ≠ []) :=
      fun _ hfour => hfour.2 rfl
    exact ⟨read_of_received hplain, received_of_read hplain⟩

/-- The command of a shell in a title. -/
theorem title_survives :
    let form : OscText := .title ⟨"2", by decide⟩ (.inr (.inr rfl))
    (∀ c ∈ "make test".toList, isControl c = false) ∧ "make test".utf8ByteSize ≤ form.cap ∧
      form.Survives "make test" := by
  intro form
  have hall : ("make test".toList.all fun c => !isControl c) = true := by decide
  have hcontrol : ∀ c ∈ "make test".toList, isControl c = false := fun c hc =>
    Bool.not_eq_true' _ ▸ List.all_eq_true.1 hall c hc
  have hsurvives : form.Survives "make test" ↔ ';' ∉ "make test".toList ∧ form.Asks "make test" :=
    survives_iff hcontrol (by decide) fun h => nomatch h
  exact ⟨hcontrol, by decide, hsurvives.2 ⟨by decide, trivial⟩⟩

/-- Two commands in a title: the second one is lost. -/
theorem title_truncated :
    let form : OscText := .title ⟨"2", by decide⟩ (.inr (.inr rfl))
    let I : ImageCrate := ⟨fun _ => none, fun h => nomatch h⟩
    oscParams (form.sequence "make; test") = [[0x32], encode "make".toList, encode " test".toList] ∧
      (Pending.new.oscDispatch I (Screen.new 80 24) (oscParams (form.sequence "make; test"))
        false).pendingTitle = some "make" ∧
      ¬form.Survives "make; test" := by
  intro form I
  have hparams : oscParams (form.sequence "make; test") =
      [[0x32], encode "make".toList, encode " test".toList] := by decide
  have htitle : ∀ s, (Pending.new.oscDispatch I s (oscParams (form.sequence "make; test"))
      false).pendingTitle = some "make" := by
    intro s
    have hknown : "2" = "0" ∨ "2" = "1" ∨ "2" = "2" := .inr (.inr rfl)
    rw [hparams]
    exact (dispatch_title I s Pending.new false "make" [encode " test".toList] hknown).trans
      (by decide)
  refine ⟨hparams, htitle _, fun h => ?_⟩
  exact absurd ((htitle (Screen.new 80 24)).symm.trans (h I _ Pending.new false)) (by decide)

end OscText

end Nexterm.Vt

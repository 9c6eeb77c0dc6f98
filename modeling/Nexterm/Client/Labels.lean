/-
  The labels of Quick Select: one letter for each match as long as the letters suffice, then one or
  two letters.

  * `indexToLabel_few`, `indexToLabel_many`: the label of a match; `assignLabels_iff`: it exists for
    the first 702 matches.
  * `typed`: what a user who types a label from the start picks.
  * `Pickable`: every match has a label of its own that picks it; `pickable_iff`: so it is as long
    as one letter is enough.
-/
import Nexterm.Client.QuickSelect

namespace Nexterm.Client

variable {found labelled : List QuickSelectMatch}

theorem labelChars_length : labelChars.length = 26 := rfl

theorem labelChars_nodup : labelChars.Nodup := by decide

theorem labelChars_inj {i j : ℕ} (hi : i < 26) (h : labelChars[i]? = labelChars[j]?) : i = j :=
  (List.getElem?_inj hi labelChars_nodup).1 h

/-! ## The label of a match -/

/-- As long as one letter is enough, the labels are the letters in order. -/
theorem indexToLabel_few {i total : ℕ} (hi : i < total) (htotal : total ≤ 26) :
    ∃ c, labelChars[i]? = some c ∧ indexToLabel i total labelChars = some (String.ofList [c]) := by
  have hlt : i < labelChars.length := by rw [labelChars_length]; omega
  refine ⟨labelChars[i], List.getElem?_eq_getElem hlt, ?_⟩
  simp [indexToLabel, labelChars_length, htotal, Nat.mod_eq_of_lt (hi.trans_le htotal)]

/-- Past that, the first 26 have one letter, -/
theorem indexToLabel_first {i total : ℕ} (hi : i < 26) (htotal : 26 < total) :
    ∃ c, labelChars[i]? = some c ∧ indexToLabel i total labelChars = some (String.ofList [c]) := by
  have hlt : i < labelChars.length := hi
  refine ⟨labelChars[i], List.getElem?_eq_getElem hlt, ?_⟩
  simp [indexToLabel, labelChars_length, Nat.not_le.2 htotal, Nat.mod_eq_of_lt hi,
    Nat.div_eq_of_lt hi]

/-- the next 676 two, -/
theorem indexToLabel_second {i total : ℕ} (hi : 26 ≤ i) (hi' : i < 702) (htotal : 26 < total) :
    ∃ c c', labelChars[i / 26 - 1]? = some c ∧ labelChars[i % 26]? = some c' ∧
      indexToLabel i total labelChars = some (String.ofList [c, c']) := by
  have hlt : i / 26 - 1 < labelChars.length := by rw [labelChars_length]; omega
  have hlt' : i % 26 < labelChars.length := Nat.mod_lt i (by decide)
  have hne : i / 26 ≠ 0 := by omega
  have hget := List.getElem?_eq_getElem hlt
  have hget' := List.getElem?_eq_getElem hlt'
  refine ⟨_, _, hget, hget', ?_⟩
  simp [indexToLabel, labelChars_length, Nat.not_le.2 htotal, hne, hget, hget']

/-- and for the others an index is out of range. -/
theorem indexToLabel_overflow {i total : ℕ} (hi : 702 ≤ i) (htotal : 26 < total) :
    indexToLabel i total labelChars = none := by
  have hne : i / 26 ≠ 0 := by omega
  have hnone : labelChars[i / 26 - 1]? = none := by
    rw [List.getElem?_eq_none_iff, labelChars_length]
    omega
  simp [indexToLabel, labelChars_length, Nat.not_le.2 htotal, hne, hnone]

theorem indexToLabel_isSome_iff {i total : ℕ} (hi : i < total) :
    (indexToLabel i total labelChars).isSome ↔ i < 702 := by
  by_cases htotal : total ≤ 26
  · obtain ⟨c, -, hlabel⟩ := indexToLabel_few hi htotal
    simp only [hlabel, Option.isSome_some, true_iff]
    omega
  · rw [Nat.not_le] at htotal
    by_cases hsecond : i < 702
    · refine iff_of_true ?_ hsecond
      by_cases hfirst : i < 26
      · obtain ⟨c, -, hlabel⟩ := indexToLabel_first hfirst htotal
        rw [hlabel, Option.isSome_some]
      · obtain ⟨c, c', -, -, hlabel⟩ := indexToLabel_second (Nat.not_lt.1 hfirst) hsecond htotal
        rw [hlabel, Option.isSome_some]
    · simp [indexToLabel_overflow (Nat.not_lt.1 hsecond) htotal, hsecond]

/-- No two matches have one label. -/
theorem indexToLabel_inj {i j total : ℕ} {label : String} (hi : i < total) (hj : j < total)
    (hlabel : indexToLabel i total labelChars = some label)
    (hlabel' : indexToLabel j total labelChars = some label) : i = j := by
  have hi' := (indexToLabel_isSome_iff hi).1 (by rw [hlabel]; rfl)
  have hj' := (indexToLabel_isSome_iff hj).1 (by rw [hlabel']; rfl)
  -- one letter or two, and which
  have hcases : ∀ k : ℕ, k < total → k < 702 → indexToLabel k total labelChars = some label →
      (k < 26 ∧ ∃ c, labelChars[k]? = some c ∧ label = String.ofList [c]) ∨
        (26 ≤ k ∧ ∃ c c', labelChars[k / 26 - 1]? = some c ∧ labelChars[k % 26]? = some c' ∧
          label = String.ofList [c, c']) := by
    intro k hk hk' hklabel
    by_cases hfirst : k < 26
    · refine .inl ⟨hfirst, ?_⟩
      by_cases htotal : total ≤ 26
      · obtain ⟨c, hc, heq⟩ := indexToLabel_few hk htotal
        exact ⟨c, hc, Option.some.inj (hklabel.symm.trans heq)⟩
      · obtain ⟨c, hc, heq⟩ := indexToLabel_first hfirst (Nat.not_le.1 htotal)
        exact ⟨c, hc, Option.some.inj (hklabel.symm.trans heq)⟩
    · obtain ⟨c, c', hc, hc', heq⟩ :=
        indexToLabel_second (Nat.not_lt.1 hfirst) hk' (show 26 < total by omega)
      exact .inr ⟨Nat.not_lt.1 hfirst, c, c', hc, hc', Option.some.inj (hklabel.symm.trans heq)⟩
  rcases hcases i hi hi' hlabel with ⟨hlt, c, hc, rfl⟩ | ⟨hge, c, c', hc, hc', rfl⟩
  · rcases hcases j hj hj' hlabel' with ⟨-, d, hd, heq⟩ | ⟨-, d, d', hd, hd', heq⟩
    · obtain rfl : c = d := by simpa using String.ofList_inj.1 heq
      exact labelChars_inj hlt (hc.trans hd.symm)
    · cases String.ofList_inj.1 heq
  · rcases hcases j hj hj' hlabel' with ⟨-, d, hd, heq⟩ | ⟨hge', d, d', hd, hd', heq⟩
    · cases String.ofList_inj.1 heq
    · obtain ⟨rfl, rfl⟩ : c = d ∧ c' = d' := by simpa using String.ofList_inj.1 heq
      have hdiv := labelChars_inj (by omega) (hc.trans hd.symm)
      have hmod := labelChars_inj (Nat.mod_lt i (by decide)) (hc'.trans hd'.symm)
      omega

/-! ## The labels of a screen -/

theorem assignLabels_getElem (h : assignLabels found = some labelled) :
    labelled.length = found.length ∧ ∀ (i : ℕ) (m : QuickSelectMatch), labelled[i]? = some m →
      i < found.length ∧ indexToLabel i found.length labelChars = some m.label := by
  have hmap := Fallible.mapM_eq_some_iff.1 h
  have hlen : labelled.length = found.length := by
    simpa using (congrArg List.length hmap).symm
  refine ⟨hlen, fun i m hm => ?_⟩
  obtain ⟨hi, rfl⟩ := List.getElem?_eq_some_iff.1 hm
  have hi' : i < found.length := hlen ▸ hi
  have hget : (found.zipIdx.map _)[i]? = (labelled.map some)[i]? := congrArg (·[i]?) hmap
  obtain ⟨label, hlabel, heq⟩ : ∃ label, indexToLabel i found.length labelChars = some label ∧
      { found[i] with label := label } = labelled[i] := by
    simpa [hi, hi', Option.map_eq_some_iff] using hget
  exact ⟨hi', by rw [hlabel, ← heq]⟩

/-- Labels exist for up to 702 matches. -/
theorem assignLabels_iff : (∃ labelled, assignLabels found = some labelled) ↔
    found.length ≤ 702 := by
  simp only [assignLabels, Fallible.exists_mapM_iff, Option.isSome_map]
  constructor
  · intro h
    by_contra hmany
    have hi : 702 < found.length := Nat.not_le.1 hmany
    have hmem : (found[702], 702) ∈ found.zipIdx :=
      List.mk_mem_zipIdx_iff_getElem?.2 (List.getElem?_eq_getElem hi)
    exact absurd ((indexToLabel_isSome_iff hi).1 (h _ hmem)) (by decide)
  · rintro hfew ⟨m, i⟩ hmem
    have hi := (List.getElem?_eq_some_iff.1 (List.mk_mem_zipIdx_iff_getElem?.1 hmem)).1
    exact (indexToLabel_isSome_iff hi).2 (by omega)

/-- The labels are different. -/
theorem nodup_labels (h : assignLabels found = some labelled) :
    (labelled.map QuickSelectMatch.label).Nodup := by
  obtain ⟨-, hlabels⟩ := assignLabels_getElem h
  refine List.nodup_iff_getElem?_ne_getElem?.2 ?_
  intro i j hij hj heq
  rw [List.length_map] at hj
  have hi := hij.trans hj
  rw [List.getElem?_map, List.getElem?_map, List.getElem?_eq_getElem hi,
    List.getElem?_eq_getElem hj] at heq
  obtain ⟨hi', hlabel⟩ := hlabels i _ (List.getElem?_eq_getElem hi)
  obtain ⟨hj', hlabel'⟩ := hlabels j _ (List.getElem?_eq_getElem hj)
  have hsame : labelled[i].label = labelled[j].label := Option.some.inj heq
  rw [← hsame] at hlabel'
  exact absurd (indexToLabel_inj hi' hj' hlabel hlabel') hij.ne

/-! ## Typing a label -/

/-- What the user picks who types the characters one after the other. -/
def QuickSelectState.typed (qs : QuickSelectState) : List Char → Option QuickSelectMatch
  | [] => none
  | c :: cs =>
    match qs.handleQuickSelectKey (.char c) with
    | (_, some m) => some m
    | (qs, none) => qs.typed cs

/-- **Every match can be picked**: the matches have labels, all different, none of which begins
    with another, and whoever types a label picks its match. -/
def Pickable (found : List QuickSelectMatch) : Prop :=
  ∃ labelled : List QuickSelectMatch, assignLabels found = some labelled ∧
    (labelled.map QuickSelectMatch.label).Nodup ∧
    (∀ m ∈ labelled, ∀ m' ∈ labelled, m.label.toList <+: m'.label.toList → m.label = m'.label) ∧
    ∀ m ∈ labelled, (⟨true, labelled, ""⟩ : QuickSelectState).typed m.label.toList = some m

/-- A typed character that is a label picks the first match with the label. -/
theorem typed_singleton (ms : List QuickSelectMatch) (c : Char) :
    (⟨true, ms, ""⟩ : QuickSelectState).typed [c] =
      ms.find? fun m => m.label = String.ofList [c] := by
  have hpush : ("" : String).push c = String.ofList [c] := by
    rw [← String.singleton_eq_ofList]
    rfl
  have hne : (String.ofList [c]).isEmpty = false := by simp
  simp only [QuickSelectState.typed, QuickSelectState.handleQuickSelectKey,
    QuickSelectState.accept, hpush, hne]
  cases ms.find? fun m => m.label = String.ofList [c] <;> rfl

/-- Where no two have one label, the search for the label of one finds it. -/
theorem find_label {ms : List QuickSelectMatch} (h : (ms.map QuickSelectMatch.label).Nodup)
    {m : QuickSelectMatch} (hm : m ∈ ms) : (ms.find? fun m' => m'.label = m.label) = some m := by
  obtain ⟨i, hi, rfl⟩ := List.getElem_of_mem hm
  refine List.find?_eq_some_iff_getElem.2 ⟨by simp, i, hi, rfl, ?_⟩
  intro j hj
  have hne := List.nodup_iff_getElem?_ne_getElem?.1 h j i hj (by simpa using hi)
  simpa [hi, hj.trans hi] using hne

/-- **Labels** exist for 702 matches and are different; every match can be picked if and only if
    there are no more matches than letters. -/
theorem pickable_iff (found : List QuickSelectMatch) :
    ((∃ labelled, assignLabels found = some labelled) ↔ found.length ≤ 702) ∧
    (∀ labelled, assignLabels found = some labelled →
      (labelled.map QuickSelectMatch.label).Nodup) ∧
    (Pickable found ↔ found.length ≤ 26) := by
  refine ⟨assignLabels_iff, fun labelled h => nodup_labels h, ?_, ?_⟩
  · rintro ⟨labelled, h, -, hprefix, -⟩
    by_contra hmany
    obtain ⟨hlen, hlabels⟩ := assignLabels_getElem h
    have hzero : 0 < labelled.length := by omega
    have hmore : 26 < labelled.length := by omega
    -- the first label is the first letter of the 27th
    have hlabel := (hlabels 0 _ (List.getElem?_eq_getElem hzero)).2
    have hlabel' := (hlabels 26 _ (List.getElem?_eq_getElem hmore)).2
    obtain ⟨a, ha, heq⟩ := indexToLabel_first (i := 0) (by decide) (Nat.not_le.1 hmany)
    obtain ⟨b, b', hb, hb', heq'⟩ :=
      indexToLabel_second (i := 26) le_rfl (by decide) (Nat.not_le.1 hmany)
    rw [heq] at hlabel
    rw [heq'] at hlabel'
    obtain rfl : a = b := Option.some.inj (ha.symm.trans hb)
    have hsame := hprefix _ (List.getElem_mem hzero) _ (List.getElem_mem hmore)
    rw [← Option.some.inj hlabel, ← Option.some.inj hlabel', String.toList_ofList,
      String.toList_ofList] at hsame
    cases String.ofList_inj.1 (hsame ⟨[b'], rfl⟩)
  · intro hfew
    obtain ⟨labelled, h⟩ := assignLabels_iff.2 (show found.length ≤ 702 by omega)
    obtain ⟨hlen, hlabels⟩ := assignLabels_getElem h
    have hletter : ∀ m ∈ labelled, ∃ c, m.label = String.ofList [c] := by
      intro m hm
      obtain ⟨i, hi, rfl⟩ := List.getElem_of_mem hm
      obtain ⟨hi', hlabel⟩ := hlabels i _ (List.getElem?_eq_getElem hi)
      obtain ⟨c, -, heq⟩ := indexToLabel_few hi' hfew
      exact ⟨c, Option.some.inj (hlabel.symm.trans heq)⟩
    refine ⟨labelled, h, nodup_labels h, ?_, ?_⟩
    · intro m hm m' hm' hprefix
      obtain ⟨c, hc⟩ := hletter m hm
      obtain ⟨c', hc'⟩ := hletter m' hm'
      rw [hc, hc', String.toList_ofList, String.toList_ofList] at hprefix
      obtain rfl := (List.cons_prefix_cons.1 hprefix).1
      rw [hc, hc']
    · intro m hm
      obtain ⟨c, hc⟩ := hletter m hm
      have htyped := typed_singleton labelled c
      rw [← hc, find_label (nodup_labels h) hm] at htyped
      rw [hc, String.toList_ofList, htyped]

/-- `n` matches with one text. -/
def copies (n : ℕ) : List QuickSelectMatch := List.replicate n ⟨0, 0, 1, "7", ""⟩

/-- With 27 matches nothing but the first is picked by a label that starts with an `a`. -/
theorem copies_not_pickable : ¬ ∀ found : List QuickSelectMatch, Pickable found := by
  intro h
  obtain ⟨labelled, hlabelled, -, hprefix, -⟩ := h (copies 27)
  obtain ⟨hlen, hlabels⟩ := assignLabels_getElem hlabelled
  have hzero : 0 < labelled.length := by rw [hlen]; decide
  have hmore : 26 < labelled.length := by rw [hlen]; decide
  have hlabel := (hlabels 0 _ (List.getElem?_eq_getElem hzero)).2
  have hlabel' := (hlabels 26 _ (List.getElem?_eq_getElem hmore)).2
  have ha : labelled[0].label = "a" := Option.some.inj (hlabel.symm.trans (by decide))
  have haa : labelled[26].label = "aa" := Option.some.inj (hlabel'.symm.trans (by decide))
  have hsame := hprefix _ (List.getElem_mem hzero) _ (List.getElem_mem hmore)
  rw [ha, haa] at hsame
  exact absurd (hsame (by decide)) (by decide)

end Nexterm.Client

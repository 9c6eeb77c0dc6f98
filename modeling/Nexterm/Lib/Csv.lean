/-
  CSV files (RFC 4180): a reader, and which lines it reads back.

  * `Reader.step`, `read`: the reader; a record ends at CR, LF or CRLF outside quotes, and a quote in
    a field without quotes, or text behind the closing quote, is an error.
  * `Encodes`: a field is written as it is, or in quotes; `Cut`: it is written as it is, though it
    has a CR.
  * `read_line_iff`: a line of such fields is read back if and only if none of them is cut.
-/
import Mathlib.Data.List.Forall2
import Mathlib.Tactic.SplitIfs

namespace Csv

/-! ## The reader -/

/-- Where in a record the reader is. -/
inductive Mode
  | recordStart
  /-- At the start of a record, behind a CR. -/
  | afterCr
  | fieldStart
  | plain
  | quoted
  /-- Behind a quote in a quoted field. -/
  | quoteSeen
  deriving DecidableEq

/-- The records read so far, and the fields of the current one. -/
structure Reader where
  records : List (List (List Char))
  fields : List (List Char)
  field : List Char
  mode : Mode
  deriving DecidableEq

namespace Reader

/-- Nothing is read. -/
def init : Reader := ⟨[], [], [], .recordStart⟩

/-- Ends a field. -/
def endField (r : Reader) : Reader := ⟨r.records, r.fields ++ [r.field], [], .fieldStart⟩

/-- Ends a record. -/
def endRecord (r : Reader) (mode : Mode) : Reader :=
  ⟨r.records ++ [r.fields ++ [r.field]], [], [], mode⟩

/-- Takes in a character of a field. -/
def push (r : Reader) (c : Char) (mode : Mode) : Reader :=
  { r with field := r.field ++ [c], mode := mode }

/-- Takes in a delimiter, or else does what `other` says. -/
def delimiter (r : Reader) (c : Char) (other : Option Reader) : Option Reader :=
  if c = ',' then some r.endField
  else if c = '\x0d' then some (r.endRecord .afterCr)
  else if c = '\n' then some (r.endRecord .recordStart)
  else other

/-- Reads a character. -/
def step (r : Reader) (c : Char) : Option Reader :=
  match r.mode with
  | .recordStart | .fieldStart =>
    if c = '"' then some { r with mode := .quoted } else r.delimiter c (some (r.push c .plain))
  | .afterCr =>
    if c = '\n' then some { r with mode := .recordStart }
    else if c = '"' then some { r with mode := .quoted }
    else r.delimiter c (some (r.push c .plain))
  | .plain => if c = '"' then none else r.delimiter c (some (r.push c .plain))
  | .quoted => if c = '"' then some { r with mode := .quoteSeen } else some (r.push c .quoted)
  | .quoteSeen => if c = '"' then some (r.push c .quoted) else r.delimiter c none

/-- The records at the end of the input; the last one may lack its line break. -/
def finish (r : Reader) : Option (List (List (List Char))) :=
  match r.mode with
  | .recordStart | .afterCr => some r.records
  | .quoted => none
  | .fieldStart | .plain | .quoteSeen => some (r.records ++ [r.fields ++ [r.field]])

end Reader

/-- Reads a file. -/
def read (input : List Char) : Option (List (List (List Char))) :=
  (input.foldlM Reader.step Reader.init).bind Reader.finish

/-! ## Fields -/

/-- A character that means something to the reader. -/
def Special (c : Char) : Prop := c = ',' ∨ c = '"' ∨ c = '\x0d' ∨ c = '\n'

instance (c : Char) : Decidable (Special c) := inferInstanceAs (Decidable (_ ∨ _ ∨ _ ∨ _))

/-- A text in quotes, with every quote doubled. -/
def quote (s : List Char) : List Char :=
  '"' :: (s.flatMap (fun c => if c = '"' then ['"', '"'] else [c]) ++ ['"'])

/-- A field is written as it is, or in quotes. -/
def Encodes (enc value : List Char) : Prop :=
  enc = value ∧ (∀ c ∈ value, ¬Special c) ∨ enc = quote value

/-- A field is written as it is, but the reader ends a record in it. -/
def Cut (enc value : List Char) : Prop :=
  enc = value ∧ ∃ before after, value = before ++ '\x0d' :: after ∧ ∀ c ∈ before, ¬Special c

theorem length_quote (s : List Char) : s.length < (quote s).length := by
  have hdoubled : ∀ s : List Char,
      s.length ≤ (s.flatMap fun c => if c = '"' then ['"', '"'] else [c]).length := by
    intro s
    induction s with
    | nil => exact Nat.le_refl _
    | cons c s ih =>
      rw [List.flatMap_cons, List.length_append, List.length_cons]
      split_ifs <;> simp only [List.length_cons, List.length_nil] <;> omega
  have hs := hdoubled s
  simp only [quote, List.length_cons, List.length_append, List.length_nil]
  omega

theorem Cut.not_encodes {enc value : List Char} (h : Cut enc value) : ¬Encodes enc value := by
  obtain ⟨rfl, before, after, hvalue, -⟩ := h
  rintro (⟨-, hplain⟩ | hquoted)
  · exact hplain '\x0d' (by simp [hvalue]) (.inr (.inr (.inl rfl)))
  · have hlen := length_quote enc
    rw [← hquoted] at hlen
    omega

/-- A line of encoded fields. -/
def line : List (List Char) → List Char
  | [] => ['\n']
  | [enc] => enc ++ ['\n']
  | enc :: encs => enc ++ ',' :: line encs

namespace Reader

/-- The modes in which a delimiter ends a field. -/
def Ends (r : Reader) : Prop :=
  r.mode = .recordStart ∨ r.mode = .fieldStart ∨ r.mode = .plain ∨ r.mode = .quoteSeen

/-- At the start of a field. -/
def Starts (r : Reader) : Prop := (r.mode = .recordStart ∨ r.mode = .fieldStart) ∧ r.field = []

variable {r r' : Reader} {enc value : List Char}

theorem step_delimiter (h : r.Ends) {c : Char} (hc : c ≠ '"') (hdelim : Special c) :
    r.step c = r.delimiter c none := by
  have hall : ∀ o, r.delimiter c o = r.delimiter c none := by
    intro o
    unfold delimiter
    rcases hdelim with rfl | rfl | rfl | rfl
    · rfl
    · exact absurd rfl hc
    · rfl
    · rfl
  unfold step
  rcases h with h | h | h | h <;> rw [h] <;> dsimp only <;> rw [if_neg hc] <;> exact hall _

/-- Plain characters are read as they are. -/
theorem read_plain : ∀ {s : List Char} {r : Reader}, (∀ c ∈ s, ¬Special c) →
    r.Starts ∨ r.mode = .plain →
    ∃ r', s.foldlM step r = some r' ∧ r'.records = r.records ∧ r'.fields = r.fields ∧
      r'.field = r.field ++ s ∧ r'.Ends
  | [], r, _, h => by
    refine ⟨r, rfl, rfl, rfl, (List.append_nil _).symm, ?_⟩
    rcases h with ⟨h | h, -⟩ | h
    · exact .inl h
    · exact .inr (.inl h)
    · exact .inr (.inr (.inl h))
  | c :: s, r, hs, h => by
    have hc := hs c List.mem_cons_self
    simp only [Special, not_or] at hc
    obtain ⟨hcomma, hquote, hcr, hlf⟩ := hc
    have hstep : r.step c = some (r.push c .plain) := by
      unfold step delimiter
      rcases h with ⟨h | h, -⟩ | h <;> rw [h] <;> dsimp only <;>
        rw [if_neg hquote, if_neg hcomma, if_neg hcr, if_neg hlf]
    obtain ⟨r', hr', hrecords, hfields, hfield, hends⟩ :=
      read_plain (r := r.push c .plain) (fun d hd => hs d (List.mem_cons_of_mem _ hd)) (.inr rfl)
    refine ⟨r', ?_, hrecords, hfields, ?_, hends⟩
    · rw [List.foldlM_cons, hstep, Option.bind_eq_bind, Option.bind_some, hr']
    · rw [hfield, push, List.append_assoc, List.singleton_append]

/-- Doubled quotes are read as quotes. -/
theorem read_doubled : ∀ (s : List Char) {r : Reader}, r.mode = .quoted →
    (s.flatMap (fun c => if c = '"' then ['"', '"'] else [c])).foldlM step r =
      some { r with field := r.field ++ s }
  | [], r, _ => by rw [List.append_nil]; rfl
  | c :: s, r, h => by
    have hchar : (if c = '"' then ['"', '"'] else [c]).foldlM step r = some (r.push c .quoted) := by
      by_cases hc : c = '"'
      · subst hc
        have hfirst : r.step '"' = some { r with mode := .quoteSeen } := by
          unfold step
          rw [h]
          rfl
        rw [if_pos rfl, List.foldlM_cons, hfirst]
        rfl
      · have hstep : r.step c = some (r.push c .quoted) := by
          unfold step
          rw [h]
          exact if_neg hc
        rw [if_neg hc, List.foldlM_cons, hstep]
        rfl
    rw [List.flatMap_cons, List.foldlM_append, hchar, Option.bind_eq_bind, Option.bind_some,
      read_doubled s rfl]
    simp [push, h]

/-- **A field is read back**, up to where a delimiter ends it. -/
theorem read_field (h : Encodes enc value) (hr : r.Starts) :
    ∃ r', enc.foldlM step r = some r' ∧ r'.records = r.records ∧ r'.fields = r.fields ∧
      r'.field = value ∧ r'.Ends := by
  rcases h with ⟨rfl, hplain⟩ | rfl
  · obtain ⟨r', hread, hrecords, hfields, hfield, hends⟩ := read_plain hplain (.inl hr)
    refine ⟨r', hread, hrecords, hfields, ?_, hends⟩
    rw [hfield, hr.2, List.nil_append]
  · refine ⟨{ r with field := value, mode := .quoteSeen }, ?_, rfl, rfl, rfl, .inr (.inr (.inr rfl))⟩
    have hopen : r.step '"' = some { r with mode := .quoted } := by
      unfold step
      rcases hr.1 with h | h <;> rw [h] <;> rfl
    rw [quote, List.foldlM_cons, hopen, Option.bind_eq_bind, Option.bind_some, List.foldlM_append,
      read_doubled value rfl, hr.2]
    rfl

/-! ## Lines -/

theorem line_cons (enc : List Char) {encs : List (List Char)} (h : encs ≠ []) :
    line (enc :: encs) = enc ++ ',' :: line encs := by
  cases encs with
  | nil => exact absurd rfl h
  | cons _ _ => rfl

/-- A line of encoded fields is a record. -/
theorem read_line {encs values : List (List Char)} (h : List.Forall₂ Encodes encs values)
    (hne : encs ≠ []) : ∀ {r : Reader}, r.Starts → (line encs).foldlM step r =
      some ⟨r.records ++ [r.fields ++ values], [], [], .recordStart⟩ := by
  induction h with
  | nil => exact absurd rfl hne
  | @cons enc value encs values hfield hrest ih =>
    intro r hr
    obtain ⟨r', hread, hrecords, hfields, hvalue, hends⟩ := read_field hfield hr
    by_cases hlast : encs = []
    · subst hlast
      obtain rfl := List.forall₂_nil_left_iff.1 hrest
      have hlf : r'.step '\n' = some (r'.endRecord .recordStart) :=
        step_delimiter hends (by decide) (by decide)
      rw [line, List.foldlM_append, hread, Option.bind_eq_bind, Option.bind_some,
        List.foldlM_cons, hlf]
      simp only [endRecord, hrecords, hfields, hvalue]
      rfl
    · have hcomma : r'.step ',' = some r'.endField :=
        step_delimiter hends (by decide) (by decide)
      have hstart : r'.endField.Starts := ⟨.inr rfl, rfl⟩
      rw [line_cons enc hlast, List.foldlM_append, hread, Option.bind_eq_bind, Option.bind_some,
        List.foldlM_cons, hcomma, Option.bind_eq_bind, Option.bind_some, ih hlast hstart]
      simp only [endField, hrecords, hfields, hvalue, List.append_assoc, List.singleton_append]

/-- Reading on keeps the records. -/
theorem records_step {c : Char} (h : r.step c = some r') : r.records <+: r'.records := by
  have hdelim : ∀ {o : Option Reader}, (∀ s, o = some s → s.records = r.records) →
      ∀ s, r.delimiter c o = some s → r.records <+: s.records := by
    intro o ho s hs
    unfold delimiter at hs
    split_ifs at hs
    · obtain rfl := Option.some.inj hs
      exact List.prefix_refl _
    · obtain rfl := Option.some.inj hs
      exact List.prefix_append _ _
    · obtain rfl := Option.some.inj hs
      exact List.prefix_append _ _
    · exact ho s hs ▸ List.prefix_refl _
  have hsame : ∀ {s : Reader}, some s = some r' → s.records = r.records →
      r.records <+: r'.records := by
    intro s heq hs
    obtain rfl := Option.some.inj heq
    exact hs ▸ List.prefix_refl _
  have hpush : ∀ s, some (r.push c .plain) = some s → s.records = r.records := by
    intro s hs
    obtain rfl := Option.some.inj hs
    rfl
  have hnone : ∀ s : Reader, none = some s → s.records = r.records := by
    intro s hs
    cases hs
  unfold step at h
  split at h <;> split_ifs at h
  all_goals first
    | exact hsame h rfl
    | exact hdelim hpush _ h
    | exact hdelim hnone _ h

theorem records_foldlM : ∀ {s : List Char} {r r' : Reader}, s.foldlM step r = some r' →
    r.records <+: r'.records
  | [], r, r', h => by
    obtain rfl := Option.some.inj h
    exact List.prefix_refl _
  | c :: s, r, r', h => by
    rw [List.foldlM_cons] at h
    obtain ⟨r₁, hstep, hrest⟩ := Option.bind_eq_some_iff.1 h
    exact (records_step hstep).trans (records_foldlM hrest)

theorem records_finish {records : List (List (List Char))} (h : r.finish = some records) :
    r.records <+: records := by
  unfold finish at h
  split at h
  · obtain rfl := Option.some.inj h
    exact List.prefix_refl _
  · obtain rfl := Option.some.inj h
    exact List.prefix_refl _
  · cases h
  all_goals
    obtain rfl := Option.some.inj h
    exact List.prefix_append _ _

/-- A CR in a field that is written as it is ends a record, whatever comes after it. -/
theorem read_cut (h : Cut enc value) (hr : r.Starts) (rest : List Char)
    (hread : (enc ++ rest).foldlM step r = some r') :
    ∃ before, before ≠ value ∧ r.records ++ [r.fields ++ [before]] <+: r'.records := by
  obtain ⟨rfl, before, after, rfl, hplain⟩ := h
  obtain ⟨r₁, hr₁, hrecords, hfields, hfield, hends⟩ := read_plain hplain (.inl hr)
  have hcr : r₁.step '\x0d' = some (r₁.endRecord .afterCr) :=
    step_delimiter hends (by decide) (by decide)
  refine ⟨before, ?_, ?_⟩
  · intro heq
    have hlen := congrArg List.length heq
    rw [List.length_append, List.length_cons] at hlen
    omega
  · rw [List.append_assoc, List.foldlM_append, hr₁, Option.bind_eq_bind, Option.bind_some,
      List.cons_append, List.foldlM_cons, hcr, Option.bind_eq_bind, Option.bind_some] at hread
    have hkept := records_foldlM hread
    rwa [endRecord, hrecords, hfields, hfield, hr.2, List.nil_append] at hkept

/-- A line with a field that is cut begins with another record. -/
theorem read_line_cut {encs values : List (List Char)}
    (h : List.Forall₂ (fun e v => Encodes e v ∨ Cut e v) encs values)
    (hcut : ¬List.Forall₂ Encodes encs values) : ∀ {r r' : Reader}, r.Starts →
    (line encs).foldlM step r = some r' →
    ∃ record, record ≠ r.fields ++ values ∧ r.records ++ [record] <+: r'.records := by
  induction h with
  | nil => exact absurd .nil hcut
  | @cons enc value encs values hfield hrest ih =>
    intro r r' hr hread
    rcases hfield with hfield | hfield
    · have hrest' : ¬List.Forall₂ Encodes encs values := fun hall => hcut (.cons hfield hall)
      have hne : encs ≠ [] := by
        rintro rfl
        obtain rfl := List.forall₂_nil_left_iff.1 hrest
        exact hrest' .nil
      obtain ⟨r₁, hr₁, hrecords, hfields, hvalue, hends⟩ := read_field hfield hr
      have hcomma : r₁.step ',' = some r₁.endField :=
        step_delimiter hends (by decide) (by decide)
      rw [line_cons enc hne, List.foldlM_append, hr₁, Option.bind_eq_bind, Option.bind_some,
        List.foldlM_cons, hcomma, Option.bind_eq_bind, Option.bind_some] at hread
      have hstart : r₁.endField.Starts := ⟨.inr rfl, rfl⟩
      obtain ⟨record, hother, hprefix⟩ := ih hrest' hstart hread
      refine ⟨record, ?_, ?_⟩
      · simpa [endField, hfields, hvalue] using hother
      · rwa [endField, hrecords] at hprefix
    · obtain ⟨rest, hline⟩ : ∃ rest, line (enc :: encs) = enc ++ rest := by
        by_cases hne : encs = []
        · exact ⟨['\n'], by rw [hne, line]⟩
        · exact ⟨_, line_cons enc hne⟩
      rw [hline] at hread
      obtain ⟨before, hbefore, hprefix⟩ := read_cut hfield hr rest hread
      refine ⟨_, ?_, hprefix⟩
      intro heq
      exact hbefore (List.cons.inj (List.append_cancel_left heq)).1

end Reader

/-- **A line of fields that are encoded or cut is read back** if and only if none of them is cut. -/
theorem read_line_iff {encs values : List (List Char)} (hne : encs ≠ [])
    (h : List.Forall₂ (fun e v => Encodes e v ∨ Cut e v) encs values) :
    read (line encs) = some [values] ↔ List.Forall₂ Encodes encs values := by
  have hstart : Reader.init.Starts := ⟨.inl rfl, rfl⟩
  constructor
  · intro hread
    by_contra hcut
    obtain ⟨r, hline, hfinish⟩ := Option.bind_eq_some_iff.1 hread
    obtain ⟨record, hother, hprefix⟩ := Reader.read_line_cut h hcut hstart hline
    obtain ⟨rest, hrecords⟩ := hprefix.trans (Reader.records_finish hfinish)
    exact hother (List.cons.inj hrecords).1
  · intro hall
    rw [read, Reader.read_line hall hne hstart]
    rfl

end Csv

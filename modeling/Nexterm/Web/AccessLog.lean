/-
  The access log (`web/access_log.rs`): the lines of a CSV file.

  * `AccessLogger.log`: rotation, the header, and the line; `files_log`: the line is appended.
  * `logLine`, `csvEscape`, `stripQueryString`, `chronoNow`: the line of an entry.
  * `CrQuoted`: a text without a CR, or in quotes for another reason.
  * `logLine_reads_iff`: exactly the lines of such texts are read back as one record.
-/
import Nexterm.Lib.Csv
import Nexterm.Web.Rotation

namespace Nexterm.Web

/-! ## Fields -/

/-- Access log entry. -/
structure AccessLogEntry where
  remoteAddr : String
  method : String
  path : String
  status : UInt16
  authMethod : String
  userId : String

/-- Strip the query string (`?...`) and fragment (`#...`) from a path. -/
def stripQueryString (path : String) : String :=
  let withoutFragment := path.toList.takeWhile (· ≠ '#')
  String.ofList (withoutFragment.takeWhile (· ≠ '?'))

/-- Escape a CSV field. -/
def csvEscape (s : String) : String :=
  if ',' ∈ s.toList ∨ '"' ∈ s.toList ∨ '\n' ∈ s.toList then
    "\"" ++ String.ofList (s.toList.flatMap fun c => if c = '"' then ['"', '"'] else [c]) ++ "\""
  else s

/-- Convert days since the Unix epoch into a (year, month, day) tuple. -/
def daysToYmd (days : ℕ) : ℕ × ℕ × ℕ :=
  let z := days + 719468
  let era := z / 146097
  let doe := z % 146097
  let yoe := (doe - doe / 1460 + doe / 36524 - doe / 146096) / 365
  let y := yoe + era * 400
  let doy := doe - (365 * yoe + yoe / 4 - yoe / 100)
  let mp := (5 * doy + 2) / 153
  let d := doy - (153 * mp + 2) / 5 + 1
  let m := if mp < 10 then mp + 3 else mp - 9
  let y := if m ≤ 2 then y + 1 else y
  (y, m, d)

/-- A number with leading zeros. -/
def zeroPadded (width n : ℕ) : String :=
  let digits := (toString n).toList
  String.ofList (List.replicate (width - digits.length) '0' ++ digits)

/-- A time, in seconds since the Unix epoch, in ISO 8601 format. -/
def chronoNow (secs : ℕ) : String :=
  let s := secs % 60
  let m := secs / 60 % 60
  let h := secs / 3600 % 24
  let (year, month, day) := daysToYmd (secs / 86400)
  zeroPadded 4 year ++ "-" ++ zeroPadded 2 month ++ "-" ++ zeroPadded 2 day ++ "T" ++
    zeroPadded 2 h ++ ":" ++ zeroPadded 2 m ++ ":" ++ zeroPadded 2 s ++ "Z"

/-- The CSV line of an entry. -/
def logLine (secs : ℕ) (entry : AccessLogEntry) : String :=
  chronoNow secs ++ "," ++ csvEscape entry.remoteAddr ++ "," ++ csvEscape entry.method ++ "," ++
    csvEscape (stripQueryString entry.path) ++ "," ++ toString entry.status.toNat ++ "," ++
    csvEscape entry.authMethod ++ "," ++ csvEscape entry.userId ++ "\n"

/-! ## The logger -/

/-- Access log writer. -/
structure AccessLogger where
  filePath : Option String
  enabled : Bool
  maxSizeBytes : ℕ
  maxGenerations : ℕ
  compress : Bool

/-- CSV header line. -/
def csvHeader : String := "timestamp,remote_addr,method,path,status,auth_method,user_id"

/-- Appends a text to a file, which is created if it is not there. -/
def Disk.append (d : Disk) (path text : String) : Disk :=
  let content := (d.files path).getD []
  { d with files := Function.update d.files path (some (content ++ text.toUTF8.data.toList)) }

/-- Create the CSV header line. -/
def ensureHeader (d : Disk) (path : String) : Disk := d.append path (csvHeader ++ "\n")

namespace AccessLogger

/-- Whether rotation is enabled. -/
def rotationEnabled (l : AccessLogger) : Bool := l.maxSizeBytes > 0 && l.maxGenerations > 0

/-- Rotate when the file size exceeds the threshold. -/
def rotateIfNeeded (Z : Gzip) (l : AccessLogger) (d : Disk) (path : String) : Option Disk :=
  match d.files path with
  | none => some d
  | some content =>
    if content.length < l.maxSizeBytes then some d
    else rotateFiles Z d path l.maxGenerations l.compress

/-- Record an access log entry; a rotation that fails is passed over. -/
def log (Z : Gzip) (l : AccessLogger) (secs : ℕ) (entry : AccessLogEntry) (d : Disk) : Disk :=
  if !l.enabled then d
  else
    match l.filePath with
    | none => d
    | some path =>
      let d := if l.rotationEnabled then (l.rotateIfNeeded Z d path).getD d else d
      -- if the file disappeared after rotation, the header is written again
      let d := if !d.exists path then ensureHeader d path else d
      d.append path (logLine secs entry)

/-- The line of an entry is what an enabled logger appends last. -/
theorem files_log (Z : Gzip) {l : AccessLogger} {path : String} (henabled : l.enabled = true)
    (hpath : l.filePath = some path) (secs : ℕ) (entry : AccessLogEntry) (d : Disk) :
    ∃ before, (l.log Z secs entry d).files path =
      some (before ++ (logLine secs entry).toUTF8.data.toList) := by
  unfold log
  rw [henabled, if_neg (by decide), hpath]
  exact ⟨_, Function.update_self ..⟩

end AccessLogger

/-! ## Plain fields -/

theorem not_special_of_isDigit {c : Char} (h : c.isDigit) : ¬Csv.Special c := by
  rintro (rfl | rfl | rfl | rfl) <;> exact absurd h (by decide)

theorem plain_toString (n : ℕ) : ∀ c ∈ (toString n).toList, ¬Csv.Special c :=
  fun _ hc => not_special_of_isDigit (Digits.isDigit_toString hc)

theorem plain_zeroPadded (width n : ℕ) : ∀ c ∈ (zeroPadded width n).toList, ¬Csv.Special c := by
  intro c hc
  rw [zeroPadded, String.toList_ofList] at hc
  rcases List.mem_append.1 hc with hc | hc
  · rw [List.eq_of_mem_replicate hc]
    decide
  · exact plain_toString n c hc

theorem plain_append {s t : String} (hs : ∀ c ∈ s.toList, ¬Csv.Special c)
    (ht : ∀ c ∈ t.toList, ¬Csv.Special c) : ∀ c ∈ (s ++ t).toList, ¬Csv.Special c := by
  intro c hc
  rw [String.toList_append] at hc
  rcases List.mem_append.1 hc with hc | hc
  · exact hs c hc
  · exact ht c hc

theorem plain_of_all {s : String} (h : s.toList.all (fun c => !decide (Csv.Special c)) = true) :
    ∀ c ∈ s.toList, ¬Csv.Special c := by
  intro c hc
  simpa using List.all_eq_true.1 h c hc

/-- A timestamp needs no quotes. -/
theorem plain_chronoNow (secs : ℕ) : ∀ c ∈ (chronoNow secs).toList, ¬Csv.Special c := by
  have hpad := plain_zeroPadded
  unfold chronoNow
  obtain ⟨year, month, day⟩ := daysToYmd (secs / 86400)
  refine plain_append (plain_append (plain_append (plain_append (plain_append (plain_append
    (plain_append (plain_append (plain_append (plain_append (plain_append (hpad 4 year) ?_)
    (hpad 2 month)) ?_) (hpad 2 day)) ?_) (hpad 2 _)) ?_) (hpad 2 _)) ?_) (hpad 2 _)) ?_
  all_goals exact plain_of_all (by decide)

/-! ## Escaped fields -/

/-- A text without a CR, or that has quotes for another character. -/
def CrQuoted (s : String) : Prop :=
  '\x0d' ∈ s.toList → ',' ∈ s.toList ∨ '"' ∈ s.toList ∨ '\n' ∈ s.toList

instance (s : String) : Decidable (CrQuoted s) := inferInstanceAs (Decidable (_ → _))

theorem csvEscape_encodes {s : String} (h : CrQuoted s) :
    Csv.Encodes (csvEscape s).toList s.toList := by
  unfold csvEscape
  by_cases hspecial : ',' ∈ s.toList ∨ '"' ∈ s.toList ∨ '\n' ∈ s.toList
  · rw [if_pos hspecial]
    simp only [String.toList_append, String.toList_ofList]
    exact .inr rfl
  · rw [if_neg hspecial]
    refine .inl ⟨rfl, ?_⟩
    rintro c hc (rfl | rfl | rfl | rfl)
    · exact hspecial (.inl hc)
    · exact hspecial (.inr (.inl hc))
    · exact hspecial (h hc)
    · exact hspecial (.inr (.inr hc))

/-- A CR alone gets no quotes. -/
theorem csvEscape_cut {s : String} (h : ¬CrQuoted s) : Csv.Cut (csvEscape s).toList s.toList := by
  obtain ⟨hcr, hspecial⟩ := Classical.not_imp.1 h
  rw [csvEscape, if_neg hspecial]
  refine ⟨rfl, ?_⟩
  obtain ⟨before, after, hs, hbefore⟩ := List.eq_append_cons_of_mem hcr
  refine ⟨before, after, hs, ?_⟩
  have hmem : ∀ c ∈ before, c ∈ s.toList := fun c hc => hs ▸ List.mem_append_left _ hc
  rintro c hc (rfl | rfl | rfl | rfl)
  · exact hspecial (.inl (hmem _ hc))
  · exact hspecial (.inr (.inl (hmem _ hc)))
  · exact hbefore hc
  · exact hspecial (.inr (.inr (hmem _ hc)))

theorem encodes_csvEscape_iff {s : String} :
    Csv.Encodes (csvEscape s).toList s.toList ↔ CrQuoted s := by
  constructor
  · intro h
    by_contra hcr
    exact (csvEscape_cut hcr).not_encodes h
  · exact csvEscape_encodes

theorem csvEscape_or (s : String) : Csv.Encodes (csvEscape s).toList s.toList ∨
    Csv.Cut (csvEscape s).toList s.toList := by
  by_cases h : CrQuoted s
  · exact .inl (csvEscape_encodes h)
  · exact .inr (csvEscape_cut h)

/-! ## Lines -/

/-- The part of a path before its query and its fragment. -/
def pathOnly (path : String) : String :=
  String.ofList (path.toList.takeWhile fun c => c ≠ '?' ∧ c ≠ '#')

theorem stripQueryString_eq (path : String) : stripQueryString path = pathOnly path := by
  have h : ∀ s : List Char, (s.takeWhile (· ≠ '#')).takeWhile (· ≠ '?') =
      s.takeWhile fun c => c ≠ '?' ∧ c ≠ '#' := by
    intro s
    induction s with
    | nil => rfl
    | cons c s ih =>
      by_cases hfragment : c = '#'
      · simp [hfragment]
      · by_cases hquery : c = '?'
        · simp [hquery]
        · simp [hfragment, hquery] at ih ⊢
          exact ih
  exact congrArg String.ofList (h path.toList)

/-- The texts of an entry, as they go into its line. -/
def AccessLogEntry.texts (entry : AccessLogEntry) : List String :=
  [entry.remoteAddr, entry.method, pathOnly entry.path, entry.authMethod, entry.userId]

/-- The record of an entry. -/
def AccessLogEntry.record (entry : AccessLogEntry) (secs : ℕ) : List (List Char) :=
  [(chronoNow secs).toList, entry.remoteAddr.toList, entry.method.toList,
    (pathOnly entry.path).toList, (toString entry.status.toNat).toList, entry.authMethod.toList,
    entry.userId.toList]

theorem toList_logLine (secs : ℕ) (entry : AccessLogEntry) : (logLine secs entry).toList =
    Csv.line [(chronoNow secs).toList, (csvEscape entry.remoteAddr).toList,
      (csvEscape entry.method).toList, (csvEscape (pathOnly entry.path)).toList,
      (toString entry.status.toNat).toList, (csvEscape entry.authMethod).toList,
      (csvEscape entry.userId).toList] := by
  have hcomma : (",").toList = [','] := rfl
  have hline : ("\n").toList = ['\n'] := rfl
  simp only [logLine, stripQueryString_eq, String.toList_append, hcomma, hline, Csv.line,
    List.append_assoc, List.cons_append, List.nil_append]

/-- **The line of an entry is read back** as one record, if and only if each of its texts that has a
    CR has a comma, a quote or a line feed as well. -/
theorem logLine_reads_iff (secs : ℕ) (entry : AccessLogEntry) :
    Csv.read (logLine secs entry).toList = some [entry.record secs] ↔
      ∀ s ∈ entry.texts, CrQuoted s := by
  have htime := plain_chronoNow secs
  have hstatus := plain_toString entry.status.toNat
  rw [toList_logLine, AccessLogEntry.record, Csv.read_line_iff (List.cons_ne_nil _ _)]
  · simp only [List.forall₂_cons, encodes_csvEscape_iff, AccessLogEntry.texts, List.forall_mem_cons]
    have htimeEncodes : Csv.Encodes (chronoNow secs).toList (chronoNow secs).toList :=
      .inl ⟨rfl, htime⟩
    have hstatusEncodes : Csv.Encodes (toString entry.status.toNat).toList
        (toString entry.status.toNat).toList := .inl ⟨rfl, hstatus⟩
    simp only [htimeEncodes, hstatusEncodes, true_and, List.Forall₂.nil, and_true,
      List.not_mem_nil, false_implies, implies_true]
  · exact .cons (.inl (.inl ⟨rfl, htime⟩)) (.cons (csvEscape_or _) (.cons (csvEscape_or _)
      (.cons (csvEscape_or _) (.cons (.inl (.inl ⟨rfl, hstatus⟩)) (.cons (csvEscape_or _)
        (.cons (csvEscape_or _) .nil))))))

/-- A CR in the name of a user forges a record. -/
theorem logLine_forged :
    let entry : AccessLogEntry := ⟨"192.0.2.1", "GET", "/auth/callback?code=1", 302, "oauth:oidc",
      "a\x0db"⟩
    Csv.read (logLine 0 entry).toList = some [(entry.record 0).dropLast ++ [['a']], [['b']]] ∧
      Csv.read (logLine 0 entry).toList ≠ some [entry.record 0] := by
  decide +kernel

end Nexterm.Web

/-
  The asciicast recording of a pane (`AsciicastWriter` in `pane.rs`).

  * `writeOutput`: an event with the lossily decoded bytes of one write.
  * `leaders_le_lossy`: lossy decoding makes a character of every byte that starts one, and one
    more of a piece that starts in the middle of a character.
  * `recorded_iff`: what is recorded is the output exactly as long as no write starts in the middle
    of a character.
-/
import Nexterm.Vt.Percent

namespace Nexterm.Server

open Vt Utf8

/-! ## The writer -/

/-- JSON strings of `serde_json`. -/
structure JsonStrings where
  toString : String → String
  fromStr : String → Option String
  fromStr_toString : ∀ s, fromStr (toString s) = some s

/-- An event line: the seconds since the start of the recording, and a JSON string. -/
structure CastEvent where
  elapsed : String
  data : String

/-- Write PTY output data as an asciicast event line. -/
def writeOutput (J : JsonStrings) (file : List CastEvent) (elapsed : String) (data : List UInt8) :
    List CastEvent :=
  file ++ [⟨elapsed, J.toString (String.ofList (fromUtf8Lossy data))⟩]

/-- The file after a sequence of writes, each at its time. -/
def record (J : JsonStrings) (writes : List (String × List UInt8)) : List CastEvent :=
  writes.foldl (fun file write => writeOutput J file write.1 write.2) []

/-- The concatenation of the decoded event strings. -/
def playback (J : JsonStrings) (file : List CastEvent) : Option String :=
  (file.mapM fun event => J.fromStr event.data).map String.join

/-- A byte of a character that is not its first. -/
def isContinuation (b : UInt8) : Bool := 0x80 ≤ b ∧ b ≤ 0xbf

/-- Whether a piece of a text starts in the middle of a character. -/
def startsInside : List UInt8 → Bool
  | b :: _ => isContinuation b
  | [] => false

theorem record_eq (J : JsonStrings) (writes : List (String × List UInt8)) :
    record J writes = writes.map fun write =>
      ⟨write.1, J.toString (String.ofList (fromUtf8Lossy write.2))⟩ := by
  have hfold : ∀ file, writes.foldl (fun file write => writeOutput J file write.1 write.2) file =
      file ++ writes.map fun write =>
        ⟨write.1, J.toString (String.ofList (fromUtf8Lossy write.2))⟩ := by
    induction writes with
    | nil =>
      intro file
      exact (List.append_nil file).symm
    | cons write writes ih =>
      intro file
      rw [List.foldl_cons, ih, writeOutput, List.append_assoc]
      rfl
  exact hfold []

/-- Each write is decoded on its own. -/
theorem playback_record (J : JsonStrings) (writes : List (String × List UInt8)) :
    playback J (record J writes) =
      some (String.ofList (writes.flatMap fun write => fromUtf8Lossy write.2)) := by
  have htexts : (record J writes).mapM (fun event => J.fromStr event.data) =
      some (writes.map fun write => String.ofList (fromUtf8Lossy write.2)) := by
    rw [record_eq, List.mapM_map]
    have hback : (fun event => J.fromStr event.data) ∘ (fun write : String × List UInt8 =>
        (⟨write.1, J.toString (String.ofList (fromUtf8Lossy write.2))⟩ : CastEvent)) =
          fun write => some (String.ofList (fromUtf8Lossy write.2)) :=
      funext fun write => J.fromStr_toString _
    rw [hback]
    exact List.mapM_pure
  rw [playback, htexts, Option.map_some, Option.some.injEq, ← String.toList_inj,
    String.toList_join, List.flatMap_map]
  simp only [String.toList_ofList]

/-! ## Lossy decoding of a piece -/

/-- How many bytes start a character. -/
def leaders (bytes : List UInt8) : ℕ := bytes.countP fun b => !isContinuation b

theorem leaders_cons (b : UInt8) (bytes : List UInt8) :
    leaders (b :: bytes) = leaders bytes + if isContinuation b then 0 else 1 := by
  rw [leaders, List.countP_cons, ← leaders]
  cases isContinuation b <;> rfl

theorem leaders_append (bytes bytes' : List UInt8) :
    leaders (bytes ++ bytes') = leaders bytes + leaders bytes' := List.countP_append

theorem leaders_eq_zero {bytes : List UInt8} (h : ∀ b ∈ bytes, isContinuation b = true) :
    leaders bytes = 0 := by
  rw [leaders, List.countP_eq_zero]
  intro b hb
  rw [h b hb]
  decide

/-- The bytes of a character: one that starts it, and continuation bytes. -/
theorem utf8EncodeChar_split (c : Char) : ∃ b bytes, String.utf8EncodeChar c = b :: bytes ∧
    isContinuation b = false ∧ ∀ b' ∈ bytes, isContinuation b' = true := by
  have hinside : ∀ {m : ℕ}, 0x80 ≤ m → m ≤ 0xbf → isContinuation (UInt8.ofNat m) = true := by
    intro m hlow hhigh
    have hm := toNat_ofNat (m := m) (by omega)
    have hrange : 128 ≤ (UInt8.ofNat m).toNat ∧ (UInt8.ofNat m).toNat ≤ 191 := by omega
    exact decide_eq_true hrange
  have hfirst : ∀ {m : ℕ}, m < 256 → m < 0x80 ∨ 0xc0 ≤ m →
      isContinuation (UInt8.ofNat m) = false := by
    intro m hm hout
    have hm' := toNat_ofNat hm
    refine decide_eq_false fun h => ?_
    have hlow : 128 ≤ (UInt8.ofNat m).toNat := h.1
    have hhigh : (UInt8.ofNat m).toNat ≤ 191 := h.2
    omega
  unfold String.utf8EncodeChar
  dsimp only
  split_ifs
  all_goals
    refine ⟨_, _, rfl, hfirst (by omega) (by omega), fun b' hb' => ?_⟩
    simp only [List.mem_cons, List.not_mem_nil, or_false] at hb'
  · rcases hb' with rfl
    exact hinside (by omega) (by omega)
  · rcases hb' with rfl | rfl
    all_goals exact hinside (by omega) (by omega)
  · rcases hb' with rfl | rfl | rfl
    all_goals exact hinside (by omega) (by omega)

theorem leaders_encode (cs : List Char) : leaders (encode cs) = cs.length := by
  induction cs with
  | nil => rfl
  | cons c cs ih =>
    obtain ⟨b, bytes, hc, hb, hbytes⟩ := utf8EncodeChar_split c
    rw [encode_cons, hc, List.cons_append, leaders_cons, leaders_append, leaders_eq_zero hbytes, ih,
      hb]
    simp

/-- The bytes taken after a leading one start no character. -/
theorem leaders_drop (n : ℕ) : ∀ {lo hi : UInt8} (bytes : List UInt8), 0x80 ≤ lo.toNat →
    hi.toNat ≤ 0xbf →
    leaders (bytes.drop (continuation n lo hi bytes).length) = leaders bytes := by
  induction n with
  | zero =>
    intro lo hi bytes _ _
    rw [continuation_zero]
    rfl
  | succ n ih =>
    intro lo hi bytes hlo hhi
    cases bytes with
    | nil => rfl
    | cons b bytes =>
      by_cases hb : lo.toNat ≤ b.toNat ∧ b.toNat ≤ hi.toNat
      · have hinside : isContinuation b = true := by
          have hrange : 128 ≤ b.toNat ∧ b.toNat ≤ 191 := by omega
          exact decide_eq_true hrange
        rw [continuation_cons hb, List.length_cons, List.drop_succ_cons, leaders_cons, hinside]
        exact ih bytes (by decide) (by decide)
      · rw [continuation_of_out hb]
        rfl

/-- Lossy decoding makes a character of every byte that starts one. -/
theorem leaders_le_lossy (bytes : List UInt8) :
    leaders bytes ≤ (fromUtf8Lossy bytes).length := by
  have hone : ∀ b, (if isContinuation b then 0 else 1) ≤ 1 := by
    intro b
    split_ifs <;> decide
  fun_induction fromUtf8Lossy bytes with
  | case1 => exact le_rfl
  | case2 b bytes _ ih =>
    rw [leaders_cons, List.length_cons]
    exact Nat.add_le_add ih (hone b)
  | case3 b bytes _ _ ih =>
    rw [leaders_cons, List.length_cons]
    exact Nat.add_le_add ih (hone b)
  | case4 b bytes _ n lo hi hlead rest char ih =>
    obtain ⟨hlo, hhi⟩ := leadByte_range hlead
    rw [leaders_drop n bytes hlo hhi] at ih
    rw [leaders_cons, List.length_cons]
    exact Nat.add_le_add ih (hone b)

/-- A piece that starts in the middle of a character becomes one character more. -/
theorem leaders_lt_lossy {bytes : List UInt8} (h : startsInside bytes = true) :
    leaders bytes < (fromUtf8Lossy bytes).length := by
  cases bytes with
  | nil => cases h
  | cons b bytes =>
    have hrange : 128 ≤ b.toNat ∧ b.toNat ≤ 191 := of_decide_eq_true h
    have hhigh : ¬b < 0x80 := fun hlt => by
      have : b.toNat < 128 := hlt
      omega
    have hlead : leadByte b = none := by
      have hlow : ∀ {lo hi : UInt8}, 191 < lo.toNat → ¬(lo ≤ b ∧ b ≤ hi) := fun hlo hb => by
        have := UInt8.le_iff_toNat_le.1 hb.1
        omega
      have hne : ∀ {c : UInt8}, 191 < c.toNat → b ≠ c := by
        rintro c hc rfl
        omega
      rw [leadByte, if_neg (hlow (by decide)), if_neg (hne (by decide)), if_neg (hne (by decide)),
        if_neg (hlow (by decide)), if_neg (hne (by decide)), if_neg (hlow (by decide)),
        if_neg (hne (by decide))]
    have hrest := leaders_le_lossy bytes
    have hinside : isContinuation b = true := h
    rw [fromUtf8Lossy, if_neg hhigh, hlead, leaders_cons, hinside, List.length_cons]
    exact Nat.lt_succ_of_le hrest

/-! ## A text in pieces -/

/-- A text is cut at a character where the second piece does not start in the middle of one. -/
theorem exists_cut {bytes bytes' : List UInt8} {cs : List Char} (h : bytes ++ bytes' = encode cs)
    (hinside : startsInside bytes' = false) :
    ∃ ds ds', bytes = encode ds ∧ bytes' = encode ds' ∧ cs = ds ++ ds' := by
  induction cs generalizing bytes with
  | nil =>
    obtain ⟨rfl, rfl⟩ := List.append_eq_nil_iff.1 h
    exact ⟨[], [], rfl, rfl, rfl⟩
  | cons c cs ih =>
    rw [encode_cons] at h
    rcases List.append_eq_append_iff.1 h with ⟨mid, hmid, hrest⟩ | ⟨mid, hmid, hrest⟩
    · obtain ⟨b, tail, hc, -, htail⟩ := utf8EncodeChar_split c
      rcases bytes with _ | ⟨b', bytes⟩
      · exact ⟨[], c :: cs, rfl, h.trans (encode_cons c cs).symm, rfl⟩
      rcases mid with _ | ⟨m, mid⟩
      · rw [List.append_nil] at hmid
        exact ⟨[c], cs, by rw [encode_cons, hmid]; exact (List.append_nil _).symm, hrest, rfl⟩
      -- the second piece starts with a byte of `c` that is not its first
      · rw [hc, List.cons_append, List.cons.injEq] at hmid
        have hm : isContinuation m = true := htail m (by rw [hmid.2]; simp)
        rw [hrest, List.cons_append, startsInside, hm] at hinside
        cases hinside
    · obtain ⟨ds, ds', rfl, rfl, rfl⟩ := ih hrest.symm
      exact ⟨c :: ds, ds', by rw [hmid, encode_cons], rfl, rfl⟩

/-- Pieces that do not start in the middle of a character together do not. -/
theorem startsInside_flatten {pieces : List (List UInt8)}
    (h : ∀ piece ∈ pieces, startsInside piece = false) : startsInside pieces.flatten = false := by
  induction pieces with
  | nil => rfl
  | cons piece pieces ih =>
    have hrest := ih fun p hp => h p (List.mem_cons_of_mem _ hp)
    have hpiece := h piece List.mem_cons_self
    cases piece with
    | nil => exact hrest
    | cons b piece => exact hpiece

theorem leaders_flatten_le (pieces : List (List UInt8)) :
    leaders pieces.flatten ≤ (pieces.flatMap fromUtf8Lossy).length := by
  induction pieces with
  | nil => exact le_rfl
  | cons piece pieces ih =>
    rw [List.flatten_cons, leaders_append, List.flatMap_cons, List.length_append]
    exact Nat.add_le_add (leaders_le_lossy piece) ih

/-- **A text written in pieces** is decoded to itself exactly as long as no piece starts in the
    middle of a character. -/
theorem lossy_pieces_iff {pieces : List (List UInt8)} {cs : List Char}
    (h : pieces.flatten = encode cs) :
    pieces.flatMap fromUtf8Lossy = cs ↔ ∀ piece ∈ pieces, startsInside piece = false := by
  constructor
  · -- otherwise there are more characters than bytes that start one
    intro hcs piece hpiece
    by_contra hinside
    rw [Bool.not_eq_false] at hinside
    obtain ⟨before, after, rfl⟩ := List.append_of_mem hpiece
    have hlen : leaders (before ++ piece :: after).flatten = cs.length := by rw [h, leaders_encode]
    have hbefore := leaders_flatten_le before
    have hafter := leaders_flatten_le after
    have hmore := leaders_lt_lossy hinside
    rw [List.flatten_append, List.flatten_cons, leaders_append, leaders_append] at hlen
    rw [← hcs, List.flatMap_append, List.flatMap_cons, List.length_append,
      List.length_append] at hlen
    omega
  · intro hall
    induction pieces generalizing cs with
    | nil =>
      have hnil := leaders_encode cs
      rw [← h] at hnil
      exact (List.length_eq_zero_iff.1 hnil.symm).symm
    | cons piece pieces ih =>
      have hrest : ∀ p ∈ pieces, startsInside p = false := fun p hp =>
        hall p (List.mem_cons_of_mem _ hp)
      rw [List.flatten_cons] at h
      obtain ⟨ds, ds', rfl, hds', rfl⟩ := exists_cut h (startsInside_flatten hrest)
      rw [List.flatMap_cons, lossy_encode, ih hds' hrest]

/-! ## The recording -/

/-- **The recording of an output** plays it back exactly as long as no write starts in the middle
    of a character. -/
theorem recorded_iff (J : JsonStrings) {writes : List (String × List UInt8)} {output : String}
    (h : writes.flatMap Prod.snd = encode output.toList) :
    playback J (record J writes) = some output ↔
      ∀ write ∈ writes, startsInside write.2 = false := by
  have hpieces : (writes.map Prod.snd).flatten = encode output.toList := h
  have hiff := lossy_pieces_iff hpieces
  rw [List.flatMap_map, List.forall_mem_map] at hiff
  rw [playback_record, ← hiff, Option.some.injEq, ← String.toList_inj, String.toList_ofList]

/-- Strings without characters to escape, in quotes. -/
def quoted : JsonStrings where
  toString s := String.ofList ('"' :: (s.toList ++ ['"']))
  fromStr s := some (String.ofList (s.toList.drop 1).dropLast)
  fromStr_toString s := by
    rw [String.toList_ofList, List.drop_one, List.tail_cons, List.dropLast_concat,
      String.ofList_toList]

theorem recorded_iff_whole :
    playback quoted (record quoted [("0.000001", [0x68]), ("0.000002", [0xc3, 0xa9])]) =
      some "hé" :=
  (recorded_iff quoted (by decide)).2 (by decide)

/-- A character in two writes is lost. -/
theorem record_cut :
    [("0.000001", [0x68, 0xc3]), ("0.000002", [0xa9])].flatMap Prod.snd = encode "hé".toList ∧
      playback quoted (record quoted [("0.000001", [0x68, 0xc3]), ("0.000002", [0xa9])]) ≠
        some "hé" := by
  refine ⟨by decide, fun hplay => ?_⟩
  have hpieces : ([[0x68, 0xc3], [0xa9]] : List (List UInt8)).flatten = encode "hé".toList := by
    decide
  rw [playback_record, Option.some.injEq, ← String.toList_inj, String.toList_ofList] at hplay
  have hinside := (lossy_pieces_iff hpieces).1 hplay [0xa9] (by simp)
  cases hinside

end Nexterm.Server

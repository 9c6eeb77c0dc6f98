/-
  Percent-decoding (`percent_decode` in `screen.rs`): the bytes of `%XX` are put between the bytes of
  the other characters, and the result is decoded lossily.

  * `lossy_utf8EncodeChar`: a character is read back, whatever follows its bytes.
  * `Item`: a character or the byte of a triplet; `percentBytes_eq`: what is decoded is a list of
    these.
  * `percentDecode_of_no_triplet`: a text without a triplet is left alone.
  * `length_percentDecode`: decoding never lengthens a text.
-/
import Nexterm.Lib.Utf8
import Nexterm.Vt.Text

namespace Nexterm.Vt

open Utf8

/-! ## Lossy decoding -/

/-- A leading byte with all its continuation bytes is one character. -/
theorem lossy_sequence {b lo hi : UInt8} {n : ℕ} {cont rest : List UInt8} (hb : ¬b < 0x80)
    (hlead : leadByte b = some (n, lo, hi)) (hcont : continuation n lo hi (cont ++ rest) = cont)
    (hlen : cont.length = n) :
    fromUtf8Lossy (b :: (cont ++ rest)) =
      Char.ofNat (cont.foldl (fun code c => code * 64 + c.toNat % 64) (b.toNat % 2 ^ (6 - n))) ::
        fromUtf8Lossy rest := by
  rw [fromUtf8Lossy, if_neg hb, hlead]
  dsimp only
  rw [hcont, if_pos hlen, List.drop_left]

/-- A continuation byte in its range is taken. -/
theorem continuation_cons {n : ℕ} {lo hi b : UInt8} {bytes : List UInt8}
    (h : lo.toNat ≤ b.toNat ∧ b.toNat ≤ hi.toNat) :
    continuation (n + 1) lo hi (b :: bytes) = b :: continuation n 0x80 0xbf bytes :=
  if_pos h

theorem continuation_zero (lo hi : UInt8) (bytes : List UInt8) : continuation 0 lo hi bytes = [] := by
  cases bytes <;> rfl

theorem toNat_ofNat {m : ℕ} (h : m < 256) : (UInt8.ofNat m).toNat = m := by
  rw [UInt8.toNat_ofNat']
  exact Nat.mod_eq_of_lt h

theorem leadByte_two {b : UInt8} (h : 0xc2 ≤ b.toNat ∧ b.toNat ≤ 0xdf) :
    leadByte b = some (1, 0x80, 0xbf) := if_pos h

theorem leadByte_three {b : UInt8} (h : 0xe0 ≤ b.toNat ∧ b.toNat ≤ 0xef) :
    ∃ lo hi, leadByte b = some (2, lo, hi) ∧
      lo.toNat = (if b.toNat = 0xe0 then 0xa0 else 0x80) ∧
      hi.toNat = (if b.toNat = 0xed then 0x9f else 0xbf) := by
  have htwo : ¬(0xc2 ≤ b ∧ b ≤ 0xdf) := fun hlow => absurd (h.1.trans hlow.2) (by decide)
  unfold leadByte
  rw [if_neg htwo]
  by_cases he0 : b = 0xe0
  · subst he0
    exact ⟨_, _, rfl, rfl, rfl⟩
  · have he0' : b.toNat ≠ 0xe0 := fun hb => he0 (UInt8.toNat_inj.1 hb)
    rw [if_neg he0, if_neg he0']
    by_cases hed : b = 0xed
    · subst hed
      exact ⟨_, _, rfl, rfl, rfl⟩
    · have hed' : b.toNat ≠ 0xed := fun hb => hed (UInt8.toNat_inj.1 hb)
      have hrest : 0xe1 ≤ b ∧ b ≤ 0xef := ⟨Nat.lt_of_le_of_ne h.1 he0'.symm, h.2⟩
      rw [if_neg hed, if_neg hed', if_pos hrest]
      exact ⟨_, _, rfl, rfl, rfl⟩

theorem leadByte_four {b : UInt8} (h : 0xf0 ≤ b.toNat ∧ b.toNat ≤ 0xf4) :
    ∃ lo hi, leadByte b = some (3, lo, hi) ∧
      lo.toNat = (if b.toNat = 0xf0 then 0x90 else 0x80) ∧
      hi.toNat = (if b.toNat = 0xf4 then 0x8f else 0xbf) := by
  have htwo : ¬(0xc2 ≤ b ∧ b ≤ 0xdf) := fun hlow => absurd (h.1.trans hlow.2) (by decide)
  have hthree : ¬(0xe1 ≤ b ∧ b ≤ 0xef) := fun hlow => absurd (h.1.trans hlow.2) (by decide)
  have he0 : b ≠ 0xe0 := by
    rintro rfl
    exact absurd h.1 (by decide)
  have hed : b ≠ 0xed := by
    rintro rfl
    exact absurd h.1 (by decide)
  unfold leadByte
  rw [if_neg htwo, if_neg he0, if_neg hed, if_neg hthree]
  by_cases hf0 : b = 0xf0
  · subst hf0
    exact ⟨_, _, rfl, rfl, rfl⟩
  · have hf0' : b.toNat ≠ 0xf0 := fun hb => hf0 (UInt8.toNat_inj.1 hb)
    rw [if_neg hf0, if_neg hf0']
    by_cases hf4 : b = 0xf4
    · subst hf4
      exact ⟨_, _, rfl, rfl, rfl⟩
    · have hf4' : b.toNat ≠ 0xf4 := fun hb => hf4 (UInt8.toNat_inj.1 hb)
      have hrest : 0xf1 ≤ b ∧ b ≤ 0xf3 :=
        ⟨Nat.lt_of_le_of_ne h.1 hf0'.symm, Nat.le_of_lt_succ (Nat.lt_of_le_of_ne h.2 hf4')⟩
      rw [if_neg hf4', if_pos hrest]
      exact ⟨_, _, rfl, rfl, rfl⟩

/-- A byte after the leading one, with six bits of a number. -/
def trailing (m : ℕ) : UInt8 := UInt8.ofNat (m % 64 + 128)

theorem toNat_trailing (m : ℕ) : (trailing m).toNat = m % 64 + 128 := toNat_ofNat (by omega)

theorem continuation_trailing (n m : ℕ) (bytes : List UInt8) :
    continuation (n + 1) 0x80 0xbf (trailing m :: bytes) =
      trailing m :: continuation n 0x80 0xbf bytes := by
  refine continuation_cons ?_
  rw [toNat_trailing]
  exact ⟨by show 128 ≤ _; omega, by show _ ≤ 191; omega⟩

theorem not_ascii {m : ℕ} (hm : 0x80 ≤ m) (hlt : m < 256) : ¬UInt8.ofNat m < 0x80 := by
  rw [UInt8.lt_iff_toNat_lt, toNat_ofNat hlt]
  exact not_lt.2 hm

theorem lossy_two {n : ℕ} (hlow : 0x80 ≤ n) (hhigh : n < 0x800) (rest : List UInt8) :
    fromUtf8Lossy (UInt8.ofNat (n / 64 % 32 + 192) :: ([trailing n] ++ rest)) =
      Char.ofNat n :: fromUtf8Lossy rest := by
  have hlead : (UInt8.ofNat (n / 64 % 32 + 192)).toNat = n / 64 % 32 + 192 :=
    toNat_ofNat (by omega)
  have hcont : continuation 1 0x80 0xbf ([trailing n] ++ rest) = [trailing n] := by
    rw [List.singleton_append, continuation_trailing, continuation_zero]
  have hcode : (n / 64 % 32 + 192) % 2 ^ (6 - 1) * 64 + (n % 64 + 128) % 64 = n := by omega
  rw [lossy_sequence (not_ascii (by omega) (by omega)) (leadByte_two (by omega)) hcont rfl,
    List.foldl_cons, List.foldl_nil, hlead, toNat_trailing, hcode]

theorem lossy_three {n : ℕ} (hlow : 0x800 ≤ n) (hhigh : n < 0x10000)
    (hscalar : n < 0xd800 ∨ 0xdfff < n) (rest : List UInt8) :
    fromUtf8Lossy (UInt8.ofNat (n / 4096 % 16 + 224) :: ([trailing (n / 64), trailing n] ++ rest)) =
      Char.ofNat n :: fromUtf8Lossy rest := by
  have hlead : (UInt8.ofNat (n / 4096 % 16 + 224)).toNat = n / 4096 % 16 + 224 :=
    toNat_ofNat (by omega)
  obtain ⟨lo, hi, hbyte, hlo, hhi⟩ := leadByte_three (b := UInt8.ofNat (n / 4096 % 16 + 224))
    (by omega)
  have hfirst : lo.toNat ≤ (trailing (n / 64)).toNat ∧ (trailing (n / 64)).toNat ≤ hi.toNat := by
    rw [hlo, hhi, hlead, toNat_trailing]
    constructor <;> split_ifs <;> omega
  have hcont : continuation 2 lo hi ([trailing (n / 64), trailing n] ++ rest) =
      [trailing (n / 64), trailing n] := by
    rw [List.cons_append, List.singleton_append, continuation_cons hfirst, continuation_trailing,
      continuation_zero]
  have hcode : ((n / 4096 % 16 + 224) % 2 ^ (6 - 2) * 64 + (n / 64 % 64 + 128) % 64) * 64 +
      (n % 64 + 128) % 64 = n := by omega
  rw [lossy_sequence (not_ascii (by omega) (by omega)) hbyte hcont rfl, List.foldl_cons,
    List.foldl_cons, List.foldl_nil, hlead, toNat_trailing, toNat_trailing, hcode]

theorem lossy_four {n : ℕ} (hlow : 0x10000 ≤ n) (hhigh : n < 0x110000) (rest : List UInt8) :
    fromUtf8Lossy (UInt8.ofNat (n / 262144 % 8 + 240) ::
      ([trailing (n / 4096), trailing (n / 64), trailing n] ++ rest)) =
      Char.ofNat n :: fromUtf8Lossy rest := by
  have hlead : (UInt8.ofNat (n / 262144 % 8 + 240)).toNat = n / 262144 % 8 + 240 :=
    toNat_ofNat (by omega)
  obtain ⟨lo, hi, hbyte, hlo, hhi⟩ := leadByte_four (b := UInt8.ofNat (n / 262144 % 8 + 240))
    (by omega)
  have hfirst : lo.toNat ≤ (trailing (n / 4096)).toNat ∧
      (trailing (n / 4096)).toNat ≤ hi.toNat := by
    rw [hlo, hhi, hlead, toNat_trailing]
    constructor <;> split_ifs <;> omega
  have hcont : continuation 3 lo hi ([trailing (n / 4096), trailing (n / 64), trailing n] ++ rest) =
      [trailing (n / 4096), trailing (n / 64), trailing n] := by
    rw [List.cons_append, List.cons_append, List.singleton_append, continuation_cons hfirst,
      continuation_trailing, continuation_trailing, continuation_zero]
  have hcode : (((n / 262144 % 8 + 240) % 2 ^ (6 - 3) * 64 + (n / 4096 % 64 + 128) % 64) * 64 +
      (n / 64 % 64 + 128) % 64) * 64 + (n % 64 + 128) % 64 = n := by omega
  rw [lossy_sequence (not_ascii (by omega) (by omega)) hbyte hcont rfl, List.foldl_cons,
    List.foldl_cons, List.foldl_cons, List.foldl_nil, hlead, toNat_trailing, toNat_trailing,
    toNat_trailing, hcode]

/-- **A character is read back** from its bytes. -/
theorem lossy_utf8EncodeChar (c : Char) (rest : List UInt8) :
    fromUtf8Lossy (String.utf8EncodeChar c ++ rest) = c :: fromUtf8Lossy rest := by
  have hvalid : c.val.toNat < 0xd800 ∨ (0xdfff < c.val.toNat ∧ c.val.toNat < 0x110000) := c.valid
  have hback : Char.ofNat c.val.toNat = c := Char.ofNat_toNat c
  unfold String.utf8EncodeChar
  dsimp only
  split_ifs with hone htwo hthree
  · rw [List.cons_append, List.nil_append, fromUtf8Lossy, if_pos, toNat_ofNat (by omega), hback]
    rw [UInt8.lt_iff_toNat_lt, toNat_ofNat (by omega)]
    exact Nat.lt_succ_of_le hone
  · exact (lossy_two (not_le.1 hone) (by omega) rest).trans (congrArg (· :: _) hback)
  · exact (lossy_three (not_le.1 htwo) (by omega) (by omega) rest).trans (congrArg (· :: _) hback)
  · exact (lossy_four (not_le.1 hthree) (by omega) rest).trans (congrArg (· :: _) hback)

theorem lossy_append (cs : List Char) (bytes : List UInt8) :
    fromUtf8Lossy (encode cs ++ bytes) = cs ++ fromUtf8Lossy bytes := by
  induction cs with
  | nil => rfl
  | cons c cs ih => rw [encode_cons, List.append_assoc, lossy_utf8EncodeChar, ih, List.cons_append]

theorem lossy_encode (cs : List Char) : fromUtf8Lossy (encode cs) = cs := by
  have happend := lossy_append cs []
  rwa [List.append_nil, fromUtf8Lossy, List.append_nil] at happend

/-! ## Triplets -/

/-- A character, or the byte of a triplet. -/
inductive Item
  | char (c : Char)
  | byte (b : UInt8)

def Item.bytes : Item → List UInt8
  | char c => String.utf8EncodeChar c
  | byte b => [b]

/-- The items of a text. -/
def items : List Char → List Item
  | '%' :: h :: l :: cs =>
    match hexDigit h, hexDigit l with
    | some hi, some lo => .byte (hi * 16 + lo).toUInt8 :: items cs
    | _, _ => .char '%' :: items (h :: l :: cs)
  | c :: cs => .char c :: items cs
  | [] => []

/-- Whether a text has a triplet: a percent sign and two hex digits. -/
def hasTriplet : List Char → Bool
  | '%' :: h :: l :: cs => ((hexDigit h).isSome && (hexDigit l).isSome) || hasTriplet (h :: l :: cs)
  | _ :: cs => hasTriplet cs
  | [] => false

theorem lt_of_hexDigit {c : Char} (h : (hexDigit c).isSome = true) : c.toNat < 0x80 := by
  have hle : ∀ d : Char, c ≤ d → c.toNat ≤ d.toNat := fun d hd => hd
  unfold hexDigit at h
  split_ifs at h with hdigit hlower hupper
  · exact (hle _ hdigit.2).trans_lt (by decide)
  · exact (hle _ hlower.2).trans_lt (by decide)
  · exact (hle _ hupper.2).trans_lt (by decide)
  · cases h

theorem toNat_byteChar (b : UInt8) : (Char.ofNat b.toNat).toNat = b.toNat := by
  have hvalid : b.toNat.isValidChar := .inl (b.toNat_lt.trans (by decide))
  rw [Char.ofNat, dif_pos hvalid]
  rfl

/-- A byte that is a hex digit starts the bytes of the character. -/
theorem exists_of_hexByte {cs : List Char} {b : UInt8} {bytes : List UInt8}
    (hcs : encode cs = b :: bytes) (hb : (hexDigit (Char.ofNat b.toNat)).isSome = true) :
    ∃ cs', cs = Char.ofNat b.toNat :: cs' ∧ encode cs' = bytes := by
  cases cs with
  | nil => cases hcs
  | cons c cs =>
    rw [encode_cons] at hcs
    rcases utf8EncodeChar_cases c with ⟨hlow, hone⟩ | ⟨-, hall⟩
    · rw [hone, List.singleton_append, List.cons.injEq] at hcs
      obtain ⟨rfl, rfl⟩ := hcs
      rw [toNat_ofNat (by omega), Char.ofNat_toNat]
      exact ⟨cs, rfl, rfl⟩
    · exfalso
      have hmem : b ∈ String.utf8EncodeChar c := by
        have hne : String.utf8EncodeChar c ≠ [] := fun hnil => by
          have hlen := String.length_utf8EncodeChar c
          rw [hnil] at hlen
          exact absurd hlen.symm c.utf8Size_pos.ne'
        obtain ⟨b', bytes', hb'⟩ := List.exists_cons_of_ne_nil hne
        rw [hb', List.cons_append, List.cons.injEq] at hcs
        rw [hb', hcs.1]
        exact List.mem_cons_self
      have hlow := lt_of_hexDigit hb
      rw [toNat_byteChar] at hlow
      exact absurd (hall b hmem) (Nat.not_le.2 hlow)

theorem percentBytes_of_ne {b : UInt8} (h : b ≠ 0x25) (bytes : List UInt8) :
    percentBytes (b :: bytes) = b :: percentBytes bytes := by
  rw [percentBytes]
  rintro h l rest rfl
  exact absurd rfl h

theorem percentBytes_char {c : Char} (h : c ≠ '%') (bytes : List UInt8) :
    percentBytes (String.utf8EncodeChar c ++ bytes) =
      String.utf8EncodeChar c ++ percentBytes bytes := by
  have hbytes : ∀ b ∈ String.utf8EncodeChar c, b ≠ 0x25 := by
    rintro b hb rfl
    exact h (Char.toNat_inj.1 ((mem_utf8EncodeChar_iff (by decide)).1 hb))
  generalize String.utf8EncodeChar c = cbytes at hbytes
  induction cbytes with
  | nil => rfl
  | cons b cbytes ih =>
    rw [List.cons_append, percentBytes_of_ne (hbytes b List.mem_cons_self),
      ih fun b' hb' => hbytes b' (List.mem_cons_of_mem _ hb')]
    rfl

/-- A percent sign that starts no triplet stays. -/
theorem percentBytes_percent {cs : List Char}
    (h : ∀ h l cs', cs = h :: l :: cs' → ¬((hexDigit h).isSome ∧ (hexDigit l).isSome)) :
    percentBytes (0x25 :: encode cs) = 0x25 :: percentBytes (encode cs) := by
  match hbytes : encode cs with
  | [] => rfl
  | [b] => rfl
  | hb :: lb :: bytes =>
    rw [percentBytes]
    split
    · next hi lo hhi hlo =>
      have hisSome : (hexDigit (Char.ofNat hb.toNat)).isSome = true := Option.isSome_of_eq_some hhi
      have hloSome : (hexDigit (Char.ofNat lb.toNat)).isSome = true := Option.isSome_of_eq_some hlo
      obtain ⟨cs', rfl, hcs'⟩ := exists_of_hexByte hbytes hisSome
      obtain ⟨cs'', rfl, -⟩ := exists_of_hexByte hcs' hloSome
      exact absurd ⟨hisSome, hloSome⟩ (h _ _ _ rfl)
    · rfl

/-- A triplet is decoded. -/
theorem percentBytes_triplet {h l : Char} {hi lo : ℕ} (hh : hexDigit h = some hi)
    (hl : hexDigit l = some lo) (cs : List Char) :
    percentBytes (0x25 :: encode (h :: l :: cs)) =
      (hi * 16 + lo).toUInt8 :: percentBytes (encode cs) := by
  have hbyte : ∀ {c : Char} {n : ℕ}, hexDigit c = some n →
      String.utf8EncodeChar c = [UInt8.ofNat c.toNat] ∧
        hexDigit (Char.ofNat (UInt8.ofNat c.toNat).toNat) = some n := by
    intro c n hc
    have hlow := lt_of_hexDigit (Option.isSome_of_eq_some hc)
    rw [toNat_ofNat (by omega), Char.ofNat_toNat]
    rcases utf8EncodeChar_cases c with ⟨-, hone⟩ | ⟨hhigh, -⟩
    · exact ⟨hone, hc⟩
    · omega
  rw [encode_cons, encode_cons, (hbyte hh).1, (hbyte hl).1, List.singleton_append,
    List.singleton_append, percentBytes, (hbyte hh).2, (hbyte hl).2]

/-- What is decoded is the items of the text. -/
theorem percentBytes_eq (cs : List Char) :
    percentBytes (encode cs) = (items cs).flatMap Item.bytes := by
  fun_induction items cs with
  | case1 h l cs hi lo hl hh ih =>
    rw [List.flatMap_cons, ← ih]
    exact percentBytes_triplet hh hl cs
  | case2 h l cs hdigits ih =>
    rw [List.flatMap_cons, ← ih]
    refine percentBytes_percent ?_
    rintro h' l' cs' hcs ⟨hh', hl'⟩
    obtain ⟨rfl, rfl, rfl⟩ : h = h' ∧ l = l' ∧ cs = cs' := by simpa using hcs
    obtain ⟨hi, hhi⟩ := Option.isSome_iff_exists.1 hh'
    obtain ⟨lo, hlo⟩ := Option.isSome_iff_exists.1 hl'
    exact hdigits hi lo hhi hlo
  | case3 c cs hpercent ih =>
    rw [List.flatMap_cons, ← ih]
    by_cases hc : c = '%'
    · subst hc
      refine percentBytes_percent ?_
      rintro h l cs' rfl -
      exact hpercent h l cs' rfl rfl
    · rw [encode_cons]
      exact percentBytes_char hc _
  | case4 => rfl

theorem not_both_hex {h l : Char}
    (hdigits : ∀ hi lo, hexDigit h = some hi → hexDigit l = some lo → False) :
    ((hexDigit h).isSome && (hexDigit l).isSome) = false := by
  cases hh : hexDigit h with
  | none => rfl
  | some hi =>
    cases hl : hexDigit l with
    | none => rfl
    | some lo => exact absurd hl fun hl => hdigits hi lo hh hl

theorem hasTriplet_cons {c : Char} {cs : List Char}
    (h : ∀ h l cs', c = '%' → cs = h :: l :: cs' → False) : hasTriplet (c :: cs) = hasTriplet cs := by
  rw [hasTriplet]
  exact h

/-- There are no more items than characters, and fewer with a triplet. -/
theorem length_items (cs : List Char) :
    (items cs).length ≤ cs.length ∧ (hasTriplet cs = true → (items cs).length < cs.length) := by
  fun_induction items cs with
  | case1 h l cs hi lo hl hh ih =>
    have hlen := ih.1
    simp only [List.length_cons]
    omega
  | case2 h l cs hdigits ih =>
    rw [hasTriplet, not_both_hex hdigits, Bool.false_or]
    simp only [List.length_cons] at ih ⊢
    exact ⟨by omega, fun htriplet => by have := ih.2 htriplet; omega⟩
  | case3 c cs hpercent ih =>
    rw [hasTriplet_cons hpercent]
    simp only [List.length_cons]
    exact ⟨by omega, fun htriplet => by have := ih.2 htriplet; omega⟩
  | case4 => exact ⟨le_rfl, fun h => nomatch h⟩

theorem items_of_no_triplet {cs : List Char} (h : hasTriplet cs = false) :
    items cs = cs.map .char := by
  fun_induction items cs with
  | case1 h l cs hi lo hl hh ih =>
    rw [hasTriplet, hh, hl] at h
    cases h
  | case2 h l cs hdigits ih =>
    rw [hasTriplet, not_both_hex hdigits, Bool.false_or] at h
    rw [ih h]
    rfl
  | case3 c cs hpercent ih =>
    rw [hasTriplet_cons hpercent] at h
    rw [ih h]
    rfl
  | case4 => rfl

theorem leadByte_range {b lo hi : UInt8} {n : ℕ} (h : leadByte b = some (n, lo, hi)) :
    0x80 ≤ lo.toNat ∧ hi.toNat ≤ 0xbf := by
  unfold leadByte at h
  split_ifs at h <;> cases h <;> decide

/-- The first byte of a character is no continuation byte. -/
theorem exists_first_byte (c : Char) : ∃ b bytes, String.utf8EncodeChar c = b :: bytes ∧
    (b.toNat < 0x80 ∨ 0xc0 ≤ b.toNat) := by
  unfold String.utf8EncodeChar
  dsimp only
  split_ifs <;> refine ⟨_, _, rfl, ?_⟩ <;> rw [UInt8.toNat_ofNat'] <;> omega

theorem continuation_nil (n : ℕ) (lo hi : UInt8) : continuation n lo hi [] = [] := by
  cases n <;> rfl

theorem continuation_of_out {n : ℕ} {lo hi b : UInt8} {bytes : List UInt8}
    (h : ¬(lo.toNat ≤ b.toNat ∧ b.toNat ≤ hi.toNat)) : continuation n lo hi (b :: bytes) = [] := by
  cases n with
  | zero => rfl
  | succ n => exact if_neg h

/-- Continuation bytes are bytes of triplets. -/
theorem continuation_items (its : List Item) : ∀ {n : ℕ} {lo hi : UInt8}, 0x80 ≤ lo.toNat →
    hi.toNat ≤ 0xbf →
    (its.flatMap Item.bytes).drop (continuation n lo hi (its.flatMap Item.bytes)).length =
      (its.drop (continuation n lo hi (its.flatMap Item.bytes)).length).flatMap Item.bytes := by
  induction its with
  | nil =>
    intro n lo hi _ _
    rw [List.flatMap_nil, continuation_nil]
    rfl
  | cons item its ih =>
    intro n lo hi hlo hhi
    rw [List.flatMap_cons]
    cases item with
    | char c =>
      obtain ⟨b, bytes, hb, hfirst⟩ := exists_first_byte c
      rw [Item.bytes, hb, List.cons_append, continuation_of_out (by omega)]
      rw [List.length_nil, List.drop_zero, List.drop_zero, List.flatMap_cons, Item.bytes, hb]
      rfl
    | byte b =>
      rw [Item.bytes, List.singleton_append]
      by_cases hb : lo.toNat ≤ b.toNat ∧ b.toNat ≤ hi.toNat
      · cases n with
        | zero =>
          rw [continuation_zero]
          rfl
        | succ n =>
          rw [continuation_cons hb, List.length_cons, List.drop_succ_cons, List.drop_succ_cons]
          exact ih (by decide) (by decide)
      · rw [continuation_of_out hb]
        rfl

/-- Every item becomes at most one character. -/
theorem length_lossy_le : ∀ its : List Item,
    (fromUtf8Lossy (its.flatMap Item.bytes)).length ≤ its.length
  | [] => by
    rw [List.flatMap_nil, fromUtf8Lossy]
    exact le_rfl
  | .char c :: its => by
    rw [List.flatMap_cons, Item.bytes, lossy_utf8EncodeChar, List.length_cons, List.length_cons]
    exact Nat.succ_le_succ (length_lossy_le its)
  | .byte b :: its => by
    rw [List.flatMap_cons, Item.bytes, List.singleton_append, fromUtf8Lossy]
    split_ifs with hlow
    · exact Nat.succ_le_succ (length_lossy_le its)
    · split
      · exact Nat.succ_le_succ (length_lossy_le its)
      · next n lo hi hlead =>
        obtain ⟨hlo, hhi⟩ := leadByte_range hlead
        dsimp only
        rw [continuation_items its hlo hhi, List.length_cons, List.length_cons]
        have hrest := length_lossy_le
          (its.drop (continuation n lo hi (its.flatMap Item.bytes)).length)
        rw [List.length_drop] at hrest
        omega
termination_by its => its.length
decreasing_by
  all_goals
    simp only [List.length_cons, List.length_drop]
    omega

theorem lossy_chars (cs : List Char) : fromUtf8Lossy ((cs.map Item.char).flatMap Item.bytes) = cs := by
  rw [List.flatMap_map]
  exact lossy_encode cs

/-! ## Decoding -/

theorem percentDecode_eq (cs : List Char) : percentDecode (String.ofList cs) =
    String.ofList (fromUtf8Lossy ((items cs).flatMap Item.bytes)) := by
  rw [percentDecode, String.toUTF8_eq_toByteArray, toByteArray_ofList, percentBytes_eq]

/-- **A text without a triplet is left alone.** -/
theorem percentDecode_of_no_triplet {cs : List Char} (h : hasTriplet cs = false) :
    percentDecode (String.ofList cs) = String.ofList cs := by
  rw [percentDecode_eq, items_of_no_triplet h, lossy_chars]

/-- **Decoding never lengthens a text**, and it shortens a text with a triplet. -/
theorem length_percentDecode (cs : List Char) :
    (percentDecode (String.ofList cs)).toList.length ≤ cs.length ∧
      (hasTriplet cs = true → (percentDecode (String.ofList cs)).toList.length < cs.length) := by
  rw [percentDecode_eq, String.toList_ofList]
  have hlossy := length_lossy_le (items cs)
  obtain ⟨hle, hlt⟩ := length_items cs
  exact ⟨hlossy.trans hle, fun h => hlossy.trans_lt (hlt h)⟩

end Nexterm.Vt

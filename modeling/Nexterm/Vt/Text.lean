/-
  The text of OSC sequences: sanitizing, paths, numbers and colors (`screen.rs`, `colors.rs`).

  * `sanitizeOscString`: without control characters, cut at a character boundary.
  * `fromUtf8Lossy`, `percentDecode`, `parseOsc7Cwd`: the path of OSC 7.
  * `parseUnsigned`, `parseSigned`, `splitOnce`: the fields of the metadata.
  * `parseColorSpec`, `formatRgbReply`, `builtinPaletteColor`: dynamic colors.
  * `sanitize_le`: a sanitized string is within its cap.
-/
import Nexterm.Vt.Image
import Nexterm.Vt.Performer

namespace Nexterm.Vt

/-! ## Sanitizing -/

/-- Whether a character is dropped: C0 except TAB, LF and CR, DEL, and C1. -/
def isOscControl (c : Char) : Bool :=
  (c.toNat ≤ 0x1f ∧ c ≠ '\t' ∧ c ≠ '\n' ∧ c ≠ '\x0d') ∨ c.toNat = 0x7f ∨
    (0x80 ≤ c.toNat ∧ c.toNat ≤ 0x9f)

/-- The longest prefix of at most `maxLen` bytes. -/
def takeBytes : ℕ → List Char → List Char
  | _, [] => []
  | maxLen, c :: cs => if c.utf8Size ≤ maxLen then c :: takeBytes (maxLen - c.utf8Size) cs else []

/-- Sanitizes a string sourced from an OSC sequence. -/
def sanitizeOscString (s : String) (maxLen : ℕ) : String :=
  let cleaned := String.ofList (s.toList.filter fun c => !isOscControl c)
  if cleaned.utf8ByteSize ≤ maxLen then cleaned else String.ofList (takeBytes maxLen cleaned.toList)

/-- The UTF-8 length of a list of characters. -/
def bytesLen (cs : List Char) : ℕ := (cs.map Char.utf8Size).sum

theorem utf8ByteSize_ofList : ∀ cs : List Char, (String.ofList cs).utf8ByteSize = bytesLen cs
  | [] => rfl
  | c :: cs => by
    have hcons : String.ofList (c :: cs) = String.singleton c ++ String.ofList cs := by
      rw [String.singleton_eq_ofList, ← String.ofList_append]
      rfl
    rw [hcons, String.utf8ByteSize_append, String.utf8ByteSize_singleton, utf8ByteSize_ofList cs]
    rfl

theorem bytesLen_takeBytes : ∀ (maxLen : ℕ) (cs : List Char),
    bytesLen (takeBytes maxLen cs) ≤ maxLen
  | _, [] => Nat.zero_le _
  | maxLen, c :: cs => by
    unfold takeBytes
    split_ifs with hc
    · have hrest := bytesLen_takeBytes (maxLen - c.utf8Size) cs
      show c.utf8Size + bytesLen (takeBytes (maxLen - c.utf8Size) cs) ≤ maxLen
      omega
    · exact Nat.zero_le _

/-- **A sanitized string is within its cap.** -/
theorem sanitize_le (s : String) (maxLen : ℕ) :
    (sanitizeOscString s maxLen).utf8ByteSize ≤ maxLen := by
  unfold sanitizeOscString
  dsimp only
  split_ifs with hlen
  · exact hlen
  · rw [utf8ByteSize_ofList]
    exact bytesLen_takeBytes maxLen _

/-! ## Paths -/

/-- Maximum length (in bytes) of an OSC 7 path. -/
def maxCwdLen : ℕ := 4096

/-- What a leading byte of a UTF-8 sequence asks for: how many bytes, and the range of the first of
    them. -/
def leadByte (b : UInt8) : Option (ℕ × UInt8 × UInt8) :=
  if 0xc2 ≤ b ∧ b ≤ 0xdf then some (1, 0x80, 0xbf)
  else if b = 0xe0 then some (2, 0xa0, 0xbf)
  else if b = 0xed then some (2, 0x80, 0x9f)
  else if 0xe1 ≤ b ∧ b ≤ 0xef then some (2, 0x80, 0xbf)
  else if b = 0xf0 then some (3, 0x90, 0xbf)
  else if 0xf1 ≤ b ∧ b ≤ 0xf3 then some (3, 0x80, 0xbf)
  else if b = 0xf4 then some (3, 0x80, 0x8f)
  else none

/-- The bytes of a sequence after the leading one, at most `n`, as far as they are valid. -/
def continuation : ℕ → UInt8 → UInt8 → List UInt8 → List UInt8
  | n + 1, lo, hi, b :: bytes =>
    if lo ≤ b ∧ b ≤ hi then b :: continuation n 0x80 0xbf bytes else []
  | _, _, _, _ => []

/-- `String::from_utf8_lossy`: every longest invalid piece becomes one U+FFFD. -/
def fromUtf8Lossy : List UInt8 → List Char
  | [] => []
  | b :: bytes =>
    if b < 0x80 then Char.ofNat b.toNat :: fromUtf8Lossy bytes
    else
      match leadByte b with
      | none => '\uFFFD' :: fromUtf8Lossy bytes
      | some (n, lo, hi) =>
        let rest := continuation n lo hi bytes
        let char :=
          if rest.length = n then
            Char.ofNat (rest.foldl (fun code c => code * 64 + c.toNat % 64) (b.toNat % 2 ^ (6 - n)))
          else '\uFFFD'
        char :: fromUtf8Lossy (bytes.drop rest.length)
termination_by bytes => bytes.length
decreasing_by
  · exact Nat.lt_succ_self _
  · exact Nat.lt_succ_self _
  · rw [List.length_drop]
    exact Nat.lt_succ_of_le (Nat.sub_le _ _)

/-- The value of a hex digit. -/
def hexDigit (c : Char) : Option ℕ :=
  if '0' ≤ c ∧ c ≤ '9' then some (c.toNat - '0'.toNat)
  else if 'a' ≤ c ∧ c ≤ 'f' then some (c.toNat - 'a'.toNat + 10)
  else if 'A' ≤ c ∧ c ≤ 'F' then some (c.toNat - 'A'.toNat + 10)
  else none

/-- Decodes `%XX`; a malformed triplet stays as it is. -/
def percentBytes : List UInt8 → List UInt8
  | 0x25 :: h :: l :: bytes =>
    match hexDigit (Char.ofNat h.toNat), hexDigit (Char.ofNat l.toNat) with
    | some hi, some lo => (hi * 16 + lo).toUInt8 :: percentBytes bytes
    | _, _ => 0x25 :: percentBytes (h :: l :: bytes)
  | b :: bytes => b :: percentBytes bytes
  | [] => []

/-- Minimal `%XX` percent-decoder. -/
def percentDecode (input : String) : String :=
  String.ofList (fromUtf8Lossy (percentBytes input.toUTF8.data.toList))

/-- Extracts the path from `file://[host]/percent-encoded-path`; input without the scheme is a path
    already.  (The branch for Windows drive letters is left out.) -/
def parseOsc7Cwd (input : String) : Option String :=
  if input.isEmpty ∨ input.utf8ByteSize > maxCwdLen * 4 then none
  else
    let scheme := "file://".toList
    let path :=
      if scheme.isPrefixOf input.toList then
        match (input.toList.drop scheme.length).dropWhile (· ≠ '/') with
        | [] => none
        | path => some path
      else some input.toList
    path.bind fun path =>
      let cleaned := sanitizeOscString (percentDecode (String.ofList path)) maxCwdLen
      if cleaned.isEmpty then none else some cleaned

/-! ## Fields -/

/-- The value of decimal digits. -/
def digitsValue (ds : List Char) : Option ℕ :=
  if ds = [] ∨ !ds.all Char.isDigit then none
  else some (ds.foldl (fun n c => n * 10 + (c.toNat - '0'.toNat)) 0)

/-- `str::parse` for an unsigned type with the given maximum. -/
def parseUnsigned (maximum : ℕ) (s : String) : Option ℕ :=
  let digits :=
    match s.toList with
    | '+' :: ds => ds
    | ds => ds
  (digitsValue digits).filter (· ≤ maximum)

/-- `str::parse::<u8>`. -/
def parseU8 (s : String) : Option UInt8 := (parseUnsigned 255 s).map Nat.toUInt8

/-- `str::parse::<u16>`. -/
def parseU16 (s : String) : Option UInt16 := (parseUnsigned 65535 s).map Nat.toUInt16

/-- `str::parse::<u32>`. -/
def parseU32 (s : String) : Option UInt32 := (parseUnsigned 4294967295 s).map Nat.toUInt32

/-- `str::parse::<i32>`. -/
def parseI32 (s : String) : Option Int32 :=
  match s.toList with
  | '-' :: ds => ((digitsValue ds).filter (· ≤ 2147483648)).map fun n => Int32.ofInt (-n)
  | _ => (parseUnsigned 2147483647 s).map fun n => Int32.ofInt n

/-- `str::split` at a character. -/
def splitAt (sep : Char) (s : String) : List String := (s.toList.splitOn sep).map String.ofList

/-- `str::split_once`. -/
def splitOnce (sep : Char) (s : String) : Option (String × String) :=
  match s.toList.dropWhile (· ≠ sep) with
  | [] => none
  | _ :: after => some (String.ofList (s.toList.takeWhile (· ≠ sep)), String.ofList after)

/-! ## Colors -/

/-- The value of hex digits. -/
def hexValue (cs : List Char) : Option ℕ := (cs.mapM hexDigit).map (·.foldl (· * 16 + ·) 0)

/-- Parses one `rgb:` channel of 1–4 hex digits and scales it to 8 bits. -/
def parseRgbChannel (s : String) : Option UInt8 :=
  let cs := s.toList
  if cs = [] ∨ cs.length > 4 then none
  else
    (hexValue cs).map fun value =>
      let maximum := 2 ^ (4 * cs.length) - 1
      ((value * 255 + maximum / 2) / maximum).toUInt8

/-- Parses a color: `#RRGGBB`, or `rgb:R/G/B` with 1–4 hex digits per channel. -/
def parseColorSpec (spec : String) : Option Rgb :=
  match (trim spec).toList with
  | ['#', r₁, r₂, g₁, g₂, b₁, b₂] => do
    let r ← hexValue [r₁, r₂]
    let g ← hexValue [g₁, g₂]
    let b ← hexValue [b₁, b₂]
    some (r.toUInt8, g.toUInt8, b.toUInt8)
  | 'r' :: 'g' :: 'b' :: ':' :: body =>
    match splitAt '/' (String.ofList body) with
    | [r, g, b] => do
      let r ← parseRgbChannel r
      let g ← parseRgbChannel g
      let b ← parseRgbChannel b
      some (r, g, b)
    | _ => none
  | _ => none

/-- Two lower-case hex digits. -/
def hexByte (b : UInt8) : String :=
  String.ofList [Nat.digitChar (b.toNat / 16), Nat.digitChar (b.toNat % 16)]

/-- Formats a color as `rgb:rrrr/gggg/bbbb`. -/
def formatRgbReply (c : Rgb) : String :=
  "rgb:" ++ hexByte c.1 ++ hexByte c.1 ++ "/" ++ hexByte c.2.1 ++ hexByte c.2.1 ++ "/" ++
    hexByte c.2.2 ++ hexByte c.2.2

/-- The 16 ANSI colors. -/
def ansi16 : List Rgb :=
  [(0x00, 0x00, 0x00), (0xcd, 0x00, 0x00), (0x00, 0xcd, 0x00), (0xcd, 0xcd, 0x00),
    (0x00, 0x00, 0xee), (0xcd, 0x00, 0xcd), (0x00, 0xcd, 0xcd), (0xe5, 0xe5, 0xe5),
    (0x7f, 0x7f, 0x7f), (0xff, 0x00, 0x00), (0x00, 0xff, 0x00), (0xff, 0xff, 0x00),
    (0x5c, 0x5c, 0xff), (0xff, 0x00, 0xff), (0x00, 0xff, 0xff), (0xff, 0xff, 0xff)]

/-- The levels of the 6×6×6 color cube. -/
def cubeLevels : List UInt8 := [0, 95, 135, 175, 215, 255]

/-- The builtin xterm 256-color palette. -/
def builtinPaletteColor (index : UInt8) : Rgb :=
  let n := index.toNat
  if n ≤ 15 then ansi16.getD n (0, 0, 0)
  else if n ≤ 231 then
    let i := n - 16
    (cubeLevels.getD (i / 36) 0, cubeLevels.getD (i / 6 % 6) 0, cubeLevels.getD (i % 6) 0)
  else
    let v := (8 + 10 * (n - 232)).toUInt8
    (v, v, v)

end Nexterm.Vt

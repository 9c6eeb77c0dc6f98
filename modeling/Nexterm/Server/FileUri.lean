/-
  Paths as `file://` URIs (`path_to_file_uri` in `pane.rs`, `parse_osc7_cwd` in `screen.rs`).

  * `pathToFileUri`: a percent-encoded URI; a backslash becomes a slash.
  * `Piece`: a byte of a path in a URI, as it is or escaped.
  * `parseOsc7Cwd_escaped`: the path is read back from a URI that escapes any of its bytes but the
    leading slash, as long as no percent sign that stays starts a triplet.
  * `pathUri_roundTrip`: so it is from the URI of the server.
-/
import Nexterm.Vt.FreeText
import Nexterm.Vt.Percent

namespace Nexterm.Server

open Vt Utf8

/-! ## The encoder -/

/-- Whether a byte is left alone in a URI. -/
def unreserved (b : UInt8) : Bool :=
  (0x41 ≤ b ∧ b ≤ 0x5a) ∨ (0x61 ≤ b ∧ b ≤ 0x7a) ∨ (0x30 ≤ b ∧ b ≤ 0x39) ∨
    b = 0x2f ∨ b = 0x3a ∨ b = 0x2d ∨ b = 0x5f ∨ b = 0x2e ∨ b = 0x7e

/-- An upper-case hex digit. -/
def upperDigit (n : ℕ) : Char := (Nat.digitChar n).toUpper

/-- The characters of a byte in a URI. -/
def uriByte (b : UInt8) : List Char :=
  if unreserved b then [Char.ofNat b.toNat]
  else ['%', upperDigit (b.toNat / 16), upperDigit (b.toNat % 16)]

/-- Converts an absolute filesystem path into a percent-encoded `file://` URI. -/
def pathToFileUri (path : String) : String :=
  let normalized := path.toList.map fun c => if c = '\\' then '/' else c
  let root := if normalized.head? = some '/' then "" else "/"
  "file://" ++ root ++ String.ofList ((encode normalized).flatMap uriByte)

/-! ## URIs of a path -/

/-- A hex digit of either case. -/
def hexText (upper : Bool) (n : ℕ) : UInt8 :=
  if n < 10 then UInt8.ofNat (0x30 + n)
  else if upper then UInt8.ofNat (0x41 + (n - 10)) else UInt8.ofNat (0x61 + (n - 10))

/-- A byte of a path in a URI. -/
inductive Piece where
  /-- The byte itself -/
  | raw (b : UInt8)
  /-- A triplet, with the case of its two digits -/
  | triplet (b : UInt8) (high low : Bool)

namespace Piece

def byte : Piece → UInt8
  | raw b | triplet b _ _ => b

def text : Piece → List UInt8
  | raw b => [b]
  | triplet b high low => [0x25, hexText high (b.toNat / 16), hexText low (b.toNat % 16)]

end Piece

/-- Whether a text starts with two hex digits. -/
def startsHex : List UInt8 → Bool
  | h :: l :: _ => (hexDigit (Char.ofNat h.toNat)).isSome && (hexDigit (Char.ofNat l.toNat)).isSome
  | _ => false

/-- A URI of a path: `file://`, a host, and the bytes of the path in pieces. -/
structure UriOf (path : String) (host : List Char) (pieces : List Piece) (uri : String) : Prop where
  noSlash : '/' ∉ host
  bytes : pieces.map Piece.byte = encode path.toList
  text : encode uri.toList = encode ("file://".toList ++ host) ++ pieces.flatMap Piece.text

/-- What of a path in pieces can be read back. -/
structure Readable (pieces : List Piece) : Prop where
  /-- The leading slash is not escaped. -/
  root : pieces.head? = some (.raw 0x2f)
  /-- A percent sign that is not escaped starts no triplet. -/
  percent : ∀ before after, pieces = before ++ .raw 0x25 :: after →
    startsHex (after.flatMap Piece.text) = false

/-- An absolute path without control characters, within the cap. -/
structure PlainPath (path : String) : Prop where
  absolute : path.toList.head? = some '/'
  control : ∀ c ∈ path.toList, isControl c = false
  short : path.utf8ByteSize ≤ maxCwdLen

/-! ## Reading the pieces back -/

theorem hexDigit_hexText (upper : Bool) {n : ℕ} (hn : n < 16) :
    hexDigit (Char.ofNat (hexText upper n).toNat) = some n := by
  have hall : ∀ upper : Bool, ∀ n < 16,
      hexDigit (Char.ofNat (hexText upper n).toNat) = some n := by decide
  exact hall upper n hn

theorem percentBytes_text (b : UInt8) (high low : Bool) (rest : List UInt8) :
    percentBytes ((Piece.triplet b high low).text ++ rest) = b :: percentBytes rest := by
  have hb := b.toNat_lt
  have hback : (b.toNat / 16 * 16 + b.toNat % 16).toUInt8 = b := by
    rw [Nat.div_add_mod']
    exact UInt8.ofNat_toNat
  simp only [Piece.text, List.cons_append, List.nil_append, percentBytes,
    hexDigit_hexText high (n := b.toNat / 16) (by omega),
    hexDigit_hexText low (n := b.toNat % 16) (by omega), hback]

/-- A percent sign that starts no triplet stays. -/
theorem percentBytes_sign {rest : List UInt8} (h : startsHex rest = false) :
    percentBytes (0x25 :: rest) = 0x25 :: percentBytes rest := by
  match rest with
  | [] => rfl
  | [b] => rfl
  | hb :: lb :: rest =>
    rw [percentBytes]
    split
    · next hi lo hhi hlo =>
      rw [startsHex, hhi, hlo] at h
      cases h
    · rfl

theorem percentBytes_pieces {pieces : List Piece}
    (h : ∀ before after, pieces = before ++ .raw 0x25 :: after →
      startsHex (after.flatMap Piece.text) = false) :
    percentBytes (pieces.flatMap Piece.text) = pieces.map Piece.byte := by
  induction pieces with
  | nil => rfl
  | cons piece pieces ih =>
    have hrest := ih fun before after hpieces => h (piece :: before) after (by rw [hpieces]; rfl)
    rw [List.flatMap_cons, List.map_cons]
    cases piece with
    | raw b =>
      by_cases hb : b = 0x25
      · subst hb
        exact (percentBytes_sign (h [] pieces rfl)).trans (congrArg _ hrest)
      · exact (percentBytes_of_ne hb _).trans (congrArg _ hrest)
    | triplet b high low => rw [percentBytes_text, hrest, Piece.byte]

/-! ## Reading a URI back -/

/-- Bytes in front of a text are characters in front of it. -/
theorem exists_of_encode_append {cs pre : List Char} {bytes : List UInt8}
    (h : encode cs = encode pre ++ bytes) : ∃ post, cs = pre ++ post ∧ encode post = bytes := by
  have hcs : cs = pre ++ fromUtf8Lossy bytes := by rw [← lossy_encode cs, h, lossy_append]
  refine ⟨fromUtf8Lossy bytes, hcs, ?_⟩
  rw [hcs, encode_append] at h
  exact List.append_cancel_left h

/-- **A path is read back** from a URI that escapes any of its bytes but the leading slash, as long
    as a percent sign that is not escaped starts no triplet. -/
theorem parseOsc7Cwd_escaped {path uri : String} {host : List Char} {pieces : List Piece}
    (hpath : PlainPath path) (huri : UriOf path host pieces uri) (hread : Readable pieces)
    (hlen : uri.utf8ByteSize ≤ maxCwdLen * 4) : parseOsc7Cwd uri = some path := by
  obtain ⟨after, rfl⟩ : ∃ after, pieces = .raw 0x2f :: after := List.head?_eq_some_iff.1 hread.root
  have hbytes : encode uri.toList =
      encode ("file://".toList ++ (host ++ ['/'])) ++ after.flatMap Piece.text := by
    rw [huri.text, List.flatMap_cons, ← List.append_assoc ("file://".toList), encode_append (_ ++ host),
      List.append_assoc]
    rfl
  obtain ⟨cs, huris, hcs⟩ := exists_of_encode_append hbytes
  rw [List.append_assoc, List.append_assoc, List.singleton_append] at huris
  -- the path starts at the slash after the host
  have hskip : (host ++ '/' :: cs).dropWhile (· ≠ '/') = '/' :: cs := by
    have hhost : ∀ c ∈ host, decide (c ≠ '/') = true := fun c hc =>
      decide_eq_true fun hslash : c = '/' => huri.noSlash (hslash ▸ hc)
    rw [List.dropWhile_append_of_pos hhost]
    rfl
  have hdecoded : percentDecode (String.ofList ('/' :: cs)) = path := by
    have hpieces : encode ('/' :: cs) = (Piece.raw 0x2f :: after).flatMap Piece.text := by
      rw [encode_cons, hcs]
      rfl
    rw [percentDecode, String.toUTF8_eq_toByteArray, toByteArray_ofList, hpieces,
      percentBytes_pieces hread.percent, huri.bytes, lossy_encode, String.ofList_toList]
  have hne : path ≠ "" := by
    rintro rfl
    cases hpath.absolute
  have hinput : ¬(uri.isEmpty = true ∨ uri.utf8ByteSize > maxCwdLen * 4) := by
    rw [String.isEmpty_iff, not_or]
    refine ⟨?_, by omega⟩
    rintro rfl
    cases huris
  have hscheme : "file://".toList.isPrefixOf uri.toList = true := by
    rw [huris]
    exact List.isPrefixOf_iff_prefix.2 (List.prefix_append _ _)
  have hdrop : uri.toList.drop "file://".toList.length = host ++ '/' :: cs := by
    rw [huris]
    exact List.drop_left
  unfold parseOsc7Cwd
  rw [if_neg hinput]
  dsimp only
  rw [if_pos hscheme, hdrop, hskip]
  dsimp only
  rw [Option.bind_some, hdecoded, sanitize_of_plain hpath.control hpath.short]
  exact if_neg fun hempty => hne (String.isEmpty_iff.1 hempty)

/-! ## The URI of the server -/

/-- The pieces in which the server writes a path. -/
def pieceOf (b : UInt8) : Piece := if unreserved b then .raw b else .triplet b true true

theorem byte_pieceOf (b : UInt8) : (pieceOf b).byte = b := by
  unfold pieceOf
  split_ifs <;> rfl

theorem lt_of_unreserved {b : UInt8} (h : unreserved b = true) : b.toNat < 0x80 ∧ b ≠ 0x25 := by
  have hrange : ∀ {lo hi : UInt8}, lo ≤ b ∧ b ≤ hi → lo.toNat ≤ b.toNat ∧ b.toNat ≤ hi.toNat :=
    fun hb => hb
  constructor
  · simp only [unreserved, decide_eq_true_eq] at h
    rcases h with h | h | h | rfl | rfl | rfl | rfl | rfl | rfl
    · exact (hrange h).2.trans_lt (by decide)
    · exact (hrange h).2.trans_lt (by decide)
    · exact (hrange h).2.trans_lt (by decide)
    all_goals decide
  · rintro rfl
    exact absurd h (by decide)

theorem encode_upperDigit {n : ℕ} (hn : n < 16) :
    String.utf8EncodeChar (upperDigit n) = [hexText true n] := by
  have hall : ∀ n < 16, String.utf8EncodeChar (upperDigit n) = [hexText true n] := by decide
  exact hall n hn

theorem encode_uriByte (b : UInt8) : encode (uriByte b) = (pieceOf b).text := by
  have hb := b.toNat_lt
  unfold uriByte pieceOf
  split_ifs with hplain
  · obtain ⟨hlow, -⟩ := lt_of_unreserved hplain
    rcases utf8EncodeChar_cases (Char.ofNat b.toNat) with ⟨-, hone⟩ | ⟨hhigh, -⟩
    · rw [toNat_byteChar, UInt8.ofNat_toNat] at hone
      rw [encode_cons, hone]
      rfl
    · rw [toNat_byteChar] at hhigh
      omega
  · rw [encode_cons, encode_cons, encode_cons, encode_upperDigit (by omega),
      encode_upperDigit (by omega)]
    rfl

theorem encode_uriBytes (bytes : List UInt8) :
    encode (bytes.flatMap uriByte) = (bytes.map pieceOf).flatMap Piece.text := by
  induction bytes with
  | nil => rfl
  | cons b bytes ih =>
    rw [List.flatMap_cons, encode_append, encode_uriByte, ih, List.map_cons, List.flatMap_cons]

/-- The URI of an absolute path without a backslash. -/
theorem uriOf_pathToFileUri {path : String} (habsolute : path.toList.head? = some '/')
    (hslash : '\\' ∉ path.toList) :
    UriOf path [] ((encode path.toList).map pieceOf) (pathToFileUri path) where
  noSlash := List.not_mem_nil
  bytes := by
    rw [List.map_map]
    exact (List.map_congr_left fun b _ => byte_pieceOf b).trans (List.map_id _)
  text := by
    have hnormalized : (path.toList.map fun c => if c = '\\' then '/' else c) = path.toList := by
      refine (List.map_congr_left fun c hc => ?_).trans (List.map_id _)
      exact if_neg fun h : c = '\\' => hslash (h ▸ hc)
    unfold pathToFileUri
    have hchars : (String.ofList ((encode path.toList).flatMap uriByte)).toList =
        (encode path.toList).flatMap uriByte := String.toList_ofList
    rw [hnormalized]
    dsimp only
    rw [if_pos habsolute, String.toList_append, String.toList_append, hchars, encode_append,
      encode_uriBytes]
    rfl

/-- Without a percent sign that stays, a path can be read back. -/
theorem readable_of_notMem {pieces : List Piece} (h : .raw 0x25 ∉ pieces) :
    Readable (.raw 0x2f :: pieces) where
  root := rfl
  percent := by
    intro before after hpieces
    have hmem : Piece.raw 0x25 ∈ Piece.raw 0x2f :: pieces := by
      rw [hpieces]
      exact List.mem_append_right _ List.mem_cons_self
    rcases List.mem_cons.1 hmem with hslash | hmem
    · exact absurd (Piece.raw.inj hslash) (by decide)
    · exact absurd hmem h

theorem readable_pieceOf {path : String} (habsolute : path.toList.head? = some '/') :
    Readable ((encode path.toList).map pieceOf) := by
  obtain ⟨cs, hcs⟩ := List.head?_eq_some_iff.1 habsolute
  have hsign : Piece.raw 0x25 ∉ (encode cs).map pieceOf := by
    intro hmem
    obtain ⟨b, -, hb⟩ := List.mem_map.1 hmem
    unfold pieceOf at hb
    split_ifs at hb with hplain
    obtain rfl := Piece.raw.inj hb
    exact absurd rfl (lt_of_unreserved hplain).2
  rw [hcs]
  exact readable_of_notMem hsign

theorem utf8ByteSize_eq (s : String) : s.utf8ByteSize = (encode s.toList).length := by
  rw [← toByteArray_ofList, String.ofList_toList]
  rfl

theorem length_flatMap_text (pieces : List Piece) :
    (pieces.flatMap Piece.text).length ≤ 3 * pieces.length := by
  induction pieces with
  | nil => exact le_rfl
  | cons piece pieces ih =>
    have hpiece : piece.text.length ≤ 3 := by
      cases piece
      · show 1 ≤ 3
        decide
      · exact le_rfl
    rw [List.flatMap_cons, List.length_append, List.length_cons]
    omega

/-- **Paths as URIs.**  A plain path without a backslash is read back from the URI that the server
    writes; and a plain path is read back from every URI, with any host, that escapes any of its
    bytes but the leading slash, as long as a percent sign that is not escaped starts no triplet
    and the URI is within the limit of the parser. -/
theorem pathUri_roundTrip {path : String} (hpath : PlainPath path) :
    ('\\' ∉ path.toList → parseOsc7Cwd (pathToFileUri path) = some path) ∧
      ∀ host pieces uri, UriOf path host pieces uri → Readable pieces →
        uri.utf8ByteSize ≤ maxCwdLen * 4 → parseOsc7Cwd uri = some path := by
  refine ⟨fun hslash => ?_, fun host pieces uri huri hread hlen =>
    parseOsc7Cwd_escaped hpath huri hread hlen⟩
  have huri := uriOf_pathToFileUri hpath.absolute hslash
  refine parseOsc7Cwd_escaped hpath huri (readable_pieceOf hpath.absolute) ?_
  have htext := length_flatMap_text ((encode path.toList).map pieceOf)
  have hscheme : (encode ("file://".toList ++ [])).length = 7 := by decide
  have hshort := hpath.short
  rw [utf8ByteSize_eq] at hshort
  rw [utf8ByteSize_eq, huri.text, List.length_append, hscheme]
  rw [List.length_map] at htext
  unfold maxCwdLen at hshort ⊢
  omega

theorem plainPath_of_all {path : String} (habsolute : path.toList.head? = some '/')
    (hcontrol : (path.toList.all fun c => !isControl c) = true)
    (hshort : path.utf8ByteSize ≤ maxCwdLen) : PlainPath path :=
  ⟨habsolute, fun c hc => by simpa using List.all_eq_true.1 hcontrol c hc, hshort⟩

theorem pathUri_roundTrip_space : parseOsc7Cwd (pathToFileUri "/a b") = some "/a b" ∧
    parseOsc7Cwd "file://host/%61%20b" = some "/a b" := by
  have hplain : PlainPath "/a b" := plainPath_of_all (by decide) (by decide) (by decide)
  have hescaped : UriOf "/a b" "host".toList
      [.raw 0x2f, .triplet 0x61 true true, .triplet 0x20 true true, .raw 0x62]
      "file://host/%61%20b" := ⟨by decide, by decide, by decide⟩
  have hread : Readable [.raw 0x2f, .triplet 0x61 true true, .triplet 0x20 true true, .raw 0x62] :=
    readable_of_notMem (by simp)
  have hround := pathUri_roundTrip hplain
  exact ⟨hround.1 (by decide), hround.2 _ _ _ hescaped hread (by decide)⟩

/-- An escaped leading slash is not found, a percent sign that stays may start a triplet, and a
    backslash does not come back. -/
theorem pathUri_escapes :
    (PlainPath "/a" ∧ UriOf "/a" [] [.triplet 0x2f true true, .raw 0x61] "file://%2Fa" ∧
      parseOsc7Cwd "file://%2Fa" ≠ some "/a") ∧
    (PlainPath "/%41" ∧ UriOf "/%41" [] [.raw 0x2f, .raw 0x25, .raw 0x34, .raw 0x31] "file:///%41" ∧
      parseOsc7Cwd "file:///%41" ≠ some "/%41") ∧
    (PlainPath "/a\\b" ∧ parseOsc7Cwd (pathToFileUri "/a\\b") ≠ some "/a\\b") := by
  refine ⟨⟨plainPath_of_all (by decide) (by decide) (by decide),
      ⟨by decide, by decide, by decide⟩, by decide⟩,
    ⟨plainPath_of_all (by decide) (by decide) (by decide),
      ⟨by decide, by decide, by decide⟩, ?_⟩,
    plainPath_of_all (by decide) (by decide) (by decide), ?_⟩
  · have hletter : UriOf "/A" [] [.raw 0x2f, .triplet 0x41 true true] "file:///%41" :=
      ⟨by decide, by decide, by decide⟩
    have hread : Readable [.raw 0x2f, .triplet 0x41 true true] := readable_of_notMem (by simp)
    have hplain : PlainPath "/A" := plainPath_of_all (by decide) (by decide) (by decide)
    rw [parseOsc7Cwd_escaped hplain hletter hread (by decide)]
    decide
  · have hslash : UriOf "/a/b" [] [.raw 0x2f, .raw 0x61, .raw 0x2f, .raw 0x62] "file:///a/b" :=
      ⟨by decide, by decide, by decide⟩
    have hread : Readable [.raw 0x2f, .raw 0x61, .raw 0x2f, .raw 0x62] :=
      readable_of_notMem (by simp)
    have huri : pathToFileUri "/a\\b" = "file:///a/b" := by decide
    have hplain : PlainPath "/a/b" := plainPath_of_all (by decide) (by decide) (by decide)
    rw [huri, parseOsc7Cwd_escaped hplain hslash hread (by decide)]
    decide

end Nexterm.Server

/-
  Sixel, Kitty and iTerm2 image decoders (`image.rs`).

  * `decodeSixel`: a machine over the bytes, `Sixel.step`, and the image it has painted.
  * `base64Decode`, `decodeKitty`: parameters, then the pixels in Base64.
  * `decodeIterm2`: the decoding of a picture file is a parameter, `ImageCrate`.
  * `decodeSixel_size`, `kittyImage_size`, `decodeIterm2_size`: how large an accepted image is.
-/
import Mathlib.Data.List.Basic
import Mathlib.Tactic

namespace Nexterm.Vt

/-! ## Sizes -/

/-- Maximum bytes per image (256 MiB). -/
def maxImageBytes : ℕ := 256 * 1024 * 1024

/-- Maximum width or height that the Sixel decoder tracks. -/
def maxSixelDimension : ℕ := 4096

/-- `width × height × channels`, unless it is above the maximum. -/
def checkedImageBytes (width height channels : ℕ) : Option ℕ :=
  if width * height * channels > maxImageBytes then none else some (width * height * channels)

/-- Decoded image data (RGBA). -/
structure DecodedImage where
  width : UInt32
  height : UInt32
  rgba : List UInt8
  deriving DecidableEq, Repr

/-- Whether a byte is an ASCII digit. -/
def isAsciiDigit (b : UInt8) : Bool := 0x30 ≤ b ∧ b ≤ 0x39

/-- One more digit of a `u32`, which saturates. -/
def pushDigit (n : ℕ) (b : UInt8) : ℕ := min (min (n * 10) 4294967295 + (b.toNat - 0x30)) 4294967295

/-! ## Sixel -/

/-- A color, red, green, blue. -/
abbrev Rgb := UInt8 × UInt8 × UInt8

/-- A number at the front of the data, and what follows it. -/
def parseDecimal (data : List UInt8) : Option ℕ × List UInt8 :=
  match data.takeWhile isAsciiDigit with
  | [] => (none, data)
  | digits => (some (min (digits.foldl pushDigit 0) 65535), data.dropWhile isAsciiDigit)

/-- At most `n` numbers, a `;` in front of each. -/
def parseFields : ℕ → List UInt8 → List ℕ × List UInt8
  | n + 1, 0x3b :: data =>
    let (value, data) := parseDecimal data
    let (values, data) := parseFields n data
    (value.getD 0 :: values, data)
  | _, data => ([], data)

/-- VT340 default color palette (a subset). -/
def defaultSixelPalette : List (ℕ × Rgb) :=
  [(0, 0, 0, 0), (1, 51, 204, 51), (2, 204, 51, 51), (3, 204, 204, 51), (4, 51, 51, 204),
    (5, 204, 51, 204), (6, 51, 204, 204), (7, 204, 204, 204), (8, 102, 102, 102),
    (9, 102, 255, 102), (10, 255, 102, 102), (11, 255, 255, 102), (12, 102, 102, 255),
    (13, 255, 102, 255), (14, 102, 255, 255), (15, 255, 255, 255)]

/-- A pixel row of the scratch buffer; it ends with the last pixel that was painted. -/
abbrev PixelRow := List (Option Rgb)

/-- The state of the decoder; of two entries of the palette for one index the first counts. -/
structure Sixel where
  palette : List (ℕ × Rgb)
  currentColor : ℕ
  x : ℕ
  band : ℕ
  maxX : ℕ
  maxBand : ℕ
  buf : List PixelRow

/-- Grows the buffer to `(band + 1) * 6` rows. -/
def ensureBands (buf : List PixelRow) (band : ℕ) : List PixelRow :=
  buf ++ List.replicate ((band + 1) * 6 - buf.length) []

/-- Paints one pixel of a row, which grows up to it. -/
def paintPixel (x : ℕ) (color : Rgb) (row : PixelRow) : PixelRow :=
  (row ++ List.replicate (x + 1 - row.length) none).set x (some color)

/-- Writes one Sixel column (6 bits) into the buffer. -/
def paintCol (buf : List PixelRow) (x band : ℕ) (bits : UInt8) (color : Rgb) : List PixelRow :=
  (List.range 6).foldl (fun buf bit =>
    if bits.toNat.testBit bit then buf.modify (band * 6 + bit) (paintPixel x color) else buf) buf

namespace Sixel

/-- The state before the first byte. -/
def start : Sixel := ⟨defaultSixelPalette, 0, 0, 0, 0, 0, [[]]⟩

/-- The color to paint with. -/
def color (s : Sixel) : Rgb := (s.palette.lookup s.currentColor).getD (200, 200, 200)

/-- A percentage of 255. -/
def percent (p : ℕ) : UInt8 := UInt8.ofNat (min (p * 255 / 100) 255)

/-- Color definition: RGB in percent; HLS is taken for a light gray. -/
def define (s : Sixel) (n : ℕ) : List ℕ → Sixel
  | [2, p1, p2, p3] => { s with palette := (n, percent p1, percent p2, percent p3) :: s.palette }
  | [1, _, _, _] => { s with palette := (n, 200, 200, 200) :: s.palette }
  | _ => s

/-- Paints `count` equal columns. -/
def paint (s : Sixel) (ch : UInt8) (count : ℕ) : Sixel :=
  let buf := (List.range count).foldl
    (fun buf i => paintCol buf (s.x + i) s.band (ch - 0x3f) s.color) (ensureBands s.buf s.band)
  { s with buf := buf, x := s.x + count, maxX := max s.maxX (s.x + count) }

/-- Whether a byte stands for a column. -/
def isColumn (ch : UInt8) : Bool := 0x3f ≤ ch ∧ ch ≤ 0x7e

/-- Color selection / color definition, after the `#`. -/
def select (s : Sixel) : Option ℕ × List UInt8 → Sixel × List UInt8
  | (none, data) => (s, data)
  | (some n, data) =>
    let (fields, data) := parseFields 4 data
    ({ s.define n fields with currentColor := n }, data)

/-- Graphics New Line: the next band. -/
def newLine (s : Sixel) : Option Sixel :=
  let band := s.band + 1
  if (band + 1) * 6 > maxSixelDimension then none
  else
    some { s with
      x := 0, band := band, maxBand := max s.maxBand band, buf := ensureBands s.buf band }

/-- Repeats a column, after the `!` and the count. -/
def repeatColumn (s : Sixel) (count : ℕ) : List UInt8 → Option (Sixel × List UInt8)
  | [] => some (s, [])
  | ch :: data =>
    if isColumn ch then
      if s.x + count > maxSixelDimension then none else some (s.paint ch count, data)
    else some (s, data)

/-- One command: its first byte, the data after it.  The image is rejected (`none`) before the
    buffer grows too large. -/
def step (s : Sixel) (b : UInt8) (data : List UInt8) : Option (Sixel × List UInt8) :=
  if b = 0x23 then some (s.select (parseDecimal data))
  else if b = 0x24 then some ({ s with x := 0 }, data)
  else if b = 0x2d then s.newLine.map (·, data)
  else if b = 0x21 then
    s.repeatColumn ((parseDecimal data).1.getD 1) (parseDecimal data).2
  else if isColumn b then
    if s.x ≥ maxSixelDimension then none else some (s.paint b 1, data)
  else some (s, data)

end Sixel

theorem length_parseDecimal (data : List UInt8) : (parseDecimal data).2.length ≤ data.length := by
  unfold parseDecimal
  split
  · exact le_rfl
  · exact (List.dropWhile_sublist _).length_le

theorem length_parseFields (n : ℕ) : ∀ data : List UInt8,
    (parseFields n data).2.length ≤ data.length := by
  induction n with
  | zero =>
    intro data
    simp [parseFields]
  | succ n ih =>
    intro data
    cases data with
    | nil => simp [parseFields]
    | cons b data =>
      by_cases hb : b = 0x3b
      · subst hb
        have hfirst := length_parseDecimal data
        have hrest := ih (parseDecimal data).2
        show (parseFields n (parseDecimal data).2).2.length ≤ data.length + 1
        omega
      · simp [parseFields, hb]

theorem Sixel.length_select (s : Sixel) (out : Option ℕ × List UInt8) :
    (s.select out).2.length ≤ out.2.length := by
  obtain ⟨_ | n, data⟩ := out
  · exact le_rfl
  · exact length_parseFields 4 data

theorem Sixel.length_repeatColumn {s s' : Sixel} {count : ℕ} {data rest : List UInt8}
    (h : s.repeatColumn count data = some (s', rest)) : rest.length ≤ data.length := by
  cases data with
  | nil =>
    cases h
    exact le_rfl
  | cons ch data =>
    rw [repeatColumn] at h
    split_ifs at h
    all_goals
      cases h
      exact Nat.le_succ _

/-- A command takes nothing but bytes from the data. -/
theorem Sixel.length_step {s s' : Sixel} {b : UInt8} {data rest : List UInt8}
    (h : s.step b data = some (s', rest)) : rest.length ≤ data.length := by
  have hdec := length_parseDecimal data
  unfold step at h
  split_ifs at h
  · have hselect := s.length_select (parseDecimal data)
    rw [Option.some.inj h] at hselect
    exact hselect.trans hdec
  · cases h
    exact le_rfl
  · obtain ⟨s'', -, heq⟩ := Option.map_eq_some_iff.1 h
    cases heq
    exact le_rfl
  · exact (length_repeatColumn h).trans hdec
  · cases h
    exact le_rfl
  · cases h
    exact le_rfl

/-- Runs the commands. -/
def sixelLoop (s : Sixel) (data : List UInt8) : Option Sixel :=
  match data with
  | [] => some s
  | b :: data =>
    match _h : s.step b data with
    | none => none
    | some (s, rest) => sixelLoop s rest
termination_by data.length
decreasing_by
  exact Nat.lt_succ_of_le (Sixel.length_step _h)

/-- The four bytes of a pixel. -/
def rgbaPixel : Option Rgb → List UInt8
  | none => [0, 0, 0, 0]
  | some (r, g, b) => [r, g, b, 255]

/-- Decodes DCS Sixel data into an RGBA image. -/
def decodeSixel (data : List UInt8) : Option DecodedImage :=
  (sixelLoop .start data).bind fun s =>
    let height := (s.maxBand + 1) * 6
    let width := s.maxX
    if width = 0 then none
    else
      (checkedImageBytes width height 4).map fun _ =>
        ⟨width.toUInt32, height.toUInt32,
          (List.range height).flatMap fun row => (List.range width).flatMap fun col =>
            rgbaPixel ((s.buf.getD row []).getD col none)⟩

/-! ## Base64 -/

/-- The six bits that a character stands for. -/
def decodeChar (c : UInt8) : Option UInt8 :=
  if 0x41 ≤ c ∧ c ≤ 0x5a then some (c - 0x41)
  else if 0x61 ≤ c ∧ c ≤ 0x7a then some (c - 0x61 + 26)
  else if 0x30 ≤ c ∧ c ≤ 0x39 then some (c - 0x30 + 52)
  else if c = 0x2b then some 62
  else if c = 0x2f then some 63
  else none

/-- Whether a byte is ASCII whitespace. -/
def isAsciiWhitespace (b : UInt8) : Bool :=
  b = 0x20 ∨ b = 0x09 ∨ b = 0x0a ∨ b = 0x0c ∨ b = 0x0d

/-- Decodes groups of four characters, and two or three at the end. -/
def base64Groups : List UInt8 → Option (List UInt8)
  | a :: b :: c :: d :: rest => do
    let a ← decodeChar a
    let b ← decodeChar b
    let c ← decodeChar c
    let d ← decodeChar d
    let out ← base64Groups rest
    some ((a <<< 2 ||| b >>> 4) :: (b <<< 4 ||| c >>> 2) :: (c <<< 6 ||| d) :: out)
  | [a, b, c] => do
    let a ← decodeChar a
    let b ← decodeChar b
    let c ← decodeChar c
    some [a <<< 2 ||| b >>> 4, b <<< 4 ||| c >>> 2]
  | [a, b] => do
    let a ← decodeChar a
    let b ← decodeChar b
    some [a <<< 2 ||| b >>> 4]
  | _ => some []

/-- Base64 decode; padding and whitespace are skipped. -/
def base64Decode (input : List UInt8) : Option (List UInt8) :=
  base64Groups (input.filter fun b => b ≠ 0x3d ∧ !isAsciiWhitespace b)

/-! ## Kitty -/

/-- A `u32` from the digits among the bytes. -/
def parseU32Bytes (data : List UInt8) : UInt32 :=
  ((data.filter isAsciiDigit).foldl pushDigit 0).toUInt32

/-- The parameters that the decoder reads. -/
structure KittyParams where
  format : UInt8 := 32
  width : UInt32 := 0
  height : UInt32 := 0
  action : UInt8 := 0x54

/-- Reads one `key=value` pair; the format is cut to a byte. -/
def KittyParams.read (p : KittyParams) : List UInt8 → KittyParams
  | 0x61 :: 0x3d :: val => { p with action := val.headD 0x54 }
  | 0x66 :: 0x3d :: val => { p with format := (parseU32Bytes val).toUInt8 }
  | 0x73 :: 0x3d :: val => { p with width := parseU32Bytes val }
  | 0x76 :: 0x3d :: val => { p with height := parseU32Bytes val }
  | _ => p

/-- The parameters in front of the payload. -/
def kittyParams (params : List UInt8) : KittyParams := (params.splitOn 0x2c).foldl .read {}

/-- RGB to RGBA, opaque. -/
def rgbToRgba : List UInt8 → List UInt8
  | r :: g :: b :: rest => r :: g :: b :: 255 :: rgbToRgba rest
  | _ => []

/-- The image of the given format that the pixel data starts with. -/
def kittyImage (p : KittyParams) (pixelData : List UInt8) : Option DecodedImage :=
  if p.format = 32 then
    if p.width = 0 ∨ p.height = 0 then none
    else do
      let expected ← checkedImageBytes p.width.toNat p.height.toNat 4
      if pixelData.length < expected then none
      else some ⟨p.width, p.height, pixelData.take expected⟩
  else if p.format = 24 then
    if p.width = 0 ∨ p.height = 0 then none
    else do
      let expected ← checkedImageBytes p.width.toNat p.height.toNat 3
      let _ ← checkedImageBytes p.width.toNat p.height.toNat 4
      if pixelData.length < expected then none
      else some ⟨p.width, p.height, rgbToRgba (pixelData.take expected)⟩
  else none

/-- Decodes Kitty APC data: `G<key>=<val>,...;<base64_payload>`. -/
def decodeKitty (apcData : List UInt8) : Option DecodedImage :=
  match apcData with
  | 0x47 :: data =>
    match data.dropWhile (· ≠ 0x3b) with
    | [] => none
    | _ :: payload =>
      let p := kittyParams (data.takeWhile (· ≠ 0x3b))
      if p.action ≠ 0x54 then none else (base64Decode payload).bind (kittyImage p)
  | _ => none

/-! ## iTerm2 -/

/-- The `image` crate: `load_from_memory` and the RGBA bytes of the picture. -/
structure ImageCrate where
  load : List UInt8 → Option DecodedImage
  length_rgba : ∀ {data : List UInt8} {img : DecodedImage}, load data = some img →
    img.rgba.length = img.width.toNat * img.height.toNat * 4

/-- Decodes an iTerm2 inline image payload into RGBA. -/
def decodeIterm2 (I : ImageCrate) (data : List UInt8) : Option DecodedImage :=
  (I.load data).bind fun img => (checkedImageBytes img.width.toNat img.height.toNat 4).map fun _ => img

/-! ## How large an image is -/

theorem checkedImageBytes_eq {width height channels n : ℕ}
    (h : checkedImageBytes width height channels = some n) :
    n = width * height * channels ∧ n ≤ maxImageBytes := by
  unfold checkedImageBytes at h
  split_ifs at h with hlarge
  obtain rfl := Option.some.inj h
  exact ⟨rfl, not_lt.1 hlarge⟩

/-- What has been painted lies within the maximum. -/
structure Sixel.Small (s : Sixel) : Prop where
  maxX : s.maxX ≤ maxSixelDimension
  maxBand : (s.maxBand + 1) * 6 ≤ maxSixelDimension

theorem Sixel.small_start : start.Small := ⟨Nat.zero_le _, by decide⟩

theorem Sixel.Small.select {s : Sixel} (h : s.Small) (out : Option ℕ × List UInt8) :
    (s.select out).1.Small := by
  obtain ⟨_ | n, data⟩ := out
  · exact h
  · have hdefine : ∀ fields, (s.define n fields).Small := by
      intro fields
      unfold define
      split <;> exact ⟨h.maxX, h.maxBand⟩
    exact ⟨(hdefine _).maxX, (hdefine _).maxBand⟩

theorem Sixel.Small.paint {s : Sixel} (h : s.Small) (ch : UInt8) {count : ℕ}
    (hx : s.x + count ≤ maxSixelDimension) : (s.paint ch count).Small :=
  ⟨max_le h.maxX hx, h.maxBand⟩

theorem Sixel.Small.newLine {s s' : Sixel} (h : s.Small) (hnew : s.newLine = some s') :
    s'.Small := by
  unfold Sixel.newLine at hnew
  dsimp only at hnew
  split_ifs at hnew with hband
  obtain rfl := Option.some.inj hnew
  refine ⟨h.maxX, ?_⟩
  rcases max_choice s.maxBand (s.band + 1) with hmax | hmax
  · rw [hmax]
    exact h.maxBand
  · rw [hmax]
    exact not_lt.1 hband

theorem Sixel.Small.repeatColumn {s s' : Sixel} (h : s.Small) {count : ℕ} {data rest : List UInt8}
    (hrep : s.repeatColumn count data = some (s', rest)) : s'.Small := by
  cases data with
  | nil =>
    cases hrep
    exact h
  | cons ch data =>
    rw [Sixel.repeatColumn] at hrep
    split_ifs at hrep with hcol hx
    · cases hrep
      exact h.paint ch (not_lt.1 hx)
    · cases hrep
      exact h

theorem Sixel.Small.step {s s' : Sixel} (h : s.Small) {b : UInt8} {data rest : List UInt8}
    (hstep : s.step b data = some (s', rest)) : s'.Small := by
  unfold Sixel.step at hstep
  split_ifs at hstep with _ _ _ _ _ hx
  · have hselect := h.select (parseDecimal data)
    rwa [Option.some.inj hstep] at hselect
  · cases hstep
    exact ⟨h.maxX, h.maxBand⟩
  · obtain ⟨s'', hnew, heq⟩ := Option.map_eq_some_iff.1 hstep
    cases heq
    exact h.newLine hnew
  · exact h.repeatColumn hstep
  · cases hstep
    exact h.paint b (not_le.1 hx)
  · cases hstep
    exact h

theorem Sixel.Small.loop {s s' : Sixel} (h : s.Small) {data : List UInt8}
    (hloop : sixelLoop s data = some s') : s'.Small := by
  fun_induction sixelLoop s data with
  | case1 s =>
    cases hloop
    exact h
  | case2 s b data hstep => cases hloop
  | case3 s b data s'' rest hstep ih => exact ih (h.step hstep) hloop

theorem length_rgbaPixel (pixel : Option Rgb) : (rgbaPixel pixel).length = 4 := by
  cases pixel <;> rfl

/-- **A Sixel image** has four bytes per pixel, and its sides are within the maximum. -/
theorem decodeSixel_size {data : List UInt8} {img : DecodedImage}
    (h : decodeSixel data = some img) :
    img.width.toNat ≤ maxSixelDimension ∧ img.height.toNat ≤ 4092 ∧
      img.rgba.length = img.width.toNat * img.height.toNat * 4 := by
  obtain ⟨s, hloop, himg⟩ := Option.bind_eq_some_iff.1 h
  have hsmall := Sixel.small_start.loop hloop
  dsimp only at himg
  split_ifs at himg
  obtain ⟨n, -, rfl⟩ := Option.map_eq_some_iff.1 himg
  have hx := hsmall.maxX
  have hband := hsmall.maxBand
  unfold maxSixelDimension at hx hband ⊢
  have hwidth : s.maxX.toUInt32.toNat = s.maxX := Nat.mod_eq_of_lt (by omega)
  -- the height is a multiple of six
  have hheight : ((s.maxBand + 1) * 6).toUInt32.toNat = (s.maxBand + 1) * 6 :=
    Nat.mod_eq_of_lt (by omega)
  dsimp only
  rw [hwidth, hheight]
  refine ⟨hx, by omega, ?_⟩
  simp only [List.length_flatMap, length_rgbaPixel, List.map_const', List.length_range,
    List.sum_replicate, smul_eq_mul]
  ring

theorem length_base64Groups {input out : List UInt8} (h : base64Groups input = some out) :
    4 * out.length ≤ 3 * input.length := by
  fun_induction base64Groups input generalizing out with
  | case1 a b c d rest ih =>
    simp only [Option.bind_eq_bind, Option.bind_eq_some_iff] at h
    obtain ⟨a', -, b', -, c', -, d', -, out', hout', hout⟩ := h
    have hrest := ih hout'
    obtain rfl := Option.some.inj hout
    simp only [List.length_cons]
    omega
  | case2 a b c =>
    simp only [Option.bind_eq_bind, Option.bind_eq_some_iff] at h
    obtain ⟨a', -, b', -, c', -, hout⟩ := h
    obtain rfl := Option.some.inj hout
    simp
  | case3 a b =>
    simp only [Option.bind_eq_bind, Option.bind_eq_some_iff] at h
    obtain ⟨a', -, b', -, hout⟩ := h
    obtain rfl := Option.some.inj hout
    simp
  | case4 =>
    obtain rfl := Option.some.inj h
    simp

/-- Four characters carry three bytes. -/
theorem length_base64Decode {input out : List UInt8} (h : base64Decode input = some out) :
    4 * out.length ≤ 3 * input.length := by
  have hgroups := length_base64Groups h
  have hclean := List.length_filter_le (fun b => decide (b ≠ 0x3d ∧ !isAsciiWhitespace b)) input
  omega

theorem length_rgbToRgba : ∀ (n : ℕ) {data : List UInt8}, data.length = n * 3 →
    (rgbToRgba data).length = n * 4
  | 0, [], _ => rfl
  | n + 1, r :: g :: b :: rest, h => by
    simp only [List.length_cons] at h
    have hthree : rest.length = n * 3 := by omega
    have hrest := length_rgbToRgba n hthree
    simp only [rgbToRgba, List.length_cons]
    omega
  | n + 1, [], h | n + 1, [_], h | n + 1, [_, _], h => by
    simp only [List.length_cons, List.length_nil] at h
    omega

/-- **A Kitty image** has the declared size and four bytes per pixel; the pixel data has four or
    three, by the format. -/
theorem kittyImage_size {p : KittyParams} {pixelData : List UInt8} {img : DecodedImage}
    (h : kittyImage p pixelData = some img) :
    img.width = p.width ∧ img.height = p.height ∧
      img.rgba.length = p.width.toNat * p.height.toNat * 4 ∧
        (p.format = 32 ∧ p.width.toNat * p.height.toNat * 4 ≤ pixelData.length ∨
          p.format = 24 ∧ p.width.toNat * p.height.toNat * 3 ≤ pixelData.length) := by
  unfold kittyImage at h
  split_ifs at h with hf _ hf'
  · obtain ⟨n, hn, h⟩ := Option.bind_eq_some_iff.1 h
    split_ifs at h with hlen
    obtain rfl := Option.some.inj h
    obtain ⟨rfl, -⟩ := checkedImageBytes_eq hn
    refine ⟨rfl, rfl, ?_, .inl ⟨hf, not_lt.1 hlen⟩⟩
    exact List.length_take_of_le (not_lt.1 hlen)
  · obtain ⟨n, hn, h⟩ := Option.bind_eq_some_iff.1 h
    obtain ⟨m, -, h⟩ := Option.bind_eq_some_iff.1 h
    split_ifs at h with hlen
    obtain rfl := Option.some.inj h
    obtain ⟨rfl, -⟩ := checkedImageBytes_eq hn
    refine ⟨rfl, rfl, ?_, .inr ⟨hf', not_lt.1 hlen⟩⟩
    exact length_rgbToRgba _ (List.length_take_of_le (not_lt.1 hlen))

/-- The payload starts after the first `;`. -/
theorem decodeKitty_eq {params : List UInt8} (hsep : 0x3b ∉ params) (payload : List UInt8) :
    decodeKitty (0x47 :: (params ++ 0x3b :: payload)) =
      if (kittyParams params).action ≠ 0x54 then none
      else (base64Decode payload).bind (kittyImage (kittyParams params)) := by
  have hpass : ∀ b ∈ params, decide (b ≠ 0x3b) = true := by
    intro b hb
    simp only [decide_eq_true_eq]
    rintro rfl
    exact hsep hb
  have hdrop : (params ++ 0x3b :: payload).dropWhile (· ≠ 0x3b) = 0x3b :: payload := by
    rw [List.dropWhile_append_of_pos hpass]
    rfl
  have htake : (params ++ 0x3b :: payload).takeWhile (· ≠ 0x3b) = params := by
    rw [List.takeWhile_append_of_pos hpass]
    exact List.append_nil _
  rw [decodeKitty, hdrop, htake]

/-- **An iTerm2 image** has four bytes per pixel. -/
theorem decodeIterm2_size {I : ImageCrate} {data : List UInt8} {img : DecodedImage}
    (h : decodeIterm2 I data = some img) :
    img.rgba.length = img.width.toNat * img.height.toNat * 4 ∧
      img.width.toNat * img.height.toNat * 4 ≤ maxImageBytes := by
  obtain ⟨img', hload, himg⟩ := Option.bind_eq_some_iff.1 h
  obtain ⟨n, hn, rfl⟩ := Option.map_eq_some_iff.1 himg
  obtain ⟨rfl, hle⟩ := checkedImageBytes_eq hn
  exact ⟨I.length_rgba hload, hle⟩

end Nexterm.Vt

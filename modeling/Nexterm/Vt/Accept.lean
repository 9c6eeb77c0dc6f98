/-
  Which Kitty images are accepted (`decode_kitty` in `image.rs`).

  * `given`, `decimal`: the parameters as they are written; `kittyParams_given`: what the decoder
    makes of them.
  * `Acceptable`: what an image needs besides its format; `Rendered`: its pixels are the data, in
    order.
  * `AcceptsGiven`: an image is accepted only if the format that is given is one of the two.
  * `acceptsGiven_iff`: it is so unless another format is narrowed to one of them.
-/
import Nexterm.Vt.Chunks

namespace Nexterm.Vt

/-! ## Parameters as they are written -/

/-- The value of a field `key=value`. -/
def valueOf (key : UInt8) : List UInt8 → Option (List UInt8)
  | k :: 0x3d :: val => if k = key then some val else none
  | _ => none

/-- The value that some fields give to a key: the last one. -/
def lastValue (key : UInt8) (fields : List (List UInt8)) : Option (List UInt8) :=
  (fields.filterMap (valueOf key)).getLast?

/-- The value that is given to a key. -/
def given (key : UInt8) (params : List UInt8) : Option (List UInt8) :=
  lastValue key (params.splitOn 0x2c)

/-- The number that the digits of a value are. -/
def decimal (val : List UInt8) : ℕ :=
  (val.filter isAsciiDigit).foldl (fun n b => n * 10 + (b.toNat - 0x30)) 0

/-- `f`. -/
def givenFormat (params : List UInt8) : ℕ := (given 0x66 params).elim 32 decimal

/-- `s`. -/
def givenWidth (params : List UInt8) : ℕ := (given 0x73 params).elim 0 decimal

/-- `v`. -/
def givenHeight (params : List UInt8) : ℕ := (given 0x76 params).elim 0 decimal

/-- `a`. -/
def givenAction (params : List UInt8) : UInt8 := (given 0x61 params).elim 0x54 (·.headD 0x54)

/-- The bytes of a pixel in a format. -/
def channelsOf (format : ℕ) : Option ℕ :=
  if format = 32 then some 4 else if format = 24 then some 3 else none

/-! ## Images -/

/-- What an image needs besides its format. -/
structure Acceptable (params pixelData : List UInt8) (channels : ℕ) : Prop where
  action : givenAction params = 0x54
  width : givenWidth params ≠ 0
  height : givenHeight params ≠ 0
  within : givenWidth params * givenHeight params * 4 ≤ maxImageBytes
  enough : givenWidth params * givenHeight params * channels ≤ pixelData.length

/-- The image has the size that is given, and its pixels are those of the data, in order; without a
    fourth channel they are opaque. -/
structure Rendered (params pixelData : List UInt8) (channels : ℕ) (img : DecodedImage) : Prop where
  width : img.width.toNat = givenWidth params
  height : img.height.toNat = givenHeight params
  length : img.rgba.length = givenWidth params * givenHeight params * 4
  pixels : ∀ i < givenWidth params * givenHeight params, ∀ k < 4,
    img.rgba[i * 4 + k]? = if k < channels then pixelData[i * channels + k]? else some 255

/-- **An image is accepted only in a format that is given**, with enough data for it, and then it is
    rendered from that. -/
def AcceptsGiven (apc : List UInt8) : Prop :=
  ∀ img, decodeKitty apc = some img → ∃ pixelData channels,
    base64Decode (body apc.tail) = some pixelData ∧
      channelsOf (givenFormat (header apc.tail)) = some channels ∧
      Acceptable (header apc.tail) pixelData channels ∧
      Rendered (header apc.tail) pixelData channels img

/-- The number is cut to a `u32`, and then to a byte. -/
def narrow (format : ℕ) : ℕ := min format 4294967295 % 256

/-- A command in another format, which is taken for one that is known, and for which there is all
    that an image needs. -/
def Misread (apc : List UInt8) : Prop :=
  apc.head? = some 0x47 ∧ 0x3b ∈ apc.tail ∧ ∃ pixelData channels,
    base64Decode (body apc.tail) = some pixelData ∧
      channelsOf (givenFormat (header apc.tail)) = none ∧
      channelsOf (narrow (givenFormat (header apc.tail))) = some channels ∧
      Acceptable (header apc.tail) pixelData channels

/-! ## Reading the parameters -/

theorem valueOf_eq_some {key : UInt8} {field val : List UInt8} (h : valueOf key field = some val) :
    field = key :: 0x3d :: val := by
  unfold valueOf at h
  split at h
  · split_ifs at h with hkey
    rw [hkey, Option.some.inj h]
  · exact nomatch h

theorem lastValue_concat (key : UInt8) (fields : List (List UInt8)) (field : List UInt8) :
    lastValue key (fields ++ [field]) = (valueOf key field).or (lastValue key fields) := by
  rw [lastValue, List.filterMap_append, List.getLast?_append]
  cases h : valueOf key field with
  | none => rw [List.filterMap_cons_none h]; rfl
  | some val => rw [List.filterMap_cons_some h]; rfl

/-- What one field does. -/
theorem KittyParams.read_eq (p : KittyParams) (field : List UInt8) :
    p.read field =
      { format := (valueOf 0x66 field).elim p.format fun val => (parseU32Bytes val).toUInt8
        width := (valueOf 0x73 field).elim p.width parseU32Bytes
        height := (valueOf 0x76 field).elim p.height parseU32Bytes
        action := (valueOf 0x61 field).elim p.action (·.headD 0x54) } := by
  unfold read
  split
  · rfl
  · rfl
  · rfl
  · rfl
  · next haction hformat hwidth hheight =>
    have hnone : ∀ key, (∀ val, field = key :: 0x3d :: val → False) → valueOf key field = none :=
      fun key hkey => Option.eq_none_iff_forall_ne_some.2 fun val h => hkey val (valueOf_eq_some h)
    rw [hnone _ haction, hnone _ hformat, hnone _ hwidth, hnone _ hheight]
    rfl

/-- What the fields do together. -/
theorem foldl_read (fields : List (List UInt8)) :
    fields.foldl KittyParams.read {} =
      { format := (lastValue 0x66 fields).elim 32 fun val => (parseU32Bytes val).toUInt8
        width := (lastValue 0x73 fields).elim 0 parseU32Bytes
        height := (lastValue 0x76 fields).elim 0 parseU32Bytes
        action := (lastValue 0x61 fields).elim 0x54 (·.headD 0x54) } := by
  have helim : ∀ {α β : Type} (a b : Option α) (d : β) (f : α → β),
      (a.or b).elim d f = a.elim (b.elim d f) f := fun a _ _ _ => by cases a <;> rfl
  induction fields using List.reverseRecOn with
  | nil => rfl
  | append_singleton fields field ih =>
    rw [List.foldl_append, ih]
    show KittyParams.read _ field = _
    rw [KittyParams.read_eq]
    simp only [lastValue_concat, helim]

theorem toNat_parseU32Bytes (val : List UInt8) :
    (parseU32Bytes val).toNat = min (decimal val) 4294967295 := by
  have hfold : ∀ (ds : List UInt8) (n : ℕ), ds.foldl pushDigit (min n 4294967295) =
      min (ds.foldl (fun n b => n * 10 + (b.toNat - 0x30)) n) 4294967295 := by
    intro ds
    induction ds with
    | nil => exact fun _ => rfl
    | cons b ds ih =>
      intro n
      rw [List.foldl_cons, List.foldl_cons, ← ih]
      congr 1
      rw [pushDigit]
      omega
  have hzero := hfold (val.filter isAsciiDigit) 0
  rw [parseU32Bytes, decimal, ← hzero]
  refine UInt32.toNat_ofNat_of_lt' ?_
  rw [← Nat.min_zero 4294967295, Nat.min_comm, hzero]
  exact Nat.lt_succ_of_le (Nat.min_le_right _ _)

/-- **What the decoder makes of the parameters**: numbers saturate, and the format is narrowed. -/
theorem kittyParams_given (params : List UInt8) :
    (kittyParams params).format.toNat = narrow (givenFormat params) ∧
      (kittyParams params).width.toNat = min (givenWidth params) 4294967295 ∧
      (kittyParams params).height.toNat = min (givenHeight params) 4294967295 ∧
      (kittyParams params).action = givenAction params := by
  rw [kittyParams, foldl_read]
  unfold givenFormat givenWidth givenHeight givenAction given
  refine ⟨?_, ?_, ?_, rfl⟩
  · cases lastValue 0x66 (params.splitOn 0x2c) with
    | none => rfl
    | some val =>
      show (parseU32Bytes val).toUInt8.toNat = narrow (decimal val)
      rw [UInt32.toNat_toUInt8, toNat_parseU32Bytes]
      rfl
  · cases lastValue 0x73 (params.splitOn 0x2c) with
    | none => rfl
    | some val => exact toNat_parseU32Bytes val
  · cases lastValue 0x76 (params.splitOn 0x2c) with
    | none => rfl
    | some val => exact toNat_parseU32Bytes val

/-! ## Pixels -/

/-- The RGBA bytes of some pixels. -/
def expand (channels : ℕ) (data : List UInt8) : List UInt8 :=
  if channels = 4 then data else rgbToRgba data

/-- Both formats at once. -/
theorem kittyImage_eq (p : KittyParams) (pixelData : List UInt8) :
    kittyImage p pixelData = (channelsOf p.format.toNat).bind fun channels =>
      if p.width = 0 ∨ p.height = 0 ∨ maxImageBytes < p.width.toNat * p.height.toNat * 4 ∨
          pixelData.length < p.width.toNat * p.height.toNat * channels then none
      else some ⟨p.width, p.height,
        expand channels (pixelData.take (p.width.toNat * p.height.toNat * channels))⟩ := by
  have hbytes : ∀ (f : ℕ → Option DecodedImage) (channels : ℕ),
      (checkedImageBytes p.width.toNat p.height.toNat channels).bind f =
        if maxImageBytes < p.width.toNat * p.height.toNat * channels then none
        else f (p.width.toNat * p.height.toNat * channels) := by
    intro f channels
    unfold checkedImageBytes
    split_ifs <;> rfl
  by_cases h32 : p.format = 32
  · have hchannels : channelsOf p.format.toNat = some 4 := by rw [h32]; rfl
    rw [kittyImage, if_pos h32, hchannels, Option.bind_some]
    simp only [Option.bind_eq_bind, hbytes, ite_or, expand, if_true]
  by_cases h24 : p.format = 24
  · have hchannels : channelsOf p.format.toNat = some 3 := by rw [h24]; rfl
    rw [kittyImage, if_neg h32, if_pos h24, hchannels, Option.bind_some]
    have hless : p.width.toNat * p.height.toNat * 3 ≤ p.width.toNat * p.height.toNat * 4 :=
      Nat.mul_le_mul_left _ (by decide)
    simp only [Option.bind_eq_bind, hbytes, ite_or, expand]
    split_ifs <;> first | rfl | omega
  · have hchannels : channelsOf p.format.toNat = none := by
      have hne32 : p.format.toNat ≠ 32 := fun h => h32 (UInt8.toNat_inj.1 h)
      have hne24 : p.format.toNat ≠ 24 := fun h => h24 (UInt8.toNat_inj.1 h)
      rw [channelsOf, if_neg hne32, if_neg hne24]
    rw [kittyImage, if_neg h32, if_neg h24, hchannels]
    rfl

theorem getElem?_rgbToRgba : ∀ (n : ℕ) {data : List UInt8}, data.length = n * 3 →
    ∀ i < n, ∀ k < 4, (rgbToRgba data)[i * 4 + k]? = if k < 3 then data[i * 3 + k]? else some 255
  | n + 1, r :: g :: b :: rest, h, 0, _, k, hk => by
    match k with
    | 0 | 1 | 2 | 3 => rfl
  | n + 1, r :: g :: b :: rest, h, i + 1, hi, k, hk => by
    simp only [List.length_cons] at h
    have hlen : rest.length = n * 3 := by omega
    have hrest := getElem?_rgbToRgba n hlen i (Nat.lt_of_succ_lt_succ hi) k hk
    have hfour : (i + 1) * 4 + k = i * 4 + k + 4 := by omega
    have hthree : (i + 1) * 3 + k = i * 3 + k + 3 := by omega
    rw [hfour, hthree]
    exact hrest
  | n + 1, [], h, _, _, _, _ | n + 1, [_], h, _, _, _, _ | n + 1, [_, _], h, _, _, _, _ => by
    simp only [List.length_cons, List.length_nil] at h
    omega

/-- **The pixels in order.** -/
theorem getElem?_expand {format channels n : ℕ} (hchannels : channelsOf format = some channels)
    {pixelData : List UInt8} (henough : n * channels ≤ pixelData.length) :
    (expand channels (pixelData.take (n * channels))).length = n * 4 ∧
      ∀ i < n, ∀ k < 4, (expand channels (pixelData.take (n * channels)))[i * 4 + k]? =
        if k < channels then pixelData[i * channels + k]? else some 255 := by
  have htaken := List.length_take_of_le henough
  have hget : ∀ i < n, ∀ k < channels,
      (pixelData.take (n * channels))[i * channels + k]? = pixelData[i * channels + k]? := by
    intro i hi k hk
    have hnext : (i + 1) * channels ≤ n * channels := Nat.mul_le_mul_right _ hi
    rw [Nat.succ_mul] at hnext
    exact List.getElem?_take_of_lt (by omega)
  unfold channelsOf at hchannels
  split_ifs at hchannels
  · obtain rfl := Option.some.inj hchannels
    refine ⟨htaken, fun i hi k hk => ?_⟩
    rw [if_pos hk]
    exact hget i hi k hk
  · obtain rfl := Option.some.inj hchannels
    refine ⟨length_rgbToRgba n htaken, fun i hi k hk => ?_⟩
    refine (getElem?_rgbToRgba n htaken i hi k hk).trans ?_
    split_ifs with hthree
    · exact hget i hi k hthree
    · rfl

/-! ## Decoding -/

theorem decodeKitty_cons {inner : List UInt8} (hsep : 0x3b ∈ inner) :
    decodeKitty (0x47 :: inner) =
      if (kittyParams (header inner)).action ≠ 0x54 then none
      else (base64Decode (body inner)).bind (kittyImage (kittyParams (header inner))) := by
  rw [decodeKitty, body]
  cases hdrop : inner.dropWhile (· ≠ 0x3b) with
  | nil =>
    have hall := List.dropWhile_eq_nil_iff.1 hdrop 0x3b hsep
    exact absurd hall (by decide)
  | cons _ _ => rfl

theorem shape_of_decodeKitty {apc : List UInt8} {img : DecodedImage}
    (h : decodeKitty apc = some img) : ∃ inner, apc = 0x47 :: inner ∧ 0x3b ∈ inner := by
  unfold decodeKitty at h
  split at h
  · next inner =>
    refine ⟨inner, rfl, by_contra fun hsep => ?_⟩
    have hdrop : inner.dropWhile (· ≠ 0x3b) = [] :=
      List.dropWhile_eq_nil_iff.2 fun b hb => decide_eq_true fun hb' => hsep (hb' ▸ hb)
    rw [hdrop] at h
    exact nomatch h
  · exact nomatch h

/-- A size that has saturated is too large. -/
theorem min_of_small {w h : ℕ} (hw : min w 4294967295 ≠ 0) (hh : min h 4294967295 ≠ 0)
    (hsize : min w 4294967295 * min h 4294967295 * 4 ≤ maxImageBytes) :
    min w 4294967295 = w ∧ min h 4294967295 = h := by
  have hmax : maxImageBytes < 4294967295 := by decide
  have hleft : min w 4294967295 ≤ min w 4294967295 * min h 4294967295 :=
    Nat.le_mul_of_pos_right _ (Nat.pos_of_ne_zero hh)
  have hright : min h 4294967295 ≤ min w 4294967295 * min h 4294967295 :=
    Nat.le_mul_of_pos_left _ (Nat.pos_of_ne_zero hw)
  omega

variable {inner : List UInt8}

/-- **An accepted image** is rendered from the data, in the narrowed format. -/
theorem of_decodeKitty (hsep : 0x3b ∈ inner) {img : DecodedImage}
    (h : decodeKitty (0x47 :: inner) = some img) : ∃ pixelData channels,
      base64Decode (body inner) = some pixelData ∧
        channelsOf (narrow (givenFormat (header inner))) = some channels ∧
        Acceptable (header inner) pixelData channels ∧
        Rendered (header inner) pixelData channels img := by
  obtain ⟨hformat, hwidth, hheight, haction⟩ := kittyParams_given (header inner)
  rw [decodeKitty_cons hsep] at h
  split_ifs at h with hT
  obtain ⟨pixelData, hdata, himg⟩ := Option.bind_eq_some_iff.1 h
  rw [kittyImage_eq, hformat] at himg
  obtain ⟨channels, hchannels, himg⟩ := Option.bind_eq_some_iff.1 himg
  split_ifs at himg with hrefused
  simp only [not_or, not_lt, ← UInt32.toNat_inj, UInt32.toNat_zero, hwidth, hheight] at hrefused
  obtain ⟨hw, hh, hwithin, henough⟩ := hrefused
  obtain ⟨hw', hh'⟩ := min_of_small hw hh hwithin
  rw [hwidth, hheight, hw', hh'] at himg
  rw [hw'] at hw hwithin henough
  rw [hh'] at hh hwithin henough
  obtain ⟨hlen, hpixels⟩ := getElem?_expand hchannels henough
  rw [← Option.some.inj himg]
  exact ⟨pixelData, channels, hdata, hchannels,
    ⟨haction ▸ not_not.1 hT, hw, hh, hwithin, henough⟩,
    ⟨hwidth.trans hw', hheight.trans hh', hlen, hpixels⟩⟩

/-- What is acceptable in the narrowed format is accepted. -/
theorem exists_decodeKitty (hsep : 0x3b ∈ inner) {pixelData : List UInt8} {channels : ℕ}
    (hdata : base64Decode (body inner) = some pixelData)
    (hchannels : channelsOf (narrow (givenFormat (header inner))) = some channels)
    (h : Acceptable (header inner) pixelData channels) :
    ∃ img, decodeKitty (0x47 :: inner) = some img := by
  obtain ⟨hformat, hwidth, hheight, haction⟩ := kittyParams_given (header inner)
  have hmax : maxImageBytes < 4294967295 := by decide
  have hw := Nat.le_mul_of_pos_right (givenWidth (header inner)) (Nat.pos_of_ne_zero h.height)
  have hh := Nat.le_mul_of_pos_left (givenHeight (header inner)) (Nat.pos_of_ne_zero h.width)
  have hwithin := h.within
  rw [min_eq_left (by omega)] at hwidth hheight
  have hkept : ¬((kittyParams (header inner)).width = 0 ∨ (kittyParams (header inner)).height = 0 ∨
      maxImageBytes < (kittyParams (header inner)).width.toNat *
        (kittyParams (header inner)).height.toNat * 4 ∨
      pixelData.length < (kittyParams (header inner)).width.toNat *
        (kittyParams (header inner)).height.toNat * channels) := by
    simp only [not_or, not_lt, ← UInt32.toNat_inj, UInt32.toNat_zero, hwidth, hheight]
    exact ⟨h.width, h.height, h.within, h.enough⟩
  rw [decodeKitty_cons hsep, if_neg (not_not.2 (haction.trans h.action)), hdata, Option.bind_some,
    kittyImage_eq, hformat, hchannels, Option.bind_some, if_neg hkept]
  exact ⟨_, rfl⟩

theorem narrow_of_known {format channels : ℕ} (h : channelsOf format = some channels) :
    narrow format = format := by
  unfold channelsOf at h
  split_ifs at h with h32 h24
  · rw [h32]
    rfl
  · rw [h24]
    rfl

/-! ## Exactly when -/

/-- **Only a format that is given is accepted**, unless the narrowing makes it one that is known. -/
theorem acceptsGiven_iff (apc : List UInt8) : AcceptsGiven apc ↔ ¬Misread apc := by
  constructor
  · rintro h ⟨hhead, hsep, pixelData, channels, hdata, hunknown, hchannels, hacceptable⟩
    obtain ⟨inner, rfl⟩ := List.head?_eq_some_iff.1 hhead
    obtain ⟨img, himg⟩ := exists_decodeKitty hsep hdata hchannels hacceptable
    obtain ⟨_, _, -, hknown, -⟩ := h img himg
    exact nomatch hunknown.symm.trans hknown
  · intro h img himg
    obtain ⟨inner, rfl, hsep⟩ := shape_of_decodeKitty himg
    obtain ⟨pixelData, channels, hdata, hchannels, hacceptable, hrendered⟩ :=
      of_decodeKitty hsep himg
    refine ⟨pixelData, channels, hdata, ?_, hacceptable, hrendered⟩
    show channelsOf (givenFormat (header inner)) = some channels
    cases hknown : channelsOf (givenFormat (header inner)) with
    | none => exact absurd ⟨rfl, hsep, pixelData, channels, hdata, hknown, hchannels, hacceptable⟩ h
    | some channels' =>
      rw [narrow_of_known hknown] at hchannels
      exact hknown.symm.trans hchannels

/-- `Gf=280,s=1,v=1;AAAA`: the format 280 is narrowed to 24. -/
theorem format_narrowed :
    let apc : List UInt8 := [0x47, 0x66, 0x3d, 0x32, 0x38, 0x30, 0x2c, 0x73, 0x3d, 0x31, 0x2c, 0x76,
      0x3d, 0x31, 0x3b, 0x41, 0x41, 0x41, 0x41]
    givenFormat (header apc.tail) = 280 ∧ decodeKitty apc = some ⟨1, 1, [0, 0, 0, 255]⟩ ∧
      ¬AcceptsGiven apc := by
  intro apc
  have hformat : givenFormat (header apc.tail) = 280 := by decide
  have hdecode : decodeKitty apc = some ⟨1, 1, [0, 0, 0, 255]⟩ := by decide
  refine ⟨hformat, hdecode, fun h => ?_⟩
  obtain ⟨_, _, -, hknown, -⟩ := h _ hdecode
  rw [hformat] at hknown
  exact nomatch hknown

end Nexterm.Vt

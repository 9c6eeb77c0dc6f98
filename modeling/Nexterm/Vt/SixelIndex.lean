/-
  The Sixel decoder position by position (`image.rs`, `decode_sixel`).

  * `decodeSixelAt`: the decoder position by position, every index of the source looked up; `none`
    stands for the panic of an index that is out of range.
  * `decodeSixelAt_eq`: it never panics, and it is `decodeSixel`.
-/
import Mathlib.Data.List.GetD
import Nexterm.Lib.Positions
import Nexterm.Vt.Image

namespace Nexterm.Vt

/-! ## The decoder, position by position -/

/-- The digits from a position on, and the position after them. -/
def digitsAt (data : List UInt8) (result i : ℕ) : Option (ℕ × ℕ) :=
  if _h : i < data.length then
    data[i]?.bind fun b =>
      if isAsciiDigit b then digitsAt data (pushDigit result b) (i + 1) else some (result, i)
  else some (result, i)
termination_by data.length - i

/-- A number at a position, and the position after it. -/
def parseDecimalAt (data : List UInt8) (i : ℕ) : Option (Option ℕ × ℕ) :=
  if i < data.length then
    data[i]?.bind fun b =>
      if isAsciiDigit b then
        (digitsAt data 0 i).map fun (result, i) => (some (min result 65535), i)
      else some (none, i)
  else some (none, i)

/-- At most `n` numbers at a position, a `;` in front of each. -/
def parseFieldsAt (data : List UInt8) : ℕ → ℕ → Option (List ℕ × ℕ)
  | 0, i => some ([], i)
  | n + 1, i =>
    if i < data.length then
      data[i]?.bind fun b =>
        if b = 0x3b then
          (parseDecimalAt data (i + 1)).bind fun (value, i) =>
            (parseFieldsAt data n i).map fun (values, i) => (value.getD 0 :: values, i)
        else some ([], i)
    else some ([], i)

/-- Paints one pixel of a row: the row is looked up, grown and written. -/
def paintPixelAt (buf : List PixelRow) (x row : ℕ) (color : Rgb) : Option (List PixelRow) :=
  if row < buf.length then
    buf[row]?.bind fun cells =>
      let cells := cells ++ List.replicate (x + 1 - cells.length) none
      if x < cells.length then some (buf.set row (cells.set x (some color))) else none
  else some buf

/-- Writes one Sixel column into the buffer. -/
def paintColAt (buf : List PixelRow) (x band : ℕ) (bits : UInt8) (color : Rgb) :
    Option (List PixelRow) :=
  (List.range 6).foldlM (fun buf bit =>
    if bits.toNat.testBit bit then paintPixelAt buf x (band * 6 + bit) color else some buf) buf

namespace Sixel

/-- Paints `count` equal columns. -/
def paintAt (s : Sixel) (ch : UInt8) (count : ℕ) : Option Sixel :=
  ((List.range count).foldlM
    (fun buf i => paintColAt buf (s.x + i) s.band (ch - 0x3f) s.color)
    (ensureBands s.buf s.band)).map fun buf =>
      { s with buf := buf, x := s.x + count, maxX := max s.maxX (s.x + count) }

/-- Color selection / color definition, after the `#` and its number. -/
def selectAt (s : Sixel) (data : List UInt8) : Option ℕ × ℕ → Option (Sixel × ℕ)
  | (none, i) => some (s, i)
  | (some n, i) =>
    (parseFieldsAt data 4 i).map fun (fields, i) => ({ s.define n fields with currentColor := n }, i)

/-- Repeats a column, after the `!` and the count. -/
def repeatColumnAt (s : Sixel) (data : List UInt8) (count i : ℕ) : Option (Option (Sixel × ℕ)) :=
  if i < data.length then
    data[i]?.bind fun ch =>
      if isColumn ch then
        if s.x + count > maxSixelDimension then some none
        else (s.paintAt ch count).map fun s => some (s, i + 1)
      else some (some (s, i + 1))
  else some (some (s, i))

/-- One command: its first byte, and the position after that byte. -/
def stepAt (s : Sixel) (data : List UInt8) (b : UInt8) (i : ℕ) : Option (Option (Sixel × ℕ)) :=
  if b = 0x23 then (parseDecimalAt data i).bind fun out => (s.selectAt data out).map some
  else if b = 0x24 then some (some ({ s with x := 0 }, i))
  else if b = 0x2d then some (s.newLine.map (·, i))
  else if b = 0x21 then
    (parseDecimalAt data i).bind fun (count, i) => s.repeatColumnAt data (count.getD 1) i
  else if isColumn b then
    if s.x ≥ maxSixelDimension then some none else (s.paintAt b 1).map fun s => some (s, i)
  else some (some (s, i))

end Sixel

/-! ### The positions are those of the data that is left -/

theorem digitsAt_eq {data rest : List UInt8} {i : ℕ} (h : At data i rest) (result : ℕ) :
    ∃ j, digitsAt data result i =
        some ((rest.takeWhile isAsciiDigit).foldl pushDigit result, j) ∧
      At data j (rest.dropWhile isAsciiDigit) := by
  induction rest generalizing i result with
  | nil =>
    rw [digitsAt, dif_neg h.nil]
    exact ⟨i, rfl, h⟩
  | cons b rest ih =>
    rw [digitsAt, dif_pos h.lt, h.get, Option.bind_some]
    by_cases hb : isAsciiDigit b
    · rw [if_pos hb, List.takeWhile_cons_of_pos hb, List.dropWhile_cons_of_pos hb]
      exact ih h.next (pushDigit result b)
    · rw [if_neg hb, List.takeWhile_cons_of_neg hb, List.dropWhile_cons_of_neg hb]
      exact ⟨i, rfl, h⟩

theorem parseDecimalAt_eq {data rest : List UInt8} {i : ℕ} (h : At data i rest) :
    ∃ j, parseDecimalAt data i = some ((parseDecimal rest).1, j) ∧
      At data j (parseDecimal rest).2 := by
  cases rest with
  | nil =>
    rw [parseDecimalAt, if_neg h.nil]
    exact ⟨i, rfl, h⟩
  | cons b rest =>
    rw [parseDecimalAt, if_pos h.lt, h.get, Option.bind_some]
    by_cases hb : isAsciiDigit b
    · obtain ⟨j, hdigits, hj⟩ := digitsAt_eq h 0
      rw [if_pos hb, hdigits]
      rw [parseDecimal, List.takeWhile_cons_of_pos hb]
      rw [List.takeWhile_cons_of_pos hb] at hdigits
      exact ⟨j, rfl, hj⟩
    · rw [if_neg hb, parseDecimal, List.takeWhile_cons_of_neg hb]
      exact ⟨i, rfl, h⟩

theorem parseFieldsAt_eq {data : List UInt8} (n : ℕ) : ∀ {i : ℕ} {rest : List UInt8},
    At data i rest → ∃ j, parseFieldsAt data n i = some ((parseFields n rest).1, j) ∧
      At data j (parseFields n rest).2 := by
  induction n with
  | zero =>
    intro i rest h
    exact ⟨i, by simp [parseFieldsAt, parseFields], by simpa [parseFields] using h⟩
  | succ n ih =>
    intro i rest h
    cases rest with
    | nil =>
      rw [parseFieldsAt, if_neg h.nil]
      exact ⟨i, rfl, h⟩
    | cons b rest =>
      rw [parseFieldsAt, if_pos h.lt, h.get, Option.bind_some]
      by_cases hb : b = 0x3b
      · subst hb
        obtain ⟨j, hvalue, hj⟩ := parseDecimalAt_eq h.next
        obtain ⟨k, hvalues, hk⟩ := ih hj
        rw [if_pos rfl, hvalue, Option.bind_some]
        dsimp only
        rw [hvalues]
        exact ⟨k, rfl, hk⟩
      · have hnone : parseFields (n + 1) (b :: rest) = ([], b :: rest) := by
          simp [parseFields, hb]
        rw [if_neg hb, hnone]
        exact ⟨i, rfl, h⟩

/-! ### No index of the buffer is out of range -/

theorem paintPixelAt_eq (buf : List PixelRow) (x row : ℕ) (color : Rgb) :
    paintPixelAt buf x row color = some (buf.modify row (paintPixel x color)) := by
  unfold paintPixelAt
  by_cases hrow : row < buf.length
  · have hgrown : x < (buf[row] ++ List.replicate (x + 1 - buf[row].length) none).length := by
      simp only [List.length_append, List.length_replicate]
      omega
    rw [if_pos hrow, List.getElem?_eq_getElem hrow, Option.bind_some]
    dsimp only
    rw [if_pos hgrown, List.modify_eq_set_getElem?, List.getElem?_eq_getElem hrow]
    rfl
  · rw [if_neg hrow, List.modify_eq_self (not_lt.1 hrow)]

theorem paintColAt_eq (buf : List PixelRow) (x band : ℕ) (bits : UInt8) (color : Rgb) :
    paintColAt buf x band bits color = some (paintCol buf x band bits color) := by
  have hstep : (fun (buf : List PixelRow) bit =>
      if bits.toNat.testBit bit then paintPixelAt buf x (band * 6 + bit) color else some buf) =
        fun buf bit => pure (if bits.toNat.testBit bit then
          buf.modify (band * 6 + bit) (paintPixel x color) else buf) := by
    funext buf bit
    rw [paintPixelAt_eq]
    split_ifs <;> rfl
  rw [paintColAt, hstep, List.foldlM_pure]
  rfl

theorem Sixel.paintAt_eq (s : Sixel) (ch : UInt8) (count : ℕ) :
    s.paintAt ch count = some (s.paint ch count) := by
  have hstep : (fun buf i => paintColAt buf (s.x + i) s.band (ch - 0x3f) s.color) =
      fun buf i => (pure (paintCol buf (s.x + i) s.band (ch - 0x3f) s.color) : Option _) := by
    funext buf i
    exact paintColAt_eq buf (s.x + i) s.band (ch - 0x3f) s.color
  rw [Sixel.paintAt, hstep, List.foldlM_pure]
  rfl

theorem Sixel.selectAt_eq {data : List UInt8} {j : ℕ} {out : Option ℕ × List UInt8}
    (h : At data j out.2) (s : Sixel) :
    ∃ k, s.selectAt data (out.1, j) = some ((s.select out).1, k) ∧ At data k (s.select out).2 := by
  obtain ⟨_ | n, rest⟩ := out
  · exact ⟨j, rfl, h⟩
  · obtain ⟨k, hfields, hk⟩ := parseFieldsAt_eq 4 h
    dsimp only
    rw [Sixel.selectAt, hfields]
    exact ⟨k, rfl, hk⟩

theorem Sixel.stepAt_eq {data rest : List UInt8} {i : ℕ} (h : At data i rest) (s : Sixel)
    (b : UInt8) :
    (s.step b rest = none ∧ s.stepAt data b i = some none) ∨
      ∃ s' rest' j, s.step b rest = some (s', rest') ∧ s.stepAt data b i = some (some (s', j)) ∧
        At data j rest' := by
  obtain ⟨j, hdec, hj⟩ := parseDecimalAt_eq h
  unfold Sixel.step Sixel.stepAt
  by_cases hcolor : b = 0x23
  · obtain ⟨k, hselect, hk⟩ := s.selectAt_eq hj
    rw [if_pos hcolor, if_pos hcolor, hdec, Option.bind_some, hselect]
    exact .inr ⟨_, _, k, rfl, rfl, hk⟩
  rw [if_neg hcolor, if_neg hcolor]
  by_cases hreturn : b = 0x24
  · rw [if_pos hreturn, if_pos hreturn]
    exact .inr ⟨_, rest, i, rfl, rfl, h⟩
  rw [if_neg hreturn, if_neg hreturn]
  by_cases hline : b = 0x2d
  · rw [if_pos hline, if_pos hline]
    cases hnew : s.newLine with
    | none => exact .inl ⟨rfl, rfl⟩
    | some s' => exact .inr ⟨s', rest, i, rfl, rfl, h⟩
  rw [if_neg hline, if_neg hline]
  by_cases hrepeat : b = 0x21
  · rw [if_pos hrepeat, if_pos hrepeat, hdec, Option.bind_some]
    dsimp only
    generalize (parseDecimal rest).1.getD 1 = count
    generalize (parseDecimal rest).2 = rest at hj ⊢
    cases rest with
    | nil =>
      rw [Sixel.repeatColumnAt, if_neg hj.nil]
      exact .inr ⟨s, [], j, rfl, rfl, hj⟩
    | cons ch rest =>
      rw [Sixel.repeatColumnAt, if_pos hj.lt, hj.get, Option.bind_some, Sixel.repeatColumn,
        Sixel.paintAt_eq]
      split_ifs
      · exact .inl ⟨rfl, rfl⟩
      · exact .inr ⟨_, rest, j + 1, rfl, rfl, hj.next⟩
      · exact .inr ⟨s, rest, j + 1, rfl, rfl, hj.next⟩
  rw [if_neg hrepeat, if_neg hrepeat]
  by_cases hcolumn : isColumn b
  · rw [if_pos hcolumn, if_pos hcolumn]
    by_cases hwide : s.x ≥ maxSixelDimension
    · rw [if_pos hwide, if_pos hwide]
      exact .inl ⟨rfl, rfl⟩
    · rw [if_neg hwide, if_neg hwide, Sixel.paintAt_eq]
      exact .inr ⟨_, rest, i, rfl, rfl, h⟩
  · rw [if_neg hcolumn, if_neg hcolumn]
    exact .inr ⟨s, rest, i, rfl, rfl, h⟩

theorem Sixel.le_stepAt {data : List UInt8} {i j : ℕ} {s s' : Sixel} {b : UInt8}
    (hi : i ≤ data.length) (h : s.stepAt data b i = some (some (s', j))) : i ≤ j := by
  have hrest : At data i (data.drop i) := ⟨hi, rfl⟩
  obtain ⟨-, hstep⟩ | ⟨s'', rest', j', hstep, hat, hj⟩ := s.stepAt_eq hrest b
  · rw [hstep] at h
    cases h
  · rw [hat] at h
    cases h
    have hlen := Sixel.length_step hstep
    have hbefore := hrest.length
    have hafter := hj.length
    omega

/-- Runs the commands from a position on. -/
def sixelLoopAt (data : List UInt8) (s : Sixel) (i : ℕ) : Option (Option Sixel) :=
  if _hi : i < data.length then
    data[i]?.bind fun b =>
      match _h : s.stepAt data b (i + 1) with
      | none => none
      | some none => some none
      | some (some (s, j)) => sixelLoopAt data s j
  else some (some s)
termination_by data.length - i
decreasing_by
  have hle := Sixel.le_stepAt _hi _h
  omega

/-- Writes one byte of the image. -/
def writeAt (rgba : List UInt8) (idx : ℕ) (value : UInt8) : Option (List UInt8) :=
  if idx < rgba.length then some (rgba.set idx value) else none

/-- Writes one pixel of the image; one that was not painted stays as it is. -/
def writePixelAt (rgba : List UInt8) (idx : ℕ) : Option Rgb → Option (List UInt8)
  | none => some rgba
  | some (r, g, b) => do
    let rgba ← writeAt rgba idx r
    let rgba ← writeAt rgba (idx + 1) g
    let rgba ← writeAt rgba (idx + 2) b
    writeAt rgba (idx + 3) 255

/-- Copies a row of the buffer into the image. -/
def copyRowAt (width : ℕ) (rgba : List UInt8) (row : PixelRow × ℕ) : Option (List UInt8) :=
  (row.1.take width).zipIdx.foldlM
    (fun rgba pixel => writePixelAt rgba ((row.2 * width + pixel.2) * 4) pixel.1) rgba

/-- Decodes DCS Sixel data into an RGBA image, position by position. -/
def decodeSixelAt (data : List UInt8) : Option (Option DecodedImage) :=
  (sixelLoopAt data .start 0).bind fun out =>
    match out with
    | none => some none
    | some s =>
      let height := (s.maxBand + 1) * 6
      let width := s.maxX
      if width = 0 ∨ height = 0 then some none
      else
        match checkedImageBytes width height 4 with
        | none => some none
        | some total =>
          ((s.buf.take height).zipIdx.foldlM (copyRowAt width) (List.replicate total 0)).map
            fun rgba => some ⟨width.toUInt32, height.toUInt32, rgba⟩

theorem sixelLoopAt_eq {data rest : List UInt8} {i : ℕ} (h : At data i rest) (s : Sixel) :
    sixelLoopAt data s i = some (sixelLoop s rest) := by
  fun_induction sixelLoop s rest generalizing i with
  | case1 s => rw [sixelLoopAt, dif_neg h.nil]
  | case2 s b rest hstep =>
    obtain ⟨-, hat⟩ | ⟨_, _, _, hsome, -⟩ := s.stepAt_eq h.next b
    · rw [sixelLoopAt, dif_pos h.lt, h.get, Option.bind_some]
      split <;> rename_i hat' <;> rw [hat] at hat' <;> cases hat'
    · rw [hstep] at hsome
      cases hsome
  | case3 s b rest s' rest' hstep ih =>
    obtain ⟨hnone, -⟩ | ⟨_, _, j, hsome, hat, hj⟩ := s.stepAt_eq h.next b
    · rw [hstep] at hnone
      cases hnone
    · rw [hstep] at hsome
      cases hsome
      rw [sixelLoopAt, dif_pos h.lt, h.get, Option.bind_some, ← ih hj]
      split <;> rename_i hat' <;> rw [hat] at hat' <;> cases hat'
      rfl

/-! ### No index of the image is out of range -/

theorem writeAt_append (pre : List UInt8) (old value : UInt8) (post : List UInt8) :
    writeAt (pre ++ old :: post) pre.length value = some (pre ++ value :: post) := by
  have hlt : pre.length < (pre ++ old :: post).length := by simp
  rw [writeAt, if_pos hlt, List.set_append_right _ _ le_rfl, Nat.sub_self]
  rfl

theorem writePixelAt_append (pre post : List UInt8) (pixel : Option Rgb) :
    writePixelAt (pre ++ List.replicate 4 0 ++ post) pre.length pixel =
      some (pre ++ rgbaPixel pixel ++ post) := by
  obtain _ | ⟨r, g, b⟩ := pixel
  · rfl
  · have hred := writeAt_append pre 0 r (0 :: 0 :: 0 :: post)
    have hgreen := writeAt_append (pre ++ [r]) 0 g (0 :: 0 :: post)
    have hblue := writeAt_append (pre ++ [r, g]) 0 b (0 :: post)
    have halpha := writeAt_append (pre ++ [r, g, b]) 0 255 post
    simp only [List.append_assoc, List.cons_append, List.nil_append, List.length_append,
      List.length_cons, List.length_nil, Nat.zero_add] at hgreen hblue halpha
    simp only [writePixelAt, rgbaPixel, List.replicate, List.append_assoc, List.cons_append,
      List.nil_append, Option.bind_eq_bind, hred, hgreen, hblue, halpha, Option.bind_some]

/-- Copying pixels into an image of zeros, at the place where they belong. -/
theorem copyPixels_append (first : ℕ) (pixels : PixelRow) : ∀ (col : ℕ) (pre post : List UInt8),
    pre.length = (first + col) * 4 →
      (pixels.zipIdx col).foldlM
          (fun rgba pixel => writePixelAt rgba ((first + pixel.2) * 4) pixel.1)
          (pre ++ List.replicate (pixels.length * 4) 0 ++ post) =
        some (pre ++ pixels.flatMap rgbaPixel ++ post) := by
  induction pixels with
  | nil =>
    intro col pre post _
    rfl
  | cons pixel pixels ih =>
    intro col pre post hpre
    have hzeros : pre ++ List.replicate ((pixel :: pixels).length * 4) 0 ++ post =
        pre ++ List.replicate 4 0 ++ (List.replicate (pixels.length * 4) 0 ++ post) := by
      rw [List.length_cons, Nat.succ_mul, Nat.add_comm, List.replicate_add]
      simp only [List.append_assoc]
    have hnext : (pre ++ rgbaPixel pixel).length = (first + (col + 1)) * 4 := by
      rw [List.length_append, length_rgbaPixel, hpre]
      ring
    rw [List.zipIdx_cons, List.foldlM_cons, hzeros, ← hpre, writePixelAt_append]
    have hrest := ih (col + 1) (pre ++ rgbaPixel pixel) post hnext
    simpa only [Option.bind_eq_bind, Option.bind_some, List.flatMap_cons,
      List.append_assoc] using hrest

/-- The bytes of a row; what lies right of its last pixel is transparent. -/
def paddedRow (width : ℕ) (pixels : PixelRow) : List UInt8 :=
  (pixels.take width).flatMap rgbaPixel ++ List.replicate ((width - pixels.length) * 4) 0

theorem copyRowAt_append {width row : ℕ} {pre : List UInt8} (hpre : pre.length = row * (width * 4))
    (pixels : PixelRow) (post : List UInt8) :
    copyRowAt width (pre ++ List.replicate (width * 4) 0 ++ post) (pixels, row) =
      some (pre ++ paddedRow width pixels ++ post) := by
  have hzeros : pre ++ List.replicate (width * 4) 0 ++ post =
      pre ++ List.replicate ((pixels.take width).length * 4) 0 ++
        (List.replicate ((width - pixels.length) * 4) 0 ++ post) := by
    have hwidth : width * 4 =
        (pixels.take width).length * 4 + (width - pixels.length) * 4 := by
      rw [List.length_take]
      omega
    rw [hwidth, List.replicate_add]
    simp only [List.append_assoc]
  have hcopy := copyPixels_append (row * width) (pixels.take width) 0 pre
    (List.replicate ((width - pixels.length) * 4) 0 ++ post) (by rw [hpre]; ring)
  rw [copyRowAt, hzeros, hcopy, paddedRow]
  simp only [List.append_assoc]

theorem copyRows_append (width : ℕ) (rows : List PixelRow) : ∀ (row : ℕ) (pre post : List UInt8),
    pre.length = row * (width * 4) →
      (rows.zipIdx row).foldlM (copyRowAt width)
          (pre ++ List.replicate (rows.length * (width * 4)) 0 ++ post) =
        some (pre ++ rows.flatMap (paddedRow width) ++ post) := by
  induction rows with
  | nil =>
    intro row pre post _
    rw [List.zipIdx_nil, List.foldlM_nil, List.length_nil, Nat.zero_mul]
    rfl
  | cons pixels rows ih =>
    intro row pre post hpre
    have hzeros : pre ++ List.replicate ((pixels :: rows).length * (width * 4)) 0 ++ post =
        pre ++ List.replicate (width * 4) 0 ++
          (List.replicate (rows.length * (width * 4)) 0 ++ post) := by
      rw [List.length_cons, Nat.succ_mul, Nat.add_comm, List.replicate_add]
      simp only [List.append_assoc]
    have hpadded : (paddedRow width pixels).length = width * 4 := by
      simp only [paddedRow, List.length_append, List.length_flatMap, length_rgbaPixel,
        List.map_const', List.sum_replicate, smul_eq_mul, List.length_replicate, List.length_take]
      omega
    have hnext : (pre ++ paddedRow width pixels).length = (row + 1) * (width * 4) := by
      rw [List.length_append, hpadded, hpre]
      ring
    rw [List.zipIdx_cons, List.foldlM_cons, hzeros, copyRowAt_append hpre]
    have hrest := ih (row + 1) (pre ++ paddedRow width pixels) post hnext
    simpa only [Option.bind_eq_bind, Option.bind_some, List.flatMap_cons,
      List.append_assoc] using hrest

/-- Reading a list at the positions below `n`, with a default behind its end. -/
theorem flatMap_range_getD {α β : Type} (f : α → List β) (l : List α) (d : α) (n : ℕ) :
    ((List.range n).flatMap fun i => f (l.getD i d)) =
      (l.take n).flatMap f ++ (List.replicate (n - l.length) d).flatMap f := by
  have hmap : (List.range n).map (fun i => l.getD i d) =
      l.take n ++ List.replicate (n - l.length) d := by
    refine List.ext_getElem ?_ fun i hi _ => ?_
    · simp only [List.length_map, List.length_range, List.length_append, List.length_take,
        List.length_replicate]
      omega
    · simp only [List.length_map, List.length_range] at hi
      rw [List.getElem_map, List.getElem_range, List.getElem_append]
      split_ifs with htake
      · simp only [List.length_take] at htake
        rw [List.getElem_take, List.getD_eq_getElem _ _ (by omega)]
      · simp only [List.length_take] at htake
        rw [List.getElem_replicate, List.getD_eq_default _ _ (by omega)]
  rw [← List.flatMap_append, ← hmap, List.flatMap_map]

theorem flatMap_replicate_zeros {α : Type} {f : α → List UInt8} {a : α} {k : ℕ}
    (h : f a = List.replicate k 0) (n : ℕ) :
    (List.replicate n a).flatMap f = List.replicate (n * k) 0 := by
  rw [List.flatMap_replicate, h, List.flatten_replicate_replicate]

theorem row_eq_paddedRow (width : ℕ) (pixels : PixelRow) :
    ((List.range width).flatMap fun col => rgbaPixel (pixels.getD col none)) =
      paddedRow width pixels := by
  have hpixel : rgbaPixel none = List.replicate 4 0 := rfl
  rw [flatMap_range_getD, flatMap_replicate_zeros hpixel, paddedRow]

/-- The pixels of an image: the rows of the buffer, then the rows below it. -/
theorem image_eq_rows (buf : List PixelRow) (width height : ℕ) :
    ((List.range height).flatMap fun row => (List.range width).flatMap fun col =>
        rgbaPixel ((buf.getD row []).getD col none)) =
      (buf.take height).flatMap (paddedRow width) ++
        List.replicate ((height - buf.length) * (width * 4)) 0 := by
  have hbelow : paddedRow width [] = List.replicate (width * 4) 0 := by simp [paddedRow]
  simp only [row_eq_paddedRow]
  rw [flatMap_range_getD, flatMap_replicate_zeros hbelow]

/-- Copying the buffer into an image of zeros gives its pixels. -/
theorem copyRows_eq (buf : List PixelRow) (width height : ℕ) :
    (buf.take height).zipIdx.foldlM (copyRowAt width) (List.replicate (width * height * 4) 0) =
      some ((List.range height).flatMap fun row => (List.range width).flatMap fun col =>
        rgbaPixel ((buf.getD row []).getD col none)) := by
  have hheight : (buf.take height).length + (height - buf.length) = height := by
    rw [List.length_take]
    omega
  have hbytes : width * height * 4 =
      (buf.take height).length * (width * 4) + (height - buf.length) * (width * 4) := by
    rw [← Nat.add_mul, hheight]
    ring
  have hcopy := copyRows_append width (buf.take height) 0 []
    (List.replicate ((height - buf.length) * (width * 4)) 0) (by simp)
  rw [hbytes, List.replicate_add, image_eq_rows]
  exact hcopy

/-- **The decoder does not panic**: each index it computes is within range, and what it returns is
    the image. -/
theorem decodeSixelAt_eq (data : List UInt8) : decodeSixelAt data = some (decodeSixel data) := by
  rw [decodeSixelAt, decodeSixel, sixelLoopAt_eq (At.start data), Option.bind_some]
  cases hloop : sixelLoop .start data with
  | none => rfl
  | some s =>
    dsimp only
    rw [Option.bind_some]
    by_cases hwidth : s.maxX = 0
    · rw [if_pos (.inl hwidth), if_pos hwidth]
    · rw [if_neg (by omega), if_neg hwidth]
      cases hbytes : checkedImageBytes s.maxX ((s.maxBand + 1) * 6) 4 with
      | none => rfl
      | some total =>
        obtain ⟨rfl, -⟩ := checkedImageBytes_eq hbytes
        dsimp only
        rw [copyRows_eq]
        rfl

end Nexterm.Vt

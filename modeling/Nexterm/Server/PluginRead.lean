/-
  What a plugin reads of a pane (`plugin_read.rs`): text, and dumps of the grid.

  * `gridToDump`, `capGridDump`: a dump, and its beginning of whole rows.
  * `readDump`: a reader that trusts the header.
  * `capText`: the beginning of a text.
  * `CapsDump`, `CapsText`: what is read of a capped dump are the first rows of the grid, as many
    as fit, and a capped text is its longest beginning that fits; `capped_dump`.
-/
import Nexterm.Lib.Codec
import Nexterm.Server.Asciicast

namespace Nexterm.Server

open Vt Utf8

/-! ## Dumps -/

/-- Map a color to a palette index. -/
def colorIndex : Color → UInt8
  | .indexed i => i
  | _ => 0xff

/-- Pack the character attributes. -/
def attrBits (a : Attrs) : UInt8 :=
  let bits : UInt8 := 0
  let bits := if a.bits &&& Attrs.bold ≠ 0 then bits ||| 0b0001 else bits
  let bits := if a.bits &&& Attrs.italic ≠ 0 then bits ||| 0b0010 else bits
  let bits := if a.bits &&& Attrs.underline ≠ 0 then bits ||| 0b0100 else bits
  if a.bits &&& Attrs.reverse ≠ 0 then bits ||| 0b1000 else bits

/-- A cell record. -/
structure CellRecord where
  codepoint : UInt32
  fg : UInt8
  bg : UInt8
  attrs : UInt8
  reserved : UInt8

/-- The record at a place; a missing cell is a blank. -/
def cellRecord (g : Grid) (r c : ℕ) : CellRecord :=
  match (g.rows[r]?).bind (·[c]?) with
  | some cell => ⟨cell.ch.val, colorIndex cell.fg, colorIndex cell.bg, attrBits cell.attrs, 0⟩
  | none => ⟨' '.val, 0xff, 0xff, 0, 0⟩

/-- The bytes of a record. -/
def cellCodec : Codec CellRecord :=
  Codec.map
    (.pair .u32 (.pair .byte (.pair .byte (.pair .byte .byte))))
    (fun r => (r.codepoint, r.fg, r.bg, r.attrs, r.reserved))
    (fun p => ⟨p.1, p.2.1, p.2.2.1, p.2.2.2.1, p.2.2.2.2⟩) fun _ => rfl

/-- Serialize the visible grid. -/
def gridToDump (g : Grid) : List UInt8 :=
  Codec.u16.enc (UInt16.ofNat g.width) ++ Codec.u16.enc (UInt16.ofNat g.height) ++
    (List.range g.height).flatMap fun r => (List.range g.width).flatMap fun c =>
      cellCodec.enc (cellRecord g r c)

/-- Cap a grid dump on a whole-row boundary. -/
def capGridDump (dump : List UInt8) (max : ℕ) : List UInt8 :=
  if dump.length ≤ max then dump
  -- not even the header
  else if max < 4 then []
  else
    let cols := (dump.getD 0 0).toNat + 256 * (dump.getD 1 0).toNat
    let rowBytes := min (cols * 8) (2 ^ 64 - 1)
    if rowBytes = 0 then dump.take 4
    else
      let keptRows := (max - 4) / rowBytes
      let rowsLe := Codec.u16.enc (UInt16.ofNat keptRows)
      ((dump.set 2 (rowsLe.getD 0 0)).set 3 (rowsLe.getD 1 0)).take (4 + keptRows * rowBytes)

/-- Reads the header, and as many records as it says. -/
def readDump (bytes : List UInt8) : Option ((UInt16 × UInt16 × List CellRecord) × List UInt8) :=
  (Codec.u16.dec bytes).bind fun cols => (Codec.u16.dec cols.2).bind fun rows =>
    (Codec.decMany cellCodec (cols.1.toNat * rows.1.toNat) rows.2).map fun cells =>
      ((cols.1, rows.1, cells.1), cells.2)

/-- The records of a row. -/
def rowRecords (g : Grid) (r : ℕ) : List CellRecord :=
  (List.range g.width).map (cellRecord g r)

/-! ## Text -/

/-- `str::is_char_boundary`. -/
def isCharBoundary (s : List UInt8) (i : ℕ) : Bool :=
  if i = 0 then true
  else match s[i]? with
    | some b => (-0x40 : ℤ) ≤ b.toInt8.toInt
    | none => i = s.length

/-- The last boundary up to some place. -/
def floorBoundary (s : List UInt8) : ℕ → ℕ
  | 0 => 0
  | i + 1 => if isCharBoundary s (i + 1) then i + 1 else floorBoundary s i

/-- Truncate a string, given by its bytes. -/
def capText (s : List UInt8) (max : ℕ) : List UInt8 :=
  if s.length > max then s.take (floorBoundary s max) else s

theorem isCharBoundary_byte (b : UInt8) :
    decide ((-0x40 : ℤ) ≤ b.toInt8.toInt) = !isContinuation b := by
  have hint : b.toInt8.toInt = if 2 * b.toNat < 256 then (b.toNat : ℤ) else b.toNat - 256 :=
    BitVec.toInt_eq_toNat_cond _
  have hlt := b.toNat_lt
  rw [hint, isContinuation, ← decide_not, decide_eq_decide, UInt8.le_iff_toNat_le,
    UInt8.le_iff_toNat_le]
  show _ ↔ ¬(128 ≤ b.toNat ∧ b.toNat ≤ 191)
  split_ifs <;> omega

/-- A boundary is where the rest does not start in the middle of a character. -/
theorem isCharBoundary_eq {s : List UInt8} {i : ℕ} (h : i ≠ 0) (hle : i ≤ s.length) :
    isCharBoundary s i = !startsInside (s.drop i) := by
  rw [isCharBoundary, if_neg h]
  rcases hle.lt_or_eq with hlt | rfl
  · rw [List.drop_eq_getElem_cons hlt, List.getElem?_eq_getElem hlt]
    exact isCharBoundary_byte _
  · rw [List.drop_length, List.getElem?_eq_none le_rfl]
    exact decide_eq_true rfl

/-- The last boundary. -/
theorem floorBoundary_spec (s : List UInt8) (i : ℕ) :
    floorBoundary s i ≤ i ∧ isCharBoundary s (floorBoundary s i) = true ∧
      ∀ j ≤ i, isCharBoundary s j = true → j ≤ floorBoundary s i := by
  induction i with
  | zero => exact ⟨le_rfl, rfl, fun j hj _ => hj⟩
  | succ i ih =>
    unfold floorBoundary
    split_ifs with h
    · exact ⟨le_rfl, h, fun j hj _ => hj⟩
    · obtain ⟨hle, hbound, hlast⟩ := ih
      refine ⟨hle.trans (Nat.le_succ i), hbound, fun j hj hbound' => hlast j ?_ hbound'⟩
      have hne : j ≠ i + 1 := by
        rintro rfl
        exact h hbound'
      omega

theorem startsInside_encode (cs : List Char) : startsInside (encode cs) = false := by
  cases cs with
  | nil => rfl
  | cons c cs =>
    obtain ⟨b, bytes, hc, hb, -⟩ := utf8EncodeChar_split c
    rw [encode_cons, hc]
    exact hb

/-- The boundaries of a text are where its characters end. -/
theorem isCharBoundary_iff {cs : List Char} {i : ℕ} (hle : i ≤ (encode cs).length) :
    isCharBoundary (encode cs) i = true ↔ ∃ ds, (encode cs).take i = encode ds := by
  rcases Nat.eq_zero_or_pos i with rfl | hpos
  · exact iff_of_true rfl ⟨[], rfl⟩
  have hsplit := List.take_append_drop i (encode cs)
  rw [isCharBoundary_eq hpos.ne' hle, Bool.not_eq_true']
  constructor
  · intro h
    obtain ⟨ds, _, htake, -, -⟩ := exists_cut hsplit h
    exact ⟨ds, htake⟩
  · rintro ⟨ds, htake⟩
    rw [htake] at hsplit
    obtain ⟨es, hdrop, -⟩ := exists_of_encode_append hsplit
    rw [hdrop]
    exact startsInside_encode es

/-- The text is capped to its longest beginning that fits. -/
structure CapsText (cs : List Char) (max : ℕ) : Prop where
  begins : ∃ ds, capText (encode cs) max = encode ds ∧ ds <+: cs
  fits : (capText (encode cs) max).length ≤ max
  longest : ∀ ds, encode ds <+: encode cs → (encode ds).length ≤ max →
    (encode ds).length ≤ (capText (encode cs) max).length

theorem capsText (cs : List Char) (max : ℕ) : CapsText cs max := by
  by_cases hlong : (encode cs).length > max
  · have hcap : capText (encode cs) max = (encode cs).take (floorBoundary (encode cs) max) :=
      if_pos hlong
    obtain ⟨hle, hbound, hlast⟩ := floorBoundary_spec (encode cs) max
    have hin : floorBoundary (encode cs) max ≤ (encode cs).length := hle.trans hlong.le
    obtain ⟨ds, htake⟩ := (isCharBoundary_iff hin).1 hbound
    have hlen : (capText (encode cs) max).length = floorBoundary (encode cs) max := by
      rw [hcap, List.length_take_of_le hin]
    refine ⟨⟨ds, hcap.trans htake, ?_⟩, hlen.trans_le hle, fun ds' hpre hfits => ?_⟩
    · have hsplit := List.take_append_drop (floorBoundary (encode cs) max) (encode cs)
      rw [htake] at hsplit
      obtain ⟨es, -, rfl⟩ := exists_of_encode_append hsplit
      exact List.prefix_append ds es
    · rw [hlen]
      exact hlast _ hfits ((isCharBoundary_iff hpre.length_le).2
        ⟨ds', (List.prefix_iff_eq_take.1 hpre).symm⟩)
  · have hcap : capText (encode cs) max = encode cs := if_neg hlong
    refine ⟨⟨cs, hcap, List.prefix_refl cs⟩, ?_, fun ds hpre _ => ?_⟩
    · rw [hcap]
      exact Nat.not_lt.1 hlong
    · rw [hcap]
      exact hpre.length_le

/-! ## Capped dumps -/

/-- The records of the first rows. -/
def firstRows (g : Grid) (k : ℕ) : List CellRecord := (List.range k).flatMap (rowRecords g)

/-- A header, and the first rows. -/
def dumpRows (g : Grid) (k : ℕ) : List UInt8 :=
  Codec.u16.enc (UInt16.ofNat g.width) ++ Codec.u16.enc (UInt16.ofNat k) ++
    (firstRows g k).flatMap cellCodec.enc

theorem gridToDump_eq (g : Grid) : gridToDump g = dumpRows g g.height := by
  rw [gridToDump, dumpRows, firstRows, List.flatMap_assoc]
  simp only [rowRecords, List.flatMap_map]

theorem length_cellCodec (r : CellRecord) : (cellCodec.enc r).length = 8 := by
  simp [cellCodec]

variable (g : Grid)

theorem length_firstRows (k : ℕ) : (firstRows g k).length = k * g.width := by
  simp [firstRows, rowRecords, List.length_flatMap]

theorem length_bytes (l : List CellRecord) : (l.flatMap cellCodec.enc).length = l.length * 8 := by
  simp [List.length_flatMap, length_cellCodec]

theorem length_dumpRows (k : ℕ) : (dumpRows g k).length = 4 + k * (g.width * 8) := by
  rw [dumpRows, List.length_append, List.length_append, Codec.length_u16, Codec.length_u16,
    length_bytes, length_firstRows, Nat.mul_assoc]

/-- The beginning of the bytes of some records. -/
theorem take_bytes (l l' : List CellRecord) :
    ((l ++ l').flatMap cellCodec.enc).take (l.length * 8) = l.flatMap cellCodec.enc := by
  rw [List.flatMap_append, ← length_bytes, List.take_left]

variable {g}

/-- The rows that are kept. -/
def keptRows (g : Grid) (max : ℕ) : ℕ :=
  if 4 + g.height * (g.width * 8) ≤ max then g.height else (max - 4) / (g.width * 8)

theorem keptRows_spec {max : ℕ} (h : 4 ≤ max) :
    keptRows g max ≤ g.height ∧ 4 + keptRows g max * (g.width * 8) ≤ max ∧
      ∀ k ≤ g.height, 4 + k * (g.width * 8) ≤ max → k ≤ keptRows g max := by
  unfold keptRows
  split_ifs with hfits
  · exact ⟨le_rfl, hfits, fun k hk _ => hk⟩
  · have hpos : 0 < g.width * 8 := by
      rcases Nat.eq_zero_or_pos (g.width * 8) with hzero | hpos
      · rw [hzero, Nat.mul_zero] at hfits
        omega
      · exact hpos
    have hle := Nat.div_mul_le_self (max - 4) (g.width * 8)
    refine ⟨?_, by omega, fun k _ hk => (Nat.le_div_iff_mul_le hpos).2 (by omega)⟩
    refine Nat.le_of_lt ((Nat.div_lt_iff_lt_mul hpos).2 ?_)
    omega

theorem u16_bytes (x : UInt16) : ∃ lo hi, Codec.u16.enc x = [lo, hi] ∧
    lo.toNat + 256 * hi.toNat = x.toNat := by
  have hlt := x.toNat_lt
  refine ⟨UInt8.ofNat (x.toNat % 256), UInt8.ofNat (x.toNat / 256 % 256), rfl, ?_⟩
  rw [UInt8.toNat_ofNat', UInt8.toNat_ofNat']
  omega

theorem firstRows_append {k : ℕ} (h : k ≤ g.height) :
    ∃ rest, firstRows g g.height = firstRows g k ++ rest := by
  obtain ⟨d, hd⟩ := Nat.exists_eq_add_of_le h
  rw [hd, firstRows, List.range_add, List.flatMap_append]
  exact ⟨_, rfl⟩

/-- A capped dump is the one of the rows that are kept. -/
theorem capGridDump_eq (hwidth : g.width < 2 ^ 16) {max : ℕ} (h : 4 ≤ max) :
    capGridDump (gridToDump g) max = dumpRows g (keptRows g max) := by
  have hlen := length_dumpRows g g.height
  obtain ⟨hle, -, -⟩ := keptRows_spec (g := g) h
  rw [gridToDump_eq]
  by_cases hfits : 4 + g.height * (g.width * 8) ≤ max
  · rw [capGridDump, if_pos (hlen.trans_le hfits), keptRows, if_pos hfits]
  have hpos : g.width * 8 ≠ 0 := fun hzero => by
    rw [hzero, Nat.mul_zero] at hfits
    exact hfits h
  rw [keptRows, if_neg hfits] at hle ⊢
  obtain ⟨rest, hrest⟩ := firstRows_append hle
  obtain ⟨c₀, c₁, hcols, hwidth'⟩ := u16_bytes (UInt16.ofNat g.width)
  obtain ⟨r₀, r₁, hrows, -⟩ := u16_bytes (UInt16.ofNat g.height)
  obtain ⟨k₀, k₁, hkept, -⟩ := u16_bytes (UInt16.ofNat ((max - 4) / (g.width * 8)))
  rw [UInt16.toNat_ofNat', Nat.mod_eq_of_lt hwidth] at hwidth'
  have hdump : dumpRows g g.height =
      c₀ :: c₁ :: r₀ :: r₁ :: (firstRows g g.height).flatMap cellCodec.enc := by
    rw [dumpRows, hcols, hrows]
    rfl
  have hrowBytes : min (g.width * 8) (2 ^ 64 - 1) = g.width * 8 := min_eq_left (by omega)
  have htake := take_bytes (firstRows g ((max - 4) / (g.width * 8))) rest
  rw [length_firstRows, Nat.mul_assoc, ← hrest] at htake
  rw [capGridDump, if_neg (hlen ▸ hfits), if_neg (Nat.not_lt.2 h), hdump]
  simp only [List.getD_cons_zero, List.getD_cons_succ, hwidth', hrowBytes, if_neg hpos, hkept,
    List.set_cons_succ, List.set_cons_zero]
  rw [dumpRows, hcols, hkept, ← htake, Nat.add_comm 4]
  rfl

/-- What is read of a dump. -/
theorem readDump_dumpRows (hwidth : g.width < 2 ^ 16) {k : ℕ} (hk : k < 2 ^ 16) :
    readDump (dumpRows g k) =
      some ((UInt16.ofNat g.width, UInt16.ofNat k, firstRows g k), []) := by
  have hlen : (UInt16.ofNat g.width).toNat * (UInt16.ofNat k).toNat = (firstRows g k).length := by
    rw [UInt16.toNat_ofNat', UInt16.toNat_ofNat', Nat.mod_eq_of_lt hwidth, Nat.mod_eq_of_lt hk,
      length_firstRows, Nat.mul_comm]
  have hcells := Codec.decMany_enc cellCodec [] (firstRows g k)
  rw [List.append_nil] at hcells
  rw [readDump, dumpRows, List.append_assoc, Codec.u16.dec_enc, Option.bind_some,
    Codec.u16.dec_enc, Option.bind_some, hlen, hcells]
  rfl

/-- A capped dump fits, is empty where there is no room for a header, and is otherwise read as the
    first rows of the grid, as many as fit. -/
structure CapsDump (g : Grid) (max : ℕ) : Prop where
  fits : (capGridDump (gridToDump g) max).length ≤ max
  empty_iff : capGridDump (gridToDump g) max = [] ↔ max < 4
  header : 4 ≤ (gridToDump g).length
  decodes : 4 ≤ max → ∃ k ≤ g.height,
    readDump (capGridDump (gridToDump g) max) =
      some ((UInt16.ofNat g.width, UInt16.ofNat k, (List.range k).flatMap (rowRecords g)), []) ∧
    4 + k * (g.width * 8) ≤ max ∧ ∀ k' ≤ g.height, 4 + k' * (g.width * 8) ≤ max → k' ≤ k

theorem capsDump (hwidth : g.width < 2 ^ 16) (hheight : g.height < 2 ^ 16) (max : ℕ) :
    CapsDump g max := by
  have hlen : 4 ≤ (gridToDump g).length := by
    rw [gridToDump_eq, length_dumpRows]
    exact Nat.le_add_right 4 _
  rcases Nat.lt_or_ge max 4 with h | h
  · have hnil : capGridDump (gridToDump g) max = [] := by
      rw [capGridDump, if_neg (by omega), if_pos h]
    refine ⟨?_, iff_of_true hnil h, hlen, fun h' => absurd h' (Nat.not_le.2 h)⟩
    rw [hnil]
    exact Nat.zero_le _
  · have hcap := capGridDump_eq hwidth h
    obtain ⟨hle, hfits, hmax⟩ := keptRows_spec (g := g) h
    have hdump := length_dumpRows g (keptRows g max)
    refine ⟨?_, iff_of_false (fun hnil => ?_) (Nat.not_lt.2 h), hlen, fun _ => ?_⟩
    · rw [hcap, hdump]
      exact hfits
    · rw [← hcap, hnil, List.length_nil] at hdump
      omega
    · refine ⟨keptRows g max, hle, ?_, hfits, hmax⟩
      rw [hcap]
      exact readDump_dumpRows hwidth (hle.trans_lt hheight)

end Nexterm.Server

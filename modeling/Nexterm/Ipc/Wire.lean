/-
  The messages that a pane sends to its clients (`message.rs`), and what they are on the wire.

  * `ServerToClient`: the variants that carry what a pane has put out.
  * `ServerToClient.wireLen`: the length of a message in the `postcard` format: variants, unsigned
    numbers and lengths in groups of seven bits, bytes as they are.
  * `Postcard`: the crate, an encoder of that length and a decoder that inverts it.
  * `postcard`: there is one, put together from codecs.
-/
import Nexterm.Lib.Codec
import Nexterm.Server.Reader
import Nexterm.Vt.Caps

namespace Nexterm.Ipc

open Codec Server Vt

/-- The messages of a pane. -/
inductive ServerToClient
  | gridDiff (paneId : UInt32) (diff : GridDiff)
  | fullRefresh (paneId : UInt32) (grid : Grid)
  | imagePlaced (paneId : UInt32) (image : PendingImage)
  | textSized (paneId : UInt32) (event : TextSizingEvent)
  | bell (paneId : UInt32)
  | paneClosed (paneId : UInt32)
  | titleChanged (paneId : UInt32) (title : String)
  | desktopNotification (paneId : UInt32) (title body : String)
  | clipboardWriteRequest (paneId : UInt32) (text : String)
  | semanticMark (paneId : UInt32) (row : UInt16) (kind : String) (exitCode : Option Int32)
  | cwdChanged (paneId : UInt32) (cwd : String)
  | pointerShapeChanged (paneId : UInt32) (shape : String)
  | paneColorsChanged (paneId : UInt32) (colors : ColorOverrides)
  | progressChanged (paneId : UInt32) (state progress : UInt8)
  deriving DecidableEq

/-! ## Lengths -/

/-- A string: its length, its bytes. -/
def stringLen (s : String) : ℕ := varintLen s.utf8ByteSize + s.utf8ByteSize

/-- A list: its length, its elements. -/
def listLen {α : Type} (len : α → ℕ) (l : List α) : ℕ := varintLen l.length + (l.map len).sum

/-- An optional value. -/
def optionLen {α : Type} (len : α → ℕ) : Option α → ℕ
  | none => 1
  | some a => len a + 1

/-- A color. -/
def colorLen : Color → ℕ
  | .default => 1
  | .indexed _ => 2
  | .rgb _ _ _ => 4

/-- A cell: the character as a string, the colors, the attributes. -/
def cellLen (c : Cell) : ℕ := 1 + c.ch.utf8Size + (colorLen c.fg + (colorLen c.bg + 1))

/-- A dirty row. -/
def dirtyRowLen (d : DirtyRow) : ℕ := varintLen d.row + listLen cellLen d.cells

/-- A hyperlink. -/
def hyperlinkLen (h : HyperlinkSpan) : ℕ :=
  varintLen h.row + (varintLen h.colStart + (varintLen h.colEnd + stringLen h.url))

/-- A full-screen snapshot. -/
def gridLen (g : Grid) : ℕ :=
  varintLen g.width + (varintLen g.height + (listLen (listLen cellLen) g.rows +
    (varintLen g.cursorCol + (varintLen g.cursorRow + listLen hyperlinkLen g.hyperlinks))))

/-- An image, without the variant and the pane. -/
def imageLen (img : PendingImage) : ℕ :=
  varintLen img.id.toNat + (varintLen img.col.toNat + (varintLen img.row.toNat +
    (varintLen img.width.toNat + (varintLen img.height.toNat +
      (varintLen img.rgba.length + img.rgba.length)))))

/-- A text-sizing event, without the variant and the pane. -/
def textSizedLen (e : TextSizingEvent) : ℕ :=
  varintLen e.col.toNat + (varintLen e.row.toNat + (1 + (1 + (varintLen e.widthCells.toNat +
    (1 + (1 + stringLen e.text))))))

namespace ServerToClient

/-- The pane that sends a message. -/
def paneId : ServerToClient → UInt32
  | gridDiff id _ | fullRefresh id _ | imagePlaced id _ | textSized id _ | bell id | paneClosed id
  | titleChanged id _ | desktopNotification id _ _ | clipboardWriteRequest id _
  | semanticMark id _ _ _ | cwdChanged id _ | pointerShapeChanged id _ | paneColorsChanged id _
  | progressChanged id _ _ => id

/-- The length of the fields after the pane. -/
def fieldsLen : ServerToClient → ℕ
  | gridDiff _ diff =>
    listLen dirtyRowLen diff.dirtyRows + (varintLen diff.cursorCol + varintLen diff.cursorRow)
  | fullRefresh _ grid => gridLen grid
  | imagePlaced _ img => imageLen img
  | textSized _ e => textSizedLen e
  | bell _ => 0
  | paneClosed _ => 0
  | titleChanged _ s => stringLen s
  | desktopNotification _ title body => stringLen title + stringLen body
  | clipboardWriteRequest _ s => stringLen s
  | semanticMark _ row kind exitCode =>
    varintLen row.toNat + (stringLen kind +
      optionLen (fun code : Int32 => varintLen (Equiv.intEquivNat code.toInt)) exitCode)
  | cwdChanged _ s => stringLen s
  | pointerShapeChanged _ s => stringLen s
  | paneColorsChanged _ colors =>
    optionLen (fun _ => 3) colors.fg + (optionLen (fun _ => 3) colors.bg +
      listLen (fun _ => 4) colors.palette)
  | progressChanged _ _ _ => 2

/-- The length of a message: the variant is a single byte. -/
def wireLen (m : ServerToClient) : ℕ := 1 + (varintLen m.paneId.toNat + m.fieldsLen)

end ServerToClient

/-- The `postcard` crate. -/
structure Postcard where
  encode : ServerToClient → List UInt8
  decode : List UInt8 → Option ServerToClient
  decode_encode : ∀ m, decode (encode m) = some m
  length_encode : ∀ m, (encode m).length = m.wireLen

/-! ## The format -/

/-- A `u16`. -/
def u16 : Codec UInt16 := .map varint UInt16.toNat Nat.toUInt16 fun _ => UInt16.ofNat_toNat

/-- A `u32`. -/
def u32 : Codec UInt32 := .map varint UInt32.toNat Nat.toUInt32 fun _ => UInt32.ofNat_toNat

/-- An `i32`. -/
def i32 : Codec Int32 := .map int Int32.toInt Int32.ofInt Int32.ofInt_toInt

/-- Three bytes. -/
def rgb : Codec Rgb := pair byte (pair byte byte)

/-- A color. -/
def color : Codec Color :=
  tagged
    (fun
      | .default => 0
      | .indexed _ => 1
      | .rgb _ _ _ => 2)
    (fun
      | .default => []
      | .indexed index => byte.enc index
      | .rgb r g b => rgb.enc (r, g, b))
    (fun tag bytes =>
      match tag with
      | 0 => some (.default, bytes)
      | 1 => byte.decAs .indexed bytes
      | 2 => rgb.decAs (fun c => .rgb c.1 c.2.1 c.2.2) bytes
      | _ => none)
    (by rintro (_ | index | ⟨r, g, b⟩) rest <;> simp)

/-- A cell. -/
def cell : Codec Cell :=
  .map (pair char (pair color (pair color byte))) (fun c => (c.ch, c.fg, c.bg, c.attrs.bits))
    (fun p => ⟨p.1, p.2.1, p.2.2.1, ⟨p.2.2.2⟩⟩) fun _ => rfl

/-- A dirty row. -/
def dirtyRow : Codec DirtyRow :=
  .map (pair varint (list cell)) (fun d => (d.row, d.cells)) (fun p => ⟨p.1, p.2⟩) fun _ => rfl

/-- A diff. -/
def gridDiff : Codec GridDiff :=
  .map (pair (list dirtyRow) (pair varint varint))
    (fun d => (d.dirtyRows, d.cursorCol, d.cursorRow)) (fun p => ⟨p.1, p.2.1, p.2.2⟩) fun _ => rfl

/-- A hyperlink. -/
def hyperlink : Codec HyperlinkSpan :=
  .map (pair varint (pair varint (pair varint string)))
    (fun h => (h.row, h.colStart, h.colEnd, h.url)) (fun p => ⟨p.1, p.2.1, p.2.2.1, p.2.2.2⟩)
    fun _ => rfl

/-- A full-screen snapshot. -/
def grid : Codec Grid :=
  .map (pair varint (pair varint (pair (list (list cell)) (pair varint (pair varint
      (list hyperlink))))))
    (fun g => (g.width, g.height, g.rows, g.cursorCol, g.cursorRow, g.hyperlinks))
    (fun p => ⟨p.1, p.2.1, p.2.2.1, p.2.2.2.1, p.2.2.2.2.1, p.2.2.2.2.2⟩) fun _ => rfl

/-- An image. -/
def image : Codec PendingImage :=
  .map (pair u32 (pair u16 (pair u16 (pair u32 (pair u32 bytes)))))
    (fun i => (i.id, i.col, i.row, i.width, i.height, i.rgba))
    (fun p => ⟨p.1, p.2.1, p.2.2.1, p.2.2.2.1, p.2.2.2.2.1, p.2.2.2.2.2⟩) fun _ => rfl

/-- A text-sizing event. -/
def textSized : Codec TextSizingEvent :=
  .map (pair u16 (pair u16 (pair byte (pair byte (pair u16 (pair byte (pair byte string)))))))
    (fun e => (e.col, e.row, e.scaleNum, e.scaleDen, e.widthCells, e.valign, e.halign, e.text))
    (fun p => ⟨p.2.2.1, p.2.2.2.1, p.2.2.2.2.1, p.2.2.2.2.2.1, p.2.2.2.2.2.2.1, p.1, p.2.1,
      p.2.2.2.2.2.2.2⟩) fun _ => rfl

/-- Dynamic colors. -/
def colors : Codec ColorOverrides :=
  .map (pair (option rgb) (pair (option rgb) (list (pair byte rgb))))
    (fun c => (c.fg, c.bg, c.palette)) (fun p => ⟨p.1, p.2.1, p.2.2⟩) fun _ => rfl

/-- A semantic mark: the row, the kind and the exit code. -/
def mark : Codec (UInt16 × String × Option Int32) := pair u16 (pair string (option i32))

@[simp] theorem length_u16 (n : UInt16) : (u16.enc n).length = varintLen n.toNat := length_varint _

@[simp] theorem length_u32 (n : UInt32) : (u32.enc n).length = varintLen n.toNat := length_varint _

@[simp] theorem length_i32 (n : Int32) :
    (i32.enc n).length = varintLen (Equiv.intEquivNat n.toInt) := length_int _

@[simp] theorem length_rgb (c : Rgb) : (rgb.enc c).length = 3 := rfl

theorem length_list_of {α : Type} {c : Codec α} {len : α → ℕ} (h : ∀ a, (c.enc a).length = len a)
    (l : List α) : ((list c).enc l).length = listLen len l := by
  rw [length_list, listLen, List.map_congr_left fun a _ => h a]

theorem length_option_of {α : Type} {c : Codec α} {len : α → ℕ}
    (h : ∀ a, (c.enc a).length = len a) (a : Option α) :
    ((option c).enc a).length = optionLen len a := by
  cases a with
  | none => rfl
  | some a => exact congrArg (· + 1) (h a)

@[simp] theorem length_color (c : Color) : (color.enc c).length = colorLen c := by
  cases c <;> simp [color, colorLen, varintLen]

@[simp] theorem length_cell (c : Cell) : (cell.enc c).length = cellLen c := by
  simp [cell, cellLen]

@[simp] theorem length_dirtyRow (d : DirtyRow) : (dirtyRow.enc d).length = dirtyRowLen d := by
  rw [dirtyRow, length_map, length_pair, length_varint, length_list_of length_cell, dirtyRowLen]

@[simp] theorem length_hyperlink (h : HyperlinkSpan) :
    (hyperlink.enc h).length = hyperlinkLen h := by
  simp [hyperlink, hyperlinkLen, stringLen]

@[simp] theorem length_grid (g : Grid) : (grid.enc g).length = gridLen g := by
  simp only [grid, length_map, length_pair, length_varint,
    length_list_of (length_list_of length_cell), length_list_of length_hyperlink, gridLen]

@[simp] theorem length_gridDiff (d : GridDiff) : (gridDiff.enc d).length =
    listLen dirtyRowLen d.dirtyRows + (varintLen d.cursorCol + varintLen d.cursorRow) := by
  simp only [gridDiff, length_map, length_pair, length_varint, length_list_of length_dirtyRow]

@[simp] theorem length_image (i : PendingImage) : (image.enc i).length = imageLen i := by
  simp [image, imageLen]

@[simp] theorem length_textSized (e : TextSizingEvent) :
    (textSized.enc e).length = textSizedLen e := by
  simp [textSized, textSizedLen, stringLen]

@[simp] theorem length_colors (c : ColorOverrides) : (colors.enc c).length =
    optionLen (fun _ => 3) c.fg + (optionLen (fun _ => 3) c.bg + listLen (fun _ => 4) c.palette) := by
  have hentry : ∀ e : UInt8 × Rgb, ((pair byte rgb).enc e).length = 4 := fun _ => rfl
  simp only [colors, length_map, length_pair, length_option_of length_rgb, length_list_of hentry]

@[simp] theorem length_mark (m : UInt16 × String × Option Int32) : (mark.enc m).length =
    varintLen m.1.toNat + (stringLen m.2.1 +
      optionLen (fun code : Int32 => varintLen (Equiv.intEquivNat code.toInt)) m.2.2) := by
  simp only [mark, length_pair, length_u16, length_string, length_option_of length_i32, stringLen]

namespace ServerToClient

/-- The number of a variant. -/
def variant : ServerToClient → ℕ
  | gridDiff _ _ => 0
  | fullRefresh _ _ => 1
  | imagePlaced _ _ => 5
  | textSized _ _ => 6
  | bell _ => 8
  | paneClosed _ => 12
  | titleChanged _ _ => 13
  | desktopNotification _ _ _ => 15
  | clipboardWriteRequest _ _ => 16
  | semanticMark _ _ _ _ => 28
  | cwdChanged _ _ => 29
  | pointerShapeChanged _ _ => 40
  | paneColorsChanged _ _ => 41
  | progressChanged _ _ _ => 42

/-- The fields of a message. -/
def fields : ServerToClient → List UInt8
  | gridDiff id diff => (pair u32 Ipc.gridDiff).enc (id, diff)
  | fullRefresh id g => (pair u32 grid).enc (id, g)
  | imagePlaced id i => (pair u32 image).enc (id, i)
  | textSized id e => (pair u32 Ipc.textSized).enc (id, e)
  | bell id => u32.enc id
  | paneClosed id => u32.enc id
  | titleChanged id s => (pair u32 string).enc (id, s)
  | desktopNotification id title body => (pair u32 (pair string string)).enc (id, title, body)
  | clipboardWriteRequest id s => (pair u32 string).enc (id, s)
  | semanticMark id row kind exitCode => (pair u32 mark).enc (id, row, kind, exitCode)
  | cwdChanged id s => (pair u32 string).enc (id, s)
  | pointerShapeChanged id s => (pair u32 string).enc (id, s)
  | paneColorsChanged id c => (pair u32 colors).enc (id, c)
  | progressChanged id state progress => (pair u32 (pair byte byte)).enc (id, state, progress)

/-- Reads the fields of a variant. -/
def readFields (variant : ℕ) (bytes : List UInt8) : Option (ServerToClient × List UInt8) :=
  match variant with
  | 0 => (pair u32 Ipc.gridDiff).decAs (fun p => gridDiff p.1 p.2) bytes
  | 1 => (pair u32 grid).decAs (fun p => fullRefresh p.1 p.2) bytes
  | 5 => (pair u32 image).decAs (fun p => imagePlaced p.1 p.2) bytes
  | 6 => (pair u32 Ipc.textSized).decAs (fun p => textSized p.1 p.2) bytes
  | 8 => u32.decAs bell bytes
  | 12 => u32.decAs paneClosed bytes
  | 13 => (pair u32 string).decAs (fun p => titleChanged p.1 p.2) bytes
  | 15 => (pair u32 (pair string string)).decAs
      (fun p => desktopNotification p.1 p.2.1 p.2.2) bytes
  | 16 => (pair u32 string).decAs (fun p => clipboardWriteRequest p.1 p.2) bytes
  | 28 => (pair u32 mark).decAs (fun p => semanticMark p.1 p.2.1 p.2.2.1 p.2.2.2) bytes
  | 29 => (pair u32 string).decAs (fun p => cwdChanged p.1 p.2) bytes
  | 40 => (pair u32 string).decAs (fun p => pointerShapeChanged p.1 p.2) bytes
  | 41 => (pair u32 colors).decAs (fun p => paneColorsChanged p.1 p.2) bytes
  | 42 => (pair u32 (pair byte byte)).decAs (fun p => progressChanged p.1 p.2.1 p.2.2) bytes
  | _ => none

theorem readFields_fields (m : ServerToClient) (rest : List UInt8) :
    readFields m.variant (m.fields ++ rest) = some (m, rest) := by
  cases m <;> simp only [variant, fields, readFields, decAs_enc]

/-- A message. -/
def codec : Codec ServerToClient := tagged variant fields readFields readFields_fields

theorem length_fields (m : ServerToClient) :
    m.fields.length = varintLen m.paneId.toNat + m.fieldsLen := by
  cases m <;> simp [fields, paneId, fieldsLen, stringLen]

theorem length_codec (m : ServerToClient) : (codec.enc m).length = m.wireLen := by
  have hvariant : m.variant < 128 := by
    cases m <;> simp [variant]
  rw [codec, length_tagged, length_fields, varintLen_small hvariant, wireLen]

end ServerToClient

/-- A `postcard` of the documented format. -/
def postcard : Postcard where
  encode := ServerToClient.codec.enc
  decode bytes := (ServerToClient.codec.dec bytes).map Prod.fst
  decode_encode m := by
    have hdec := ServerToClient.codec.dec_enc m []
    rw [List.append_nil] at hdec
    rw [hdec]
    rfl
  length_encode := ServerToClient.length_codec

end Nexterm.Ipc

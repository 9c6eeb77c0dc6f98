/-
  What a Sixel image shows (`image.rs`, `decode_sixel`).

  * `commands`: the input as a sequence of Sixel commands.
  * `Pen`: the palette, the current color and the position that a command finds; `Paints`: the
    pixels that it paints; `LastPainted`: the color in which a pixel was last painted.
  * `Shows.loop`: the decoder keeps, of each pixel, the color in which it was last painted.
  * `decodeSixel_paints`: the decoder terminates without an index out of range, and the image it
    returns shows what the commands paint.
-/
import Mathlib.Logic.Function.Basic
import Nexterm.Vt.SixelIndex

namespace Nexterm.Vt.Sixel

/-! ## Commands -/

/-- A Sixel command. -/
inductive Command where
  /-- Color definition -/
  | define (n : ℕ) (color : Rgb)
  /-- Color selection -/
  | select (n : ℕ)
  /-- Graphics Carriage Return -/
  | carriageReturn
  /-- Graphics New Line -/
  | newLine
  /-- Pixel data: `count` equal columns of six vertical bits -/
  | columns (count : ℕ) (bits : UInt8)

/-- The color of a register that was never defined, and of an HLS definition. -/
def gray : Rgb := (200, 200, 200)

/-- The definition that a `#` with these fields makes. -/
def definition (n : ℕ) : List ℕ → List Command
  | [2, p1, p2, p3] => [.define n (percent p1, percent p2, percent p3)]
  | [1, _, _, _] => [.define n gray]
  | _ => []

/-- The commands of a `#`, and the data after them. -/
def colorCommands : Option ℕ × List UInt8 → List Command × List UInt8
  | (none, data) => ([], data)
  | (some n, data) => (definition n (parseFields 4 data).1 ++ [.select n], (parseFields 4 data).2)

/-- The command of a `!` and a count; a byte that is no column is passed over. -/
def repeatCommands (count : ℕ) : List UInt8 → List Command × List UInt8
  | [] => ([], [])
  | ch :: data => (if isColumn ch then [.columns count (ch - 0x3f)] else [], data)

/-- The commands that start with a byte, and the data after them. -/
def nextCommands (b : UInt8) (data : List UInt8) : List Command × List UInt8 :=
  if b = 0x23 then colorCommands (parseDecimal data)
  else if b = 0x24 then ([.carriageReturn], data)
  else if b = 0x2d then ([.newLine], data)
  else if b = 0x21 then repeatCommands ((parseDecimal data).1.getD 1) (parseDecimal data).2
  else if isColumn b then ([.columns 1 (b - 0x3f)], data)
  else ([], data)

theorem length_colorCommands (out : Option ℕ × List UInt8) :
    (colorCommands out).2.length ≤ out.2.length := by
  obtain ⟨_ | n, data⟩ := out
  · exact le_rfl
  · exact length_parseFields 4 data

theorem length_repeatCommands (count : ℕ) (data : List UInt8) :
    (repeatCommands count data).2.length ≤ data.length := by
  cases data with
  | nil => exact le_rfl
  | cons ch data => exact Nat.le_succ _

theorem length_nextCommands (b : UInt8) (data : List UInt8) :
    (nextCommands b data).2.length ≤ data.length := by
  have hdec := length_parseDecimal data
  unfold nextCommands
  split_ifs
  · exact (length_colorCommands _).trans hdec
  · exact le_rfl
  · exact le_rfl
  · exact (length_repeatCommands _ _).trans hdec
  · exact le_rfl
  · exact le_rfl

/-- The input as a sequence of commands. -/
def commands : List UInt8 → List Command
  | [] => []
  | b :: data => (nextCommands b data).1 ++ commands (nextCommands b data).2
termination_by data => data.length
decreasing_by
  exact Nat.lt_succ_of_le (length_nextCommands b data)

/-! ## What the commands paint -/

/-- What a command finds: the palette, the current color, the column and the band. -/
structure Pen where
  palette : ℕ → Rgb
  current : ℕ
  x : ℕ
  band : ℕ

namespace Pen

/-- The pen before the first command. -/
def start : Pen := ⟨fun n => (defaultSixelPalette.lookup n).getD gray, 0, 0, 0⟩

/-- The current color. -/
def color (p : Pen) : Rgb := p.palette p.current

/-- What a command leaves. -/
def run (p : Pen) : Command → Pen
  | .define n color => { p with palette := Function.update p.palette n color }
  | .select n => { p with current := n }
  | .carriageReturn => { p with x := 0 }
  | .newLine => { p with x := 0, band := p.band + 1 }
  | .columns count _ => { p with x := p.x + count }

/-- The pen after a sequence of commands. -/
def after (cmds : List Command) : Pen := cmds.foldl run start

theorem after_snoc (cmds : List Command) (c : Command) : after (cmds ++ [c]) = (after cmds).run c := by
  rw [after, List.foldl_append]
  rfl

end Pen

/-- A row of a band whose bit is set. -/
def Covers (band : ℕ) (bits : UInt8) (row : ℕ) : Prop :=
  ∃ bit < 6, row = band * 6 + bit ∧ bits.toNat.testBit bit

/-- The pixels that a command paints. -/
def Command.Paints (p : Pen) (row col : ℕ) : Command → Prop
  | columns count bits => (p.x ≤ col ∧ col < p.x + count) ∧ Covers p.band bits row
  | _ => False

/-- A pixel that a command paints. -/
def Painted (row col : ℕ) (cmds : List Command) : Prop :=
  ∃ before c after, cmds = before ++ c :: after ∧ c.Paints (Pen.after before) row col

/-- The current color of the last command that paints a pixel. -/
inductive LastPainted (row col : ℕ) : List Command → Rgb → Prop where
  | now {cmds : List Command} {c : Command} : c.Paints (Pen.after cmds) row col →
      LastPainted row col (cmds ++ [c]) (Pen.after cmds).color
  | kept {cmds : List Command} {c : Command} {color : Rgb} : LastPainted row col cmds color →
      ¬ c.Paints (Pen.after cmds) row col → LastPainted row col (cmds ++ [c]) color

theorem not_lastPainted_nil {row col : ℕ} {color : Rgb} : ¬ LastPainted row col [] color := by
  intro h
  generalize hnil : ([] : List Command) = cmds at h
  cases h <;> simp at hnil

theorem lastPainted_snoc {row col : ℕ} {cmds : List Command} {c : Command} {color : Rgb} :
    LastPainted row col (cmds ++ [c]) color ↔
      (c.Paints (Pen.after cmds) row col ∧ color = (Pen.after cmds).color) ∨
        (¬ c.Paints (Pen.after cmds) row col ∧ LastPainted row col cmds color) := by
  constructor
  · intro h
    generalize hcmds : cmds ++ [c] = cmds' at h
    cases h with
    | now hpaints =>
      obtain ⟨rfl, hc⟩ := List.append_inj' hcmds rfl
      obtain rfl := List.head_eq_of_cons_eq hc
      exact .inl ⟨hpaints, rfl⟩
    | kept hlast hpaints =>
      obtain ⟨rfl, hc⟩ := List.append_inj' hcmds rfl
      obtain rfl := List.head_eq_of_cons_eq hc
      exact .inr ⟨hpaints, hlast⟩
  · rintro (⟨hpaints, rfl⟩ | ⟨hpaints, hlast⟩)
    · exact .now hpaints
    · exact .kept hlast hpaints

/-- A pixel was painted at all if it was painted a last time. -/
theorem exists_lastPainted {row col : ℕ} {cmds : List Command} :
    (∃ color, LastPainted row col cmds color) ↔ Painted row col cmds := by
  constructor
  · rintro ⟨color, h⟩
    induction h with
    | @now cmds c hpaints => exact ⟨cmds, c, [], rfl, hpaints⟩
    | @kept cmds c color _ _ ih =>
      obtain ⟨before, c', after, rfl, hpaints⟩ := ih
      exact ⟨before, c', after ++ [c], by simp, hpaints⟩
  · rintro ⟨before, c, after, rfl, hpaints⟩
    induction after using List.reverseRecOn with
    | nil => exact ⟨_, .now hpaints⟩
    | append_singleton after c' ih =>
      obtain ⟨color, hlast⟩ := ih
      have hsnoc : before ++ c :: (after ++ [c']) = (before ++ c :: after) ++ [c'] := by simp
      rw [hsnoc]
      by_cases hpaints' : c'.Paints (Pen.after (before ++ c :: after)) row col
      · exact ⟨_, .now hpaints'⟩
      · exact ⟨color, .kept hlast hpaints'⟩

/-! ## The buffer -/

/-- A pixel of the buffer. -/
def pixel (buf : List PixelRow) (row col : ℕ) : Option Rgb := (buf.getD row []).getD col none

/-- A buffer that differs from another in the pixels of a set, which have one color. -/
def PaintedOver (buf buf' : List PixelRow) (S : ℕ → ℕ → Prop) (color : Rgb) : Prop :=
  ∀ row col, (S row col → pixel buf' row col = some color) ∧
    (¬ S row col → pixel buf' row col = pixel buf row col)

theorem PaintedOver.trans {buf₁ buf₂ buf₃ : List PixelRow} {S T : ℕ → ℕ → Prop} {color : Rgb}
    (h : PaintedOver buf₁ buf₂ S color) (h' : PaintedOver buf₂ buf₃ T color) :
    PaintedOver buf₁ buf₃ (fun row col => S row col ∨ T row col) color := by
  intro row col
  by_cases hT : T row col
  · exact ⟨fun _ => (h' row col).1 hT, fun hS => absurd (.inr hT) hS⟩
  · refine ⟨fun hS => ?_, fun hS => ?_⟩
    · rw [(h' row col).2 hT, (h row col).1 (hS.resolve_right hT)]
    · rw [(h' row col).2 hT, (h row col).2 fun hS' => hS (.inl hS')]

/-- A loop each of whose steps paints a set of pixels, over a buffer that is long enough. -/
theorem PaintedOver.range {f : List PixelRow → ℕ → List PixelRow} {S : ℕ → ℕ → ℕ → Prop}
    {c : Rgb} {m : ℕ} (n : ℕ)
    (hstep : ∀ buf, ∀ i < n, m ≤ buf.length →
      (f buf i).length = buf.length ∧ PaintedOver buf (f buf i) (S i) c)
    {buf : List PixelRow} (hbuf : m ≤ buf.length) :
    ((List.range n).foldl f buf).length = buf.length ∧
      PaintedOver buf ((List.range n).foldl f buf)
        (fun row col => ∃ i < n, S i row col) c := by
  induction n with
  | zero => exact ⟨rfl, fun row col => ⟨by simp, fun _ => rfl⟩⟩
  | succ n ih =>
    obtain ⟨hlen, hpaint⟩ := ih fun buf i hi => hstep buf i (Nat.lt_succ_of_lt hi)
    rw [List.range_succ, List.foldl_append, List.foldl_cons, List.foldl_nil]
    obtain ⟨hlen', hpaint'⟩ := hstep _ n n.lt_succ_self (hlen.symm ▸ hbuf)
    refine ⟨hlen'.trans hlen, ?_⟩
    have hsets : (fun row col => ∃ i < n + 1, S i row col) =
        fun row col => (∃ i < n, S i row col) ∨ S n row col := by
      funext row col
      simp only [Nat.lt_succ_iff_lt_or_eq, or_and_right, exists_or, exists_eq_left]
    rw [hsets]
    exact hpaint.trans hpaint'

theorem pixel_ensureBands (buf : List PixelRow) (band row col : ℕ) :
    pixel (ensureBands buf band) row col = pixel buf row col := by
  have hrow : (ensureBands buf band).getD row [] = buf.getD row [] := by
    simp only [ensureBands, List.getD_eq_getElem?_getD, List.getElem?_append,
      List.getElem?_replicate]
    split_ifs with hlt hnew
    · rfl
    · rw [List.getElem?_eq_none (not_lt.1 hlt)]
      rfl
    · rw [List.getElem?_eq_none (not_lt.1 hlt)]
  rw [pixel, hrow, pixel]

theorem length_ensureBands (buf : List PixelRow) (band : ℕ) :
    (band + 1) * 6 ≤ (ensureBands buf band).length := by
  simp only [ensureBands, List.length_append, List.length_replicate]
  omega

theorem getD_paintPixel (x : ℕ) (color : Rgb) (cells : PixelRow) (col : ℕ) :
    (paintPixel x color cells).getD col none =
      if col = x then some color else cells.getD col none := by
  have hgrown : x < (cells ++ List.replicate (x + 1 - cells.length) none).length := by
    simp only [List.length_append, List.length_replicate]
    omega
  simp only [paintPixel, List.getD_eq_getElem?_getD]
  by_cases hcol : col = x
  · subst hcol
    rw [if_pos rfl, List.getElem?_set_self hgrown]
    rfl
  · rw [if_neg hcol, List.getElem?_set_ne (Ne.symm hcol), List.getElem?_append]
    split_ifs with hlt
    · rfl
    · rw [List.getElem?_replicate, List.getElem?_eq_none (not_lt.1 hlt)]
      split_ifs <;> rfl

theorem paintedOver_modify {buf : List PixelRow} {r : ℕ} (hr : r < buf.length) (x : ℕ)
    (color : Rgb) :
    PaintedOver buf (buf.modify r (paintPixel x color)) (fun row col => row = r ∧ col = x) color := by
  intro row col
  by_cases hrow : row = r
  · subst hrow
    have hcells : (buf.modify row (paintPixel x color)).getD row [] =
        paintPixel x color (buf.getD row []) := by
      rw [List.getD_eq_getElem?_getD, List.getElem?_modify_eq, List.getD_eq_getElem?_getD,
        List.getElem?_eq_getElem hr]
      rfl
    simp only [pixel, hcells, getD_paintPixel, true_and]
    exact ⟨fun hcol => if_pos hcol, fun hcol => if_neg hcol⟩
  · have hcells : (buf.modify r (paintPixel x color)).getD row [] = buf.getD row [] := by
      rw [List.getD_eq_getElem?_getD, List.getElem?_modify_ne _ _ (Ne.symm hrow),
        List.getD_eq_getElem?_getD]
    simp only [pixel, hcells, hrow, false_and, false_implies, true_and, not_false_eq_true,
      true_implies]

theorem paintedOver_paintCol {buf : List PixelRow} {band : ℕ} (hbuf : (band + 1) * 6 ≤ buf.length)
    (x : ℕ) (bits : UInt8) (color : Rgb) :
    (paintCol buf x band bits color).length = buf.length ∧
      PaintedOver buf (paintCol buf x band bits color)
        (fun row col => Covers band bits row ∧ col = x) color := by
  have hrange := PaintedOver.range (m := (band + 1) * 6) (c := color)
    (f := fun buf bit => if bits.toNat.testBit bit then
      buf.modify (band * 6 + bit) (paintPixel x color) else buf)
    (S := fun bit row col => (row = band * 6 + bit ∧ bits.toNat.testBit bit) ∧ col = x) 6
    (by
      intro buf bit hbit hlen
      split_ifs with hset
      · refine ⟨List.length_modify .., fun row col => ?_⟩
        simp only [hset, and_true]
        exact paintedOver_modify (by omega) x color row col
      · exact ⟨rfl, fun row col => ⟨fun hS => absurd hS.1.2 hset, fun _ => rfl⟩⟩) hbuf
  have hsets : (fun row col => Covers band bits row ∧ col = x) = fun row col =>
      ∃ bit < 6, (row = band * 6 + bit ∧ bits.toNat.testBit bit) ∧ col = x := by
    funext row col
    simp only [Covers, ← and_assoc, exists_and_right]
  rw [hsets]
  exact hrange

/-! ## The decoder and the commands -/

/-- What the next command finds in a state of the decoder. -/
def pen (s : Sixel) : Pen := ⟨fun n => (s.palette.lookup n).getD gray, s.currentColor, s.x, s.band⟩

/-- The state of the decoder after a sequence of commands. -/
structure Shows (s : Sixel) (cmds : List Command) : Prop where
  pen : s.pen = Pen.after cmds
  pixels : ∀ row col color, pixel s.buf row col = some color ↔ LastPainted row col cmds color

theorem shows_start : Shows start [] := by
  refine ⟨rfl, fun row col color => ?_⟩
  have hblank : pixel start.buf row col = none := by
    cases row <;> rfl
  rw [hblank]
  exact ⟨nofun, fun h => absurd h not_lastPainted_nil⟩

/-- A command that paints nothing. -/
theorem Shows.quiet {s s' : Sixel} {cmds : List Command} {c : Command} (h : Shows s cmds)
    (hpen : s'.pen = s.pen.run c) (hbuf : ∀ row col, pixel s'.buf row col = pixel s.buf row col)
    (hc : ∀ p row col, ¬ c.Paints p row col) : Shows s' (cmds ++ [c]) := by
  refine ⟨by rw [hpen, h.pen, Pen.after_snoc], fun row col color => ?_⟩
  rw [lastPainted_snoc, hbuf]
  simp only [hc, h.pixels, false_and, not_false_eq_true, true_and, false_or]

theorem pen_enter (s : Sixel) (n : ℕ) (color : Rgb) :
    pen { s with palette := (n, color) :: s.palette } = s.pen.run (.define n color) := by
  have hpalette : (fun m => (((n, color) :: s.palette).lookup m).getD gray) =
      Function.update s.pen.palette n color := by
    funext m
    by_cases hm : m = n
    · subst hm
      rw [List.lookup_cons_self, Function.update_self, Option.getD_some]
    · rw [List.lookup_cons, beq_false_of_ne hm, Function.update_of_ne hm]
      rfl
  rw [pen, hpalette]
  rfl

theorem Shows.define {s : Sixel} {cmds : List Command} (h : Shows s cmds) (n : ℕ)
    (fields : List ℕ) : Shows (s.define n fields) (cmds ++ definition n fields) := by
  rcases fields with _ | ⟨_ | _ | _ | kind, _ | ⟨p1, _ | ⟨p2, _ | ⟨p3, _ | ⟨p4, fields⟩⟩⟩⟩⟩
  case cons.succ.zero.cons.cons.cons.nil =>
    exact h.quiet (pen_enter s n gray) (fun _ _ => rfl) fun _ _ _ => not_false
  case cons.succ.succ.zero.cons.cons.cons.nil =>
    exact h.quiet (pen_enter s n _) (fun _ _ => rfl) fun _ _ _ => not_false
  all_goals
    rw [definition, List.append_nil]
    · exact h
    all_goals simp

theorem Shows.select {s : Sixel} {cmds : List Command} (h : Shows s cmds) (n : ℕ) :
    Shows { s with currentColor := n } (cmds ++ [.select n]) :=
  h.quiet rfl (fun _ _ => rfl) fun _ _ _ => not_false

theorem Shows.carriageReturn {s : Sixel} {cmds : List Command} (h : Shows s cmds) :
    Shows { s with x := 0 } (cmds ++ [.carriageReturn]) :=
  h.quiet rfl (fun _ _ => rfl) fun _ _ _ => not_false

theorem Shows.newLine {s s' : Sixel} {cmds : List Command} (h : Shows s cmds)
    (hnew : s.newLine = some s') : Shows s' (cmds ++ [.newLine]) := by
  unfold Sixel.newLine at hnew
  dsimp only at hnew
  split_ifs at hnew
  obtain rfl := Option.some.inj hnew
  exact h.quiet rfl (pixel_ensureBands s.buf (s.band + 1)) fun _ _ _ => not_false

/-- The pixels of a run of columns are painted over. -/
theorem paintedOver_paint (s : Sixel) (ch : UInt8) (count : ℕ) :
    PaintedOver s.buf (s.paint ch count).buf
      (fun row col => (s.x ≤ col ∧ col < s.x + count) ∧ Covers s.band (ch - 0x3f) row) s.color := by
  obtain ⟨-, hpaint⟩ := PaintedOver.range (m := (s.band + 1) * 6) (c := s.color)
    (f := fun buf i => paintCol buf (s.x + i) s.band (ch - 0x3f) s.color)
    (S := fun i row col => Covers s.band (ch - 0x3f) row ∧ col = s.x + i) count
    (fun buf i _ hlen => paintedOver_paintCol hlen (s.x + i) (ch - 0x3f) s.color)
    (length_ensureBands s.buf s.band)
  intro row col
  have hset : (∃ i < count, Covers s.band (ch - 0x3f) row ∧ col = s.x + i) ↔
      (s.x ≤ col ∧ col < s.x + count) ∧ Covers s.band (ch - 0x3f) row := by
    constructor
    · rintro ⟨i, hi, hrow, rfl⟩
      exact ⟨⟨by omega, by omega⟩, hrow⟩
    · rintro ⟨⟨hle, hlt⟩, hrow⟩
      exact ⟨col - s.x, by omega, hrow, by omega⟩
  dsimp only
  rw [← hset, ← pixel_ensureBands s.buf s.band]
  exact hpaint row col

theorem Shows.paint {s : Sixel} {cmds : List Command} (h : Shows s cmds) (ch : UInt8) (count : ℕ) :
    Shows (s.paint ch count) (cmds ++ [.columns count (ch - 0x3f)]) := by
  have hpen : (s.paint ch count).pen = s.pen.run (.columns count (ch - 0x3f)) := rfl
  refine ⟨by rw [hpen, h.pen, Pen.after_snoc], fun row col color => ?_⟩
  have hpaint : ((Command.columns count (ch - 0x3f)).Paints s.pen row col → _) ∧
      (¬ (Command.columns count (ch - 0x3f)).Paints s.pen row col → _) :=
    paintedOver_paint s ch count row col
  have hcolor : s.color = (Pen.after cmds).color := by
    rw [← h.pen]
    rfl
  rw [h.pen] at hpaint
  rw [lastPainted_snoc]
  by_cases hpaints : (Command.columns count (ch - 0x3f)).Paints (Pen.after cmds) row col
  · simp only [hpaint.1 hpaints, hpaints, hcolor, Option.some.injEq, true_and, not_true_eq_false,
      false_and, or_false]
    exact eq_comm
  · simp only [hpaint.2 hpaints, hpaints, h.pixels, false_and, not_false_eq_true, true_and,
      false_or]

theorem Shows.colorCommands {s s' : Sixel} {cmds : List Command} {out : Option ℕ × List UInt8}
    {rest : List UInt8} (h : Shows s cmds) (hselect : s.select out = (s', rest)) :
    Shows s' (cmds ++ (colorCommands out).1) ∧ rest = (colorCommands out).2 := by
  obtain ⟨_ | n, data⟩ := out
  · cases hselect
    exact ⟨by rwa [Sixel.colorCommands, List.append_nil], rfl⟩
  · cases hselect
    have hboth := (h.define n (parseFields 4 data).1).select n
    rw [List.append_assoc] at hboth
    exact ⟨hboth, rfl⟩

theorem Shows.repeatCommands {s s' : Sixel} {cmds : List Command} {count : ℕ}
    {data rest : List UInt8} (h : Shows s cmds)
    (hrep : s.repeatColumn count data = some (s', rest)) :
    Shows s' (cmds ++ (repeatCommands count data).1) ∧ rest = (repeatCommands count data).2 := by
  cases data with
  | nil =>
    cases hrep
    exact ⟨by rwa [Sixel.repeatCommands, List.append_nil], rfl⟩
  | cons ch data =>
    rw [repeatColumn] at hrep
    rw [Sixel.repeatCommands]
    split_ifs at hrep ⊢
    · cases hrep
      exact ⟨h.paint ch count, rfl⟩
    · cases hrep
      exact ⟨by rwa [List.append_nil], rfl⟩

/-- One command of the decoder. -/
theorem Shows.step {s s' : Sixel} {cmds : List Command} {b : UInt8} {data rest : List UInt8}
    (h : Shows s cmds) (hstep : s.step b data = some (s', rest)) :
    Shows s' (cmds ++ (nextCommands b data).1) ∧ rest = (nextCommands b data).2 := by
  unfold Sixel.step at hstep
  unfold nextCommands
  split_ifs at hstep ⊢
  · exact h.colorCommands (Option.some.inj hstep)
  · cases hstep
    exact ⟨h.carriageReturn, rfl⟩
  · obtain ⟨s'', hnew, heq⟩ := Option.map_eq_some_iff.1 hstep
    cases heq
    exact ⟨h.newLine hnew, rfl⟩
  · exact h.repeatCommands hstep
  · cases hstep
    exact ⟨h.paint b 1, rfl⟩
  · cases hstep
    exact ⟨by rwa [List.append_nil], rfl⟩

/-- **The buffer keeps**, of each pixel, the color in which it was last painted. -/
theorem Shows.loop {s s' : Sixel} {cmds : List Command} {data : List UInt8} (h : Shows s cmds)
    (hloop : sixelLoop s data = some s') : Shows s' (cmds ++ commands data) := by
  fun_induction sixelLoop s data generalizing cmds with
  | case1 s =>
    cases hloop
    rwa [commands, List.append_nil]
  | case2 s b data hstep => cases hloop
  | case3 s b data s'' rest hstep ih =>
    obtain ⟨hnext, rfl⟩ := h.step hstep
    rw [commands, ← List.append_assoc]
    exact ih hnext hloop

/-! ## The image -/

/-- A block of a list of blocks of equal length. -/
theorem take_drop_flatMap {α β : Type} {f : α → List β} {k : ℕ} (hf : ∀ a, (f a).length = k)
    (l : List α) : ∀ {i : ℕ} (hi : i < l.length), ((l.flatMap f).drop (i * k)).take k = f l[i] := by
  induction l with
  | nil =>
    intro i hi
    exact absurd hi (Nat.not_lt_zero i)
  | cons a l ih =>
    intro i hi
    cases i with
    | zero => rw [Nat.zero_mul, List.drop_zero, List.flatMap_cons, List.take_left' (hf a)]; rfl
    | succ i =>
      have hdrop : ((a :: l).flatMap f).drop ((i + 1) * k) = (l.flatMap f).drop (i * k) := by
        rw [List.flatMap_cons, Nat.succ_mul, Nat.add_comm, ← List.drop_drop, List.drop_left' (hf a)]
      rw [hdrop]
      exact ih (Nat.lt_of_succ_lt_succ hi)

/-- The four bytes of a pixel of the image. -/
def pixelBytes (img : DecodedImage) (row col : ℕ) : List UInt8 :=
  (img.rgba.drop ((row * img.width.toNat + col) * 4)).take 4

theorem take_drop_pixels (buf : List PixelRow) {width height row col : ℕ} (hrow : row < height)
    (hcol : col < width) :
    ((((List.range height).flatMap fun row => (List.range width).flatMap fun col =>
        rgbaPixel ((buf.getD row []).getD col none)).drop ((row * width + col) * 4)).take 4) =
      rgbaPixel (pixel buf row col) := by
  have hrowlen : ∀ row, ((List.range width).flatMap fun col =>
      rgbaPixel ((buf.getD row []).getD col none)).length = width * 4 := by
    intro row
    simp only [List.length_flatMap, length_rgbaPixel, List.map_const', List.length_range,
      List.sum_replicate, smul_eq_mul]
  have hline := take_drop_flatMap hrowlen (List.range height) (i := row) (by simpa using hrow)
  have hcell := take_drop_flatMap (fun col => length_rgbaPixel ((buf.getD row []).getD col none))
    (List.range width) (i := col) (by simpa using hcol)
  rw [List.getElem_range] at hline hcell
  rw [← hline, List.drop_take, List.take_take, List.drop_drop] at hcell
  have hmin : min 4 (width * 4 - col * 4) = 4 := by omega
  have hat : row * (width * 4) + col * 4 = (row * width + col) * 4 := by ring
  rwa [hmin, hat] at hcell

/-- **A Sixel image**.  The decoder terminates without an index out of range; an image has sides
    within the maximum and four bytes per pixel; and a pixel has the color in which the commands of
    the input painted it last, opaque, or is fully transparent if none of them painted it. -/
theorem decodeSixel_paints (data : List UInt8) :
    decodeSixelAt data = some (decodeSixel data) ∧
      ∀ img, decodeSixel data = some img →
        img.width.toNat ≤ maxSixelDimension ∧ img.height.toNat ≤ maxSixelDimension ∧
        img.rgba.length = img.width.toNat * img.height.toNat * 4 ∧
        ∀ row < img.height.toNat, ∀ col < img.width.toNat,
          (∀ r g b, LastPainted row col (commands data) (r, g, b) →
            pixelBytes img row col = [r, g, b, 255]) ∧
          (¬ Painted row col (commands data) → pixelBytes img row col = [0, 0, 0, 0]) := by
  refine ⟨decodeSixelAt_eq data, fun img himg => ?_⟩
  obtain ⟨hwidth, hheight, hlen⟩ := decodeSixel_size himg
  refine ⟨hwidth, hheight.trans (by decide), hlen, fun row hrow col hcol => ?_⟩
  obtain ⟨s, hloop, hdecoded⟩ := Option.bind_eq_some_iff.1 himg
  have hshows : Shows s (commands data) := shows_start.loop hloop
  have hbytes : pixelBytes img row col = rgbaPixel (pixel s.buf row col) := by
    have hsmall := small_start.loop hloop
    have hx := hsmall.maxX
    have hband := hsmall.maxBand
    unfold maxSixelDimension at hx hband
    dsimp only at hdecoded
    split_ifs at hdecoded
    obtain ⟨n, -, rfl⟩ := Option.map_eq_some_iff.1 hdecoded
    have hw : s.maxX.toUInt32.toNat = s.maxX := Nat.mod_eq_of_lt (by omega)
    have hh : ((s.maxBand + 1) * 6).toUInt32.toNat = (s.maxBand + 1) * 6 :=
      Nat.mod_eq_of_lt (by omega)
    rw [hw] at hcol
    rw [hh] at hrow
    rw [pixelBytes, hw]
    exact take_drop_pixels s.buf hrow hcol
  rw [hbytes]
  constructor
  · intro r g b hlast
    rw [(hshows.pixels row col (r, g, b)).2 hlast]
    rfl
  · intro hnever
    cases hpixel : pixel s.buf row col with
    | none => rfl
    | some color =>
      have hlast := (hshows.pixels row col color).1 hpixel
      exact absurd (exists_lastPainted.1 ⟨color, hlast⟩) hnever

end Nexterm.Vt.Sixel

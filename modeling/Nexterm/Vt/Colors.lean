/-
  Dynamic colors: OSC 4, 10, 11, 104, 110 and 111 (`colors.rs`, `screen.rs`, `performer.rs`).

  * `parse_formatRgbReply`: the color of a reply is read back.
  * `ColorRequest`, `colorRequests`: what an OSC sequence sets, resets and asks for.
  * `lastSet`: the color of the last set that no later reset covers.
  * `Step`, `Run`: sequences of events, of drains by the reader thread, and of configured defaults.
  * `dynamic_colors`: queries answer the last set, and the client has the overrides of the screen
    after every drain.
-/
import Nexterm.Lib.Maps
import Nexterm.Vt.Pending

namespace Nexterm.Vt

open Runs

/-! ## Replies -/

theorem hexDigit_digitChar {n : ℕ} (hn : n < 16) : hexDigit (Nat.digitChar n) = some n := by
  have hall : ∀ n < 16, hexDigit (Nat.digitChar n) = some n := by decide
  exact hall n hn

theorem digitChar_plain {n : ℕ} (hn : n < 16) :
    isWhitespace (Nat.digitChar n) = false ∧ Nat.digitChar n ≠ '/' := by
  have hall : ∀ n < 16, isWhitespace (Nat.digitChar n) = false ∧ Nat.digitChar n ≠ '/' := by decide
  exact hall n hn

/-- The two digits of a byte. -/
def digits (b : UInt8) : List Char := [Nat.digitChar (b.toNat / 16), Nat.digitChar (b.toNat % 16)]

/-- A channel that repeats a byte is scaled back to it. -/
theorem parseRgbChannel_repeated (b : UInt8) :
    parseRgbChannel (String.ofList (digits b ++ digits b)) = some b := by
  have hb := b.toNat_lt
  have hhi := hexDigit_digitChar (n := b.toNat / 16) (by omega)
  have hlo := hexDigit_digitChar (n := b.toNat % 16) (by omega)
  have hvalue : hexValue (digits b ++ digits b) = some (b.toNat * 257) := by
    have hdigits : (digits b ++ digits b).mapM hexDigit =
        some [b.toNat / 16, b.toNat % 16, b.toNat / 16, b.toNat % 16] := by
      simp only [digits, List.cons_append, List.nil_append, List.mapM_cons, List.mapM_nil, hhi, hlo,
        Option.bind_eq_bind, Option.bind_some, Option.pure_def]
    rw [hexValue, hdigits, Option.map_some, Option.some.injEq]
    simp only [List.foldl_cons, List.foldl_nil]
    omega
  have hlen : ¬(digits b ++ digits b = [] ∨ (digits b ++ digits b).length > 4) := by
    simp [digits]
  have hscale : (b.toNat * 257 * 255 + (2 ^ (4 * 4) - 1) / 2) / (2 ^ (4 * 4) - 1) = b.toNat := by
    omega
  rw [parseRgbChannel, String.toList_ofList]
  dsimp only
  rw [if_neg hlen, hvalue, Option.map_some]
  show some (UInt8.ofNat ((b.toNat * 257 * 255 + (2 ^ (4 * 4) - 1) / 2) / (2 ^ (4 * 4) - 1))) = some b
  rw [hscale, UInt8.ofNat_toNat]

theorem toList_hexByte (b : UInt8) : (hexByte b).toList = digits b := String.toList_ofList

theorem toList_formatRgbReply (c : Rgb) : (formatRgbReply c).toList =
    'r' :: 'g' :: 'b' :: ':' :: ((digits c.1 ++ digits c.1) ++
      '/' :: ((digits c.2.1 ++ digits c.2.1) ++ '/' :: (digits c.2.2 ++ digits c.2.2))) := by
  have hscheme : ("rgb:").toList = ['r', 'g', 'b', ':'] := rfl
  have hslash : ("/").toList = ['/'] := rfl
  unfold formatRgbReply
  rw [String.toList_append, String.toList_append, String.toList_append, String.toList_append,
    String.toList_append, String.toList_append, String.toList_append, String.toList_append,
    toList_hexByte, toList_hexByte, toList_hexByte, hscheme, hslash]
  simp only [List.append_assoc, List.cons_append, List.nil_append]

/-- A text without whitespace at its ends. -/
theorem trim_eq_self {s : String} {first last : Char} {mid : List Char}
    (h : s.toList = first :: (mid ++ [last])) (hfirst : isWhitespace first = false)
    (hlast : isWhitespace last = false) : trim s = s := by
  have hleft : s.toList.dropWhile isWhitespace = s.toList := by
    rw [h, List.dropWhile_cons_of_neg (by simp [hfirst])]
  have hright : s.toList.reverse.dropWhile isWhitespace = s.toList.reverse := by
    rw [h, ← List.cons_append, List.reverse_append, List.reverse_singleton, List.singleton_append,
      List.dropWhile_cons_of_neg (by simp [hlast])]
  rw [trim, hleft, hright, List.reverse_reverse, String.ofList_toList]

/-- The digits of a color are split at the slashes. -/
theorem splitAt_digits {r g b : List Char} (hr : '/' ∉ r) (hg : '/' ∉ g) (hb : '/' ∉ b) :
    splitAt '/' (String.ofList (r ++ '/' :: (g ++ '/' :: b))) =
      [String.ofList r, String.ofList g, String.ofList b] := by
  rw [splitAt, String.toList_ofList, List.splitOn_append_cons_self_of_not_mem hr,
    List.splitOn_append_cons_self_of_not_mem hg, List.splitOn_eq_singleton hb]
  rfl

theorem slash_notMem_digits (b : UInt8) : '/' ∉ digits b ++ digits b := by
  have hb := b.toNat_lt
  have hhi := (digitChar_plain (n := b.toNat / 16) (by omega)).2
  have hlo := (digitChar_plain (n := b.toNat % 16) (by omega)).2
  simp [digits, hhi.symm, hlo.symm]

theorem parseColorSpec_rgb {spec : String} {body : List Char} {r g b : String}
    (h : (trim spec).toList = 'r' :: 'g' :: 'b' :: ':' :: body)
    (hbody : splitAt '/' (String.ofList body) = [r, g, b]) :
    parseColorSpec spec = (do
      let r ← parseRgbChannel r
      let g ← parseRgbChannel g
      let b ← parseRgbChannel b
      some (r, g, b)) := by
  rw [parseColorSpec, h]
  simp only [hbody]

/-- **The color of a reply is read back.** -/
theorem parse_formatRgbReply (c : Rgb) : parseColorSpec (formatRgbReply c) = some c := by
  obtain ⟨r, g, b⟩ := c
  have htext := toList_formatRgbReply (r, g, b)
  have hb := b.toNat_lt
  have hends : (formatRgbReply (r, g, b)).toList = 'r' :: (('g' :: 'b' :: ':' ::
      ((digits r ++ digits r) ++ '/' :: ((digits g ++ digits g) ++ '/' :: (digits b ++
        [Nat.digitChar (b.toNat / 16)])))) ++ [Nat.digitChar (b.toNat % 16)]) := by
    rw [htext]
    simp [digits]
  have htrim : trim (formatRgbReply (r, g, b)) = formatRgbReply (r, g, b) :=
    trim_eq_self hends (by decide) (digitChar_plain (by omega)).1
  rw [← htrim] at htext
  rw [parseColorSpec_rgb htext
    (splitAt_digits (slash_notMem_digits r) (slash_notMem_digits g) (slash_notMem_digits b))]
  simp only [parseRgbChannel_repeated, Option.bind_eq_bind, Option.bind_some]

/-! ## Slots and changes -/

/-- What has a color of its own. -/
inductive Slot
  | palette (index : UInt8)
  | fg
  | bg
  deriving DecidableEq

/-- What the sequences for colors do. -/
inductive ColorChange
  | set (slot : Slot) (color : Rgb)
  | reset (slot : Slot)
  | resetPalette
  deriving DecidableEq

namespace ColorChange

/-- Whether a change is about a slot. -/
def covers : ColorChange → Slot → Bool
  | set slot' _, slot => slot' = slot
  | reset slot', slot => slot' = slot
  | resetPalette, .palette _ => true
  | resetPalette, _ => false

/-- The color that a slot has by a change that covers it. -/
def color : ColorChange → Option Rgb
  | set _ color => some color
  | reset _ | resetPalette => none

end ColorChange

/-- The color of the last set of a slot, if no later reset covers the slot. -/
def lastSet (history : List ColorChange) (slot : Slot) : Option Rgb :=
  (history.reverse.find? (·.covers slot)).bind ColorChange.color

theorem lastSet_snoc (history : List ColorChange) (c : ColorChange) (slot : Slot) :
    lastSet (history ++ [c]) slot = if c.covers slot then c.color else lastSet history slot := by
  rw [lastSet, List.reverse_append, List.reverse_singleton, List.singleton_append, List.find?_cons]
  cases c.covers slot with
  | true => rfl
  | false => rfl

/-- What the last set is. -/
theorem lastSet_eq_some {history : List ColorChange} {slot : Slot} {color : Rgb} :
    lastSet history slot = some color ↔ ∃ before after : List ColorChange,
      history = before ++ .set slot color :: after ∧ ∀ c ∈ after, c.covers slot = false := by
  induction history using List.reverseRecOn with
  | nil => simp [lastSet]
  | append_singleton history c ih =>
    rw [lastSet_snoc]
    constructor
    · intro h
      cases hc : c.covers slot with
      | true =>
        rw [hc, if_pos rfl] at h
        refine ⟨history, [], ?_, by simp⟩
        cases c with
        | set slot' color' =>
          obtain rfl := of_decide_eq_true hc
          obtain rfl := Option.some.inj h
          rfl
        | reset slot' => cases h
        | resetPalette => cases h
      | false =>
        rw [hc, if_neg Bool.false_ne_true] at h
        obtain ⟨before, after, rfl, hafter⟩ := ih.1 h
        refine ⟨before, after ++ [c], by simp, ?_⟩
        intro d hd
        rcases List.mem_append.1 hd with hd | hd
        · exact hafter d hd
        · obtain rfl := List.mem_singleton.1 hd
          exact hc
    · rintro ⟨before, after, heq, hafter⟩
      rcases List.eq_nil_or_concat after with rfl | ⟨after, d, rfl⟩
      · obtain ⟨rfl, hc⟩ := List.append_inj' heq rfl
        obtain rfl := List.singleton_inj.1 hc
        have hcovers : (ColorChange.set slot color).covers slot = true := decide_eq_true rfl
        rw [hcovers, if_pos rfl]
        rfl
      · rw [List.concat_eq_append, ← List.cons_append, ← List.append_assoc] at heq
        obtain ⟨rfl, hd⟩ := List.append_inj' heq rfl
        obtain rfl := List.singleton_inj.1 hd
        rw [hafter c (by simp), if_neg Bool.false_ne_true]
        exact ih.2 ⟨before, after, rfl, fun d hd => hafter d (by simp [hd])⟩

/-- The color of a slot without a dynamic one: from the builtin palette, or configured. -/
def slotDefault (configured : Rgb × Rgb) : Slot → Rgb
  | .palette index => builtinPaletteColor index
  | .fg => configured.1
  | .bg => configured.2

namespace Pending

/-- The dynamic color of a slot. -/
def override (q : Pending) : Slot → Option Rgb
  | .palette index => q.paletteOverrides[index]?
  | .fg => q.dynamicFg
  | .bg => q.dynamicBg

/-- The color of a slot without a dynamic one. -/
def defaultColor (q : Pending) : Slot → Rgb := slotDefault (q.configuredFg, q.configuredBg)

/-- Makes a change. -/
def applyChange (q : Pending) : ColorChange → Pending
  | .set (.palette index) color => q.setPaletteEntry index color
  | .set .fg color => q.setDynamicFg (some color)
  | .set .bg color => q.setDynamicBg (some color)
  | .reset (.palette index) => q.resetPaletteEntry index
  | .reset .fg => q.setDynamicFg none
  | .reset .bg => q.setDynamicBg none
  | .resetPalette => q.resetPaletteAll

theorem override_applyChange (q : Pending) (c : ColorChange) (slot : Slot) :
    (q.applyChange c).override slot = if c.covers slot then c.color else q.override slot := by
  rcases c with ⟨_ | _ | _, color⟩ | ⟨_ | _ | _⟩ | _ <;> rcases slot with index | _ | _ <;>
    simp [applyChange, override, ColorChange.covers, ColorChange.color, setPaletteEntry,
      resetPaletteEntry, resetPaletteAll, setDynamicFg, setDynamicBg, Std.ExtTreeMap.getElem?_insert,
      Std.ExtTreeMap.getElem?_erase]

end Pending

/-! ## Requests -/

/-- What a part of a sequence asks for. -/
inductive ColorRequest
  | change (c : ColorChange)
  | query (slot : Slot)
  deriving DecidableEq

/-- The change of a request. -/
def ColorRequest.change? : ColorRequest → Option ColorChange
  | change c => some c
  | query _ => none

/-- A color for a slot, or a query. -/
def slotRequest (slot : Slot) (spec : String) : Option ColorRequest :=
  if trim spec = "?" then some (.query slot)
  else (parseColorSpec spec).map fun color => .change (.set slot color)

/-- The index of a parameter. -/
def paletteIndex (raw : List UInt8) : Option UInt8 := (fromUtf8 raw).bind fun s => parseU8 (trim s)

/-- The request of a pair of OSC 4. -/
def pairRequest (index spec : List UInt8) : Option ColorRequest :=
  (paletteIndex index).bind fun index => (fromUtf8 spec).bind (slotRequest (.palette index))

/-- The requests of OSC 4. -/
def pairRequests : List (List UInt8) → List ColorRequest
  | index :: spec :: args => (pairRequest index spec).toList ++ pairRequests args
  | _ => []

/-- The resets of OSC 104. -/
def resetRequests (args : List (List UInt8)) : List ColorRequest :=
  if args = [] then [.change .resetPalette]
  else args.filterMap fun raw => (paletteIndex raw).map fun index => .change (.reset (.palette index))

/-- What a sequence for colors asks for, one request after the other; `none` for the other
    sequences. -/
def colorRequests : List (List UInt8) → Option (List ColorRequest)
  | [] => none
  | codeBytes :: args =>
    match (fromUtf8 codeBytes).map trim with
    | none => none
    | some code =>
      if code = "4" then some (pairRequests args)
      else if code = "10" then some ((args[0]?.bind fromUtf8).bind (slotRequest .fg)).toList
      else if code = "11" then some ((args[0]?.bind fromUtf8).bind (slotRequest .bg)).toList
      else if code = "104" then some (resetRequests args)
      else if code = "110" then some [.change (.reset .fg)]
      else if code = "111" then some [.change (.reset .bg)]
      else none

/-- How a reply names a slot. -/
def Slot.name : Slot → String
  | .palette index => "4;" ++ toString index
  | .fg => "10"
  | .bg => "11"

/-- The reply to a query. -/
def Slot.reply (slot : Slot) (bellTerminated : Bool) (color : Rgb) : String :=
  "\x1b]" ++ slot.name ++ ";" ++ formatRgbReply color ++ Pending.oscTerminator bellTerminated

namespace Pending

/-- Meets a request: a change is made, a query answered with the color of the slot. -/
def handleRequest (bellTerminated : Bool) (q : Pending) : ColorRequest → Pending
  | .change c => q.applyChange c
  | .query slot =>
    q.pushPendingResponse
      (slot.reply bellTerminated ((q.override slot).getD (q.defaultColor slot)))

theorem foldl_toList {α β : Type} (f : β → α → β) (b : β) (a : Option α) :
    a.toList.foldl f b = (a.map (f b)).getD b := by
  cases a with
  | none => rfl
  | some a => rfl

theorem paletteRequest_eq (q : Pending) (bellTerminated : Bool) (index spec : List UInt8) :
    q.paletteRequest bellTerminated index spec =
      (pairRequest index spec).toList.foldl (handleRequest bellTerminated) q := by
  rw [foldl_toList, pairRequest, paletteRequest, ← paletteIndex]
  cases paletteIndex index with
  | none => rfl
  | some index =>
    cases fromUtf8 spec with
    | none => rfl
    | some spec =>
      simp only [Option.bind_some, slotRequest]
      by_cases hquery : trim spec = "?"
      · rw [if_pos hquery, if_pos hquery, Option.map_some, Option.getD_some, handleRequest,
          Slot.reply, Slot.name]
        simp only [String.append_assoc]
        rfl
      · rw [if_neg hquery, if_neg hquery]
        cases parseColorSpec spec with
        | none => rfl
        | some color => rfl

theorem paletteRequests_eq (bellTerminated : Bool) : ∀ (args : List (List UInt8)) (q : Pending),
    q.paletteRequests bellTerminated args =
      (pairRequests args).foldl (handleRequest bellTerminated) q
  | [], _ | [_], _ => rfl
  | index :: spec :: args, q => by
    rw [paletteRequests, paletteRequests_eq bellTerminated args, paletteRequest_eq, pairRequests,
      List.foldl_append]

theorem defaultColorRequest_eq {code : String} {slot : Slot}
    (h : code = "10" ∧ slot = .fg ∨ code = "11" ∧ slot = .bg) (q : Pending) (bellTerminated : Bool)
    (spec : String) : q.defaultColorRequest bellTerminated code spec =
      ((slotRequest slot spec).map (handleRequest bellTerminated q)).getD q := by
  unfold defaultColorRequest slotRequest
  by_cases hquery : trim spec = "?"
  · rw [if_pos hquery, if_pos hquery]
    obtain ⟨rfl, rfl⟩ | ⟨rfl, rfl⟩ := h <;> rfl
  · rw [if_neg hquery, if_neg hquery]
    cases parseColorSpec spec with
    | none => rfl
    | some color => obtain ⟨rfl, rfl⟩ | ⟨rfl, rfl⟩ := h <;> rfl

/-- OSC 10 and 11. -/
theorem defaultColors_eq {code : String} {slot : Slot}
    (h : code = "10" ∧ slot = .fg ∨ code = "11" ∧ slot = .bg) (q : Pending) (bellTerminated : Bool)
    (spec : Option String) :
    (spec.map (q.defaultColorRequest bellTerminated code)).getD q =
      (spec.bind (slotRequest slot)).toList.foldl (handleRequest bellTerminated) q := by
  rw [foldl_toList]
  cases spec with
  | none => rfl
  | some spec =>
    rw [Option.map_some, Option.getD_some, Option.bind_some]
    exact defaultColorRequest_eq h q bellTerminated spec

/-- OSC 104. -/
theorem resets_eq (q : Pending) (bellTerminated : Bool) (args : List (List UInt8)) :
    (if args = [] then q.resetPaletteAll
      else
        args.foldl (fun q raw =>
          (((fromUtf8 raw).bind fun s => parseU8 (trim s)).map q.resetPaletteEntry).getD q) q) =
      (resetRequests args).foldl (handleRequest bellTerminated) q := by
  unfold resetRequests
  split_ifs
  · rfl
  · rw [List.foldl_filterMap]
    congr 1
    funext q raw
    show ((paletteIndex raw).map q.resetPaletteEntry).getD q = _
    cases paletteIndex raw with
    | none => rfl
    | some index => rfl

/-- **The sequences for colors** meet their requests, one after the other. -/
theorem oscDispatch_colors {I : ImageCrate} {s : Screen} {params : List (List UInt8)}
    {requests : List ColorRequest} (h : colorRequests params = some requests) (q : Pending)
    (bellTerminated : Bool) :
    q.oscDispatch I s params bellTerminated =
      requests.foldl (handleRequest bellTerminated) q := by
  cases params with
  | nil => cases h
  | cons code args =>
    unfold colorRequests at h
    unfold oscDispatch
    dsimp only at h ⊢
    generalize (fromUtf8 code).map trim = name at h ⊢
    cases name with
    | none => cases h
    | some name =>
      dsimp only at h ⊢
      by_cases h4 : name = "4"
      · subst h4
        obtain rfl := Option.some.inj h
        exact paletteRequests_eq bellTerminated args q
      rw [if_neg h4] at h
      by_cases h10 : name = "10"
      · subst h10
        obtain rfl := Option.some.inj h
        exact defaultColors_eq (.inl ⟨rfl, rfl⟩) q bellTerminated _
      rw [if_neg h10] at h
      by_cases h11 : name = "11"
      · subst h11
        obtain rfl := Option.some.inj h
        exact defaultColors_eq (.inr ⟨rfl, rfl⟩) q bellTerminated _
      rw [if_neg h11] at h
      by_cases h104 : name = "104"
      · subst h104
        obtain rfl := Option.some.inj h
        exact resets_eq q bellTerminated args
      rw [if_neg h104] at h
      by_cases h110 : name = "110"
      · subst h110
        obtain rfl := Option.some.inj h
        rfl
      rw [if_neg h110] at h
      by_cases h111 : name = "111"
      · subst h111
        obtain rfl := Option.some.inj h
        rfl
      rw [if_neg h111] at h
      cases h

/-- A set and a query in one OSC 4. -/
example : colorRequests [[0x34], [0x31], [0x23, 0x66, 0x66, 0x30, 0x30, 0x30, 0x30], [0x32], [0x3f]] =
    some [.change (.set (.palette 1) (255, 0, 0)), .query (.palette 2)] := by decide

/-! ## The other sequences -/

/-- The fields of the colors. -/
def colorState (q : Pending) :
    Option Rgb × Option Rgb × Std.ExtTreeMap UInt8 Rgb × Bool × Rgb × Rgb :=
  (q.dynamicFg, q.dynamicBg, q.paletteOverrides, q.colorOverridesChanged, q.configuredFg,
    q.configuredBg)

/-- A step leaves the colors alone. -/
def SameColors (q q' : Pending) : Prop := q'.colorState = q.colorState

variable {q q' q'' : Pending}

theorem SameColors.ite {c : Prop} [Decidable c] (h : SameColors q q') (h' : SameColors q q'') :
    SameColors q (if c then q' else q'') := by
  split_ifs
  · exact h
  · exact h'

theorem SameColors.map_getD {α : Type} {f : α → Pending} (hf : ∀ a, SameColors q (f a))
    (a : Option α) : SameColors q ((a.map f).getD q) := by
  cases a with
  | none => rfl
  | some a => exact hf a

theorem sameColors_setPendingPointerShape (q : Pending) (name : String) :
    SameColors q (q.setPendingPointerShape name) := by
  unfold setPendingPointerShape
  exact .ite rfl rfl

theorem sameColors_handleOsc66 (q : Pending) (s : Screen) (args : List (List UInt8)) :
    SameColors q (q.handleOsc66 s args) := by
  unfold handleOsc66
  split
  · split
    · rfl
    · exact .ite rfl rfl
  · rfl

theorem sameColors_addOsc99 (q : Pending) (m : Osc99) (title body : String) :
    SameColors q (q.addOsc99 m title body) := by
  unfold addOsc99
  exact .ite (.ite rfl rfl) (.ite rfl rfl)

theorem sameColors_handleOsc99 (q : Pending) (metadata : String) (payload : List UInt8) :
    SameColors q (q.handleOsc99 metadata payload) := by
  unfold handleOsc99
  dsimp only
  generalize (splitAt ':' metadata).foldl Osc99.read {} = m
  generalize (if m.base64 then (base64Decode payload).bind fromUtf8 else fromUtf8 payload) = text
  refine .ite rfl ?_
  cases text with
  | none => rfl
  | some text => exact sameColors_addOsc99 { q with osc99Pending := q.osc99Pending.erase m.id } m _ _

theorem sameColors_handleOsc72 (q : Pending) (metadata : String) :
    SameColors q (q.handleOsc72 metadata) := by
  unfold handleOsc72
  dsimp only
  generalize (splitAt ':' metadata).foldl Osc72.read {} = m
  refine .ite (.ite rfl rfl) (.ite rfl (.ite rfl (.ite (.ite rfl ?_) rfl)))
  split
  · rfl
  · exact .ite rfl rfl

theorem sameColors_osc9 (q : Pending) (args : List (List UInt8)) : SameColors q (q.osc9 args) := by
  unfold osc9 handleOsc9Progress
  split
  · rfl
  · refine .ite ?_ rfl
    split
    · rfl
    · exact .ite rfl rfl

theorem sameColors_osc52 (q : Pending) (args : List (List UInt8)) :
    SameColors q (q.osc52 args) := by
  unfold osc52
  dsimp only
  refine .ite rfl ?_
  split <;> rfl

theorem sameColors_osc133 (q : Pending) (s : Screen) (args : List (List UInt8)) :
    SameColors q (q.osc133 s args) := by
  unfold osc133
  split
  · rfl
  · exact .ite rfl (.ite rfl (.ite rfl (.ite rfl rfl)))

theorem sameColors_handleIterm2Osc (I : ImageCrate) (q : Pending) (s : Screen)
    (args : List (List UInt8)) : SameColors q (q.handleIterm2Osc I s args) := by
  unfold handleIterm2Osc
  split <;> rfl

/-- **The other sequences leave the colors alone.** -/
theorem sameColors_oscDispatch {I : ImageCrate} {s : Screen} {params : List (List UInt8)}
    (h : colorRequests params = none) (q : Pending) (bellTerminated : Bool) :
    SameColors q (q.oscDispatch I s params bellTerminated) := by
  cases params with
  | nil => rfl
  | cons code args =>
    unfold colorRequests at h
    unfold oscDispatch
    dsimp only at h ⊢
    generalize (fromUtf8 code).map trim = name at h ⊢
    cases name with
    | none => rfl
    | some name =>
      simp only [ite_eq_iff, reduceCtorEq, and_false, false_or, and_true] at h
      obtain ⟨h4, h10, h11, h104, h110, h111⟩ := h
      have hdefault : ¬(name = "10" ∨ name = "11") := by simp [h10, h11]
      dsimp only
      rw [if_neg h4, if_neg hdefault, if_neg h104, if_neg h110, if_neg h111]
      refine .ite (.map_getD (f := q.setPendingTitle) (fun _ => rfl) _) ?_
      refine .ite (.map_getD (f := q.setPendingCwd) (fun _ => rfl) _) ?_
      refine .ite (sameColors_osc9 q args) ?_
      refine .ite (sameColors_osc52 q args) ?_
      refine .ite (sameColors_handleOsc72 q _) ?_
      refine .ite (sameColors_handleOsc99 q _ _) ?_
      refine .ite (.ite rfl rfl) ?_
      refine .ite (sameColors_handleOsc66 q s args) ?_
      refine .ite (sameColors_handleIterm2Osc I q s args) ?_
      refine .ite (sameColors_setPendingPointerShape q _) ?_
      exact .ite (sameColors_osc133 q s args) rfl

theorem sameColors_finishSixel (q : Pending) : SameColors q q.finishSixel := by
  unfold finishSixel
  refine .ite rfl ?_
  dsimp only
  cases decodeSixel q.dcsBuf with
  | none => rfl
  | some img => rfl

theorem sameColors_receiveKitty (q : Pending) (data : List UInt8) :
    SameColors q (q.receiveKitty data).1 := by
  unfold receiveKitty
  split
  · dsimp only
    split_ifs
    · rfl
    · rfl
    all_goals cases q.kittyChunkParams <;> rfl
  · rfl

theorem sameColors_handleKittyApc (q : Pending) (s : Screen) (data : List UInt8) :
    SameColors q (q.handleKittyApc s data) := by
  have hreceive := sameColors_receiveKitty q data
  unfold handleKittyApc
  generalize q.receiveKitty data = out at hreceive ⊢
  obtain ⟨q', _ | ⟨params, payload⟩⟩ := out
  · exact hreceive
  · dsimp only
    cases decodeKitty (0x47 :: (params ++ 0x3b :: payload)) with
    | none => exact hreceive
    | some img => exact hreceive

end Pending

/-! ## Histories -/

/-- What an event changes. -/
def Event.changes : Event → List ColorChange
  | .perform (.oscDispatch params _) =>
    ((colorRequests params).getD []).filterMap ColorRequest.change?
  | _ => []

/-- The replies to requests, where each change among them counts for the queries after it. -/
def replies (bellTerminated : Bool) (defaultColor : Slot → Rgb) :
    List ColorChange → List ColorRequest → List String
  | _, [] => []
  | history, .change c :: requests =>
    replies bellTerminated defaultColor (history ++ [c]) requests
  | history, .query slot :: requests =>
    slot.reply bellTerminated ((lastSet history slot).getD (defaultColor slot)) ::
      replies bellTerminated defaultColor history requests

namespace Pending

/-- The dynamic colors are the last sets of a history. -/
def Follows (q : Pending) (history : List ColorChange) : Prop :=
  ∀ slot, q.override slot = lastSet history slot

theorem Follows.applyChange {q : Pending} {history : List ColorChange} (h : q.Follows history)
    (c : ColorChange) : (q.applyChange c).Follows (history ++ [c]) := by
  intro slot
  rw [override_applyChange, lastSet_snoc, h slot]

theorem defaultColor_applyChange (q : Pending) (c : ColorChange) :
    (q.applyChange c).defaultColor = q.defaultColor := by
  funext slot
  rcases c with ⟨_ | _ | _, color⟩ | ⟨_ | _ | _⟩ | _ <;> cases slot <;> rfl

theorem pendingResponses_applyChange (q : Pending) (c : ColorChange) :
    (q.applyChange c).pendingResponses = q.pendingResponses := by
  rcases c with ⟨_ | _ | _, color⟩ | ⟨_ | _ | _⟩ | _ <;> rfl

/-- The colors after requests. -/
theorem foldl_handleRequest (bellTerminated : Bool) : ∀ (requests : List ColorRequest)
    {q : Pending} {history : List ColorChange}, q.Follows history →
    let q' := requests.foldl (handleRequest bellTerminated) q
    q'.Follows (history ++ requests.filterMap ColorRequest.change?) ∧
      q'.defaultColor = q.defaultColor ∧
      q'.pendingResponses =
        q.pendingResponses ++ replies bellTerminated q.defaultColor history requests
  | [], q, history, h => ⟨by simpa using h, rfl, by simp [replies]⟩
  | .change c :: requests, q, history, h => by
    obtain ⟨hfollows, hdefault, hresponses⟩ :=
      foldl_handleRequest bellTerminated requests (h.applyChange c)
    rw [defaultColor_applyChange] at hdefault hresponses
    rw [pendingResponses_applyChange] at hresponses
    rw [List.append_assoc] at hfollows
    exact ⟨hfollows, hdefault, hresponses⟩
  | .query slot :: requests, q, history, h => by
    let reply := slot.reply bellTerminated ((q.override slot).getD (q.defaultColor slot))
    have hpush : (q.pushPendingResponse reply).Follows history := h
    obtain ⟨hfollows, hdefault, hresponses⟩ := foldl_handleRequest bellTerminated requests hpush
    refine ⟨hfollows, hdefault, hresponses.trans ?_⟩
    show (q.pendingResponses ++ [reply]) ++ _ = _
    rw [List.append_assoc, replies, ← h slot]
    rfl

theorem SameColors.follows {q q' : Pending} (hsame : SameColors q q') {history : List ColorChange}
    (h : q.Follows history) : q'.Follows history ∧ q'.defaultColor = q.defaultColor := by
  simp only [SameColors, colorState, Prod.mk.injEq] at hsame
  obtain ⟨hfg, hbg, hpalette, -, hcfg, hcbg⟩ := hsame
  constructor
  · intro slot
    rw [← h slot]
    cases slot with
    | palette index => exact congrArg (·[index]?) hpalette
    | fg => exact hfg
    | bg => exact hbg
  · funext slot
    cases slot with
    | palette index => rfl
    | fg => exact hcfg
    | bg => exact hcbg

end Pending

/-! ## The reader thread and the client -/

/-- The override record of a client. -/
structure PaneColorOverrides where
  fg : Option Rgb
  bg : Option Rgb
  palette : Std.ExtTreeMap UInt8 Rgb

/-- A client replaces its record by a snapshot. -/
def PaneColorOverrides.receive (client : PaneColorOverrides) :
    Option ColorOverrides → PaneColorOverrides
  | none => client
  | some colors => ⟨colors.fg, colors.bg, .ofList colors.palette⟩

namespace Pending

/-- The full override snapshot when anything changed since the previous call. -/
def takeColorOverridesIfChanged (q : Pending) : Option ColorOverrides × Pending :=
  if !q.colorOverridesChanged then (none, q)
  else
    (some ⟨q.dynamicFg, q.dynamicBg, q.paletteOverrides.toList⟩,
      { q with colorOverridesChanged := false })

/-- Sets the configured default foreground and background. -/
def setDefaultColors (q : Pending) (fg bg : Rgb) : Pending :=
  { q with configuredFg := fg, configuredBg := bg }

/-- The overrides of the screen. -/
def overrides (q : Pending) : PaneColorOverrides := ⟨q.dynamicFg, q.dynamicBg, q.paletteOverrides⟩

end Pending

/-- What happens between the screen of a pane, its reader thread and a client. -/
inductive ColorStep
  | event (e : Event)
  | setDefaultColors (fg bg : Rgb)
  | drain

/-- The screen of a pane, its queues, and the record of a client. -/
structure Watched where
  screen : Screen
  pending : Pending
  client : PaneColorOverrides

namespace Watched

/-- A new pane and a new client. -/
def new (screen : Screen) : Watched := ⟨screen, .new, ⟨none, none, ∅⟩⟩

/-- One step. -/
def step (V : Vte) (I : ImageCrate) (t : Watched) : ColorStep → Watched
  | .event e =>
    let after := e.step V I (t.screen, t.pending)
    { t with screen := after.1, pending := after.2 }
  | .setDefaultColors fg bg => { t with pending := t.pending.setDefaultColors fg bg }
  | .drain =>
    let (colors, pending) := t.pending.takeColorOverridesIfChanged
    { t with pending := pending, client := t.client.receive colors }

end Watched

/-- The changes of a run. -/
def ColorStep.changes : ColorStep → List ColorChange
  | event e => e.changes
  | setDefaultColors _ _ | drain => []

/-- The configured colors after a step. -/
def ColorStep.configured (colors : Rgb × Rgb) : ColorStep → Rgb × Rgb
  | setDefaultColors fg bg => (fg, bg)
  | event _ | drain => colors

/-- The configured colors after a run; at first, the fallbacks. -/
def configuredColors (steps : List ColorStep) : Rgb × Rgb :=
  steps.foldl ColorStep.configured ((0xd9, 0xd9, 0xd9), (0x0d, 0x0d, 0x0d))

/-- The changes of a run. -/
def colorHistory (steps : List ColorStep) : List ColorChange := steps.flatMap ColorStep.changes

theorem colorHistory_snoc (steps : List ColorStep) (o : ColorStep) :
    colorHistory (steps ++ [o]) = colorHistory steps ++ o.changes := by
  rw [colorHistory, List.flatMap_append, List.flatMap_singleton]
  rfl

theorem configuredColors_snoc (steps : List ColorStep) (o : ColorStep) :
    configuredColors (steps ++ [o]) = o.configured (configuredColors steps) := by
  rw [configuredColors, List.foldl_append]
  rfl

/-! ## The snapshots -/

namespace Pending

/-- A change that does not set the flag changes nothing. -/
theorem changed_applyChange {q : Pending} {c : ColorChange}
    (h : (q.applyChange c).colorOverridesChanged = false) :
    q.colorOverridesChanged = false ∧ (q.applyChange c).overrides = q.overrides := by
  rcases c with ⟨_ | _ | _, color⟩ | ⟨index | _ | _⟩ | _
  case reset.palette =>
    obtain ⟨hmem, hflag⟩ := Bool.or_eq_false_iff.1 h
    have herase : q.paletteOverrides.erase index = q.paletteOverrides :=
      Std.ExtTreeMap.erase_of_not_mem (of_decide_eq_false hmem)
    exact ⟨hflag, congrArg (PaneColorOverrides.mk q.dynamicFg q.dynamicBg) herase⟩
  case resetPalette =>
    obtain ⟨hempty, hflag⟩ := Bool.or_eq_false_iff.1 h
    have hpalette : q.paletteOverrides = ∅ :=
      Std.ExtTreeMap.isEmpty_iff.1 (Bool.not_eq_false' _ ▸ hempty)
    exact ⟨hflag, congrArg (PaneColorOverrides.mk q.dynamicFg q.dynamicBg) hpalette.symm⟩
  all_goals cases h

theorem changed_foldl (bellTerminated : Bool) : ∀ (requests : List ColorRequest) {q : Pending},
    (requests.foldl (handleRequest bellTerminated) q).colorOverridesChanged = false →
    q.colorOverridesChanged = false ∧
      (requests.foldl (handleRequest bellTerminated) q).overrides = q.overrides
  | [], _, h => ⟨h, rfl⟩
  | .change c :: requests, q, h => by
    obtain ⟨hrest, hoverrides⟩ := changed_foldl bellTerminated requests h
    obtain ⟨hflag, hchange⟩ := changed_applyChange hrest
    exact ⟨hflag, hoverrides.trans hchange⟩
  | .query slot :: requests, q, h => changed_foldl bellTerminated requests h

theorem SameColors.overrides {q q' : Pending} (h : SameColors q q') :
    q'.colorOverridesChanged = q.colorOverridesChanged ∧ q'.overrides = q.overrides := by
  simp only [SameColors, colorState, Prod.mk.injEq] at h
  obtain ⟨hfg, hbg, hpalette, hflag, -, -⟩ := h
  exact ⟨hflag, by rw [Pending.overrides, Pending.overrides, hfg, hbg, hpalette]⟩

/-- What an event does to the colors: a sequence for colors meets its requests, anything else
    leaves them alone. -/
theorem event_colors (V : Vte) (I : ImageCrate) (t : Screen × Pending) (e : Event) :
    (∃ (requests : List ColorRequest) (bellTerminated : Bool),
      (e.step V I t).2 = requests.foldl (handleRequest bellTerminated) t.2 ∧
        e.changes = requests.filterMap ColorRequest.change?) ∨
      (SameColors t.2 (e.step V I t).2 ∧ e.changes = []) := by
  cases e with
  | kitty payload => exact .inr ⟨sameColors_handleKittyApc t.2 t.1 payload, rfl⟩
  | perform action =>
    cases action with
    | oscDispatch params bellTerminated =>
      cases hrequests : colorRequests params with
      | some requests =>
        refine .inl ⟨requests, bellTerminated, oscDispatch_colors hrequests t.2 bellTerminated, ?_⟩
        rw [Event.changes, hrequests, Option.getD_some]
      | none =>
        refine .inr ⟨sameColors_oscDispatch hrequests t.2 bellTerminated, ?_⟩
        rw [Event.changes, hrequests, Option.getD_none, List.filterMap_nil]
    | execute byte => exact .inr ⟨.ite rfl rfl, rfl⟩
    | hook params intermediates ignore action => exact .inr ⟨.ite rfl rfl, rfl⟩
    | put byte => exact .inr ⟨.ite rfl (.ite rfl rfl), rfl⟩
    | unhook => exact .inr ⟨sameColors_finishSixel t.2, rfl⟩
    | print c => exact .inr ⟨rfl, rfl⟩
    | csiDispatch params intermediates ignore action => exact .inr ⟨rfl, rfl⟩
    | escDispatch intermediates ignore byte => exact .inr ⟨rfl, rfl⟩

end Pending

namespace Watched

/-- The colors follow the history, the defaults are the configured ones, and the client has the
    overrides unless a snapshot waits. -/
structure Inv (steps : List ColorStep) (t : Watched) : Prop where
  follows : t.pending.Follows (colorHistory steps)
  defaults : t.pending.defaultColor = slotDefault (configuredColors steps)
  synced : t.pending.colorOverridesChanged = false → t.client = t.pending.overrides

theorem inv_new (screen : Screen) : Inv [] (new screen) := by
  refine ⟨?_, rfl, fun _ => rfl⟩
  intro slot
  cases slot with
  | palette index => exact Std.ExtTreeMap.getElem?_empty
  | fg => rfl
  | bg => rfl

/-- After a drain the client has the overrides. -/
theorem client_drain (V : Vte) (I : ImageCrate) {t : Watched}
    (h : t.pending.colorOverridesChanged = false → t.client = t.pending.overrides) :
    (t.step V I .drain).client = (t.step V I .drain).pending.overrides := by
  cases hflag : t.pending.colorOverridesChanged with
  | false =>
    have hdrain : t.pending.takeColorOverridesIfChanged = (none, t.pending) := by
      rw [Pending.takeColorOverridesIfChanged, hflag]
      rfl
    simp only [step, hdrain]
    exact h hflag
  | true =>
    have hdrain : t.pending.takeColorOverridesIfChanged =
        (some ⟨t.pending.dynamicFg, t.pending.dynamicBg, t.pending.paletteOverrides.toList⟩,
          { t.pending with colorOverridesChanged := false }) := by
      rw [Pending.takeColorOverridesIfChanged, hflag]
      rfl
    simp only [step, hdrain, PaneColorOverrides.receive, Std.ExtTreeMap.ofList_toList]
    rfl

theorem sameColors_drain (q : Pending) :
    (q.takeColorOverridesIfChanged).2.override = q.override ∧
      (q.takeColorOverridesIfChanged).2.defaultColor = q.defaultColor := by
  unfold Pending.takeColorOverridesIfChanged
  split_ifs
  · exact ⟨rfl, rfl⟩
  · exact ⟨rfl, rfl⟩

variable {V : Vte} {I : ImageCrate} {steps : List ColorStep} {t : Watched}

theorem Inv.event (h : Inv steps t) (e : Event) :
    Inv (steps ++ [.event e]) (t.step V I (.event e)) := by
  have hhistory : colorHistory (steps ++ [.event e]) = colorHistory steps ++ e.changes :=
    colorHistory_snoc steps _
  have hconfigured : configuredColors (steps ++ [.event e]) = configuredColors steps :=
    configuredColors_snoc steps _
  obtain ⟨requests, bellTerminated, hpending, hchanges⟩ | ⟨hsame, hchanges⟩ :=
    Pending.event_colors V I (t.screen, t.pending) e
  · obtain ⟨hfollows, hdefault, -⟩ :=
      Pending.foldl_handleRequest bellTerminated requests h.follows
    have hafter : (t.step V I (.event e)).pending =
        requests.foldl (Pending.handleRequest bellTerminated) t.pending := hpending
    rw [← hafter] at hfollows hdefault
    refine ⟨?_, ?_, ?_⟩
    · rw [hhistory, hchanges]
      exact hfollows
    · rw [hconfigured]
      exact hdefault.trans h.defaults
    · intro hflag
      rw [hafter] at hflag ⊢
      obtain ⟨hbefore, hoverrides⟩ := Pending.changed_foldl bellTerminated requests hflag
      exact (h.synced hbefore).trans hoverrides.symm
  · obtain ⟨hfollows, hdefault⟩ := hsame.follows h.follows
    obtain ⟨hchanged, hoverrides⟩ := hsame.overrides
    refine ⟨?_, ?_, ?_⟩
    · rw [hhistory, hchanges, List.append_nil]
      exact hfollows
    · rw [hconfigured]
      exact hdefault.trans h.defaults
    · intro hflag
      exact (h.synced (hchanged.symm.trans hflag)).trans hoverrides.symm

theorem Inv.setDefaultColors (h : Inv steps t) (fg bg : Rgb) :
    Inv (steps ++ [.setDefaultColors fg bg]) (t.step V I (.setDefaultColors fg bg)) := by
  have hhistory : colorHistory (steps ++ [.setDefaultColors fg bg]) = colorHistory steps :=
    (colorHistory_snoc steps _).trans (List.append_nil _)
  have hconfigured : configuredColors (steps ++ [.setDefaultColors fg bg]) = (fg, bg) :=
    configuredColors_snoc steps _
  refine ⟨?_, ?_, h.synced⟩
  · rw [hhistory]
    exact h.follows
  · rw [hconfigured]
    rfl

theorem Inv.drain (h : Inv steps t) : Inv (steps ++ [.drain]) (t.step V I .drain) := by
  have hhistory : colorHistory (steps ++ [.drain]) = colorHistory steps :=
    (colorHistory_snoc steps _).trans (List.append_nil _)
  have hconfigured : configuredColors (steps ++ [.drain]) = configuredColors steps :=
    configuredColors_snoc steps _
  obtain ⟨hoverride, hdefault⟩ := sameColors_drain t.pending
  refine ⟨?_, ?_, fun _ => client_drain V I h.synced⟩
  · intro slot
    rw [hhistory, ← h.follows slot]
    exact congrFun hoverride slot
  · rw [hconfigured]
    exact hdefault.trans h.defaults

/-- The invariant holds along every run. -/
theorem inv_run (V : Vte) (I : ImageCrate) (screen : Screen) (steps : List ColorStep) :
    Inv steps (run (step V I) (new screen) steps) := by
  induction steps using List.reverseRecOn with
  | nil => exact inv_new screen
  | append_singleton steps o ih =>
    rw [run_append]
    cases o with
    | event e => exact ih.event e
    | setDefaultColors fg bg => exact ih.setDefaultColors (V := V) (I := I) fg bg
    | drain => exact ih.drain (V := V) (I := I)

end Watched

/-- **Dynamic colors**: the color of a reply is read back; after every run, a slot has the color of its
    last set if no later reset covers it, or else the builtin or configured one, and this is what the
    sequences for colors answer; and after a drain the client has the overrides of the screen. -/
theorem dynamic_colors (V : Vte) (I : ImageCrate) (screen : Screen) (steps : List ColorStep) :
    let t := run (Watched.step V I) (Watched.new screen) steps
    let defaultColor := slotDefault (configuredColors steps)
    (∀ color, parseColorSpec (formatRgbReply color) = some color) ∧
    (∀ slot color, t.pending.override slot = some color ↔ ∃ before after,
      colorHistory steps = before ++ .set slot color :: after ∧
        ∀ c ∈ after, c.covers slot = false) ∧
    (∀ slot, (t.pending.override slot).getD (t.pending.defaultColor slot) =
      (lastSet (colorHistory steps) slot).getD (defaultColor slot)) ∧
    (∀ params requests bellTerminated, colorRequests params = some requests →
      (t.pending.oscDispatch I t.screen params bellTerminated).pendingResponses =
        t.pending.pendingResponses ++
          replies bellTerminated defaultColor (colorHistory steps) requests) ∧
    (t.step V I .drain).client = (t.step V I .drain).pending.overrides := by
  intro t defaultColor
  have hinv : t.Inv steps := Watched.inv_run V I screen steps
  refine ⟨parse_formatRgbReply, ?_, ?_, ?_, Watched.client_drain V I hinv.synced⟩
  · intro slot color
    rw [hinv.follows slot]
    exact lastSet_eq_some
  · intro slot
    rw [hinv.follows slot, hinv.defaults]
  · intro params requests bellTerminated hrequests
    rw [Pending.oscDispatch_colors hrequests]
    obtain ⟨-, -, hresponses⟩ :=
      Pending.foldl_handleRequest bellTerminated requests hinv.follows
    rw [hresponses, hinv.defaults]

end Nexterm.Vt

/-
  Key events as the bytes sent to the PTY (`ipc/key.rs`, `handle_key_event` in
  `ipc/pane_dispatch.rs`).

  * `keyToBytes`, `kittyKeyToBytes`: the legacy encoder and that of the Kitty keyboard protocol.
  * `ctrlOk_iff`: with Ctrl, which characters become the control byte of another character.
  * `eventOk_iff`: with event-type reporting off, which events are reported all the same.
  * `keyOk_iff`: both together, the exact condition for a key event.
-/
import Mathlib.Tactic.IntervalCases
import Mathlib.Tactic.SplitIfs
import Nexterm.Lib.Utf8

namespace Nexterm.Server

open Utf8

/-! ## Keys -/

/-- Bit flags for keyboard modifier keys. -/
structure Modifiers where
  bits : UInt8
  deriving DecidableEq

namespace Modifiers

def isShift (m : Modifiers) : Bool := m.bits &&& 0x01 ≠ 0
def isCtrl (m : Modifiers) : Bool := m.bits &&& 0x02 ≠ 0
def isAlt (m : Modifiers) : Bool := m.bits &&& 0x04 ≠ 0
def isMeta (m : Modifiers) : Bool := m.bits &&& 0x08 ≠ 0

end Modifiers

/-- A key event. -/
inductive KeyCode where
  | char (ch : Char)
  | f (n : UInt8)
  | enter | backspace | delete | escape | tab | backTab
  | up | down | left | right | home | «end» | pageUp | pageDown | insert
  deriving DecidableEq

/-- An escape sequence. -/
def esc (text : String) : List UInt8 := 0x1b :: encode text.toList

/-- Converts a key code with modifiers into a VT100/xterm escape sequence. -/
def keyToBytes (code : KeyCode) (mods : Modifiers) : List UInt8 :=
  match code with
  | .char ch =>
    -- Ctrl+letter is an ASCII control code; the character is cut to a byte
    let c := UInt8.ofNat ch.toNat &&& 0x1f
    if mods.isCtrl ∧ c > 0 then [c] else String.utf8EncodeChar ch
  | .enter => [0x0d]
  | .backspace => [0x7f]
  | .delete => esc "[3~"
  | .escape => [0x1b]
  | .tab => [0x09]
  | .backTab => esc "[Z"
  | .up => esc "[A"
  | .down => esc "[B"
  | .right => esc "[C"
  | .left => esc "[D"
  | .home => esc "[H"
  | .end => esc "[F"
  | .pageUp => esc "[5~"
  | .pageDown => esc "[6~"
  | .insert => esc "[2~"
  | .f n =>
    match n.toNat with
    | 1 => esc "OP"
    | 2 => esc "OQ"
    | 3 => esc "OR"
    | 4 => esc "OS"
    | 5 => esc "[15~"
    | 6 => esc "[17~"
    | 7 => esc "[18~"
    | 8 => esc "[19~"
    | 9 => esc "[20~"
    | 10 => esc "[21~"
    | 11 => esc "[23~"
    | 12 => esc "[24~"
    | _ => []

/-- Kitty keyboard protocol modifier parameter. -/
def kittyModsParam (mods : Modifiers) : UInt8 :=
  let shift : UInt8 := if mods.isShift then 1 else 0
  let alt : UInt8 := if mods.isAlt then 2 else 0
  let ctrl : UInt8 := if mods.isCtrl then 4 else 0
  let super : UInt8 := if mods.isMeta then 8 else 0
  (shift ||| alt ||| ctrl ||| super) + 1

/-- Unicode codepoint for function keys as used by the Kitty protocol. -/
def kittyFunctionalCodepoint : KeyCode → Option ℕ
  | .escape => some 27
  | .enter => some 13
  | .tab => some 9
  | .backspace => some 127
  | .delete => some 57361
  | .insert => some 57348
  | .up => some 57352
  | .down => some 57353
  | .right => some 57351
  | .left => some 57350
  | .home => some 57358
  | .end => some 57359
  | .pageUp => some 57360
  | .pageDown => some 57362
  | .backTab => some 9
  | .f n =>
    match n.toNat with
    | 1 => some 57399
    | 2 => some 57400
    | 3 => some 57401
    | 4 => some 57402
    | 5 => some 57403
    | 6 => some 57404
    | 7 => some 57405
    | 8 => some 57406
    | 9 => some 57407
    | 10 => some 57408
    | 11 => some 57409
    | 12 => some 57410
    | _ => none
  | .char _ => none

/-- The CSI u sequence, without trailing defaults. -/
def csiU (codepoint : ℕ) (mods : Modifiers) (eventType flags : UInt8) : List UInt8 :=
  let reportEventType : Bool := flags &&& 0x02 ≠ 0
  let modsParam := kittyModsParam mods
  let emitEvent : Bool := reportEventType ∨ eventType ≠ 1
  let emitMods : Bool := modsParam ≠ 1 ∨ emitEvent
  let seq := "\x1b[" ++ toString codepoint
  let seq := if emitMods then seq ++ ";" ++ toString modsParam.toNat else seq
  let seq :=
    if emitEvent then (if emitMods then seq else seq ++ ";") ++ ";" ++ toString eventType.toNat
    else seq
  encode (seq ++ "u").toList

/-- Encodes a key event using the Kitty keyboard protocol. -/
def kittyKeyToBytes (code : KeyCode) (mods : Modifiers) (eventType flags : UInt8) : List UInt8 :=
  match code with
  | .char ch => csiU ch.toNat mods eventType flags
  | .backTab => csiU 9 ⟨mods.bits ||| 0x01⟩ eventType flags
  | code =>
    match kittyFunctionalCodepoint code with
    | some codepoint => csiU codepoint mods eventType flags
    | none => keyToBytes code mods

/-- What a key event writes to the focused pane, whose keyboard protocol has the given flags. -/
def keyEventBytes (code : KeyCode) (mods : Modifiers) (eventType flags : UInt8) : List UInt8 :=
  if flags ≠ 0 then kittyKeyToBytes code mods eventType flags else keyToBytes code mods

/-! ## What a key event should be -/

/-- The control byte of an ASCII character that has one. -/
def controlByte (ch : Char) : Option UInt8 :=
  if '@' ≤ ch ∧ ch ≤ '_' then some (UInt8.ofNat (ch.toNat - 0x40))
  else if 'a' ≤ ch ∧ ch ≤ 'z' then some (UInt8.ofNat (ch.toNat - 0x60))
  else none

/-- The bytes of a character with Ctrl: its control byte, if it has one, or the character. -/
def CtrlOk (ch : Char) (mods : Modifiers) : Prop :=
  (∃ c, controlByte ch = some c ∧ keyToBytes (.char ch) mods = [c]) ∨
    keyToBytes (.char ch) mods = String.utf8EncodeChar ch

/-- A CSI u sequence with an event type. -/
def CarriesEventType (bytes : List UInt8) : Prop :=
  ∃ codepoint modsParam eventType : ℕ,
    bytes = encode ("\x1b[" ++ toString codepoint ++ ";" ++ toString modsParam ++ ";" ++
      toString eventType ++ "u").toList

/-- With event-type reporting off: a release is not sent, and no event type is. -/
def EventOk (code : KeyCode) (mods : Modifiers) (eventType flags : UInt8) : Prop :=
  (eventType = 3 → keyEventBytes code mods eventType flags = []) ∧
    ¬CarriesEventType (keyEventBytes code mods eventType flags)

/-- A key event as it should be. -/
structure KeyOk (code : KeyCode) (mods : Modifiers) (eventType flags : UInt8) : Prop where
  ctrl : ∀ ch, code = .char ch → mods.isCtrl → CtrlOk ch mods
  event : flags &&& 0x02 = 0 → EventOk code mods eventType flags

/-- A character of which Ctrl makes its own control byte, or nothing: it has a control byte, is one,
    or its low five bits are zero. -/
def CtrlFits (ch : Char) : Prop :=
  (controlByte ch).isSome ∨ ch.toNat < 0x20 ∨ ch.toNat % 0x20 = 0

/-- A function key that has no sequence. -/
def KeyCode.Unknown (code : KeyCode) : Prop := ∃ n, code = .f n ∧ (n.toNat = 0 ∨ 12 < n.toNat)

/-- An event that does not have to be held back: the key has no bytes, or the event is a press; the
    legacy encoder lets repeats pass too. -/
def EventFits (code : KeyCode) (eventType flags : UInt8) : Prop :=
  code.Unknown ∨ if flags = 0 then eventType ≠ 3 else eventType = 1

/-! ## Ctrl -/

theorem keyToBytes_ctrl {ch : Char} {mods : Modifiers} (hctrl : mods.isCtrl = true) :
    keyToBytes (.char ch) mods =
      if ch.toNat % 0x20 = 0 then String.utf8EncodeChar ch else [UInt8.ofNat (ch.toNat % 0x20)] := by
  have hlow : UInt8.ofNat ch.toNat &&& 0x1f = UInt8.ofNat (ch.toNat % 0x20) := by
    rw [← UInt8.toNat_inj, UInt8.toNat_and, UInt8.toNat_ofNat', UInt8.toNat_ofNat']
    show ch.toNat % 2 ^ 8 &&& 2 ^ 5 - 1 = _
    rw [Nat.and_two_pow_sub_one_eq_mod]
    omega
  have hpos : UInt8.ofNat (ch.toNat % 0x20) > 0 ↔ ch.toNat % 0x20 ≠ 0 := by
    rw [gt_iff_lt, UInt8.lt_iff_toNat_lt, UInt8.toNat_ofNat']
    show 0 < _ ↔ _
    omega
  rw [keyToBytes, hlow]
  simp only [hctrl, true_and, hpos, ite_not]

theorem ctrlOk_iff {ch : Char} {mods : Modifiers} (hctrl : mods.isCtrl = true) :
    CtrlOk ch mods ↔ CtrlFits ch := by
  rw [CtrlOk, keyToBytes_ctrl hctrl]
  split_ifs with hzero
  · exact iff_of_true (.inr rfl) (.inr (.inr hzero))
  · constructor
    · rintro (⟨c, hc, -⟩ | hself)
      · exact .inl (by rw [hc]; rfl)
      -- a control byte that is the character itself
      · refine .inr (.inl ?_)
        rcases utf8EncodeChar_cases ch with ⟨hlow, hone⟩ | ⟨-, hall⟩
        · rw [hone, List.cons.injEq, ← UInt8.toNat_inj, UInt8.toNat_ofNat',
            UInt8.toNat_ofNat'] at hself
          omega
        · have hbyte := hall _ (hself ▸ List.mem_cons_self)
          rw [UInt8.toNat_ofNat'] at hbyte
          omega
    · rintro (hsome | hcontrol | hzero')
      · obtain ⟨c, hc⟩ := Option.isSome_iff_exists.1 hsome
        refine .inl ⟨c, hc, ?_⟩
        unfold controlByte at hc
        split_ifs at hc with hupper hlower
        · obtain rfl := Option.some.inj hc
          have hrange : 64 ≤ ch.toNat ∧ ch.toNat ≤ 95 := hupper
          have hmod : ch.toNat % 0x20 = ch.toNat - 0x40 := by omega
          rw [hmod]
        · obtain rfl := Option.some.inj hc
          have hrange : 97 ≤ ch.toNat ∧ ch.toNat ≤ 122 := hlower
          have hmod : ch.toNat % 0x20 = ch.toNat - 0x60 := by omega
          rw [hmod]
      · refine .inr ?_
        rcases utf8EncodeChar_cases ch with ⟨-, hone⟩ | ⟨hhigh, -⟩
        · rw [hone, Nat.mod_eq_of_lt hcontrol]
        · omega
      · exact absurd hzero' hzero

/-! ## Event types -/

/-- The semicolons of the bytes are those of the characters. -/
theorem count_encode (cs : List Char) : (encode cs).count 0x3b = cs.count ';' := by
  induction cs with
  | nil => rfl
  | cons c cs ih =>
    rw [encode_cons, List.count_append, ih, List.count_cons, Nat.add_comm]
    congr 1
    rcases utf8EncodeChar_cases c with ⟨hlow, hone⟩ | ⟨hhigh, hall⟩
    · rw [hone, List.count_singleton]
      have hbyte : (UInt8.ofNat c.toNat == 0x3b) = (c == ';') := by
        rw [Bool.eq_iff_iff, beq_iff_eq, beq_iff_eq, ← UInt8.toNat_inj, UInt8.toNat_ofNat',
          ← Char.toNat_inj]
        show c.toNat % 2 ^ 8 = 59 ↔ c.toNat = 59
        omega
      rw [hbyte]
    · have hne : (c == ';') = false := beq_false_of_ne fun h => by
        subst h
        exact absurd hhigh (by decide)
      rw [hne, List.count_eq_zero.2 fun hmem => absurd (hall _ hmem) (by decide)]
      rfl

theorem count_toString (n : ℕ) : (toString n).toList.count ';' = 0 := by
  rw [List.count_eq_zero]
  intro hmem
  have hdigit : ';' ∈ Nat.toDigits 10 n := by simpa using hmem
  exact absurd (Nat.isDigit_of_mem_toDigits (by decide) (by decide) hdigit) (by decide)

theorem count_of_carries {bytes : List UInt8} (h : CarriesEventType bytes) :
    bytes.count 0x3b = 2 := by
  obtain ⟨codepoint, modsParam, eventType, hbytes⟩ := h
  rw [hbytes, count_encode]
  simp only [String.toList_append, List.count_append, count_toString]
  decide

/-- A sequence of one key that is no CSI u sequence has one semicolon at most. -/
theorem count_keyToBytes (code : KeyCode) (mods : Modifiers) :
    (keyToBytes code mods).count 0x3b ≤ 1 := by
  cases code with
  | char ch =>
    rw [keyToBytes]
    split_ifs
    · exact List.count_le_length
    · have hone := count_encode [ch]
      rw [encode_cons, encode, List.flatMap_nil, List.append_nil] at hone
      rw [hone]
      exact List.count_le_length
  | f n =>
    rw [keyToBytes]
    split <;> decide
  | _ =>
    rw [keyToBytes]
    decide

theorem csiU_event {eventType : UInt8} (h : eventType ≠ 1) (codepoint : ℕ) (mods : Modifiers)
    (flags : UInt8) :
    csiU codepoint mods eventType flags =
      encode ("\x1b[" ++ toString codepoint ++ ";" ++ toString (kittyModsParam mods).toNat ++ ";" ++
        toString eventType.toNat ++ "u").toList := by
  simp [csiU, h]

theorem csiU_press {flags : UInt8} (h : flags &&& 0x02 = 0) (codepoint : ℕ) (mods : Modifiers) :
    csiU codepoint mods 1 flags = encode (("\x1b[" ++ toString codepoint ++
      if kittyModsParam mods = 1 then "" else ";" ++ toString (kittyModsParam mods).toNat) ++
        "u").toList := by
  by_cases hmods : kittyModsParam mods = 1
  · simp [csiU, h, hmods]
  · simp [csiU, h, hmods, String.append_assoc]

/-- With event-type reporting off, a CSI u sequence carries an event type unless it is a press. -/
theorem csiU_carries_iff {flags : UInt8} (hflags : flags &&& 0x02 = 0) {codepoint : ℕ}
    {mods : Modifiers} {eventType : UInt8} :
    CarriesEventType (csiU codepoint mods eventType flags) ↔ eventType ≠ 1 := by
  constructor
  · -- a press has one semicolon at most
    rintro hcarries rfl
    have htwo := count_of_carries hcarries
    rw [csiU_press hflags, count_encode] at htwo
    split_ifs at htwo
    · simp only [String.toList_append, List.count_append, count_toString] at htwo
      exact absurd htwo (by decide)
    · simp only [String.toList_append, List.count_append, count_toString] at htwo
      exact absurd htwo (by decide)
  · intro hevent
    exact ⟨codepoint, (kittyModsParam mods).toNat, eventType.toNat, csiU_event hevent _ _ _⟩

/-- The function keys with a sequence are the same for both encoders. -/
theorem f_cases (n : UInt8) (mods : Modifiers) :
    ((n.toNat = 0 ∨ 12 < n.toNat) ∧ keyToBytes (.f n) mods = [] ∧
      kittyFunctionalCodepoint (.f n) = none) ∨
    (¬(n.toNat = 0 ∨ 12 < n.toNat) ∧ keyToBytes (.f n) mods ≠ [] ∧
      ∃ codepoint, kittyFunctionalCodepoint (.f n) = some codepoint) := by
  rw [keyToBytes, kittyFunctionalCodepoint]
  generalize n.toNat = n
  by_cases hn : n = 0 ∨ 12 < n
  · refine .inl ⟨hn, ?_⟩
    constructor <;> split <;> first | omega | rfl
  · refine .inr ⟨hn, ?_⟩
    obtain ⟨hpos, hle⟩ : 1 ≤ n ∧ n ≤ 12 := by omega
    interval_cases n
    all_goals exact ⟨by decide, _, rfl⟩

theorem keyToBytes_eq_nil_iff {code : KeyCode} {mods : Modifiers} :
    keyToBytes code mods = [] ↔ code.Unknown := by
  cases code with
  | f n =>
    obtain ⟨hn, hnil, -⟩ | ⟨hn, hnil, -⟩ := f_cases n mods
    · exact iff_of_true hnil ⟨n, rfl, hn⟩
    · refine iff_of_false hnil ?_
      rintro ⟨m, hm, hout⟩
      exact hn (KeyCode.f.inj hm ▸ hout)
  | char ch =>
    refine iff_of_false (fun hnil => ?_) nofun
    rw [keyToBytes] at hnil
    split_ifs at hnil
    have hlen := String.length_utf8EncodeChar ch
    rw [hnil] at hlen
    exact absurd hlen.symm ch.utf8Size_pos.ne'
  | _ =>
    refine iff_of_false ?_ nofun
    rw [keyToBytes]
    decide

theorem kitty_f (n : UInt8) (mods : Modifiers) (eventType flags : UInt8) :
    kittyKeyToBytes (.f n) mods eventType flags =
      match kittyFunctionalCodepoint (.f n) with
      | some codepoint => csiU codepoint mods eventType flags
      | none => keyToBytes (.f n) mods := by
  unfold kittyKeyToBytes
  rfl

/-- The Kitty encoder sends a CSI u sequence for a key that has one, and nothing for the others. -/
theorem kittyKeyToBytes_cases (code : KeyCode) (mods : Modifiers) (eventType flags : UInt8) :
    (code.Unknown ∧ kittyKeyToBytes code mods eventType flags = []) ∨
      (¬code.Unknown ∧ ∃ codepoint mods',
        kittyKeyToBytes code mods eventType flags = csiU codepoint mods' eventType flags) := by
  cases code with
  | f n =>
    obtain ⟨hn, hnil, hnone⟩ | ⟨hn, -, codepoint, hsome⟩ := f_cases n mods
    · refine .inl ⟨⟨n, rfl, hn⟩, ?_⟩
      rw [kitty_f, hnone]
      exact hnil
    · refine .inr ⟨?_, codepoint, mods, ?_⟩
      · rintro ⟨m, hm, hout⟩
        exact hn (KeyCode.f.inj hm ▸ hout)
      · rw [kitty_f, hsome]
  | _ => exact .inr ⟨nofun, _, _, rfl⟩

/-- **Event types**: with event-type reporting off, which events are handled as they should be. -/
theorem eventOk_iff {code : KeyCode} {mods : Modifiers} {eventType flags : UInt8}
    (hflags : flags &&& 0x02 = 0) :
    EventOk code mods eventType flags ↔ EventFits code eventType flags := by
  have hnil : ¬CarriesEventType [] := fun h => absurd (count_of_carries h) (by decide)
  unfold EventOk EventFits keyEventBytes
  by_cases hlegacy : flags = 0
  · have hplain : ¬CarriesEventType (keyToBytes code mods) := fun h => by
      have htwo := count_of_carries h
      have hone := count_keyToBytes code mods
      omega
    rw [if_neg (not_not.2 hlegacy), if_pos hlegacy, keyToBytes_eq_nil_iff]
    constructor
    · rintro ⟨hrelease, -⟩
      exact or_iff_not_imp_right.2 fun h => hrelease (not_not.1 h)
    · rintro (hunknown | hevent)
      · exact ⟨fun _ => hunknown, hplain⟩
      · exact ⟨fun h => absurd h hevent, hplain⟩
  · rw [if_pos hlegacy, if_neg hlegacy]
    obtain ⟨hunknown, hbytes⟩ | ⟨hknown, codepoint, mods', hbytes⟩ :=
      kittyKeyToBytes_cases code mods eventType flags
    · rw [hbytes]
      exact iff_of_true ⟨fun _ => rfl, hnil⟩ (.inl hunknown)
    · rw [hbytes, csiU_carries_iff hflags, not_not]
      constructor
      · rintro ⟨-, hpress⟩
        exact .inr hpress
      · rintro (hunknown | hpress)
        · exact absurd hunknown hknown
        · refine ⟨?_, hpress⟩
          rintro rfl
          exact absurd hpress (by decide)

/-! ## Key events -/

/-- **A key event is as it should be** exactly as long as Ctrl is not held with a character whose
    low five bits are those of another character's control byte, and, with event-type reporting
    off, the event is a press (for the legacy encoder: no release) or the key has no bytes. -/
theorem keyOk_iff (code : KeyCode) (mods : Modifiers) (eventType flags : UInt8) :
    KeyOk code mods eventType flags ↔
      (∀ ch, code = .char ch → mods.isCtrl → CtrlFits ch) ∧
        (flags &&& 0x02 = 0 → EventFits code eventType flags) := by
  constructor
  · rintro ⟨hctrl, hevent⟩
    exact ⟨fun ch hcode hmods => (ctrlOk_iff hmods).1 (hctrl ch hcode hmods),
      fun hflags => (eventOk_iff hflags).1 (hevent hflags)⟩
  · rintro ⟨hctrl, hevent⟩
    exact ⟨fun ch hcode hmods => (ctrlOk_iff hmods).2 (hctrl ch hcode hmods),
      fun hflags => (eventOk_iff hflags).2 (hevent hflags)⟩

/-- Ctrl with `ã` sends what Ctrl with `c` sends, and a release is sent with its event type by the
    Kitty encoder and as a second press by the legacy encoder. -/
theorem key_slips :
    ¬KeyOk (.char 'ã') ⟨0x02⟩ 1 0 ∧ keyToBytes (.char 'ã') ⟨0x02⟩ = [0x03] ∧
      ¬KeyOk (.char 'a') ⟨0⟩ 3 0x01 ∧ ¬KeyOk (.char 'a') ⟨0⟩ 3 0 := by
  have hfits : ∀ {flags}, flags = 0 ∨ flags = 1 → ¬EventFits (.char 'a') 3 flags := by
    rintro flags (rfl | rfl) (⟨n, hn, -⟩ | hpress)
    · cases hn
    · exact absurd hpress (by decide)
    · cases hn
    · exact absurd hpress (by decide)
  refine ⟨fun h => ?_, by decide, fun h => ?_, fun h => ?_⟩
  · have hctrl := (ctrlOk_iff (by decide)).1 (h.ctrl 'ã' rfl (by decide))
    revert hctrl
    unfold CtrlFits
    decide
  · exact hfits (.inr rfl) ((eventOk_iff (by decide)).1 (h.event (by decide)))
  · exact hfits (.inl rfl) ((eventOk_iff (by decide)).1 (h.event (by decide)))

end Nexterm.Server

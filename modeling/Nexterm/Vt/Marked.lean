/-
  CSI sequences with a private marker (`csi_dispatch` in `performer.rs`).

  * `Marked`: a sequence with a marker for which the dispatcher implements nothing.
  * `SameScreen`: cells, cursor, style, region and modes are what they were.
  * `Mistaken`: the sequences that are taken for the ones without the marker.
  * `marked_frame_iff`: a marked sequence leaves every screen alone exactly if it is none of these.

  For SGR, `Setter` is what one attribute does, and `Component` what it overwrites: a list of
  attributes that does something overwrites a component, whatever comes later.
-/
import Nexterm.Vt.Performer

namespace Nexterm.Vt

/-! ## SGR -/

/-- What an attribute does to the style. -/
inductive Setter
  | reset
  | insert (flags : UInt8) (ne_zero : flags ≠ 0)
  | remove (flags : UInt8) (ne_zero : flags ≠ 0)
  | fg (color : Color)
  | bg (color : Color)

namespace Setter

def apply : Setter → Style → Style
  | reset, _ => {}
  | insert flags _, s => { s with attrs := s.attrs.insert flags }
  | remove flags _, s => { s with attrs := s.attrs.remove flags }
  | fg color, s => { s with fg := color }
  | bg color, s => { s with bg := color }

/-- What a single parameter does. -/
def ofParam (p : ℕ) : Option Setter :=
  if p = 0 then some reset
  else if p = 1 then some (insert Attrs.bold (by decide))
  else if p = 3 then some (insert Attrs.italic (by decide))
  else if p = 4 then some (insert Attrs.underline (by decide))
  else if p = 5 then some (insert Attrs.blink (by decide))
  else if p = 7 then some (insert Attrs.reverse (by decide))
  else if p = 9 then some (insert Attrs.strikethrough (by decide))
  else if p = 22 then some (remove Attrs.bold (by decide))
  else if p = 24 then some (remove Attrs.underline (by decide))
  else if p = 27 then some (remove Attrs.reverse (by decide))
  else if 30 ≤ p ∧ p ≤ 37 then some (fg (.indexed (UInt8.ofNat (p - 30))))
  else if p = 39 then some (fg .default)
  else if 40 ≤ p ∧ p ≤ 47 then some (bg (.indexed (UInt8.ofNat (p - 40))))
  else if p = 49 then some (bg .default)
  else if 90 ≤ p ∧ p ≤ 97 then some (fg (.indexed (UInt8.ofNat (p - 90 + 8))))
  else if 100 ≤ p ∧ p ≤ 107 then some (bg (.indexed (UInt8.ofNat (p - 100 + 8))))
  else none

/-- A parameter that is none does nothing. -/
def act (w : Option Setter) (s : Style) : Style := w.elim s (apply · s)

theorem applyOne_eq (s : Style) (p : ℕ) : s.applyOne p = act (ofParam p) s := by
  have hite : ∀ (c : Prop) [Decidable c] (w w' : Option Setter),
      act (if c then w else w') s = if c then act w s else act w' s := fun c _ w w' => by
    split_ifs <;> rfl
  simp only [ofParam, hite]
  rfl

end Setter

/-- Whether a single parameter is an attribute or a color. -/
def sgrSupported (p : ℕ) : Bool :=
  p ∈ [0, 1, 3, 4, 5, 7, 9, 22, 24, 27, 39, 49] ∨ (30 ≤ p ∧ p ≤ 37) ∨ (40 ≤ p ∧ p ≤ 47) ∨
    (90 ≤ p ∧ p ≤ 97) ∨ (100 ≤ p ∧ p ≤ 107)

/-- No parameter is read as an attribute or a color. -/
def sgrInert : List ℕ → Bool
  | [] => true
  | p :: params =>
    if p = 38 ∨ p = 48 then
      match params with
      | 5 :: _ :: _ => false
      | 2 :: _ :: _ :: _ :: _ => false
      | params => sgrInert params
    else !sgrSupported p && sgrInert params

/-! ## Marked sequences -/

/-- The final bytes that the dispatcher implements for a marker. -/
def implemented (marker : UInt8) (action : Char) : Bool :=
  (marker = 0x3f ∧ (action = 'h' ∨ action = 'l')) ∨
    ((marker = 0x3e ∨ marker = 0x3c) ∧ action = 'u') ∨ (marker = 0x3e ∧ action = 'c')

/-- A sequence with a private marker for which nothing is implemented. -/
def Marked (intermediates : List UInt8) (action : Char) : Prop :=
  ∃ marker ∈ intermediates.head?, marker ∈ [0x3c, 0x3d, 0x3e, 0x3f] ∧
    implemented marker action = false

/-- The same cells, cursor, style, scroll region and modes. -/
structure SameScreen (s s' : Screen) : Prop where
  grid : s'.grid = s.grid
  altScreen : s'.altScreen = s.altScreen
  cursorCol : s'.cursorCol = s.cursorCol
  cursorRow : s'.cursorRow = s.cursorRow
  style : s'.style = s.style
  scrollTop : s'.scrollTop = s.scrollTop
  scrollBottom : s'.scrollBottom = s.scrollBottom
  altMode : s'.altMode = s.altMode
  bracketedPaste : s'.bracketedPaste = s.bracketedPaste
  synchronizedOutput : s'.synchronizedOutput = s.synchronizedOutput
  mouseMode : s'.mouseMode = s.mouseMode
  keyboardProtocolFlags : s'.keyboardProtocolFlags = s.keyboardProtocolFlags
  keyboardProtocolStack : s'.keyboardProtocolStack = s.keyboardProtocolStack

/-- A sequence whose final byte and parameters do something without the marker: cursor movements,
    the scroll region, erasing with a known mode and SGR with an attribute. -/
def mistaken (params : List (List ℕ)) (action : Char) : Bool :=
  let p := params.map fun sub => sub.head?.getD 0
  match action with
  | 'H' | 'f' | 'A' | 'B' | 'C' | 'D' | 'G' | 'd' | 'r' => true
  | 'J' => Screen.paramOr p 0 0 ≤ 3
  | 'K' => Screen.paramOr p 0 0 ≤ 2
  | 'm' => !sgrInert p
  | _ => false

/-! ## What SGR overwrites -/

/-- A part of the style: a color, or some of the flags. -/
inductive Component
  | fg
  | bg
  | flags (mask : UInt8)

/-- The style with only this part. -/
def Component.of : Component → Style → Style
  | fg, s => { fg := s.fg }
  | bg, s => { bg := s.bg }
  | flags mask, s => { attrs := ⟨s.attrs.bits &&& mask⟩ }

/-- Afterwards the part is the same, whatever the style was. -/
def Overwrites (c : Component) (f : Style → Style) : Prop := ∀ s s', c.of (f s) = c.of (f s')

/-- The part afterwards depends on this part only. -/
def Respects (f : Style → Style) : Prop :=
  ∀ (c : Component) (s s' : Style), c.of s = c.of s' → c.of (f s) = c.of (f s')

/-- A part that has two values. -/
def Component.Varies (c : Component) : Prop := ∃ s s', c.of s ≠ c.of s'

theorem Respects.id : Respects fun s => s := fun _ _ _ h => h

theorem Respects.comp {f g : Style → Style} (hf : Respects f) (hg : Respects g) :
    Respects fun s => g (f s) := fun c s s' h => hg c _ _ (hf c s s' h)

theorem Overwrites.comp {c : Component} {f g : Style → Style} (hf : Overwrites c f)
    (hg : Respects g) : Overwrites c fun s => g (f s) := fun s s' => hg c _ _ (hf s s')

theorem Overwrites.ne_id {c : Component} {f : Style → Style} (hc : c.Varies) (h : Overwrites c f) :
    ∃ s, f s ≠ s := by
  obtain ⟨s, s', hne⟩ := hc
  by_contra hid
  have hid' : ∀ s, f s = s := by simpa using hid
  have hsame := h s s'
  rw [hid', hid'] at hsame
  exact hne hsame

namespace Setter

theorem or_and_flags (a b mask : UInt8) :
    (a ||| b) &&& mask = (a &&& mask) ||| (b &&& mask) := by
  rw [← UInt8.toBitVec_inj]
  ext i
  simp [Bool.and_or_distrib_right]

theorem and_or_self_flags (a b : UInt8) : (a &&& b) ||| b = b := by
  rw [← UInt8.toBitVec_inj]
  ext i
  simp

theorem respects (w : Setter) : Respects w.apply := by
  intro c s s' h
  cases c with
  | fg =>
    have hfg : s.fg = s'.fg := (congrArg Style.fg h :)
    cases w with
    | reset => rfl
    | insert | remove | bg => exact congrArg (fun c => ({ fg := c } : Style)) hfg
    | fg => rfl
  | bg =>
    have hbg : s.bg = s'.bg := (congrArg Style.bg h :)
    cases w with
    | reset => rfl
    | insert | remove | fg => exact congrArg (fun c => ({ bg := c } : Style)) hbg
    | bg => rfl
  | flags mask =>
    have hflags : s.attrs.bits &&& mask = s'.attrs.bits &&& mask :=
      congrArg (fun st : Style => st.attrs.bits) h
    suffices hbits : (w.apply s).attrs.bits &&& mask = (w.apply s').attrs.bits &&& mask from
      congrArg (fun b => ({ attrs := ⟨b⟩ } : Style)) hbits
    cases w with
    | reset => rfl
    | fg | bg => exact hflags
    | insert flags _ =>
      show (_ ||| flags) &&& mask = (_ ||| flags) &&& mask
      rw [or_and_flags, or_and_flags, hflags]
    | remove flags _ =>
      show (_ &&& ~~~flags) &&& mask = (_ &&& ~~~flags) &&& mask
      rw [UInt8.and_assoc, UInt8.and_comm (~~~flags), ← UInt8.and_assoc, hflags, UInt8.and_assoc,
        UInt8.and_comm mask, ← UInt8.and_assoc]

/-- The part that an attribute sets. -/
theorem overwrites (w : Setter) : ∃ c : Component, c.Varies ∧ Overwrites c w.apply := by
  have hfg : Component.fg.Varies := ⟨{}, { fg := .indexed 0 }, by decide⟩
  have hbg : Component.bg.Varies := ⟨{}, { bg := .indexed 0 }, by decide⟩
  have hflags : ∀ mask, mask ≠ 0 → (Component.flags mask).Varies := fun mask hmask => by
    refine ⟨{}, { attrs := ⟨mask⟩ }, fun hsame => hmask ?_⟩
    have hbits : 0 &&& mask = mask &&& mask := congrArg (fun st => st.attrs.bits) hsame
    rw [UInt8.zero_and, UInt8.and_self] at hbits
    exact hbits.symm
  cases w with
  | reset => exact ⟨.fg, hfg, fun _ _ => rfl⟩
  | fg => exact ⟨.fg, hfg, fun _ _ => rfl⟩
  | bg => exact ⟨.bg, hbg, fun _ _ => rfl⟩
  | insert flags h =>
    refine ⟨.flags flags, hflags flags h, fun s s' => ?_⟩
    have hset : ∀ a : UInt8, (a ||| flags) &&& flags = flags := fun a => by
      rw [or_and_flags, UInt8.and_self]
      exact and_or_self_flags a flags
    exact congrArg (fun b => ({ attrs := ⟨b⟩ } : Style)) ((hset _).trans (hset _).symm)
  | remove flags h =>
    refine ⟨.flags flags, hflags flags h, fun s s' => ?_⟩
    have hcleared : ∀ a : UInt8, (a &&& ~~~flags) &&& flags = 0 := fun a => by
      rw [UInt8.and_assoc, UInt8.not_and_self, UInt8.and_zero]
    exact congrArg (fun b => ({ attrs := ⟨b⟩ } : Style)) ((hcleared _).trans (hcleared _).symm)

theorem ofParam_eq_none_iff (p : ℕ) : ofParam p = none ↔ sgrSupported p = false := by
  have hite : ∀ (c : Prop) [Decidable c] (w : Setter) (o : Option Setter),
      (if c then some w else o) = none ↔ ¬c ∧ o = none := fun c _ w o => by
    by_cases hc : c <;> simp [hc]
  simp only [ofParam, hite, sgrSupported, decide_eq_false_iff_not, List.mem_cons,
    List.not_mem_nil, or_false, and_true]
  omega

end Setter

/-- The color after a 38 or a 48, and the parameters after it. -/
def extendedColor : List ℕ → Option (Color × List ℕ)
  | 5 :: n :: rest => some (.indexed (UInt8.ofNat n), rest)
  | 2 :: r :: g :: b :: rest =>
    some (.rgb (UInt8.ofNat r) (UInt8.ofNat g) (UInt8.ofNat b), rest)
  | _ => none

theorem length_extendedColor {params rest : List ℕ} {color : Color}
    (h : extendedColor params = some (color, rest)) : rest.length ≤ params.length := by
  unfold extendedColor at h
  split at h <;> cases h <;> simp only [List.length_cons] <;> omega

theorem applySgr_extended {p : ℕ} (hp : p = 38 ∨ p = 48) (params : List ℕ) (s : Style) :
    s.applySgr (p :: params) = match extendedColor params with
      | some (color, rest) =>
        (if p = 38 then { s with fg := color } else { s with bg := color }).applySgr rest
      | none => s.applySgr params := by
  conv_lhs => unfold Style.applySgr
  rw [if_pos hp]
  by_cases hfg : p = 38
  · simp only [if_pos hfg]
    split
    · rfl
    · rfl
    · next hindexed hrgb => rw [extendedColor.eq_3 _ hindexed hrgb]
  · simp only [if_neg hfg]
    split
    · rfl
    · rfl
    · next hindexed hrgb => rw [extendedColor.eq_3 _ hindexed hrgb]

theorem sgrInert_extended {p : ℕ} (hp : p = 38 ∨ p = 48) (params : List ℕ) :
    sgrInert (p :: params) = ((extendedColor params).isNone && sgrInert params) := by
  conv_lhs => unfold sgrInert
  rw [if_pos hp]
  split
  · rfl
  · rfl
  · next hindexed hrgb =>
    rw [extendedColor.eq_3 _ hindexed hrgb]
    rfl

/-- The first parameter, together with those that it takes, does one thing. -/
theorem applySgr_step (p : ℕ) (params : List ℕ) : ∃ (w : Option Setter) (rest : List ℕ),
    rest.length ≤ params.length ∧
      (∀ s : Style, s.applySgr (p :: params) = (Setter.act w s).applySgr rest) ∧
        sgrInert (p :: params) = (w.isNone && sgrInert rest) := by
  by_cases hp : p = 38 ∨ p = 48
  · cases hcolor : extendedColor params with
    | none =>
      refine ⟨none, params, le_rfl, fun s => ?_, ?_⟩
      · rw [applySgr_extended hp, hcolor]
        rfl
      · rw [sgrInert_extended hp, hcolor]
        rfl
    | some extended =>
      obtain ⟨color, rest⟩ := extended
      refine ⟨some (if p = 38 then .fg color else .bg color), rest, length_extendedColor hcolor,
        fun s => ?_, ?_⟩
      · rw [applySgr_extended hp, hcolor]
        by_cases hfg : p = 38
        · simp only [if_pos hfg]
          rfl
        · simp only [if_neg hfg]
          rfl
      · rw [sgrInert_extended hp, hcolor]
        rfl
  · refine ⟨Setter.ofParam p, params, le_rfl, fun s => ?_, ?_⟩
    · conv_lhs => unfold Style.applySgr
      rw [if_neg hp, Setter.applyOne_eq]
    · conv_lhs => unfold sgrInert
      rw [if_neg hp]
      congr 1
      rw [Bool.eq_iff_iff, Option.isNone_iff_eq_none, Setter.ofParam_eq_none_iff,
        Bool.not_eq_true']

/-- Every list of parameters keeps the parts of the style apart. -/
theorem respects_applySgr : ∀ params : List ℕ, Respects fun s => s.applySgr params
  | [] => .id
  | p :: params => by
    obtain ⟨w, rest, hlen, hstep, -⟩ := applySgr_step p params
    have hw : Respects (Setter.act w) := by
      cases w with
      | none => exact .id
      | some w => exact w.respects
    simp only [hstep]
    exact hw.comp (respects_applySgr rest)
termination_by params => params.length
decreasing_by exact Nat.lt_succ_of_le hlen

/-- A list of parameters that are not read does nothing, and any other list overwrites a part. -/
theorem applySgr_cases : ∀ params : List ℕ,
    if sgrInert params then ∀ s : Style, s.applySgr params = s
    else ∃ c : Component, c.Varies ∧ Overwrites c fun s => s.applySgr params
  | [] => fun _ => rfl
  | p :: params => by
    obtain ⟨w, rest, hlen, hstep, hinert⟩ := applySgr_step p params
    rw [hinert]
    simp only [hstep]
    cases w with
    | none => exact applySgr_cases rest
    | some w =>
      obtain ⟨c, hc, hover⟩ := w.overwrites
      exact ⟨c, hc, hover.comp (respects_applySgr rest)⟩
termination_by params => params.length
decreasing_by exact Nat.lt_succ_of_le hlen

/-- **SGR does nothing** exactly with parameters none of which is read. -/
theorem applySgr_eq_self_iff (params : List ℕ) :
    (∀ s : Style, s.applySgr params = s) ↔ sgrInert params = true := by
  have hcases := applySgr_cases params
  split_ifs at hcases with hinert
  · exact iff_of_true hcases hinert
  · obtain ⟨c, hc, hover⟩ := hcases
    obtain ⟨s, hs⟩ := hover.ne_id hc
    exact iff_of_false (fun h => hs (h s)) hinert

/-! ## Frames -/

variable {params : List (List ℕ)} {intermediates : List UInt8} {action : Char}

theorem SameScreen.rfl {s : Screen} : SameScreen s s := by
  constructor <;> rfl

theorem Marked.csiDispatch (h : Marked intermediates action) (s : Screen) :
    s.csiDispatch params intermediates action = s.csiAction params intermediates action := by
  obtain ⟨marker, hmarker, -, hnone⟩ := h
  have hmode : ∀ final, final = 'h' ∨ final = 'l' →
      ¬(intermediates.head? = some 0x3f ∧ action = final) := by
    rintro final hfinal ⟨hhead, rfl⟩
    obtain rfl : marker = 0x3f := Option.some.inj (hmarker.symm.trans hhead)
    rcases hfinal with rfl | rfl <;> exact absurd hnone (by decide)
  unfold Screen.csiDispatch
  rw [if_neg (hmode 'h' (.inl rfl)), if_neg (hmode 'l' (.inr rfl))]

theorem Marked.not_implemented (h : Marked intermediates action) {marker : UInt8}
    (hhead : intermediates.head? = some marker) : implemented marker action = false := by
  obtain ⟨marker', hmarker, -, hnone⟩ := h
  obtain rfl : marker' = marker := Option.some.inj (hmarker.symm.trans hhead)
  exact hnone

theorem eraseInDisplay_of_lt {mode : ℕ} (h : 3 < mode) (s : Screen) :
    s.eraseInDisplay mode = s := by
  match mode, h with
  | n + 4, _ => rfl

theorem eraseInLine_of_lt {mode : ℕ} (h : 2 < mode) (s : Screen) :
    s.eraseInLine mode = s.markDirty s.cursorRow := by
  match mode, h with
  | n + 3, _ => rfl

/-- A marked sequence that is not mistaken at most asks for a reply. -/
theorem Marked.frame (h : Marked intermediates action) (hm : mistaken params action = false)
    (s : Screen) : SameScreen s (s.csiDispatch params intermediates action) := by
  rw [h.csiDispatch]
  have hreply : ∀ reply, SameScreen s (s.pushPendingResponse reply) := fun reply => by
    constructor <;> rfl
  unfold Screen.csiAction
  dsimp only
  split
  case h_9 =>
    rw [eraseInDisplay_of_lt (not_le.1 (of_decide_eq_false hm))]
    exact .rfl
  case h_10 =>
    rw [eraseInLine_of_lt (not_le.1 (of_decide_eq_false hm))]
    constructor <;> rfl
  case h_11 =>
    have hinert : sgrInert (params.map fun sub => sub.head?.getD 0) = true := by
      simpa [mistaken] using hm
    rw [(applySgr_eq_self_iff _).2 hinert]
    exact .rfl
  case h_13 =>
    split_ifs with hpush hpop
    · exact absurd (h.not_implemented hpush) (by decide)
    · exact absurd (h.not_implemented hpop) (by decide)
    · exact .rfl
  case h_14 =>
    split_ifs with hsecondary hprimary
    · exact absurd (h.not_implemented hsecondary) (by decide)
    · exact hreply _
    · exact .rfl
  case h_15 =>
    split_ifs
    · exact .rfl
    · exact hreply _
    · exact hreply _
    · exact .rfl
  case h_16 => exact .rfl
  all_goals exact absurd (show true = false from hm) (by decide)

/-- The screen of two columns and two rows, with the cursor at a position. -/
def cursorAt (col row : ℕ) : Screen := (Screen.new 2 2).moveCursor col row

/-- The screen of one cell, with a character. -/
def filled : Screen := ((Screen.new 1 1).writeChar 'x' 1).moveCursor 0 0

theorem erases_display {mode : ℕ} (h : mode ≤ 3) :
    (filled.eraseInDisplay mode).grid ≠ filled.grid := by
  interval_cases mode <;> decide

theorem erases_line {mode : ℕ} (h : mode ≤ 2) :
    (filled.eraseInLine mode).grid ≠ filled.grid := by
  interval_cases mode <;> decide

/-- A marked sequence that is mistaken changes some screen. -/
theorem Marked.changes (h : Marked intermediates action) (hm : mistaken params action = true) :
    ∃ s, ¬SameScreen s (s.csiDispatch params intermediates action) := by
  by_contra hall
  have hsame : ∀ s, SameScreen s (s.csiAction params intermediates action) := fun s => by
    rw [← h.csiDispatch]
    exact not_not.1 (not_exists.1 hall s)
  have hcol : ∀ c r, ((cursorAt c r).csiAction params intermediates action).cursorCol = min c 1 :=
    fun c r => (hsame (cursorAt c r)).cursorCol
  have hrow : ∀ c r, ((cursorAt c r).csiAction params intermediates action).cursorRow = min r 1 :=
    fun c r => (hsame (cursorAt c r)).cursorRow
  have hp1 : 0 < Screen.paramOr (params.map fun sub => sub.head?.getD 0) 0 1 := by
    unfold Screen.paramOr
    split_ifs <;> omega
  unfold mistaken at hm
  dsimp only at hm
  split at hm
  case h_1 | h_2 | h_7 =>
    -- the column is set, wherever the cursor was
    exact absurd ((hcol 0 0).symm.trans (hcol 1 0)) (by decide)
  case h_3 =>
    have hup : min (1 - Screen.paramOr (params.map fun sub => sub.head?.getD 0) 0 1) 1 = 1 :=
      hrow 0 1
    omega
  case h_4 =>
    have hdown : min (min (saturatingAdd 0
        (Screen.paramOr (params.map fun sub => sub.head?.getD 0) 0 1)) 1) 1 = 0 := hrow 0 0
    unfold saturatingAdd at hdown
    omega
  case h_5 =>
    have hforward : min (min (saturatingAdd 0
        (Screen.paramOr (params.map fun sub => sub.head?.getD 0) 0 1)) 1) 1 = 0 := hcol 0 0
    unfold saturatingAdd at hforward
    omega
  case h_6 =>
    have hback : min (1 - Screen.paramOr (params.map fun sub => sub.head?.getD 0) 0 1) 1 = 1 :=
      hcol 1 0
    omega
  case h_8 => exact absurd ((hrow 0 0).symm.trans (hrow 0 1)) (by decide)
  case h_9 => exact absurd (show 0 = 1 from hcol 1 0) (by decide)
  case h_10 => exact erases_display (of_decide_eq_true hm) (hsame filled).grid
  case h_11 => exact erases_line (of_decide_eq_true hm) (hsame filled).grid
  case h_12 =>
    have hinert := (applySgr_eq_self_iff _).1 fun st =>
      (hsame { Screen.new 1 1 with style := st }).style
    rw [hinert] at hm
    cases hm
  case h_13 => cases hm

/-- **A sequence with a private marker leaves every screen alone** exactly if it is not mistaken. -/
theorem marked_frame_iff (h : Marked intermediates action) :
    (∀ s, SameScreen s (s.csiDispatch params intermediates action)) ↔
      mistaken params action = false := by
  constructor
  · intro hframe
    by_contra hm
    obtain ⟨s, hs⟩ := h.changes (by simpa using hm)
    exact hs (hframe s)
  · exact fun hm s => h.frame hm s

/-- The query for the version of the terminal does nothing. -/
theorem version_query_frame :
    Marked [0x3e] 'q' ∧ ∀ s : Screen, SameScreen s (s.csiDispatch [[0]] [0x3e] 'q') := by
  have hmarked : Marked [0x3e] 'q' := ⟨0x3e, rfl, by decide, by decide⟩
  exact ⟨hmarked, (marked_frame_iff hmarked).2 rfl⟩

/-- `modifyOtherKeys` underlines. -/
theorem modifyOtherKeys_underlines :
    Marked [0x3e] 'm' ∧
      ((Screen.new 80 24).csiDispatch [[4], [2]] [0x3e] 'm').style.attrs = ⟨Attrs.underline⟩ ∧
      ¬∀ s, SameScreen s (s.csiDispatch [[4], [2]] [0x3e] 'm') := by
  refine ⟨⟨0x3e, rfl, by decide, by decide⟩, rfl, fun h => ?_⟩
  have hattrs : (⟨Attrs.underline⟩ : Attrs) = ⟨0⟩ := congrArg Style.attrs (h (Screen.new 80 24)).style
  exact absurd hattrs (by decide)

end Nexterm.Vt

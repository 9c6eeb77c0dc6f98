/-
  The mouse mode (`dec_private_mode` in `performer.rs`, `handle_mouse_report` in `pane_dispatch.rs`):
  the DEC private modes 1000 and 1006 are folded into one number.

  * `ModeEvent`: a mode that is set or reset; a sequence has one for each parameter.
  * `isSet`: the modes that are set after some events.
  * `ReflectsModes`: the mouse mode says which of the two are set.
  * `LastAgrees`: the condition under which it does, on the last event of the two modes.
  * `reflectsModes_iff`: it is exact for every run.
-/
import Nexterm.Vt.Performer

namespace Nexterm.Vt

/-! ## Runs -/

/-- A DEC private sequence: its parameters, and whether it sets or resets. -/
structure ModeSequence where
  params : List (List ℕ)
  enable : Bool

/-- A mode that is set or reset. -/
structure ModeEvent where
  mode : ℕ
  enable : Bool

/-- The screen after some sequences. -/
def Screen.modeRun (s : Screen) (seqs : List ModeSequence) : Screen :=
  seqs.foldl (fun s q => s.csiDispatch q.params [0x3f] (if q.enable then 'h' else 'l')) s

/-- The modes that a sequence mentions, one after the other. -/
def ModeSequence.events (q : ModeSequence) : List ModeEvent :=
  q.params.map fun param => ⟨param.head?.getD 0, q.enable⟩

/-- What is written to the pane for a mouse event. -/
def mouseReport (mouseMode button col row : ℕ) (pressed motion : Bool) : Option String :=
  if mouseMode > 0 then
    let suffix := if pressed || motion then "M" else "m"
    let cb := button + if motion then 32 else 0
    some ("\x1b[<" ++ toString cb ++ ";" ++ toString (col + 1) ++ ";" ++ toString (row + 1) ++ suffix)
  else none

/-- Whether a mode is set after some events. -/
def isSet (mode : ℕ) (events : List ModeEvent) : Bool :=
  events.foldl (fun set e => if e.mode = mode then e.enable else set) false

/-- The mouse mode: X11 ?1000 = 1, SGR ?1006 = 2, 0 = off; without X11 reporting there is nothing to
    extend. -/
def mouseModeOf (x11 sgr : Bool) : ℕ := if x11 then if sgr then 2 else 1 else 0

/-- After the sequences, mouse events are reported exactly if mode 1000 is set, and the mouse mode is
    that of the two modes that are set. -/
structure ReflectsModes (s : Screen) (seqs : List ModeSequence) : Prop where
  reports : ∀ button col row pressed motion,
    (mouseReport (s.modeRun seqs).mouseMode button col row pressed motion).isSome =
      isSet 1000 (seqs.flatMap ModeSequence.events)
  mode : (s.modeRun seqs).mouseMode =
    mouseModeOf (isSet 1000 (seqs.flatMap ModeSequence.events))
      (isSet 1006 (seqs.flatMap ModeSequence.events))

/-- Whether an event is about the mouse. -/
def ModeEvent.isMouse (e : ModeEvent) : Bool := e.mode = 1000 ∨ e.mode = 1006

/-- The last event about the mouse resets mode 1000; or it sets mode 1000 while mode 1006 is not set,
    sets mode 1006 while mode 1000 is set, or resets mode 1006 while mode 1000 is not set. -/
def LastAgrees (events : List ModeEvent) : Prop :=
  ∀ e, (events.filter ModeEvent.isMouse).getLast? = some e →
    if e.mode = 1000 then e.enable = true → isSet 1006 events = false
    else isSet 1000 events = e.enable

/-! ## Events -/

theorem modeRun_eq (s : Screen) (seqs : List ModeSequence) :
    s.modeRun seqs =
      (seqs.flatMap ModeSequence.events).foldl (fun s e => s.setMode e.enable e.mode) s := by
  rw [List.foldl_flatMap]
  refine List.foldl_ext _ _ _ fun s q _ => ?_
  rw [ModeSequence.events, List.foldl_map]
  cases henable : q.enable <;> rfl

/-- The mouse mode after one event. -/
theorem mouseMode_setMode (s : Screen) (e : ModeEvent) :
    (s.setMode e.enable e.mode).mouseMode =
      if e.mode = 1000 then if e.enable then 1 else 0
      else if e.mode = 1006 then if e.enable then 2 else 0
      else s.mouseMode := by
  have halt : s.switchToAlt.mouseMode = s.mouseMode := by
    unfold Screen.switchToAlt
    split_ifs <;> rfl
  have hprimary : s.switchToPrimary.mouseMode = s.mouseMode := by
    unfold Screen.switchToPrimary
    split_ifs
    · rfl
    · cases s.altScreen <;> rfl
  unfold Screen.setMode
  by_cases hbuffer : e.mode = 47 ∨ e.mode = 1047 ∨ e.mode = 1049
  · have hx11 : e.mode ≠ 1000 := by omega
    have hsgr : e.mode ≠ 1006 := by omega
    rw [if_pos hbuffer, if_neg hx11, if_neg hsgr]
    cases e.enable
    · exact hprimary
    · exact halt
  · rw [if_neg hbuffer]
    split_ifs <;> rfl

theorem isSet_append (mode : ℕ) (events : List ModeEvent) (e : ModeEvent) :
    isSet mode (events ++ [e]) = if e.mode = mode then e.enable else isSet mode events := by
  rw [isSet, List.foldl_append]
  rfl

theorem lastMouse_append (events : List ModeEvent) (e : ModeEvent) :
    ((events ++ [e]).filter ModeEvent.isMouse).getLast? =
      if e.isMouse then some e else (events.filter ModeEvent.isMouse).getLast? := by
  rw [List.filter_append]
  by_cases hmouse : e.isMouse = true
  · rw [List.filter_cons_of_pos hmouse, List.filter_nil, List.getLast?_concat,
      if_pos hmouse]
  · rw [List.filter_cons_of_neg hmouse, List.filter_nil, List.append_nil, if_neg hmouse]

/-- The mouse mode is that of the last event about the mouse. -/
theorem mouseMode_foldl (s : Screen) (events : List ModeEvent) :
    (events.foldl (fun s e => s.setMode e.enable e.mode) s).mouseMode =
      match (events.filter ModeEvent.isMouse).getLast? with
      | none => s.mouseMode
      | some e => if e.enable then if e.mode = 1000 then 1 else 2 else 0 := by
  induction events using List.reverseRecOn with
  | nil => rfl
  | append_singleton events e ih =>
    rw [List.foldl_append, lastMouse_append]
    show (Screen.setMode _ e.enable e.mode).mouseMode = _
    rw [mouseMode_setMode, ih]
    by_cases hx11 : e.mode = 1000
    · have hmouse : e.isMouse = true := decide_eq_true (.inl hx11)
      rw [if_pos hx11, if_pos hmouse]
      dsimp only
      rw [if_pos hx11]
    · rw [if_neg hx11]
      by_cases hsgr : e.mode = 1006
      · have hmouse : e.isMouse = true := decide_eq_true (.inr hsgr)
        rw [if_pos hsgr, if_pos hmouse]
        dsimp only
        rw [if_neg hx11]
      · have hmouse : ¬e.isMouse = true := fun h => (of_decide_eq_true h).elim hx11 hsgr
        rw [if_neg hsgr, if_neg hmouse]

/-- The mode of the last event about the mouse is set if the event sets it. -/
theorem isSet_lastMouse {events : List ModeEvent} {e : ModeEvent}
    (h : (events.filter ModeEvent.isMouse).getLast? = some e) : isSet e.mode events = e.enable := by
  induction events using List.reverseRecOn with
  | nil => cases h
  | append_singleton events e' ih =>
    rw [lastMouse_append] at h
    rw [isSet_append]
    by_cases hmouse : e'.isMouse = true
    · rw [if_pos hmouse] at h
      cases h
      rw [if_pos rfl]
    · rw [if_neg hmouse] at h
      have hother : e'.mode ≠ e.mode := fun hsame => by
        have hlast : e.isMouse = true := List.of_mem_filter (List.mem_of_getLast? h)
        rw [ModeEvent.isMouse, hsame] at hmouse
        exact hmouse hlast
      rw [if_neg hother, ih h]

/-- A mode that no event is about is not set. -/
theorem isSet_of_lastMouse_none {events : List ModeEvent} {mode : ℕ}
    (hmode : mode = 1000 ∨ mode = 1006)
    (h : (events.filter ModeEvent.isMouse).getLast? = none) : isSet mode events = false := by
  induction events using List.reverseRecOn with
  | nil => rfl
  | append_singleton events e' ih =>
    rw [lastMouse_append] at h
    rw [isSet_append]
    split_ifs at h with hmouse
    have hother : e'.mode ≠ mode := fun hsame => hmouse (decide_eq_true (hsame ▸ hmode))
    rw [if_neg hother, ih h]

/-! ## Exactly when -/

theorem mouseReport_isSome (mouseMode button col row : ℕ) (pressed motion : Bool) :
    (mouseReport mouseMode button col row pressed motion).isSome = decide (mouseMode > 0) := by
  unfold mouseReport
  by_cases hmode : mouseMode > 0
  · rw [if_pos hmode, decide_eq_true hmode]
    rfl
  · rw [if_neg hmode, decide_eq_false hmode]
    rfl

/-- Mouse events are reported exactly if the mode says so. -/
theorem reflectsModes_of_mode {s : Screen} {seqs : List ModeSequence}
    (h : (s.modeRun seqs).mouseMode = mouseModeOf (isSet 1000 (seqs.flatMap ModeSequence.events))
      (isSet 1006 (seqs.flatMap ModeSequence.events))) : ReflectsModes s seqs where
  reports button col row pressed motion := by
    rw [mouseReport_isSome, h]
    cases isSet 1000 (seqs.flatMap ModeSequence.events) with
    | false => rfl
    | true => cases isSet 1006 (seqs.flatMap ModeSequence.events) <;> rfl
  mode := h

/-- **The mouse mode reflects the modes that are set** after exactly those runs whose last event
    about the mouse agrees with the other mode. -/
theorem reflectsModes_iff (cols rows : ℕ) (seqs : List ModeSequence) :
    ReflectsModes (Screen.new cols rows) seqs ↔
      LastAgrees (seqs.flatMap ModeSequence.events) := by
  have hmode : ReflectsModes (Screen.new cols rows) seqs ↔ _ :=
    ⟨ReflectsModes.mode, reflectsModes_of_mode⟩
  rw [hmode, modeRun_eq, mouseMode_foldl]
  generalize seqs.flatMap ModeSequence.events = events
  unfold LastAgrees
  cases hlast : (events.filter ModeEvent.isMouse).getLast? with
  | none =>
    rw [isSet_of_lastMouse_none (.inl rfl) hlast]
    exact iff_of_true rfl fun e he => nomatch he
  | some e =>
    have hset := isSet_lastMouse hlast
    have hmouse : e.isMouse = true := List.of_mem_filter (List.mem_of_getLast? hlast)
    simp only [Option.some.injEq, forall_eq']
    rcases of_decide_eq_true hmouse with hx11 | hsgr
    · rw [hx11] at hset
      rw [hset, hx11]
      cases e.enable <;> cases isSet 1006 events <;> decide
    · rw [hsgr] at hset
      rw [hset, hsgr]
      cases e.enable <;> cases isSet 1000 events <;> decide

/-- Resetting mode 1006 stops the reports of mode 1000, and of two orders in which a program sets the
    modes only one leaves mode 1006 on. -/
theorem mouseMode_by_order :
    ¬ReflectsModes (Screen.new 80 24) [⟨[[1000], [1006]], true⟩, ⟨[[1006]], false⟩] ∧
      ((Screen.new 80 24).modeRun [⟨[[1000], [1006]], true⟩]).mouseMode = 2 ∧
      ((Screen.new 80 24).modeRun [⟨[[1006], [1000]], true⟩]).mouseMode = 1 := by
  refine ⟨fun h => ?_, rfl, rfl⟩
  exact absurd (h.reports 0 0 0 true false) (by decide)

end Nexterm.Vt

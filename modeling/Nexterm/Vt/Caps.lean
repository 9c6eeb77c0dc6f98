/-
  What the queues can hold, whatever a program prints.

  * `Pending.Capped`: every text is within its cap, and so is the Kitty transfer.
  * `Pending.Quiet`: a step that keeps the caps and queues no image; all OSC sequences but the
    iTerm2 one are quiet (`quiet_oscDispatch`).
  * `Event.placed`: the image that an event queues.
  * `Event.step_spec`, `run_spec`: the caps are kept, and the images are those that were placed.
  * `VtParser.length_kitty`: the payload of a segment is within the limit of its buffer.
-/
import Mathlib.Data.List.TakeWhile
import Nexterm.Vt.Pending

namespace Nexterm.Vt

open Runs

namespace Pending

/-- The texts are sanitized and the transfer is within its limit; its parameters end at the first
    `;`. -/
structure Capped (q : Pending) : Prop where
  title : ∀ t, q.pendingTitle = some t → t.utf8ByteSize ≤ maxTitleLen
  notification : ∀ n, q.pendingNotification = some n →
    n.1.utf8ByteSize ≤ maxNotificationLen ∧ n.2.utf8ByteSize ≤ maxNotificationLen
  cwd : ∀ t, q.pendingCwd = some t → t.utf8ByteSize ≤ maxCwdLen
  clipboard : ∀ t ∈ q.pendingClipboardWrites, t.utf8ByteSize ≤ maxClipboardLen
  shape : ∀ t, q.pendingPointerShape = some t → t.utf8ByteSize ≤ maxPointerShapeLen
  textSizing : ∀ e ∈ q.pendingTextSizing, e.text.utf8ByteSize ≤ maxTextLen
  kittyPayload : q.kittyChunkPayload.length ≤ maxKittyChunkLen
  kittyParams : ∀ params, q.kittyChunkParams = some params → 0x3b ∉ params

/-- No image is queued, and the caps are kept. -/
structure Quiet (q q' : Pending) : Prop where
  images : q'.pendingImages = q.pendingImages
  capped : q.Capped → q'.Capped

variable {q q' q'' : Pending}

theorem Quiet.refl (q : Pending) : Quiet q q := ⟨rfl, id⟩

theorem Quiet.trans (h : Quiet q q') (h' : Quiet q' q'') : Quiet q q'' :=
  ⟨h'.images.trans h.images, h'.capped ∘ h.capped⟩

theorem Quiet.ite {c : Prop} [Decidable c] (h : Quiet q q') (h' : Quiet q q'') :
    Quiet q (if c then q' else q'') := by
  split_ifs
  · exact h
  · exact h'

/-- A step that touches neither the images nor the fields with a cap. -/
theorem Quiet.of_eq (h : (q'.pendingImages, q'.pendingTitle, q'.pendingNotification, q'.pendingCwd,
      q'.pendingClipboardWrites, q'.pendingPointerShape, q'.pendingTextSizing, q'.kittyChunkPayload,
      q'.kittyChunkParams) =
    (q.pendingImages, q.pendingTitle, q.pendingNotification, q.pendingCwd,
      q.pendingClipboardWrites, q.pendingPointerShape, q.pendingTextSizing, q.kittyChunkPayload,
      q.kittyChunkParams)) : Quiet q q' := by
  simp only [Prod.mk.injEq] at h
  obtain ⟨himages, htitle, hnotif, hcwd, hclip, hshape, htext, hpayload, hparams⟩ := h
  refine ⟨himages, ?_⟩
  intro h
  exact ⟨htitle ▸ h.title, hnotif ▸ h.notification, hcwd ▸ h.cwd, hclip ▸ h.clipboard,
    hshape ▸ h.shape, htext ▸ h.textSizing, hpayload ▸ h.kittyPayload, hparams ▸ h.kittyParams⟩

/-! ## Text -/

theorem quiet_setPendingTitle (q : Pending) (title : String) :
    Quiet q (q.setPendingTitle title) := by
  refine ⟨rfl, ?_⟩
  intro h
  refine { h with title := ?_ }
  intro t ht
  obtain rfl := Option.some.inj ht
  exact sanitize_le title _

theorem quiet_setPendingNotification (q : Pending) (title body : String) :
    Quiet q (q.setPendingNotification title body) := by
  refine ⟨rfl, ?_⟩
  intro h
  refine { h with notification := ?_ }
  intro n hn
  have hpair : (sanitizeOscString title maxNotificationLen,
      sanitizeOscString body maxNotificationLen) = n := Option.some.inj hn
  rw [← hpair]
  dsimp only
  exact ⟨sanitize_le title maxNotificationLen, sanitize_le body maxNotificationLen⟩

theorem quiet_setPendingCwd (q : Pending) (path : String) : Quiet q (q.setPendingCwd path) := by
  refine ⟨rfl, ?_⟩
  intro h
  refine { h with cwd := ?_ }
  intro t ht
  obtain rfl := Option.some.inj ht
  exact sanitize_le path _

theorem quiet_queueClipboardWrite (q : Pending) (text : String) :
    Quiet q (q.queueClipboardWrite text) := by
  refine ⟨rfl, ?_⟩
  intro h
  refine { h with clipboard := ?_ }
  intro t ht
  rcases List.mem_append.1 ht with ht | ht
  · exact h.clipboard t ht
  · obtain rfl := List.mem_singleton.1 ht
    exact sanitize_le text _

theorem quiet_setPendingPointerShape (q : Pending) (name : String) :
    Quiet q (q.setPendingPointerShape name) := by
  unfold setPendingPointerShape
  dsimp only
  by_cases hlen : (trim name).utf8ByteSize > maxPointerShapeLen
  · rw [if_pos hlen]
    exact .refl q
  rw [if_neg hlen]
  refine ⟨rfl, ?_⟩
  intro h
  refine { h with shape := ?_ }
  intro t ht
  obtain rfl := Option.some.inj ht
  split_ifs
  · decide
  · exact not_lt.1 hlen

theorem quiet_handleOsc66 (q : Pending) (s : Screen) (args : List (List UInt8)) :
    Quiet q (q.handleOsc66 s args) := by
  unfold handleOsc66
  split
  swap
  · exact .refl q
  split
  · exact .refl q
  · split_ifs
    · exact .refl q
    refine ⟨rfl, ?_⟩
    intro h
    refine { h with textSizing := ?_ }
    intro e he
    rcases List.mem_append.1 he with he | he
    · exact h.textSizing e he
    · obtain rfl := List.mem_singleton.1 he
      dsimp only
      exact sanitize_le _ _

theorem quiet_addOsc99 (q : Pending) (m : Osc99) (title body : String) :
    Quiet q (q.addOsc99 m title body) := by
  unfold addOsc99
  by_cases hdone : m.done
  · rw [if_pos hdone]
    by_cases htext : !title.isEmpty ∨ !body.isEmpty
    · rw [if_pos htext]
      exact quiet_setPendingNotification q _ _
    · rw [if_neg htext]
      exact .refl q
  · rw [if_neg hdone]
    split_ifs <;> exact .of_eq rfl

theorem quiet_handleOsc99 (q : Pending) (metadata : String) (payload : List UInt8) :
    Quiet q (q.handleOsc99 metadata payload) := by
  unfold handleOsc99
  dsimp only
  generalize (splitAt ':' metadata).foldl Osc99.read {} = m
  by_cases hid : m.id.utf8ByteSize > maxOsc99IdLen
  · rw [if_pos hid]
    exact .refl q
  rw [if_neg hid]
  generalize (if m.base64 then (base64Decode payload).bind fromUtf8 else fromUtf8 payload) = text
  cases text with
  | none => exact .refl q
  | some text =>
    have herase : Quiet q { q with osc99Pending := q.osc99Pending.erase m.id } := .of_eq rfl
    exact herase.trans (quiet_addOsc99 _ m _ _)

theorem quiet_handleOsc72 (q : Pending) (metadata : String) :
    Quiet q (q.handleOsc72 metadata) := by
  unfold handleOsc72
  dsimp only
  split_ifs
  · exact .refl q
  · exact .of_eq rfl
  · exact .of_eq rfl
  · exact .of_eq rfl
  · exact .refl q
  · split <;> exact .of_eq rfl
  · split <;> exact .of_eq rfl
  · exact .refl q

theorem quiet_paletteRequest (q : Pending) (bellTerminated : Bool) (index spec : List UInt8) :
    Quiet q (q.paletteRequest bellTerminated index spec) := by
  unfold paletteRequest
  split
  · split_ifs
    · exact .of_eq rfl
    · split <;> exact .of_eq rfl
  · exact .refl q

theorem quiet_paletteRequests (bellTerminated : Bool) : ∀ (args : List (List UInt8)) (q : Pending),
    Quiet q (q.paletteRequests bellTerminated args)
  | [], q | [_], q => .refl q
  | index :: spec :: args, q =>
    (quiet_paletteRequest q bellTerminated index spec).trans
      (quiet_paletteRequests bellTerminated args _)

theorem quiet_defaultColorRequest (q : Pending) (bellTerminated : Bool) (code spec : String) :
    Quiet q (q.defaultColorRequest bellTerminated code spec) := by
  unfold defaultColorRequest
  dsimp only
  split_ifs
  · exact .of_eq rfl
  · exact .of_eq rfl
  all_goals split <;> exact .of_eq rfl

/-- An optional step. -/
theorem Quiet.map_getD {α : Type} {f : α → Pending} (hf : ∀ a, Quiet q (f a)) (a : Option α) :
    Quiet q ((a.map f).getD q) := by
  cases a with
  | none => exact .refl q
  | some a => exact hf a

theorem quiet_foldl {α : Type} {f : Pending → α → Pending} (hf : ∀ q a, Quiet q (f q a)) :
    ∀ (l : List α) (q : Pending), Quiet q (l.foldl f q)
  | [], q => .refl q
  | a :: l, q => (hf q a).trans (quiet_foldl hf l (f q a))

theorem quiet_osc9 (q : Pending) (args : List (List UInt8)) : Quiet q (q.osc9 args) := by
  unfold osc9 handleOsc9Progress
  split
  · exact .refl q
  · split_ifs
    · split
      · exact .refl q
      · split_ifs <;> exact .of_eq rfl
    · exact quiet_setPendingNotification q _ _

theorem quiet_osc52 (q : Pending) (args : List (List UInt8)) : Quiet q (q.osc52 args) := by
  unfold osc52
  dsimp only
  split_ifs
  · exact .refl q
  · split
    · exact .refl q
    · exact quiet_queueClipboardWrite q _

theorem quiet_osc777 (q : Pending) (args : List (List UInt8)) : Quiet q (q.osc777 args) :=
  .ite (.refl q) (quiet_setPendingNotification q _ _)

theorem quiet_osc133 (q : Pending) (s : Screen) (args : List (List UInt8)) :
    Quiet q (q.osc133 s args) := by
  unfold osc133
  split
  · exact .refl q
  · split_ifs <;> exact .of_eq rfl

/-- **All OSC sequences but the iTerm2 one are quiet.** -/
theorem quiet_oscDispatch (I : ImageCrate) (q : Pending) (s : Screen) {code : List UInt8}
    (args : List (List UInt8)) (bellTerminated : Bool)
    (hcode : (fromUtf8 code).map trim ≠ some "1337") :
    Quiet q (q.oscDispatch I s (code :: args) bellTerminated) := by
  unfold oscDispatch
  dsimp only
  generalize (fromUtf8 code).map trim = name at hcode ⊢
  cases name with
  | none => exact .refl q
  | some name =>
    dsimp only
    have hname : name ≠ "1337" := fun h => hcode (congrArg some h)
    rw [if_neg hname]
    refine .ite (.map_getD (quiet_setPendingTitle q) _) ?_
    refine .ite (.map_getD (quiet_setPendingCwd q) _) ?_
    refine .ite (quiet_osc9 q args) ?_
    refine .ite (quiet_osc52 q args) ?_
    refine .ite (quiet_handleOsc72 q _) ?_
    refine .ite (quiet_handleOsc99 q _ _) ?_
    refine .ite (quiet_osc777 q args) ?_
    refine .ite (quiet_handleOsc66 q s args) ?_
    refine .ite (quiet_paletteRequests bellTerminated args q) ?_
    refine .ite (.map_getD (quiet_defaultColorRequest q bellTerminated name) _) ?_
    refine .ite (quiet_setPendingPointerShape q _) ?_
    refine .ite (.ite (.of_eq rfl) (quiet_foldl ?_ args q)) ?_
    · exact fun q raw => .map_getD (f := q.resetPaletteEntry) (fun index => .of_eq rfl) _
    refine .ite (.of_eq rfl) (.ite (.of_eq rfl) ?_)
    exact .ite (quiet_osc133 q s args) (.refl q)

/-! ## Images -/

/-- The iTerm2 sequence. -/
theorem oscDispatch_iterm2 {I : ImageCrate} {s : Screen} {code : List UInt8}
    {args : List (List UInt8)} {bellTerminated : Bool}
    (hcode : (fromUtf8 code).map trim = some "1337") :
    q.oscDispatch I s (code :: args) bellTerminated = q.handleIterm2Osc I s args := by
  unfold oscDispatch
  dsimp only
  rw [hcode]
  rfl

theorem Capped.placeImage (h : q.Capped) (cursor : UInt16 × UInt16) (img : DecodedImage) :
    (q.placeImage cursor img).Capped :=
  ⟨h.title, h.notification, h.cwd, h.clipboard, h.shape, h.textSizing, h.kittyPayload,
    h.kittyParams⟩

theorem not_mem_takeWhile (params : List UInt8) : 0x3b ∉ params.takeWhile (· ≠ 0x3b) := by
  intro hmem
  have hne := List.mem_takeWhile_imp hmem
  simp at hne

/-- A segment is taken in: no image yet; the parameters of a command end at the first `;`, and its
    payload is that of the segment or within the limit. -/
theorem receiveKitty_spec (q : Pending) (data : List UInt8) :
    Quiet q (q.receiveKitty data).1 ∧
      (q.receiveKitty data).1.nextImageId = q.nextImageId ∧
      (q.Capped → ∀ command, (q.receiveKitty data).2 = some command → 0x3b ∉ command.1 ∧
        (command.2.length ≤ data.length ∨ command.2.length ≤ maxKittyChunkLen)) := by
  have hcleared : Quiet q { q with kittyChunkPayload := [], kittyChunkParams := none } := by
    refine ⟨rfl, ?_⟩
    intro h
    refine { h with kittyPayload := Nat.zero_le _, kittyParams := ?_ }
    rintro params ⟨⟩
  unfold receiveKitty
  split
  swap
  · exact ⟨.refl q, rfl, by rintro - _ ⟨⟩⟩
  rename_i inner
  dsimp only
  have hparams := not_mem_takeWhile inner
  have hpayload : (inner.dropWhile (· ≠ 0x3b)).tail.length ≤ (0x47 :: inner).length := by
    have hdrop := (List.dropWhile_sublist (l := inner) (· ≠ 0x3b)).length_le
    rw [List.length_tail, List.length_cons]
    omega
  generalize inner.takeWhile (· ≠ 0x3b) = params at hparams ⊢
  generalize (inner.dropWhile (· ≠ 0x3b)).tail = payload at hpayload ⊢
  by_cases hmore : [0x6d, 0x3d, 0x31] ∈ params.splitOn 0x2c
  · rw [if_pos hmore]
    by_cases htotal : q.kittyChunkPayload.length + payload.length > maxKittyChunkLen
    · rw [if_pos htotal]
      exact ⟨hcleared, rfl, by rintro - _ ⟨⟩⟩
    rw [if_neg htotal]
    refine ⟨⟨rfl, ?_⟩, rfl, by rintro - _ ⟨⟩⟩
    intro h
    refine { h with kittyPayload := ?_, kittyParams := ?_ }
    · show (q.kittyChunkPayload ++ payload).length ≤ maxKittyChunkLen
      rw [List.length_append]
      exact not_lt.1 htotal
    · intro params' heq
      change (q.kittyChunkParams <|> some params) = some params' at heq
      cases hfirst : q.kittyChunkParams with
      | none =>
        rw [hfirst] at heq
        obtain rfl := Option.some.inj heq
        exact hparams
      | some first =>
        rw [hfirst] at heq
        obtain rfl := Option.some.inj heq
        exact h.kittyParams first hfirst
  rw [if_neg hmore]
  cases hfirst : q.kittyChunkParams with
  | none =>
    refine ⟨.refl q, rfl, ?_⟩
    rintro - _ ⟨⟩
    exact ⟨hparams, .inl hpayload⟩
  | some first =>
    dsimp only
    by_cases htotal : q.kittyChunkPayload.length + payload.length > maxKittyChunkLen
    · rw [if_pos htotal]
      exact ⟨hcleared, rfl, by rintro - _ ⟨⟩⟩
    rw [if_neg htotal]
    refine ⟨hcleared, rfl, ?_⟩
    rintro h _ ⟨⟩
    refine ⟨h.kittyParams first hfirst, .inr ?_⟩
    rw [List.length_append]
    exact not_lt.1 htotal

end Pending

/-! ## Events -/

namespace Event

/-- The image that an event queues. -/
def placed (I : ImageCrate) (t : Screen × Pending) : Event → Option PendingImage
  | .perform .unhook =>
    if t.2.dcsSixelActive then
      (decodeSixel t.2.dcsBuf).map (t.2.imageAt t.2.dcsCursor)
    else none
  | .perform (.oscDispatch (code :: args) _) =>
    if (fromUtf8 code).map trim = some "1337" then
      ((Pending.iterm2File args).bind (decodeIterm2 I)).map (t.2.imageAt t.1.cursor)
    else none
  | .kitty data =>
    (t.2.receiveKitty data).2.bind fun command =>
      (decodeKitty (0x47 :: (command.1 ++ 0x3b :: command.2))).map (t.2.imageAt t.1.cursor)
  | _ => none

/-- What an event does to the images and the caps. -/
structure Spec (placed : Option PendingImage) (q q' : Pending) : Prop where
  images : q'.pendingImages = q.pendingImages ++ placed.toList
  capped : q.Capped → q'.Capped

theorem Spec.of_quiet {q q' : Pending} (h : q.Quiet q') : Spec none q q' :=
  ⟨by rw [h.images, Option.toList_none, List.append_nil], h.capped⟩

theorem spec_unhook (q : Pending) :
    Spec (if q.dcsSixelActive then (decodeSixel q.dcsBuf).map (q.imageAt q.dcsCursor) else none) q
      q.finishSixel := by
  unfold Pending.finishSixel
  cases hactive : q.dcsSixelActive with
  | false => exact .of_quiet (.refl q)
  | true =>
    simp only [Bool.not_true, Bool.false_eq_true, if_false, if_true]
    cases hdec : decodeSixel q.dcsBuf with
    | none => exact .of_quiet (.of_eq rfl)
    | some img =>
      refine ⟨rfl, ?_⟩
      intro h
      exact ⟨h.title, h.notification, h.cwd, h.clipboard, h.shape, h.textSizing, h.kittyPayload,
        h.kittyParams⟩

theorem spec_kitty (q : Pending) (s : Screen) (data : List UInt8) :
    Spec ((q.receiveKitty data).2.bind fun command =>
      (decodeKitty (0x47 :: (command.1 ++ 0x3b :: command.2))).map (q.imageAt s.cursor)) q
      (q.handleKittyApc s data) := by
  obtain ⟨hquiet, hid, -⟩ := q.receiveKitty_spec data
  unfold Pending.handleKittyApc
  generalize q.receiveKitty data = out at hquiet hid ⊢
  obtain ⟨q', _ | ⟨params, payload⟩⟩ := out
  · exact .of_quiet hquiet
  · dsimp only [Option.bind_some] at hquiet hid ⊢
    cases hdec : decodeKitty (0x47 :: (params ++ 0x3b :: payload)) with
    | none => exact .of_quiet hquiet
    | some img =>
      refine ⟨?_, fun h => (hquiet.capped h).placeImage _ _⟩
      show q'.pendingImages ++ [q'.imageAt s.cursor img] = _
      rw [hquiet.images, Pending.imageAt, hid]
      rfl

theorem spec_osc (I : ImageCrate) (q : Pending) (s : Screen) (code : List UInt8)
    (args : List (List UInt8)) (bellTerminated : Bool) :
    Spec (if (fromUtf8 code).map trim = some "1337" then
        ((Pending.iterm2File args).bind (decodeIterm2 I)).map (q.imageAt s.cursor)
      else none) q (q.oscDispatch I s (code :: args) bellTerminated) := by
  by_cases hcode : (fromUtf8 code).map trim = some "1337"
  swap
  · rw [if_neg hcode]
    exact .of_quiet (q.quiet_oscDispatch I s args bellTerminated hcode)
  rw [if_pos hcode, Pending.oscDispatch_iterm2 hcode]
  unfold Pending.handleIterm2Osc
  cases (Pending.iterm2File args).bind (decodeIterm2 I) with
  | none => exact .of_quiet (.refl q)
  | some img => exact ⟨rfl, fun h => h.placeImage _ _⟩

/-- **What an event does to the queues**: it keeps the caps and queues the image placed. -/
theorem step_spec (V : Vte) (I : ImageCrate) (t : Screen × Pending) (e : Event) :
    Spec (e.placed I t) t.2 (e.step V I t).2 := by
  obtain ⟨s, q⟩ := t
  cases e with
  | kitty data => exact spec_kitty q s data
  | perform action =>
    cases action with
    | print c => exact .of_quiet (.refl q)
    | execute byte =>
      refine .of_quiet (.ite (.of_eq rfl) (.refl q))
    | csiDispatch params intermediates ignore action => exact .of_quiet (.refl q)
    | escDispatch intermediates ignore byte => exact .of_quiet (.refl q)
    | oscDispatch params bellTerminated =>
      cases params with
      | nil => exact .of_quiet (.refl q)
      | cons code args => exact spec_osc I q s code args bellTerminated
    | hook params intermediates ignore action =>
      refine .of_quiet (.ite (.of_eq rfl) (.refl q))
    | put byte =>
      refine .of_quiet (.ite (.refl q) (.ite (.of_eq rfl) (.of_eq rfl)))
    | unhook => exact spec_unhook q

variable {V : Vte} {I : ImageCrate}

/-- The images that a sequence of events queues. -/
def placedAll (V : Vte) (I : ImageCrate) (t : Screen × Pending) : List Event → List PendingImage
  | [] => []
  | e :: es => (e.placed I t).toList ++ placedAll V I (e.step V I t) es

/-- **The queues after a sequence of events.** -/
theorem run_spec : ∀ (es : List Event) (t : Screen × Pending),
    (run (step V I) t es).2.pendingImages = t.2.pendingImages ++ placedAll V I t es ∧
      (t.2.Capped → (run (step V I) t es).2.Capped)
  | [], t => ⟨(List.append_nil _).symm, id⟩
  | e :: es, t => by
    obtain ⟨himages, hcapped⟩ := run_spec es (e.step V I t)
    have hstep := step_spec V I t e
    refine ⟨?_, fun h => hcapped (hstep.capped h)⟩
    rw [placedAll, ← List.append_assoc, ← hstep.images]
    exact himages

end Event

/-! ## Segments -/

namespace VtParser

variable {V : Vte}

theorem length_apcPush (p : VtParser V) (byte : UInt8) :
    (p.apcPush byte).apcBuf.length ≤ maxApcBufLen := by
  unfold apcPush
  split_ifs with hfull
  · exact Nat.zero_le _
  · show (p.apcBuf ++ [byte]).length ≤ maxApcBufLen
    rw [List.length_append, List.length_singleton]
    omega

theorem length_apcBuf_advanceByte {p : VtParser V} (h : p.apcBuf.length ≤ maxApcBufLen)
    (byte : UInt8) : (p.advanceByte byte).apcBuf.length ≤ maxApcBufLen := by
  unfold advanceByte
  dsimp only
  split_ifs
  · exact Nat.zero_le _
  · exact Nat.zero_le _
  · exact length_apcPush _ byte
  · exact h
  · exact h
  · exact length_apcPush p byte
  · exact h

theorem mem_delivered_kitty {p : VtParser V} {byte : UInt8} {data : List UInt8}
    (h : .kitty data ∈ p.delivered byte) : data = p.apcBuf := by
  unfold delivered at h
  split_ifs at h
  all_goals simp at h
  exact h

theorem mem_events_kitty {data : List UInt8} : ∀ {ds : List Delivered} {state : V.State},
    .kitty data ∈ V.events state ds → .kitty data ∈ ds
  | .vte byte :: ds, state, h => by
    rcases List.mem_append.1 h with h | h
    · obtain ⟨action, -, heq⟩ := List.mem_map.1 h
      cases heq
    · exact List.mem_cons_of_mem _ (mem_events_kitty h)
  | .kitty payload :: ds, state, h => by
    rcases List.mem_cons.1 h with heq | h
    · cases heq
      exact List.mem_cons_self
    · exact List.mem_cons_of_mem _ (mem_events_kitty h)

/-- The payload of a segment is within the limit of the buffer. -/
theorem length_kitty : ∀ (bytes : List UInt8) {p : VtParser V}, p.apcBuf.length ≤ maxApcBufLen →
    (∀ data, .kitty data ∈ p.events bytes → data.length ≤ maxApcBufLen) ∧
      (p.advance bytes).apcBuf.length ≤ maxApcBufLen
  | [], _, h => ⟨by rintro data ⟨⟩, h⟩
  | byte :: bytes, p, h => by
    obtain ⟨hdata, hbuf⟩ := length_kitty bytes (length_apcBuf_advanceByte h byte)
    refine ⟨?_, hbuf⟩
    intro data hmem
    rcases List.mem_append.1 hmem with hmem | hmem
    · rw [mem_delivered_kitty (mem_events_kitty hmem)]
      exact h
    · exact hdata data hmem

end VtParser

end Nexterm.Vt

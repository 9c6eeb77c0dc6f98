/-
  What a pane sends to its clients (`pane.rs`), and when it fits into a frame.

  * `Pending.messages`: the queues of a burst as messages, in the order of the reader thread.
  * `Relay`: a pane with its queues; `Relay.out` is what an operation sends.
  * `EventFits`: the condition on an image that an event is about to queue.
  * `eventFits_iff`: it is exact; Sixel images and RGBA images of the Kitty protocol always fit.
  * `wireLen_messages`: everything else in the queues always fits.
  * `Relay.fits_out_iff`: what an operation sends fits exactly under its condition.
-/
import Nexterm.Ipc.Wire
import Nexterm.Lib.Frames

namespace Nexterm.Vt

/-- The letter of a semantic mark. -/
def SemanticMarkKind.letter : SemanticMarkKind → String
  | promptStart => "A"
  | commandStart => "B"
  | outputStart => "C"
  | commandEnd => "D"

/-- Returns the dynamic colors when anything changed, sorted by index. -/
def Pending.colorOverrides (q : Pending) : Option ColorOverrides :=
  if q.colorOverridesChanged then some ⟨q.dynamicFg, q.dynamicBg, q.paletteOverrides.toList⟩
  else none

/-- The queues after the reader thread has drained them. -/
def Pending.drained (q : Pending) : Pending :=
  { q with
    pendingImages := []
    pendingTextSizing := []
    pendingBell := false
    pendingTitle := none
    pendingNotification := none
    pendingCwd := none
    semanticMarks := []
    pendingClipboardWrites := []
    pendingResponses := []
    pendingPointerShape := none
    colorOverridesChanged := false
    pendingProgress := none
    pendingDndRequests := [] }

end Nexterm.Vt

namespace Nexterm.Ipc

open Codec Frames Runs Server Vt

/-- Maximum size (in bytes) of a single IPC message. -/
def maxMsgLen : ℕ := 64 * 1024 * 1024

/-- Whether the helper `validate_msg_len` accepts a length. -/
def validateMsgLen (msgLen : ℕ) : Bool := !(msgLen > maxMsgLen)

/-- The messages for the queues, in the order of the reader thread. -/
def messages (paneId : UInt32) (q : Pending) : List ServerToClient :=
  (if q.pendingBell then [.bell paneId] else []) ++
  (q.pendingTitle.toList.map (ServerToClient.titleChanged paneId) ++
  (q.pendingPointerShape.toList.map (ServerToClient.pointerShapeChanged paneId) ++
  (q.pendingProgress.toList.map (fun p => ServerToClient.progressChanged paneId p.1 p.2) ++
  (q.colorOverrides.toList.map (ServerToClient.paneColorsChanged paneId) ++
  (q.pendingNotification.toList.map
    (fun n => ServerToClient.desktopNotification paneId n.1 n.2) ++
  (q.pendingClipboardWrites.map (ServerToClient.clipboardWriteRequest paneId) ++
  (q.pendingCwd.toList.map (ServerToClient.cwdChanged paneId) ++
  (q.semanticMarks.map
    (fun m => ServerToClient.semanticMark paneId m.row m.kind.letter m.exitCode) ++
  (q.pendingImages.map (ServerToClient.imagePlaced paneId) ++
  q.pendingTextSizing.map (ServerToClient.textSized paneId))))))))))

/-! ## A pane -/

/-- A pane with its queues. -/
structure Relay (V : Vte) where
  pane : PtyPane V
  pending : Pending

/-- What happens to a pane.  A full refresh is sent when a client attaches or has lagged. -/
inductive RelayOp
  | resizePty (cols rows : ℕ)
  | burst (bytes : List UInt8)
  | refresh
  | eof

namespace Relay

variable {V : Vte} (I : ImageCrate) (paneId : UInt32)

/-- Spawns a pane. -/
def spawn (V : Vte) (cols rows : ℕ) : Relay V := ⟨PtyPane.spawn V cols rows, Pending.new⟩

/-- The queues when a burst of output has been parsed. -/
def filled (r : Relay V) (bytes : List UInt8) : Pending :=
  (Terminal.advance I ⟨r.pane.parser, r.pending⟩ bytes).pending

/-- The pane after an operation. -/
def step (r : Relay V) : RelayOp → Relay V
  | .resizePty cols rows => { r with pane := r.pane.resizePty cols rows }
  | .burst bytes => ⟨(r.pane.readBurst bytes).1, (r.filled I bytes).drained⟩
  | .refresh => r
  | .eof => r

/-- What an operation sends. -/
def out (r : Relay V) : RelayOp → List ServerToClient
  | .resizePty _ _ => []
  | .burst bytes =>
    (r.pane.readBurst bytes).2.toList.map (.gridDiff paneId) ++ messages paneId (r.filled I bytes)
  | .refresh => [.fullRefresh paneId r.pane.makeFullRefresh]
  | .eof => [.paneClosed paneId]

/-- What a run sends. -/
def sent (r : Relay V) : List RelayOp → List ServerToClient
  | [] => []
  | op :: ops => r.out I paneId op ++ (r.step I op).sent ops

end Relay

/-! ## Conditions -/

/-- The length of the message for an image with an id, at a position, of a size: four bytes per
    pixel. -/
def imageMsgLen (paneId id : UInt32) (cursor : UInt16 × UInt16) (width height : UInt32) : ℕ :=
  let n := width.toNat * height.toNat * 4
  1 + (varintLen paneId.toNat + (varintLen id.toNat + (varintLen cursor.1.toNat +
    (varintLen cursor.2.toNat + (varintLen width.toNat + (varintLen height.toNat +
      (varintLen n + n)))))))

/-- The image that an event is about to queue fits: an RGB image of the Kitty protocol by its
    declared size, a picture file by the size it decodes to. -/
def EventFits (I : ImageCrate) (paneId : UInt32) (t : Screen × Pending) : Event → Prop
  | .kitty data =>
    ∀ params payload, (t.2.receiveKitty data).2 = some (params, payload) →
      (kittyParams params).format = 24 →
      (decodeKitty (0x47 :: (params ++ 0x3b :: payload))).isSome →
        imageMsgLen paneId t.2.nextImageId t.1.cursor (kittyParams params).width
          (kittyParams params).height ≤ maxMsgLen
  | .perform (.oscDispatch (code :: args) _) =>
    (fromUtf8 code).map trim = some "1337" →
      ∀ file picture, Pending.iterm2File args = some file → I.load file = some picture →
        (checkedImageBytes picture.width.toNat picture.height.toNat 4).isSome →
          imageMsgLen paneId t.2.nextImageId t.1.cursor picture.width picture.height ≤ maxMsgLen
  | _ => True

/-- The dirty rows of a screen fit into a diff. -/
def DiffFits (paneId : UInt32) (s : Screen) : Prop :=
  s.takeDirtyRows.1 ≠ [] →
    1 + (varintLen paneId.toNat + (listLen dirtyRowLen s.takeDirtyRows.1 +
      (varintLen s.cursorCol + varintLen s.cursorRow))) ≤ maxMsgLen

/-- The condition on an operation. -/
def Relay.Fits {V : Vte} (I : ImageCrate) (paneId : UInt32) (r : Relay V) : RelayOp → Prop
  | .burst bytes =>
    Along (Event.step V I) (EventFits I paneId) (r.pane.parser.screen, r.pending)
      (r.pane.parser.events bytes) ∧
    DiffFits paneId (r.pane.parser.advance bytes).screen
  | .refresh => 1 + (varintLen paneId.toNat + gridLen r.pane.latestGrid) ≤ maxMsgLen
  | .resizePty _ _ | .eof => True

/-! ## Images -/

variable {V : Vte} {I : ImageCrate} (paneId : UInt32)

theorem varintLen_u32 (n : UInt32) : varintLen n.toNat ≤ 5 := by
  have hlt := n.toNat_lt
  exact varintLen_le (by omega)

theorem varintLen_u16 (n : UInt16) : varintLen n.toNat ≤ 3 := by
  have hlt := n.toNat_lt
  exact varintLen_le (by omega)

theorem wireLen_imageAt (q : Pending) (cursor : UInt16 × UInt16) {img : DecodedImage}
    (h : img.rgba.length = img.width.toNat * img.height.toNat * 4) :
    (ServerToClient.imagePlaced paneId (q.imageAt cursor img)).wireLen =
      imageMsgLen paneId q.nextImageId cursor img.width img.height := by
  simp only [ServerToClient.wireLen, ServerToClient.paneId, ServerToClient.fieldsLen, imageLen,
    Pending.imageAt, imageMsgLen, h]

/-- The metadata of an image takes 32 bytes at most. -/
theorem imageMsgLen_le (id : UInt32) (cursor : UInt16 × UInt16) {width height : UInt32}
    (h : width.toNat * height.toNat * 4 < 128 ^ 5) :
    imageMsgLen paneId id cursor width height ≤ 32 + width.toNat * height.toNat * 4 := by
  have hpane := varintLen_u32 paneId
  have hid := varintLen_u32 id
  have hcol := varintLen_u16 cursor.1
  have hrow := varintLen_u16 cursor.2
  have hwidth := varintLen_u32 width
  have hheight := varintLen_u32 height
  have hlen := varintLen_le h
  unfold imageMsgLen
  dsimp only
  omega

/-- **A Sixel image always fits.** -/
theorem sixel_fits {data : List UInt8} {img : DecodedImage} (h : decodeSixel data = some img)
    (q : Pending) (cursor : UInt16 × UInt16) :
    (ServerToClient.imagePlaced paneId (q.imageAt cursor img)).wireLen ≤ maxMsgLen := by
  obtain ⟨hwidth, hheight, hlen⟩ := decodeSixel_size h
  have harea : img.width.toNat * img.height.toNat ≤ 4096 * 4092 := Nat.mul_le_mul hwidth hheight
  have hsmall : img.width.toNat * img.height.toNat * 4 < 128 ^ 5 := by omega
  have hmsg := imageMsgLen_le paneId q.nextImageId cursor hsmall
  rw [wireLen_imageAt paneId q cursor hlen]
  unfold maxMsgLen
  omega

/-- A Kitty image of format 24 has the declared size; one of format 32 always fits. -/
theorem kitty_fits_iff {params payload : List UInt8} (hsep : 0x3b ∉ params)
    (hpayload : payload.length ≤ Pending.maxKittyChunkLen) {img : DecodedImage}
    (h : decodeKitty (0x47 :: (params ++ 0x3b :: payload)) = some img) (q : Pending)
    (cursor : UInt16 × UInt16) :
    (ServerToClient.imagePlaced paneId (q.imageAt cursor img)).wireLen ≤ maxMsgLen ↔
      ((kittyParams params).format = 24 → imageMsgLen paneId q.nextImageId cursor
        (kittyParams params).width (kittyParams params).height ≤ maxMsgLen) := by
  rw [decodeKitty_eq hsep] at h
  split_ifs at h
  obtain ⟨pixelData, hpixels, himg⟩ := Option.bind_eq_some_iff.1 h
  have hbase64 := length_base64Decode hpixels
  obtain ⟨hwidth, hheight, hlen, hformat⟩ := kittyImage_size himg
  rw [wireLen_imageAt paneId q cursor (by rw [hlen, hwidth, hheight]), hwidth, hheight]
  rcases hformat with ⟨hf, hsize⟩ | ⟨hf, -⟩
  · unfold Pending.maxKittyChunkLen at hpayload
    have hsmall : (kittyParams params).width.toNat * (kittyParams params).height.toNat * 4 <
        128 ^ 5 := by omega
    have hmsg := imageMsgLen_le paneId q.nextImageId cursor hsmall
    refine iff_of_true ?_ ?_
    · unfold maxMsgLen
      omega
    · intro hf'
      rw [hf] at hf'
      exact absurd hf' (by decide)
  · simp only [hf, forall_const]

/-- **The condition on an event is exact.** -/
theorem eventFits_iff {t : Screen × Pending} (hcapped : t.2.Capped) {e : Event}
    (hdata : ∀ data, e = .kitty data → data.length ≤ maxApcBufLen) :
    EventFits I paneId t e ↔ ∀ img, e.placed I t = some img →
      (ServerToClient.imagePlaced paneId img).wireLen ≤ maxMsgLen := by
  obtain ⟨s, q⟩ := t
  cases e with
  | kitty data =>
    have hspec := (q.receiveKitty_spec data).2.2 hcapped
    have hlen := hdata data rfl
    unfold EventFits Event.placed
    dsimp only
    cases hrec : (q.receiveKitty data).2 with
    | none => simp
    | some command =>
      obtain ⟨params, payload⟩ := command
      obtain ⟨hsep, hpayload⟩ := hspec _ hrec
      have hpayload : payload.length ≤ Pending.maxKittyChunkLen := by
        rcases hpayload with hle | hle
        · unfold maxApcBufLen at hlen
          unfold Pending.maxKittyChunkLen
          dsimp only at hle
          omega
        · exact hle
      cases hdec : decodeKitty (0x47 :: (params ++ 0x3b :: payload)) with
      | none => simp [hdec]
      | some img =>
        have hiff := kitty_fits_iff paneId hsep hpayload hdec q s.cursor
        simp only [Option.some.injEq, Prod.mk.injEq, Option.bind_some, hdec, Option.map_some,
          forall_eq', hiff]
        constructor
        · intro h hf
          exact h params payload ⟨rfl, rfl⟩ hf (by rw [hdec]; rfl)
        · rintro h _ _ ⟨rfl, rfl⟩ hf -
          exact h hf
  | perform action =>
    cases action with
    | unhook =>
      refine iff_of_true trivial ?_
      intro img himg
      unfold Event.placed at himg
      dsimp only at himg
      split_ifs at himg
      obtain ⟨decoded, hdec, rfl⟩ := Option.map_eq_some_iff.1 himg
      exact sixel_fits paneId hdec q _
    | oscDispatch params bellTerminated =>
      cases params with
      | nil => exact iff_of_true trivial (by rintro img ⟨⟩)
      | cons code args =>
        unfold EventFits Event.placed
        dsimp only
        by_cases hcode : (fromUtf8 code).map trim = some "1337"
        swap
        · simp [hcode]
        simp only [hcode, if_true, forall_const]
        constructor
        · intro h img himg
          obtain ⟨picture, hpicture, rfl⟩ := Option.map_eq_some_iff.1 himg
          obtain ⟨file, hfile, hdec⟩ := Option.bind_eq_some_iff.1 hpicture
          rw [wireLen_imageAt paneId q s.cursor (decodeIterm2_size hdec).1]
          obtain ⟨picture', hload, hchecked⟩ := Option.bind_eq_some_iff.1 hdec
          obtain ⟨n, hn, rfl⟩ := Option.map_eq_some_iff.1 hchecked
          exact h file picture' hfile hload (by rw [hn]; rfl)
        · intro h file picture hfile hload hchecked
          obtain ⟨n, hn⟩ := Option.isSome_iff_exists.1 hchecked
          have hdec : decodeIterm2 I file = some picture := by
            rw [decodeIterm2, hload, Option.bind_some, hn]
            rfl
          have hfits := h (q.imageAt s.cursor picture) (by rw [hfile, Option.bind_some, hdec]; rfl)
          rwa [wireLen_imageAt paneId q s.cursor (decodeIterm2_size hdec).1] at hfits
    | print c => exact iff_of_true trivial (by rintro img ⟨⟩)
    | execute byte => exact iff_of_true trivial (by rintro img ⟨⟩)
    | csiDispatch params intermediates ignore action =>
      exact iff_of_true trivial (by rintro img ⟨⟩)
    | escDispatch intermediates ignore byte => exact iff_of_true trivial (by rintro img ⟨⟩)
    | hook params intermediates ignore action => exact iff_of_true trivial (by rintro img ⟨⟩)
    | put byte => exact iff_of_true trivial (by rintro img ⟨⟩)

/-- The condition along a sequence of events is one on the images that it queues. -/
theorem along_eventFits_iff : ∀ (es : List Event) (t : Screen × Pending), t.2.Capped →
    (∀ data, .kitty data ∈ es → data.length ≤ maxApcBufLen) →
      (Along (Event.step V I) (EventFits I paneId) t es ↔ ∀ img ∈ Event.placedAll V I t es,
        (ServerToClient.imagePlaced paneId img).wireLen ≤ maxMsgLen)
  | [], _, _, _ => iff_of_true trivial (by rintro img ⟨⟩)
  | e :: es, t, hcapped, hdata => by
    have hfirst := eventFits_iff (I := I) paneId hcapped (e := e) (by
      rintro data rfl
      exact hdata data List.mem_cons_self)
    have hrest := along_eventFits_iff es (e.step V I t) ((Event.step_spec V I t e).capped hcapped)
      fun data hmem => hdata data (List.mem_cons_of_mem _ hmem)
    rw [Along, hfirst, hrest, Event.placedAll]
    constructor
    · rintro ⟨h, h'⟩ img himg
      rcases List.mem_append.1 himg with himg | himg
      · exact h img (Option.mem_toList.1 himg)
      · exact h' img himg
    · intro h
      refine ⟨?_, fun img himg => h img (List.mem_append_right _ himg)⟩
      intro img himg
      exact h img (List.mem_append_left _ (Option.mem_toList.2 himg))

/-! ## Everything else -/

theorem varintLen_le_succ (n : ℕ) : varintLen n ≤ n + 1 := by
  induction n using Nat.strongRecOn with
  | ind n ih =>
    unfold varintLen
    split_ifs
    · omega
    · have hrest := ih (n / 128) (by omega)
      omega

theorem stringLen_le {s : String} {n : ℕ} (h : s.utf8ByteSize ≤ n) : stringLen s ≤ 2 * n + 1 := by
  have hlen := varintLen_le_succ s.utf8ByteSize
  unfold stringLen
  omega

theorem intEquivNat_lt (n : Int32) : Equiv.intEquivNat n.toInt < 128 ^ 5 := by
  have hlt := n.toInt_lt
  have hle := n.le_toInt
  generalize n.toInt = i at hlt hle
  cases i with
  | ofNat n =>
    show 2 * n < 128 ^ 5
    simp only [Int.ofNat_eq_natCast] at hlt
    omega
  | negSucc n =>
    show 2 * n + 1 < 128 ^ 5
    omega

/-- A palette has 256 entries at most. -/
theorem length_palette_le (m : Std.ExtTreeMap UInt8 Rgb) : m.toList.length ≤ 256 := by
  have hnodup : (m.keys.map UInt8.toNat).Nodup :=
    m.nodup_keys.map fun _ _ => UInt8.toNat_inj.1
  have hsub : m.keys.map UInt8.toNat ⊆ List.range 256 := by
    intro n hn
    obtain ⟨key, -, rfl⟩ := List.mem_map.1 hn
    exact List.mem_range.2 key.toNat_lt
  have hlen := (List.subperm_of_subset hnodup hsub).length_le
  rw [List.length_map, List.length_range] at hlen
  rwa [← Std.ExtTreeMap.map_fst_toList_eq_keys, List.length_map] at hlen

theorem optionLen_le {α : Type} (n : ℕ) (a : Option α) : optionLen (fun _ => n) a ≤ n + 1 := by
  cases a with
  | none => exact Nat.le_add_left 1 n
  | some a => exact le_rfl

theorem colorOverrides_fits {q : Pending} {c : ColorOverrides} (h : q.colorOverrides = some c) :
    (ServerToClient.paneColorsChanged paneId c).fieldsLen ≤ 2048 := by
  unfold Pending.colorOverrides at h
  split_ifs at h
  obtain rfl := Option.some.inj h
  have hlen := length_palette_le q.paletteOverrides
  have hvarint := varintLen_le_succ q.paletteOverrides.toList.length
  have hfg := optionLen_le 3 q.dynamicFg
  have hbg := optionLen_le 3 q.dynamicBg
  simp only [ServerToClient.fieldsLen, listLen, List.map_const', List.sum_replicate, smul_eq_mul]
  omega

/-- **Text, marks and colors always fit**; so what the queues send fits exactly if the images do. -/
theorem wireLen_messages {q : Pending} (h : q.Capped) :
    (∀ m ∈ messages paneId q, m.wireLen ≤ maxMsgLen) ↔
      ∀ img ∈ q.pendingImages, (ServerToClient.imagePlaced paneId img).wireLen ≤ maxMsgLen := by
  have hpane := varintLen_u32 paneId
  have hshort : ∀ m : ServerToClient, m.paneId = paneId → m.fieldsLen ≤ 4194304 →
      m.wireLen ≤ maxMsgLen := by
    rintro m rfl hm
    unfold ServerToClient.wireLen maxMsgLen
    omega
  constructor
  · intro hall img himg
    refine hall _ ?_
    simp only [messages, List.mem_append, List.mem_map]
    iterate 9 right
    exact .inl ⟨img, himg, rfl⟩
  intro himages m hm
  simp only [messages, List.mem_append, List.mem_map, Option.mem_toList] at hm
  rcases hm with hm | ⟨t, ht, rfl⟩ | ⟨t, ht, rfl⟩ | ⟨p, -, rfl⟩ | ⟨c, hc, rfl⟩ | ⟨n, hn, rfl⟩ |
    ⟨t, ht, rfl⟩ | ⟨t, ht, rfl⟩ | ⟨mark, -, rfl⟩ | ⟨img, himg, rfl⟩ | ⟨e, he, rfl⟩
  · split_ifs at hm
    · obtain rfl := List.mem_singleton.1 hm
      exact hshort _ rfl (Nat.zero_le _)
    · cases hm
  · exact hshort _ rfl ((stringLen_le (h.title t ht)).trans (by decide))
  · exact hshort _ rfl ((stringLen_le (h.shape t ht)).trans (by decide))
  · refine hshort _ rfl ?_
    show 2 ≤ 4194304
    omega
  · exact hshort _ rfl ((colorOverrides_fits paneId hc).trans (by decide))
  · obtain ⟨htitle, hbody⟩ := h.notification n hn
    have hlen := Nat.add_le_add (stringLen_le htitle) (stringLen_le hbody)
    exact hshort _ rfl (hlen.trans (by decide))
  · exact hshort _ rfl ((stringLen_le (h.clipboard t ht)).trans (by decide))
  · exact hshort _ rfl ((stringLen_le (h.cwd t ht)).trans (by decide))
  · refine hshort _ rfl ?_
    have hrow := varintLen_u16 mark.row
    have hletter : mark.kind.letter.utf8ByteSize ≤ 1 := by
      cases mark.kind <;> decide
    have hkind := stringLen_le hletter
    have hcode : optionLen (fun code : Int32 => varintLen (Equiv.intEquivNat code.toInt))
        mark.exitCode ≤ 6 := by
      cases mark.exitCode with
      | none => decide
      | some code => exact Nat.succ_le_succ (varintLen_le (intEquivNat_lt code))
    show varintLen mark.row.toNat + (stringLen mark.kind.letter + optionLen _ mark.exitCode) ≤ _
    omega
  · exact himages img himg
  · refine hshort _ rfl ?_
    have hcol := varintLen_u16 e.col
    have hrow := varintLen_u16 e.row
    have hcells := varintLen_u16 e.widthCells
    have htext := stringLen_le (h.textSizing e he)
    unfold Pending.maxTextLen at htext
    show textSizedLen e ≤ _
    unfold textSizedLen
    omega

end Nexterm.Ipc

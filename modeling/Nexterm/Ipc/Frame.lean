/-
  The frames between the server and a client (`ipc/handler.rs`, `nexterm-client-core`).

  * `send`, `receive`: the send task of the server and the frame reader of the client.
  * `Relay.Sound`: what holds of a pane between two operations.
  * `Relay.fits_out_iff`, `fits_sent_iff`: what an operation sends fits exactly under its
    condition, and so does what a run sends.
  * `diffFits_of_small`: on a screen of an ordinary size every diff fits.
  * `frames_recovered`: the client recovers what a pane sends exactly along runs whose operations
    meet the condition.
-/
import Nexterm.Ipc.Outbox
import Nexterm.Vt.Bounds

namespace Nexterm.Ipc

open Codec Frames Runs Server Vt

/-- What the send task of the server writes. -/
def send (P : Postcard) (msgs : List ServerToClient) : List UInt8 :=
  msgs.flatMap fun m => frame (P.encode m)

/-- What the client reads, and whether it has closed the connection. -/
def receive (P : Postcard) (bytes : List UInt8) : List ServerToClient × Bool :=
  readFrames maxMsgLen P.decode bytes

namespace Relay

variable {V : Vte} {I : ImageCrate} {paneId : UInt32} {r : Relay V}

/-- Between two operations the queues are within their caps, and no image is left. -/
structure Sound (r : Relay V) : Prop where
  capped : r.pending.Capped
  images : r.pending.pendingImages = []
  apcBuf : r.pane.parser.apcBuf.length ≤ maxApcBufLen

theorem capped_new : Pending.new.Capped where
  title := by rintro t ⟨⟩
  notification := by rintro n ⟨⟩
  cwd := by rintro t ⟨⟩
  clipboard := by rintro t ⟨⟩
  shape := by rintro t ⟨⟩
  textSizing := by rintro e ⟨⟩
  kittyPayload := Nat.zero_le _
  kittyParams := by rintro params ⟨⟩

theorem sound_spawn (V : Vte) (cols rows : ℕ) : (spawn V cols rows).Sound :=
  ⟨capped_new, rfl, Nat.zero_le _⟩

theorem filled_eq (r : Relay V) (bytes : List UInt8) :
    r.filled I bytes =
      (run (Event.step V I) (r.pane.parser.screen, r.pending) (r.pane.parser.events bytes)).2 :=
  (congrArg Prod.snd (Terminal.run_events I bytes ⟨r.pane.parser, r.pending⟩)).symm

/-- The queues after a burst: within their caps, and with the images that the burst has brought. -/
theorem Sound.filled (h : r.Sound) (bytes : List UInt8) :
    (r.filled I bytes).Capped ∧ (r.filled I bytes).pendingImages =
      Event.placedAll V I (r.pane.parser.screen, r.pending) (r.pane.parser.events bytes) := by
  obtain ⟨himages, hcapped⟩ := Event.run_spec (V := V) (I := I) (r.pane.parser.events bytes)
    (r.pane.parser.screen, r.pending)
  rw [filled_eq]
  refine ⟨hcapped h.capped, ?_⟩
  rw [himages]
  exact congrArg (· ++ _) h.images

theorem parser_readBurst (p : PtyPane V) (bytes : List UInt8) :
    (p.readBurst bytes).1.parser = ((p.parser.advance bytes).takeDirtyRows).2 ∧
      (p.readBurst bytes).2 =
        if (p.parser.advance bytes).screen.takeDirtyRows.1 = [] then none
        else some ⟨(p.parser.advance bytes).screen.takeDirtyRows.1,
          (p.parser.advance bytes).screen.cursorCol, (p.parser.advance bytes).screen.cursorRow⟩ := by
  obtain ⟨hcol, hrow⟩ := Screen.cursor_takeDirtyRows (p.parser.advance bytes).screen
  rw [← hcol, ← hrow]
  unfold PtyPane.readBurst VtParser.takeDirtyRows
  generalize (p.parser.advance bytes).screen.takeDirtyRows = taken
  obtain ⟨_ | ⟨d, dirty⟩, screen⟩ := taken
  · exact ⟨rfl, rfl⟩
  · exact ⟨rfl, rfl⟩

theorem Sound.step (h : r.Sound) (op : RelayOp) : (r.step I op).Sound := by
  cases op with
  | burst bytes =>
    obtain ⟨hcapped, -⟩ := h.filled (I := I) bytes
    refine ⟨?_, rfl, ?_⟩
    · exact {
        title := by rintro t ⟨⟩
        notification := by rintro n ⟨⟩
        cwd := by rintro t ⟨⟩
        clipboard := by rintro t ⟨⟩
        shape := by rintro t ⟨⟩
        textSizing := by rintro e ⟨⟩
        kittyPayload := hcapped.kittyPayload
        kittyParams := hcapped.kittyParams }
    · show (r.pane.readBurst bytes).1.parser.apcBuf.length ≤ maxApcBufLen
      rw [(parser_readBurst r.pane bytes).1]
      exact (VtParser.length_kitty bytes h.apcBuf).2
  | resizePty cols rows => exact ⟨h.capped, h.images, h.apcBuf⟩
  | refresh => exact h
  | eof => exact h

/-- The diff of a burst fits exactly under the condition on the screen. -/
theorem diffFits_iff (p : PtyPane V) (bytes : List UInt8) :
    DiffFits paneId (p.parser.advance bytes).screen ↔
      ∀ diff, (p.readBurst bytes).2 = some diff →
        (ServerToClient.gridDiff paneId diff).wireLen ≤ maxMsgLen := by
  rw [(parser_readBurst p bytes).2]
  unfold DiffFits
  by_cases hnil : (p.parser.advance bytes).screen.takeDirtyRows.1 = []
  · rw [if_pos hnil]
    exact iff_of_true (fun h => absurd hnil h) (by rintro diff ⟨⟩)
  · rw [if_neg hnil]
    constructor
    · rintro h _ ⟨⟩
      exact h hnil
    · exact fun h _ => h _ rfl

/-- **What an operation sends fits exactly under its condition.** -/
theorem fits_out_iff (h : r.Sound) (op : RelayOp) :
    r.Fits I paneId op ↔ ∀ m ∈ r.out I paneId op, m.wireLen ≤ maxMsgLen := by
  cases op with
  | burst bytes =>
    obtain ⟨hcapped, himages⟩ := h.filled (I := I) bytes
    have hevents := along_eventFits_iff (V := V) (I := I) paneId (r.pane.parser.events bytes)
      (r.pane.parser.screen, r.pending) h.capped (VtParser.length_kitty bytes h.apcBuf).1
    have hmessages := wireLen_messages paneId hcapped
    rw [himages] at hmessages
    show _ ∧ _ ↔ ∀ m ∈ (r.pane.readBurst bytes).2.toList.map (.gridDiff paneId) ++
      messages paneId (r.filled I bytes), m.wireLen ≤ maxMsgLen
    rw [hevents, diffFits_iff, List.forall_mem_append, hmessages]
    constructor
    · rintro ⟨himgs, hdiff⟩
      refine ⟨?_, himgs⟩
      intro m hm
      obtain ⟨diff, hmem, rfl⟩ := List.mem_map.1 hm
      exact hdiff diff (Option.mem_toList.1 hmem)
    · rintro ⟨hdiff, himgs⟩
      exact ⟨himgs, fun diff hsome => hdiff _ (List.mem_map_of_mem (Option.mem_toList.2 hsome))⟩
  | resizePty cols rows => exact iff_of_true trivial (by rintro m ⟨⟩)
  | refresh => simp [Fits, out, ServerToClient.wireLen, ServerToClient.paneId,
      ServerToClient.fieldsLen, PtyPane.makeFullRefresh]
  | eof =>
    refine iff_of_true trivial ?_
    intro m hm
    obtain rfl := List.mem_singleton.1 hm
    have hpane := varintLen_u32 paneId
    show 1 + (varintLen paneId.toNat + 0) ≤ maxMsgLen
    unfold maxMsgLen
    omega

/-- What a run sends fits exactly if its operations meet the condition. -/
theorem fits_sent_iff : ∀ (ops : List RelayOp) {r : Relay V}, r.Sound →
    (Along (Relay.step I) (Relay.Fits I paneId) r ops ↔
      ∀ m ∈ r.sent I paneId ops, m.wireLen ≤ maxMsgLen)
  | [], _, _ => iff_of_true trivial (by rintro m ⟨⟩)
  | op :: ops, r, h => by
    rw [Along, fits_out_iff h op, fits_sent_iff ops (h.step op), sent, List.forall_mem_append]

end Relay

/-! ## Panes of an ordinary size -/

theorem listLen_le {α : Type} {f : α → ℕ} {k : ℕ} {l : List α} (h : ∀ a ∈ l, f a ≤ k) :
    listLen f l ≤ varintLen l.length + l.length * k := by
  have hsum := List.sum_le_card_nsmul (l.map f) k (by
    intro n hn
    obtain ⟨a, ha, rfl⟩ := List.mem_map.1 hn
    exact h a ha)
  rw [List.length_map, smul_eq_mul] at hsum
  exact Nat.add_le_add_left hsum _

/-- A cell takes 14 bytes at most. -/
theorem cellLen_le (c : Cell) : cellLen c ≤ 14 := by
  have hcolor : ∀ c : Color, colorLen c ≤ 4 := by
    intro c
    cases c <;> simp [colorLen]
  have hch := c.ch.utf8Size_le_four
  have hfg := hcolor c.fg
  have hbg := hcolor c.bg
  unfold cellLen
  omega

/-- **On a screen of up to some four million cells every diff fits.** -/
theorem diffFits_of_small {cols rows : ℕ} {s : Screen} (hs : s.Shaped cols rows)
    (hb : s.Bounded cols rows) (hcols : cols < 65536) (hrows : rows < 65536)
    (hsize : rows * (14 * cols + 6) + 15 ≤ maxMsgLen) (paneId : UInt32) : DiffFits paneId s := by
  intro _
  have hpane := varintLen_u32 paneId
  have hcol : varintLen s.cursorCol ≤ 3 := by
    have hle := hb.cursorCol
    exact varintLen_le (by omega)
  have hrow : varintLen s.cursorRow ≤ 3 := by
    have hlt := hb.cursorRow
    exact varintLen_le (by omega)
  have hdirty : ∀ d ∈ s.takeDirtyRows.1, dirtyRowLen d ≤ 14 * cols + 6 := by
    intro d hd
    obtain ⟨hlt, hlen⟩ := PtyPane.size_takeDirtyRows hs d hd
    have hindex : varintLen d.row ≤ 3 := varintLen_le (by omega)
    have hcount : varintLen d.cells.length ≤ 3 := varintLen_le (by omega)
    have hcells := listLen_le (f := cellLen) (l := d.cells) fun c _ => cellLen_le c
    rw [hlen] at hcells hcount
    unfold dirtyRowLen
    omega
  have hcount : s.takeDirtyRows.1.length ≤ rows := by
    unfold Screen.takeDirtyRows
    split_ifs
    · exact Nat.zero_le _
    · refine (List.length_filterMap_le _ _).trans ?_
      rw [List.length_range]
      exact hs.dirty.le
  have hlist := listLen_le hdirty
  have hvarint : varintLen s.takeDirtyRows.1.length ≤ 3 := varintLen_le (by omega)
  have hmul := Nat.mul_le_mul_right (14 * cols + 6) hcount
  omega

/-! ## What the client recovers -/

variable {V : Vte} {I : ImageCrate} {paneId : UInt32}

/-- The length prefix of a message that fits is accepted. -/
theorem validateMsgLen_frame (P : Postcard) {m : ServerToClient} (h : m.wireLen ≤ maxMsgLen) :
    validateMsgLen (readLe ((frame (P.encode m)).take 4)) = true := by
  have hlen₄ := readLe_frame (P.encode m) []
  rw [List.append_nil, P.length_encode] at hlen₄
  have hle : m.wireLen % 2 ^ 32 ≤ m.wireLen := Nat.mod_le _ _
  rw [hlen₄, validateMsgLen, Bool.not_eq_true', decide_eq_false_iff_not]
  omega

/-- **What the client recovers.**  Along a run whose operations all meet the condition, every length
    prefix is accepted and the client reads the messages that were sent, also when some of them are
    lost before they are framed.  Conversely, if the client recovers what a run sends, and no
    message is so long that its length does not fit into the prefix, all operations meet it. -/
theorem frames_recovered (P : Postcard) (V : Vte) (I : ImageCrate) (paneId : UInt32)
    (cols rows : ℕ) (ops : List RelayOp) :
    let sent := (Relay.spawn V cols rows).sent I paneId ops
    let fits := Along (Relay.step I) (Relay.Fits I paneId) (Relay.spawn V cols rows) ops
    (fits → ∀ msgs ⊆ sent,
      (∀ m ∈ msgs, validateMsgLen (readLe ((frame (P.encode m)).take 4)) = true) ∧
        receive P (send P msgs) = (msgs, false)) ∧
    ((∀ m ∈ sent, m.wireLen < 2 ^ 32) → receive P (send P sent) = (sent, false) → fits) := by
  intro sent fits
  have hiff : fits ↔ ∀ m ∈ sent, m.wireLen ≤ maxMsgLen :=
    Relay.fits_sent_iff ops (Relay.sound_spawn V cols rows)
  have hlimit : maxMsgLen < 2 ^ 32 := by decide
  refine ⟨?_, ?_⟩
  · intro hfits msgs hsub
    have hshort : ∀ m ∈ msgs, m.wireLen ≤ maxMsgLen := fun m hm => hiff.1 hfits m (hsub hm)
    refine ⟨fun m hm => validateMsgLen_frame P (hshort m hm), ?_⟩
    refine readFrames_frames P.decode_encode hlimit ?_
    intro m hm
    rw [P.length_encode]
    exact hshort m hm
  · intro hlen hread
    rw [hiff]
    intro m hm
    have hall := (readFrames_frames_iff P.decode_encode hlimit (by
      intro m hm
      rw [P.length_encode]
      exact hlen m hm)).1 hread m hm
    rwa [P.length_encode] at hall

/-- Decodes no picture. -/
def noPictures : ImageCrate := ⟨fun _ => none, by rintro data img ⟨⟩⟩

/-- A bell, a line of text, a full refresh and the end. -/
theorem frames_recovered_text :
    let sent := (Relay.spawn plainVte 4 2).sent noPictures 1
      [.burst [0x07, 0x68, 0x69], .refresh, .eof]
    sent.length = 4 ∧ receive postcard (send postcard sent) = (sent, false) := by
  intro sent
  refine ⟨by decide +kernel, ?_⟩
  refine ((frames_recovered postcard plainVte noPictures 1 4 2 _).1 ?_ sent (List.Subset.refl _)).2
  refine ⟨⟨⟨trivial, trivial, trivial, trivial⟩, ?_⟩, ?_, trivial, trivial⟩
  · intro _
    decide +kernel
  · show _ ≤ maxMsgLen
    decide +kernel

/-! ## A picture that is accepted and does not fit -/

/-- A parser that knows OSC sequences only. -/
inductive OscState
  | ground
  | esc
  | osc (buf : List UInt8)

/-- Of `vte`, the OSC sequences that BEL ends. -/
def oscVte : Vte where
  State := OscState
  init := .ground
  advance
    | .ground, byte => if byte = 0x1b then (.esc, []) else (.ground, [])
    | .esc, byte => if byte = 0x5d then (.osc [], []) else (.ground, [])
    | .osc buf, byte =>
      if byte = 0x07 then (.ground, [.oscDispatch (buf.splitOn 0x3b) true])
      else (.osc (buf ++ [byte]), [])
  width _ := some 1

/-- Decodes every file to one picture of 4096 × 4096 pixels. -/
def pictureCrate (rgba : List UInt8) (h : rgba.length = 67108864) : ImageCrate where
  load _ := some ⟨4096, 4096, rgba⟩
  length_rgba := by
    rintro data img ⟨⟩
    have harea : (4096 : UInt32).toNat * (4096 : UInt32).toNat * 4 = 67108864 := by decide +kernel
    rw [harea]
    exact h

/-- `ESC ] 1337 ; File=inline=1:AAAA BEL`. -/
def pictureBytes : List UInt8 :=
  [0x1b, 0x5d, 0x31, 0x33, 0x33, 0x37, 0x3b, 0x46, 0x69, 0x6c, 0x65, 0x3d, 0x69, 0x6e, 0x6c, 0x69,
    0x6e, 0x65, 0x3d, 0x31, 0x3a, 0x41, 0x41, 0x41, 0x41, 0x07]

/-- What the picture is sent as. -/
theorem sent_picture {I : ImageCrate} {img : DecodedImage}
    (h : decodeIterm2 I [0, 0, 0] = some img) :
    (Relay.spawn oscVte 2 2).sent I 1 [.burst pictureBytes] =
      [.imagePlaced 1 (Pending.new.imageAt (0, 0) img)] := by
  have hdiff : ((PtyPane.spawn oscVte 2 2).readBurst pictureBytes).2 = none := by decide +kernel
  have hevents : (VtParser.new oscVte 2 2).events pictureBytes =
      [.perform (.oscDispatch [[0x31, 0x33, 0x33, 0x37], [0x46, 0x69, 0x6c, 0x65, 0x3d, 0x69, 0x6e,
        0x6c, 0x69, 0x6e, 0x65, 0x3d, 0x31, 0x3a, 0x41, 0x41, 0x41, 0x41]] true)] := by
    rfl
  have hcode : (fromUtf8 [0x31, 0x33, 0x33, 0x37]).map trim = some "1337" := by decide +kernel
  have hfile : Pending.iterm2File [[0x46, 0x69, 0x6c, 0x65, 0x3d, 0x69, 0x6e, 0x6c, 0x69, 0x6e,
      0x65, 0x3d, 0x31, 0x3a, 0x41, 0x41, 0x41, 0x41]] = some [0, 0, 0] := by decide +kernel
  have hfilled : (Relay.spawn oscVte 2 2).filled I pictureBytes =
      Pending.new.placeImage (0, 0) img := by
    have hrun := Relay.filled_eq (I := I) (Relay.spawn oscVte 2 2) pictureBytes
    have hparser : (Relay.spawn oscVte 2 2).pane.parser = VtParser.new oscVte 2 2 := rfl
    rw [hparser, hevents] at hrun
    simp only [run, List.foldl_cons, List.foldl_nil, Event.step, Pending.perform] at hrun
    rw [hrun, Pending.oscDispatch_iterm2 hcode, Pending.handleIterm2Osc, hfile, Option.bind_some, h]
    rfl
  have hpane : (Relay.spawn oscVte 2 2).pane = PtyPane.spawn oscVte 2 2 := rfl
  rw [Relay.sent, Relay.sent, List.append_nil, Relay.out, hpane, hdiff, hfilled]
  rfl

/-- **A picture of 4096 × 4096 pixels closes the connection.**  The decoder accepts it; its message
    is longer than the client allows, and nothing is received. -/
theorem picture_closes_connection :
    let I := pictureCrate (List.replicate 67108864 0) List.length_replicate
    let sent := (Relay.spawn oscVte 2 2).sent I 1 [.burst pictureBytes]
    sent.length = 1 ∧ receive postcard (send postcard sent) = ([], true) := by
  intro I sent
  have hchecked : checkedImageBytes (4096 : UInt32).toNat (4096 : UInt32).toNat 4 =
      some 67108864 := by decide +kernel
  have hdec : decodeIterm2 I [0, 0, 0] = some ⟨4096, 4096, List.replicate 67108864 0⟩ := by
    simp only [decodeIterm2, I, pictureCrate, Option.bind_some]
    rw [hchecked]
    rfl
  have hlen : imageMsgLen 1 Pending.new.nextImageId (0, 0) 4096 4096 = 67108877 := by
    decide +kernel
  have hwire := wireLen_imageAt 1 Pending.new (0, 0) (decodeIterm2_size hdec).1
  rw [hlen] at hwire
  have hsent : sent = _ := sent_picture hdec
  rw [hsent]
  refine ⟨rfl, ?_⟩
  have hnone : ∀ m ∈ ([] : List ServerToClient), (postcard.encode m).length ≤ maxMsgLen := by
    rintro m ⟨⟩
  refine readFrames_closed postcard.decode_encode (by decide) hnone ?_ ?_
  · rw [postcard.length_encode, hwire]
    decide
  · rw [postcard.length_encode, hwire]
    decide

end Nexterm.Ipc

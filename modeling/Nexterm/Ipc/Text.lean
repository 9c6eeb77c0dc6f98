/-
  From a program to the screen of a client: text that the program of a pane writes, through the
  parser, the screen, the reader thread, the broadcast and the forwarder, as a client shows it.

  * `VtParser.actions_readOps`: what the bursts of a reader do to its screen depends on the bytes
    only, not on where they are cut.
  * `PtyPane.Read`: a pane that has read some bursts; `Read.rows_lines`: its snapshot, if they are
    lines of text.
  * `Stream.reads`: the bursts that the reader of a pane reads during a run.
  * `Stream.text_shown`: once everything is drained, the client shows the end of the text.
-/
import Nexterm.Ipc.Cursor
import Nexterm.Ipc.Lag
import Nexterm.Lib.Trails
import Nexterm.Vt.Lines

namespace Nexterm.Vt

variable {V : Vte}

/-! ## Bursts -/

theorem Vte.actions_append (V : Vte) : ∀ (bytes bytes' : List UInt8) (t : V.State × Screen),
    V.actions t.1 (bytes ++ bytes') =
      V.actions t.1 bytes ++ V.actions (bytes.foldl V.feed t).1 bytes'
  | [], _, _ => rfl
  | byte :: bytes, bytes', t => by
    rw [List.cons_append, Vte.actions, Vte.actions, List.append_assoc]
    exact congrArg _ (V.actions_append bytes bytes' (V.feed t byte))

namespace VtParser

theorem actions_append (p : VtParser V) (bytes bytes' : List UInt8) :
    p.actions (bytes ++ bytes') = p.actions bytes ++ (p.advance bytes).actions bytes' := by
  have hparser := congrArg Prod.fst (terminal_advance bytes p)
  rw [actions, deliveries_append, vteBytes, List.filterMap_append]
  refine (V.actions_append _ _ p.terminal).trans ?_
  rw [actions, actions]
  exact congrArg _ (congrArg (V.actions · _) hparser.symm)

/-- The parser with another screen. -/
def withScreen (p : VtParser V) (s : Screen) : VtParser V := { p with screen := s }

theorem apcPush_withScreen (p : VtParser V) (s : Screen) (byte : UInt8) :
    (p.withScreen s).apcPush byte = (p.apcPush byte).withScreen s := by
  unfold apcPush withScreen
  split_ifs <;> rfl

/-- What a parser reads does not depend on its screen. -/
theorem advanceByte_withScreen (p : VtParser V) (s : Screen) (byte : UInt8) :
    ∃ s', (p.withScreen s).advanceByte byte = (p.advanceByte byte).withScreen s' := by
  have hpush := p.apcPush_withScreen s byte
  have hpushes : (({ p with apcPendingEsc := false }.withScreen s).apcPush 0x1b).apcPush byte =
      (({ p with apcPendingEsc := false }.apcPush 0x1b).apcPush byte).withScreen s := by
    rw [apcPush_withScreen, apcPush_withScreen]
  unfold withScreen at *
  unfold advanceByte
  dsimp only at hpush hpushes ⊢
  by_cases hpending : p.apcPendingEsc = true
  · rw [if_pos hpending, if_pos hpending]
    by_cases hopen : byte = 0x5f
    · exact ⟨s, by rw [if_pos hopen, if_pos hopen]⟩
    by_cases hclose : byte = 0x5c ∧ p.apcActive = true
    · exact ⟨s, by rw [if_neg hopen, if_neg hopen, if_pos hclose, if_pos hclose]⟩
    rw [if_neg hopen, if_neg hopen, if_neg hclose, if_neg hclose]
    by_cases hactive : p.apcActive = true
    · exact ⟨s, by rw [if_pos hactive, if_pos hactive, hpushes]⟩
    · rw [if_neg hactive, if_neg hactive]
      exact ⟨_, rfl⟩
  · rw [if_neg hpending, if_neg hpending]
    by_cases hesc : byte = 0x1b
    · exact ⟨s, by rw [if_pos hesc, if_pos hesc]⟩
    rw [if_neg hesc, if_neg hesc]
    by_cases hactive : p.apcActive = true
    · exact ⟨s, by rw [if_pos hactive, if_pos hactive, hpush]⟩
    · rw [if_neg hactive, if_neg hactive]
      exact ⟨_, rfl⟩

theorem deliveries_withScreen (p : VtParser V) (s : Screen) (bytes : List UInt8) :
    (p.withScreen s).deliveries bytes = p.deliveries bytes ∧
      ∃ s', (p.withScreen s).advance bytes = (p.advance bytes).withScreen s' := by
  induction bytes generalizing p s with
  | nil => exact ⟨rfl, s, rfl⟩
  | cons byte bytes ih =>
    obtain ⟨s', hbyte⟩ := p.advanceByte_withScreen s byte
    obtain ⟨hdel, s'', hadv⟩ := ih (p.advanceByte byte) s'
    constructor
    · rw [deliveries, hbyte, hdel]
      rfl
    · exact ⟨s'', (congrArg (advance · bytes) hbyte).trans hadv⟩

theorem actions_withScreen (p : VtParser V) (s : Screen) (bytes : List UInt8) :
    (p.withScreen s).actions bytes = p.actions bytes := by
  rw [actions, (p.deliveries_withScreen s bytes).1]
  rfl

/-- What a reader does with some bursts. -/
def readOps (bursts : List (List UInt8)) : List Op :=
  bursts.flatMap fun bytes => [.advance bytes, .takeDirtyRows]

theorem actions_perform (actions : List Perform) :
    ScreenOp.actions (actions.map .perform) = actions := by
  rw [ScreenOp.actions, List.filterMap_map]
  exact List.filterMap_some

/-- A reader does not resize its screen. -/
theorem isResize_readOps (p : VtParser V) (bursts : List (List UInt8)) :
    ∀ op ∈ p.trace (readOps bursts), op.isResize = false := by
  induction bursts generalizing p with
  | nil =>
    intro op hop
    cases hop
  | cons bytes bursts ih =>
    intro op hop
    rcases List.mem_append.1 hop with hop | hop
    · obtain ⟨action, -, rfl⟩ := List.mem_map.1 hop
      rfl
    · rcases List.mem_cons.1 hop with rfl | hop
      · rfl
      · exact ih _ op hop

/-- What bursts do to the screen is what their bytes do. -/
theorem actions_readOps (p : VtParser V) (s : Screen) (bursts : List (List UInt8)) :
    ScreenOp.actions ((p.withScreen s).trace (readOps bursts)) = p.actions bursts.flatten := by
  induction bursts generalizing p s with
  | nil => rfl
  | cons bytes bursts ih =>
    obtain ⟨s', hadv⟩ := (p.deliveries_withScreen s bytes).2
    have htake : ((p.withScreen s).advance bytes).takeDirtyRows.2 =
        (p.advance bytes).withScreen s'.takeDirtyRows.2 := by
      rw [hadv]
      rfl
    rw [List.flatten_cons, actions_append, ← ih (p.advance bytes) s'.takeDirtyRows.2, ← htake]
    show ScreenOp.actions (((p.withScreen s).actions bytes).map .perform ++ .takeDirtyRows :: _) = _
    rw [ScreenOp.actions, List.filterMap_append, actions_withScreen]
    exact congrArg (· ++ _) (actions_perform _)

end VtParser

/-! ## Synchronized output -/

namespace Screen

theorem synchronizedOutput_copyUp : ∀ (rows : List ℕ) (s : Screen),
    (s.copyUp rows).synchronizedOutput = s.synchronizedOutput
  | [], _ => rfl
  | r :: rows, s =>
    synchronizedOutput_copyUp rows ({ s with grid := s.grid.copyRow r (r + 1) }.markDirty r)

theorem synchronizedOutput_clearRows : ∀ (rows : List ℕ) (s : Screen),
    (s.clearRows rows).synchronizedOutput = s.synchronizedOutput
  | [], _ => rfl
  | r :: rows, s =>
    synchronizedOutput_clearRows rows ({ s with grid := s.grid.clearRow r }.markDirty r)

theorem synchronizedOutput_advanceLine (s : Screen) :
    s.advanceLine.synchronizedOutput = s.synchronizedOutput := by
  unfold advanceLine scrollUp
  split_ifs
  · rw [synchronizedOutput_clearRows, synchronizedOutput_copyUp]
    unfold retainTopLine
    split_ifs
    · cases s.grid.rows[s.scrollTop]? <;> rfl
    · rfl
  · rfl

theorem synchronizedOutput_writeChar (s : Screen) (c : Char) (charWidth : ℕ) :
    (s.writeChar c charWidth).synchronizedOutput = s.synchronizedOutput := by
  unfold writeChar wrapLine
  dsimp only
  split_ifs <;> simp [markDirty, synchronizedOutput_advanceLine]

theorem synchronizedOutput_execute (s : Screen) (byte : UInt8) :
    (s.execute byte).synchronizedOutput = s.synchronizedOutput := by
  unfold execute
  dsimp only
  split_ifs <;> simp [moveCursor, synchronizedOutput_advanceLine]

/-- Lines of text leave the mode alone. -/
theorem synchronizedOutput_lines (V : Vte) {lines : List (List Char)} :
    ∀ (ops : List ScreenOp) (s : Screen),
      (∀ action ∈ ScreenOp.actions ops, action ∈ Perform.lines lines) →
      (Runs.run (step V) s ops).synchronizedOutput = s.synchronizedOutput
  | [], _, _ => rfl
  | .resize cols rows :: ops, s, h => synchronizedOutput_lines V ops (s.resize cols rows) h
  | .takeScrolledOffLines :: ops, s, h =>
    synchronizedOutput_lines V ops s.takeScrolledOffLines.2 h
  | .takeDirtyRows :: ops, s, h => by
    rw [← (takeDirtyRows_screen s).2.2.2]
    exact synchronizedOutput_lines V ops s.takeDirtyRows.2 h
  | .perform action :: ops, s, h => by
    have hrest := synchronizedOutput_lines V ops (s.perform V action) fun a ha =>
      h a (List.mem_cons_of_mem _ ha)
    refine hrest.trans ?_
    obtain ⟨line, -, hmem⟩ := List.mem_flatMap.1 (h action List.mem_cons_self)
    rcases List.mem_append.1 hmem with hmem | hmem
    · obtain ⟨c, -, rfl⟩ := List.mem_map.1 hmem
      exact synchronizedOutput_writeChar s c _
    · simp only [List.mem_cons, List.not_mem_nil, or_false] at hmem
      rcases hmem with rfl | rfl
      · exact synchronizedOutput_execute s 0x0d
      · exact synchronizedOutput_execute s 0x0a

end Screen

theorem Log.screen_run {V : Vte} : ∀ (ops : List ScreenOp) (l : Log),
    (Runs.run (step V) l ops).screen = Runs.run (Screen.step V) l.screen ops
  | [], _ => rfl
  | op :: ops, l => by
    refine (Log.screen_run ops (l.step V op)).trans ?_
    rw [screen_step]
    rfl

end Nexterm.Vt

namespace Nexterm.Server.PtyPane

open Vt

variable {V : Vte} {cols rows : ℕ} {p : PtyPane V} {bursts : List (List UInt8)}

/-! ## The reader -/

/-- The pane has been spawned with a size and has read the bursts. -/
structure Read (cols rows : ℕ) (bursts : List (List UInt8)) (p : PtyPane V) : Prop where
  parser : p.parser = Runs.run VtParser.step (VtParser.new V cols rows) (VtParser.readOps bursts)
  mirrors : p.Mirrors cols rows
  latest : p.parser.screen.synchronizedOutput = false →
    p.latestGrid.rows = p.parser.screen.grid.rows

theorem read_spawn (V : Vte) (cols rows : ℕ) : (spawn V cols rows).Read cols rows [] :=
  ⟨rfl, mirrors_spawn V cols rows, fun _ => rfl⟩

theorem Read.readBurst (h : p.Read cols rows bursts) (bytes : List UInt8) :
    (p.readBurst bytes).1.Read cols rows (bursts ++ [bytes]) := by
  obtain ⟨hmirrors, hlatest⟩ := mirrors_readBurst h.mirrors bytes
  have hparser := p.parser_readBurst bytes
  obtain ⟨hgrid, -, -, hsync⟩ := Screen.takeDirtyRows_screen (p.screenAfter bytes)
  refine ⟨?_, hmirrors, ?_⟩
  · rw [hparser, VtParser.readOps, List.flatMap_append, Runs.run_append, h.parser]
    rfl
  · have hscreen : (p.readBurst bytes).1.parser.screen = (p.screenAfter bytes).takeDirtyRows.2 :=
      congrArg VtParser.screen hparser
    rw [hscreen, hsync, hgrid]
    exact hlatest

/-- **The snapshot of a pane that has read lines of text** is the end of them. -/
theorem Read.rows_lines (h : p.Read cols rows bursts) (hcols : 2 ≤ cols) (hrows : 0 < rows)
    {lines : List (List Char)}
    (hlines : (VtParser.new V cols rows).actions bursts.flatten = Perform.lines lines) :
    let page := textRows V cols lines ++
      List.replicate (max 1 (rows - (textRows V cols lines).length)) (Grid.blankRow cols)
    p.latestGrid.rows = page.drop (page.length - rows) := by
  let ops := (VtParser.new V cols rows).trace (VtParser.readOps bursts)
  have hactions : ScreenOp.actions ops = Perform.lines lines :=
    ((VtParser.new V cols rows).actions_readOps _ bursts).trans hlines
  have hscreen : p.parser.screen = Runs.run (Screen.step V) (Screen.new cols rows) ops := by
    rw [h.parser, VtParser.screen_run]
    rfl
  have hsync : p.parser.screen.synchronizedOutput = false := by
    rw [hscreen]
    refine (@Screen.synchronizedOutput_lines V lines ops _ ?_).trans rfl
    intro action haction
    rwa [hactions] at haction
  have hresize : ∀ op ∈ ops, op.isResize = false := VtParser.isResize_readOps _ bursts
  obtain ⟨r, htyped, hwidth, hfront⟩ := Log.typed_lines V hcols hrows ops hresize hactions
  have hwindow : p.latestGrid.rows = r.window := by
    rw [h.latest hsync, hscreen, ← hfront.rows, Log.screen_run]
  have hheight : r.height = rows := by
    rw [← Roll.length_window htyped.full, ← hwindow]
    exact h.mirrors.mirror.length_rows
  rw [hwindow, Roll.window, Roll.top, hheight, Log.rows_typed htyped hwidth]

end Nexterm.Server.PtyPane

namespace Nexterm.Ipc.Stream

open Std.ExtTreeMap Server Vt

variable {V : Vte} {s : Stream V} {r : Reader V} {id : ℕ}

/-! ## Runs -/

/-- What a step makes the reader of the pane read; it waits until its last diff is sent. -/
def reads (id : ℕ) (s : Stream V) : Act → List (List UInt8)
  | .burst id' bytes =>
    if id' = id ∧ (s.readers[id]?.any fun r => r.outbox.isNone) = true then [bytes] else []
  | _ => []

/-- The pane after a step. -/
theorem pane_step (hr : s.readers[id]? = some r) (act : Act) :
    ∃ r', (s.step act).readers[id]? = some r' ∧
      ((s.reads id act = [] ∧ r'.pane = r.pane) ∨
        ∃ bytes, s.reads id act = [bytes] ∧ r'.pane = (r.pane.readBurst bytes).1) := by
  have hsame : ∀ {s' : Stream V}, s'.readers = s.readers → s.reads id act = [] →
      ∃ r', s'.readers[id]? = some r' ∧ ((s.reads id act = [] ∧ r'.pane = r.pane) ∨
        ∃ bytes, s.reads id act = [bytes] ∧ r'.pane = (r.pane.readBurst bytes).1) := by
    intro s' hs' hreads
    exact ⟨r, hs' ▸ hr, .inl ⟨hreads, rfl⟩⟩
  cases act with
  | burst id' bytes =>
    show ∃ r', (s.readers.modify id' (·.burst bytes))[id]? = some r' ∧ _
    rw [getElem?_modify_eq, hr, reads, hr]
    by_cases hid : id' = id
    · refine ⟨r.burst bytes, by rw [if_pos hid]; rfl, ?_⟩
      cases hout : r.outbox with
      | some diff =>
        left
        simp [Reader.burst, hout]
      | none =>
        right
        refine ⟨bytes, by simp [hid, hout], ?_⟩
        unfold Reader.burst
        rw [hout]
        generalize r.pane.readBurst bytes = out
        obtain ⟨pane, diff⟩ := out
        cases diff <;> rfl
    · exact ⟨r, by rw [if_neg hid], .inl ⟨if_neg fun h => hid h.1, rfl⟩⟩
  | broadcast id' =>
    show ∃ r', (s.broadcast id').readers[id]? = some r' ∧ _
    unfold broadcast
    split
    · exact hsame rfl rfl
    · rw [readers_push]
      show ∃ r', (s.readers.modify id' (·.sent))[id]? = some r' ∧ _
      rw [getElem?_modify_eq, hr]
      split_ifs
      · exact ⟨_, rfl, .inl ⟨rfl, rfl⟩⟩
      · exact ⟨r, rfl, .inl ⟨rfl, rfl⟩⟩
  | event => exact hsame (readers_push s .other) rfl
  | recv =>
    refine hsame ?_ rfl
    show s.recv.readers = _
    unfold recv
    split
    · split_ifs <;> rfl
    · rfl
  | snapshot =>
    refine hsame ?_ rfl
    show s.snapshot.readers = _
    unfold snapshot
    split <;> rfl
  | forward =>
    refine hsame ?_ rfl
    show s.forward.readers = _
    unfold forward
    split <;> rfl
  | deliver =>
    refine hsame ?_ rfl
    show s.deliver.readers = _
    unfold deliver
    split <;> rfl

/-- The pane of a run has read what the run made its reader read. -/
theorem read_run {cols rows : ℕ} (hr : s.readers[id]? = some (Reader.spawn V cols rows))
    (acts : List Act) :
    ∃ r, (Runs.run step s acts).readers[id]? = some r ∧
      r.pane.Read cols rows (Runs.outputs step (reads id) s acts) := by
  refine Runs.run_trail (I := fun _ (s : Stream V) bursts =>
    ∃ r, s.readers[id]? = some r ∧ r.pane.Read cols rows bursts)
    ⟨_, hr, PtyPane.read_spawn V cols rows⟩ ?_
  rintro pre act - ⟨r, hr, hread⟩
  obtain ⟨r', hr', ⟨hnone, hpane⟩ | ⟨bytes, hsome, hpane⟩⟩ := pane_step hr act
  · refine ⟨r', hr', ?_⟩
    rw [hnone, List.append_nil, hpane]
    exact hread
  · refine ⟨r', hr', ?_⟩
    rw [hsome, hpane]
    exact hread.readBurst bytes

/-- **From a program to the screen of a client.**  A pane is spawned with at least two columns, and
    what its reader reads are lines of text, cut into bursts anywhere.  Whenever the queues are
    drained, a client that knows the pane shows the end of the text: each line is broken where a
    character does not fit, and what is left of the screen is blank.  The client may have lagged,
    as long as the pane is in the focused window or lost nothing. -/
theorem text_shown (V : Vte) {cols rows : ℕ} (hcols : 2 ≤ cols) (hrows : 0 < rows)
    {s : Stream V} {id : ℕ} (hstart : s.InStep)
    (hspawn : s.readers[id]? = some (Reader.spawn V cols rows)) (acts : List Act)
    (hkeep : Runs.Along step (Keeps id) s acts) (lines : List (List Char))
    (hlines : (VtParser.new V cols rows).actions (Runs.outputs step (reads id) s acts).flatten =
      Perform.lines lines)
    (hdrained : (Runs.run step s acts).Drained) {shown : List (List Cell)}
    (hshown : (Runs.run step s acts).clientRows id = some shown) :
    let page := textRows V cols lines ++
      List.replicate (max 1 (rows - (textRows V cols lines).length)) (Grid.blankRow cols)
    shown = page.drop (page.length - rows) := by
  have hid : id ∈ s.readers := mem_iff_getElem?.2 ⟨_, hspawn⟩
  have htracked : (Runs.run step s acts).Tracked id :=
    (Runs.always_of_along (P := Tracked id) (fun _ _ h hk => Tracked.step h hk)
      (hstart.tracked hid) hkeep).last
  obtain ⟨r, hr, hequal⟩ := htracked.rows hdrained hshown
  obtain ⟨r', hr', hread⟩ := read_run hspawn acts
  obtain rfl := Option.some.inj (hr.symm.trans hr')
  rw [hequal]
  exact hread.rows_lines hcols hrows hlines

/-- One pane of three columns and two rows, which the client knows. -/
def typing : Stream plainVte where
  readers := (∅ : IdMap (Reader plainVte)).insert 1 (.spawn plainVte 3 2)
  focusedPanes := [1]
  queue := []
  missed := 0
  todo := []
  hand := []
  channel := []
  client := ⟨(∅ : IdMap PaneState).insert 1 ⟨Grid.new 3 2, 0, 0⟩, [⟨1, 0, 0, 3, 2, true⟩], some 1⟩

theorem inStep_typing : typing.InStep := by
  have hreaders : ∀ id (r : Reader plainVte), typing.readers[id]? = some r →
      r = .spawn plainVte 3 2 ∧ typing.clientRows id = some (Grid.new 3 2).rows := by
    intro id r hr
    unfold typing at hr ⊢
    unfold clientRows
    dsimp only at hr ⊢
    rw [getElem?_insert_eq] at hr ⊢
    split_ifs at hr ⊢
    · exact ⟨(Option.some.inj hr).symm, rfl⟩
    · simp at hr
  refine ⟨?_, rfl, rfl, rfl, rfl, rfl, ?_⟩
  · intro id r hr
    obtain ⟨rfl, -⟩ := hreaders id r hr
    exact .spawn 3 2
  · intro id r hr
    obtain ⟨rfl, hrows⟩ := hreaders id r hr
    exact .inr hrows

/-- A line of four characters, in three bursts. -/
def fourLetters : List Act :=
  [.burst 1 [0x61, 0x62], .broadcast 1, .burst 1 [0x63, 0x64, 0x0d], .recv, .broadcast 1, .forward,
    .burst 1 [0x0a], .deliver, .recv, .broadcast 1, .forward, .recv, .forward, .deliver, .deliver]

theorem text_shown_letters : [[{ ch := 'd' }, {}, {}], [{}, {}, {}]] =
    (textRows plainVte 3 [['a', 'b', 'c', 'd']] ++
      List.replicate (max 1 (2 - (textRows plainVte 3 [['a', 'b', 'c', 'd']]).length))
        (Grid.blankRow 3)).drop 1 :=
  text_shown plainVte (by decide) (by decide) inStep_typing rfl fourLetters
    (along_keeps_of_focused List.mem_cons_self fourLetters) [['a', 'b', 'c', 'd']] rfl
    ⟨outbox_none_of_all (by decide +kernel), List.length_eq_zero_iff.1 (by decide +kernel),
      by decide +kernel, List.length_eq_zero_iff.1 (by decide +kernel),
      List.length_eq_zero_iff.1 (by decide +kernel), List.length_eq_zero_iff.1 (by decide +kernel)⟩
    (by decide +kernel)

end Nexterm.Ipc.Stream

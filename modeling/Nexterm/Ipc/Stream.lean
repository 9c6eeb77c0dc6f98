/-
  From the panes of a session to one attached client (`pane.rs`, `ipc/session_dispatch.rs`,
  `state/server_message.rs` of the client).

  * `Reader`: a pane whose reader thread stores the snapshot and then broadcasts the diff.
  * `Client`: what the client makes of the messages it receives.
  * `Stream`: the readers, the receiver of the broadcast, the forwarder task, the channel and the
    client.  The steps of all parties interleave freely.
  * `Stream.replica`: one pane and its copy at the client, as a `Replica`.
  * `Stream.replica_step`: what one step does to it.
  * `Linked.step`: what follows for an invariant, lagging and resyncs included.

  A serial pane's reader does the same, except that its snapshot has no hyperlinks.
-/
import Nexterm.Lib.Maps
import Nexterm.Lib.Replica
import Nexterm.Server.Session
import Nexterm.Server.Reader

namespace Nexterm.Ipc

open Std.ExtTreeMap Overwrite Server Vt

/-! ## The reader of a pane -/

/-- The writes of the dirty rows of a diff. -/
def rowWrites (diff : GridDiff) : List (ℕ × List Cell) :=
  diff.dirtyRows.map fun dirty => (dirty.row, dirty.cells)

/-- What one looks at in a grid and its cursor: a list of items, of which a diff overwrites some. -/
structure View (β : Type) where
  items : Grid → ℕ → ℕ → List β
  writes : GridDiff → List (ℕ × β)
  /-- A grid whose rows a diff overwrites shows what the view says. -/
  items_diff : ∀ {g g' : Grid} {diff : GridDiff} (col row : ℕ), g'.width = g.width →
    g'.height = g.height → g'.rows = overwrite g.rows (rowWrites diff) →
    items g' diff.cursorCol diff.cursorRow = overwrite (items g col row) (writes diff)

/-- What a view sees of a snapshot. -/
def View.ofGrid {β : Type} (v : View β) (g : Grid) : List β := v.items g g.cursorCol g.cursorRow

/-- The rows. -/
def rowsView : View (List Cell) where
  items g _ _ := g.rows
  writes := rowWrites
  items_diff _ _ _ _ hrows := hrows

/-- A part of a grid with its cursor. -/
inductive Item
  | size (width height : ℕ)
  | cursor (col row : ℕ)
  | row (cells : List Cell)

theorem overwrite_rowItems (size cursor : Item) : ∀ (dirty : List DirtyRow)
    (rows : List (List Cell)),
    overwrite (size :: cursor :: rows.map .row) (dirty.map fun d => (d.row + 2, .row d.cells)) =
      size :: cursor :: (overwrite rows (dirty.map fun d => (d.row, d.cells))).map .row
  | [], _ => rfl
  | d :: dirty, rows => by
    have hset : (size :: cursor :: rows.map Item.row).set (d.row + 2) (.row d.cells) =
        size :: cursor :: (rows.set d.row d.cells).map .row := by
      rw [List.map_set]
      rfl
    have hrest := overwrite_rowItems size cursor dirty (rows.set d.row d.cells)
    rw [← hset] at hrest
    exact hrest

/-- The size, the cursor and the rows. -/
def gridView : View Item where
  items g col row := .size g.width g.height :: .cursor col row :: g.rows.map .row
  writes diff := (1, .cursor diff.cursorCol diff.cursorRow) ::
    diff.dirtyRows.map fun d => (d.row + 2, .row d.cells)
  items_diff := by
    intro g g' diff col row hwidth hheight hrows
    rw [hwidth, hheight, hrows]
    exact (overwrite_rowItems _ _ diff.dirtyRows g.rows).symm

/-- A pane and the progress of its reader thread. -/
structure Reader (V : Vte) where
  pane : PtyPane V
  /-- How many diffs there have been. -/
  bursts : ℕ
  /-- The diff that is stored in the snapshot but not broadcast yet. -/
  outbox : Option GridDiff

namespace Reader

variable {V : Vte}

/-- The reader of a new pane. -/
def spawn (V : Vte) (cols rows : ℕ) : Reader V := ⟨PtyPane.spawn V cols rows, 0, none⟩

/-- Reads a burst of output and stores the snapshot; the last diff has to be sent first. -/
def burst (r : Reader V) (bytes : List UInt8) : Reader V :=
  match r.outbox, r.pane.readBurst bytes with
  | some _, _ => r
  | none, (pane, none) => { r with pane := pane }
  | none, (pane, some diff) => ⟨pane, r.bursts + 1, some diff⟩

/-- The reader after it has broadcast its diff. -/
def sent (r : Reader V) : Reader V := { r with outbox := none }

/-- The readers of the panes of a session. -/
inductive Reachable : Reader V → Prop
  | spawn (cols rows : ℕ) : Reachable (spawn V cols rows)
  | burst {r : Reader V} (bytes : List UInt8) : Reachable r → Reachable (r.burst bytes)
  | sent {r : Reader V} : Reachable r → Reachable r.sent
  | resizePty {r : Reader V} (cols rows : ℕ) :
      Reachable r → Reachable { r with pane := r.pane.resizePty cols rows }

/-- The parser and the snapshot agree on their size. -/
def Sound (r : Reader V) : Prop := ∃ cols rows, r.pane.Fixed cols rows

theorem Sound.burst {r : Reader V} (h : r.Sound) (bytes : List UInt8) : (r.burst bytes).Sound := by
  obtain ⟨cols, rows, hfixed⟩ := h
  have hpane := (PtyPane.readBurst_spec hfixed bytes).1
  unfold Reader.burst
  generalize r.pane.readBurst bytes = out at hpane ⊢
  obtain ⟨pane, diff⟩ := out
  cases r.outbox with
  | some _ => exact ⟨cols, rows, hfixed⟩
  | none => cases diff <;> exact ⟨cols, rows, hpane⟩

theorem rows_applyDirtyRow {cols rows : ℕ} {g : Grid} (hg : g.Shaped cols rows) {dirty : DirtyRow}
    (hlen : dirty.cells.length = cols) :
    (g.applyDirtyRow dirty).rows = g.rows.set dirty.row dirty.cells := by
  refine List.ext_getElem? ?_
  intro i
  show (g.rows.modify dirty.row (Grid.overlay dirty.cells))[i]? = _
  rw [List.getElem?_modify, List.getElem?_set]
  by_cases hi : dirty.row = i
  · subst hi
    rw [if_pos rfl]
    cases hrow : g.rows[dirty.row]? with
    | none =>
      rw [if_neg (by rw [List.getElem?_eq_none_iff] at hrow; omega)]
      rfl
    | some row =>
      obtain ⟨hlt, rfl⟩ := List.getElem?_eq_some_iff.1 hrow
      have hcells := hg.length_row _ (List.getElem_mem hlt)
      rw [if_pos hlt, Option.map_eq_map, Option.map_some, if_pos rfl, Grid.overlay,
        if_pos (hcells.trans hlen.symm)]
  · rw [if_neg hi]
    simp only [hi, if_false]
    exact Option.map_id'

/-- The dirty rows of a burst, applied to the snapshot, are the writes of its diff. -/
theorem rows_foldl_applyDirtyRow {cols rows : ℕ} : ∀ (dirty : List DirtyRow) {g : Grid},
    g.Shaped cols rows → (∀ d ∈ dirty, d.cells.length = cols) →
    (dirty.foldl Grid.applyDirtyRow g).rows =
      overwrite g.rows (dirty.map fun d => (d.row, d.cells))
  | [], _, _, _ => rfl
  | d :: dirty, g, hg, hlen => by
    have hset : (g.applyDirtyRow d).rows = g.rows.set d.row d.cells :=
      rows_applyDirtyRow hg (hlen d List.mem_cons_self)
    have hrest := rows_foldl_applyDirtyRow dirty (hg.applyDirtyRow d)
      fun e he => hlen e (List.mem_cons_of_mem d he)
    rw [hset] at hrest
    exact hrest

/-- What a view sees of the snapshot. -/
def items {β : Type} (v : View β) (r : Reader V) : List β := v.ofGrid r.pane.latestGrid

theorem size_foldl_applyDirtyRow : ∀ (dirty : List DirtyRow) (g : Grid),
    (dirty.foldl Grid.applyDirtyRow g).width = g.width ∧
      (dirty.foldl Grid.applyDirtyRow g).height = g.height
  | [], _ => ⟨rfl, rfl⟩
  | d :: dirty, g => size_foldl_applyDirtyRow dirty (g.applyDirtyRow d)

/-- A burst leaves the snapshot alone, or it stores the diff that it returns. -/
theorem readBurst_cases {p : PtyPane V} {cols rows : ℕ} (h : p.Fixed cols rows)
    (bytes : List UInt8) :
    match (p.readBurst bytes).2 with
    | none => (p.readBurst bytes).1.latestGrid = p.latestGrid
    | some diff => ∀ {β : Type} (v : View β),
      v.ofGrid (p.readBurst bytes).1.latestGrid =
        overwrite (v.ofGrid p.latestGrid) (v.writes diff) := by
  have hdiff := (PtyPane.readBurst_spec h bytes).2
  unfold PtyPane.readBurst at hdiff ⊢
  generalize (p.parser.advance bytes).takeDirtyRows = taken at hdiff ⊢
  obtain ⟨dirty, parser⟩ := taken
  cases dirty with
  | nil => exact rfl
  | cons d dirty =>
    intro β v
    have hsize := size_foldl_applyDirtyRow (d :: dirty) p.latestGrid
    have hrows := rows_foldl_applyDirtyRow (d :: dirty) h.latestGrid
      fun e he => (hdiff _ rfl e he).2
    let diff : GridDiff := ⟨d :: dirty, parser.screen.cursorCol, parser.screen.cursorRow⟩
    exact @View.items_diff β v _ _ diff _ _ hsize.1 hsize.2 hrows

/-- A burst changes nothing, or it overwrites items of the snapshot with those of a new diff. -/
theorem burst_cases {r : Reader V} (h : r.Sound) (bytes : List UInt8) :
    ((r.burst bytes).pane.latestGrid = r.pane.latestGrid ∧
      (r.burst bytes).bursts = r.bursts ∧ (r.burst bytes).outbox = r.outbox) ∨
    ∃ diff, r.outbox = none ∧ (r.burst bytes).bursts = r.bursts + 1 ∧
      (r.burst bytes).outbox = some diff ∧ ∀ {β : Type} (v : View β),
        (r.burst bytes).items v = overwrite (r.items v) (v.writes diff) := by
  obtain ⟨cols, rows, hfixed⟩ := h
  have hstored := readBurst_cases hfixed bytes
  unfold burst
  generalize r.pane.readBurst bytes = out at hstored ⊢
  obtain ⟨pane, diff⟩ := out
  obtain ⟨rpane, bursts, outbox⟩ := r
  cases outbox with
  | some _ => exact .inl ⟨rfl, rfl, rfl⟩
  | none =>
    cases diff with
    | none => exact .inl ⟨hstored, rfl, rfl⟩
    | some diff => exact .inr ⟨diff, rfl, rfl, rfl, hstored⟩

/-- What is known of the readers of a session. -/
theorem Reachable.sound {r : Reader V} (h : Reachable r) : r.Sound ∧
    ∀ diff, r.outbox = some diff → ∀ {β : Type} (v : View β),
      Absorbed (v.writes diff) (r.items v) := by
  induction h with
  | spawn cols rows =>
    refine ⟨⟨cols, rows, PtyPane.fixed_spawn V cols rows⟩, ?_⟩
    intro diff hdiff
    cases hdiff
  | @burst r bytes _ ih =>
    refine ⟨ih.1.burst bytes, ?_⟩
    intro diff hdiff β v
    rcases burst_cases ih.1 bytes with ⟨hgrid, -, hout⟩ | ⟨diff', -, -, hout, hitems⟩
    · have hsame : (r.burst bytes).items v = r.items v := by
        unfold items
        rw [hgrid]
      rw [hsame]
      exact ih.2 diff (hout ▸ hdiff) v
    · obtain rfl := Option.some.inj (hout.symm.trans hdiff)
      rw [hitems]
      exact absorbed_overwrite _ _
  | sent _ ih =>
    refine ⟨ih.1, ?_⟩
    intro diff hdiff
    cases hdiff
  | resizePty cols rows _ ih =>
    obtain ⟨⟨fcols, frows, hfixed⟩, hout⟩ := ih
    exact ⟨⟨fcols, frows, hfixed.parser, hfixed.latestGrid⟩, hout⟩

end Reader

/-! ## The client -/

/-- The messages about grids and layouts; `burst` is the number of the burst of the pane that a
    grid message describes, a history variable that is not sent. -/
inductive Msg
  | gridDiff (paneId : ℕ) (diff : GridDiff) (burst : ℕ)
  | fullRefresh (paneId : ℕ) (grid : Grid) (burst : ℕ)
  | layoutChanged (layout : LayoutChanged)
  | other

/-- A pane as the client shows it. -/
structure PaneState where
  grid : Grid
  cursorCol : ℕ
  cursorRow : ℕ
  deriving DecidableEq

/-- Applies a diff; a row that does not exist is skipped. -/
def PaneState.applyDiff (p : PaneState) (diff : GridDiff) : PaneState where
  grid := { p.grid with
    rows := diff.dirtyRows.foldl (fun rows dirty => rows.set dirty.row dirty.cells) p.grid.rows }
  cursorCol := diff.cursorCol
  cursorRow := diff.cursorRow

theorem PaneState.rows_applyDiff (p : PaneState) (diff : GridDiff) :
    (p.applyDiff diff).grid.rows = overwrite p.grid.rows (rowWrites diff) := by
  rw [rowWrites, overwrite, List.foldl_map]
  rfl

/-- The client: the panes it knows and the layout it shows. -/
structure Client where
  panes : IdMap PaneState
  paneLayouts : List PaneLayout
  focusedPaneId : Option ℕ

/-- Applies a message; a diff of a pane the client does not know is ignored. -/
def Client.applyServerMessage (c : Client) : Msg → Client
  | .gridDiff paneId diff _ => { c with panes := c.panes.modify paneId (·.applyDiff diff) }
  | .fullRefresh paneId grid _ =>
    { c with
      panes := c.panes.insert paneId ⟨grid, grid.cursorCol, grid.cursorRow⟩
      focusedPaneId := c.focusedPaneId <|> some paneId }
  | .layoutChanged layout =>
    { c with paneLayouts := layout.panes, focusedPaneId := some layout.focusedPaneId }
  | .other => c

/-! ## The stream -/

/-- The capacity of the broadcast channel of a session. -/
def broadcastCapacity : ℕ := 2048

/-- A session's readers and one client of it. -/
structure Stream (V : Vte) where
  readers : IdMap (Reader V)
  /-- The panes of the focused window, those with a serial port included. -/
  focusedPanes : List ℕ
  /-- What the receiver of the broadcast has retained, oldest first. -/
  queue : List Msg
  /-- How many messages it has dropped and not reported yet. -/
  missed : ℕ
  /-- The panes whose snapshot the forwarder still has to take after it has lagged. -/
  todo : List ℕ
  /-- What the forwarder has received or taken and not sent yet. -/
  hand : List Msg
  /-- The channel to the client. -/
  channel : List Msg
  client : Client

/-- A step of one party. -/
inductive Act
  /-- The reader of a pane reads a burst. -/
  | burst (id : ℕ) (bytes : List UInt8)
  /-- The reader of a pane broadcasts its diff. -/
  | broadcast (id : ℕ)
  /-- Some other message is broadcast: a bell, a title. -/
  | event
  /-- The forwarder receives: a message, or the news that it has lagged. -/
  | recv
  /-- The forwarder takes the snapshot of the next pane. -/
  | snapshot
  /-- The forwarder sends to the client. -/
  | forward
  /-- The client applies the next message. -/
  | deliver
  deriving DecidableEq

namespace Stream

variable {V : Vte}

/-- The diff that waits at a reader. -/
def outgoing (id : ℕ) (r : Reader V) : List Msg := r.outbox.toList.map (.gridDiff id · r.bursts)

/-- The snapshot of a pane. -/
def fullRefresh (id : ℕ) (r : Reader V) : Msg :=
  .fullRefresh id r.pane.makeFullRefresh r.bursts

/-- The message that a step broadcasts. -/
def pushed (s : Stream V) : Act → Option Msg
  | .broadcast id => (s.readers[id]?).bind fun r => (outgoing id r).head?
  | .event => some .other
  | _ => none

/-- The message that is dropped when a step broadcasts: the oldest one, when the queue is full. -/
def dropped (s : Stream V) (act : Act) : Option Msg :=
  if s.queue.length < broadcastCapacity then none else (s.pushed act).bind fun _ => s.queue.head?

/-- The message that a step sends to the client. -/
def forwarded (s : Stream V) : Act → Option Msg
  | .forward => if s.todo = [] then s.hand.head? else none
  | _ => none

/-- Broadcasts a message. -/
def push (s : Stream V) (msg : Msg) : Stream V :=
  if s.queue.length < broadcastCapacity then { s with queue := s.queue ++ [msg] }
  else { s with queue := s.queue.tail ++ [msg], missed := s.missed + 1 }

/-- The forwarder's `recv`: it waits until everything it has is sent. -/
def recv (s : Stream V) : Stream V :=
  match s.hand, s.todo, s.queue with
  | [], [], queue =>
    if 0 < s.missed then { s with missed := 0, todo := s.focusedPanes }
    else { s with queue := queue.tail, hand := queue.head?.toList }
  | _, _, _ => s

/-- The forwarder takes the snapshot of the next pane. -/
def snapshot (s : Stream V) : Stream V :=
  match s.todo with
  | [] => s
  | id :: todo =>
    { s with todo := todo, hand := s.hand ++ (s.readers[id]?.map (fullRefresh id)).toList }

/-- The reader of a pane broadcasts its diff. -/
def broadcast (s : Stream V) (id : ℕ) : Stream V :=
  match s.pushed (.broadcast id) with
  | none => s
  | some msg => { s with readers := s.readers.modify id (·.sent) }.push msg

/-- The forwarder sends the next message it has. -/
def forward (s : Stream V) : Stream V :=
  match s.forwarded .forward with
  | none => s
  | some msg => { s with hand := s.hand.tail, channel := s.channel ++ [msg] }

/-- The client applies the next message. -/
def deliver (s : Stream V) : Stream V :=
  match s.channel with
  | [] => s
  | msg :: channel => { s with channel := channel, client := s.client.applyServerMessage msg }

/-- A step of one party; one that cannot be taken changes nothing. -/
def step (s : Stream V) : Act → Stream V
  | .burst id bytes => { s with readers := s.readers.modify id (·.burst bytes) }
  | .broadcast id => s.broadcast id
  | .event => s.push .other
  | .recv => s.recv
  | .snapshot => s.snapshot
  | .forward => s.forward
  | .deliver => s.deliver

/-- Output has stopped and the queues are drained. -/
structure Drained (s : Stream V) : Prop where
  outbox : ∀ (id : ℕ) (r : Reader V), s.readers[id]? = some r → r.outbox = none
  queue : s.queue = []
  missed : s.missed = 0
  todo : s.todo = []
  hand : s.hand = []
  channel : s.channel = []

/-- The rows the client shows for a pane. -/
def clientRows (s : Stream V) (id : ℕ) : Option (List (List Cell)) :=
  s.client.panes[id]?.map fun p => p.grid.rows

/-! ## One pane and its copy -/

end Stream

/-- The message is about the grid of the pane. -/
def Msg.About (id : ℕ) : Msg → Prop
  | .gridDiff paneId _ _ | .fullRefresh paneId _ _ => paneId = id
  | .layoutChanged _ | .other => False

variable {β : Type} (v : View β)

/-- What a message says about a pane. -/
def Msg.update (id : ℕ) : Msg → Option (Update β)
  | .gridDiff paneId diff burst => if paneId = id then some (.diff (v.writes diff) burst) else none
  | .fullRefresh paneId grid burst =>
    if paneId = id then some (.snapshot (v.ofGrid grid) burst) else none
  | .layoutChanged _ | .other => none

theorem Msg.about_of_update {id : ℕ} {msg : Msg} {u : Update β} (h : msg.update v id = some u) :
    msg.About id := by
  cases msg with
  | gridDiff paneId diff burst =>
    unfold update at h
    dsimp only at h
    split_ifs at h with hid
    exact hid
  | fullRefresh paneId grid burst =>
    unfold update at h
    dsimp only at h
    split_ifs at h with hid
    exact hid
  | layoutChanged layout => cases h
  | other => cases h

/-- What some messages say about a pane. -/
def updates (id : ℕ) (msgs : List Msg) : List (Update β) := msgs.filterMap (Msg.update v id)

theorem updates_append (id : ℕ) (msgs msgs' : List Msg) :
    updates v id (msgs ++ msgs') = updates v id msgs ++ updates v id msgs' :=
  List.filterMap_append

theorem updates_cons (id : ℕ) (msg : Msg) (msgs : List Msg) :
    updates v id (msg :: msgs) = (msg.update v id).toList ++ updates v id msgs := by
  unfold updates
  rw [List.filterMap_cons]
  cases msg.update v id <;> rfl

/-- What a view sees of a pane of the client. -/
def PaneState.items (p : PaneState) : List β := v.items p.grid p.cursorCol p.cursorRow

/-- What a view sees of a pane, if the client knows it. -/
def Client.items (c : Client) (id : ℕ) : Option (List β) := c.panes[id]?.map (·.items v)

theorem Client.items_applyServerMessage (c : Client) (msg : Msg) (id : ℕ) :
    (c.applyServerMessage msg).items v id = match msg.update v id with
      | none => c.items v id
      | some u => u.apply (c.items v id) := by
  cases msg with
  | gridDiff paneId diff burst =>
    show (c.panes.modify paneId (·.applyDiff diff))[id]?.map (·.items v) = _
    rw [getElem?_modify_eq, Msg.update]
    split_ifs with hid
    · unfold items
      cases c.panes[id]? with
      | none => rfl
      | some p =>
        exact congrArg some
          (v.items_diff p.cursorCol p.cursorRow rfl rfl (p.rows_applyDiff diff))
    · rfl
  | fullRefresh paneId grid burst =>
    show (c.panes.insert paneId _)[id]?.map (·.items v) = _
    rw [getElem?_insert_eq, Msg.update]
    split_ifs with hid <;> rfl
  | layoutChanged layout => rfl
  | other => rfl

namespace Stream

variable {V : Vte} {s : Stream V} {r : Reader V} {id : ℕ}

/-- A pane and its copy at the client. -/
def replica (s : Stream V) (id : ℕ) (r : Reader V) : Replica β where
  source := r.items v
  stamp := r.bursts
  pend := updates v id s.queue ++ updates v id (outgoing id r)
  hand := updates v id s.hand
  chan := updates v id s.channel
  copy := s.client.items v id

/-- The forwarder is going to take a new snapshot of the pane. -/
def Due (s : Stream V) (id : ℕ) : Prop := (0 < s.missed ∧ id ∈ s.focusedPanes) ∨ id ∈ s.todo

/-- The step sends the client this update of the pane. -/
def Passes (s : Stream V) (act : Act) (id : ℕ) (u : Update β) : Prop :=
  ∃ msg, s.forwarded act = some msg ∧ msg.update v id = some u

/-- The step makes the queue drop a message about the grid of the pane. -/
def Drops (s : Stream V) (act : Act) (id : ℕ) : Prop :=
  ∃ msg, s.dropped act = some msg ∧ msg.About id

theorem updates_outgoing (id : ℕ) (r : Reader V) :
    updates v id (outgoing id r) = r.outbox.toList.map fun diff => .diff (v.writes diff) r.bursts := by
  unfold outgoing
  cases r.outbox with
  | none => rfl
  | some diff =>
    show updates v id [_] = [_]
    rw [updates_cons, Msg.update, if_pos rfl]
    rfl

/-- With an empty queue, only the outbox of the reader waits, and the snapshot contains it. -/
theorem contained_of_empty (hr : r.Reachable) (hqueue : s.queue = []) :
    (s.replica v id r).Contained := by
  have habsorbed := hr.sound.2
  have hpend : (s.replica v id r).pend =
      r.outbox.toList.map fun diff => .diff (v.writes diff) r.bursts := by
    show updates v id s.queue ++ _ = _
    rw [hqueue, updates_outgoing]
    rfl
  constructor
  · intro u hu
    rw [hpend] at hu
    obtain ⟨diff, -, rfl⟩ := List.mem_map.1 hu
    exact ⟨_, _, rfl⟩
  · rw [hpend]
    cases hout : r.outbox with
    | none => exact rfl
    | some diff =>
      show Absorbed (v.writes diff ++ []) (r.items v)
      rw [List.append_nil]
      exact habsorbed diff hout v

/-! ### What one step does to it -/

/-- Broadcasting what a reader had in its outbox only moves it, unless the queue is full. -/
theorem replica_push {r' : Reader V} (msg : Msg) (hpane : r'.pane = r.pane)
    (hbursts : r'.bursts = r.bursts)
    (hout : (msg.update v id).toList ++ updates v id (outgoing id r') = updates v id (outgoing id r)) :
    (s.push msg).replica v id r' = s.replica v id r ∨
    ((s.push msg).replica v id r' = (s.replica v id r).drop ∧ ¬s.queue.length < broadcastCapacity ∧
      (∃ old, s.queue.head? = some old ∧ old.About id) ∧ 0 < (s.push msg).missed) := by
  have hitems : r'.items v = r.items v := by
    unfold Reader.items
    rw [hpane]
  have hnew : ∀ queue, updates v id (queue ++ [msg]) ++ updates v id (outgoing id r') =
      updates v id queue ++ updates v id (outgoing id r) := by
    intro queue
    rw [updates_append, updates_cons, ← hout]
    simp only [updates, List.filterMap_nil, List.append_nil, List.append_assoc]
  unfold push
  split_ifs with hfull
  · left
    simp only [replica, hnew, hitems, hbursts]
  · cases hq : s.queue with
    | nil => exact absurd (hq ▸ hfull) (by simp [broadcastCapacity])
    | cons old rest =>
      cases hold : old.update v id with
      | none =>
        left
        simp only [replica, hq, List.tail_cons, hnew, hitems, hbursts, updates_cons, hold,
          Option.toList_none, List.nil_append]
      | some u =>
        right
        refine ⟨?_, hq ▸ hfull, ⟨old, rfl, Msg.about_of_update v hold⟩, Nat.succ_pos _⟩
        simp only [replica, Replica.drop, hq, List.tail_cons, hnew, hitems, hbursts, updates_cons, hold,
          Option.toList_some, List.cons_append, List.nil_append, List.tail_cons]

theorem focusedPanes_push (s : Stream V) (msg : Msg) :
    (s.push msg).focusedPanes = s.focusedPanes := by
  unfold push
  split_ifs <;> rfl

theorem focusedPanes_step (s : Stream V) (act : Act) :
    (s.step act).focusedPanes = s.focusedPanes := by
  cases act with
  | burst id bytes => rfl
  | broadcast id =>
    show (s.broadcast id).focusedPanes = _
    unfold broadcast
    split
    · rfl
    · exact focusedPanes_push _ _
  | event => exact focusedPanes_push s .other
  | recv =>
    show s.recv.focusedPanes = _
    unfold recv
    split
    · split_ifs <;> rfl
    · rfl
  | snapshot =>
    show s.snapshot.focusedPanes = _
    unfold snapshot
    split <;> rfl
  | forward =>
    show s.forward.focusedPanes = _
    unfold forward
    split <;> rfl
  | deliver =>
    show s.deliver.focusedPanes = _
    unfold deliver
    split <;> rfl

/-- All that a step can do to a pane and its copy: a step that loses nothing, a loss while the
    queue is full, or a resync. -/
def Effect (s : Stream V) (act : Act) (id : ℕ) (r r' : Reader V) : Prop :=
  (Replica.Step (s.Passes v act id) (s.replica v id r) ((s.step act).replica v id r') ∧
    (s.Due id → (s.step act).Due id)) ∨
  ((s.step act).replica v id r' = (s.replica v id r).drop ∧ s.Drops act id ∧
    0 < (s.step act).missed) ∨
  (s.step act).replica v id r' = (s.replica v id r).resync

variable {v}

theorem effect_of_eq {act : Act} {r' : Reader V}
    (h : (s.step act).replica v id r' = s.replica v id r) (hdue : s.Due id → (s.step act).Due id) :
    s.Effect v act id r r' := by
  refine .inl ⟨?_, hdue⟩
  rw [h]
  exact .stay _

theorem effect_burst (hr : s.readers[id]? = some r) (hsound : r.Sound) (id' : ℕ)
    (bytes : List UInt8) : ∃ r', (s.step (.burst id' bytes)).readers[id]? = some r' ∧ r'.Sound ∧
      s.Effect v (.burst id' bytes) id r r' := by
  by_cases hid : id' = id
  · subst hid
    refine ⟨r.burst bytes, ?_, hsound.burst bytes, ?_⟩
    · show (s.readers.modify id' (·.burst bytes))[id']? = _
      rw [getElem?_modify_eq, if_pos rfl, hr]
      rfl
    · rcases Reader.burst_cases hsound bytes with ⟨hgrid, hbursts, hout⟩ |
        ⟨diff, hnone, hbursts, hout, hitems⟩
      · refine effect_of_eq ?_ fun h => h
        simp only [replica, updates_outgoing, Reader.items, hgrid, hbursts, hout]
        rfl
      · refine .inl ⟨?_, fun h => h⟩
        have hstore : (s.step (.burst id' bytes)).replica v id' (r.burst bytes) =
            { s.replica v id' r with
              source := overwrite (s.replica v id' r).source (v.writes diff)
              stamp := (s.replica v id' r).stamp + 1
              pend := (s.replica v id' r).pend ++
                [.diff (v.writes diff) ((s.replica v id' r).stamp + 1)] } := by
          simp only [replica, updates_outgoing, hitems, hbursts, hout, hnone, Option.toList_some,
            Option.toList_none, List.map_cons, List.map_nil, List.append_nil]
          rfl
        rw [hstore]
        exact .store _ _
  · refine ⟨r, ?_, hsound, effect_of_eq rfl fun h => h⟩
    show (s.readers.modify id' (·.burst bytes))[id]? = _
    rw [getElem?_modify_eq, if_neg hid, hr]

theorem Due.push (h : s.Due id) (msg : Msg) : (s.push msg).Due id := by
  unfold Stream.push
  split_ifs
  · exact h
  · rcases h with ⟨hmissed, hid⟩ | hid
    · exact .inl ⟨Nat.succ_pos _, hid⟩
    · exact .inr hid

/-- A step that broadcasts. -/
theorem effect_push {act : Act} {s' : Stream V} {r' : Reader V} {msg : Msg}
    (hstep : s.step act = s'.push msg) (hs' : ∀ r, s'.replica v id r = s.replica v id r)
    (hqueue : s'.queue = s.queue) (hdue : s.Due id → s'.Due id) (hpushed : s.pushed act = some msg)
    (hpane : r'.pane = r.pane) (hbursts : r'.bursts = r.bursts)
    (hout : (msg.update v id).toList ++ updates v id (outgoing id r') = updates v id (outgoing id r)) :
    s.Effect v act id r r' := by
  rcases replica_push v (s := s') msg hpane hbursts hout with
    heq | ⟨heq, hfull, ⟨old, hold, hid⟩, hmissed⟩
  · refine effect_of_eq ?_ fun h => ?_
    · rw [hstep, heq, hs']
    · rw [hstep]
      exact (hdue h).push msg
  · refine .inr (.inl ⟨?_, ⟨old, ?_, hid⟩, ?_⟩)
    · rw [hstep, heq, hs']
    · unfold dropped
      rw [← hqueue, if_neg hfull, hpushed]
      exact hold
    · rw [hstep]
      exact hmissed

theorem readers_push (s : Stream V) (msg : Msg) : (s.push msg).readers = s.readers := by
  unfold push
  split_ifs <;> rfl

theorem effect_broadcast (hr : s.readers[id]? = some r) (hsound : r.Sound) (id' : ℕ) :
    ∃ r', (s.step (.broadcast id')).readers[id]? = some r' ∧ r'.Sound ∧
      s.Effect v (.broadcast id') id r r' := by
  cases hp : s.pushed (.broadcast id') with
  | none =>
    have hstep : s.step (.broadcast id') = s := by
      show s.broadcast id' = s
      unfold broadcast
      rw [hp]
    refine ⟨r, ?_, hsound, effect_of_eq ?_ fun h => ?_⟩ <;> rw [hstep]
    · exact hr
    · exact h
  | some msg =>
    have hstep : s.step (.broadcast id') =
        { s with readers := s.readers.modify id' (·.sent) }.push msg := by
      show s.broadcast id' = _
      unfold broadcast
      rw [hp]
    obtain ⟨r₀, hr₀, hmsg⟩ := Option.bind_eq_some_iff.1 hp
    by_cases hid : id' = id
    · subst hid
      obtain rfl := Option.some.inj (hr.symm.trans hr₀)
      refine ⟨r.sent, ?_, hsound, effect_push hstep (fun _ => rfl) rfl (fun h => h) hp rfl rfl ?_⟩
      · rw [hstep, readers_push]
        show (s.readers.modify id' (·.sent))[id']? = _
        rw [getElem?_modify_eq, if_pos rfl, hr]
        rfl
      · unfold outgoing at hmsg
        show _ ++ [] = _
        rw [updates_outgoing, List.append_nil]
        cases hout : r.outbox with
        | none => rw [hout] at hmsg; cases hmsg
        | some diff =>
          rw [hout] at hmsg
          obtain rfl := Option.some.inj hmsg
          rw [Msg.update, if_pos rfl]
          rfl
    · refine ⟨r, ?_, hsound, effect_push hstep (fun _ => rfl) rfl (fun h => h) hp rfl rfl ?_⟩
      · rw [hstep, readers_push]
        show (s.readers.modify id' (·.sent))[id]? = _
        rw [getElem?_modify_eq, if_neg hid, hr]
      · have hnone : msg.update v id = none := by
          unfold outgoing at hmsg
          cases hout : r₀.outbox with
          | none => rw [hout] at hmsg; cases hmsg
          | some diff =>
            rw [hout] at hmsg
            obtain rfl := Option.some.inj hmsg
            exact if_neg hid
        rw [hnone]
        rfl

theorem effect_event (hr : s.readers[id]? = some r) (hsound : r.Sound) :
    ∃ r', (s.step .event).readers[id]? = some r' ∧ r'.Sound ∧ s.Effect v .event id r r' := by
  have hstep : s.step .event = s.push .other := rfl
  refine ⟨r, ?_, hsound,
    effect_push hstep (fun _ => rfl) rfl (fun h => h) rfl rfl rfl rfl⟩
  show (s.push .other).readers[id]? = _
  rw [readers_push, hr]

theorem effect_recv (hr : s.readers[id]? = some r) (hsound : r.Sound) :
    ∃ r', (s.step .recv).readers[id]? = some r' ∧ r'.Sound ∧ s.Effect v .recv id r r' := by
  have hstep : s.step .recv = s.recv := rfl
  unfold recv at hstep
  split at hstep
  · rename_i hhand htodo
    split_ifs at hstep with hmissed
    · refine ⟨r, ?_, hsound, effect_of_eq ?_ ?_⟩ <;> rw [hstep]
      · exact hr
      · rfl
      · rintro (⟨-, hid⟩ | hid)
        · exact .inr hid
        · rw [htodo] at hid
          cases hid
    · refine ⟨r, ?_, hsound, .inl ⟨?_, ?_⟩⟩ <;> rw [hstep]
      · exact hr
      · cases hq : s.queue with
        | nil =>
          have hsame : ({ s with queue := [], hand := [] } : Stream V).replica v id r =
              s.replica v id r := by
            simp only [replica, hq, hhand]
          exact hsame ▸ .stay _
        | cons msg rest =>
          have hpend : (s.replica v id r).pend = (msg.update v id).toList ++
              (updates v id rest ++ updates v id (outgoing id r)) := by
            show updates v id s.queue ++ _ = _
            rw [hq, updates_cons, List.append_assoc]
          have hmoved : ({ s with queue := rest, hand := [msg] } : Stream V).replica v id r =
              { s.replica v id r with
                pend := updates v id rest ++ updates v id (outgoing id r)
                hand := (s.replica v id r).hand ++ (msg.update v id).toList } := by
            simp only [replica, hhand, updates, List.filterMap_nil, List.nil_append]
            rfl
          show Replica.Step _ _ (({ s with queue := rest, hand := [msg] } : Stream V).replica v id r)
          rw [hmoved]
          cases hu : msg.update v id with
          | none =>
            rw [hu] at hpend
            rw [Option.toList_none, List.append_nil]
            have hpend' :
                updates v id rest ++ updates v id (outgoing id r) = (s.replica v id r).pend :=
              hpend.symm
            rw [hpend']
            exact .stay _
          | some u =>
            rw [hu] at hpend
            exact .receive hpend
      · rintro (⟨hpos, -⟩ | hid)
        · exact absurd hpos hmissed
        · exact .inr hid
  · refine ⟨r, ?_, hsound, effect_of_eq ?_ ?_⟩ <;> rw [hstep]
    · exact hr
    · exact fun h => h

theorem effect_snapshot (hr : s.readers[id]? = some r) (hsound : r.Sound) :
    ∃ r', (s.step .snapshot).readers[id]? = some r' ∧ r'.Sound ∧ s.Effect v .snapshot id r r' := by
  have hstep : s.step .snapshot = s.snapshot := rfl
  unfold snapshot at hstep
  split at hstep
  · refine ⟨r, ?_, hsound, effect_of_eq ?_ ?_⟩ <;> rw [hstep]
    · exact hr
    · exact fun h => h
  · rename_i id' todo htodo
    by_cases hid : id' = id
    · subst hid
      refine ⟨r, ?_, hsound, .inr (.inr ?_)⟩ <;> rw [hstep]
      · exact hr
      · simp only [replica, Replica.resync, hr, Option.map_some, Option.toList_some, updates_append,
          updates_cons, fullRefresh, Msg.update, if_true]
        rfl
    · refine ⟨r, ?_, hsound, effect_of_eq ?_ ?_⟩ <;> rw [hstep]
      · exact hr
      · have hnone : updates v id (s.readers[id']?.map (fullRefresh id')).toList = [] := by
          cases s.readers[id']? with
          | none => rfl
          | some r' =>
            show updates v id [_] = []
            rw [updates_cons, fullRefresh, Msg.update, if_neg hid]
            rfl
        simp only [replica, updates_append, hnone, List.append_nil]
      · rintro (hlag | hmem)
        · exact .inl hlag
        · rw [htodo] at hmem
          exact .inr ((List.mem_cons.1 hmem).resolve_left (Ne.symm hid))

theorem effect_forward (hr : s.readers[id]? = some r) (hsound : r.Sound) :
    ∃ r', (s.step .forward).readers[id]? = some r' ∧ r'.Sound ∧ s.Effect v .forward id r r' := by
  have hstep : s.step .forward = s.forward := rfl
  unfold forward at hstep
  cases hf : s.forwarded .forward with
  | none =>
    rw [hf] at hstep
    refine ⟨r, ?_, hsound, effect_of_eq ?_ ?_⟩ <;> rw [hstep]
    · exact hr
    · exact fun h => h
  | some msg =>
    rw [hf] at hstep
    obtain ⟨rest, hhand⟩ : ∃ rest, s.hand = msg :: rest := by
      unfold forwarded at hf
      dsimp only at hf
      split_ifs at hf
      exact ⟨s.hand.tail, (List.cons_head?_tail hf).symm⟩
    refine ⟨r, ?_, hsound, .inl ⟨?_, ?_⟩⟩ <;> rw [hstep]
    · exact hr
    · cases hu : msg.update v id with
      | none =>
        have hsame : ({ s with hand := s.hand.tail, channel := s.channel ++ [msg] } :
            Stream V).replica v id r = s.replica v id r := by
          simp only [replica, hhand, List.tail_cons, updates_append, updates_cons, hu,
            Option.toList_none, List.nil_append]
          simp only [updates, List.filterMap_nil, List.append_nil]
        exact hsame ▸ .stay _
      | some u =>
        have hmoved : ({ s with hand := s.hand.tail, channel := s.channel ++ [msg] } :
            Stream V).replica v id r = { s.replica v id r with
              hand := updates v id rest
              chan := (s.replica v id r).chan ++ [u] } := by
          simp only [replica, hhand, List.tail_cons, updates_append, updates_cons, hu,
            Option.toList_some]
          rfl
        rw [hmoved]
        refine .forward (u := u) ?_ ⟨msg, hf, hu⟩
        show updates v id s.hand = _
        rw [hhand, updates_cons, hu]
        rfl
    · exact fun h => h

theorem effect_deliver (hr : s.readers[id]? = some r) (hsound : r.Sound) :
    ∃ r', (s.step .deliver).readers[id]? = some r' ∧ r'.Sound ∧ s.Effect v .deliver id r r' := by
  have hstep : s.step .deliver = s.deliver := rfl
  unfold deliver at hstep
  split at hstep
  · refine ⟨r, ?_, hsound, effect_of_eq ?_ ?_⟩ <;> rw [hstep]
    · exact hr
    · exact fun h => h
  · rename_i msg channel hchannel
    have hitems := s.client.items_applyServerMessage v msg id
    refine ⟨r, ?_, hsound, .inl ⟨?_, ?_⟩⟩ <;> rw [hstep]
    · exact hr
    · cases hu : msg.update v id with
      | none =>
        rw [hu] at hitems
        have hsame : ({ s with channel := channel, client := s.client.applyServerMessage msg } :
            Stream V).replica v id r = s.replica v id r := by
          simp only [replica, hitems, hchannel, updates_cons, hu, Option.toList_none,
            List.nil_append]
        exact hsame ▸ .stay _
      | some u =>
        rw [hu] at hitems
        have hmoved : ({ s with channel := channel, client := s.client.applyServerMessage msg } :
            Stream V).replica v id r = { s.replica v id r with
              chan := updates v id channel
              copy := u.apply (s.replica v id r).copy } := by
          simp only [replica, hitems]
        rw [hmoved]
        refine .deliver ?_
        show updates v id s.channel = _
        rw [hchannel, updates_cons, hu]
        rfl
    · exact fun h => h

/-- **What a step does to a pane and its copy.** -/
theorem replica_step (hr : s.readers[id]? = some r) (hsound : r.Sound) (act : Act) :
    ∃ r', (s.step act).readers[id]? = some r' ∧ r'.Sound ∧ s.Effect v act id r r' := by
  cases act with
  | burst id' bytes => exact effect_burst hr hsound id' bytes
  | broadcast id' => exact effect_broadcast hr hsound id'
  | event => exact effect_event hr hsound
  | recv => exact effect_recv hr hsound
  | snapshot => exact effect_snapshot hr hsound
  | forward => exact effect_forward hr hsound
  | deliver => exact effect_deliver hr hsound

/-! ## Messages past the forwarder -/

/-- A handler sends the client a message of its own. -/
def send (s : Stream V) (msg : Msg) : Stream V := { s with channel := s.channel ++ [msg] }

theorem replica_send_refresh (s : Stream V) (id : ℕ) (grid : Grid) (burst : ℕ) (r : Reader V) :
    (s.send (.fullRefresh id grid burst)).replica v id r =
      (s.replica v id r).inject (v.ofGrid grid) burst := by
  simp only [replica, send, Replica.inject, updates_append, updates_cons, Msg.update, if_true]
  rfl

theorem replica_send_layout (s : Stream V) (id : ℕ) (layout : LayoutChanged) (r : Reader V) :
    (s.send (.layoutChanged layout)).replica v id r = s.replica v id r := by
  simp only [replica, send, updates_append, updates_cons, Msg.update, Option.toList_none]
  simp only [updates, List.filterMap_nil, List.append_nil]

/-- The readers stay reachable. -/
theorem reachable_step (hr : s.readers[id]? = some r) (hreach : r.Reachable) (act : Act) :
    ∃ r', (s.step act).readers[id]? = some r' ∧ r'.Reachable := by
  have hsame : ∀ {s' : Stream V}, s'.readers = s.readers →
      ∃ r', s'.readers[id]? = some r' ∧ r'.Reachable := by
    intro s' hs'
    exact ⟨r, hs' ▸ hr, hreach⟩
  cases act with
  | burst id' bytes =>
    show ∃ r', (s.readers.modify id' (·.burst bytes))[id]? = some r' ∧ _
    rw [getElem?_modify_eq, hr]
    split_ifs
    · exact ⟨_, rfl, hreach.burst bytes⟩
    · exact ⟨r, rfl, hreach⟩
  | broadcast id' =>
    show ∃ r', (s.broadcast id').readers[id]? = some r' ∧ _
    unfold broadcast
    split
    · exact ⟨r, hr, hreach⟩
    · rw [readers_push]
      show ∃ r', (s.readers.modify id' (·.sent))[id]? = some r' ∧ _
      rw [getElem?_modify_eq, hr]
      split_ifs
      · exact ⟨_, rfl, hreach.sent⟩
      · exact ⟨r, rfl, hreach⟩
  | event => exact hsame (readers_push s .other)
  | recv =>
    refine hsame ?_
    show s.recv.readers = _
    unfold recv
    split
    · split_ifs <;> rfl
    · rfl
  | snapshot =>
    refine hsame ?_
    show s.snapshot.readers = _
    unfold snapshot
    split <;> rfl
  | forward =>
    refine hsame ?_
    show s.forward.readers = _
    unfold forward
    split <;> rfl
  | deliver =>
    refine hsame ?_
    show s.deliver.readers = _
    unfold deliver
    split <;> rfl

/-! ## Lagging and resyncs -/

/-- A pane and its copy meet `I`, and also `K` unless a resync is due. -/
def Linked (v : View β) (I K : Replica β → Prop) (s : Stream V) (id : ℕ) : Prop :=
  ∃ r, s.readers[id]? = some r ∧ r.Sound ∧ I (s.replica v id r) ∧ (s.Due id ∨ K (s.replica v id r))

variable {I K : Replica β → Prop} {passed : Update β → Prop} {act : Act}

/-- A step keeps a pane and its copy linked, as long as nothing is dropped that no resync will
    repair: the forwarder resyncs the panes of the focused window only. -/
theorem Linked.step (h : Linked v I K s id) (hk : Replica.Kept passed I K)
    (hpass : ∀ u, s.Passes v act id u → passed u) (hdrop : s.Drops act id → id ∈ s.focusedPanes) :
    Linked v I K (s.step act) id := by
  obtain ⟨r, hr, hsound, hinv, hdue⟩ := h
  obtain ⟨r', hr', hsound', hstep | ⟨heq, hdrops, hmissed⟩ | heq⟩ := replica_step hr hsound act
  · have hmove := hstep.1.mono hpass
    refine ⟨r', hr', hsound', hk.inv_step hinv hmove, ?_⟩
    rcases hdue with hdue | hK
    · exact .inl (hstep.2 hdue)
    · exact .inr (hk.step hinv hK hmove)
  · refine ⟨r', hr', hsound', heq ▸ hk.inv_drop hinv, .inl (.inl ⟨hmissed, ?_⟩)⟩
    rw [focusedPanes_step]
    exact hdrop hdrops
  · exact ⟨r', hr', hsound', heq ▸ hk.inv_resync hinv, .inr (heq ▸ hk.resync hinv)⟩

/-- A snapshot is taken. -/
theorem Linked.hold (h : Linked v Replica.Contained Replica.Settled s id) :
    ∃ r, s.readers[id]? = some r ∧
      Linked v (fun q => q.Contained ∧ q.Since (v.ofGrid r.pane.makeFullRefresh) r.bursts)
        (Replica.Holding (v.ofGrid r.pane.makeFullRefresh) r.bursts) s id := by
  obtain ⟨r, hr, hsound, hcontained, hdue⟩ := h
  refine ⟨r, hr, r, hr, hsound, ⟨hcontained, le_rfl, fun _ => rfl⟩, ?_⟩
  rcases hdue with hdue | hsettled
  · exact .inl hdue
  · exact .inr hsettled.holding

/-- A snapshot that is held is sent. -/
theorem Linked.send_refresh {grid : Grid} {burst : ℕ}
    (h : Linked v (fun q => q.Contained ∧ q.Since (v.ofGrid grid) burst)
      (Replica.Holding (v.ofGrid grid) burst) s id) :
    Linked v Replica.Contained Replica.Follows (s.send (.fullRefresh id grid burst)) id := by
  obtain ⟨r, hr, hsound, ⟨hcontained, -⟩, hdue⟩ := h
  refine ⟨r, hr, hsound, ?_, ?_⟩
  · rw [replica_send_refresh]
    exact hcontained.inject _ _
  · rcases hdue with hdue | hholding
    · exact .inl hdue
    · right
      rw [replica_send_refresh]
      exact hholding.follows_inject

theorem Linked.send_layout (h : Linked v I K s id) (layout : LayoutChanged) :
    Linked v I K (s.send (.layoutChanged layout)) id := by
  obtain ⟨r, hr, hsound, hinv, hdue⟩ := h
  refine ⟨r, hr, hsound, ?_, ?_⟩
  · rw [replica_send_layout]
    exact hinv
  · rw [replica_send_layout]
    exact hdue

theorem Drained.not_due (h : s.Drained) : ¬s.Due id := by
  rintro (⟨hpos, -⟩ | hid)
  · exact absurd hpos (by simp [h.missed])
  · rw [h.todo] at hid
    cases hid

theorem Drained.replica_eq (h : s.Drained) (hr : s.readers[id]? = some r) :
    s.replica v id r = ⟨r.items v, r.bursts, [], [], [], s.client.items v id⟩ := by
  simp only [replica, outgoing, h.queue, h.hand, h.channel, h.outbox id r hr]
  rfl

theorem outbox_none_of_all (h : (s.readers.toList.all fun e => e.2.outbox.isNone) = true)
    (id : ℕ) (r : Reader V) (hr : s.readers[id]? = some r) : r.outbox = none :=
  Option.isNone_iff_eq_none.1
    (List.all_eq_true.1 h _ (mem_toList_iff_getElem?_eq_some.2 hr))

/-- **When the queues are drained, a copy that follows its pane shows its items.** -/
theorem Linked.items_eq (h : Linked v I Replica.Follows s id) (hd : s.Drained) :
    ∃ r, s.readers[id]? = some r ∧ s.client.items v id = some (r.items v) := by
  obtain ⟨r, hr, -, -, hdue⟩ := h
  have hfollows := hdue.resolve_left hd.not_due
  rw [hd.replica_eq hr] at hfollows
  exact ⟨r, hr, hfollows.copy rfl rfl rfl⟩

end Stream

end Nexterm.Ipc

/-
  A client attaches to a session (`handle_attach`).

  * `Attach`: the stream to the client together with the handler, which subscribes, takes a
    snapshot of the focused pane, sends it and sends the layout, past the forwarder.
  * `Attach.Ok`: while the handler holds its snapshot, the forwarder passes on nothing newer.
  * `attach_shows`: then the client shows the pane of a window that is zoomed or has no other.
  * `hides_pane`, `stale_refresh`: another pane of the layout; a snapshot that is overtaken.
-/
import Nexterm.Ipc.Stream
import Nexterm.Server.Sizes

namespace Nexterm.Ipc

open Server Vt

variable {V : Vte} {F : Type} [Ratio F]

/-- How far `handle_attach` has come. -/
inductive AttachPhase
  | start
  | subscribed
  /-- It holds the id, the grid and (a history variable) the burst of the focused pane. -/
  | holding (refresh : Option (ℕ × Grid × ℕ))
  | refreshed
  | attached

/-- An attach to a session whose focused window is `window`. -/
structure Attach (V : Vte) (F : Type) where
  stream : Stream V
  window : Window F
  cols : ℕ
  rows : ℕ
  phase : AttachPhase

namespace Attach

/-- The layout message the handler sends. -/
def layoutMsg (a : Attach V F) : LayoutChanged := a.window.layoutChangedMsg a.cols a.rows

/-- `Window::focused_pane_full_refresh`; a serial pane counts too. -/
def focusedPaneFullRefresh (a : Attach V F) : Option (ℕ × Grid × ℕ) :=
  if a.window.focusedPaneId ∈ a.window.panes ∨ a.window.focusedPaneId ∈ a.window.serialPanes then
    a.stream.readers[a.window.focusedPaneId]?.map fun r =>
      (a.window.focusedPaneId, r.pane.makeFullRefresh, r.bursts)
  else none

/-- The next step of the handler. -/
def handle (a : Attach V F) : Attach V F :=
  match a.phase with
  | .start => { a with phase := .subscribed }
  | .subscribed => { a with phase := .holding a.focusedPaneFullRefresh }
  | .holding none => { a with phase := .refreshed }
  | .holding (some (id, grid, burst)) =>
    { a with phase := .refreshed, stream := a.stream.send (.fullRefresh id grid burst) }
  | .refreshed =>
    { a with phase := .attached, stream := a.stream.send (.layoutChanged a.layoutMsg) }
  | .attached => a

/-- A step of the stream; before the handler has subscribed, broadcasts do not reach it. -/
def advance (a : Attach V F) (act : Act) : Attach V F :=
  match a.phase with
  | .start => { a with stream := { a.stream.step act with queue := [], missed := 0 } }
  | _ => { a with stream := a.stream.step act }

/-- A step of the handler or of the stream. -/
inductive Op
  | handler
  | stream (act : Act)

/-- The attach after a step. -/
def step (a : Attach V F) : Op → Attach V F
  | .handler => a.handle
  | .stream act => a.advance act

/-- While the handler holds its snapshot, the forwarder passes on only what it contains: no
    update of the pane that is newer and changes it. -/
def Ok (a : Attach V F) : Op → Prop
  | .handler => True
  | .stream act =>
    match a.phase with
    | .holding (some (id, grid, burst)) =>
      ∀ u, a.stream.Passes rowsView act id u → Replica.InSnapshot grid.rows burst u
    | _ => True

/-- Once the client is attached and the queues are drained, it shows the rows of every pane that
    the layout names. -/
def Shows (a : Attach V F) : Prop :=
  a.phase = .attached → a.stream.Drained → ∀ layout ∈ a.layoutMsg.panes,
    ∃ r, a.stream.readers[layout.paneId]? = some r ∧
      a.stream.clientRows layout.paneId = some r.pane.latestGrid.rows

/-- Before the attach: any output so far, and a client that may know anything. -/
structure Started (a : Attach V F) : Prop where
  phase : a.phase = .start
  reachable : ∀ (id : ℕ) (r : Reader V), a.stream.readers[id]? = some r → r.Reachable
  focusedPanes : a.stream.focusedPanes = a.window.paneIds
  panes : ∀ id ∈ a.window.paneIds, id ∈ a.stream.readers
  queue : a.stream.queue = []
  missed : a.stream.missed = 0
  todo : a.stream.todo = []
  hand : a.stream.hand = []

/-! ## The focused pane -/

/-- What is known of the focused pane in each phase. -/
def Tracked (a : Attach V F) : Prop :=
  match a.phase with
  | .start => (∃ r, a.stream.readers[a.window.focusedPaneId]? = some r ∧ r.Reachable) ∧
      a.stream.queue = [] ∧ a.stream.missed = 0 ∧ a.stream.todo = [] ∧ a.stream.hand = []
  | .subscribed => a.stream.Linked rowsView Replica.Contained Replica.Settled a.window.focusedPaneId
  | .holding none => False
  | .holding (some (id, grid, burst)) => id = a.window.focusedPaneId ∧
      a.stream.Linked rowsView (fun r => r.Contained ∧ r.Since grid.rows burst)
        (Replica.Holding grid.rows burst) id
  | .refreshed | .attached =>
    a.stream.Linked rowsView Replica.Contained Replica.Follows a.window.focusedPaneId

variable {a : Attach V F}

/-- The focused pane is one of the panes of the window. -/
def FocusOk (a : Attach V F) : Prop :=
  a.window.focusedPaneId ∈ a.window.panes ∨ a.window.focusedPaneId ∈ a.window.serialPanes

omit [Ratio F] in
theorem focusedPaneFullRefresh_eq (hfocus : a.FocusOk) {r : Reader V}
    (hr : a.stream.readers[a.window.focusedPaneId]? = some r) :
    a.focusedPaneFullRefresh = some (a.window.focusedPaneId, r.pane.makeFullRefresh, r.bursts) := by
  unfold focusedPaneFullRefresh
  rw [if_pos (by exact hfocus), hr]
  rfl

theorem Tracked.handle (hfocus : a.FocusOk) (h : a.Tracked) : a.handle.Tracked := by
  unfold Tracked at h
  unfold Attach.handle
  rcases hphase : a.phase with _ | _ | (_ | ⟨id, grid, burst⟩) | _ | _ <;> rw [hphase] at h
  · obtain ⟨⟨r, hr, hreach⟩, hqueue, -, -, hhand⟩ := h
    have hcontained : (a.stream.replica rowsView a.window.focusedPaneId r).Contained :=
      Stream.contained_of_empty rowsView hreach hqueue
    refine ⟨r, hr, hreach.sound.1, hcontained, .inr (hcontained.settled_of_hand ?_)⟩
    show updates _ _ a.stream.hand = []
    rw [hhand]
    rfl
  · obtain ⟨r, hr, hheld⟩ := h.hold
    dsimp only
    rw [focusedPaneFullRefresh_eq hfocus hr]
    exact ⟨rfl, hheld⟩
  · exact h.elim
  · obtain ⟨rfl, hheld⟩ := h
    exact hheld.send_refresh
  · exact h.send_layout _
  · show a.Tracked
    unfold Tracked
    rw [hphase]
    exact h

/-- A forwarder that has nothing to do. -/
theorem idle_step {s : Stream V} (hqueue : s.queue = []) (hmissed : s.missed = 0)
    (htodo : s.todo = []) (hhand : s.hand = []) (act : Act) :
    (s.step act).todo = [] ∧ (s.step act).hand = [] := by
  have hpush : ∀ (s : Stream V) (msg : Msg), (s.push msg).todo = s.todo ∧
      (s.push msg).hand = s.hand := by
    intro s msg
    unfold Stream.push
    split_ifs <;> exact ⟨rfl, rfl⟩
  obtain ⟨readers, focusedPanes, queue, missed, todo, hand, channel, client⟩ := s
  dsimp only at hqueue hmissed htodo hhand
  subst hqueue hmissed htodo hhand
  cases act with
  | burst id bytes => exact ⟨rfl, rfl⟩
  | broadcast id =>
    show (Stream.broadcast _ id).todo = [] ∧ (Stream.broadcast _ id).hand = []
    unfold Stream.broadcast
    split
    · exact ⟨rfl, rfl⟩
    · exact hpush _ _
  | event => exact hpush _ .other
  | recv => exact ⟨rfl, rfl⟩
  | snapshot => exact ⟨rfl, rfl⟩
  | forward => exact ⟨rfl, rfl⟩
  | deliver =>
    show (Stream.deliver _).todo = [] ∧ (Stream.deliver _).hand = []
    unfold Stream.deliver
    split <;> exact ⟨rfl, rfl⟩

omit [Ratio F] in
theorem Tracked.advance (h : a.Tracked) (hfocus : a.window.focusedPaneId ∈ a.stream.focusedPanes)
    {act : Act} (hok : a.Ok (.stream act)) : (a.advance act).Tracked := by
  unfold Tracked at h
  unfold Ok at hok
  unfold Attach.advance
  rcases hphase : a.phase with _ | _ | (_ | ⟨id, grid, burst⟩) | _ | _ <;>
    rw [hphase] at h hok
  · obtain ⟨⟨r, hr, hreach⟩, hqueue, hmissed, htodo, hhand⟩ := h
    obtain ⟨htodo', hhand'⟩ := idle_step hqueue hmissed htodo hhand act
    exact ⟨Stream.reachable_step hr hreach act, rfl, rfl, htodo', hhand'⟩
  · exact h.step (Replica.kept_settled fun _ => True) (fun _ _ => trivial) fun _ => hfocus
  · exact h.elim
  · obtain ⟨rfl, hheld⟩ := h
    exact ⟨rfl, hheld.step (Replica.kept_holding _ _) hok fun _ => hfocus⟩
  · exact h.step (Replica.kept_follows fun _ => True) (fun _ _ => trivial) fun _ => hfocus
  · exact h.step (Replica.kept_follows fun _ => True) (fun _ _ => trivial) fun _ => hfocus

/-! ## Runs -/

/-- What no step changes. -/
structure Fixed (a b : Attach V F) : Prop where
  window : b.window = a.window
  focusedPanes : b.stream.focusedPanes = a.stream.focusedPanes

theorem fixed_step (a : Attach V F) (op : Op) : Fixed a (a.step op) := by
  cases op with
  | handler =>
    show Fixed a a.handle
    unfold Attach.handle
    split <;> exact ⟨rfl, rfl⟩
  | stream act =>
    have hpanes := a.stream.focusedPanes_step act
    show Fixed a (a.advance act)
    unfold Attach.advance
    split <;> exact ⟨rfl, hpanes⟩

/-- The invariant of a run. -/
structure Good (a : Attach V F) : Prop where
  tracked : a.Tracked
  focusOk : a.FocusOk
  focusedPanes : a.stream.focusedPanes = a.window.paneIds
  alone : a.window.Alone

theorem Good.step (h : a.Good) {op : Op} (hok : a.Ok op) : (a.step op).Good := by
  have hfixed := a.fixed_step op
  have hmem : a.window.focusedPaneId ∈ a.stream.focusedPanes := by
    rw [h.focusedPanes, Window.mem_paneIds]
    exact h.focusOk
  refine ⟨?_, ?_, ?_, ?_⟩
  · cases op with
    | handler => exact h.tracked.handle h.focusOk
    | stream act => exact h.tracked.advance hmem hok
  · unfold FocusOk
    rw [hfixed.window]
    exact h.focusOk
  · rw [hfixed.focusedPanes, hfixed.window]
    exact h.focusedPanes
  · rw [hfixed.window]
    exact h.alone

theorem Good.shows (h : a.Good) : a.Shows := by
  intro hphase hdrained layout hlayout
  have htracked := h.tracked
  unfold Tracked at htracked
  rw [hphase] at htracked
  rw [h.alone.paneId_eq hlayout]
  exact htracked.items_eq hdrained

omit [Ratio F] in
theorem Started.good (h : a.Started) (hfocus : a.FocusOk) (halone : a.window.Alone) : a.Good := by
  have hmem : a.window.focusedPaneId ∈ a.stream.readers :=
    h.panes _ (Window.mem_paneIds.2 hfocus)
  obtain ⟨r, hr⟩ := Std.ExtTreeMap.mem_iff_getElem?.1 hmem
  refine ⟨?_, hfocus, h.focusedPanes, halone⟩
  unfold Tracked
  rw [h.phase]
  exact ⟨⟨r, hr, h.reachable _ r hr⟩, h.queue, h.missed, h.todo, h.hand⟩

/-- **Attaching.**  If the window shows its focused pane only and the forwarder never overtakes
    the snapshot with something newer, the client shows what the server has. -/
theorem attach_shows (hstart : a.Started) (hfocus : a.FocusOk) (halone : a.window.Alone)
    (ops : List Op) (hok : Runs.Along step Ok a ops) : Runs.Always step Shows a ops := by
  have hgood : Runs.Always step Good a ops :=
    Runs.always_of_along (fun _ _ h ho => h.step ho) (hstart.good hfocus halone) hok
  refine hgood.imp ?_
  intro a h
  exact h.shows

/-! ## Examples -/

/-- A session of 20 × 2 with the given window; the client knows nothing. -/
def attaching (ids : List ℕ) (w : Window ℚ) : Attach plainVte ℚ where
  stream :=
    { readers := ids.foldl (fun m id => m.insert id (.spawn plainVte 20 2)) ∅
      focusedPanes := w.paneIds
      queue := []
      missed := 0
      todo := []
      hand := []
      channel := []
      client := ⟨∅, [], none⟩ }
  window := w
  cols := 20
  rows := 2
  phase := .start

theorem started_attaching (ids : List ℕ) {w : Window ℚ} (hids : ∀ id ∈ w.paneIds, id ∈ ids) :
    (attaching ids w).Started := by
  have hfold : ∀ (ids : List ℕ) (m : IdMap (Reader plainVte)) (id : ℕ),
      (ids.foldl (fun m id => m.insert id (.spawn plainVte 20 2)) m)[id]? =
        if id ∈ ids then some (.spawn plainVte 20 2) else m[id]? := by
    intro ids
    induction ids with
    | nil => exact fun m id => (if_neg List.not_mem_nil).symm
    | cons k ids ih =>
      intro m id
      rw [List.foldl_cons, ih, Std.ExtTreeMap.getElem?_insert_eq]
      by_cases hk : k = id
      · simp [hk]
      · simp [hk, Ne.symm hk]
  refine ⟨rfl, ?_, rfl, ?_, rfl, rfl, rfl, rfl⟩
  · intro id r hr
    rw [attaching, hfold] at hr
    split_ifs at hr
    · obtain rfl := Option.some.inj hr
      exact .spawn 20 2
    · simp at hr
  · intro id hid
    rw [Std.ExtTreeMap.mem_iff_getElem?]
    exact ⟨_, (hfold ids ∅ id).trans (if_pos (hids id hid))⟩

/-- One pane. -/
def oneTab : Window ℚ := .ofPane 1 "main" ⟨1, 20, 2⟩ 20 2

/-- Two panes side by side; the new one has the focus. -/
def twoTabs : Window ℚ := (oneTab.addPaneWithOptions 2 20 2 .vertical (.ok ())).1

/-- A prompt that arrives while the client attaches. -/
theorem attach_shows_prompt : Runs.Always step Shows (attaching [1] oneTab)
    [.handler, .stream (.burst 1 [0x24]), .handler, .stream (.broadcast 1), .stream .recv, .handler,
      .stream .forward, .handler, .stream .deliver, .stream .deliver, .stream .deliver] :=
  attach_shows (started_attaching [1] (by decide +kernel)) (.inl (by decide +kernel))
    (.inr (by decide +kernel))
    _ ⟨trivial, trivial, trivial, (fun _ ⟨_, h, _⟩ => nomatch h), (fun _ ⟨_, h, _⟩ => nomatch h),
      trivial, trivial, trivial, trivial, trivial, trivial, trivial⟩

/-- The handler attaches the client, and nothing else happens. -/
def attachOps : List Op :=
  [.handler, .handler, .handler, .handler, .stream .deliver, .stream .deliver]

/-- A pane that has not got the focus is named in the layout, but the client knows nothing
    of it. -/
theorem hides_pane : (attaching [1, 2] twoTabs).Started ∧
    ¬Runs.Always step Shows (attaching [1, 2] twoTabs) attachOps := by
  refine ⟨started_attaching [1, 2] (by decide +kernel), ?_⟩
  intro h
  have hdrained : (Runs.run step (attaching [1, 2] twoTabs) attachOps).stream.Drained :=
    ⟨Stream.outbox_none_of_all (by decide +kernel), rfl, rfl, rfl, rfl, rfl⟩
  have hnamed : ⟨1, 0, 0, 10, 2, false⟩ ∈
      (Runs.run step (attaching [1, 2] twoTabs) attachOps).layoutMsg.panes := by decide +kernel
  obtain ⟨r, -, hrows⟩ := h.last rfl hdrained _ hnamed
  have hnone : (Runs.run step (attaching [1, 2] twoTabs) attachOps).stream.clientRows 1 = none := by
    decide +kernel
  cases hnone.symm.trans hrows

/-- The handler takes its snapshot, then the prompt arrives and is passed on before it. -/
def overtaken : List Op :=
  [.handler, .handler, .stream (.burst 1 [0x24]), .stream (.broadcast 1), .stream .recv,
    .stream .forward, .handler, .handler, .stream .deliver, .stream .deliver, .stream .deliver]

/-- An older snapshot overwrites a newer diff. -/
theorem stale_refresh : (attaching [1] oneTab).Started ∧ (attaching [1] oneTab).window.Alone ∧
    ¬Runs.Always step Shows (attaching [1] oneTab) overtaken := by
  refine ⟨started_attaching [1] (by decide +kernel), .inr (by decide +kernel), ?_⟩
  intro h
  have hdrained : (Runs.run step (attaching [1] oneTab) overtaken).stream.Drained :=
    ⟨Stream.outbox_none_of_all (by decide +kernel), List.length_eq_zero_iff.1 (by decide +kernel),
      by decide +kernel, List.length_eq_zero_iff.1 (by decide +kernel),
      List.length_eq_zero_iff.1 (by decide +kernel), List.length_eq_zero_iff.1 (by decide +kernel)⟩
  have hnamed : ⟨1, 0, 0, 20, 2, true⟩ ∈
      (Runs.run step (attaching [1] oneTab) overtaken).layoutMsg.panes := by decide +kernel
  obtain ⟨r, hr, hrows⟩ := h.last rfl hdrained _ hnamed
  have hdiffer : ((Runs.run step (attaching [1] oneTab) overtaken).stream.readers[1]?.map
      fun r => some r.pane.latestGrid.rows) ≠
      some ((Runs.run step (attaching [1] oneTab) overtaken).stream.clientRows 1) := by
    decide +kernel
  refine hdiffer ?_
  rw [hr, hrows]
  rfl

end Attach

end Nexterm.Ipc

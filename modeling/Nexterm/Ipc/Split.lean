/-
  A pane is split off (`handle_split_with`).

  * `Split`: the stream to the requesting client together with the handler, which spawns the pane
    under the session lock, later builds a blank grid and the layout, and sends them past the
    forwarder.
  * `Split.Ok`: until the blank grid is sent, the forwarder passes on no output of the new pane.
  * `split_shows`: then the client shows the new pane as the server has it, if the window is in BSP
    mode and not zoomed.
  * `prompt_lost`, `zoomed_split`: a prompt that comes first; a blank grid of another size.
-/
import Nexterm.Ipc.Stream
import Nexterm.Server.Sizes

namespace Nexterm.Ipc

open Std.ExtTreeMap Server Vt

variable {V : Vte} {F : Type} [Ratio F]

/-! ## The size of the new pane -/

/-- The entry of a tab in the layout message of a window that is not zoomed. -/
theorem find_layoutChangedMsg {w : Window F} {cols rows id : ℕ} {r : PaneRect}
    (hzoomed : w.zoomed = false) (horder : id ∈ w.paneOrder)
    (hrect : rectById (w.computeLayouts cols rows) id = some r) :
    (w.layoutChangedMsg cols rows).panes.find? (·.paneId = id) = some (w.paneLayout r) := by
  have hentries : ∀ e ∈ (w.layoutChangedMsg cols rows).panes, e.paneId = id →
      e = w.paneLayout r := by
    intro e he heid
    unfold Window.layoutChangedMsg at he
    rw [hzoomed] at he
    rcases List.mem_append.1 he with he | he
    · obtain ⟨tab, -, htab⟩ := List.mem_filterMap.1 he
      obtain ⟨r', hr, rfl⟩ := Option.map_eq_some_iff.1 htab
      have htabid : tab = id := (rectById_mem hr).2.symm.trans heid
      rw [htabid, hrect] at hr
      rw [Option.some.inj hr]
    · -- an unregistered rectangle is not one of a tab
      obtain ⟨r', hr, rfl⟩ := List.mem_map.1 he
      have hnot := (List.mem_filter.1 hr).2
      rw [show r'.paneId = id from heid] at hnot
      simp [horder] at hnot
  have hmem : w.paneLayout r ∈ (w.layoutChangedMsg cols rows).panes := by
    unfold Window.layoutChangedMsg
    rw [hzoomed]
    refine List.mem_append_left _ (List.mem_filterMap.2 ⟨id, horder, ?_⟩)
    rw [hrect]
    rfl
  have hid : (w.paneLayout r).paneId = id := (rectById_mem hrect).2
  cases hfind : (w.layoutChangedMsg cols rows).panes.find? (·.paneId = id) with
  | none => exact absurd hid (by simpa using List.find?_eq_none.1 hfind _ hmem)
  | some e =>
    rw [hentries e (List.mem_of_find?_eq_some hfind) (by simpa using List.find?_some hfind)]

/-- The layout message gives the new pane the size it was spawned with. -/
theorem newPane_size {w : Window F} {cols rows newId : ℕ} {dir : SplitDir}
    (hmem : w.focusedPaneId ∈ w.layout.leaves) (hmode : w.layoutMode = .bsp)
    (hzoomed : w.zoomed = false) (hnew : newId ∉ w.layout.leaves) :
    ∃ pane, (w.addPaneWithOptions newId cols rows dir (.ok ())).1.panes[newId]? = some pane ∧
      (((w.addPaneWithOptions newId cols rows dir (.ok ())).1.layoutChangedMsg cols rows).panes.find?
        (·.paneId = newId)).map (fun e => (e.cols, e.rows)) = some (pane.cols, pane.rows) := by
  obtain ⟨hfound, hperm⟩ := w.layout.insertAfter_of_mem newId dir hmem
  have hleaves : newId ∈ (w.layout.insertAfter w.focusedPaneId newId dir).1.leaves :=
    (SplitNode.mem_leaves_insertAfter hmem).2 (.inl rfl)
  have hocc : (((w.layout.insertAfter w.focusedPaneId newId dir).1.compute 0 0 cols rows).map
      PaneRect.paneId).count newId ≤ 1 := by
    rw [SplitNode.map_paneId_compute, hperm.count_eq, List.count_cons, List.count_eq_zero.2 hnew]
    simp
  unfold Window.addPaneWithOptions
  simp only [hfound, Bool.not_true, Bool.false_eq_true, if_false, Window.computeLayouts, hmode]
  rw [← SplitNode.map_paneId_compute _ 0 0 cols rows] at hleaves
  obtain ⟨rect, hrect⟩ : ∃ rect, rectById
      ((w.layout.insertAfter w.focusedPaneId newId dir).1.compute 0 0 cols rows) newId =
        some rect := by
    rw [← Option.ne_none_iff_exists']
    exact fun hnone => rectById_eq_none_iff.1 hnone hleaves
  have hfind : ((w.layout.insertAfter w.focusedPaneId newId dir).1.compute 0 0 cols rows).find?
      (·.paneId = newId) = some rect := by
    rw [← Window.rectById_eq_find? hocc, hrect]
  rw [hfind, Option.getD_some]
  refine ⟨⟨newId, rect.cols, rect.rows⟩, ?_, ?_⟩
  · have hnone : ∀ rects : List PaneRect,
        rectById (rects.filter (·.paneId ≠ newId)) newId = none := by
      intro rects
      rw [rectById_eq_none_iff]
      simp
    rw [resizePanes_getElem?, hnone, getElem?_insert_self]
    rfl
  · refine (congrArg _ (find_layoutChangedMsg (r := rect) ?_ ?_ ?_)).trans rfl
    · exact hzoomed
    · exact List.mem_append_right _ List.mem_cons_self
    · exact hrect

/-! ## The handler -/

/-- How far `handle_split_with` has come. -/
inductive SplitPhase
  /-- The pane is spawned, and the session lock released. -/
  | spawned
  /-- It holds the grid and the layout. -/
  | replying (refresh : Grid) (layout : LayoutChanged)
  | refreshed (layout : LayoutChanged)
  | done

/-- A split of the focused pane of `window` into itself and the pane `paneId`. -/
structure Split (V : Vte) (F : Type) where
  stream : Stream V
  window : Window F
  cols : ℕ
  rows : ℕ
  paneId : ℕ
  phase : SplitPhase

namespace Split

/-- What the handler does under the first lock: the reader of the new pane starts at once. -/
def spawn (s : Stream V) (w : Window F) (cols rows newId : ℕ) (dir : SplitDir)
    (opened : Except String Unit) : Except WindowError (Split V F) :=
  match w.addPaneWithOptions newId cols rows dir opened with
  | (_, .error e) => .error e
  | (w, .ok paneId) =>
    let pane := (w.panes[paneId]?).getD ⟨paneId, cols, rows⟩
    .ok
      { stream := { s with
          readers := s.readers.insert paneId (.spawn V pane.cols pane.rows)
          focusedPanes := w.paneIds }
        window := w
        cols := cols
        rows := rows
        paneId := paneId
        phase := .spawned }

/-- The size of the blank grid: what the layout says, or else the size of the session. -/
def refreshSize (a : Split V F) (layout : LayoutChanged) : ℕ × ℕ :=
  ((layout.panes.find? (·.paneId = a.paneId)).map fun e => (e.cols, e.rows)).getD (a.cols, a.rows)

/-- The layout message that the handler sends. -/
def layoutMsg (a : Split V F) : LayoutChanged := a.window.layoutChangedMsg a.cols a.rows

/-- The next step of the handler. -/
def handle (a : Split V F) : Split V F :=
  match a.phase with
  | .spawned =>
    let size := a.refreshSize a.layoutMsg
    { a with phase := .replying (Grid.new size.1 size.2) a.layoutMsg }
  | .replying refresh layout =>
    { a with phase := .refreshed layout, stream := a.stream.send (.fullRefresh a.paneId refresh 0) }
  | .refreshed layout => { a with phase := .done, stream := a.stream.send (.layoutChanged layout) }
  | .done => a

/-- A step of the handler or of the stream. -/
inductive Op
  | handler
  | stream (act : Act)

/-- The split after a step. -/
def step (a : Split V F) : Op → Split V F
  | .handler => a.handle
  | .stream act => { a with stream := a.stream.step act }

/-- The blank grid of a new pane. -/
def blank (a : Split V F) : Grid :=
  let size := a.refreshSize a.layoutMsg
  Grid.new size.1 size.2

/-- Until the blank grid is sent, the forwarder passes on nothing that changes it. -/
def Ok (a : Split V F) : Op → Prop
  | .handler => True
  | .stream act =>
    match a.phase with
    | .spawned | .replying _ _ => ∀ u, a.stream.Passes gridView act a.paneId u →
      Replica.InSnapshot (gridView.ofGrid a.blank) 0 u
    | _ => True

/-- The client shows the grid: its size, its rows and its cursor. -/
structure Agrees (p : PaneState) (g : Grid) : Prop where
  width : p.grid.width = g.width
  height : p.grid.height = g.height
  rows : p.grid.rows = g.rows
  cursorCol : p.cursorCol = g.cursorCol
  cursorRow : p.cursorRow = g.cursorRow

/-- Once the handler is done and the queues are drained, the client shows the new pane. -/
def Shows (a : Split V F) : Prop :=
  a.phase = .done → a.stream.Drained → ∃ p r, a.stream.client.panes[a.paneId]? = some p ∧
    a.stream.readers[a.paneId]? = some r ∧ Agrees p r.pane.latestGrid

/-- No message about the pane has been sent yet. -/
def Fresh (s : Stream V) (id : ℕ) : Prop := ∀ msg ∈ s.queue ++ s.hand, ¬msg.About id

/-! ## The new pane -/

theorem agrees_of_items {p : PaneState} {g : Grid}
    (h : p.items gridView = gridView.ofGrid g) : Agrees p g := by
  have hlist : Item.size p.grid.width p.grid.height :: .cursor p.cursorCol p.cursorRow ::
      p.grid.rows.map .row = .size g.width g.height :: .cursor g.cursorCol g.cursorRow ::
      g.rows.map .row := h
  obtain ⟨hsize, htail⟩ := List.cons.inj hlist
  obtain ⟨hcursor, hrows⟩ := List.cons.inj htail
  obtain ⟨hwidth, hheight⟩ := Item.size.inj hsize
  obtain ⟨hcol, hrow⟩ := Item.cursor.inj hcursor
  have hinj : Function.Injective Item.row := fun _ _ he => Item.row.inj he
  exact ⟨hwidth, hheight, List.map_injective_iff.2 hinj hrows, hcol, hrow⟩

variable {a : Split V F}

/-- What is known of the new pane in each phase. -/
def Tracked (a : Split V F) : Prop :=
  match a.phase with
  | .spawned => a.stream.Linked gridView
      (fun r => r.Contained ∧ r.Since (gridView.ofGrid a.blank) 0)
      (Replica.Holding (gridView.ofGrid a.blank) 0) a.paneId
  | .replying refresh _ => refresh = a.blank ∧ a.stream.Linked gridView
      (fun r => r.Contained ∧ r.Since (gridView.ofGrid a.blank) 0)
      (Replica.Holding (gridView.ofGrid a.blank) 0) a.paneId
  | .refreshed _ | .done => a.stream.Linked gridView Replica.Contained Replica.Follows a.paneId

theorem Tracked.handle (h : a.Tracked) : a.handle.Tracked := by
  unfold Tracked at h
  unfold Split.handle
  rcases hphase : a.phase with _ | ⟨refresh, layout⟩ | ⟨layout⟩ | _ <;> rw [hphase] at h
  · exact ⟨rfl, h⟩
  · obtain ⟨rfl, hheld⟩ := h
    exact hheld.send_refresh
  · exact h.send_layout _
  · show a.Tracked
    unfold Tracked
    rw [hphase]
    exact h

theorem Tracked.advance (h : a.Tracked) (hfocus : a.paneId ∈ a.stream.focusedPanes) {act : Act}
    (hok : a.Ok (.stream act)) : (a.step (.stream act)).Tracked := by
  unfold Tracked at h
  unfold Ok at hok
  show ({ a with stream := a.stream.step act } : Split V F).Tracked
  unfold Tracked
  dsimp only at hok ⊢
  rcases hphase : a.phase with _ | ⟨refresh, layout⟩ | ⟨layout⟩ | _ <;> rw [hphase] at h hok
  · exact h.step (Replica.kept_holding _ _) hok fun _ => hfocus
  · exact ⟨h.1, h.2.step (Replica.kept_holding _ _) hok fun _ => hfocus⟩
  · exact h.step (Replica.kept_follows fun _ => True) (fun _ _ => trivial) fun _ => hfocus
  · exact h.step (Replica.kept_follows fun _ => True) (fun _ _ => trivial) fun _ => hfocus

/-- The invariant of a run. -/
structure Good (a : Split V F) : Prop where
  tracked : a.Tracked
  focused : a.paneId ∈ a.stream.focusedPanes

theorem Good.step (h : a.Good) {op : Op} (hok : a.Ok op) : (a.step op).Good := by
  cases op with
  | handler =>
    refine ⟨h.tracked.handle, ?_⟩
    have hsame : a.handle.paneId = a.paneId ∧
        a.handle.stream.focusedPanes = a.stream.focusedPanes := by
      unfold Split.handle
      split <;> exact ⟨rfl, rfl⟩
    show a.handle.paneId ∈ a.handle.stream.focusedPanes
    rw [hsame.1, hsame.2]
    exact h.focused
  | stream act =>
    refine ⟨h.tracked.advance h.focused hok, ?_⟩
    show a.paneId ∈ (a.stream.step act).focusedPanes
    rw [Stream.focusedPanes_step]
    exact h.focused

theorem Good.shows (h : a.Good) : a.Shows := by
  intro hphase hdrained
  have htracked := h.tracked
  unfold Tracked at htracked
  rw [hphase] at htracked
  obtain ⟨r, hr, hitems⟩ := htracked.items_eq hdrained
  obtain ⟨p, hp, hitems⟩ := Option.map_eq_some_iff.1 hitems
  exact ⟨p, r, hp, hr, agrees_of_items hitems⟩

/-! ## Runs -/

omit [Ratio F] in
theorem updates_of_fresh {id : ℕ} {msgs : List Msg}
    (h : ∀ msg ∈ msgs, ¬msg.About id) : updates gridView id msgs = [] := by
  refine List.filterMap_eq_nil_iff.2 ?_
  intro msg hmsg
  cases hu : msg.update gridView id with
  | none => rfl
  | some u => exact absurd (Msg.about_of_update gridView hu) (h msg hmsg)

/-- A new reader whose blank grid is the one that the handler is going to send. -/
theorem good_of_new {s : Stream V} (hfresh : Fresh s a.paneId) (hphase : a.phase = .spawned)
    (size : ℕ × ℕ) (hsize : a.refreshSize a.layoutMsg = size)
    (hreaders : a.stream.readers[a.paneId]? = some (.spawn V size.1 size.2))
    (hqueue : a.stream.queue = s.queue) (hhand : a.stream.hand = s.hand)
    (hfocused : a.paneId ∈ a.stream.focusedPanes) : a.Good := by
  refine ⟨?_, hfocused⟩
  have hpend : (a.stream.replica gridView a.paneId (.spawn V size.1 size.2)).pend = [] := by
    show updates gridView a.paneId a.stream.queue ++ [] = []
    rw [hqueue, List.append_nil]
    exact updates_of_fresh fun msg hmsg => hfresh msg (List.mem_append_left _ hmsg)
  have hhand' : (a.stream.replica gridView a.paneId (.spawn V size.1 size.2)).hand = [] := by
    show updates gridView a.paneId a.stream.hand = []
    rw [hhand]
    exact updates_of_fresh fun msg hmsg => hfresh msg (List.mem_append_right _ hmsg)
  have hblank : gridView.ofGrid a.blank =
      (a.stream.replica gridView a.paneId (.spawn V size.1 size.2)).source := by
    unfold blank
    rw [hsize]
    rfl
  unfold Tracked
  rw [hphase, hblank]
  refine ⟨_, hreaders, ⟨size.1, size.2, PtyPane.fixed_spawn V _ _⟩, ⟨⟨?_, ?_⟩, le_rfl, ?_⟩, .inr ?_⟩
  · rw [hpend]
    intro u hu
    cases hu
  · rw [hpend]
    exact rfl
  · exact fun _ => rfl
  · intro us l he _
    rw [hpend, hhand'] at he
    obtain ⟨-, rfl⟩ := List.append_eq_nil_iff.1 he.symm
    rfl

theorem good_spawn {s : Stream V} {w : Window F} {cols rows newId : ℕ} {dir : SplitDir}
    {opened : Except String Unit} (hfresh : Fresh s newId) (hnew : newId ∉ w.layout.leaves)
    (hmode : w.layoutMode = .bsp) (hzoomed : w.zoomed = false)
    (h : spawn s w cols rows newId dir opened = .ok a) : a.Good := by
  by_cases hmem : w.focusedPaneId ∈ w.layout.leaves
  · cases opened with
    | error text =>
      unfold spawn Window.addPaneWithOptions at h
      simp [(w.layout.insertAfter_of_mem newId dir hmem).1] at h
    | ok u =>
      have hadded : (w.addPaneWithOptions newId cols rows dir (.ok ())).2 = .ok newId := by
        unfold Window.addPaneWithOptions
        simp [(w.layout.insertAfter_of_mem newId dir hmem).1]
      obtain ⟨pane, hpane, hentry⟩ : ∃ pane,
          (w.addPaneWithOptions newId cols rows dir (.ok ())).1.panes[newId]? = some pane ∧ _ :=
        newPane_size hmem hmode hzoomed hnew
      unfold spawn at h
      rcases hadd : w.addPaneWithOptions newId cols rows dir (.ok ()) with ⟨w', res⟩
      rw [hadd] at h hadded hpane hentry
      obtain rfl : res = .ok newId := hadded
      dsimp only at h hpane hentry
      rw [hpane, Option.getD_some] at h
      obtain rfl := Except.ok.inj h
      refine good_of_new hfresh rfl (pane.cols, pane.rows) ?_ ?_ rfl rfl ?_
      · exact (congrArg (·.getD (cols, rows)) hentry).trans rfl
      · exact getElem?_insert_self
      · exact Window.mem_paneIds.2 (.inl (mem_iff_getElem?.2 ⟨pane, hpane⟩))
  · unfold spawn Window.addPaneWithOptions at h
    rw [SplitNode.insertAfter_of_not_mem newId dir hmem] at h
    cases h

/-- **Splitting.**  If the window is in BSP mode and not zoomed, and nothing of the new pane
    overtakes its blank grid, the client shows the pane as the server has it. -/
theorem split_shows {s : Stream V} {w : Window F} {cols rows newId : ℕ} {dir : SplitDir}
    {opened : Except String Unit} (hfresh : Fresh s newId) (hnew : newId ∉ w.layout.leaves)
    (hmode : w.layoutMode = .bsp) (hzoomed : w.zoomed = false)
    (hspawn : spawn s w cols rows newId dir opened = .ok a) (ops : List Op)
    (hok : Runs.Along step Ok a ops) : Runs.Always step Shows a ops := by
  have hgood : Runs.Always step Good a ops :=
    Runs.always_of_along (fun _ _ h ho => h.step ho)
      (good_spawn hfresh hnew hmode hzoomed hspawn) hok
  refine hgood.imp ?_
  intro a h
  exact h.shows

/-! ## Examples -/

/-- A client that shows the one pane of a session. -/
def watching : Stream plainVte where
  readers := (∅ : IdMap (Reader plainVte)).insert 1 (.spawn plainVte 20 2)
  focusedPanes := [1]
  queue := []
  missed := 0
  todo := []
  hand := []
  channel := []
  client := ⟨(∅ : IdMap PaneState).insert 1 ⟨Grid.new 20 2, 0, 0⟩, [⟨1, 0, 0, 20, 2, true⟩], some 1⟩

theorem fresh_watching : Fresh watching 2 := by
  intro msg hmsg
  cases hmsg

/-- The window of that pane, as it is or zoomed. -/
def oneTab (zoomed : Bool) : Window ℚ :=
  { Window.ofPane 1 "main" ⟨1, 20, 2⟩ 20 2 with zoomed := zoomed }

/-- The pane 2 is split off. -/
def splitting (zoomed : Bool) : Split plainVte ℚ :=
  match spawn watching (oneTab zoomed) 20 2 2 .vertical (.ok ()) with
  | .ok a => a
  | .error _ => ⟨watching, oneTab zoomed, 20, 2, 1, .done⟩

/-- The reply comes before the prompt. -/
theorem split_shows_prompt : Runs.Always step Shows (splitting false)
    [.handler, .stream (.burst 2 [0x24]), .handler, .stream (.broadcast 2), .handler, .stream .recv,
      .stream .forward, .stream .deliver, .stream .deliver, .stream .deliver] :=
  split_shows fresh_watching (by decide) rfl rfl (rfl : spawn watching (oneTab false) 20 2 2 .vertical
    (.ok ()) = .ok (splitting false)) _ ⟨trivial, (fun _ ⟨_, h, _⟩ => nomatch h), trivial, trivial,
      trivial, trivial, trivial, trivial, trivial, trivial, trivial⟩

/-- The prompt is passed on before the blank grid is sent. -/
def promptFirst : List Op :=
  [.stream (.burst 2 [0x24]), .stream (.broadcast 2), .stream .recv, .stream .forward, .handler,
    .handler, .handler, .stream .deliver, .stream .deliver, .stream .deliver]

/-- The client ignores a diff of a pane it does not know. -/
theorem prompt_lost : ¬Runs.Always step Shows (splitting false) promptFirst := by
  intro h
  have hdrained : (Runs.run step (splitting false) promptFirst).stream.Drained :=
    ⟨Stream.outbox_none_of_all (by decide +kernel), List.length_eq_zero_iff.1 (by decide +kernel),
      by decide +kernel, List.length_eq_zero_iff.1 (by decide +kernel),
      List.length_eq_zero_iff.1 (by decide +kernel), List.length_eq_zero_iff.1 (by decide +kernel)⟩
  obtain ⟨p, r, hp, hr, hagrees⟩ := h.last rfl hdrained
  have hdiffer : ((Runs.run step (splitting false) promptFirst).stream.client.panes[2]?.map
      fun p => p.grid.rows) ≠ (Runs.run step (splitting false) promptFirst).stream.readers[2]?.map
      fun r => r.pane.latestGrid.rows := by
    decide +kernel
  refine hdiffer (Eq.trans (congrArg _ hp) (Eq.trans ?_ (congrArg _ hr).symm))
  exact congrArg some hagrees.rows

/-- The reply to a split of a zoomed window. -/
def reply : List Op := [.handler, .handler, .handler, .stream .deliver, .stream .deliver]

/-- In a zoomed window the blank grid has the size of the session, not of the pane. -/
theorem zoomed_split : ¬Runs.Always step Shows (splitting true) reply := by
  intro h
  have hdrained : (Runs.run step (splitting true) reply).stream.Drained :=
    ⟨Stream.outbox_none_of_all (by decide +kernel), List.length_eq_zero_iff.1 (by decide +kernel),
      by decide +kernel, List.length_eq_zero_iff.1 (by decide +kernel),
      List.length_eq_zero_iff.1 (by decide +kernel), List.length_eq_zero_iff.1 (by decide +kernel)⟩
  obtain ⟨p, r, hp, hr, hagrees⟩ := h.last rfl hdrained
  have hdiffer : ((Runs.run step (splitting true) reply).stream.client.panes[2]?.map
      fun p => p.grid.width) ≠ (Runs.run step (splitting true) reply).stream.readers[2]?.map
      fun r => r.pane.latestGrid.width := by
    decide +kernel
  refine hdiffer (Eq.trans (congrArg _ hp) (Eq.trans ?_ (congrArg _ hr).symm))
  exact congrArg some hagrees.width

end Split

end Nexterm.Ipc

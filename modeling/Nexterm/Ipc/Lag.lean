/-
  A client that lags behind the broadcast of its session.

  * `InStep`: nothing is under way, and the client shows what it knows as the server has it.
  * `rows_after_lag`: after any run, drained queues mean equal rows, for every pane of the
    focused window and every other pane that lost no diff.
  * `lag_loses_background`: a lost diff of another pane is not made up for.
-/
import Nexterm.Ipc.Stream

namespace Nexterm.Ipc.Stream

open Server Vt

variable {V : Vte} {s : Stream V} {id : ℕ}

/-- Nothing is under way, and every pane the client knows shows the rows of its snapshot. -/
structure InStep (s : Stream V) : Prop where
  reachable : ∀ (id : ℕ) (r : Reader V), s.readers[id]? = some r → r.Reachable
  queue : s.queue = []
  missed : s.missed = 0
  todo : s.todo = []
  hand : s.hand = []
  channel : s.channel = []
  rows : ∀ (id : ℕ) (r : Reader V), s.readers[id]? = some r →
    s.clientRows id = none ∨ s.clientRows id = some r.pane.latestGrid.rows

/-- The step makes the queue drop a message about the rows of the pane only if the pane is in
    the focused window. -/
def Keeps (id : ℕ) (s : Stream V) (act : Act) : Prop := s.Drops act id → id ∈ s.focusedPanes

/-- The pane is not known to the client, or its copy follows it, or it is due for a resync. -/
def Tracked (id : ℕ) (s : Stream V) : Prop :=
  Linked rowsView Replica.Contained (fun r => r.Follows ∨ r.Unknown) s id

theorem InStep.tracked (h : s.InStep) (hid : id ∈ s.readers) : s.Tracked id := by
  obtain ⟨r, hr⟩ := Std.ExtTreeMap.mem_iff_getElem?.1 hid
  have hreach := h.reachable id r hr
  have hcontained : (s.replica rowsView id r).Contained :=
    contained_of_empty rowsView hreach h.queue
  have hhand : (s.replica rowsView id r).hand = [] := by
    show updates rowsView id s.hand = []
    rw [h.hand]
    rfl
  have hchan : (s.replica rowsView id r).chan = [] := by
    show updates rowsView id s.channel = []
    rw [h.channel]
    rfl
  refine ⟨r, hr, hreach.sound.1, hcontained, .inr ?_⟩
  rcases h.rows id r hr with hnone | hsome
  · right
    refine ⟨hnone, ?_, ?_⟩
    · rw [hchan]
      intro u hu
      cases hu
    · rw [hhand]
      intro u hu
      cases hu
  · left
    have hcopy : (s.replica rowsView id r).copy = some (s.replica rowsView id r).source := hsome
    show Update.replay ((s.replica rowsView id r).chan ++ (s.replica rowsView id r).hand ++ _) _ = _
    rw [hchan, hhand, hcopy]
    exact hcontained.suffix [] _ rfl

theorem Tracked.step (h : s.Tracked id) {act : Act} (hkeep : s.Keeps id act) :
    (s.step act).Tracked id :=
  Linked.step h (Replica.kept_followsOrUnknown fun _ => True) (fun _ _ => trivial) hkeep

theorem Tracked.rows (h : s.Tracked id) (hd : s.Drained) {rows : List (List Cell)}
    (hknown : s.clientRows id = some rows) :
    ∃ r, s.readers[id]? = some r ∧ rows = r.pane.latestGrid.rows := by
  obtain ⟨r, hr, -, -, hdue⟩ := h
  refine ⟨r, hr, ?_⟩
  have hstate := hdue.resolve_left hd.not_due
  rw [hd.replica_eq hr] at hstate
  rcases hstate with hfollows | hunknown
  · exact Option.some.inj (hknown.symm.trans (hfollows.copy rfl rfl rfl))
  · cases hknown.symm.trans hunknown.copy

/-- **Lagging.**  Whatever is dropped, as long as no diff of the pane is dropped while the pane
    is outside the focused window, the client shows its rows whenever the queues are drained. -/
theorem rows_after_lag (hstart : s.InStep) (hid : id ∈ s.readers) (acts : List Act)
    (hkeep : Runs.Along step (Keeps id) s acts) :
    Runs.Always step (fun s => s.Drained → ∀ rows, s.clientRows id = some rows →
      ∃ r, s.readers[id]? = some r ∧ rows = r.pane.latestGrid.rows) s acts := by
  have htracked : Runs.Always step (Tracked id) s acts :=
    Runs.always_of_along (fun _ _ h hk => h.step hk) (hstart.tracked hid) hkeep
  refine htracked.imp ?_
  intro s h hd rows hknown
  exact h.rows hd hknown

/-- The panes of the focused window may lose any of their diffs. -/
theorem along_keeps_of_focused (hid : id ∈ s.focusedPanes) (acts : List Act) :
    Runs.Along step (Keeps id) s acts := by
  induction acts generalizing s with
  | nil => trivial
  | cons act acts ih =>
    refine ⟨fun _ => hid, ih ?_⟩
    rw [focusedPanes_step]
    exact hid

/-! ## A pane in the background -/

/-- Any number of other messages, as long as they fit. -/
theorem run_event : ∀ (n : ℕ) {s : Stream V}, s.queue.length + n ≤ broadcastCapacity →
    Runs.run step s (List.replicate n .event) =
      { s with queue := s.queue ++ List.replicate n .other }
  | 0, s, _ => by
    show s = _
    rw [List.replicate_zero, List.append_nil]
  | n + 1, s, h => by
    have hpush : s.step .event = { s with queue := s.queue ++ [.other] } := if_pos (by omega)
    show Runs.run step (s.step .event) (List.replicate n .event) = _
    rw [hpush, run_event n (by simp; omega)]
    simp only [List.append_assoc, List.singleton_append, List.replicate_succ]

/-- The steps that take one message from the queue to the client. -/
def passOn : List Act := [.recv, .forward, .deliver]

/-- The queue is drained of messages that do not matter. -/
theorem run_passOn : ∀ (n : ℕ) {s : Stream V}, s.missed = 0 → s.todo = [] → s.hand = [] →
    s.channel = [] → s.queue = List.replicate n .other →
    Runs.run step s (List.replicate n passOn).flatten = { s with queue := [] }
  | 0, ⟨_, _, _, _, _, _, _, _⟩, _, _, _, _, hqueue => by
    subst hqueue
    rfl
  | n + 1, ⟨readers, focusedPanes, queue, missed, todo, hand, channel, client⟩,
      hmissed, htodo, hhand, hchannel, hqueue => by
    dsimp only at hmissed htodo hhand hchannel hqueue
    subst hmissed htodo hhand hchannel hqueue
    have hcons : (List.replicate (n + 1) passOn).flatten =
        passOn ++ (List.replicate n passOn).flatten := rfl
    rw [hcons, Runs.run_append]
    exact run_passOn n rfl rfl rfl rfl rfl

/-- One message more than fits: the oldest one is dropped. -/
theorem run_overflow {msg : Msg} (hqueue : s.queue = [msg]) :
    Runs.run step s (List.replicate broadcastCapacity .event) =
      { s with queue := List.replicate broadcastCapacity .other, missed := s.missed + 1 } := by
  have hsplit : List.replicate broadcastCapacity Act.event =
      List.replicate (broadcastCapacity - 1) .event ++ [.event] := List.replicate_succ'
  have hfits : s.queue.length + (broadcastCapacity - 1) ≤ broadcastCapacity := by
    rw [hqueue]
    simp [broadcastCapacity]
  have hlength : (s.queue ++ List.replicate (broadcastCapacity - 1) Msg.other).length =
      broadcastCapacity := by
    rw [List.length_append, List.length_replicate, hqueue]
    rfl
  have hfull : ¬(s.queue ++ List.replicate (broadcastCapacity - 1) Msg.other).length <
      broadcastCapacity := by
    rw [hlength]
    exact lt_irrefl _
  rw [hsplit, Runs.run_append, run_event _ hfits]
  refine (if_neg hfull).trans ?_
  have hrest : (s.queue ++ List.replicate (broadcastCapacity - 1) Msg.other).tail ++ [.other] =
      List.replicate broadcastCapacity .other := by
    rw [hqueue]
    exact List.replicate_succ'.symm
  rw [hrest]

/-- Two panes of one cell; the second one is in another window. -/
def background : Stream plainVte where
  readers := (∅ : IdMap (Reader plainVte)).insert 1 (.spawn plainVte 1 1) |>.insert 2
    (.spawn plainVte 1 1)
  focusedPanes := [1]
  queue := []
  missed := 0
  todo := []
  hand := []
  channel := []
  client := ⟨(∅ : IdMap PaneState).insert 1 ⟨Grid.new 1 1, 0, 0⟩ |>.insert 2 ⟨Grid.new 1 1, 0, 0⟩,
    [⟨1, 0, 0, 1, 1, true⟩], some 1⟩

theorem inStep_background : background.InStep := by
  have hreaders : ∀ id (r : Reader plainVte), background.readers[id]? = some r →
      r = .spawn plainVte 1 1 ∧ background.clientRows id = some (Grid.new 1 1).rows := by
    intro id r hr
    unfold background at hr ⊢
    unfold clientRows
    dsimp only at hr ⊢
    rw [Std.ExtTreeMap.getElem?_insert_eq, Std.ExtTreeMap.getElem?_insert_eq] at hr ⊢
    split_ifs at hr ⊢
    · exact ⟨(Option.some.inj hr).symm, rfl⟩
    · exact ⟨(Option.some.inj hr).symm, rfl⟩
    · simp at hr
  refine ⟨?_, rfl, rfl, rfl, rfl, rfl, ?_⟩
  · intro id r hr
    obtain ⟨rfl, -⟩ := hreaders id r hr
    exact .spawn 1 1
  · intro id r hr
    obtain ⟨rfl, hrows⟩ := hreaders id r hr
    exact .inr hrows

/-- A pane prints, its diff is pushed out of the queue, and the client catches up. -/
def lagging (id : ℕ) : List Act :=
  [Act.burst id [0x61], Act.broadcast id] ++ List.replicate broadcastCapacity Act.event ++
    [Act.recv, Act.snapshot, Act.forward, Act.deliver] ++
    (List.replicate broadcastCapacity passOn).flatten

/-- The pane in the focused window loses its diff, and gets a snapshot. -/
theorem rows_after_lag_focused : Runs.Always step (fun s => s.Drained → ∀ rows,
    s.clientRows 1 = some rows → ∃ r, s.readers[1]? = some r ∧ rows = r.pane.latestGrid.rows)
    background (lagging 1) :=
  rows_after_lag inStep_background (by decide +kernel) (lagging 1)
    (along_keeps_of_focused List.mem_cons_self (lagging 1))

/-- The state of the second pane's diff in the queue. -/
def diffSent : Stream plainVte := Runs.run step background [.burst 2 [0x61], .broadcast 2]

/-- The state after the resync. -/
def resynced : Stream plainVte :=
  Runs.run step
    { diffSent with queue := List.replicate broadcastCapacity .other, missed := 1 }
    [.recv, .snapshot, .forward, .deliver]

theorem run_lagging : Runs.run step background (lagging 2) = { resynced with queue := [] } := by
  have hqueue : diffSent.queue.length = 1 := by decide +kernel
  obtain ⟨msg, hmsg⟩ := List.length_eq_one_iff.1 hqueue
  unfold lagging
  rw [Runs.run_append, Runs.run_append, Runs.run_append]
  show Runs.run step (Runs.run step (Runs.run step diffSent _) _) _ = _
  rw [run_overflow hmsg]
  have hmissed : diffSent.missed = 0 := by decide +kernel
  rw [hmissed]
  show Runs.run step resynced _ = _
  exact run_passOn _ (by decide +kernel)
    (List.length_eq_zero_iff.1 (by decide +kernel)) (List.length_eq_zero_iff.1 (by decide +kernel))
    (List.length_eq_zero_iff.1 (by decide +kernel)) rfl

theorem drained_resynced : ({ resynced with queue := [] } : Stream plainVte).Drained :=
  ⟨outbox_none_of_all (by decide +kernel), rfl, by decide +kernel,
    List.length_eq_zero_iff.1 (by decide +kernel), List.length_eq_zero_iff.1 (by decide +kernel),
    List.length_eq_zero_iff.1 (by decide +kernel)⟩

/-- The client still shows a blank where the server has a letter. -/
theorem lag_loses_background : background.InStep ∧ (Runs.run step background (lagging 2)).Drained ∧
    (Runs.run step background (lagging 2)).clientRows 2 = some [[{}]] ∧
    ∃ r, (Runs.run step background (lagging 2)).readers[2]? = some r ∧
      r.pane.latestGrid.rows = [[{ ch := 'a' }]] := by
  rw [run_lagging]
  have hrows : (resynced.readers[2]?.map fun r => r.pane.latestGrid.rows) =
      some [[{ ch := 'a' }]] := by decide +kernel
  obtain ⟨r, hr, heq⟩ := Option.map_eq_some_iff.1 hrows
  exact ⟨inStep_background, drained_resynced, by decide +kernel, r, hr, heq⟩

end Nexterm.Ipc.Stream

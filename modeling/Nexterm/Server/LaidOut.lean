/-
  Runs of a session that keep the focused window in sync with its layout message.

  * `Tracked`: a session together with the total size each window was last laid out for; a
    history variable that no operation reads.
  * `Tracked.Ok`: when a request keeps the focused window in sync.
  * `inSync_run`: the property over runs.
-/
import Nexterm.Server.Sizes

namespace Nexterm.Server

open Std.ExtTreeMap

variable {F : Type} [Ratio F]

namespace Window

/-- Taking the focused pane does not show, or lays the window out again. -/
def TakeOk (w : Window F) : Prop :=
  w.TakeSpoils → w.zoomed = true ∨ w.layoutMode = .tiling

theorem takeFocusedPane_synced {w : Window F} {cols rows : ℕ} (ho : w.Ordered)
    (hs : w.InSync cols rows) (hok : w.TakeOk) :
    (w.takeFocusedPane cols rows).1.Ordered ∧ (w.takeFocusedPane cols rows).1.InSync cols rows := by
  by_cases hcan : w.CanTakeFocused
  · obtain ⟨w', pane, ht⟩ := takeFocusedPane_of_can hcan cols rows
    rw [ht]
    exact takeFocusedPane_laidOut ho ht
  · obtain ⟨layout, ht, hsame⟩ := takeFocusedPane_of_not hcan cols rows
    rw [ht]
    refine ⟨ho, hs.frame ho ho rfl rfl (fun _ => rfl) fun hz => ?_⟩
    by_cases hspoils : w.TakeSpoils
    · have hm : w.layoutMode = .tiling := (hok hspoils).resolve_left (by simp [hz])
      simp [computeLayouts, hm]
    · rw [hsame.2 hspoils]

end Window

/-! ## Windows and the sizes they were laid out for -/

/-- Every window is in sync at the size it was laid out for. -/
def AllSynced (windows : IdMap (Window F)) (laid : ℕ → ℕ × ℕ) : Prop :=
  ∀ (id : ℕ) (w : Window F), windows[id]? = some w →
    w.Ordered ∧ w.InSync (laid id).1 (laid id).2

variable {windows : IdMap (Window F)} {laid : ℕ → ℕ × ℕ}

theorem AllSynced.insert (h : AllSynced windows laid) {k cols rows : ℕ} {w : Window F}
    (hw : w.Ordered ∧ w.InSync cols rows) :
    AllSynced (windows.insert k w) (Function.update laid k (cols, rows)) := by
  intro id v hv
  rw [getElem?_insert_eq] at hv
  split_ifs at hv with hk
  · subst hk
    cases hv
    rwa [Function.update_self]
  · rw [Function.update_of_ne (Ne.symm hk)]
    exact h id v hv

/-- A window that stays at the size it was laid out for. -/
theorem AllSynced.replace (h : AllSynced windows laid) {k : ℕ} {w : Window F}
    (hw : w.Ordered ∧ w.InSync (laid k).1 (laid k).2) : AllSynced (windows.insert k w) laid := by
  have hinsert : AllSynced (windows.insert k w) (Function.update laid k (laid k)) := h.insert hw
  rwa [Function.update_eq_self] at hinsert

theorem AllSynced.erase (h : AllSynced windows laid) (k : ℕ) : AllSynced (windows.erase k) laid :=
  fun id w hw => h id w (by
    rw [getElem?_erase_eq] at hw
    split_ifs at hw
    exact hw)

/-- The size of a window that is gone does not matter. -/
theorem AllSynced.absent (h : AllSynced windows laid) {k : ℕ} (hk : k ∉ windows)
    (size : ℕ × ℕ) : AllSynced windows (Function.update laid k size) := by
  intro id w hw
  have hne : id ≠ k := fun he => hk (he ▸ mem_iff_getElem?.2 ⟨w, hw⟩)
  rw [Function.update_of_ne hne]
  exact h id w hw

theorem AllSynced.modify (h : AllSynced windows laid) {k : ℕ} {f : Window F → Window F}
    (hf : ∀ w, windows[k]? = some w → w.Ordered → w.InSync (laid k).1 (laid k).2 →
      (f w).Ordered ∧ (f w).InSync (laid k).1 (laid k).2) :
    AllSynced (windows.modify k f) laid := by
  intro id v hv
  rw [getElem?_modify_eq] at hv
  split_ifs at hv with hk
  · subst hk
    obtain ⟨w, hw, rfl⟩ := Option.map_eq_some_iff.1 hv
    obtain ⟨ho, hs⟩ := h _ w hw
    exact hf w hw ho hs
  · exact h id v hv

/-- The windows after the first half of a move. -/
theorem AllSynced.takeFrom {s s' : Session F} (h : AllSynced s.windows laid) {source paneId : ℕ}
    {pane : Pane} (ht : s.takeFrom source paneId = (s', .ok pane)) :
    ∃ windows, AllSynced windows (Function.update laid source (s.cols, s.rows)) ∧
      (∀ id ∈ windows, id ∈ s.windows) ∧ s' = { s with windows := windows } := by
  unfold Session.takeFrom at ht
  cases hw : s.windows[source]? with
  | none => simp [hw] at ht
  | some w =>
    simp only [hw] at ht
    by_cases hcount : w.paneCount ≤ 1
    · rw [if_pos hcount] at ht
      obtain ⟨rfl, -⟩ := Prod.mk.inj ht
      exact ⟨_, (h.erase source).absent (fun hm => (mem_erase_eq.1 hm).1 rfl) _,
        fun id hid => (mem_erase_eq.1 hid).2, rfl⟩
    · rw [if_neg hcount] at ht
      rcases hres : w.takePaneById paneId s.cols s.rows with ⟨w', taken⟩
      cases taken with
      | none => simp [hres] at ht
      | some p =>
        rw [hres] at ht
        obtain ⟨rfl, -⟩ := Prod.mk.inj ht
        refine ⟨_, h.insert (Window.takePaneById_laidOut (h _ w hw).1 hres), fun id hid => ?_, rfl⟩
        exact (mem_insert_eq.1 hid).elim (fun he => he ▸ mem_iff_getElem?.2 ⟨w, hw⟩) fun hid => hid

/-- The windows after the second half of a move. -/
theorem AllSynced.putInto {s s' : Session F} (h : AllSynced s.windows laid) {target newId d : ℕ}
    {pane : Pane} {insertAt : Option ℕ} (hp : s.putInto pane target insertAt newId = (s', .ok d)) :
    ∃ windows, AllSynced windows (Function.update laid d (s.cols, s.rows)) ∧
      s' = { s with windows := windows, focusedWindowId := d } := by
  unfold Session.putInto at hp
  by_cases h0 : target = 0
  · rw [if_pos h0] at hp
    cases hp
    exact ⟨_, h.insert (Window.newWithPane_laidOut ..), rfl⟩
  · rw [if_neg h0] at hp
    cases hw : s.windows[target]? with
    | none => simp [hw] at hp
    | some w =>
      simp only [hw] at hp
      cases hp
      exact ⟨_, h.insert (Window.insertPaneAt_laidOut (h _ w hw).1 ..), rfl⟩

namespace Session

/-- Every PTY pane of the layout message of the focused window has the size it gives it. -/
def FocusedInSync (s : Session F) : Prop :=
  ∀ w, s.focusedWindow = some w → w.InSync s.cols s.rows

instance (s : Session F) : Decidable s.FocusedInSync :=
  decidable_of_iff (s.focusedWindow.all fun w => decide (w.InSync s.cols s.rows)) (by
    simp [FocusedInSync, Option.all_eq_true])

/-- The windows that a request lays out for the size of the session, in order. -/
def laidOut (s : Session F) : Request F → List ℕ
  | .newWindow windowId _ (.ok _) => [windowId]
  | .resize _ _ => [s.focusedWindowId]
  | .breakPane newId =>
    match (s.breakPane newId).2 with
    | .error _ => []
    | .ok _ => [s.focusedWindowId, newId]
  | .movePane paneId target insertAt newId pick =>
    match s.sourceWindow paneId pick with
    | none => []
    | some source =>
      if source = target then []
      else
        match s.takeFrom source paneId with
        | (_, .error _) => []
        | (s, .ok pane) =>
          match (s.putInto pane target insertAt newId).2 with
          | .error _ => [source]
          | .ok destination => [source, destination]
  | .joinPane target =>
    match (s.joinPane target).2 with
    | .error _ => []
    | .ok _ => [s.focusedWindowId, target]
  | _ => []

/-- The window that gets the focus when the focused one is closed. -/
def nextWindow (s : Session F) (windowId pick : ℕ) : ℕ :=
  let windows := s.windows.erase windowId
  windows.keys.getD (pick % windows.size) s.focusedWindowId

end Session

/-- A session together with the total size each window was last laid out for. -/
structure Tracked (F : Type) where
  session : Session F
  laid : ℕ → ℕ × ℕ

namespace Tracked

/-- A fresh session: its window is laid out for the size of the session. -/
def start (s : Session F) : Tracked F := ⟨s, fun _ => (s.cols, s.rows)⟩

/-- A request, recording which windows it lays out. -/
def step (t : Tracked F) (r : Request F) : Tracked F :=
  let s := t.session.step r
  ⟨s, (t.session.laidOut r).foldl (fun laid id => Function.update laid id (s.cols, s.rows)) t.laid⟩

/-- When a request keeps the focused window in sync: what it asks of a zoomed window, and of the
    size a window that gets the focus was laid out for. -/
def Ok (t : Tracked F) : Request F → Prop
  | .window r => ∀ w, t.session.focusedWindow = some w → w.SyncOk t.session.cols t.session.rows r
  | .closeWindow windowId pick => windowId = t.session.focusedWindowId → 2 ≤ t.session.windows.size →
      windowId ∈ t.session.windows →
      t.laid (t.session.nextWindow windowId pick) = (t.session.cols, t.session.rows)
  | .focusWindow windowId => windowId ∈ t.session.windows →
      t.laid windowId = (t.session.cols, t.session.rows)
  | .resize _ _ => ∀ w, t.session.focusedWindow = some w → w.zoomed = true →
      w.focusedPaneId ∈ w.panes → w.WellFormed ∧ w.paneCount = 1
  | .breakPane _ => ∀ w, t.session.focusedWindow = some w → w.TakeOk
  | .joinPane target => t.session.focusedWindowId ≠ target →
      ∀ w, t.session.focusedWindow = some w → w.TakeOk
  | _ => True

/-- The invariant: every window is in sync at its size, and the focused one at the session's. -/
structure Synced (t : Tracked F) : Prop where
  windows : AllSynced t.session.windows t.laid
  focus : t.session.focusedWindowId ∈ t.session.windows →
    t.laid t.session.focusedWindowId = (t.session.cols, t.session.rows)

variable {t : Tracked F}

theorem Synced.focused (h : t.Synced) {w : Window F} (hw : t.session.focusedWindow = some w) :
    w.Ordered ∧ w.InSync t.session.cols t.session.rows := by
  have := h.windows _ w hw
  rwa [h.focus (mem_iff_getElem?.2 ⟨w, hw⟩)] at this

theorem Synced.focusedInSync (h : t.Synced) : t.session.FocusedInSync :=
  fun _ hw => (h.focused hw).2

omit [Ratio F] in
theorem mem_focused {w : Window F} (hw : t.session.focusedWindow = some w) :
    t.session.focusedWindowId ∈ t.session.windows := mem_iff_getElem?.2 ⟨w, hw⟩

theorem Synced.window (h : t.Synced) (r : WindowRequest F) (hok : t.Ok (.window r)) :
    (t.step (.window r)).Synced := by
  refine ⟨h.windows.modify fun w hw ho hs => ?_, fun hmem => h.focus (mem_modify.1 hmem)⟩
  rw [h.focus (mem_focused hw)] at hs ⊢
  exact ⟨ho.step _, hs.request ho r (hok w hw)⟩

theorem Synced.newWindow (h : t.Synced) (windowId paneId : ℕ) (opened : Except String Unit) :
    (t.step (.newWindow windowId paneId opened)).Synced := by
  cases opened with
  | error text => exact h
  | ok u => exact ⟨h.windows.insert (Window.new_laidOut ..), fun _ => Function.update_self ..⟩

theorem Synced.closeWindow (h : t.Synced) (windowId pick : ℕ)
    (hok : t.Ok (.closeWindow windowId pick)) : (t.step (.closeWindow windowId pick)).Synced := by
  simp only [Tracked.step, Session.step, Session.removeWindow, Session.laidOut, List.foldl_nil]
  by_cases hsize : t.session.windows.size ≤ 1
  · rwa [if_pos hsize]
  by_cases hmem : windowId ∈ t.session.windows
  swap
  · rwa [if_neg hsize, if_pos hmem]
  rw [if_neg hsize, if_neg (not_not.2 hmem)]
  refine ⟨h.windows.erase windowId, fun hfocus => ?_⟩
  by_cases he : t.session.focusedWindowId = windowId
  · rw [if_pos he]
    exact hok he.symm (by omega) hmem
  · simp only [if_neg he] at hfocus ⊢
    exact h.focus (mem_erase_eq.1 hfocus).2

theorem Synced.focusWindow (h : t.Synced) (windowId : ℕ) (hok : t.Ok (.focusWindow windowId)) :
    (t.step (.focusWindow windowId)).Synced := by
  simp only [Tracked.step, Session.step, Session.focusWindow, Session.laidOut, List.foldl_nil]
  by_cases hmem : windowId ∈ t.session.windows
  · rw [if_neg (not_not.2 hmem)]
    exact ⟨h.windows, hok⟩
  · rwa [if_pos hmem]

theorem Synced.renameWindow (h : t.Synced) (windowId : ℕ) (name : String) :
    (t.step (.renameWindow windowId name)).Synced := by
  simp only [Tracked.step, Session.step, Session.renameWindow, Session.laidOut, List.foldl_nil]
  by_cases hmem : windowId ∈ t.session.windows
  · rw [if_neg (not_not.2 hmem)]
    exact ⟨h.windows.modify (f := fun w => { w with name := name }) fun w _ ho hs => ⟨ho, hs⟩,
      fun hf => h.focus (mem_modify.1 hf)⟩
  · rwa [if_pos hmem]

theorem Synced.resize (h : t.Synced) (cols rows : ℕ) (hok : t.Ok (.resize cols rows)) :
    (t.step (.resize cols rows)).Synced := by
  simp only [Tracked.step, Session.step, Session.resizeFocused, Session.laidOut, List.foldl_cons,
    List.foldl_nil]
  by_cases hmem : t.session.focusedWindowId ∈ t.session.windows
  · obtain ⟨w, hw⟩ := mem_iff_getElem?.1 hmem
    have ho := (h.windows _ w hw).1
    rw [if_neg (not_not.2 hmem)]
    dsimp only
    rw [modify_eq_insert _ hw]
    refine ⟨h.windows.insert ⟨ho.resizeAllPanes cols rows, ?_⟩, fun _ => Function.update_self ..⟩
    exact Window.inSync_resizeAll ho (hok w hw)
  · rw [if_pos hmem]
    exact ⟨h.windows.absent hmem _, fun hf => absurd hf hmem⟩

/-- The focused window after a take that failed. -/
theorem Synced.failedTake (h : t.Synced) {w : Window F}
    (hw : w.Ordered ∧ w.InSync t.session.cols t.session.rows)
    (hmem : t.session.focusedWindowId ∈ t.session.windows) :
    Synced ⟨{ t.session with windows := t.session.windows.insert t.session.focusedWindowId w },
      t.laid⟩ := by
  refine ⟨h.windows.replace ?_, fun _ => h.focus hmem⟩
  rwa [h.focus hmem]

theorem Synced.breakPane (h : t.Synced) (newId : ℕ) (hok : t.Ok (.breakPane newId)) :
    (t.step (.breakPane newId)).Synced := by
  simp only [Tracked.step, Session.step, Session.laidOut, Session.breakPane]
  cases hw : t.session.windows[t.session.focusedWindowId]? with
  | none => exact h
  | some w =>
    obtain ⟨ho, hs⟩ := h.focused hw
    have htake := Window.takeFocusedPane_synced ho hs (hok w hw)
    dsimp only
    generalize w.takeFocusedPane t.session.cols t.session.rows = res at htake ⊢
    obtain ⟨w', taken⟩ := res
    cases taken with
    | none => exact h.failedTake htake (mem_focused hw)
    | some pane =>
      exact ⟨(h.windows.insert htake).insert (Window.newWithPane_laidOut ..),
        fun _ => Function.update_self ..⟩

theorem Synced.joinPane (h : t.Synced) (target : ℕ) (hok : t.Ok (.joinPane target)) :
    (t.step (.joinPane target)).Synced := by
  simp only [Tracked.step, Session.step, Session.laidOut, Session.joinPane]
  by_cases hsame : t.session.focusedWindowId = target
  · rwa [if_pos hsame]
  rw [if_neg hsame]
  cases hw : t.session.windows[t.session.focusedWindowId]? with
  | none => exact h
  | some w =>
    obtain ⟨ho, hs⟩ := h.focused hw
    have htake := Window.takeFocusedPane_synced ho hs (hok hsame w hw)
    dsimp only
    generalize w.takeFocusedPane t.session.cols t.session.rows = res at htake ⊢
    obtain ⟨w', taken⟩ := res
    cases taken with
    | none => exact h.failedTake htake (mem_focused hw)
    | some pane =>
      dsimp only
      cases hwt : (t.session.windows.insert t.session.focusedWindowId w')[target]? with
      | none => exact h.failedTake htake (mem_focused hw)
      | some v =>
        have hv := (h.windows.insert htake) target v hwt
        exact ⟨(h.windows.insert htake).insert (Window.insertPaneAt_laidOut hv.1 ..),
          fun _ => Function.update_self ..⟩

theorem Synced.movePane (h : t.Synced) (paneId target : ℕ) (insertAt : Option ℕ)
    (newId pick : ℕ) : (t.step (.movePane paneId target insertAt newId pick)).Synced := by
  simp only [Tracked.step, Session.step, Session.laidOut, Session.movePane]
  cases hsource : t.session.sourceWindow paneId pick with
  | none => exact h
  | some source =>
    obtain ⟨w, hw, hids⟩ := Session.sourceWindow_some hsource
    by_cases hsame : source = target
    · simp only [hsame, if_true]
      exact h
    simp only [hsame, if_false]
    rcases ht : t.session.takeFrom source paneId with ⟨s', res⟩
    cases res with
    | error e =>
      -- the window may be gone, nothing has been laid out
      rcases Session.takeFrom_cases hw hids with
        ⟨-, -, e', ht'⟩ | ⟨-, -, e', ht'⟩ | ⟨windows, pane, -, ht'⟩
      · rw [ht] at ht'
        obtain ⟨rfl, -⟩ := Prod.mk.inj ht'
        exact ⟨h.windows.erase source, fun hf => h.focus (mem_erase_eq.1 hf).2⟩
      · rw [ht] at ht'
        obtain ⟨rfl, -⟩ := Prod.mk.inj ht'
        exact h
      · rw [ht] at ht'
        cases (Prod.mk.inj ht').2
    | ok pane =>
      obtain ⟨windows, hwindows, hsub, rfl⟩ := h.windows.takeFrom ht
      dsimp only
      rcases Session.putInto_cases (s := { t.session with windows := windows }) pane target
        insertAt newId with ⟨-, -, hp⟩ | ⟨-, s'', d, hp⟩
      · -- the pane is dropped; its window has been laid out
        rw [hp]
        refine ⟨hwindows, fun hf => ?_⟩
        dsimp only [List.foldl_cons, List.foldl_nil]
        by_cases he : t.session.focusedWindowId = source
        · rw [he, Function.update_self]
        · rw [Function.update_of_ne he]
          exact h.focus (hsub _ hf)
      · rw [hp]
        obtain ⟨windows', hwindows', rfl⟩ := AllSynced.putInto (by exact hwindows) hp
        exact ⟨hwindows', fun _ => Function.update_self ..⟩

theorem Synced.step (h : t.Synced) (r : Request F) (hok : t.Ok r) : (t.step r).Synced := by
  cases r with
  | window r => exact h.window r hok
  | newWindow windowId paneId opened => exact h.newWindow windowId paneId opened
  | closeWindow windowId pick => exact h.closeWindow windowId pick hok
  | focusWindow windowId => exact h.focusWindow windowId hok
  | renameWindow windowId name => exact h.renameWindow windowId name
  | resize cols rows => exact h.resize cols rows hok
  | breakPane newId => exact h.breakPane newId hok
  | movePane paneId target insertAt newId pick => exact h.movePane paneId target insertAt newId pick
  | joinPane target => exact h.joinPane target hok

theorem synced_start {s₀ : Session F} {cols rows windowId paneId : ℕ} {opened : Except String Unit}
    (h₀ : Session.new cols rows windowId paneId opened = .ok s₀) : (start s₀).Synced := by
  rw [Session.new_ok h₀]
  refine ⟨fun id w hw => ?_, fun _ => rfl⟩
  simp only [start] at hw ⊢
  rw [getElem?_insert_eq] at hw
  split_ifs at hw
  · cases hw
    exact Window.new_laidOut ..
  · simp at hw

end Tracked

namespace Session

/-- **Sizes and layout agree over runs.**  From a new session, if every request of a run meets
    its condition, the PTY panes of the focused window have the sizes of its layout message in
    every state of the run. -/
theorem inSync_run {s₀ : Session F} {cols rows windowId paneId : ℕ} {opened : Except String Unit}
    (h₀ : new cols rows windowId paneId opened = .ok s₀) (ops : List (Request F))
    (hok : Runs.Along Tracked.step Tracked.Ok (Tracked.start s₀) ops) :
    Runs.Always step FocusedInSync s₀ ops := by
  have hsynced : Runs.Always Tracked.step Tracked.Synced (Tracked.start s₀) ops :=
    Runs.always_of_along (fun t r h hr => h.step r hr) (Tracked.synced_start h₀) hok
  have hsync : Runs.Always Tracked.step (fun t => t.session.FocusedInSync) (Tracked.start s₀) ops :=
    hsynced.imp fun t h => h.focusedInSync
  exact hsync.forget fun _ _ => rfl

/-- A split and a zoom toggle in a fresh session. -/
theorem inSync_run_split : Runs.Always step FocusedInSync startSession
    [.window (.split .vertical 2 (.ok ())), .window .toggleZoom] :=
  inSync_run (rfl : new 80 24 1 1 (.ok ()) = .ok startSession) _
    ⟨fun w hw => by
      have h : startSession.focusedWindow =
          some (.ofPane 1 "window-1" ⟨1, 80, 24⟩ 80 24) := by decide +kernel
      cases h.symm.trans hw
      exact fun _ => ⟨rfl, rfl, by decide⟩,
    fun w _ => trivial, trivial⟩

/-- The focused window is not in sync: a swap of panes of different sizes, a split of a zoomed
    window, a ratio change in one, and a window that was not focused when the session was
    resized. -/
theorem sizes_diverge :
    Session.new 80 24 1 1 (.ok ()) = .ok startSession ∧
    ¬(Runs.run step startSession [.window (.split .vertical 2 (.ok ())),
      .window (.split .horizontal 3 (.ok ())), .window (.swapPane 1)]).FocusedInSync ∧
    ¬(Runs.run step startSession [.window .toggleZoom,
      .window (.split .vertical 2 (.ok ()))]).FocusedInSync ∧
    ¬(Runs.run step startSession [.window (.split .vertical 2 (.ok ())), .window .toggleZoom,
      .window (.focusPane 1)]).FocusedInSync ∧
    ¬(Runs.run step startSession [.newWindow 2 2 (.ok ()), .resize 100 30,
      .focusWindow 1]).FocusedInSync := by
  refine ⟨rfl, ?_, ?_, ?_, ?_⟩ <;> decide +kernel

end Session

end Nexterm.Server

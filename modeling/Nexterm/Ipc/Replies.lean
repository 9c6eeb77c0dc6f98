/-
  The requests of several clients on one session (`pane_dispatch.rs`, `window_dispatch.rs`).

  * `tasks`: what a handler has to do after its first lock; it sends to its own client only, and
    some handlers look at the session once more before they do.
  * `AnswersLayout`, `AnswersWindows`: when the client is sent the layout of the focused window,
    and when it is sent the window list.
  * `layoutView`, `windowsView`: these two parts of the session, as the clients see them.
  * `Covered`, `clients_agree`: when the clients agree with the session.
-/
import Nexterm.Lib.Watch
import Nexterm.Server.Session

namespace Nexterm.Server

open Std.ExtTreeMap

variable {F : Type} [Ratio F]

/-- The layout of the focused window. -/
def Session.layoutMsg (s : Session F) : Option LayoutChanged :=
  s.focusedWindow.map (·.layoutChangedMsg s.cols s.rows)

/-! ## The focused window after a request -/

namespace Session

variable {s s' : Session F}

theorem layoutMsg_eq {w : Window F} (h : s.focusedWindow = some w) :
    s.layoutMsg = some (w.layoutChangedMsg s.cols s.rows) := by
  rw [layoutMsg, h]
  rfl

omit [Ratio F] in
theorem addWindow_ok {windowId paneId id : ℕ} {opened : Except String Unit}
    (h : s.addWindow windowId paneId opened = (s', .ok id)) :
    ∃ w, s'.focusedWindow = some w ∧ w.focusedPaneId ∈ w.panes := by
  obtain text | _ := opened
  · cases h
  · cases h
    exact ⟨_, getElem?_insert_self, mem_insert_self⟩

omit [Ratio F] in
theorem focusWindow_ok {windowId : ℕ} (h : s.focusWindow windowId = (s', .ok ())) :
    ∃ w, s'.focusedWindow = some w := by
  unfold focusWindow at h
  split_ifs at h with hmem
  · cases h
    exact Option.isSome_iff_exists.1 (mem_iff_isSome_getElem?.1 hmem)
  · cases h

theorem resizeFocused_ok {cols rows : ℕ} (h : s.resizeFocused cols rows = (s', .ok ())) :
    ∃ w, s'.focusedWindow = some w := by
  unfold resizeFocused at h
  dsimp only at h
  split_ifs at h with hmem
  · cases h
    exact Option.isSome_iff_exists.1 (mem_iff_isSome_getElem?.1 (mem_modify.2 hmem))
  · cases h

theorem resizeFocused_error {cols rows : ℕ} {e : SessionError}
    (h : s.resizeFocused cols rows = (s', .error e)) : s'.layoutMsg = none := by
  unfold resizeFocused at h
  dsimp only at h
  split_ifs at h with hmem
  · cases h
  · cases h
    unfold layoutMsg focusedWindow
    rw [getElem?_eq_none hmem]
    rfl

theorem breakPane_ok {newId id : ℕ} (h : s.breakPane newId = (s', .ok id)) :
    ∃ w, s'.focusedWindow = some w := by
  unfold breakPane at h
  split at h
  · cases h
  · split at h
    · cases h
    · cases h
      exact ⟨_, getElem?_insert_self⟩

theorem joinPane_ok {target id : ℕ} (h : s.joinPane target = (s', .ok id)) :
    ∃ w, s'.focusedWindow = some w := by
  unfold joinPane at h
  split_ifs at h
  · cases h
  · split at h
    · cases h
    · split at h
      · cases h
      · dsimp only at h
        split at h
        · cases h
        · cases h
          exact ⟨_, getElem?_insert_self⟩

theorem putInto_ok {pane : Pane} {target newId destination : ℕ} {insertAt : Option ℕ}
    (h : s.putInto pane target insertAt newId = (s', .ok destination)) :
    s'.focusedWindowId = destination ∧ ∃ w, s'.focusedWindow = some w := by
  unfold putInto at h
  split_ifs at h
  · cases h
    exact ⟨rfl, _, getElem?_insert_self⟩
  · split at h
    · cases h
    · cases h
      exact ⟨rfl, _, getElem?_insert_self⟩

theorem movePane_ok {paneId target newId pick source destination id : ℕ} {insertAt : Option ℕ}
    (h : s.movePane paneId target insertAt newId pick = (s', .ok (source, destination, id))) :
    s'.focusedWindowId = destination ∧ ∃ w, s'.focusedWindow = some w := by
  unfold movePane at h
  split at h
  · cases h
  · split_ifs at h
    · cases h
    · split at h
      · cases h
      · split at h
        · cases h
        · next hput =>
          cases h
          exact putInto_ok hput

end Session

end Nexterm.Server

namespace Nexterm.Ipc

open Std.ExtTreeMap Server

/-- The messages of the handlers; of a full refresh only whose it is. -/
inductive SessionMsg
  | layoutChanged (layout : LayoutChanged)
  | windowListChanged (windows : List WindowInfo)
  | fullRefresh (paneId : ℕ)
  | paneClosed (paneId : ℕ)
  | paneBroken (newWindowId paneId : ℕ)
  | zoomChanged (isZoomed : Bool)
  | serialConnected (paneId : ℕ)
  | floatingPaneOpened (paneId : ℕ) (rect : FloatRect)
  | floatingPaneMoved (paneId : ℕ) (rect : FloatRect)
  | floatingPaneClosed (paneId : ℕ)
  | error (message : String)
  deriving DecidableEq

/-- What is left to do after the first lock: a send, or another lock and its sends. -/
inductive HandlerTask
  | send (msg : SessionMsg)
  /-- `handle_attach`: the refresh of the focused pane. -/
  | attachRefresh
  /-- `handle_attach`, `handle_connect_serial`: the layout. -/
  | layout
  | paneClosed (paneId : ℕ)
  | paneSplit (paneId : ℕ)
  | windowAdded
  /-- `handle_join_pane`: the refresh of the pane, if it is in the focused window. -/
  | joinRefresh (paneId : ℕ)
  /-- `handle_move_pane_to_window`: the refresh of the pane, if it is in that window. -/
  | moveRefresh (windowId paneId : ℕ)
  deriving DecidableEq

variable {F : Type} [Ratio F]

/-- A message for a part of the session that may be missing. -/
def sendLayout (layout : Option LayoutChanged) : List SessionMsg :=
  layout.toList.map .layoutChanged

/-- The refresh of a PTY pane of a window that may be missing. -/
def refreshOf (w : Option (Window F)) (paneId : ℕ) : List SessionMsg :=
  match w with
  | none => []
  | some w => if paneId ∈ w.panes then [.fullRefresh paneId] else []

/-- Perform a task on the session as it is by then. -/
def perform (s : Session F) : HandlerTask → List SessionMsg
  | .send msg => [msg]
  | .attachRefresh =>
    match s.focusedWindow with
    | none => []
    | some w =>
      if w.focusedPaneId ∈ w.panes ∨ w.focusedPaneId ∈ w.serialPanes then
        [.fullRefresh w.focusedPaneId]
      else []
  | .layout => sendLayout s.layoutMsg
  | .paneClosed paneId => .paneClosed paneId :: sendLayout s.layoutMsg
  | .paneSplit paneId =>
    match s.layoutMsg with
    | none => []
    | some layout => [.fullRefresh paneId, .layoutChanged layout]
  | .windowAdded =>
    match s.focusedWindow with
    | none => []
    | some w =>
      -- a window whose focused pane is a serial port is not shown
      if w.focusedPaneId ∈ w.panes then
        [.fullRefresh w.focusedPaneId, .layoutChanged (w.layoutChangedMsg s.cols s.rows)]
      else []
  | .joinRefresh paneId => refreshOf s.focusedWindow paneId
  | .moveRefresh windowId paneId => refreshOf s.windows[windowId]? paneId

/-! ## The handlers -/

/-- Answer with the layout of the window. -/
def sendLayoutOf (w : Window F) (cols rows : ℕ) : HandlerTask :=
  .send (.layoutChanged (w.layoutChangedMsg cols rows))

/-- Answer a request on the focused window. -/
def windowTasks (w : Window F) (cols rows : ℕ) : WindowRequest F → List HandlerTask
  | .split dir newId opened =>
    match (w.addPaneWithOptions newId cols rows dir opened).2 with
    | .ok paneId => [.paneSplit paneId]
    | .error e => [.send (.error e.message)]
  | .connectSerial dir newId opened =>
    match (w.addSerialPane newId cols rows dir opened).2 with
    | .ok paneId => [.send (.serialConnected paneId), .layout]
    | .error e => [.send (.error e.message)]
  | .closePane =>
    match (w.removeFocusedPane cols rows).2 with
    | .ok removedId => [.paneClosed removedId]
    | .error e => [.send (.error e.message)]
  | .swapPane targetPaneId => [sendLayoutOf (w.swapFocusedWith targetPaneId) cols rows]
  | .reorderPanes paneIds =>
    match w.reorderPanes paneIds with
    | (w, true) => [sendLayoutOf w cols rows]
    | (_, false) => []
  | .focusPane paneId => [sendLayoutOf (w.setFocusedPane paneId) cols rows]
  | .focusNextPane => [sendLayoutOf w.focusNext cols rows]
  | .focusPrevPane => [sendLayoutOf w.focusPrev cols rows]
  | .toggleZoom =>
    let (w, isZoomed) := w.toggleZoom cols rows
    [.send (.zoomChanged isZoomed), sendLayoutOf w cols rows]
  | .setLayoutMode mode => [sendLayoutOf (w.setLayoutMode mode cols rows) cols rows]
  | .resizeSplit delta => [sendLayoutOf (w.adjustSplitRatio delta cols rows) cols rows]
  | .openFloatingPane newId opened =>
    match (w.openFloatingPane newId cols rows opened).2 with
    | .ok (paneId, rect) => [.send (.floatingPaneOpened paneId rect)]
    | .error e => [.send (.error e.message)]
  | .closeFloatingPane paneId =>
    if (w.closeFloatingPane paneId).2 then [.send (.floatingPaneClosed paneId)] else []
  | .moveFloatingPane paneId colOff rowOff =>
    match (w.moveFloatingPane paneId colOff rowOff).2 with
    | some rect => [.send (.floatingPaneMoved paneId rect)]
    | none => []
  | .resizeFloatingPane paneId fpCols fpRows =>
    match (w.resizeFloatingPane paneId fpCols fpRows).2 with
    | some rect => [.send (.floatingPaneMoved paneId rect)]
    | none => []

/-- Answer a request on the focused window if there is none. -/
def noWindowTasks : WindowRequest F → List HandlerTask
  | .connectSerial _ _ _ => [.send (.error SessionError.focusedWindowNotFound.message)]
  | _ => []

/-- Answer a request: what the handler that changes the session has to do next. -/
def tasks (s : Session F) : Request F → List HandlerTask
  | .window r =>
    match s.focusedWindow with
    | none => noWindowTasks r
    | some w => windowTasks w s.cols s.rows r
  | .newWindow windowId paneId opened =>
    match s.addWindow windowId paneId opened with
    | (s, .ok _) => [.send (.windowListChanged s.windowList), .windowAdded]
    | (_, .error e) => [.send (.error e.message)]
  | .closeWindow windowId pick =>
    match s.removeWindow windowId pick with
    | (s, .ok ()) => [.send (.windowListChanged s.windowList)]
    | (_, .error e) => [.send (.error e.message)]
  | .focusWindow windowId =>
    match s.focusWindow windowId with
    | (s, .ok ()) =>
      match s.focusedWindow with
      | none => []
      | some w => [.send (.windowListChanged s.windowList), sendLayoutOf w s.cols s.rows] ++
          (refreshOf (some w) w.focusedPaneId).map .send
    | (_, .error e) => [.send (.error e.message)]
  | .renameWindow windowId name =>
    match s.renameWindow windowId name with
    | (s, .ok ()) => [.send (.windowListChanged s.windowList)]
    | (_, .error e) => [.send (.error e.message)]
  | .resize cols rows => (sendLayout (s.resizeFocused cols rows).1.layoutMsg).map .send
  | .breakPane newId =>
    let oldLayout := s.layoutMsg
    match s.breakPane newId with
    | (s, .ok newWindowId) =>
      [.send (.paneBroken newWindowId ((s.focusedWindow.map (·.focusedPaneId)).getD 0)),
        .send (.windowListChanged s.windowList)] ++
          (sendLayout oldLayout ++ sendLayout s.layoutMsg).map .send
    | (_, .error _) => []
  | .movePane paneId target insertAt newId pick =>
    match s.movePane paneId target insertAt newId pick with
    | (s, .ok (source, destination, movedId)) =>
      let layoutOf := fun id => s.windows[id]?.map (·.layoutChangedMsg s.cols s.rows)
      .send (.windowListChanged s.windowList) ::
        (sendLayout (layoutOf source) ++ sendLayout (layoutOf destination)).map .send ++
          [.moveRefresh destination movedId]
    | (_, .error _) => []
  | .joinPane target =>
    match s.joinPane target with
    | (s, .ok paneId) =>
      .send (.windowListChanged s.windowList) ::
        (sendLayout s.layoutMsg).map .send ++ [.joinRefresh paneId]
    | (_, .error _) => []

/-! ## The clients -/

/-- What a client was last told of the session. -/
structure Told where
  layout : Option LayoutChanged
  windows : Option (List WindowInfo)
  deriving DecidableEq

/-- The client takes a message. -/
def Told.apply (c : Told) : SessionMsg → Told
  | .layoutChanged layout => { c with layout := some layout }
  | .windowListChanged windows => { c with windows := some windows }
  | _ => c

/-- A session with its connections. -/
def server (F : Type) [Ratio F] :
    Watch.Server (Session F) (Request F) HandlerTask SessionMsg Told where
  lock s r := (s.step r, tasks s r)
  perform := perform
  greeting := [.attachRefresh, .layout]
  blank := ⟨none, none⟩
  apply := Told.apply

/-- The layout in a message. -/
def SessionMsg.layout : SessionMsg → Option LayoutChanged
  | .layoutChanged layout => some layout
  | _ => none

/-- The window list in a message. -/
def SessionMsg.windows : SessionMsg → Option (List WindowInfo)
  | .windowListChanged windows => some windows
  | _ => none

/-! ## Which requests are answered with what -/

/-- A request on the focused window is answered with the layout. -/
def LayoutAnswered (w : Window F) (cols rows : ℕ) : WindowRequest F → Prop
  | .split dir newId opened => (w.addPaneWithOptions newId cols rows dir opened).2.isOk
  | .connectSerial dir newId opened => (w.addSerialPane newId cols rows dir opened).2.isOk
  | .closePane => (w.removeFocusedPane cols rows).2.isOk
  | .reorderPanes paneIds => (w.reorderPanes paneIds).2
  | .swapPane _ | .focusPane _ | .focusNextPane | .focusPrevPane | .toggleZoom
  | .setLayoutMode _ | .resizeSplit _ => True
  | .openFloatingPane _ _ | .closeFloatingPane _ | .moveFloatingPane _ _ _
  | .resizeFloatingPane _ _ _ => False

/-- A request is answered with the layout of the focused window. -/
def AnswersLayout (s : Session F) : Request F → Prop
  | .window r => ∃ w ∈ s.focusedWindow, LayoutAnswered w s.cols s.rows r
  | .newWindow windowId paneId opened => (s.addWindow windowId paneId opened).2.isOk
  | .focusWindow windowId => (s.focusWindow windowId).2.isOk
  | .resize cols rows => (s.resizeFocused cols rows).2.isOk
  | .breakPane newId => (s.breakPane newId).2.isOk
  | .movePane paneId target insertAt newId pick =>
    (s.movePane paneId target insertAt newId pick).2.isOk
  | .joinPane target => (s.joinPane target).2.isOk
  | .closeWindow _ _ | .renameWindow _ _ => False

/-- A request is answered with the window list. -/
def AnswersWindows (s : Session F) : Request F → Prop
  | .newWindow windowId paneId opened => (s.addWindow windowId paneId opened).2.isOk
  | .closeWindow windowId pick => (s.removeWindow windowId pick).2.isOk
  | .focusWindow windowId => (s.focusWindow windowId).2.isOk
  | .renameWindow windowId name => (s.renameWindow windowId name).2.isOk
  | .breakPane newId => (s.breakPane newId).2.isOk
  | .movePane paneId target insertAt newId pick =>
    (s.movePane paneId target insertAt newId pick).2.isOk
  | .joinPane target => (s.joinPane target).2.isOk
  | .window _ | .resize _ _ => False

/-! ## What the answers say -/

open Watch

@[simp] theorem last_layout_sendLayout (layout : Option LayoutChanged) :
    last SessionMsg.layout (sendLayout layout) = layout := by cases layout <;> rfl

@[simp] theorem last_windows_sendLayout (layout : Option LayoutChanged) :
    last SessionMsg.windows (sendLayout layout) = none := by cases layout <;> rfl

omit [Ratio F] in
theorem last_refreshOf {β : Type} {carried : SessionMsg → Option β}
    (h : ∀ id, carried (.fullRefresh id) = none) (w : Option (Window F)) (paneId : ℕ) :
    last carried (refreshOf w paneId) = none := by
  unfold refreshOf
  cases w with
  | none => rfl
  | some w =>
    dsimp only
    split_ifs
    · simp [h]
    · rfl

omit [Ratio F] in
@[simp] theorem last_layout_refreshOf (w : Option (Window F)) (paneId : ℕ) :
    last SessionMsg.layout (refreshOf w paneId) = none := last_refreshOf (fun _ => rfl) w paneId

omit [Ratio F] in
@[simp] theorem last_windows_refreshOf (w : Option (Window F)) (paneId : ℕ) :
    last SessionMsg.windows (refreshOf w paneId) = none := last_refreshOf (fun _ => rfl) w paneId

@[simp] theorem flatMap_send (s : Session F) (msgs : List SessionMsg) :
    (msgs.map HandlerTask.send).flatMap (perform s) = msgs := by
  rw [List.flatMap_map]
  exact List.flatMap_singleton' msgs

@[simp] theorem perform_send (s : Session F) (msg : SessionMsg) : perform s (.send msg) = [msg] := rfl

theorem last_flatMap_eq_none {β : Type} {carried : SessionMsg → Option β} {s : Session F}
    {ts : List HandlerTask} (h : ∀ t ∈ ts, last carried (perform s t) = none) :
    last carried (ts.flatMap (perform s)) = none := by
  induction ts with
  | nil => rfl
  | cons t ts ih =>
    rw [List.flatMap_cons, last_append, h t List.mem_cons_self,
      ih fun t' ht' => h t' (List.mem_cons_of_mem _ ht')]
    rfl

/-! ### The layout -/

/-- The layout after a request on the focused window. -/
theorem layoutMsg_step {s : Session F} {w : Window F} (h : s.focusedWindow = some w)
    (r : WindowRequest F) : (s.step (.window r)).layoutMsg =
      some ((w.step (r.op s.cols s.rows)).layoutChangedMsg s.cols s.rows) := by
  have hw : s.windows[s.focusedWindowId]? = some w := h
  simp [Session.layoutMsg, Session.focusedWindow, Session.step, getElem?_modify_self, hw]

/-- If the request is answered, there is a part `value`, and the messages carry it; otherwise they
    carry none. -/
structure Says {β : Type} (carried : SessionMsg → Option β) (msgs : List SessionMsg)
    (answered : Prop) (value : Option β) : Prop where
  told : answered → ∃ v, value = some v ∧ last carried msgs = some v
  silent : ¬answered → last carried msgs = none

section Says

variable {β : Type} {carried : SessionMsg → Option β} {msgs : List SessionMsg} {answered : Prop}
  {value : Option β}

theorem Says.yes {v : β} (ha : answered) (hvalue : value = some v)
    (h : last carried msgs = some v) : Says carried msgs answered value :=
  ⟨fun _ => ⟨v, hvalue, h⟩, fun hnot => absurd ha hnot⟩

theorem Says.no (ha : ¬answered) (h : last carried msgs = none) :
    Says carried msgs answered value :=
  ⟨fun hyes => absurd hyes ha, fun _ => h⟩

end Says

/-- A request on the focused window is answered with its layout or without any. -/
theorem says_windowTasks {s : Session F} {w : Window F} {cols rows : ℕ} (r : WindowRequest F)
    (h : s.layoutMsg = some ((w.step (r.op cols rows)).layoutChangedMsg cols rows)) :
    Says SessionMsg.layout ((windowTasks w cols rows r).flatMap (perform s))
      (LayoutAnswered w cols rows r) s.layoutMsg := by
  cases r with
  | split dir newId opened =>
    dsimp only [windowTasks, LayoutAnswered]
    rcases (w.addPaneWithOptions newId cols rows dir opened).2 with e | paneId
    · exact .no Bool.false_ne_true rfl
    · refine .yes rfl h ?_
      simp [perform, h, SessionMsg.layout]
  | connectSerial dir newId opened =>
    dsimp only [windowTasks, LayoutAnswered]
    rcases (w.addSerialPane newId cols rows dir opened).2 with e | paneId
    · exact .no Bool.false_ne_true rfl
    · refine .yes rfl h ?_
      simp [perform, h, SessionMsg.layout]
  | closePane =>
    dsimp only [windowTasks, LayoutAnswered]
    rcases (w.removeFocusedPane cols rows).2 with e | paneId
    · exact .no Bool.false_ne_true rfl
    · refine .yes rfl h ?_
      simp [perform, h, SessionMsg.layout]
  | reorderPanes paneIds =>
    replace h : s.layoutMsg = some ((w.reorderPanes paneIds).1.layoutChangedMsg cols rows) := h
    dsimp only [windowTasks, LayoutAnswered]
    rcases hr : w.reorderPanes paneIds with ⟨w', _ | _⟩
    · exact .no Bool.false_ne_true rfl
    · refine .yes rfl h ?_
      rw [hr]
      rfl
  | swapPane targetPaneId => exact .yes trivial h rfl
  | focusPane paneId => exact .yes trivial h rfl
  | focusNextPane => exact .yes trivial h rfl
  | focusPrevPane => exact .yes trivial h rfl
  | toggleZoom => exact .yes trivial h rfl
  | setLayoutMode mode => exact .yes trivial h rfl
  | resizeSplit delta => exact .yes trivial h rfl
  | openFloatingPane newId opened =>
    refine .no not_false ?_
    dsimp only [windowTasks]
    rcases (w.openFloatingPane newId cols rows opened).2 with e | ⟨paneId, rect⟩ <;> rfl
  | closeFloatingPane paneId =>
    refine .no not_false ?_
    dsimp only [windowTasks]
    split_ifs <;> rfl
  | moveFloatingPane paneId colOff rowOff =>
    refine .no not_false ?_
    dsimp only [windowTasks]
    rcases (w.moveFloatingPane paneId colOff rowOff).2 with _ | rect <;> rfl
  | resizeFloatingPane paneId fpCols fpRows =>
    refine .no not_false ?_
    dsimp only [windowTasks]
    rcases (w.resizeFloatingPane paneId fpCols fpRows).2 with _ | rect <;> rfl


/-- Every request is answered with the layout that it leaves behind or without any. -/
theorem says_layout (s : Session F) (r : Request F) :
    Says SessionMsg.layout ((tasks s r).flatMap (perform (s.step r))) (AnswersLayout s r)
      (s.step r).layoutMsg := by
  cases r with
  | window r =>
    dsimp only [tasks, AnswersLayout]
    cases hw : s.focusedWindow with
    | none =>
      refine .no (by simp) ?_
      cases r <;> rfl
    | some w =>
      have hsays := says_windowTasks r (layoutMsg_step hw r)
      refine ⟨?_, fun hnot => hsays.silent fun ha => hnot ⟨w, rfl, ha⟩⟩
      rintro ⟨w', hw', ha⟩
      obtain rfl := Option.some.inj hw'
      exact hsays.told ha
  | newWindow windowId paneId opened =>
    dsimp only [tasks, AnswersLayout, Session.step]
    rcases hadd : s.addWindow windowId paneId opened with ⟨s', e | id⟩
    · exact .no Bool.false_ne_true rfl
    · obtain ⟨w, hw, hpane⟩ := Session.addWindow_ok hadd
      refine .yes rfl (Session.layoutMsg_eq hw) ?_
      simp [perform, hw, hpane, SessionMsg.layout]
  | closeWindow windowId pick =>
    refine .no not_false ?_
    dsimp only [tasks]
    rcases s.removeWindow windowId pick with ⟨s', e | ⟨⟩⟩ <;> rfl
  | focusWindow windowId =>
    dsimp only [tasks, AnswersLayout, Session.step]
    rcases hfocus : s.focusWindow windowId with ⟨s', e | ⟨⟩⟩
    · exact .no Bool.false_ne_true rfl
    · obtain ⟨w, hw⟩ := Session.focusWindow_ok hfocus
      refine .yes rfl (Session.layoutMsg_eq hw) ?_
      simp [hw, SessionMsg.layout, sendLayoutOf]
  | renameWindow windowId name =>
    refine .no not_false ?_
    dsimp only [tasks]
    rcases s.renameWindow windowId name with ⟨s', e | ⟨⟩⟩ <;> rfl
  | resize cols rows =>
    dsimp only [tasks, AnswersLayout, Session.step]
    rw [flatMap_send]
    rcases hresize : s.resizeFocused cols rows with ⟨s', e | ⟨⟩⟩
    · refine .no Bool.false_ne_true ?_
      rw [last_layout_sendLayout, Session.resizeFocused_error hresize]
    · obtain ⟨w, hw⟩ := Session.resizeFocused_ok hresize
      have hlayout := Session.layoutMsg_eq hw
      exact .yes rfl hlayout ((last_layout_sendLayout _).trans hlayout)
  | breakPane newId =>
    dsimp only [tasks, AnswersLayout, Session.step]
    rcases hbreak : s.breakPane newId with ⟨s', e | id⟩
    · exact .no Bool.false_ne_true rfl
    · obtain ⟨w, hw⟩ := Session.breakPane_ok hbreak
      have hlayout := Session.layoutMsg_eq hw
      refine .yes rfl hlayout ?_
      simp [hlayout, SessionMsg.layout]
  | movePane paneId target insertAt newId pick =>
    dsimp only [tasks, AnswersLayout, Session.step]
    rcases hmove : s.movePane paneId target insertAt newId pick with
      ⟨s', e | ⟨source, destination, id⟩⟩
    · exact .no Bool.false_ne_true rfl
    · obtain ⟨rfl, w, hw⟩ := Session.movePane_ok hmove
      refine .yes rfl (Session.layoutMsg_eq hw) ?_
      have hw' : s'.windows[s'.focusedWindowId]? = some w := hw
      simp [perform, hw', SessionMsg.layout]
  | joinPane target =>
    dsimp only [tasks, AnswersLayout, Session.step]
    rcases hjoin : s.joinPane target with ⟨s', e | id⟩
    · exact .no Bool.false_ne_true rfl
    · obtain ⟨w, hw⟩ := Session.joinPane_ok hjoin
      have hlayout := Session.layoutMsg_eq hw
      refine .yes rfl hlayout ?_
      simp [perform, hlayout, SessionMsg.layout]

/-! ### The window list -/

/-- Only a window list that is sent is one. -/
theorem last_windows_perform (s : Session F) {t : HandlerTask}
    (h : ∀ windows, t ≠ .send (.windowListChanged windows)) :
    last SessionMsg.windows (perform s t) = none := by
  cases t with
  | send msg =>
    cases msg with
    | windowListChanged windows => exact absurd rfl (h windows)
    | _ => rfl
  | attachRefresh =>
    unfold perform
    dsimp only
    split
    · rfl
    · split_ifs <;> rfl
  | layout => exact last_windows_sendLayout _
  | paneClosed paneId => simp [perform, SessionMsg.windows]
  | paneSplit paneId =>
    unfold perform
    dsimp only
    split <;> rfl
  | windowAdded =>
    unfold perform
    dsimp only
    split
    · rfl
    · split_ifs <;> rfl
  | joinRefresh paneId => exact last_windows_refreshOf _ _
  | moveRefresh windowId paneId => exact last_windows_refreshOf _ _

/-- No request on the focused window is answered with the window list. -/
theorem windows_windowTasks (s : Session F) (w : Window F) (cols rows : ℕ) (r : WindowRequest F) :
    last SessionMsg.windows ((windowTasks w cols rows r).flatMap (perform s)) = none := by
  refine last_flatMap_eq_none ?_
  intro t ht
  refine last_windows_perform s ?_
  rintro windows rfl
  cases r <;> dsimp only [windowTasks] at ht
  all_goals (repeat' split at ht) <;> simp [sendLayoutOf] at ht

/-- Every request is answered with the window list that it leaves behind or without any. -/
theorem says_windows (s : Session F) (r : Request F) :
    Says SessionMsg.windows ((tasks s r).flatMap (perform (s.step r))) (AnswersWindows s r)
      (some (s.step r).windowList) := by
  cases r with
  | window r =>
    refine .no not_false ?_
    dsimp only [tasks]
    cases s.focusedWindow with
    | none => cases r <;> rfl
    | some w => exact windows_windowTasks _ w s.cols s.rows r
  | newWindow windowId paneId opened =>
    dsimp only [tasks, AnswersWindows, Session.step]
    rcases s.addWindow windowId paneId opened with ⟨s', e | id⟩
    · exact .no Bool.false_ne_true rfl
    · refine .yes rfl rfl ?_
      have hadded : last SessionMsg.windows (perform s' .windowAdded) = none :=
        last_windows_perform s' (by simp)
      simp [hadded, SessionMsg.windows]
  | closeWindow windowId pick =>
    dsimp only [tasks, AnswersWindows, Session.step]
    rcases s.removeWindow windowId pick with ⟨s', e | ⟨⟩⟩
    · exact .no Bool.false_ne_true rfl
    · exact .yes rfl rfl rfl
  | focusWindow windowId =>
    dsimp only [tasks, AnswersWindows, Session.step]
    rcases hfocus : s.focusWindow windowId with ⟨s', e | ⟨⟩⟩
    · exact .no Bool.false_ne_true rfl
    · obtain ⟨w, hw⟩ := Session.focusWindow_ok hfocus
      refine .yes rfl rfl ?_
      simp [hw, SessionMsg.windows, sendLayoutOf]
  | renameWindow windowId name =>
    dsimp only [tasks, AnswersWindows, Session.step]
    rcases s.renameWindow windowId name with ⟨s', e | ⟨⟩⟩
    · exact .no Bool.false_ne_true rfl
    · exact .yes rfl rfl rfl
  | resize cols rows =>
    refine .no not_false ?_
    dsimp only [tasks]
    rw [flatMap_send]
    exact last_windows_sendLayout _
  | breakPane newId =>
    dsimp only [tasks, AnswersWindows, Session.step]
    rcases s.breakPane newId with ⟨s', e | id⟩
    · exact .no Bool.false_ne_true rfl
    · refine .yes rfl rfl ?_
      simp [SessionMsg.windows]
  | movePane paneId target insertAt newId pick =>
    dsimp only [tasks, AnswersWindows, Session.step]
    rcases s.movePane paneId target insertAt newId pick with ⟨s', e | ⟨source, destination, id⟩⟩
    · exact .no Bool.false_ne_true rfl
    · refine .yes rfl rfl ?_
      have hrefresh : last SessionMsg.windows (perform s' (.moveRefresh destination id)) = none :=
        last_windows_perform s' (by simp)
      simp [hrefresh, SessionMsg.windows]
  | joinPane target =>
    dsimp only [tasks, AnswersWindows, Session.step]
    rcases s.joinPane target with ⟨s', e | id⟩
    · exact .no Bool.false_ne_true rfl
    · refine .yes rfl rfl ?_
      have hrefresh : last SessionMsg.windows (perform s' (.joinRefresh id)) = none :=
        last_windows_perform s' (by simp)
      simp [hrefresh, SessionMsg.windows]

/-! ## The views -/

/-- The layout of the focused window, as the clients see it. -/
def layoutView (F : Type) [Ratio F] : View (server F) LayoutChanged where
  value := Session.layoutMsg
  carried := SessionMsg.layout
  shown := Told.layout
  shown_apply _ msg := by cases msg <;> rfl
  greeted s layout hlayout := by
    have hgreeting : last SessionMsg.layout ([.attachRefresh, .layout].flatMap (perform s)) =
        s.layoutMsg := by
      have hrefresh : last SessionMsg.layout (perform s .attachRefresh) = none := by
        unfold perform
        dsimp only
        split
        · rfl
        · split_ifs <;> rfl
      have hlast : last SessionMsg.layout (perform s .layout) = s.layoutMsg :=
        last_layout_sendLayout _
      simp [hrefresh, hlast]
    exact hgreeting.symm.trans hlayout
  Answers := AnswersLayout
  answered {s r} h := (says_layout s r).told h
  unanswered {s r} h := (says_layout s r).silent h

/-- The window list, as the clients see it. -/
def windowsView (F : Type) [Ratio F] : View (server F) (List WindowInfo) where
  value s := some s.windowList
  carried := SessionMsg.windows
  shown := Told.windows
  shown_apply _ msg := by cases msg <;> rfl
  greeted s windows hwindows := by
    have hgreeting : last SessionMsg.windows ([.attachRefresh, .layout].flatMap (perform s)) = none :=
      last_flatMap_eq_none (by
        intro t ht
        refine last_windows_perform s ?_
        rintro windows rfl
        simp at ht)
    exact nomatch hgreeting.symm.trans hwindows
  Answers := AnswersWindows
  answered {s r} h := (says_windows s r).told h
  unanswered {s r} h := (says_windows s r).silent h

/-! ## Agreement -/

/-- However the queues are drained, what the clients were last told is what the session has. -/
def Settled (t : State (Session F) HandlerTask SessionMsg Told) : Prop :=
  (layoutView F).Settles t ∧ (windowsView F).Settles t

/-- Of the layout and of the window list: a request that changes it is answered with it, or the
    client has not been told it, and every other client has not been told it either or is still
    going to be told. -/
def Covered (t : State (Session F) HandlerTask SessionMsg Told) (o : Op (Request F)) : Prop :=
  (layoutView F).Covered t o ∧ (windowsView F).Covered t o

/-- **The clients agree with the session**, in every run of covered requests. -/
theorem clients_agree (s : Session F) (ops : List (Op (Request F)))
    (h : Runs.Along (server F).step Covered ⟨s, []⟩ ops) :
    Runs.Always (server F).step Settled ⟨s, []⟩ ops := by
  have hlayout : Runs.Always (server F).step (layoutView F).Settles ⟨s, []⟩ ops :=
    View.settles_run (by rintro c ⟨⟩) (h.imp fun _ _ hcovered => hcovered.1)
  have hwindows : Runs.Always (server F).step (windowsView F).Settles ⟨s, []⟩ ops :=
    View.settles_run (by rintro c ⟨⟩) (h.imp fun _ _ hcovered => hcovered.2)
  exact hlayout.and hwindows

/-- While no handler is at work, only covered requests keep the agreement. -/
theorem covered_iff {t : State (Session F) HandlerTask SessionMsg Told} {i : ℕ} {r : Request F}
    (hfree : ∀ c ∈ t.conns, c.todo = []) (h : Settled t) :
    Settled ((server F).step t (.request i r)) ↔ Covered t (.request i r) := by
  constructor
  · rintro ⟨hlayout, hwindows⟩
    exact ⟨View.covered_of_settles hfree h.1 hlayout, View.covered_of_settles hfree h.2 hwindows⟩
  · rintro ⟨hlayout, hwindows⟩
    exact ⟨View.settles_iff.2 (View.agreeing_step (View.settles_iff.1 h.1) hlayout),
      View.settles_iff.2 (View.agreeing_step (View.settles_iff.1 h.2) hwindows)⟩

/-- A session with one pane. -/
def onePane : Session ℚ where
  windows := (∅ : IdMap (Window ℚ)).insert 1 (Window.ofPane 1 "window-1" ⟨1, 80, 24⟩ 80 24)
  focusedWindowId := 1
  cols := 80
  rows := 24

/-- The focused pane is split. -/
def splitPane : Request ℚ := .window (.split .vertical 2 (.ok ()))

/-- The second client is told of the split by the greeting that it is still to get. -/
theorem clients_agree_split : Runs.Always (server ℚ).step Settled ⟨onePane, []⟩
    [.attach, .proceed 0, .proceed 0, .attach, .request 0 splitPane, .proceed 1, .proceed 1,
      .receive 1, .receive 1] := by
  refine clients_agree onePane _ ⟨⟨trivial, trivial⟩, ⟨trivial, trivial⟩, ⟨trivial, trivial⟩,
    ⟨trivial, trivial⟩, ⟨?_, ?_⟩, ⟨trivial, trivial⟩, ⟨trivial, trivial⟩, ⟨trivial, trivial⟩,
    ⟨trivial, trivial⟩, trivial⟩
  · intro c hc _
    refine ⟨.inl ⟨Window.ofPane 1 "window-1" ⟨1, 80, 24⟩ 80 24, ?_, ?_⟩, ?_⟩
    · decide +kernel
    · show ((Window.ofPane 1 "window-1" ⟨1, 80, 24⟩ 80 24).addPaneWithOptions 2 80 24 .vertical
        (.ok ())).2.isOk = true
      decide +kernel
    · intro j hj d hd
      have hlt : j < 2 := (List.getElem?_eq_some_iff.1 hd).1
      obtain rfl : j = 1 := by omega
      obtain rfl := Option.some.inj hd
      exact .inr (.inr ⟨⟨[⟨1, 0, 0, 40, 24, false⟩, ⟨2, 41, 0, 39, 24, true⟩], 2⟩,
        by decide +kernel, by decide +kernel⟩)
  · intro c hc _
    obtain rfl := Option.some.inj hc
    refine ⟨.inr (.inr (by decide +kernel)), ?_⟩
    intro j hj d hd
    have hlt : j < 2 := (List.getElem?_eq_some_iff.1 hd).1
    obtain rfl : j = 1 := by omega
    obtain rfl := Option.some.inj hd
    exact .inr (.inl (by decide +kernel))

/-- **The second client is not told** of a split if it has had its greeting. -/
theorem not_settled_split : ¬Settled (Runs.run (server ℚ).step ⟨onePane, []⟩
    [.attach, .proceed 0, .proceed 0, .attach, .proceed 1, .proceed 1, .request 0 splitPane]) := by
  rintro ⟨h, -⟩
  have hagreeing := View.settles_iff.1 h _ (List.mem_cons_of_mem _ List.mem_cons_self)
  have hvalue := hagreeing ⟨[⟨1, 0, 0, 80, 24, true⟩], 1⟩ (by decide +kernel)
  exact absurd hvalue (by decide +kernel)

end Nexterm.Ipc

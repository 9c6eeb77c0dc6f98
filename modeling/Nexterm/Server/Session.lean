/-
  A session: the windows, the focused window and the terminal size (`session.rs`).

  * `Session`: the state; a fallible operation returns the session it leaves behind together
    with its answer.
  * `breakPane`, `movePane`, `joinPane`: the moves of a pane between windows.
  * `Request`, `step`: what a client can ask of a session, as one step function; the requests
    on a window act on the focused one, at the size of the session.

  Where the code takes whatever a `HashMap` yields first, the operation has an argument `pick`.
-/
import Nexterm.Server.WindowInv

namespace Nexterm.Server

/-- The errors of the session operations. -/
inductive SessionError
  | window (error : WindowError)
  | lastWindow
  | windowNotFound (windowId : ℕ)
  | focusedWindowNotFound
  | cannotBreak
  | paneNotFound (paneId : ℕ)
  | alreadyIn (paneId windowId : ℕ)
  | sourceNotFound
  | cannotExtract (windowId : ℕ)
  | cannotTake (paneId windowId : ℕ)
  | sameWindow
  | cannotJoin
  deriving DecidableEq, Repr

/-- The text of an error. -/
def SessionError.message : SessionError → String
  | .window error => error.message
  | .lastWindow => "cannot remove the last remaining window"
  | .windowNotFound windowId => "window " ++ toString windowId ++ " not found"
  | .focusedWindowNotFound => "focused window not found"
  | .cannotBreak => "cannot break out the last remaining pane"
  | .paneNotFound paneId => "pane " ++ toString paneId ++ " not found"
  | .alreadyIn paneId windowId =>
    "pane " ++ toString paneId ++ " is already in window " ++ toString windowId
  | .sourceNotFound => "source window not found"
  | .cannotExtract windowId =>
    "cannot extract the last pane of window " ++ toString windowId ++
      " (unsupported pane such as serial)"
  | .cannotTake paneId windowId =>
    "cannot take pane " ++ toString paneId ++ " out of window " ++ toString windowId
  | .sameWindow => "destination is the same as the current window"
  | .cannotJoin => "cannot move the last remaining pane"

/-- One entry of a window list. -/
structure WindowInfo where
  windowId : ℕ
  name : String
  paneCount : ℕ
  isFocused : Bool
  deriving DecidableEq, Repr

/-- A session. -/
structure Session (F : Type) where
  windows : IdMap (Window F)
  focusedWindowId : ℕ
  cols : ℕ
  rows : ℕ
  deriving DecidableEq

/-- The pane ids of a window (PTY + serial). -/
def Window.paneIds {F : Type} (w : Window F) : List ℕ := w.panes.keys ++ w.serialPanes.keys

namespace Session

variable {F : Type}

/-! ## Windows -/

/-- Return the focused window. -/
def focusedWindow (s : Session F) : Option (Window F) := s.windows[s.focusedWindowId]?

/-- Remove a window; `pick` chooses the next focus among the remaining ones. -/
def removeWindow (s : Session F) (windowId pick : ℕ) : Session F × Except SessionError Unit :=
  if s.windows.size ≤ 1 then (s, .error .lastWindow)
  else if windowId ∉ s.windows then (s, .error (.windowNotFound windowId))
  else
    let windows := s.windows.erase windowId
    let next := windows.keys.getD (pick % windows.size) s.focusedWindowId
    ({ s with
        windows := windows
        focusedWindowId := if s.focusedWindowId = windowId then next else s.focusedWindowId },
      .ok ())

/-- Move focus to a window. -/
def focusWindow (s : Session F) (windowId : ℕ) : Session F × Except SessionError Unit :=
  if windowId ∉ s.windows then (s, .error (.windowNotFound windowId))
  else ({ s with focusedWindowId := windowId }, .ok ())

/-- Rename a window. -/
def renameWindow (s : Session F) (windowId : ℕ) (name : String) :
    Session F × Except SessionError Unit :=
  if windowId ∉ s.windows then (s, .error (.windowNotFound windowId))
  else ({ s with windows := s.windows.modify windowId ({ · with name := name }) }, .ok ())

/-- Return the list of window info. -/
def windowList (s : Session F) : List WindowInfo :=
  (s.windows.toList.map fun (_, w) =>
    (⟨w.id, w.name, w.paneCount, w.id = s.focusedWindowId⟩ : WindowInfo)).insertionSort
      (·.windowId ≤ ·.windowId)

variable [Ratio F]

/-- Construct a session with a single window. -/
def new (cols rows windowId paneId : ℕ) (opened : Except String Unit) :
    Except SessionError (Session F) :=
  match Window.new windowId "window-1" cols rows paneId opened with
  | .error e => .error (.window e)
  | .ok window => .ok ⟨(∅ : IdMap (Window F)).insert windowId window, windowId, cols, rows⟩

/-- Add a window with a fresh pane. -/
def addWindow (s : Session F) (windowId paneId : ℕ) (opened : Except String Unit) :
    Session F × Except SessionError ℕ :=
  match Window.new windowId ("window-" ++ toString windowId) s.cols s.rows paneId opened with
  | .error e => (s, .error (.window e))
  | .ok window =>
    ({ s with windows := s.windows.insert windowId window, focusedWindowId := windowId },
      .ok windowId)

/-- Resize the session and the panes of the focused window. -/
def resizeFocused (s : Session F) (cols rows : ℕ) : Session F × Except SessionError Unit :=
  let s := { s with cols := cols, rows := rows }
  if s.focusedWindowId ∉ s.windows then (s, .error .focusedWindowNotFound)
  else
    ({ s with windows := s.windows.modify s.focusedWindowId (·.resizeAllPanes cols rows) }, .ok ())

/-! ## Moving panes between windows -/

/-- Break the focused pane out into the new window `newId`. -/
def breakPane (s : Session F) (newId : ℕ) : Session F × Except SessionError ℕ :=
  match s.windows[s.focusedWindowId]? with
  | none => (s, .error .focusedWindowNotFound)
  | some w =>
    match w.takeFocusedPane s.cols s.rows with
    | (w, none) =>
      ({ s with windows := s.windows.insert s.focusedWindowId w }, .error .cannotBreak)
    | (w, some pane) =>
      let window := Window.newWithPane newId "window-broken" pane s.cols s.rows
      ({ s with
          windows := (s.windows.insert s.focusedWindowId w).insert newId window
          focusedWindowId := newId },
        .ok newId)

/-- The window that holds a pane; `pick` chooses if several do. -/
def sourceWindow (s : Session F) (paneId pick : ℕ) : Option ℕ :=
  let found := s.windows.toList.filter fun (_, w) => w.paneIds.contains paneId
  (found[pick % found.length]?).map Prod.fst

/-- The first half of `movePane`: take the pane out of its window. -/
def takeFrom (s : Session F) (source paneId : ℕ) : Session F × Except SessionError Pane :=
  match s.windows[source]? with
  | none => (s, .error .sourceNotFound)
  | some w =>
    if w.paneCount ≤ 1 then
      -- the last pane: the window is removed first
      ({ s with windows := s.windows.erase source },
        match w.intoSinglePane with
        | none => .error (.cannotExtract source)
        | some pane => .ok pane)
    else
      let (w, taken) := w.takePaneById paneId s.cols s.rows
      ({ s with windows := s.windows.insert source w },
        match taken with
        | none => .error (.cannotTake paneId source)
        | some pane => .ok pane)

/-- The second half of `movePane`: put the pane into its destination. -/
def putInto (s : Session F) (pane : Pane) (target : ℕ) (insertAt : Option ℕ) (newId : ℕ) :
    Session F × Except SessionError ℕ :=
  if target = 0 then
    let window := Window.newWithPane newId "window-torn" pane s.cols s.rows
    ({ s with windows := s.windows.insert newId window, focusedWindowId := newId }, .ok newId)
  else
    match s.windows[target]? with
    | none => (s, .error (.windowNotFound target))
    | some w =>
      let w := w.insertPaneAt pane s.cols s.rows .vertical insertAt
      ({ s with windows := s.windows.insert target w, focusedWindowId := target }, .ok target)

/-- Move a pane to another window, or to the new window `newId` if `target = 0`.  Answers the
    source window, the destination and the pane. -/
def movePane (s : Session F) (paneId target : ℕ) (insertAt : Option ℕ) (newId pick : ℕ) :
    Session F × Except SessionError (ℕ × ℕ × ℕ) :=
  match s.sourceWindow paneId pick with
  | none => (s, .error (.paneNotFound paneId))
  | some source =>
    if source = target then (s, .error (.alreadyIn paneId target))
    else
      match s.takeFrom source paneId with
      | (s, .error e) => (s, .error e)
      | (s, .ok pane) =>
        match s.putInto pane target insertAt newId with
        | (s, .error e) => (s, .error e)
        | (s, .ok destination) => (s, .ok (source, destination, paneId))

/-- Move the focused pane to another window. -/
def joinPane (s : Session F) (target : ℕ) : Session F × Except SessionError ℕ :=
  if s.focusedWindowId = target then (s, .error .sameWindow)
  else
    match s.windows[s.focusedWindowId]? with
    | none => (s, .error .focusedWindowNotFound)
    | some w =>
      match w.takeFocusedPane s.cols s.rows with
      | (w, none) =>
        ({ s with windows := s.windows.insert s.focusedWindowId w }, .error .cannotJoin)
      | (w, some pane) =>
        let s := { s with windows := s.windows.insert s.focusedWindowId w }
        match s.windows[target]? with
        | none => (s, .error (.windowNotFound target))
        | some t =>
          let t := t.insertPane pane s.cols s.rows .vertical
          ({ s with windows := s.windows.insert target t, focusedWindowId := target }, .ok pane.id)

end Session

/-! ## Requests -/

/-- The requests that act on the focused window, at the size of the session. -/
inductive WindowRequest (F : Type)
  | split (dir : SplitDir) (newId : ℕ) (opened : Except String Unit)
  | connectSerial (dir : SplitDir) (newId : ℕ) (opened : Except String Unit)
  | closePane
  | swapPane (targetPaneId : ℕ)
  | reorderPanes (paneIds : List ℕ)
  | focusPane (paneId : ℕ)
  | focusNextPane
  | focusPrevPane
  | toggleZoom
  | setLayoutMode (mode : LayoutMode)
  | resizeSplit (delta : F)
  | openFloatingPane (newId : ℕ) (opened : Except String Unit)
  | closeFloatingPane (paneId : ℕ)
  | moveFloatingPane (paneId colOff rowOff : ℕ)
  | resizeFloatingPane (paneId cols rows : ℕ)

/-- The window operation behind a request. -/
def WindowRequest.op {F : Type} (cols rows : ℕ) : WindowRequest F → WindowOp F
  | .split dir newId opened => .addPane newId cols rows dir opened
  | .connectSerial dir newId opened => .addSerialPane newId cols rows dir opened
  | .closePane => .removeFocusedPane cols rows
  | .swapPane targetPaneId => .swapFocusedWith targetPaneId
  | .reorderPanes paneIds => .reorderPanes paneIds
  | .focusPane paneId => .setFocusedPane paneId
  | .focusNextPane => .focusNext
  | .focusPrevPane => .focusPrev
  | .toggleZoom => .toggleZoom cols rows
  | .setLayoutMode mode => .setLayoutMode mode cols rows
  | .resizeSplit delta => .adjustSplitRatio delta cols rows
  | .openFloatingPane newId opened => .openFloatingPane newId cols rows opened
  | .closeFloatingPane paneId => .closeFloatingPane paneId
  | .moveFloatingPane paneId colOff rowOff => .moveFloatingPane paneId colOff rowOff
  | .resizeFloatingPane paneId fpCols fpRows => .resizeFloatingPane paneId fpCols fpRows

/-- The requests of a client on its session. -/
inductive Request (F : Type)
  | window (request : WindowRequest F)
  | newWindow (windowId paneId : ℕ) (opened : Except String Unit)
  | closeWindow (windowId pick : ℕ)
  | focusWindow (windowId : ℕ)
  | renameWindow (windowId : ℕ) (name : String)
  | resize (cols rows : ℕ)
  | breakPane (newId : ℕ)
  | movePane (paneId target : ℕ) (insertAt : Option ℕ) (newId pick : ℕ)
  | joinPane (target : ℕ)

namespace Session

variable {F : Type} [Ratio F]

/-- The session after a request, whether or not it succeeded. -/
def step (s : Session F) : Request F → Session F
  | .window r =>
    { s with windows := s.windows.modify s.focusedWindowId (·.step (r.op s.cols s.rows)) }
  | .newWindow windowId paneId opened => (s.addWindow windowId paneId opened).1
  | .closeWindow windowId pick => (s.removeWindow windowId pick).1
  | .focusWindow windowId => (s.focusWindow windowId).1
  | .renameWindow windowId name => (s.renameWindow windowId name).1
  | .resize cols rows => (s.resizeFocused cols rows).1
  | .breakPane newId => (s.breakPane newId).1
  | .movePane paneId target insertAt newId pick => (s.movePane paneId target insertAt newId pick).1
  | .joinPane target => (s.joinPane target).1

end Session

end Nexterm.Server

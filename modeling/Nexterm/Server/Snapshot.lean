/-
  Snapshots of trees, windows and sessions, and what is restored from them (`snapshot.rs`,
  `window/bsp.rs`, `window/tiling.rs`, `window/mod.rs`, `session.rs`).

  * `SplitNode.toSnapshot`, `fromSnapshot`, `computePaneSizes`: the tree and its copy.
  * `Window.restoreFromSnapshot`: refuses a tree that names a pane twice, then spawns every pane;
    `restoreFromSnapshot_ok_iff` says when a window is restored and as what.
  * `NamedSession`: a session with the fields that only snapshots read, and its restore.
  * `Window.Reopened`, `NamedSession.Reopened`: what a save and a restore keep.
  * `NamedSession.save_restore`: what comes back of a reachable session.

  Spawning a pane is an argument of what restores it (`opened`), as is the order in which a
  `HashMap` yields its entries.  The registry of workspaces is not part of this.
-/
import Nexterm.Server.Keyed

namespace Nexterm.Server

open Std.ExtTreeMap

/-- Snapshot of a split direction. -/
inductive SplitDirSnapshot
  | vertical
  | horizontal
  deriving DecidableEq, Repr

/-- Snapshot of a BSP split tree. -/
inductive SplitNodeSnapshot (F : Type)
  | pane (paneId : ℕ) (cwd : Option String)
  | split (dir : SplitDirSnapshot) (ratio : F) (left right : SplitNodeSnapshot F)
  deriving DecidableEq, Repr

/-- Snapshot of a window. -/
structure WindowSnapshot (F : Type) where
  id : ℕ
  name : String
  focusedPaneId : ℕ
  layout : SplitNodeSnapshot F
  deriving DecidableEq, Repr

/-- Snapshot of a session. -/
structure SessionSnapshot (F : Type) where
  name : String
  shell : String
  shellArgs : List String
  cols : ℕ
  rows : ℕ
  windows : List (WindowSnapshot F)
  focusedWindowId : ℕ
  sessionTitle : Option String
  workspaceName : String
  deriving DecidableEq, Repr

/-- The errors of a restore. -/
inductive RestoreError
  | duplicatePane (windowName : String) (paneId : ℕ)
  | spawn (text : String)
  | noWindow (sessionName : String)
  deriving DecidableEq, Repr

/-- The text of an error. -/
def RestoreError.message : RestoreError → String
  | .duplicatePane windowName paneId =>
    "window '" ++ windowName ++ "': snapshot's BSP tree references pane_id " ++ toString paneId ++
      " more than once; refusing to restore corrupt state"
  | .spawn text => text
  | .noWindow sessionName => "no window could be restored for session '" ++ sessionName ++ "'"

variable {F : Type}

/-! ## Trees -/

namespace SplitDir

/-- The direction in a snapshot. -/
def toSnapshot : SplitDir → SplitDirSnapshot
  | .vertical => .vertical
  | .horizontal => .horizontal

/-- The direction of a snapshot. -/
def fromSnapshot : SplitDirSnapshot → SplitDir
  | .vertical => .vertical
  | .horizontal => .horizontal

end SplitDir

namespace SplitNodeSnapshot

/-- Every pane id of the leaves, from left to right, without deduplicating. -/
def collectPaneIds : SplitNodeSnapshot F → List ℕ
  | .pane id _ => [id]
  | .split _ _ left right => left.collectPaneIds ++ right.collectPaneIds

/-- The working directory of a pane. -/
def findCwd (target : ℕ) : SplitNodeSnapshot F → Option String
  | .pane id cwd => if id = target then cwd else none
  | .split _ _ left right => left.findCwd target <|> right.findCwd target

/-- Populate each pane's working directory. -/
def fillCwd (workingDir : ℕ → Option String) : SplitNodeSnapshot F → SplitNodeSnapshot F
  | .pane id _ => .pane id (workingDir id)
  | .split d r left right => .split d r (left.fillCwd workingDir) (right.fillCwd workingDir)

/-- The size of each pane. -/
def computePaneSizes [Ratio F] : SplitNodeSnapshot F → (cols rows : ℕ) → List (ℕ × ℕ × ℕ)
  | .pane id _, cols, rows => [(id, cols, rows)]
  | .split .vertical ratio left right, cols, rows =>
    let (lc, _, rc) := splitExtent cols ratio
    left.computePaneSizes lc rows ++ right.computePaneSizes rc rows
  | .split .horizontal ratio left right, cols, rows =>
    let (lr, _, rr) := splitExtent rows ratio
    left.computePaneSizes cols lr ++ right.computePaneSizes cols rr

end SplitNodeSnapshot

/-- The first id that has been seen before. -/
def firstSeen (seen : List ℕ) : List ℕ → Option ℕ
  | [] => none
  | id :: ids => if id ∈ seen then some id else firstSeen (id :: seen) ids

theorem firstSeen_eq_none_iff : ∀ {ids seen : List ℕ},
    firstSeen seen ids = none ↔ ids.Nodup ∧ ∀ id ∈ ids, id ∉ seen
  | [], seen => by simp [firstSeen]
  | id :: ids, seen => by
    rw [firstSeen, List.nodup_cons]
    split_ifs with hid
    · simp [hid]
    · rw [firstSeen_eq_none_iff]
      simp only [List.mem_cons, not_or, forall_eq_or_imp]
      constructor
      · rintro ⟨hnd, h⟩
        exact ⟨⟨fun hmem => (h id hmem).1 rfl, hnd⟩, hid, fun i hi => (h i hi).2⟩
      · rintro ⟨⟨hnot, hnd⟩, -, h⟩
        refine ⟨hnd, fun i hi => ⟨?_, h i hi⟩⟩
        rintro rfl
        exact hnot hi

namespace SplitNode

/-- The first pane id that occurs more than once. -/
def findDuplicatePaneId (snap : SplitNodeSnapshot F) : Option ℕ := firstSeen [] snap.collectPaneIds

/-- Convert the tree to a snapshot. -/
def toSnapshot : SplitNode F → SplitNodeSnapshot F
  | .pane id => .pane id none
  | .split d r left right => .split d.toSnapshot r left.toSnapshot right.toSnapshot

/-- Reconstruct a tree from a snapshot. -/
def fromSnapshot : SplitNodeSnapshot F → SplitNode F
  | .pane id _ => .pane id
  | .split d r left right => .split (.fromSnapshot d) r (fromSnapshot left) (fromSnapshot right)

theorem findDuplicatePaneId_eq_none_iff {snap : SplitNodeSnapshot F} :
    findDuplicatePaneId snap = none ↔ snap.collectPaneIds.Nodup := by
  rw [findDuplicatePaneId, firstSeen_eq_none_iff]
  simp

theorem fromSnapshot_fillCwd (workingDir : ℕ → Option String) : ∀ snap : SplitNodeSnapshot F,
    fromSnapshot (snap.fillCwd workingDir) = fromSnapshot snap
  | .pane _ _ => rfl
  | .split _ _ left right => by
    simp [SplitNodeSnapshot.fillCwd, fromSnapshot, fromSnapshot_fillCwd workingDir left,
      fromSnapshot_fillCwd workingDir right]

/-- A tree survives the round trip. -/
theorem fromSnapshot_toSnapshot : ∀ t : SplitNode F, fromSnapshot t.toSnapshot = t
  | .pane _ => rfl
  | .split d _ left right => by
    cases d <;> simp [toSnapshot, fromSnapshot, SplitDir.toSnapshot, SplitDir.fromSnapshot,
      fromSnapshot_toSnapshot left, fromSnapshot_toSnapshot right]

theorem leaves_fromSnapshot : ∀ snap : SplitNodeSnapshot F,
    (fromSnapshot snap).leaves = snap.collectPaneIds
  | .pane _ _ => rfl
  | .split _ _ left right => by
    simp [fromSnapshot, leaves, SplitNodeSnapshot.collectPaneIds, leaves_fromSnapshot left,
      leaves_fromSnapshot right]

/-- The sizes of a snapshot are those of the rectangles of its tree. -/
theorem computePaneSizes_eq [Ratio F] : ∀ (snap : SplitNodeSnapshot F)
    (colOff rowOff cols rows : ℕ), snap.computePaneSizes cols rows =
      ((fromSnapshot snap).compute colOff rowOff cols rows).map fun r => (r.paneId, r.cols, r.rows)
  | .pane _ _, _, _, _, _ => rfl
  | .split .vertical ratio left right, colOff, rowOff, cols, rows => by
    simp only [SplitNodeSnapshot.computePaneSizes, fromSnapshot, SplitDir.fromSnapshot, compute,
      List.map_append]
    rw [computePaneSizes_eq left colOff rowOff, computePaneSizes_eq right]
  | .split .horizontal ratio left right, colOff, rowOff, cols, rows => by
    simp only [SplitNodeSnapshot.computePaneSizes, fromSnapshot, SplitDir.fromSnapshot, compute,
      List.map_append]
    rw [computePaneSizes_eq left colOff rowOff, computePaneSizes_eq right]

end SplitNode

/-! ## Windows -/

/-- The outcome of spawning a pane in a working directory. -/
abbrev Opened := ℕ → Option String → Except String Unit

/-- Spawn the panes of a window one after the other; the first failure ends it. -/
def restorePanes (opened : Opened) (layout : SplitNodeSnapshot F) :
    List (ℕ × ℕ × ℕ) → IdMap Pane → List ℕ → Except RestoreError (IdMap Pane × List ℕ)
  | [], panes, paneOrder => .ok (panes, paneOrder)
  | (id, cols, rows) :: sizes, panes, paneOrder =>
    match opened id (layout.findCwd id) with
    | .error text => .error (.spawn text)
    | .ok () =>
      restorePanes opened layout sizes (panes.insert id ⟨id, cols, rows⟩) (paneOrder ++ [id])

/-- The panes of a window can be restored: no id occurs twice, and every pane spawns. -/
structure WindowSnapshot.Restorable (snap : WindowSnapshot F) (opened : Opened) : Prop where
  nodup : snap.layout.collectPaneIds.Nodup
  spawned : ∀ id ∈ snap.layout.collectPaneIds, opened id (snap.layout.findCwd id) = .ok ()

/-- The entry of a pane in the map of a restored window. -/
def paneEntry : ℕ × ℕ × ℕ → ℕ × Pane
  | (id, cols, rows) => (id, ⟨id, cols, rows⟩)

theorem restorePanes_ok_iff {opened : Opened} {layout : SplitNodeSnapshot F}
    {panes' : IdMap Pane} {order' : List ℕ} : ∀ {sizes : List (ℕ × ℕ × ℕ)} {panes : IdMap Pane}
    {paneOrder : List ℕ}, restorePanes opened layout sizes panes paneOrder = .ok (panes', order') ↔
      (∀ id ∈ sizes.map Prod.fst, opened id (layout.findCwd id) = .ok ()) ∧
        panes' = panes.insertMany (sizes.map paneEntry) ∧ order' = paneOrder ++ sizes.map Prod.fst
  | [], panes, paneOrder => by simp [restorePanes, eq_comm]
  | (id, cols, rows) :: sizes, panes, paneOrder => by
    rw [restorePanes]
    cases hid : opened id (layout.findCwd id) with
    | error text => simp [hid]
    | ok u =>
      dsimp only
      rw [restorePanes_ok_iff]
      simp only [List.map_cons, List.forall_mem_cons, paneEntry, insertMany_cons,
        List.append_assoc, List.singleton_append]
      constructor
      · rintro ⟨hall, hp, ho⟩
        exact ⟨⟨hid, hall⟩, hp, ho⟩
      · rintro ⟨⟨-, hall⟩, hp, ho⟩
        exact ⟨hall, hp, ho⟩

namespace Window

variable [Ratio F]

omit [Ratio F] in
/-- Convert the window to a snapshot. -/
def toSnapshot (w : Window F) (workingDir : ℕ → Option String) : WindowSnapshot F :=
  ⟨w.id, w.name, w.focusedPaneId,
    w.layout.toSnapshot.fillCwd fun id =>
      if id ∈ w.panes ∨ id ∈ w.serialPanes then workingDir id else none⟩

/-- Restore a window from a snapshot. -/
def restoreFromSnapshot (snap : WindowSnapshot F) (cols rows : ℕ) (opened : Opened) :
    Except RestoreError (Window F) :=
  match SplitNode.findDuplicatePaneId snap.layout with
  | some dupId => .error (.duplicatePane snap.name dupId)
  | none =>
    match restorePanes opened snap.layout (snap.layout.computePaneSizes cols rows) ∅ [] with
    | .error e => .error e
    | .ok (panes, paneOrder) =>
      .ok {
        id := snap.id
        name := snap.name
        panes := panes
        serialPanes := ∅
        focusedPaneId := snap.focusedPaneId
        layout := SplitNode.fromSnapshot snap.layout
        zoomed := false
        layoutMode := .bsp
        floatingPanes := ∅
        lastCols := cols
        lastRows := rows
        paneOrder := paneOrder }

/-- The window that a snapshot describes, with all panes spawned. -/
def ofSnapshot (snap : WindowSnapshot F) (cols rows : ℕ) : Window F where
  id := snap.id
  name := snap.name
  panes := ofList ((snap.layout.computePaneSizes cols rows).map paneEntry)
  serialPanes := ∅
  focusedPaneId := snap.focusedPaneId
  layout := SplitNode.fromSnapshot snap.layout
  zoomed := false
  layoutMode := .bsp
  floatingPanes := ∅
  lastCols := cols
  lastRows := rows
  paneOrder := snap.layout.collectPaneIds

theorem map_fst_computePaneSizes (snap : SplitNodeSnapshot F) (cols rows : ℕ) :
    (snap.computePaneSizes cols rows).map Prod.fst = snap.collectPaneIds := by
  rw [SplitNode.computePaneSizes_eq snap 0 0, List.map_map, ← SplitNode.leaves_fromSnapshot,
    ← SplitNode.map_paneId_compute _ 0 0 cols rows]
  rfl

/-- **What is restored.**  Exactly the windows that can be, and nothing but what they describe. -/
theorem restoreFromSnapshot_ok_iff {snap : WindowSnapshot F} {cols rows : ℕ} {opened : Opened}
    {w : Window F} : restoreFromSnapshot snap cols rows opened = .ok w ↔
      snap.Restorable opened ∧ w = ofSnapshot snap cols rows := by
  rw [restoreFromSnapshot]
  cases hdup : SplitNode.findDuplicatePaneId snap.layout with
  | some dupId =>
    refine iff_of_false (by rintro ⟨⟩) ?_
    rintro ⟨hr, -⟩
    rw [SplitNode.findDuplicatePaneId_eq_none_iff.2 hr.nodup] at hdup
    cases hdup
  | none =>
    have hnd := SplitNode.findDuplicatePaneId_eq_none_iff.1 hdup
    have hids := map_fst_computePaneSizes snap.layout cols rows
    dsimp only
    cases hp : restorePanes opened snap.layout (snap.layout.computePaneSizes cols rows) ∅ [] with
    | error e =>
      refine iff_of_false (by rintro ⟨⟩) ?_
      rintro ⟨hr, -⟩
      have := hp.symm.trans (restorePanes_ok_iff.2 ⟨hids ▸ hr.spawned, rfl, rfl⟩)
      cases this
    | ok r =>
      obtain ⟨panes, paneOrder⟩ := r
      obtain ⟨hspawned, rfl, rfl⟩ := restorePanes_ok_iff.1 hp
      rw [hids] at hspawned
      rw [hids, ← ofList_eq_insertMany_empty]
      constructor
      · rintro ⟨⟩
        exact ⟨⟨hnd, hspawned⟩, rfl⟩
      · rintro ⟨-, rfl⟩
        rfl

end Window

/-! ## Sessions -/

/-- The workspace of a session that names none. -/
def defaultWorkspace : String := "default"

/-- A session with the fields that only snapshots read and write. -/
structure NamedSession (F : Type) where
  name : String
  session : Session F
  shell : String
  shellArgs : List String
  broadcast : Bool
  workspaceName : String
  deriving DecidableEq

variable [Ratio F]

/-- Restore the windows one after the other; those that fail are skipped. -/
def restoreWindows (opened : ℕ → Opened) (cols rows : ℕ) :
    List (WindowSnapshot F × ℕ) → IdMap (Window F) → IdMap (Window F)
  | [], windows => windows
  | (snap, i) :: snaps, windows =>
    match Window.restoreFromSnapshot snap cols rows (opened i) with
    | .ok window => restoreWindows opened cols rows snaps (windows.insert snap.id window)
    | .error _ => restoreWindows opened cols rows snaps windows

namespace NamedSession

omit [Ratio F] in
/-- Convert the session to a snapshot; `order` is the order of its windows. -/
def toSnapshot (s : NamedSession F) (workingDir : ℕ → ℕ → Option String) (order : List ℕ) :
    SessionSnapshot F where
  name := s.name
  shell := s.shell
  shellArgs := s.shellArgs
  cols := s.session.cols
  rows := s.session.rows
  windows := order.filterMap fun k =>
    (s.session.windows[k]?).map fun w => w.toSnapshot (workingDir k)
  focusedWindowId := s.session.focusedWindowId
  sessionTitle := none
  workspaceName := s.workspaceName

/-- Restore a session from a snapshot; `pick` chooses the focus if the saved one is gone. -/
def restoreFromSnapshot (snap : SessionSnapshot F) (opened : ℕ → Opened) (pick : ℕ) :
    Except RestoreError (NamedSession F) :=
  let windows := restoreWindows opened snap.cols snap.rows snap.windows.zipIdx ∅
  if windows.isEmpty then .error (.noWindow snap.name)
  else
    .ok {
      name := snap.name
      session := {
        windows := windows
        focusedWindowId :=
          if snap.focusedWindowId ∈ windows then snap.focusedWindowId
          else windows.keys.getD (pick % windows.size) snap.focusedWindowId
        cols := snap.cols
        rows := snap.rows }
      shell := snap.shell
      shellArgs := snap.shellArgs
      broadcast := false
      workspaceName := if snap.workspaceName = "" then defaultWorkspace else snap.workspaceName }

end NamedSession

/-- The windows of a snapshot that are restored, in order. -/
def SessionSnapshot.restored (snap : SessionSnapshot F) (opened : ℕ → Opened) : List (Window F) :=
  snap.windows.zipIdx.filterMap fun e =>
    (Window.restoreFromSnapshot e.1 snap.cols snap.rows (opened e.2)).toOption

theorem SessionSnapshot.mem_restored {snap : SessionSnapshot F} {opened : ℕ → Opened}
    {w : Window F} : w ∈ snap.restored opened ↔ ∃ i ws, snap.windows[i]? = some ws ∧
      ws.Restorable (opened i) ∧ w = .ofSnapshot ws snap.cols snap.rows := by
  simp only [restored, List.mem_filterMap, Prod.exists, List.mem_zipIdx_iff_getElem?]
  constructor
  · rintro ⟨ws, i, hi, hw⟩
    cases hr : Window.restoreFromSnapshot ws snap.cols snap.rows (opened i) with
    | error e => simp [hr, Except.toOption] at hw
    | ok w' =>
      simp only [hr, Except.toOption, Option.some.injEq] at hw
      subst hw
      exact ⟨i, ws, hi, Window.restoreFromSnapshot_ok_iff.1 hr⟩
  · rintro ⟨i, ws, hi, hw⟩
    exact ⟨ws, i, hi, by rw [Window.restoreFromSnapshot_ok_iff.2 hw]; rfl⟩

theorem restoreWindows_eq {opened : ℕ → Opened} {cols rows : ℕ} :
    ∀ (snaps : List (WindowSnapshot F × ℕ)) (windows : IdMap (Window F)),
      restoreWindows opened cols rows snaps windows = windows.insertMany
        ((snaps.filterMap fun e => (Window.restoreFromSnapshot e.1 cols rows (opened e.2)).toOption).map
          fun w => (w.id, w))
  | [], windows => by simp [restoreWindows]
  | (snap, i) :: snaps, windows => by
    rw [restoreWindows]
    cases hr : Window.restoreFromSnapshot snap cols rows (opened i) with
    | error e =>
      have : (Except.error e : Except RestoreError (Window F)).toOption = none := rfl
      simp only [List.filterMap_cons, hr, this]
      exact restoreWindows_eq snaps windows
    | ok w =>
      have hid : snap.id = w.id := by
        obtain ⟨-, rfl⟩ := Window.restoreFromSnapshot_ok_iff.1 hr
        rfl
      have : (Except.ok w : Except RestoreError (Window F)).toOption = some w := rfl
      simp only [List.filterMap_cons, hr, this, List.map_cons, insertMany_cons, hid]
      exact restoreWindows_eq snaps _

namespace NamedSession

variable {snap : SessionSnapshot F} {opened : ℕ → Opened}

/-- The windows of a restored session. -/
def windowsOf (snap : SessionSnapshot F) (opened : ℕ → Opened) : IdMap (Window F) :=
  ofList ((snap.restored opened).map fun w => (w.id, w))

theorem mem_windowsOf {k : ℕ} :
    k ∈ windowsOf snap opened ↔ ∃ w ∈ snap.restored opened, w.id = k := by
  rw [windowsOf, mem_ofList_eq, List.map_map, List.mem_map]
  rfl

/-- The session that a snapshot describes, with the windows that are restored. -/
def ofSnapshot (snap : SessionSnapshot F) (opened : ℕ → Opened) (pick : ℕ) : NamedSession F where
  name := snap.name
  session := {
    windows := windowsOf snap opened
    focusedWindowId :=
      if snap.focusedWindowId ∈ windowsOf snap opened then snap.focusedWindowId
      else (windowsOf snap opened).keys.getD (pick % (windowsOf snap opened).size)
        snap.focusedWindowId
    cols := snap.cols
    rows := snap.rows }
  shell := snap.shell
  shellArgs := snap.shellArgs
  broadcast := false
  workspaceName := if snap.workspaceName = "" then defaultWorkspace else snap.workspaceName

/-- A session is restored if a window is. -/
theorem restoreFromSnapshot_eq (snap : SessionSnapshot F) (opened : ℕ → Opened) (pick : ℕ) :
    restoreFromSnapshot snap opened pick =
      if snap.restored opened = [] then .error (.noWindow snap.name)
      else .ok (ofSnapshot snap opened pick) := by
  have hw : restoreWindows opened snap.cols snap.rows snap.windows.zipIdx ∅ =
      windowsOf snap opened := by
    rw [restoreWindows_eq, ← ofList_eq_insertMany_empty]
    rfl
  have hempty : (windowsOf snap opened).isEmpty = true ↔ snap.restored opened = [] := by
    rw [Std.ExtTreeMap.isEmpty_iff, windowsOf, ofList_eq_empty_iff, List.map_eq_nil_iff]
  rw [restoreFromSnapshot, hw]
  by_cases h : snap.restored opened = []
  · rw [if_pos (hempty.2 h), if_pos h]
  · rw [if_neg (mt hempty.1 h), if_neg h]
    rfl

/-- A restored session has its focus on one of its windows. -/
theorem focusedWindowId_mem (h : snap.restored opened ≠ []) (pick : ℕ) :
    (ofSnapshot snap opened pick).session.focusedWindowId ∈ windowsOf snap opened := by
  obtain ⟨w, hw⟩ := List.exists_mem_of_ne_nil _ h
  dsimp only [ofSnapshot]
  split_ifs with hmem
  · exact hmem
  · exact getD_keys_mem (mem_windowsOf.2 ⟨w, hw, rfl⟩) _ _

end NamedSession

/-! ## Saving and restoring -/

/-- `w'` is what comes back of the window `w`: its identity, its tree and its focus.  The tab order
    is read off the tree, and every leaf is a PTY pane of the size that the tree gives it. -/
structure Window.Reopened (w w' : Window F) (cols rows : ℕ) : Prop where
  id : w'.id = w.id
  name : w'.name = w.name
  layout : w'.layout = w.layout
  focusedPaneId : w'.focusedPaneId = w.focusedPaneId
  paneOrder : w'.paneOrder = w.layout.leaves
  panes : ∀ (id : ℕ) (pane : Pane), w'.panes[id]? = some pane ↔
    ∃ r ∈ w.layout.compute 0 0 cols rows, r.paneId = id ∧ pane = ⟨id, r.cols, r.rows⟩
  layoutMode : w'.layoutMode = .bsp
  zoomed : w'.zoomed = false
  serialPanes : w'.serialPanes = ∅
  floatingPanes : w'.floatingPanes = ∅

/-- `n'` is what comes back of the session `n`. -/
structure NamedSession.Reopened (n n' : NamedSession F) : Prop where
  name : n'.name = n.name
  shell : n'.shell = n.shell
  shellArgs : n'.shellArgs = n.shellArgs
  cols : n'.session.cols = n.session.cols
  rows : n'.session.rows = n.session.rows
  workspaceName :
    n'.workspaceName = if n.workspaceName = "" then defaultWorkspace else n.workspaceName
  windows : ∀ k, k ∈ n'.session.windows ↔
    ∃ w, n.session.windows[k]? = some w ∧ w.layout.leaves.Nodup
  window : ∀ (k : ℕ) (w w' : Window F), n.session.windows[k]? = some w →
    n'.session.windows[k]? = some w' → w.Reopened w' n.session.cols n.session.rows
  focus : n.session.focusedWindowId ∈ n'.session.windows →
    n'.session.focusedWindowId = n.session.focusedWindowId
  focus_mem : n'.session.focusedWindowId ∈ n'.session.windows

namespace Window

variable {w : Window F} (workingDir : ℕ → Option String) (cols rows : ℕ)

omit [Ratio F] in
theorem fromSnapshot_toSnapshot : SplitNode.fromSnapshot (w.toSnapshot workingDir).layout = w.layout := by
  rw [toSnapshot, SplitNode.fromSnapshot_fillCwd, SplitNode.fromSnapshot_toSnapshot]

omit [Ratio F] in
theorem collectPaneIds_toSnapshot :
    (w.toSnapshot workingDir).layout.collectPaneIds = w.layout.leaves := by
  rw [← SplitNode.leaves_fromSnapshot, fromSnapshot_toSnapshot]

theorem reopened_ofSnapshot (hnd : w.layout.leaves.Nodup) :
    w.Reopened (ofSnapshot (w.toSnapshot workingDir) cols rows) cols rows where
  id := rfl
  name := rfl
  layout := fromSnapshot_toSnapshot workingDir
  focusedPaneId := rfl
  paneOrder := collectPaneIds_toSnapshot workingDir
  panes := by
    intro id pane
    have hsizes := SplitNode.computePaneSizes_eq (w.toSnapshot workingDir).layout 0 0 cols rows
    rw [fromSnapshot_toSnapshot] at hsizes
    have hkeys : (((w.toSnapshot workingDir).layout.computePaneSizes cols rows).map paneEntry).map
        Prod.fst = w.layout.leaves := by
      rw [List.map_map, ← collectPaneIds_toSnapshot workingDir,
        ← map_fst_computePaneSizes _ cols rows]
      rfl
    rw [ofSnapshot, getElem?_ofList_iff (hkeys ▸ hnd), hsizes, List.map_map, List.mem_map]
    constructor
    · rintro ⟨r, hr, he⟩
      cases he
      exact ⟨r, hr, rfl, rfl⟩
    · rintro ⟨r, hr, rfl, rfl⟩
      exact ⟨r, hr, rfl⟩
  layoutMode := rfl
  zoomed := rfl
  serialPanes := rfl
  floatingPanes := rfl

variable {opened : Opened}

/-- A window comes back, if no pane id occurs twice in its tree. -/
theorem restore_toSnapshot (hopened : ∀ id cwd, opened id cwd = .ok ()) :
    (w.layout.leaves.Nodup → ∃ w',
      restoreFromSnapshot (w.toSnapshot workingDir) cols rows opened = .ok w' ∧
        w.Reopened w' cols rows) ∧
    (¬w.layout.leaves.Nodup → ∃ dupId,
      restoreFromSnapshot (w.toSnapshot workingDir) cols rows opened =
        .error (.duplicatePane w.name dupId)) := by
  constructor
  · intro hnd
    refine ⟨_, restoreFromSnapshot_ok_iff.2 ⟨⟨?_, fun id _ => hopened id _⟩, rfl⟩,
      reopened_ofSnapshot workingDir cols rows hnd⟩
    rwa [collectPaneIds_toSnapshot]
  · intro hnd
    rw [restoreFromSnapshot]
    cases hdup : SplitNode.findDuplicatePaneId (w.toSnapshot workingDir).layout with
    | some dupId => exact ⟨dupId, rfl⟩
    | none =>
      have := SplitNode.findDuplicatePaneId_eq_none_iff.1 hdup
      rw [collectPaneIds_toSnapshot] at this
      exact absurd this hnd

end Window

namespace NamedSession

variable {n : NamedSession F} {workingDir : ℕ → ℕ → Option String} {order : List ℕ}
  {opened : ℕ → Opened}

/-- The windows that come back are those whose tree names no pane twice. -/
theorem mem_restored_toSnapshot (horder : order.Perm n.session.windows.keys)
    (hopened : ∀ i id cwd, opened i id cwd = .ok ()) {w' : Window F} :
    w' ∈ (n.toSnapshot workingDir order).restored opened ↔
      ∃ (k : ℕ) (w : Window F), n.session.windows[k]? = some w ∧ w.layout.leaves.Nodup ∧
        w' = .ofSnapshot (w.toSnapshot (workingDir k)) n.session.cols n.session.rows := by
  rw [SessionSnapshot.mem_restored]
  constructor
  · rintro ⟨i, ws, hi, hr, rfl⟩
    obtain ⟨k, -, hk⟩ := List.mem_filterMap.1 (List.mem_of_getElem? hi)
    obtain ⟨w, hw, rfl⟩ := Option.map_eq_some_iff.1 hk
    exact ⟨k, w, hw, Window.collectPaneIds_toSnapshot (workingDir k) ▸ hr.nodup, rfl⟩
  · rintro ⟨k, w, hw, hnd, rfl⟩
    have hk : k ∈ order := horder.mem_iff.2 (mem_keys.2 (mem_iff_getElem?.2 ⟨w, hw⟩))
    have hmem : w.toSnapshot (workingDir k) ∈ (n.toSnapshot workingDir order).windows :=
      List.mem_filterMap.2 ⟨k, hk, by rw [hw]; rfl⟩
    obtain ⟨i, hi⟩ := List.mem_iff_getElem?.1 hmem
    refine ⟨i, _, hi, ⟨?_, fun id _ => hopened i id _⟩, rfl⟩
    rwa [Window.collectPaneIds_toSnapshot]

theorem mem_windowsOf_toSnapshot (hkeyed : WindowsKeyed n.session.windows)
    (horder : order.Perm n.session.windows.keys) (hopened : ∀ i id cwd, opened i id cwd = .ok ())
    {k : ℕ} : k ∈ windowsOf (n.toSnapshot workingDir order) opened ↔
      ∃ w, n.session.windows[k]? = some w ∧ w.layout.leaves.Nodup := by
  rw [mem_windowsOf]
  constructor
  · rintro ⟨w', hw', rfl⟩
    obtain ⟨k, w, hw, hnd, rfl⟩ := (mem_restored_toSnapshot horder hopened).1 hw'
    have hid : w.id = k := hkeyed k w hw
    exact ⟨w, hid.symm ▸ hw, hnd⟩
  · rintro ⟨w, hw, hnd⟩
    exact ⟨_, (mem_restored_toSnapshot horder hopened).2 ⟨k, w, hw, hnd, rfl⟩, hkeyed k w hw⟩

/-- A session comes back, if one of its windows does. -/
theorem reopened_toSnapshot (hkeyed : WindowsKeyed n.session.windows)
    (horder : order.Perm n.session.windows.keys) (hopened : ∀ i id cwd, opened i id cwd = .ok ())
    (pick : ℕ) :
    ((∃ (k : ℕ) (w : Window F), n.session.windows[k]? = some w ∧ w.layout.leaves.Nodup) →
      ∃ n',
      restoreFromSnapshot (n.toSnapshot workingDir order) opened pick = .ok n' ∧ n.Reopened n') ∧
    ((¬∃ (k : ℕ) (w : Window F), n.session.windows[k]? = some w ∧ w.layout.leaves.Nodup) →
      restoreFromSnapshot (n.toSnapshot workingDir order) opened pick = .error (.noWindow n.name)) := by
  rw [restoreFromSnapshot_eq]
  constructor
  · rintro ⟨k, w, hw, hnd⟩
    have hsome : .ofSnapshot (w.toSnapshot (workingDir k)) n.session.cols n.session.rows ∈
        (n.toSnapshot workingDir order).restored opened :=
      (mem_restored_toSnapshot horder hopened).2 ⟨k, w, hw, hnd, rfl⟩
    rw [if_neg (List.ne_nil_of_mem hsome)]
    refine ⟨_, rfl, ⟨rfl, rfl, rfl, rfl, rfl, rfl, ?_, ?_, ?_, ?_⟩⟩
    · exact fun k => mem_windowsOf_toSnapshot hkeyed horder hopened
    · intro k w w' hw hw'
      obtain ⟨w₁, hw₁, he⟩ := List.mem_map.1 (mem_of_getElem?_ofList hw')
      cases he
      obtain ⟨k₂, w₂, hw₂, hnd₂, rfl⟩ := (mem_restored_toSnapshot horder hopened).1 hw₁
      -- the window that came back under this id is the one saved under it
      have hid : w₂.id = k₂ := hkeyed k₂ w₂ hw₂
      have hsame : n.session.windows[w₂.id]? = some w := hw
      rw [hid, hw₂, Option.some.injEq] at hsame
      subst hsame
      exact Window.reopened_ofSnapshot _ _ _ hnd₂
    · exact fun hmem => if_pos hmem
    · exact focusedWindowId_mem (List.ne_nil_of_mem hsome) pick
  · intro hnone
    rw [if_pos]
    · rfl
    refine List.eq_nil_iff_forall_not_mem.2 fun w' hw' => hnone ?_
    obtain ⟨k, w, hw, hnd, -⟩ := (mem_restored_toSnapshot horder hopened).1 hw'
    exact ⟨k, w, hw, hnd⟩

/-- **Saving and restoring.**  A tree and the sizes of its panes survive the round trip.  Of every
    reachable session the windows whose tree names no pane twice come back with their id, name, tree
    and focus; the rest of a window is made anew. -/
theorem save_restore {s₀ : Session F} {cols rows windowId paneId : ℕ} {opened₀ : Except String Unit}
    (h₀ : Session.new cols rows windowId paneId opened₀ = .ok s₀) (ops : List (Request F))
    (hn : n.session = Runs.run Session.step s₀ ops)
    (horder : order.Perm n.session.windows.keys) (hopened : ∀ i id cwd, opened i id cwd = .ok ())
    (pick : ℕ) :
    (∀ t : SplitNode F, SplitNode.fromSnapshot t.toSnapshot = t) ∧
    (∀ (t : SplitNode F) (colOff rowOff cols rows : ℕ), t.toSnapshot.computePaneSizes cols rows =
      (t.compute colOff rowOff cols rows).map fun r => (r.paneId, r.cols, r.rows)) ∧
    (∀ (k : ℕ) (w : Window F), n.session.windows[k]? = some w → ∀ cols rows,
      (w.layout.leaves.Nodup → ∃ w', Window.restoreFromSnapshot (w.toSnapshot (workingDir k))
        cols rows (opened k) = .ok w' ∧ w.Reopened w' cols rows) ∧
      (¬w.layout.leaves.Nodup → ∃ dupId, Window.restoreFromSnapshot (w.toSnapshot (workingDir k))
        cols rows (opened k) = .error (.duplicatePane w.name dupId))) ∧
    ((∃ (k : ℕ) (w : Window F), n.session.windows[k]? = some w ∧ w.layout.leaves.Nodup) → ∃ n',
      restoreFromSnapshot (n.toSnapshot workingDir order) opened pick = .ok n' ∧ n.Reopened n') ∧
    ((¬∃ (k : ℕ) (w : Window F), n.session.windows[k]? = some w ∧ w.layout.leaves.Nodup) →
      restoreFromSnapshot (n.toSnapshot workingDir order) opened pick = .error (.noWindow n.name)) := by
  refine ⟨SplitNode.fromSnapshot_toSnapshot, ?_, ?_, ?_⟩
  · intro t colOff rowOff cols rows
    rw [SplitNode.computePaneSizes_eq _ colOff rowOff, SplitNode.fromSnapshot_toSnapshot]
  · intro k w _ cols rows
    exact Window.restore_toSnapshot (workingDir k) cols rows (hopened k)
  · have hkeyed : WindowsKeyed n.session.windows := hn ▸ Session.windowsKeyed_run h₀ ops
    exact reopened_toSnapshot hkeyed horder hopened pick

/-- Every spawn succeeds. -/
def allOpened : ℕ → Opened := fun _ _ _ => .ok ()

/-- A session under the name `main`. -/
def named (s : Session ℚ) : NamedSession ℚ := ⟨"main", s, "/bin/sh", [], false, "default"⟩

/-- A split window comes back. -/
theorem save_restore_split : ∃ n',
    restoreFromSnapshot ((named (Runs.run Session.step Session.startSession
      [.window (.split .vertical 2 (.ok ()))])).toSnapshot (fun _ _ => none) [1]) allOpened 0 = .ok n' ∧
    (named (Runs.run Session.step Session.startSession
      [.window (.split .vertical 2 (.ok ()))])).Reopened n' :=
  (save_restore (rfl : Session.new 80 24 1 1 (.ok ()) = .ok Session.startSession)
    [.window (.split .vertical 2 (.ok ()))] rfl (by decide +kernel) (fun _ _ _ => rfl) 0).2.2.2.1
    ⟨1, _, rfl, by decide +kernel⟩

/-- What a window with the id 1 is after a save and a restore. -/
def reopenedWindow (s : Session ℚ) : Option (Window ℚ) :=
  match restoreFromSnapshot ((named s).toSnapshot (fun _ _ => none) [1]) allOpened 0 with
  | .ok n => n.session.windows[1]?
  | .error _ => none

/-- Reordered tabs come back in the order of the tree, a tiled window comes back as a tree, and a
    window whose tree names a pane twice does not come back: swapping with a pane that does not
    exist yet puts its id into the tree. -/
theorem tabs_forgotten :
    Session.new 80 24 1 1 (.ok ()) = .ok Session.startSession ∧
    (let s := Runs.run Session.step Session.startSession
      [.window (.split .vertical 2 (.ok ())), .window (.reorderPanes [2, 1])]
    (s.windows[1]?.map Window.paneOrder = some [2, 1] ∧
      (reopenedWindow s).map Window.paneOrder = some [1, 2])) ∧
    (let s := Runs.run Session.step Session.startSession [.window (.setLayoutMode .tiling)]
    (s.windows[1]?.map Window.layoutMode = some .tiling ∧
      (reopenedWindow s).map Window.layoutMode = some .bsp)) ∧
    (let s := Runs.run Session.step Session.startSession
      [.window (.split .vertical 2 (.ok ())), .window (.swapPane 3), .window (.focusPane 1),
        .window (.split .vertical 3 (.ok ()))]
    (1 ∈ s.windows ∧ reopenedWindow s = none)) :=
  ⟨rfl, by decide +kernel, by decide +kernel, by decide +kernel⟩

end NamedSession

end Nexterm.Server

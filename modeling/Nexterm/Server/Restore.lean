/-
  Restoring a server from a snapshot (`lib.rs`, `session.rs`, `persist.rs`, `pane.rs`).

  * `SessionManager`: the sessions, the workspaces and the two id counters; `newPaneId`,
    `newWindowId` hand out ids.
  * `SessionManager.restore`: what a start with a snapshot does, the bump of the counters included;
    `restore_start` says which sessions it makes.
  * `SessionManager.Consistent`, `ServerSnapshot.Consistent`: unique ids in the server, and in the
    part of the snapshot that is restored.
  * `SessionManager.restored_consistent_iff`: the one exactly if the other.

  The number of ids handed out after the restore is part of both, as the counters wrap around.
-/
import Nexterm.Server.Snapshot

namespace Nexterm.Server

open Std.ExtTreeMap

/-! ## Server snapshots -/

/-- Snapshot schema version. -/
def snapshotVersion : ℕ := 5

/-- Minimum supported version. -/
def snapshotVersionMin : ℕ := 1

/-- Server-wide snapshot. -/
structure ServerSnapshot (F : Type) where
  version : ℕ
  sessions : List (SessionSnapshot F)
  currentWorkspace : String
  knownWorkspaces : List String
  deriving DecidableEq, Repr

/-- The known workspaces in insertion order, and the active one. -/
structure WorkspaceState where
  known : List String
  current : String
  deriving DecidableEq, Repr

/-- The sessions of a server, with the process-wide counters that hold the next ids. -/
structure SessionManager (F : Type) where
  sessions : List (NamedSession F)
  workspaces : WorkspaceState
  nextPaneId : ℕ
  nextWindowId : ℕ

variable {F : Type}

/-- The largest pane id in a tree. -/
def maxPaneIdInNode : SplitNodeSnapshot F → ℕ
  | .pane id _ => id
  | .split _ _ left right => max (maxPaneIdInNode left) (maxPaneIdInNode right)

namespace ServerSnapshot

/-- Validate the version of a snapshot and migrate it. -/
def load (snap : ServerSnapshot F) : Option (ServerSnapshot F) :=
  if snap.version < snapshotVersionMin then none
  else if snap.version < snapshotVersion then some { snap with version := snapshotVersion }
  else some snap

/-- The largest pane id in a snapshot. -/
def maxPaneId (snap : ServerSnapshot F) : ℕ :=
  ((snap.sessions.flatMap SessionSnapshot.windows).map fun w => maxPaneIdInNode w.layout).foldr max 0

/-- The largest window id in a snapshot. -/
def maxWindowId (snap : ServerSnapshot F) : ℕ :=
  ((snap.sessions.flatMap SessionSnapshot.windows).map WindowSnapshot.id).foldr max 0

end ServerSnapshot

/-! ## Restoring -/

/-- What the loop over the sessions has restored so far. -/
structure Restoring (F : Type) where
  sessions : List (NamedSession F)
  restored : List String
  workspaces : List String

/-- Add a restored session. -/
def Restoring.add (r : Restoring F) (s : NamedSession F) : Restoring F where
  sessions := r.sessions ++ [s]
  restored := r.restored ++ [s.name]
  workspaces :=
    if s.workspaceName = "" ∨ s.workspaceName ∈ r.workspaces then r.workspaces
    else r.workspaces ++ [s.workspaceName]

/-- Add the workspaces that are named and not yet known. -/
def addKnown (known : List String) : List String → List String
  | [] => known
  | ws :: rest => addKnown (if ws = "" ∨ ws ∈ known then known else known ++ [ws]) rest

variable [Ratio F]

/-- Restore the sessions one after the other; a name that exists is skipped, and so is a session
    that fails. -/
def restoreSessions (opened : ℕ → ℕ → Opened) (pick : ℕ → ℕ) :
    List (SessionSnapshot F × ℕ) → Restoring F → Restoring F
  | [], r => r
  | (snap, i) :: snaps, r =>
    if snap.name ∈ r.sessions.map NamedSession.name then restoreSessions opened pick snaps r
    else
      match NamedSession.restoreFromSnapshot snap (opened i) (pick i) with
      | .ok session => restoreSessions opened pick snaps (r.add session)
      | .error _ => restoreSessions opened pick snaps r

namespace SessionManager

omit [Ratio F] in
/-- A server before anything is restored. -/
def start : SessionManager F := ⟨[], ⟨[defaultWorkspace], defaultWorkspace⟩, 1, 1⟩

omit [Ratio F] in
/-- Hand out a pane id. -/
def newPaneId (s : SessionManager F) : ℕ × SessionManager F :=
  (s.nextPaneId, { s with nextPaneId := (s.nextPaneId + 1) % 2 ^ 32 })

omit [Ratio F] in
/-- Hand out a window id. -/
def newWindowId (s : SessionManager F) : ℕ × SessionManager F :=
  (s.nextWindowId, { s with nextWindowId := (s.nextWindowId + 1) % 2 ^ 32 })

omit [Ratio F] in
/-- Raise the pane counter. -/
def setMinPaneId (s : SessionManager F) (minId : ℕ) : SessionManager F :=
  { s with nextPaneId := max s.nextPaneId minId }

omit [Ratio F] in
/-- Raise the window counter. -/
def setMinWindowId (s : SessionManager F) (minId : ℕ) : SessionManager F :=
  { s with nextWindowId := max s.nextWindowId minId }

/-- Restore every session of a snapshot; also returns the names of those restored. -/
def restoreFromSnapshot (s : SessionManager F) (snap : ServerSnapshot F) (opened : ℕ → ℕ → Opened)
    (pick : ℕ → ℕ) : SessionManager F × List String :=
  if snap.version < snapshotVersionMin ∨ snapshotVersion < snap.version then (s, [])
  else
    let r := restoreSessions opened pick snap.sessions.zipIdx ⟨s.sessions, [], []⟩
    let known := addKnown s.workspaces.known (snap.knownWorkspaces ++ r.workspaces)
    let current :=
      if snap.currentWorkspace ≠ "" ∧ snap.currentWorkspace ∈ known then snap.currentWorkspace
      else s.workspaces.current
    ({ s with sessions := r.sessions, workspaces := ⟨known, current⟩ }, r.restored)

/-- Start with a snapshot: restore it and raise the counters; `u32` additions wrap around. -/
def restore (s : SessionManager F) (snap : ServerSnapshot F) (opened : ℕ → ℕ → Opened) (pick : ℕ → ℕ) :
    SessionManager F :=
  match snap.load with
  | none => s
  | some snap =>
    let (s, restored) := s.restoreFromSnapshot snap opened pick
    if restored = [] then s
    else
      (s.setMinPaneId ((snap.maxPaneId + 1) % 2 ^ 32)).setMinWindowId
        ((snap.maxWindowId + 1) % 2 ^ 32)

end SessionManager

/-! ## What is restored -/

instance (snap : WindowSnapshot F) (opened : Opened) : Decidable (snap.Restorable opened) :=
  decidable_of_iff (snap.layout.collectPaneIds.Nodup ∧
    ∀ id ∈ snap.layout.collectPaneIds, opened id (snap.layout.findCwd id) = .ok ())
    ⟨fun h => ⟨h.1, h.2⟩, fun h => ⟨h.1, h.2⟩⟩

/-- The windows of a session snapshot that can be restored. -/
def SessionSnapshot.restorable (snap : SessionSnapshot F) (opened : ℕ → Opened) :
    List (WindowSnapshot F) :=
  (snap.windows.zipIdx.filter fun e => e.1.Restorable (opened e.2)).map Prod.fst

theorem SessionSnapshot.restored_eq (snap : SessionSnapshot F) (opened : ℕ → Opened) :
    snap.restored opened =
      (snap.restorable opened).map fun ws => .ofSnapshot ws snap.cols snap.rows := by
  rw [restored, restorable]
  induction snap.windows.zipIdx with
  | nil => rfl
  | cons e l ih =>
    rw [List.filterMap_cons, List.filter_cons]
    by_cases hr : e.1.Restorable (opened e.2)
    · rw [Window.restoreFromSnapshot_ok_iff.2 ⟨hr, rfl⟩, if_pos (decide_eq_true hr), List.map_cons,
        List.map_cons, ← ih]
      rfl
    · have hnone : (Window.restoreFromSnapshot e.1 snap.cols snap.rows (opened e.2)).toOption =
          none := by
        cases hw : Window.restoreFromSnapshot e.1 snap.cols snap.rows (opened e.2) with
        | error e => rfl
        | ok w => exact absurd (Window.restoreFromSnapshot_ok_iff.1 hw).1 hr
      rw [hnone, if_neg (by simpa using hr), ← ih]

/-- The sessions that the loop adds to those with the given names. -/
def acceptedSessions (opened : ℕ → ℕ → Opened) :
    List (SessionSnapshot F × ℕ) → List String → List (SessionSnapshot F × ℕ)
  | [], _ => []
  | (snap, i) :: snaps, names =>
    if snap.name ∈ names ∨ snap.restorable (opened i) = [] then acceptedSessions opened snaps names
    else (snap, i) :: acceptedSessions opened snaps (names ++ [snap.name])

namespace ServerSnapshot

/-- The sessions of a snapshot that are restored, with their positions. -/
def accepted (snap : ServerSnapshot F) (opened : ℕ → ℕ → Opened) : List (SessionSnapshot F × ℕ) :=
  if snap.version < snapshotVersionMin ∨ snapshotVersion < snap.version then []
  else acceptedSessions opened snap.sessions.zipIdx []

/-- The windows of a snapshot that are restored. -/
def restorable (snap : ServerSnapshot F) (opened : ℕ → ℕ → Opened) : List (WindowSnapshot F) :=
  (snap.accepted opened).flatMap fun e => e.1.restorable (opened e.2)

end ServerSnapshot

theorem restoreSessions_eq {opened : ℕ → ℕ → Opened} {pick : ℕ → ℕ} :
    ∀ (snaps : List (SessionSnapshot F × ℕ)) (r : Restoring F),
      (restoreSessions opened pick snaps r).sessions = r.sessions ++
          (acceptedSessions opened snaps (r.sessions.map NamedSession.name)).map
            (fun e => .ofSnapshot e.1 (opened e.2) (pick e.2)) ∧
        (restoreSessions opened pick snaps r).restored = r.restored ++
          (acceptedSessions opened snaps (r.sessions.map NamedSession.name)).map (·.1.name)
  | [], r => by simp [restoreSessions, acceptedSessions]
  | (snap, i) :: snaps, r => by
    rw [restoreSessions, acceptedSessions]
    by_cases hname : snap.name ∈ r.sessions.map NamedSession.name
    · rw [if_pos hname, if_pos (Or.inl hname)]
      exact restoreSessions_eq snaps r
    rw [if_neg hname, NamedSession.restoreFromSnapshot_eq]
    by_cases hnone : snap.restorable (opened i) = []
    · have hrestored : snap.restored (opened i) = [] := by
        rw [SessionSnapshot.restored_eq, hnone]
        rfl
      rw [if_pos hrestored, if_pos (Or.inr hnone)]
      exact restoreSessions_eq snaps r
    · have hrestored : snap.restored (opened i) ≠ [] := by
        rw [SessionSnapshot.restored_eq]
        exact fun h => hnone (List.map_eq_nil_iff.1 h)
      rw [if_neg hrestored, if_neg (not_or.2 ⟨hname, hnone⟩)]
      obtain ⟨hs, hr⟩ := restoreSessions_eq snaps
        (r.add (NamedSession.ofSnapshot snap (opened i) (pick i)))
      have hnames : (r.add (NamedSession.ofSnapshot snap (opened i) (pick i))).sessions.map
          NamedSession.name = r.sessions.map NamedSession.name ++ [snap.name] := by
        rw [Restoring.add, List.map_append]
        rfl
      rw [hnames] at hs hr
      constructor
      · rw [hs, Restoring.add, List.append_assoc]
        rfl
      · rw [hr, Restoring.add, List.append_assoc]
        rfl

namespace SessionManager

variable {snap : ServerSnapshot F} {opened : ℕ → ℕ → Opened} {pick : ℕ → ℕ}

/-- The counter after ids up to `maxId` have been restored. -/
def bumped (maxId : ℕ) : ℕ := max 1 ((maxId + 1) % 2 ^ 32)

omit [Ratio F] in
/-- Loading changes nothing but the version. -/
theorem load_cases (snap : ServerSnapshot F) :
    (snap.version < snapshotVersionMin ∧ snap.load = none) ∨
    (¬snap.version < snapshotVersionMin ∧ ∃ version, snap.load = some { snap with version := version } ∧
      ¬version < snapshotVersionMin ∧ (snapshotVersion < version ↔ snapshotVersion < snap.version)) := by
  unfold ServerSnapshot.load
  by_cases hmin : snap.version < snapshotVersionMin
  · exact Or.inl ⟨hmin, if_pos hmin⟩
  refine Or.inr ⟨hmin, ?_⟩
  rw [if_neg hmin]
  by_cases hold : snap.version < snapshotVersion
  · rw [if_pos hold]
    refine ⟨snapshotVersion, rfl, by decide, ?_⟩
    omega
  · rw [if_neg hold]
    exact ⟨snap.version, rfl, hmin, Iff.rfl⟩

/-- A restore of the sessions leaves the counters alone. -/
theorem restoreFromSnapshot_start (snap : ServerSnapshot F) (opened : ℕ → ℕ → Opened)
    (pick : ℕ → ℕ) :
    (start.restoreFromSnapshot snap opened pick).1.sessions = (snap.accepted opened).map
        (fun e => NamedSession.ofSnapshot e.1 (opened e.2) (pick e.2)) ∧
      (start.restoreFromSnapshot snap opened pick).2 = (snap.accepted opened).map (·.1.name) ∧
      (start.restoreFromSnapshot snap opened pick).1.nextPaneId = 1 ∧
      (start.restoreFromSnapshot snap opened pick).1.nextWindowId = 1 := by
  rw [restoreFromSnapshot, ServerSnapshot.accepted]
  by_cases hversion : snap.version < snapshotVersionMin ∨ snapshotVersion < snap.version
  · rw [if_pos hversion, if_pos hversion]
    exact ⟨rfl, rfl, rfl, rfl⟩
  · rw [if_neg hversion, if_neg hversion]
    obtain ⟨hsessions, hnames⟩ := @restoreSessions_eq F _ opened pick
      snap.sessions.zipIdx ⟨[], [], []⟩
    exact ⟨hsessions, hnames, rfl, rfl⟩

/-- **What a start restores.** -/
theorem restore_start (snap : ServerSnapshot F) (opened : ℕ → ℕ → Opened) (pick : ℕ → ℕ) :
    (start.restore snap opened pick).sessions = (snap.accepted opened).map
        (fun e => NamedSession.ofSnapshot e.1 (opened e.2) (pick e.2)) ∧
      (snap.accepted opened ≠ [] →
        (start.restore snap opened pick).nextPaneId = bumped snap.maxPaneId ∧
          (start.restore snap opened pick).nextWindowId = bumped snap.maxWindowId) := by
  rw [restore]
  rcases load_cases snap with ⟨hmin, hload⟩ | ⟨hmin, version, hload, hmin', hmax⟩
  · have hnone : snap.accepted opened = [] := if_pos (Or.inl hmin)
    rw [hload, hnone]
    exact ⟨rfl, fun h => absurd rfl h⟩
  -- the version that the load leaves is accepted exactly if the one of the file is
  have haccepted : { snap with version := version }.accepted opened = snap.accepted opened := by
    rw [ServerSnapshot.accepted, ServerSnapshot.accepted]
    exact if_congr (or_congr (iff_of_false hmin' hmin) hmax) rfl rfl
  obtain ⟨hsessions, hnames, hpane, hwindow⟩ :=
    restoreFromSnapshot_start { snap with version := version } opened pick
  rw [haccepted] at hsessions hnames
  rw [hload]
  dsimp only
  generalize start.restoreFromSnapshot { snap with version := version } opened pick = restored
    at hsessions hnames hpane hwindow
  obtain ⟨s, names⟩ := restored
  dsimp only at hsessions hnames hpane hwindow ⊢
  by_cases hnone : names = []
  · rw [if_pos hnone]
    exact ⟨hsessions, fun h => absurd (List.map_eq_nil_iff.1 (hnames.symm.trans hnone)) h⟩
  · rw [if_neg hnone]
    refine ⟨hsessions, fun _ => ⟨?_, ?_⟩⟩
    · rw [setMinWindowId, setMinPaneId, bumped, hpane]
      rfl
    · rw [setMinWindowId, setMinPaneId, bumped, hwindow]
      rfl

end SessionManager

/-! ## Consistency -/

omit [Ratio F] in
/-- The pane ids of a session. -/
def NamedSession.paneIds (s : NamedSession F) : List ℕ :=
  s.session.windows.toList.flatMap fun e => e.2.paneIds

namespace SessionManager

omit [Ratio F] in
/-- The pane ids of all windows of all sessions. -/
def paneIds (s : SessionManager F) : List ℕ := s.sessions.flatMap NamedSession.paneIds

omit [Ratio F] in
/-- The window ids of all sessions. -/
def windowIds (s : SessionManager F) : List ℕ := s.sessions.flatMap (·.session.windows.keys)

omit [Ratio F] in
/-- The pane ids that are handed out next. -/
def newPaneIds : ℕ → SessionManager F → List ℕ
  | 0, _ => []
  | n + 1, s => s.newPaneId.1 :: newPaneIds n s.newPaneId.2

omit [Ratio F] in
/-- The window ids that are handed out next. -/
def newWindowIds : ℕ → SessionManager F → List ℕ
  | 0, _ => []
  | n + 1, s => s.newWindowId.1 :: newWindowIds n s.newWindowId.2

/-- A server that holds `count` windows: ids are unique, every focus is on something that exists,
    and the next `n` pane ids and `m` window ids are new. -/
structure Consistent (s : SessionManager F) (count n m : ℕ) : Prop where
  paneIds : s.paneIds.Nodup
  windowIds : s.windowIds.Nodup
  kept : s.windowIds.length = count
  focusedWindow : ∀ ses ∈ s.sessions, ses.session.focusedWindowId ∈ ses.session.windows
  focusedPane : ∀ ses ∈ s.sessions, ∀ (k : ℕ) (w : Window F), ses.session.windows[k]? = some w →
    w.focusedPaneId ∈ w.paneIds
  newPanes : ∀ id ∈ s.paneIds, id ∉ newPaneIds n s
  newWindows : ∀ id ∈ s.windowIds, id ∉ newWindowIds m s

end SessionManager

namespace ServerSnapshot

/-- Every id is a `u32`. -/
def InRange (snap : ServerSnapshot F) : Prop :=
  ∀ s ∈ snap.sessions, ∀ w ∈ s.windows, w.id < 2 ^ 32 ∧ ∀ id ∈ w.layout.collectPaneIds, id < 2 ^ 32

/-- The part of a snapshot that is restored: ids are unique, every window has its focus on one of
    its panes, and `n` pane ids and `m` window ids can be handed out before the counters, raised
    above the largest ids of the snapshot, come to an id that is restored. -/
structure Consistent (snap : ServerSnapshot F) (opened : ℕ → ℕ → Opened) (n m : ℕ) : Prop where
  paneIds : ((snap.restorable opened).flatMap (·.layout.collectPaneIds)).Nodup
  windowIds : ((snap.restorable opened).map WindowSnapshot.id).Nodup
  focusedPane : ∀ w ∈ snap.restorable opened, w.focusedPaneId ∈ w.layout.collectPaneIds
  newPanes : ∀ w ∈ snap.restorable opened, ∀ id ∈ w.layout.collectPaneIds,
    n ≤ (id + 2 ^ 32 - SessionManager.bumped snap.maxPaneId) % 2 ^ 32
  newWindows : ∀ w ∈ snap.restorable opened,
    m ≤ (w.id + 2 ^ 32 - SessionManager.bumped snap.maxWindowId) % 2 ^ 32

end ServerSnapshot

/-! ## The ids of what is restored -/

theorem Window.paneIds_ofSnapshot {ws : WindowSnapshot F} (h : ws.layout.collectPaneIds.Nodup)
    (cols rows : ℕ) :
    (ofSnapshot ws cols rows : Window F).paneIds.Perm ws.layout.collectPaneIds := by
  have hkeys : ((ws.layout.computePaneSizes cols rows).map paneEntry).map Prod.fst =
      ws.layout.collectPaneIds := by
    rw [List.map_map, ← map_fst_computePaneSizes _ cols rows]
    rfl
  have htiled : (ofSnapshot ws cols rows : Window F).panes.toList.Perm
      ((ws.layout.computePaneSizes cols rows).map paneEntry) :=
    toList_ofList_perm (hkeys ▸ h)
  have hperm := htiled.map Prod.fst
  rw [map_fst_toList_eq_keys, hkeys] at hperm
  have hserial : (∅ : IdMap SerialPane).keys = [] := rfl
  rwa [paneIds, ofSnapshot, hserial, List.append_nil]

namespace SessionSnapshot

variable {snap : SessionSnapshot F} {opened : ℕ → Opened}

omit [Ratio F] in
theorem restorable_of_mem {ws : WindowSnapshot F} (h : ws ∈ snap.restorable opened) :
    ws ∈ snap.windows ∧ ws.layout.collectPaneIds.Nodup := by
  obtain ⟨e, he, rfl⟩ := List.mem_map.1 h
  obtain ⟨he, hr⟩ := List.mem_filter.1 he
  have hr : e.1.Restorable (opened e.2) := of_decide_eq_true hr
  exact ⟨List.mem_of_getElem? (List.mem_zipIdx_iff_getElem?.1 he), hr.nodup⟩

/-- The windows under their ids. -/
theorem toList_windowsOf (h : ((snap.restorable opened).map WindowSnapshot.id).Nodup) :
    (NamedSession.windowsOf snap opened).toList.Perm
      ((snap.restorable opened).map fun ws => (ws.id, .ofSnapshot ws snap.cols snap.rows)) := by
  have hl : (snap.restored opened).map (fun w => (w.id, w)) =
      (snap.restorable opened).map fun ws => (ws.id, .ofSnapshot ws snap.cols snap.rows) := by
    rw [restored_eq, List.map_map]
    rfl
  rw [NamedSession.windowsOf, hl]
  refine toList_ofList_perm ?_
  rwa [List.map_map]

theorem keys_windowsOf (h : ((snap.restorable opened).map WindowSnapshot.id).Nodup) :
    (NamedSession.windowsOf snap opened).keys.Perm ((snap.restorable opened).map WindowSnapshot.id) := by
  have hperm := (toList_windowsOf h).map Prod.fst
  rwa [map_fst_toList_eq_keys, List.map_map] at hperm

theorem mem_keys_windowsOf {k : ℕ} (h : k ∈ (NamedSession.windowsOf snap opened).keys) :
    k ∈ (snap.restorable opened).map WindowSnapshot.id := by
  obtain ⟨w, hw, rfl⟩ := NamedSession.mem_windowsOf.1 (mem_keys.1 h)
  rw [restored_eq] at hw
  obtain ⟨ws, hws, rfl⟩ := List.mem_map.1 hw
  exact List.mem_map.2 ⟨ws, hws, rfl⟩

theorem paneIds_ofSnapshot (h : ((snap.restorable opened).map WindowSnapshot.id).Nodup) (pick : ℕ) :
    (NamedSession.ofSnapshot snap opened pick).paneIds.Perm
      ((snap.restorable opened).flatMap (·.layout.collectPaneIds)) := by
  refine ((toList_windowsOf h).flatMap_right _).trans ?_
  rw [List.flatMap_map]
  exact List.Perm.flatMap_left _ fun ws hws =>
    Window.paneIds_ofSnapshot (restorable_of_mem hws).2 _ _

end SessionSnapshot

/-! ## The counters -/

/-- A wrapping counter at `c` meets `id` among its next `n` values exactly if `id` is less than `n`
    steps ahead. -/
theorem counter_meets_iff {c id : ℕ} (hc : c < 2 ^ 32) (hid : id < 2 ^ 32) (n : ℕ) :
    (∃ i < n, (c + i) % 2 ^ 32 = id) ↔ ¬n ≤ (id + 2 ^ 32 - c) % 2 ^ 32 := by
  constructor
  · rintro ⟨i, hi, rfl⟩
    omega
  · intro h
    exact ⟨(id + 2 ^ 32 - c) % 2 ^ 32, by omega, by omega⟩

/-- The values of a wrapping counter: the next one, and those from the one after it on. -/
theorem exists_counter_succ {c id : ℕ} (hc : c < 2 ^ 32) (n : ℕ) :
    (∃ i < n + 1, (c + i) % 2 ^ 32 = id) ↔
      id = c ∨ ∃ i < n, ((c + 1) % 2 ^ 32 + i) % 2 ^ 32 = id := by
  constructor
  · rintro ⟨i, hi, rfl⟩
    cases i with
    | zero => exact .inl (Nat.mod_eq_of_lt hc)
    | succ i => exact .inr ⟨i, by omega, by omega⟩
  · rintro (rfl | ⟨i, hi, rfl⟩)
    · exact ⟨0, by omega, Nat.mod_eq_of_lt hc⟩
    · exact ⟨i + 1, by omega, by omega⟩

namespace SessionManager

omit [Ratio F] in
theorem mem_newPaneIds {id : ℕ} : ∀ {n : ℕ} {s : SessionManager F}, s.nextPaneId < 2 ^ 32 →
    (id ∈ newPaneIds n s ↔ ∃ i < n, (s.nextPaneId + i) % 2 ^ 32 = id)
  | 0, s, _ => by simp [newPaneIds]
  | n + 1, s, hs => by
    have hnext : s.newPaneId.2.nextPaneId = (s.nextPaneId + 1) % 2 ^ 32 := rfl
    rw [newPaneIds, List.mem_cons, mem_newPaneIds (by rw [hnext]; omega), hnext]
    exact (exists_counter_succ hs n).symm

omit [Ratio F] in
theorem mem_newWindowIds {id : ℕ} : ∀ {n : ℕ} {s : SessionManager F}, s.nextWindowId < 2 ^ 32 →
    (id ∈ newWindowIds n s ↔ ∃ i < n, (s.nextWindowId + i) % 2 ^ 32 = id)
  | 0, s, _ => by simp [newWindowIds]
  | n + 1, s, hs => by
    have hnext : s.newWindowId.2.nextWindowId = (s.nextWindowId + 1) % 2 ^ 32 := rfl
    rw [newWindowIds, List.mem_cons, mem_newWindowIds (by rw [hnext]; omega), hnext]
    exact (exists_counter_succ hs n).symm

theorem bumped_lt (maxId : ℕ) : bumped maxId < 2 ^ 32 := by
  unfold bumped
  omega

end SessionManager

/-! ## Consistency of what is restored -/

omit [Ratio F] in
theorem mem_acceptedSessions {opened : ℕ → ℕ → Opened} {e : SessionSnapshot F × ℕ} :
    ∀ {snaps : List (SessionSnapshot F × ℕ)} {names : List String},
      e ∈ acceptedSessions opened snaps names → e ∈ snaps ∧ e.1.restorable (opened e.2) ≠ []
  | [], _, h => by cases h
  | (snap, i) :: snaps, names, h => by
    rw [acceptedSessions] at h
    split_ifs at h with hskip
    · obtain ⟨hmem, hne⟩ := mem_acceptedSessions h
      exact ⟨List.mem_cons_of_mem _ hmem, hne⟩
    · rcases List.mem_cons.1 h with rfl | h
      · exact ⟨List.mem_cons_self, fun hnil => hskip (Or.inr hnil)⟩
      · obtain ⟨hmem, hne⟩ := mem_acceptedSessions h
        exact ⟨List.mem_cons_of_mem _ hmem, hne⟩

namespace ServerSnapshot

variable {snap : ServerSnapshot F} {opened : ℕ → ℕ → Opened}

omit [Ratio F] in
theorem mem_accepted {e : SessionSnapshot F × ℕ} (h : e ∈ snap.accepted opened) :
    e.1 ∈ snap.sessions ∧ e.1.restorable (opened e.2) ≠ [] := by
  rw [accepted] at h
  split_ifs at h
  · cases h
  · obtain ⟨hmem, hne⟩ := mem_acceptedSessions h
    exact ⟨List.mem_of_getElem? (List.mem_zipIdx_iff_getElem?.1 hmem), hne⟩

omit [Ratio F] in
theorem mem_restorable {ws : WindowSnapshot F} : ws ∈ snap.restorable opened ↔
    ∃ e ∈ snap.accepted opened, ws ∈ e.1.restorable (opened e.2) := List.mem_flatMap

omit [Ratio F] in
theorem InRange.restorable (h : snap.InRange) {ws : WindowSnapshot F}
    (hws : ws ∈ snap.restorable opened) :
    ws.id < 2 ^ 32 ∧ ∀ id ∈ ws.layout.collectPaneIds, id < 2 ^ 32 := by
  obtain ⟨e, he, hws⟩ := mem_restorable.1 hws
  exact h _ (mem_accepted he).1 _ (SessionSnapshot.restorable_of_mem hws).1

omit [Ratio F] in
/-- Distinct window ids are distinct in every session. -/
theorem nodup_of_accepted (h : ((snap.restorable opened).map WindowSnapshot.id).Nodup)
    {e : SessionSnapshot F × ℕ} (he : e ∈ snap.accepted opened) :
    ((e.1.restorable (opened e.2)).map WindowSnapshot.id).Nodup := by
  rw [ServerSnapshot.restorable, List.map_flatMap, List.nodup_flatMap] at h
  exact h.1 e he

end ServerSnapshot

namespace SessionManager

variable {snap : ServerSnapshot F} {opened : ℕ → ℕ → Opened} (pick : ℕ → ℕ)

theorem windowIds_restore : (start.restore snap opened pick).windowIds =
    (snap.accepted opened).flatMap fun e => (NamedSession.windowsOf e.1 (opened e.2)).keys := by
  rw [windowIds, (restore_start snap opened pick).1, List.flatMap_map]
  rfl

theorem windowIds_restore_perm (hnd : ((snap.restorable opened).map WindowSnapshot.id).Nodup) :
    (start.restore snap opened pick).windowIds.Perm
      ((snap.restorable opened).map WindowSnapshot.id) := by
  rw [windowIds_restore, ServerSnapshot.restorable, List.map_flatMap]
  exact List.Perm.flatMap_left _ fun e he =>
    SessionSnapshot.keys_windowsOf (ServerSnapshot.nodup_of_accepted hnd he)

/-- No window is lost and no window id occurs twice exactly if the ids are distinct. -/
theorem windowIds_restore_iff : ((start.restore snap opened pick).windowIds.Nodup ∧
    (start.restore snap opened pick).windowIds.length = (snap.restorable opened).length) ↔
      ((snap.restorable opened).map WindowSnapshot.id).Nodup := by
  constructor
  · rintro ⟨hnd, hlen⟩
    have hsub : (start.restore snap opened pick).windowIds ⊆
        (snap.restorable opened).map WindowSnapshot.id := by
      intro k hk
      rw [windowIds_restore] at hk
      obtain ⟨e, he, hk⟩ := List.mem_flatMap.1 hk
      obtain ⟨ws, hws, rfl⟩ := List.mem_map.1 (SessionSnapshot.mem_keys_windowsOf hk)
      exact List.mem_map.2 ⟨ws, ServerSnapshot.mem_restorable.2 ⟨e, he, hws⟩, rfl⟩
    have hperm := (List.subperm_of_subset hnd hsub).perm_of_length_le
      (by rw [List.length_map, hlen])
    exact hperm.nodup_iff.1 hnd
  · intro hnd
    have hperm := windowIds_restore_perm pick hnd
    exact ⟨hperm.nodup_iff.2 hnd, by rw [hperm.length_eq, List.length_map]⟩

theorem paneIds_restore_perm (hnd : ((snap.restorable opened).map WindowSnapshot.id).Nodup) :
    (start.restore snap opened pick).paneIds.Perm
      ((snap.restorable opened).flatMap (·.layout.collectPaneIds)) := by
  rw [paneIds, (restore_start snap opened pick).1, ServerSnapshot.restorable, List.flatMap_map,
    List.flatMap_assoc]
  exact List.Perm.flatMap_left _ fun e he =>
    SessionSnapshot.paneIds_ofSnapshot (ServerSnapshot.nodup_of_accepted hnd he) _

theorem mem_windows_restore (hnd : ((snap.restorable opened).map WindowSnapshot.id).Nodup)
    {P : Window F → Prop} :
    (∀ ses ∈ (start.restore snap opened pick).sessions, ∀ (k : ℕ) (w : Window F),
      ses.session.windows[k]? = some w → P w) ↔
    ∀ e ∈ snap.accepted opened, ∀ ws ∈ e.1.restorable (opened e.2),
      P (.ofSnapshot ws e.1.cols e.1.rows) := by
  rw [(restore_start snap opened pick).1, List.forall_mem_map]
  refine forall₂_congr fun e he => ?_
  have hperm := SessionSnapshot.toList_windowsOf (ServerSnapshot.nodup_of_accepted hnd he)
  constructor
  · intro h ws hws
    refine h ws.id _ (mem_toList_iff_getElem?_eq_some.1 (hperm.mem_iff.2 ?_))
    exact List.mem_map.2 ⟨ws, hws, rfl⟩
  · intro h k w hw
    have hmem := hperm.mem_iff.1 (mem_toList_iff_getElem?_eq_some.2 hw)
    obtain ⟨ws, hws, he⟩ := List.mem_map.1 hmem
    cases he
    exact h ws hws

theorem nextIds_restore {ws : WindowSnapshot F} (hws : ws ∈ snap.restorable opened) :
    (start.restore snap opened pick).nextPaneId = bumped snap.maxPaneId ∧
      (start.restore snap opened pick).nextWindowId = bumped snap.maxWindowId := by
  obtain ⟨e, he, -⟩ := ServerSnapshot.mem_restorable.1 hws
  exact (restore_start snap opened pick).2 (List.ne_nil_of_mem he)

/-- **Uniqueness after a restore.**  The server that a start with a snapshot makes is consistent
    exactly if the part of the snapshot that is restored is. -/
theorem restored_consistent_iff (hsnap : snap.InRange) (opened : ℕ → ℕ → Opened) (pick : ℕ → ℕ)
    (n m : ℕ) :
    (start.restore snap opened pick).Consistent (snap.restorable opened).length n m ↔
      snap.Consistent opened n m := by
  constructor
  · intro h
    have hnd := (windowIds_restore_iff pick).1 ⟨h.windowIds, h.kept⟩
    have hpanes := paneIds_restore_perm pick hnd
    have hwindows := windowIds_restore_perm pick hnd
    refine ⟨hpanes.nodup_iff.1 h.paneIds, hnd, ?_, ?_, ?_⟩
    · intro ws hws
      obtain ⟨e, he, hmem⟩ := ServerSnapshot.mem_restorable.1 hws
      have :=
        (mem_windows_restore pick (P := fun w => w.focusedPaneId ∈ w.paneIds) hnd).1 h.focusedPane
        e he ws hmem
      have hids := Window.paneIds_ofSnapshot (SessionSnapshot.restorable_of_mem hmem).2
      exact (hids _ _).mem_iff.1 this
    · intro ws hws id hid
      have hnew := h.newPanes id (hpanes.mem_iff.2 (List.mem_flatMap.2 ⟨ws, hws, hid⟩))
      have hnext := (nextIds_restore pick hws).1
      rw [mem_newPaneIds (hnext ▸ bumped_lt _), hnext,
        counter_meets_iff (bumped_lt _) ((hsnap.restorable hws).2 id hid), not_not] at hnew
      exact hnew
    · intro ws hws
      have hnew := h.newWindows ws.id (hwindows.mem_iff.2 (List.mem_map.2 ⟨ws, hws, rfl⟩))
      have hnext := (nextIds_restore pick hws).2
      rw [mem_newWindowIds (hnext ▸ bumped_lt _), hnext,
        counter_meets_iff (bumped_lt _) (hsnap.restorable hws).1, not_not] at hnew
      exact hnew
  · intro h
    have hpanes := paneIds_restore_perm pick h.windowIds
    have hwindows := windowIds_restore_perm pick h.windowIds
    obtain ⟨hids, hkept⟩ := (windowIds_restore_iff pick).2 h.windowIds
    refine ⟨hpanes.nodup_iff.2 h.paneIds, hids, hkept, ?_, ?_, ?_, ?_⟩
    · rw [(restore_start snap opened pick).1, List.forall_mem_map]
      intro e he
      refine NamedSession.focusedWindowId_mem ?_ _
      rw [SessionSnapshot.restored_eq]
      exact fun hnil => (ServerSnapshot.mem_accepted he).2 (List.map_eq_nil_iff.1 hnil)
    · refine (mem_windows_restore pick (P := fun w => w.focusedPaneId ∈ w.paneIds) h.windowIds).2 ?_
      intro e he ws hws
      refine (Window.paneIds_ofSnapshot (SessionSnapshot.restorable_of_mem hws).2 _ _).mem_iff.2 ?_
      exact h.focusedPane ws (ServerSnapshot.mem_restorable.2 ⟨e, he, hws⟩)
    · intro id hid
      obtain ⟨ws, hws, hid⟩ := List.mem_flatMap.1 (hpanes.mem_iff.1 hid)
      have hnext := (nextIds_restore pick hws).1
      rw [mem_newPaneIds (hnext ▸ bumped_lt _), hnext,
        counter_meets_iff (bumped_lt _) ((hsnap.restorable hws).2 id hid), not_not]
      exact h.newPanes ws hws id hid
    · intro id hid
      obtain ⟨ws, hws, rfl⟩ := List.mem_map.1 (hwindows.mem_iff.1 hid)
      have hnext := (nextIds_restore pick hws).2
      rw [mem_newWindowIds (hnext ▸ bumped_lt _), hnext,
        counter_meets_iff (bumped_lt _) (hsnap.restorable hws).1, not_not]
      exact h.newWindows ws hws

/-- A snapshot with a single session. -/
def savedWindows (windows : List (WindowSnapshot ℚ)) : ServerSnapshot ℚ :=
  ⟨snapshotVersion, [⟨"main", "/bin/sh", [], 80, 24, windows, 1, none, "default"⟩], "default",
    ["default"]⟩

/-- Every spawn of every session succeeds. -/
def allSpawned : ℕ → ℕ → Opened := fun _ _ _ _ => .ok ()

/-- Two windows with three panes. -/
theorem restored_consistent_two :
    (start.restore (savedWindows [⟨1, "a", 2, .split .vertical (1 / 2) (.pane 1 none) (.pane 2 none)⟩,
      ⟨2, "b", 3, .pane 3 none⟩]) allSpawned fun _ => 0).Consistent 2 100 100 :=
  (restored_consistent_iff (by rw [ServerSnapshot.InRange]; decide +kernel) allSpawned (fun _ => 0)
    100 100).2 ⟨by decide +kernel, by decide +kernel, by decide +kernel, by decide +kernel,
      by decide +kernel⟩

/-- Two windows with the same pane, two windows with the same id, a focus on a pane that does not
    exist, and a pane with the largest id: each snapshot is restored, and none consistently. -/
theorem restored_collide :
    (let snap := savedWindows [⟨1, "a", 1, .pane 1 none⟩, ⟨2, "b", 1, .pane 1 none⟩]
    snap.InRange ∧
      ¬(start.restore snap allSpawned fun _ => 0).Consistent (snap.restorable allSpawned).length 0 0) ∧
    (let snap := savedWindows [⟨1, "a", 1, .pane 1 none⟩, ⟨1, "b", 2, .pane 2 none⟩]
    snap.InRange ∧
      ¬(start.restore snap allSpawned fun _ => 0).Consistent (snap.restorable allSpawned).length 0 0) ∧
    (let snap := savedWindows [⟨1, "a", 9, .pane 1 none⟩]
    snap.InRange ∧
      ¬(start.restore snap allSpawned fun _ => 0).Consistent (snap.restorable allSpawned).length 0 0) ∧
    (let snap := savedWindows
      [⟨1, "a", 1, .split .vertical (1 / 2) (.pane 1 none) (.pane 4294967295 none)⟩]
    snap.InRange ∧
      ¬(start.restore snap allSpawned fun _ => 0).Consistent (snap.restorable allSpawned).length 1 0) := by
  refine ⟨⟨?_, fun h => ?_⟩, ⟨?_, fun h => ?_⟩, ⟨?_, fun h => ?_⟩, ⟨?_, fun h => ?_⟩⟩
  · rw [ServerSnapshot.InRange]; decide +kernel
  · exact absurd h.paneIds (by decide +kernel)
  · rw [ServerSnapshot.InRange]; decide +kernel
  · exact absurd h.kept (by decide +kernel)
  · rw [ServerSnapshot.InRange]; decide +kernel
  · exact absurd (h.focusedPane _ List.mem_cons_self 1 _ rfl) (by decide +kernel)
  · rw [ServerSnapshot.InRange]; decide +kernel
  · exact absurd (h.newPanes 1 (by decide +kernel)) (by decide +kernel)

end SessionManager

end Nexterm.Server

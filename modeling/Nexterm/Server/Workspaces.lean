/-
  The registry of workspaces (`SessionManager` in `session.rs`) under concurrent calls.

  * `WorkspaceState.create`, `switch`, `rename`, `remove`: what a call does while it holds the
    lock of the registry.
  * `Call`: where a call is between two locks; `Manager.step`: a call is started, or goes on by
    one lock.
  * `WellFormed`: the names are unique, and the default and the current workspace are known; this
    holds at every moment.
  * `Leaves`: the condition on the moment at which a name leaves the registry.
  * `registry_consistent`: with it, every session is in a known workspace once no call is in
    progress.
-/
import Nexterm.Lib.Runs
import Nexterm.Server.Restore
import Nexterm.Vt.Performer

namespace Nexterm.Server

open Nexterm.Vt (trim)

/-! ## The registry -/

/-- The name `source`, replaced by `target`. -/
def replaceName (source target name : String) : String := if name = source then target else name

namespace WorkspaceState

/-- Create a workspace. -/
def create (s : WorkspaceState) (name : String) : Except String WorkspaceState :=
  if name ∈ s.known then .error ("workspace '" ++ name ++ "' already exists")
  else .ok { s with known := s.known ++ [name] }

/-- Switch the currently active workspace. -/
def switch (s : WorkspaceState) (name : String) : Except String WorkspaceState :=
  if name ∉ s.known then .error ("workspace '" ++ name ++ "' not found")
  else .ok { s with current := name }

/-- Rename a workspace. -/
def rename (s : WorkspaceState) (source target : String) : Except String WorkspaceState :=
  if source ∉ s.known then .error ("workspace '" ++ source ++ "' not found")
  else if target ∈ s.known then .error ("workspace '" ++ target ++ "' already exists")
  else if source = defaultWorkspace then
    .error ("cannot rename the default workspace '" ++ defaultWorkspace ++ "'")
  else .ok
    { known := s.known.map (replaceName source target)
      current := replaceName source target s.current }

/-- Delete a workspace in which `sessionCount` sessions have been counted. -/
def remove (s : WorkspaceState) (name : String) (sessionCount : ℕ) (force : Bool) :
    Except String WorkspaceState :=
  if name ∉ s.known then .error ("workspace '" ++ name ++ "' not found")
  else if sessionCount > 0 ∧ !force then
    .error ("workspace '" ++ name ++ "' still has " ++ toString sessionCount ++
      " session(s); retry with force=true")
  else .ok
    { known := s.known.filter (· ≠ name)
      current := replaceName name defaultWorkspace s.current }

/-- The names are unique, and the default and the current workspace are known. -/
structure WellFormed (s : WorkspaceState) : Prop where
  nodup : s.known.Nodup
  default_mem : defaultWorkspace ∈ s.known
  current_mem : s.current ∈ s.known

variable {s s' : WorkspaceState}

theorem create_ok {name : String} (h : s.create name = .ok s') :
    name ∉ s.known ∧ s' = { s with known := s.known ++ [name] } := by
  unfold create at h
  split_ifs at h with hname
  exact ⟨hname, (Except.ok.inj h).symm⟩

theorem switch_ok {name : String} (h : s.switch name = .ok s') :
    name ∈ s.known ∧ s' = { s with current := name } := by
  unfold switch at h
  split_ifs at h with hname
  exact ⟨hname, (Except.ok.inj h).symm⟩

theorem rename_ok {source target : String} (h : s.rename source target = .ok s') :
    source ∈ s.known ∧ target ∉ s.known ∧ source ≠ defaultWorkspace ∧
      s'.known = s.known.map (replaceName source target) ∧
      s'.current = replaceName source target s.current := by
  unfold rename at h
  split_ifs at h with hsource htarget hdefault
  obtain rfl := Except.ok.inj h
  exact ⟨hsource, htarget, hdefault, rfl, rfl⟩

theorem remove_ok {name : String} {sessionCount : ℕ} {force : Bool}
    (h : s.remove name sessionCount force = .ok s') :
    name ∈ s.known ∧ s'.known = s.known.filter (· ≠ name) ∧
      s'.current = replaceName name defaultWorkspace s.current := by
  unfold remove at h
  split_ifs at h with hname
  obtain rfl := Except.ok.inj h
  exact ⟨hname, rfl, rfl⟩

theorem rename_ne {source target : String} (h : s.rename source target = .ok s') : s' ≠ s := by
  obtain ⟨hsource, htarget, -, hknown, -⟩ := rename_ok h
  rintro rfl
  rw [hknown] at htarget
  exact htarget (List.mem_map.2 ⟨source, hsource, if_pos rfl⟩)

theorem remove_ne {name : String} {sessionCount : ℕ} {force : Bool}
    (h : s.remove name sessionCount force = .ok s') : s' ≠ s := by
  obtain ⟨hname, hknown, -⟩ := remove_ok h
  rintro rfl
  rw [hknown] at hname
  simp at hname

/-! ### What stays known -/

theorem mem_rename {source target w : String} (h : s.rename source target = .ok s')
    (hw : w ∈ s.known) (hne : w ≠ source) : w ∈ s'.known := by
  obtain ⟨-, -, -, hknown, -⟩ := rename_ok h
  rw [hknown]
  exact List.mem_map.2 ⟨w, hw, if_neg hne⟩

theorem target_mem_rename {source target : String} (h : s.rename source target = .ok s') :
    target ∈ s'.known := by
  obtain ⟨hsource, -, -, hknown, -⟩ := rename_ok h
  rw [hknown]
  exact List.mem_map.2 ⟨source, hsource, if_pos rfl⟩

theorem mem_remove {name w : String} {sessionCount : ℕ} {force : Bool}
    (h : s.remove name sessionCount force = .ok s') (hw : w ∈ s.known) (hne : w ≠ name) :
    w ∈ s'.known := by
  rw [(remove_ok h).2.1]
  exact List.mem_filter.2 ⟨hw, decide_eq_true hne⟩

theorem WellFormed.create {name : String} (hs : s.WellFormed) (h : s.create name = .ok s') :
    s'.WellFormed := by
  obtain ⟨hname, rfl⟩ := create_ok h
  refine ⟨?_, List.mem_append_left _ hs.default_mem, List.mem_append_left _ hs.current_mem⟩
  exact List.nodup_append.2 ⟨hs.nodup, List.nodup_singleton _, fun a ha b hb => by
    rintro rfl
    exact hname (List.mem_singleton.1 hb ▸ ha)⟩

theorem WellFormed.switch {name : String} (hs : s.WellFormed) (h : s.switch name = .ok s') :
    s'.WellFormed := by
  obtain ⟨hname, rfl⟩ := switch_ok h
  exact ⟨hs.nodup, hs.default_mem, hname⟩

theorem WellFormed.rename {source target : String} (hs : s.WellFormed)
    (h : s.rename source target = .ok s') : s'.WellFormed := by
  obtain ⟨-, htarget, hdefault, hknown, hcurrent⟩ := rename_ok h
  refine ⟨?_, mem_rename h hs.default_mem hdefault.symm, ?_⟩
  · rw [hknown]
    refine hs.nodup.map_on ?_
    intro a ha b hb heq
    unfold replaceName at heq
    split_ifs at heq with hsourceA hsourceB hsourceB
    · rw [hsourceA, hsourceB]
    · exact absurd (heq ▸ hb) htarget
    · exact absurd (heq ▸ ha) htarget
    · exact heq
  · rw [hcurrent]
    unfold replaceName
    split_ifs with hsource
    · exact target_mem_rename h
    · exact mem_rename h hs.current_mem hsource

theorem WellFormed.remove {name : String} {sessionCount : ℕ} {force : Bool} (hs : s.WellFormed)
    (hname : name ≠ defaultWorkspace) (h : s.remove name sessionCount force = .ok s') :
    s'.WellFormed := by
  obtain ⟨-, hknown, hcurrent⟩ := remove_ok h
  have hdefault := mem_remove h hs.default_mem hname.symm
  refine ⟨hknown ▸ hs.nodup.filter _, hdefault, ?_⟩
  rw [hcurrent]
  unfold replaceName
  split_ifs with hcurrentName
  · exact hdefault
  · exact mem_remove h hs.current_mem hcurrentName

end WorkspaceState

/-! ## The calls -/

/-- A call of the session manager. -/
inductive WorkspaceRequest
  | createWorkspace (name : String)
  | switchWorkspace (name : String)
  | renameWorkspace (source target : String)
  | deleteWorkspace (name : String) (force : Bool)
  | getOrCreateAndAttach (name : String)
  deriving DecidableEq

/-- What a call returns. -/
inductive Reply
  | failed (message : String)
  | done
  /-- The post-switch workspace name. -/
  | switched (name : String)
  deriving DecidableEq

/-- Where a call is: what it has read so far, and which lock it takes next. -/
inductive Call
  | requested (r : WorkspaceRequest)
  /-- The registry has the new name; the sessions are listed next. -/
  | renamed (source target : String)
  /-- The sessions `left` are still to be moved out of `source`. -/
  | migrate (source target : String) (left : List String)
  /-- The sessions `arcs` have been listed, and `left` of them are still to be counted. -/
  | count (name : String) (force : Bool) (arcs left : List String) (sessionCount : ℕ)
  /-- The call holds the map of the sessions, and there is no session of this name. -/
  | attaching (name : String)
  /-- Moreover it has read the current workspace. -/
  | spawning (name workspace : String)
  | finished (reply : Reply)
  deriving DecidableEq

/-- A session, as far as workspaces go. -/
structure SessionEntry where
  name : String
  workspaceName : String
  deriving DecidableEq

/-- The session manager: the sessions, the registry, the call that holds the lock of the map from
    one step to the next, and the calls that have been started. -/
structure Manager where
  sessions : List SessionEntry
  state : WorkspaceState
  heldBy : Option ℕ
  calls : List Call

/-- A call is started, or goes on by one lock.  The map of the sessions is walked in the order
    `order`; the shell of a new session may fail to start. -/
inductive ManagerOp
  | start (r : WorkspaceRequest)
  | advance (id : ℕ) (order : List String) (spawned : Except String Unit)

namespace Manager

def new : Manager := ⟨[], ⟨[defaultWorkspace], defaultWorkspace⟩, none, []⟩

/-- The sessions, as a call lists them. -/
def arcs (m : Manager) (order : List String) : List String :=
  if order.Perm (m.sessions.map SessionEntry.name) then order
  else m.sessions.map SessionEntry.name

/-- How many sessions of this name are in the workspace. -/
def inWorkspace (m : Manager) (name workspace : String) : ℕ :=
  m.sessions.countP fun s => s.name = name ∧ s.workspaceName = workspace

/-- Move a session into `target` if it is in `source`. -/
def move (name source target : String) (s : SessionEntry) : SessionEntry :=
  if s.name = name ∧ s.workspaceName = source then { s with workspaceName := target } else s

/-- The end of a call that has tried to change the registry. -/
def commit (m : Manager) (result : Except String WorkspaceState) (next : Call) : Manager × Call :=
  match result with
  | .error message => (m, .finished (.failed message))
  | .ok state => ({ m with state := state }, next)

/-- What a call does up to its second lock, if it is not blocked. -/
def begin (m : Manager) (id : ℕ) (order : List String) : WorkspaceRequest → Option (Manager × Call)
  | .createWorkspace name =>
    if (trim name).isEmpty then some (m, .finished (.failed "workspace name is empty"))
    else some (m.commit (m.state.create (trim name)) (.finished .done))
  | .switchWorkspace name =>
    some (m.commit (m.state.switch name) (.finished (.switched name)))
  | .renameWorkspace source target =>
    if (trim target).isEmpty then some (m, .finished (.failed "new workspace name is empty"))
    else if source = trim target then some (m, .finished .done)
    else some (m.commit (m.state.rename source (trim target)) (.renamed source (trim target)))
  | .deleteWorkspace name force =>
    if name = defaultWorkspace then
      some (m, .finished (.failed
        ("cannot delete the default workspace '" ++ defaultWorkspace ++ "'")))
    else if m.heldBy.isSome then none
    else some (m, .count name force (m.arcs order) (m.arcs order) 0)
  | .getOrCreateAndAttach name =>
    if m.heldBy.isSome then none
    else if name ∈ m.sessions.map SessionEntry.name then some (m, .finished .done)
    else some ({ m with heldBy := some id }, .attaching name)

/-- What a call does up to its next lock, if it is not blocked. -/
def go (m : Manager) (id : ℕ) (order : List String) (spawned : Except String Unit) :
    Call → Option (Manager × Call)
  | .requested r => m.begin id order r
  | .renamed source target =>
    if m.heldBy.isSome then none else some (m, .migrate source target (m.arcs order))
  | .migrate _ _ [] => some (m, .finished .done)
  | .migrate source target (name :: left) =>
    some ({ m with sessions := m.sessions.map (move name source target) },
      .migrate source target left)
  | .count name force arcs (arc :: left) sessionCount =>
    some (m, .count name force arcs left (sessionCount + m.inWorkspace arc name))
  | .count name force arcs [] sessionCount =>
    some (m.commit (m.state.remove name sessionCount force)
      (if force then .migrate name defaultWorkspace arcs else .finished .done))
  | .attaching name => some (m, .spawning name m.state.current)
  | .spawning name workspace =>
    match spawned with
    | .error message => some ({ m with heldBy := none }, .finished (.failed message))
    | .ok () =>
      some ({ m with sessions := m.sessions ++ [⟨name, workspace⟩], heldBy := none },
        .finished .done)
  | .finished _ => none

/-- One step; a call that is blocked or has finished does not move. -/
def step (m : Manager) : ManagerOp → Manager
  | .start r => { m with calls := m.calls ++ [.requested r] }
  | .advance id order spawned =>
    match m.calls[id]? with
    | none => m
    | some call =>
      match m.go id order spawned call with
      | none => m
      | some (m', call') => { m' with calls := m.calls.set id call' }

/-- No call is in progress. -/
def Idle (m : Manager) : Prop := ∀ c ∈ m.calls, ∃ reply, c = .finished reply

end Manager

/-! ## What is still to be done -/

namespace Call

/-- Where the call moves sessions to. -/
def target : Call → Option String
  | .renamed _ target => some target
  | .migrate _ target _ => some target
  | _ => none

/-- The workspace in which the call is about to make a session. -/
def spawnsIn : Call → Option String
  | .spawning _ workspace => some workspace
  | _ => none

/-- The call will move the session, if it is still where it is now. -/
def WillMove (s : SessionEntry) : Call → Prop
  | .renamed source _ => source = s.workspaceName
  | .migrate source _ left => source = s.workspaceName ∧ s.name ∈ left
  | _ => False

/-- The call will list the sessions of `w`, and move all of them. -/
def WillList (w : String) : Call → Prop
  | .renamed source _ => source = w
  | _ => False

instance (s : SessionEntry) : DecidablePred (WillMove s)
  | .renamed source _ => inferInstanceAs (Decidable (source = s.workspaceName))
  | .migrate source _ left =>
    inferInstanceAs (Decidable (source = s.workspaceName ∧ s.name ∈ left))
  | .requested _ => isFalse id
  | .count _ _ _ _ _ => isFalse id
  | .attaching _ => isFalse id
  | .spawning _ _ => isFalse id
  | .finished _ => isFalse id

instance (w : String) : DecidablePred (WillList w)
  | .renamed source _ => inferInstanceAs (Decidable (source = w))
  | .migrate _ _ _ => isFalse id
  | .requested _ => isFalse id
  | .count _ _ _ _ _ => isFalse id
  | .attaching _ => isFalse id
  | .spawning _ _ => isFalse id
  | .finished _ => isFalse id

/-- The call holds the lock of the map. -/
def Holds : Call → Prop
  | .attaching _ => True
  | .spawning _ _ => True
  | _ => False

/-- The call is not one that moves sessions or makes one. -/
def Quiet (c : Call) : Prop :=
  c.target = none ∧ (∀ name w, c ≠ .spawning name w) ∧ ¬c.Holds

end Call

namespace Manager

/-- The name `w` may leave the registry: no call is moving sessions to it. -/
def NoneInto (m : Manager) (w : String) : Prop := ∀ c ∈ m.calls, c.target ≠ some w

instance (m : Manager) (w : String) : Decidable (m.NoneInto w) :=
  inferInstanceAs (Decidable (∀ c ∈ m.calls, c.target ≠ some w))

/-- The sessions of `name`, and those about to be made in it, will be moved: by a deletion that has
    listed `arcs`, or by another call. -/
def AllMove (m : Manager) (name : String) (force : Bool) (arcs : List String) : Prop :=
  (∀ s ∈ m.sessions, s.workspaceName = name →
    force = true ∧ s.name ∈ arcs ∨ ∃ c ∈ m.calls, c.WillMove s) ∧
  ∀ c ∈ m.calls, c.spawnsIn = some name → ∃ c ∈ m.calls, c.WillList name

instance (m : Manager) (name : String) (force : Bool) (arcs : List String) :
    Decidable (m.AllMove name force arcs) := inferInstanceAs (Decidable (_ ∧ _))

/-- What leaves the registry leaves nothing behind: when a workspace is renamed or deleted, no call
    is moving sessions to it, and when it is deleted, all its sessions will be moved. -/
def Leaves (m : Manager) : ManagerOp → Prop
  | .start _ => True
  | .advance id order spawned =>
    (m.step (.advance id order spawned)).state ≠ m.state →
      match m.calls[id]? with
      | some (.requested (.renameWorkspace source _)) => m.NoneInto source
      | some (.count name force arcs [] _) => m.NoneInto name ∧ m.AllMove name force arcs
      | _ => True

/-- The registry is well formed, and no call will delete the default workspace. -/
structure Registered (m : Manager) : Prop where
  state : m.state.WellFormed
  deletes : ∀ name force arcs left n, .count name force arcs left n ∈ m.calls →
    name ≠ defaultWorkspace

/-- Every session is in a known workspace, or in one that a call will move it out of. -/
structure Inv (m : Manager) : Prop where
  targets : ∀ c ∈ m.calls, ∀ w, c.target = some w → w ∈ m.state.known
  sessions : ∀ s ∈ m.sessions, s.workspaceName ∈ m.state.known ∨ ∃ c ∈ m.calls, c.WillMove s
  spawning : ∀ session w, .spawning session w ∈ m.calls →
    w ∈ m.state.known ∨ ∃ c ∈ m.calls, c.WillList w
  /-- A call that holds the map is the only one. -/
  held : ∀ id c, m.calls[id]? = some c → c.Holds → m.heldBy = some id

variable {m m' : Manager} {id : ℕ} {old new : Call}

theorem mem_set_of_ne {c : Call} {calls : List Call} (hid : calls[id]? = some old)
    (hc : c ∈ calls) (hne : c ≠ old) : c ∈ calls.set id new := by
  obtain ⟨j, hj⟩ := List.mem_iff_getElem?.1 hc
  refine List.mem_iff_getElem?.2 ⟨j, ?_⟩
  rw [List.getElem?_set_ne, hj]
  rintro rfl
  exact hne (Option.some.inj (hj.symm.trans hid))

theorem new_mem_set {calls : List Call} (hid : calls[id]? = some old) :
    new ∈ calls.set id new :=
  List.mem_set (List.getElem?_eq_some_iff.1 hid).1 new

/-- Another call will do what this one will not. -/
theorem exists_ne {P : Call → Prop} (hold : ¬P old) (h : ∃ c ∈ m.calls, P c) :
    ∃ c ∈ m.calls, c ≠ old ∧ P c := by
  obtain ⟨c, hc, hp⟩ := h
  refine ⟨c, hc, ?_, hp⟩
  rintro rfl
  exact hold hp

/-- **A step of one call.**  The sessions and the new sessions that the call was to look after
    have to be looked after by what it does next. -/
theorem inv_set (hid : m.calls[id]? = some old)
    (hcalls : m'.calls = m.calls.set id new)
    (hnew : ∀ w, new.target = some w → w ∈ m'.state.known)
    (htargets : ∀ c ∈ m.calls, ∀ w, c.target = some w → w ∈ m'.state.known)
    (hsessions : ∀ s ∈ m'.sessions, s.workspaceName ∈ m'.state.known ∨ new.WillMove s ∨
      ∃ c ∈ m.calls, c ≠ old ∧ c.WillMove s)
    (hspawning : ∀ session w, .spawning session w = new ∨ .spawning session w ∈ m.calls →
      w ∈ m'.state.known ∨ new.WillList w ∨ ∃ c ∈ m.calls, c ≠ old ∧ c.WillList w)
    (hheld : ∀ j c, (j = id ∧ c = new ∨ j ≠ id ∧ m.calls[j]? = some c) → c.Holds →
      m'.heldBy = some j) : m'.Inv where
  targets c hc w hw := by
    rw [hcalls] at hc
    rcases List.mem_or_eq_of_mem_set hc with hc | rfl
    · exact htargets c hc w hw
    · exact hnew w hw
  sessions s hs := by
    rw [hcalls]
    refine (hsessions s hs).imp_right ?_
    rintro (hmove | ⟨c, hc, hne, hmove⟩)
    · exact ⟨new, new_mem_set hid, hmove⟩
    · exact ⟨c, mem_set_of_ne hid hc hne, hmove⟩
  spawning session w hc := by
    rw [hcalls] at hc ⊢
    refine (hspawning session w (List.mem_or_eq_of_mem_set hc).symm).imp_right ?_
    rintro (hlist | ⟨c, hc, hne, hlist⟩)
    · exact ⟨new, new_mem_set hid, hlist⟩
    · exact ⟨c, mem_set_of_ne hid hc hne, hlist⟩
  held j c hc hholds := by
    rw [hcalls] at hc
    refine hheld j c ?_ hholds
    by_cases hj : j = id
    · subst hj
      rw [List.getElem?_set_self (List.getElem?_eq_some_iff.1 hid).1] at hc
      exact .inl ⟨rfl, (Option.some.inj hc).symm⟩
    · rw [List.getElem?_set_ne (Ne.symm hj)] at hc
      exact .inr ⟨hj, hc⟩

theorem Call.not_willList (h : ∀ s, ¬old.WillMove s) (w : String) : ¬old.WillList w := by
  intro hlist
  cases old with
  | renamed source target => exact h ⟨"", source⟩ rfl
  | _ => exact hlist

/-- A step that moves no session and makes none, and in which no name leaves the registry. -/
theorem Inv.quiet (h : m.Inv) (hid : m.calls[id]? = some old) (hold : ∀ s, ¬old.WillMove s)
    (hnew : new.Quiet) {state : WorkspaceState}
    (hknown : ∀ w ∈ m.state.known, w ∈ state.known) :
    Inv { m with state := state, calls := m.calls.set id new } := by
  obtain ⟨htarget, hspawn, hholds⟩ := hnew
  refine inv_set hid rfl ?_ ?_ ?_ ?_ ?_
  · intro w hw
    rw [htarget] at hw
    cases hw
  · intro c hc w hw
    exact hknown w (h.targets c hc w hw)
  · intro s hs
    exact (h.sessions s hs).imp (hknown _) fun hmove => .inr (exists_ne (hold s) hmove)
  · rintro session w (hc | hc)
    · exact absurd hc.symm (hspawn session w)
    · exact (h.spawning session w hc).imp (hknown _) fun hlist =>
        .inr (exists_ne (Call.not_willList hold w) hlist)
  · rintro j c (⟨-, rfl⟩ | ⟨-, hc⟩) hc'
    · exact absurd hc' hholds
    · exact h.held j c hc hc'

theorem quiet_finished (reply : Reply) : (Call.finished reply).Quiet :=
  ⟨rfl, fun _ _ => nofun, id⟩

theorem quiet_count (name : String) (force : Bool) (arcs left : List String) (n : ℕ) :
    (Call.count name force arcs left n).Quiet :=
  ⟨rfl, fun _ _ => nofun, id⟩

/-- A call that ends without a change. -/
theorem Inv.finish (h : m.Inv) (hid : m.calls[id]? = some old) (hold : ∀ s, ¬old.WillMove s)
    (reply : Reply) : Inv { m with calls := m.calls.set id (.finished reply) } :=
  h.quiet hid hold (quiet_finished reply) fun _ hw => hw

/-- A workspace gets a new name. -/
theorem Inv.rename (h : m.Inv) {source target : String} {r : WorkspaceRequest}
    (hid : m.calls[id]? = some (.requested r)) {state : WorkspaceState}
    (hrename : m.state.rename source target = .ok state) (hnone : m.NoneInto source) :
    Inv { m with state := state, calls := m.calls.set id (.renamed source target) } := by
  refine inv_set hid rfl ?_ ?_ ?_ ?_ ?_
  · rintro w hw
    cases hw
    exact WorkspaceState.target_mem_rename hrename
  · intro c hc w hw
    refine WorkspaceState.mem_rename hrename (h.targets c hc w hw) ?_
    rintro rfl
    exact hnone c hc hw
  · intro s hs
    by_cases hsource : s.workspaceName = source
    · exact .inr (.inl hsource.symm)
    · exact (h.sessions s hs).imp (WorkspaceState.mem_rename hrename · hsource)
        fun hmove => .inr (exists_ne not_false hmove)
  · rintro session w (hc | hc)
    · cases hc
    · by_cases hsource : w = source
      · exact .inr (.inl hsource.symm)
      · exact (h.spawning session w hc).imp (WorkspaceState.mem_rename hrename · hsource)
          fun hlist => .inr (exists_ne not_false hlist)
  · rintro j c (⟨-, rfl⟩ | ⟨-, hc⟩) hc'
    · cases hc'
    · exact h.held j c hc hc'

/-- A workspace is deleted. -/
theorem Inv.remove (h : m.Inv) {name : String} {force : Bool} {arcs : List String} {n : ℕ}
    (hid : m.calls[id]? = some (.count name force arcs [] n)) {state : WorkspaceState}
    (hremove : m.state.remove name n force = .ok state) (hnone : m.NoneInto name)
    (hall : m.AllMove name force arcs) (hdefault : defaultWorkspace ∈ state.known) :
    Inv { m with
      state := state
      calls := m.calls.set id
        (if force then .migrate name defaultWorkspace arcs else .finished .done) } := by
  refine inv_set hid rfl ?_ ?_ ?_ ?_ ?_
  · intro w hw
    split_ifs at hw
    · cases hw
      exact hdefault
    · cases hw
  · intro c hc w hw
    refine WorkspaceState.mem_remove hremove (h.targets c hc w hw) ?_
    rintro rfl
    exact hnone c hc hw
  · intro s hs
    by_cases hs' : s.workspaceName = name
    · rcases hall.1 s hs hs' with ⟨hforce, hlisted⟩ | hmove
      · rw [if_pos hforce]
        exact .inr (.inl ⟨hs'.symm, hlisted⟩)
      · exact .inr (.inr (exists_ne not_false hmove))
    · exact (h.sessions s hs).imp (WorkspaceState.mem_remove hremove · hs')
        fun hmove => .inr (exists_ne not_false hmove)
  · rintro session w (hc | hc)
    · split_ifs at hc
    · by_cases hw : w = name
      · subst hw
        exact .inr (.inr (exists_ne not_false (hall.2 _ hc rfl)))
      · exact (h.spawning session w hc).imp (WorkspaceState.mem_remove hremove · hw)
          fun hlist => .inr (exists_ne not_false hlist)
  · rintro j c (⟨-, rfl⟩ | ⟨-, hc⟩) hc'
    · split_ifs at hc' <;> cases hc'
    · exact h.held j c hc hc'

/-- A call that tries to change the registry. -/
theorem Inv.commit (h : m.Inv) (hid : m.calls[id]? = some old) (hold : ∀ s, ¬old.WillMove s)
    {result : Except String WorkspaceState} {next : Call}
    (hcommit : some (m.commit result next) = some (m', new))
    (hok : ∀ state, result = .ok state → m'.state = state →
      Inv { m with state := state, calls := m.calls.set id next }) :
    Inv { m' with calls := m.calls.set id new } := by
  cases result with
  | error message =>
    cases hcommit
    exact h.finish hid hold _
  | ok state =>
    cases hcommit
    exact hok state rfl rfl

/-- While the map is free, no session is being made. -/
theorem Inv.not_spawning (h : m.Inv) (hfree : m.heldBy.isSome = false) (session w : String) :
    .spawning session w ∉ m.calls := by
  intro hc
  obtain ⟨j, hj⟩ := List.mem_iff_getElem?.1 hc
  rw [h.held j _ hj trivial] at hfree
  cases hfree

/-- The sessions are listed: a call that has renamed a workspace will move all of them. -/
theorem Inv.list (h : m.Inv) {source target : String}
    (hid : m.calls[id]? = some (.renamed source target)) (hfree : m.heldBy.isSome = false)
    (order : List String) :
    Inv { m with calls := m.calls.set id (.migrate source target (m.arcs order)) } := by
  have harcs : ∀ s ∈ m.sessions, s.name ∈ m.arcs order := by
    intro s hs
    unfold arcs
    split_ifs with hperm
    · exact hperm.mem_iff.2 (List.mem_map_of_mem hs)
    · exact List.mem_map_of_mem hs
  refine inv_set hid rfl ?_ h.targets ?_ ?_ ?_
  · rintro w hw
    exact h.targets _ (List.mem_of_getElem? hid) w hw
  · intro s hs
    refine (h.sessions s hs).imp_right ?_
    rintro ⟨c, hc, hmove⟩
    by_cases hold : c = .renamed source target
    · subst hold
      exact .inl ⟨hmove, harcs s hs⟩
    · exact .inr ⟨c, hc, hold, hmove⟩
  · rintro session w (hc | hc)
    · cases hc
    · exact absurd hc (h.not_spawning hfree session w)
  · rintro j c (⟨-, rfl⟩ | ⟨-, hc⟩) hc'
    · cases hc'
    · exact h.held j c hc hc'

/-- A session is moved. -/
theorem Inv.move (h : m.Inv) {source target name : String} {left : List String}
    (hid : m.calls[id]? = some (.migrate source target (name :: left))) :
    Inv { m with
      sessions := m.sessions.map (move name source target)
      calls := m.calls.set id (.migrate source target left) } := by
  have htarget : target ∈ m.state.known := h.targets _ (List.mem_of_getElem? hid) target rfl
  refine inv_set hid rfl ?_ h.targets ?_ ?_ ?_
  · rintro w hw
    exact h.targets _ (List.mem_of_getElem? hid) w hw
  · intro s' hs'
    obtain ⟨s, hs, rfl⟩ := List.mem_map.1 hs'
    unfold Manager.move
    split_ifs with hmoved
    · exact .inl htarget
    · refine (h.sessions s hs).imp_right ?_
      rintro ⟨c, hc, hmove⟩
      by_cases hold : c = .migrate source target (name :: left)
      · subst hold
        obtain ⟨hsource, hname⟩ := hmove
        refine .inl ⟨hsource, (List.mem_cons.1 hname).resolve_left ?_⟩
        intro hsame
        exact hmoved ⟨hsame, hsource.symm⟩
      · exact .inr ⟨c, hc, hold, hmove⟩
  · rintro session w (hc | hc)
    · cases hc
    · exact (h.spawning session w hc).imp_right fun hlist => .inr (exists_ne not_false hlist)
  · rintro j c (⟨-, rfl⟩ | ⟨-, hc⟩) hc'
    · cases hc'
    · exact h.held j c hc hc'

/-- A call takes the map. -/
theorem Inv.hold (h : m.Inv) {name : String} (hid : m.calls[id]? =
    some (.requested (.getOrCreateAndAttach name))) (hfree : m.heldBy.isSome = false) :
    Inv { m with heldBy := some id, calls := m.calls.set id (.attaching name) } := by
  refine inv_set hid rfl (fun _ => nofun) h.targets ?_ ?_ ?_
  · intro s hs
    exact (h.sessions s hs).imp_right fun hmove => .inr (exists_ne not_false hmove)
  · rintro session w (hc | hc)
    · cases hc
    · exact absurd hc (h.not_spawning hfree session w)
  · rintro j c (⟨rfl, -⟩ | ⟨-, hc⟩) hc'
    · rfl
    · rw [h.held j c hc hc'] at hfree
      cases hfree

/-- The current workspace is read. -/
theorem Inv.read (h : m.Inv) (hreg : m.Registered) {name : String}
    (hid : m.calls[id]? = some (.attaching name)) :
    Inv { m with calls := m.calls.set id (.spawning name m.state.current) } := by
  refine inv_set hid rfl (fun _ => nofun) h.targets ?_ ?_ ?_
  · intro s hs
    exact (h.sessions s hs).imp_right fun hmove => .inr (exists_ne not_false hmove)
  · rintro session w (hc | hc)
    · cases hc
      exact .inl hreg.state.current_mem
    · exact (h.spawning session w hc).imp_right fun hlist => .inr (exists_ne not_false hlist)
  · rintro j c (⟨rfl, -⟩ | ⟨-, hc⟩) hc'
    · exact h.held _ _ hid trivial
    · exact h.held j c hc hc'

/-- The map is released, with a new session in it if the shell has started. -/
theorem Inv.release (h : m.Inv) {name workspace : String}
    (hid : m.calls[id]? = some (.spawning name workspace)) {sessions : List SessionEntry}
    (hsessions : ∀ s ∈ sessions, s ∈ m.sessions ∨ s = ⟨name, workspace⟩) (reply : Reply) :
    Inv { m with
      sessions := sessions
      heldBy := none
      calls := m.calls.set id (.finished reply) } := by
  have hheld := h.held id _ hid trivial
  refine inv_set hid rfl (fun _ => nofun) h.targets ?_ ?_ ?_
  · intro s hs
    rcases hsessions s hs with hs | rfl
    · exact (h.sessions s hs).imp_right fun hmove => .inr (exists_ne not_false hmove)
    · refine (h.spawning name workspace (List.mem_of_getElem? hid)).imp_right ?_
      rintro ⟨c, hc, hlist⟩
      refine .inr (exists_ne not_false ⟨c, hc, ?_⟩)
      cases c with
      | renamed source target => exact hlist
      | _ => cases hlist
  · rintro session w (hc | hc)
    · cases hc
    · exact (h.spawning session w hc).imp_right fun hlist => .inr (exists_ne not_false hlist)
  · rintro j c (⟨-, rfl⟩ | ⟨hj, hc⟩) hc'
    · cases hc'
    · have hsame := (h.held j c hc hc').symm.trans hheld
      exact absurd (Option.some.inj hsame) hj

/-! ## Runs -/

theorem Inv.start (h : m.Inv) (r : WorkspaceRequest) :
    Inv { m with calls := m.calls ++ [.requested r] } := by
  have hmem : ∀ {c : Call}, c ∈ m.calls ++ [.requested r] → c ∈ m.calls ∨ c = .requested r :=
    fun hc => (List.mem_append.1 hc).imp_right List.mem_singleton.1
  refine ⟨?_, ?_, ?_, ?_⟩
  · intro c hc w hw
    rcases hmem hc with hc | rfl
    · exact h.targets c hc w hw
    · cases hw
  · intro s hs
    refine (h.sessions s hs).imp_right ?_
    rintro ⟨c, hc, hmove⟩
    exact ⟨c, List.mem_append_left _ hc, hmove⟩
  · intro session w hc
    rcases hmem hc with hc | hc
    · refine (h.spawning session w hc).imp_right ?_
      rintro ⟨c, hc, hlist⟩
      exact ⟨c, List.mem_append_left _ hc, hlist⟩
    · cases hc
  · intro j c hc hholds
    rw [List.getElem?_append] at hc
    split_ifs at hc
    · exact h.held j c hc hholds
    · obtain rfl := List.mem_singleton.1 (List.mem_of_getElem? hc)
      cases hholds

theorem step_advance (hid : m.calls[id]? = some old) {order : List String}
    {spawned : Except String Unit} (hgo : m.go id order spawned old = some (m', new)) :
    m.step (.advance id order spawned) = { m' with calls := m.calls.set id new } := by
  unfold step
  dsimp only
  rw [hid]
  dsimp only
  rw [hgo]

theorem step_cases (m : Manager) (id : ℕ) (order : List String) (spawned : Except String Unit) :
    m.step (.advance id order spawned) = m ∨
      ∃ call m' call', m.calls[id]? = some call ∧
        m.go id order spawned call = some (m', call') := by
  cases hid : m.calls[id]? with
  | none =>
    left
    unfold step
    dsimp only
    rw [hid]
  | some call =>
    cases hgo : m.go id order spawned call with
    | none =>
      left
      unfold step
      dsimp only
      rw [hid]
      dsimp only
      rw [hgo]
    | some result => exact .inr ⟨call, result.1, result.2, rfl, hgo⟩

/-- A call begins. -/
theorem Inv.begin (h : m.Inv) {r : WorkspaceRequest}
    (hid : m.calls[id]? = some (.requested r)) {order : List String}
    {spawned : Except String Unit} (hgo : m.go id order spawned (.requested r) = some (m', new))
    (hleaves : m.Leaves (.advance id order spawned)) :
    Inv { m' with calls := m.calls.set id new } := by
  have hold : ∀ s, ¬(Call.requested r).WillMove s := fun _ => not_false
  unfold Leaves at hleaves
  dsimp only at hleaves
  rw [step_advance hid hgo, hid] at hleaves
  cases r with
  | createWorkspace name =>
    dsimp only [Manager.go, Manager.begin] at hgo
    split_ifs at hgo
    · cases hgo
      exact h.finish hid hold _
    · refine h.commit hid hold hgo ?_
      rintro state hstate -
      refine h.quiet hid hold (quiet_finished _) ?_
      intro w hw
      rw [(WorkspaceState.create_ok hstate).2]
      exact List.mem_append_left _ hw
  | switchWorkspace name =>
    refine h.commit hid hold hgo ?_
    rintro state hstate -
    refine h.quiet hid hold (quiet_finished _) ?_
    intro w hw
    rw [(WorkspaceState.switch_ok hstate).2]
    exact hw
  | renameWorkspace source target =>
    dsimp only [Manager.go, Manager.begin] at hgo
    split_ifs at hgo
    · cases hgo
      exact h.finish hid hold _
    · cases hgo
      exact h.finish hid hold _
    · refine h.commit hid hold hgo ?_
      intro state hstate hchanged
      refine h.rename hid hstate (hleaves ?_)
      show m'.state ≠ m.state
      rw [hchanged]
      exact WorkspaceState.rename_ne hstate
  | deleteWorkspace name force =>
    dsimp only [Manager.go, Manager.begin] at hgo
    split_ifs at hgo
    · cases hgo
      exact h.finish hid hold _
    · cases hgo
      exact h.quiet hid hold (quiet_count ..) fun _ hw => hw
  | getOrCreateAndAttach name =>
    dsimp only [Manager.go, Manager.begin] at hgo
    split_ifs at hgo with hfree
    · cases hgo
      exact h.finish hid hold _
    · cases hgo
      exact h.hold hid (eq_false_of_ne_true hfree)

/-- **A call goes on.** -/
theorem Inv.go (h : m.Inv) (hreg : m.Registered) (hid : m.calls[id]? = some old)
    {order : List String}
    {spawned : Except String Unit} (hgo : m.go id order spawned old = some (m', new))
    (hleaves : m.Leaves (.advance id order spawned)) :
    Inv { m' with calls := m.calls.set id new } := by
  cases old with
  | requested r => exact h.begin hid hgo hleaves
  | renamed source target =>
    unfold Manager.go at hgo
    split_ifs at hgo with hfree
    cases hgo
    exact h.list hid (eq_false_of_ne_true hfree) order
  | migrate source target left =>
    cases left with
    | nil =>
      cases hgo
      exact h.finish hid (fun _ hmove => nomatch hmove.2) _
    | cons name left =>
      cases hgo
      exact h.move hid
  | count name force arcs left n =>
    have hold : ∀ s, ¬(Call.count name force arcs left n).WillMove s := fun _ => not_false
    cases left with
    | nil =>
      refine h.commit hid hold hgo ?_
      intro state hstate hchanged
      unfold Leaves at hleaves
      dsimp only at hleaves
      rw [step_advance hid hgo, hid] at hleaves
      obtain ⟨hnone, hall⟩ := hleaves (by
        show m'.state ≠ m.state
        rw [hchanged]
        exact WorkspaceState.remove_ne hstate)
      have hname := hreg.deletes name force arcs [] n (List.mem_of_getElem? hid)
      exact h.remove hid hstate hnone hall (hreg.state.remove hname hstate).default_mem
    | cons arc left =>
      cases hgo
      exact h.quiet hid hold (quiet_count ..) fun _ hw => hw
  | attaching name =>
    cases hgo
    exact h.read hreg hid
  | spawning name workspace =>
    cases spawned with
    | error message =>
      cases hgo
      exact h.release hid (fun s hs => .inl hs) _
    | ok =>
      cases hgo
      refine h.release hid ?_ _
      intro s hs
      exact (List.mem_append.1 hs).imp_right List.mem_singleton.1
  | finished reply => cases hgo

theorem commit_cases {result : Except String WorkspaceState} {next : Call}
    (h : some (m.commit result next) = some (m', new)) :
    m' = m ∧ (∃ reply, new = .finished reply) ∨
      ∃ state, result = .ok state ∧ m'.state = state ∧ new = next := by
  cases result with
  | error message =>
    cases h
    exact .inl ⟨rfl, _, rfl⟩
  | ok state =>
    cases h
    exact .inr ⟨state, rfl, rfl, rfl⟩

/-- The registry stays well formed: what is left to see is what a new state is like, and that the
    call does not go on to delete the default workspace. -/
theorem Registered.commit (h : m.Registered) {result : Except String WorkspaceState} {next : Call}
    (hcommit : some (m.commit result next) = some (m', new))
    (hok : ∀ state, result = .ok state → state.WellFormed)
    (hnext : ∀ name force arcs left n, next ≠ .count name force arcs left n) :
    m'.state.WellFormed ∧
      ∀ name force arcs left n, new = .count name force arcs left n → name ≠ defaultWorkspace := by
  obtain ⟨rfl, reply, rfl⟩ | ⟨state, hstate, rfl, rfl⟩ := commit_cases hcommit
  · exact ⟨h.state, fun _ _ _ _ _ => nofun⟩
  · refine ⟨hok _ hstate, ?_⟩
    intro name force arcs left n heq
    exact absurd heq (hnext name force arcs left n)

theorem Registered.begin (h : m.Registered) {r : WorkspaceRequest} {order : List String}
    (hgo : m.begin id order r = some (m', new)) :
    m'.state.WellFormed ∧
      ∀ name force arcs left n, new = .count name force arcs left n → name ≠ defaultWorkspace := by
  cases r with
  | createWorkspace name =>
    dsimp only [Manager.begin] at hgo
    split_ifs at hgo
    · cases hgo
      exact ⟨h.state, fun _ _ _ _ _ => nofun⟩
    · exact h.commit hgo (fun _ => h.state.create) fun _ _ _ _ _ => nofun
  | switchWorkspace name =>
    exact h.commit hgo (fun _ => h.state.switch) fun _ _ _ _ _ => nofun
  | renameWorkspace source target =>
    dsimp only [Manager.begin] at hgo
    split_ifs at hgo
    · cases hgo
      exact ⟨h.state, fun _ _ _ _ _ => nofun⟩
    · cases hgo
      exact ⟨h.state, fun _ _ _ _ _ => nofun⟩
    · exact h.commit hgo (fun _ => h.state.rename) fun _ _ _ _ _ => nofun
  | deleteWorkspace name force =>
    dsimp only [Manager.begin] at hgo
    split_ifs at hgo with hname
    · cases hgo
      exact ⟨h.state, fun _ _ _ _ _ => nofun⟩
    · cases hgo
      refine ⟨h.state, ?_⟩
      rintro name' force' arcs left n ⟨⟩
      exact hname
  | getOrCreateAndAttach name =>
    dsimp only [Manager.begin] at hgo
    split_ifs at hgo
    · cases hgo
      exact ⟨h.state, fun _ _ _ _ _ => nofun⟩
    · cases hgo
      exact ⟨h.state, fun _ _ _ _ _ => nofun⟩

/-- What a call does to the registry. -/
theorem Registered.go (h : m.Registered) (hid : m.calls[id]? = some old) {order : List String}
    {spawned : Except String Unit} (hgo : m.go id order spawned old = some (m', new)) :
    m'.state.WellFormed ∧
      ∀ name force arcs left n, new = .count name force arcs left n → name ≠ defaultWorkspace := by
  cases old with
  | requested r => exact h.begin hgo
  | renamed source target =>
    unfold Manager.go at hgo
    split_ifs at hgo
    cases hgo
    exact ⟨h.state, fun _ _ _ _ _ => nofun⟩
  | migrate source target left =>
    cases left with
    | nil =>
      cases hgo
      exact ⟨h.state, fun _ _ _ _ _ => nofun⟩
    | cons name left =>
      cases hgo
      exact ⟨h.state, fun _ _ _ _ _ => nofun⟩
  | count name force arcs left n =>
    have hname := h.deletes name force arcs left n (List.mem_of_getElem? hid)
    cases left with
    | nil =>
      refine h.commit hgo (fun _ => h.state.remove hname) ?_
      intro name' force' arcs' left' n' heq
      split_ifs at heq
    | cons arc left =>
      cases hgo
      refine ⟨h.state, ?_⟩
      rintro name' force' arcs' left' n' ⟨⟩
      exact hname
  | attaching name =>
    cases hgo
    exact ⟨h.state, fun _ _ _ _ _ => nofun⟩
  | spawning name workspace =>
    cases spawned <;> cases hgo <;> exact ⟨h.state, fun _ _ _ _ _ => nofun⟩
  | finished reply => cases hgo

/-- **The registry is well formed at every moment**, however the calls are interleaved. -/
theorem Registered.step (h : m.Registered) (op : ManagerOp) : (m.step op).Registered := by
  cases op with
  | start r =>
    refine ⟨h.state, ?_⟩
    intro name force arcs left n hc
    rcases List.mem_append.1 hc with hc | hc
    · exact h.deletes name force arcs left n hc
    · cases List.mem_singleton.1 hc
  | advance id order spawned =>
    obtain hsame | ⟨call, m', call', hid, hgo⟩ := m.step_cases id order spawned
    · rwa [hsame]
    · obtain ⟨hstate, hnew⟩ := h.go hid hgo
      rw [step_advance hid hgo]
      refine ⟨hstate, ?_⟩
      intro name force arcs left n hc
      rcases List.mem_or_eq_of_mem_set hc with hc | hc
      · exact h.deletes name force arcs left n hc
      · exact hnew name force arcs left n hc.symm

theorem Inv.step (h : m.Inv) (hreg : m.Registered) {op : ManagerOp} (hleaves : m.Leaves op) :
    (m.step op).Inv := by
  cases op with
  | start r => exact h.start r
  | advance id order spawned =>
    obtain hsame | ⟨call, m', call', hid, hgo⟩ := m.step_cases id order spawned
    · rwa [hsame]
    · rw [step_advance hid hgo]
      exact h.go hreg hid hgo hleaves

/-- Every session is in a known workspace. -/
def Homed (m : Manager) : Prop := ∀ s ∈ m.sessions, s.workspaceName ∈ m.state.known

theorem Inv.homed (h : m.Inv) (hidle : m.Idle) : m.Homed := by
  intro s hs
  refine (h.sessions s hs).resolve_right ?_
  rintro ⟨c, hc, hmove⟩
  obtain ⟨reply, rfl⟩ := hidle c hc
  exact hmove

/-- A manager at rest. -/
theorem inv_of_idle (hidle : m.Idle) (hhomed : m.Homed) : m.Inv where
  targets c hc w hw := by
    obtain ⟨reply, rfl⟩ := hidle c hc
    cases hw
  sessions s hs := .inl (hhomed s hs)
  spawning session w hc := by
    obtain ⟨reply, hreply⟩ := hidle _ hc
    cases hreply
  held id c hc hholds := by
    obtain ⟨reply, rfl⟩ := hidle c (List.mem_of_getElem? hc)
    cases hholds

theorem registered_of_idle (hidle : m.Idle) (hstate : m.state.WellFormed) : m.Registered where
  state := hstate
  deletes name force arcs left n hc := by
    obtain ⟨reply, hreply⟩ := hidle _ hc
    cases hreply

end Manager

/-- **The registry is consistent.**  In every interleaving the names of the workspaces are unique,
    and the default and the current workspace are known; and as long as a name that leaves the
    registry leaves nothing behind, every session is in a known workspace once no call is in
    progress. -/
theorem registry_consistent (m : Manager) (hidle : m.Idle) (hstate : m.state.WellFormed)
    (hhomed : m.Homed) (ops : List ManagerOp) :
    Runs.Always Manager.step (fun m => m.state.WellFormed) m ops ∧
      (Runs.Along Manager.step Manager.Leaves m ops → (Runs.run Manager.step m ops).Idle →
        (Runs.run Manager.step m ops).Homed) := by
  have hreg := Manager.registered_of_idle hidle hstate
  constructor
  · have halways : Runs.Always Manager.step Manager.Registered m ops :=
      Runs.always_of_along (C := fun _ _ => True) (fun _ op h _ => h.step op) hreg
        (Runs.along_of_forall fun _ _ => trivial)
    exact halways.imp fun _ h => h.state
  · intro hleaves hend
    have hinv : (Runs.run Manager.step m ops).Registered ∧ (Runs.run Manager.step m ops).Inv :=
      (Runs.always_of_along (P := fun m : Manager => m.Registered ∧ m.Inv)
        (fun _ op h hop => ⟨h.1.step op, h.2.step h.1 hop⟩)
        ⟨hreg, Manager.inv_of_idle hidle hhomed⟩ hleaves).last
    exact hinv.2.homed hend

namespace Manager

/-- Start a call and let it go on by `n` locks. -/
def callAlone (id : ℕ) (r : WorkspaceRequest) (n : ℕ) : List ManagerOp :=
  .start r :: List.replicate n (.advance id [] (.ok ()))

/-- A session is made in a new workspace, which is then deleted. -/
def deleteForced : List ManagerOp :=
  callAlone 0 (.createWorkspace "dev") 1 ++ callAlone 1 (.switchWorkspace "dev") 1 ++
    callAlone 2 (.getOrCreateAndAttach "main") 3 ++ callAlone 3 (.deleteWorkspace "dev" true) 5

/-- A session is made after the deletion has counted the sessions. -/
def deleteRaced : List ManagerOp :=
  callAlone 0 (.createWorkspace "dev") 1 ++ callAlone 1 (.switchWorkspace "dev") 1 ++
    callAlone 2 (.deleteWorkspace "dev" false) 1 ++ callAlone 3 (.getOrCreateAndAttach "main") 3 ++
    [.advance 2 [] (.ok ())]

theorem idle_of_calls {m : Manager} (replies : List Reply)
    (h : m.calls = replies.map .finished) : m.Idle := by
  intro c hc
  rw [h] at hc
  obtain ⟨reply, -, rfl⟩ := List.mem_map.1 hc
  exact ⟨reply, rfl⟩

theorem idle_new : new.Idle := idle_of_calls [] rfl

theorem wellFormed_new : new.state.WellFormed :=
  ⟨List.nodup_singleton _, List.mem_singleton_self _, List.mem_singleton_self _⟩

theorem homed_new : new.Homed := fun _ hs => nomatch hs

end Manager

open Manager in
theorem homed_deleteForced : (Runs.run Manager.step Manager.new deleteForced).Homed := by
  refine (registry_consistent new idle_new wellFormed_new homed_new deleteForced).2 ?_
    (idle_of_calls [.done, .switched "dev", .done, .done] (by decide +kernel))
  refine ⟨trivial, fun _ => trivial, trivial, fun _ => trivial, trivial, fun _ => trivial,
    fun _ => trivial, fun _ => trivial, trivial, fun _ => trivial, fun _ => trivial, ?_,
    fun _ => trivial, fun _ => trivial, trivial⟩
  intro _
  show NoneInto _ "dev" ∧ AllMove _ "dev" true ["main"]
  exact ⟨by decide +kernel, by decide +kernel⟩

open Manager in
/-- The count of the sessions is out of date when the workspace is deleted: the new session is in
    a workspace that is not known any more. -/
theorem not_homed_deleteRaced :
    (Runs.run Manager.step Manager.new deleteRaced).Idle ∧
      ¬(Runs.run Manager.step Manager.new deleteRaced).Homed := by
  constructor
  · exact idle_of_calls [.done, .switched "dev", .done, .done] (by decide +kernel)
  · intro h
    have hmem : "dev" ∈ (Runs.run Manager.step Manager.new deleteRaced).state.known :=
      h ⟨"main", "dev"⟩ (by decide +kernel)
    exact absurd hmem (by decide +kernel)

end Nexterm.Server

/-
  The SSH hosts of the settings panel (`settings/ssh.rs`): editing, adding and deleting hosts, and
  writing them back to the `[[hosts]]` array.

  * `SshPanel`, `Op`, `step`: the list of hosts and its dialogs.
  * `writeSshHostsBack`: rows are matched with hosts by their position.
  * `origins`: which row each host of the panel was loaded from.
  * `KeepsOwn`: every host has the unmanaged keys of its own row; `InPlace`: the rows for which
    this is so; `hosts_keep_own_iff`.
-/
import Mathlib.Data.List.InsertIdx
import Nexterm.Lib.Toml
import Nexterm.Settings.Schema

namespace Nexterm.Settings

open Toml (Table Item)

/-- SSH host entry. -/
structure SshHostEntry where
  name : String
  host : String
  port : UInt16
  username : String
  authType : String
  deriving DecidableEq

/-- The SSH category of the settings panel; a field that is being edited has a buffer. -/
structure SshPanel where
  sshHosts : List SshHostEntry
  selectedHostIndex : ℕ
  focusedWidgetIndex : ℕ
  sshFieldEditing : Option String
  sshDeleteDialogOpen : Bool
  sshDeleteDialogConfirmFocused : Bool
  dirty : Bool
  deriving DecidableEq

namespace SshPanel

def ofHosts (hosts : List HostConfig) : SshPanel :=
  { sshHosts := hosts.map fun h =>
      { name := h.name, host := h.host, port := h.port, username := h.username,
        authType := h.authType }
    selectedHostIndex := 0
    focusedWidgetIndex := 0
    sshFieldEditing := none
    sshDeleteDialogOpen := false
    sshDeleteDialogConfirmFocused := false
    dirty := false }

/-! ## Operations -/

/-- Update the selected host, if there is one. -/
def modifySelected (p : SshPanel) (f : SshHostEntry → SshHostEntry) : SshPanel :=
  if p.selectedHostIndex < p.sshHosts.length then
    { p with sshHosts := p.sshHosts.modify p.selectedHostIndex f, dirty := true }
  else p

/-- Allowed `auth_type` values. -/
def sshAuthTypes : List String := ["password", "key", "agent"]

/-- The value `d` places after the current one; an unknown one counts as the first. -/
def cycleAuthType (d : ℕ) (h : SshHostEntry) : SshHostEntry :=
  let current := (sshAuthTypes.idxOf? h.authType).getD 0
  { h with authType := sshAuthTypes.getD ((current + d) % sshAuthTypes.length) "" }

/-- `v.round().clamp(1.0, 65535.0) as u16`; `none` is NaN. -/
def clampPort : Option ℤ → UInt16
  | some v => UInt16.ofNat (max 1 (min 65535 v)).toNat
  | none => 0

/-- Append a new SSH host and start editing its name. -/
def addSshHost (p : SshPanel) : SshPanel :=
  let sshHosts := p.sshHosts ++
    [{ name := "", host := "", port := 22, username := "", authType := "password" }]
  { p with
    sshHosts := sshHosts
    selectedHostIndex := sshHosts.length - 1
    focusedWidgetIndex := 1
    sshFieldEditing := some ""
    dirty := true }

def openSshDeleteDialog (p : SshPanel) : SshPanel :=
  if p.sshHosts = [] then p
  else { p with sshDeleteDialogOpen := true, sshDeleteDialogConfirmFocused := false }

def cancelSshDeleteDialog (p : SshPanel) : SshPanel :=
  { p with sshDeleteDialogOpen := false, sshDeleteDialogConfirmFocused := false }

/-- Delete the selected host and close the dialog. -/
def confirmSshDeleteDialog (p : SshPanel) : SshPanel :=
  let sshHosts := p.sshHosts.eraseIdx p.selectedHostIndex
  cancelSshDeleteDialog <|
    if p.selectedHostIndex < p.sshHosts.length then
      { p with
        sshHosts := sshHosts
        selectedHostIndex :=
          if sshHosts = [] then 0 else min p.selectedHostIndex (sshHosts.length - 1)
        focusedWidgetIndex := if sshHosts = [] then 0 else p.focusedWidgetIndex
        dirty := true }
    else p

def beginSshFieldEdit (p : SshPanel) : SshPanel :=
  match p.sshHosts[p.selectedHostIndex]?, p.focusedWidgetIndex with
  | some host, 1 => { p with sshFieldEditing := some host.name }
  | some host, 2 => { p with sshFieldEditing := some host.host }
  | some host, 4 => { p with sshFieldEditing := some host.username }
  | _, _ => p

/-- Commit the in-flight buffer back to the host field and leave edit mode. -/
def commitSshFieldEdit (p : SshPanel) : SshPanel :=
  match p.sshFieldEditing with
  | none => p
  | some text =>
    let p := { p with sshFieldEditing := none }
    match p.focusedWidgetIndex with
    | 1 => p.modifySelected ({ · with name := text })
    | 2 => p.modifySelected ({ · with host := text })
    | 4 => p.modifySelected ({ · with username := text })
    | _ => p

end SshPanel

/-- An operation of the panel; `typeText` stands for any editing of the buffer. -/
inductive SshOp
  | select (i : ℕ)
  | focus (i : ℕ)
  | setName (text : String)
  | setHost (text : String)
  | setUsername (text : String)
  | setPortValue (v : Option ℤ)
  | increasePort
  | decreasePort
  | nextAuthType
  | prevAuthType
  | add
  | openDeleteDialog
  | cancelDeleteDialog
  | confirmDeleteDialog
  | toggleDeleteDialogFocus
  | beginFieldEdit
  | typeText (buffer : String)
  | commitFieldEdit
  | cancelFieldEdit

namespace SshPanel

def step (p : SshPanel) : SshOp → SshPanel
  | .select i => { p with selectedHostIndex := i }
  | .focus i => { p with focusedWidgetIndex := i }
  | .setName text => p.modifySelected ({ · with name := text })
  | .setHost text => p.modifySelected ({ · with host := text })
  | .setUsername text => p.modifySelected ({ · with username := text })
  | .setPortValue v => p.modifySelected ({ · with port := clampPort v })
  | .increasePort =>
    p.modifySelected fun h => { h with port := if h.port = 65535 then 65535 else h.port + 1 }
  | .decreasePort =>
    p.modifySelected fun h => { h with port := if h.port ≤ 1 then 1 else h.port - 1 }
  | .nextAuthType => p.modifySelected (cycleAuthType 1)
  | .prevAuthType => p.modifySelected (cycleAuthType (sshAuthTypes.length - 1))
  | .add => p.addSshHost
  | .openDeleteDialog => p.openSshDeleteDialog
  | .cancelDeleteDialog => p.cancelSshDeleteDialog
  | .confirmDeleteDialog => p.confirmSshDeleteDialog
  | .toggleDeleteDialogFocus =>
    { p with sshDeleteDialogConfirmFocused := !p.sshDeleteDialogConfirmFocused }
  | .beginFieldEdit => p.beginSshFieldEdit
  | .typeText buffer => { p with sshFieldEditing := p.sshFieldEditing.map fun _ => buffer }
  | .commitFieldEdit => p.commitSshFieldEdit
  | .cancelFieldEdit => { p with sshFieldEditing := none }

def run (p : SshPanel) (ops : List SshOp) : SshPanel := ops.foldl step p

end SshPanel

/-! ## Writing back -/

/-- The keys that the panel manages. -/
def managedHostKeys : List String := ["name", "host", "port", "username", "auth_type"]

/-- Overwrite the managed keys of a row. -/
def writeHost (t : Table) (h : SshHostEntry) : Table :=
  ((((t.insert "name" (.string h.name)).insert "host" (.string h.host)).insert "port"
    (.integer h.port.toNat)).insert "username" (.string h.username)).insert "auth_type"
    (.string h.authType)

/-- Overwrite the rows by index, append what is missing, pop what is left over. -/
def writeRows (hosts : List SshHostEntry) (arr : List Table) : List Table :=
  (hosts.zipIdx.foldl (fun arr host =>
    match arr[host.2]? with
    | some t => arr.set host.2 (writeHost t host.1)
    | none => arr ++ [writeHost Table.empty host.1]) arr).take hosts.length

/-- The rows of an array of tables; anything else is rebuilt. -/
def arrayRows : Option Item → List Table
  | some (.arrayOfTables rows) => rows
  | _ => []

/-- Update the `[[hosts]]` array in place. -/
def writeSshHostsBack (doc : Table) (hosts : List SshHostEntry) : Table :=
  doc.insert "hosts" (.arrayOfTables (writeRows hosts (arrayRows (doc "hosts"))))

/-- The rows after the first hosts have been written: one for each host, on what was there. -/
def pairRows : List SshHostEntry → List Table → List Table
  | [], _ => []
  | h :: hosts, arr => writeHost (arr.headD Table.empty) h :: pairRows hosts arr.tail

theorem length_pairRows (hosts : List SshHostEntry) (arr : List Table) :
    (pairRows hosts arr).length = hosts.length := by
  induction hosts generalizing arr with
  | nil => rfl
  | cons h hosts ih => rw [pairRows, List.length_cons, List.length_cons, ih]

theorem writeRows_loop (hosts : List SshHostEntry) (written arr : List Table) :
    (hosts.zipIdx written.length).foldl (fun arr host =>
      match arr[host.2]? with
      | some t => arr.set host.2 (writeHost t host.1)
      | none => arr ++ [writeHost Table.empty host.1]) (written ++ arr) =
      written ++ pairRows hosts arr ++ arr.drop hosts.length := by
  induction hosts generalizing written arr with
  | nil => simp [pairRows]
  | cons h hosts ih =>
    have hnext : ∀ t, (written ++ [writeHost t h]).length = written.length + 1 := fun t =>
      List.length_append
    rw [List.zipIdx_cons, List.foldl_cons]
    rcases arr with _ | ⟨t, arr⟩
    · have hnew := ih (written ++ [writeHost Table.empty h]) []
      rw [hnext] at hnew
      simpa [pairRows] using hnew
    · have hold := ih (written ++ [writeHost t h]) arr
      rw [hnext] at hold
      simpa [pairRows] using hold

theorem writeRows_eq (hosts : List SshHostEntry) (arr : List Table) :
    writeRows hosts arr = pairRows hosts arr := by
  have hloop := writeRows_loop hosts [] arr
  rw [List.length_nil, List.nil_append, List.nil_append] at hloop
  rw [writeRows, hloop, ← length_pairRows hosts arr, List.take_left]

/-- The row at an index; empty past the end. -/
def rowAt (rows : List Table) (i : ℕ) : Table := rows.getD i Table.empty

theorem rowAt_writeRows {hosts : List SshHostEntry} {i : ℕ} {h : SshHostEntry}
    (hi : hosts[i]? = some h) (arr : List Table) :
    rowAt (writeRows hosts arr) i = writeHost (rowAt arr i) h := by
  rw [writeRows_eq]
  induction hosts generalizing i arr with
  | nil => simp at hi
  | cons h₀ hosts ih =>
    cases i with
    | zero =>
      obtain rfl := Option.some.inj hi
      cases arr <;> rfl
    | succ i =>
      have hrest := ih hi arr.tail
      have htail : rowAt arr.tail i = rowAt arr (i + 1) := by
        cases arr <;> rfl
      rw [← htail, ← hrest]
      rfl

theorem length_writeRows (hosts : List SshHostEntry) (arr : List Table) :
    (writeRows hosts arr).length = hosts.length := by
  rw [writeRows_eq, length_pairRows]

/-- The keys of a row that the panel does not manage. -/
def unmanaged (t : Table) : Table := fun key => if key ∈ managedHostKeys then none else t key

theorem unmanaged_insert {key : String} (h : key ∈ managedHostKeys) (t : Table) (v : Item) :
    unmanaged (t.insert key v) = unmanaged t := by
  ext1 k
  by_cases hk : k = key
  · simp [unmanaged, hk, h]
  · simp [unmanaged, Table.insert, hk]

theorem unmanaged_writeHost (t : Table) (h : SshHostEntry) :
    unmanaged (writeHost t h) = unmanaged t := by
  unfold writeHost
  iterate 5 rw [unmanaged_insert (by decide)]

/-! ## Where the hosts come from -/

/-- For each host of the panel the row it was loaded from, if it was not added. -/
abbrev Origins := List (Option ℕ)

def Origins.step (p : SshPanel) (os : Origins) : SshOp → Origins
  | .add => os ++ [none]
  | .confirmDeleteDialog => os.eraseIdx p.selectedHostIndex
  | _ => os

/-- A run with the origins beside it. -/
def trace (s : SshPanel × Origins) (ops : List SshOp) : SshPanel × Origins :=
  ops.foldl (fun s op => (s.1.step op, Origins.step s.1 s.2 op)) s

/-- The origins after a run, from a panel whose hosts are the rows. -/
def origins (p : SshPanel) (ops : List SshOp) : Origins :=
  (trace (p, (List.range p.sshHosts.length).map some) ops).2

/-- The rows whose hosts are still there. -/
def Origins.kept (os : Origins) : List ℕ := os.filterMap id

/-- After the run, each host that was there has the unmanaged keys of its own row, and a host that
    was added has none; no other row is left. -/
def KeepsOwn (rows : List Table) (os : Origins) (rows' : List Table) : Prop :=
  rows'.length = os.length ∧ ∀ j o, os[j]? = some o →
    unmanaged (rowAt rows' j) = o.elim Table.empty fun i => unmanaged (rowAt rows i)

/-- The rows that the hosts are written to fit them: the hosts that are left fill the first rows,
    and those agree with the ones they were loaded from; the rows after them have nothing that an
    added host could take over. -/
def InPlace (rows : List Table) (os : Origins) : Prop :=
  (∀ j i, os.kept[j]? = some i → unmanaged (rowAt rows j) = unmanaged (rowAt rows i)) ∧
  ∀ j, os.kept.length ≤ j → j < os.length → unmanaged (rowAt rows j) = Table.empty

namespace SshPanel

theorem length_modifySelected (p : SshPanel) (f : SshHostEntry → SshHostEntry) :
    (p.modifySelected f).sshHosts.length = p.sshHosts.length := by
  unfold modifySelected
  split <;> simp

theorem length_addSshHost (p : SshPanel) :
    p.addSshHost.sshHosts.length = p.sshHosts.length + 1 := List.length_append

theorem sshHosts_confirmSshDeleteDialog (p : SshPanel) :
    p.confirmSshDeleteDialog.sshHosts = p.sshHosts.eraseIdx p.selectedHostIndex := by
  unfold confirmSshDeleteDialog
  by_cases h : p.selectedHostIndex < p.sshHosts.length
  · simp only [h, if_true]
    rfl
  · simp only [h, if_false]
    exact (List.eraseIdx_of_length_le (Nat.le_of_not_lt h)).symm

/-- The operations other than adding and deleting leave the number of hosts. -/
theorem length_step (p : SshPanel) {op : SshOp} (hadd : op ≠ .add)
    (hconfirm : op ≠ .confirmDeleteDialog) : (p.step op).sshHosts.length = p.sshHosts.length := by
  cases op with
  | add => exact absurd rfl hadd
  | confirmDeleteDialog => exact absurd rfl hconfirm
  | openDeleteDialog =>
    rw [step, openSshDeleteDialog]
    split <;> rfl
  | beginFieldEdit =>
    rw [step, beginSshFieldEdit]
    split <;> rfl
  | commitFieldEdit =>
    rw [step, commitSshFieldEdit]
    split
    · rfl
    · dsimp only
      split <;> first | rfl | exact length_modifySelected _ _
  | select i | focus i | typeText i | cancelDeleteDialog | toggleDeleteDialogFocus
  | cancelFieldEdit => rfl
  | setName text | setHost text | setUsername text | setPortValue v | increasePort | decreasePort
  | nextAuthType | prevAuthType => exact length_modifySelected p _

end SshPanel

/-- Hosts that were loaded, in the order of their rows, and then hosts that were added. -/
def Ordered (os : Origins) : Prop :=
  ∃ kept : List ℕ, kept.Pairwise (· < ·) ∧ ∃ added, os = kept.map some ++ List.replicate added none

theorem Ordered.step {os : Origins} (h : Ordered os) (p : SshPanel) (op : SshOp) :
    Ordered (os.step p op) := by
  obtain ⟨kept, hkept, added, rfl⟩ := h
  cases op with
  | add =>
    refine ⟨kept, hkept, added + 1, ?_⟩
    rw [Origins.step, List.append_assoc, List.replicate_succ']
  | confirmDeleteDialog =>
    rw [Origins.step]
    by_cases hsel : p.selectedHostIndex < kept.length
    · refine ⟨_, hkept.sublist (List.eraseIdx_sublist _ p.selectedHostIndex), added, ?_⟩
      rw [List.eraseIdx_append_of_lt_length (by rwa [List.length_map]), List.eraseIdx_map]
    · have hlen : (kept.map some).length ≤ p.selectedHostIndex := by
        rw [List.length_map]
        omega
      rw [List.eraseIdx_append_of_length_le hlen, List.eraseIdx_replicate]
      split
      · exact ⟨kept, hkept, added - 1, rfl⟩
      · exact ⟨kept, hkept, added, rfl⟩
  | _ => exact ⟨kept, hkept, added, rfl⟩

theorem Origins.length_step {p : SshPanel} {os : Origins} (h : os.length = p.sshHosts.length)
    (op : SshOp) : (os.step p op).length = (p.step op).sshHosts.length := by
  by_cases hadd : op = .add
  · subst hadd
    rw [SshPanel.step, p.length_addSshHost, Origins.step, List.length_append, h]
    rfl
  by_cases hconfirm : op = .confirmDeleteDialog
  · subst hconfirm
    rw [SshPanel.step, p.sshHosts_confirmSshDeleteDialog, Origins.step, List.length_eraseIdx,
      List.length_eraseIdx, h]
  · rw [p.length_step hadd hconfirm, ← h]
    cases op <;> first | rfl | contradiction

theorem trace_spec (ops : List SshOp) {p : SshPanel} {os : Origins}
    (hlen : os.length = p.sshHosts.length) (hord : Ordered os) :
    (trace (p, os) ops).1 = p.run ops ∧
      (trace (p, os) ops).2.length = (p.run ops).sshHosts.length ∧
      Ordered (trace (p, os) ops).2 := by
  induction ops generalizing p os with
  | nil => exact ⟨rfl, hlen, hord⟩
  | cons op ops ih => exact ih (Origins.length_step hlen op) (hord.step p op)

theorem origins_spec (p : SshPanel) (ops : List SshOp) :
    (origins p ops).length = (p.run ops).sshHosts.length ∧ Ordered (origins p ops) := by
  have hstart : Ordered ((List.range p.sshHosts.length).map some) :=
    ⟨_, List.pairwise_lt_range, 0, (List.append_nil _).symm⟩
  exact (trace_spec ops (by rw [List.length_map, List.length_range]) hstart).2

/-- The hosts that are left come first, then the ones that were added. -/
theorem Ordered.forall_iff {os : Origins} (h : Ordered os) {P : ℕ → Option ℕ → Prop} :
    (∀ j o, os[j]? = some o → P j o) ↔
      (∀ j i, os.kept[j]? = some i → P j (some i)) ∧
        ∀ j, os.kept.length ≤ j → j < os.length → P j none := by
  obtain ⟨kept, -, added, rfl⟩ := h
  have hkept : Origins.kept (kept.map some ++ List.replicate added none) = kept := by
    simp [Origins.kept, List.filterMap_append, List.filterMap_map]
  have hleft : ∀ j, j < kept.length →
      (kept.map some ++ List.replicate added none)[j]? = (kept[j]?).map some := by
    intro j hj
    rw [List.getElem?_append_left (by rwa [List.length_map]), List.getElem?_map]
  have hright : ∀ j, kept.length ≤ j → j < kept.length + added →
      (kept.map some ++ List.replicate added none)[j]? = some none := by
    intro j hj hlt
    rw [List.getElem?_append_right (by rwa [List.length_map]), List.length_map]
    exact List.getElem?_replicate_of_lt (by omega)
  rw [hkept, List.length_append, List.length_map, List.length_replicate]
  constructor
  · intro hall
    refine ⟨?_, fun j hj hlt => hall j none (hright j hj hlt)⟩
    intro j i hi
    refine hall j (some i) ?_
    rw [hleft j (List.getElem?_eq_some_iff.1 hi).1, hi, Option.map_some]
  · rintro ⟨hold, hnew⟩ j o hj
    have hlt := (List.getElem?_eq_some_iff.1 hj).1
    rw [List.length_append, List.length_map, List.length_replicate] at hlt
    rcases Nat.lt_or_ge j kept.length with hjk | hjk
    · rw [hleft j hjk, List.getElem?_eq_getElem hjk] at hj
      obtain rfl := Option.some.inj hj
      exact hold j _ (List.getElem?_eq_getElem hjk)
    · rw [hright j hjk hlt] at hj
      obtain rfl := Option.some.inj hj
      exact hnew j hjk hlt

/-- Every host keeps its own unmanaged keys if and only if the hosts that are left stand on rows
    that agree with theirs, and the added ones on rows without such keys. -/
theorem hosts_keep_own_iff (hosts : List HostConfig) (ops : List SshOp) (doc : Table)
    (rows : List Table) :
    KeepsOwn rows (origins (.ofHosts hosts) ops)
        (arrayRows (writeSshHostsBack (doc.insert "hosts" (.arrayOfTables rows))
          ((SshPanel.ofHosts hosts).run ops).sshHosts "hosts")) ↔
      InPlace rows (origins (.ofHosts hosts) ops) := by
  obtain ⟨hlen, hord⟩ := origins_spec (.ofHosts hosts) ops
  generalize origins (.ofHosts hosts) ops = os at hlen hord ⊢
  generalize (SshPanel.ofHosts hosts).run ops = p at hlen ⊢
  have hrows : arrayRows (writeSshHostsBack (doc.insert "hosts" (.arrayOfTables rows))
      p.sshHosts "hosts") = writeRows p.sshHosts rows := rfl
  have hwritten : ∀ j o, os[j]? = some o →
      unmanaged (rowAt (writeRows p.sshHosts rows) j) = unmanaged (rowAt rows j) := by
    intro j o hj
    have hlt : j < p.sshHosts.length := by
      rw [← hlen]
      exact (List.getElem?_eq_some_iff.1 hj).1
    rw [rowAt_writeRows (List.getElem?_eq_getElem hlt), unmanaged_writeHost]
  rw [hrows, InPlace, KeepsOwn, length_writeRows]
  calc (p.sshHosts.length = os.length ∧ ∀ j o, os[j]? = some o →
        unmanaged (rowAt (writeRows p.sshHosts rows) j) =
          o.elim Table.empty fun i => unmanaged (rowAt rows i))
      ↔ ∀ j o, os[j]? = some o →
        unmanaged (rowAt rows j) = o.elim Table.empty fun i => unmanaged (rowAt rows i) := by
        rw [and_iff_right hlen.symm]
        exact forall₂_congr fun j o => forall_congr' fun hj => by rw [hwritten j o hj]
    _ ↔ _ := hord.forall_iff

/-- While no host that was loaded is deleted, every host keeps its own. -/
theorem inPlace_of_kept {rows : List Table} {os : Origins}
    (h : os.kept = List.range rows.length) : InPlace rows os := by
  refine ⟨?_, ?_⟩
  · intro j i hi
    obtain ⟨hlt, hij⟩ := List.getElem?_eq_some_iff.1 (h ▸ hi)
    rw [← hij, List.getElem_range]
  · intro j hj _
    rw [h, List.length_range] at hj
    ext1 key
    simp [unmanaged, rowAt, List.getD_eq_getElem?_getD, List.getElem?_eq_none hj, Table.empty]

/-- Two hosts with keys of their own. -/
def keyHosts : List HostConfig := [keyHost "a" "~/.ssh/a", keyHost "b" "~/.ssh/b"]
where
  keyHost (name keyPath : String) : HostConfig :=
    { name := name, host := name, port := 22, username := "ops", authType := "key",
      keyPath := some keyPath, forwardLocal := [], forwardRemote := [], proxyJump := none,
      x11Forward := false, x11Trusted := false, group := "", tags := [] }

/-- The rows that they are loaded from. -/
def keyRows : List Table := [keyRow "a" "~/.ssh/a", keyRow "b" "~/.ssh/b"]
where
  keyRow (name keyPath : String) : Table :=
    (writeHost Table.empty
      { name := name, host := name, port := 22, username := "ops", authType := "key" }).insert
      "key_path" (.string keyPath)

/-- Deleting the first host hands its private key on to the second. -/
theorem not_keep_own_first :
    let ops : List SshOp := [.select 0, .openDeleteDialog, .confirmDeleteDialog]
    let rows' := arrayRows (writeSshHostsBack
      (Table.empty.insert "hosts" (.arrayOfTables keyRows))
      ((SshPanel.ofHosts keyHosts).run ops).sshHosts "hosts")
    origins (.ofHosts keyHosts) ops = [some 1] ∧
      rowAt rows' 0 "name" = some (.string "b") ∧
      rowAt rows' 0 "key_path" = some (.string "~/.ssh/a") ∧
      ¬ KeepsOwn keyRows (origins (.ofHosts keyHosts) ops) rows' := by
  refine ⟨by decide, rfl, rfl, ?_⟩
  rintro ⟨-, h⟩
  have hkey := congrFun (h 0 (some 1) (by decide)) "key_path"
  have hpath : some (Item.string "~/.ssh/a") = some (Item.string "~/.ssh/b") := hkey
  injection hpath with hpath
  injection hpath with hpath
  revert hpath
  decide

end Nexterm.Settings

/-
  Saving the snapshot (`persist.rs`): any number of calls in one process, each writing a temporary
  file and renaming it to `snapshot.json`; all of them use one temporary name.

  * `Files`: the two names, and the files behind them; an open file stays the same under a rename.
  * `Op`, `step`: the steps of `write_atomic_secure`, any of which may fail, in any interleaving.
  * `Whole`: the file has the bytes of one snapshot, and none older than one that was saved.
  * `Orderly`: calls write one after the other, in the order of their snapshots;
    `snapshot_whole`: this is enough.
-/
import Mathlib.Tactic.Common
import Mathlib.Data.Nat.Notation

namespace Nexterm.Server.Persist

/-! ## Files -/

/-- A snapshot, as it is serialized; `taken` orders the snapshots in time. -/
structure Snapshot where
  taken : ℕ
  bytes : List UInt8

/-- The directory entries of `snapshot.json` and of the temporary file, and the files by number. -/
structure Files where
  target : Option ℕ
  tmp : Option ℕ
  content : ℕ → List UInt8
  next : ℕ

/-- A write at an offset; a gap is filled with zeros. -/
def writeAt (content : List UInt8) (offset : ℕ) (bytes : List UInt8) : List UInt8 :=
  (content ++ List.replicate (offset - content.length) 0).take offset ++ bytes ++
    content.drop (offset + bytes.length)

namespace Files

def set (f : Files) (inode : ℕ) (content : List UInt8) : Files :=
  { f with content := fun i => if i = inode then content else f.content i }

/-- Open the temporary file: create it, or truncate what is there. -/
def openTmp (f : Files) : Files × ℕ :=
  match f.tmp with
  | some inode => (f.set inode [], inode)
  | none => ({ f with tmp := some f.next, next := f.next + 1 }.set f.next [], f.next)

/-- Rename the temporary file over the target, if it is there. -/
def rename (f : Files) : Option Files :=
  f.tmp.map fun inode => { f with target := some inode, tmp := none }

end Files

/-! ## Calls -/

/-- Where a call of `write_atomic_secure` is. -/
inductive Phase
  /-- Before the temporary file is opened. -/
  | called
  /-- The file is open, this many bytes are written. -/
  | opened (inode written : ℕ)
  /-- The file is written, synced and closed. -/
  | synced (inode : ℕ)
  /-- A step has failed and the guard removes the temporary file. -/
  | cleanup
  | saved
  | failed
  deriving DecidableEq

/-- A call of `save_snapshot`. -/
structure Save where
  snap : Snapshot
  phase : Phase

/-- The files and the calls so far, finished or not. -/
structure State where
  files : Files
  saves : List Save

/-- What can happen next, in the call with this number. -/
inductive Op
  | call (snap : Snapshot)
  /-- The parent directory cannot be created. -/
  | abort (i : ℕ)
  | openTmp (i : ℕ)
  /-- Write some of the bytes that are left. -/
  | write (i n : ℕ)
  | sync (i : ℕ)
  | rename (i : ℕ)
  /-- The step of this call fails. -/
  | fail (i : ℕ)
  /-- The guard removes the temporary file, or does not manage to. -/
  | remove (i : ℕ) (removed : Bool)
  /-- The process dies, and with it all calls under way. -/
  | die

namespace State

def setPhase (s : State) (i : ℕ) (phase : Phase) : State :=
  { s with saves := s.saves.modify i fun c => { c with phase } }

/-- One step of one call; a step that is not the next one of its call does nothing. -/
def step (s : State) : Op → State
  | .call snap => { s with saves := s.saves ++ [⟨snap, .called⟩] }
  | .abort i =>
    match s.saves[i]? with
    | some ⟨_, .called⟩ => s.setPhase i .failed
    | _ => s
  | .openTmp i =>
    match s.saves[i]? with
    | some ⟨_, .called⟩ =>
      let (files, inode) := s.files.openTmp
      { s with files }.setPhase i (.opened inode 0)
    | _ => s
  | .write i n =>
    match s.saves[i]? with
    | some ⟨snap, .opened inode written⟩ =>
      let bytes := (snap.bytes.drop written).take n
      let files := s.files.set inode (writeAt (s.files.content inode) written bytes)
      { s with files }.setPhase i (.opened inode (written + bytes.length))
    | _ => s
  | .sync i =>
    match s.saves[i]? with
    | some ⟨snap, .opened inode written⟩ =>
      if written = snap.bytes.length then s.setPhase i (.synced inode) else s
    | _ => s
  | .rename i =>
    match s.saves[i]? with
    | some ⟨_, .synced _⟩ =>
      match s.files.rename with
      | some files => { s with files }.setPhase i .saved
      | none => s.setPhase i .cleanup
    | _ => s
  | .fail i =>
    match s.saves[i]? with
    | some ⟨_, .called⟩ | some ⟨_, .opened _ _⟩ | some ⟨_, .synced _⟩ => s.setPhase i .cleanup
    | _ => s
  | .remove i removed =>
    match s.saves[i]? with
    | some ⟨_, .cleanup⟩ =>
      let files := if removed then { s.files with tmp := none } else s.files
      { s with files }.setPhase i .failed
    | _ => s
  | .die =>
    let stop (c : Save) := if c.phase = .saved then c else { c with phase := .failed }
    { s with saves := s.saves.map stop }

def run (s : State) (ops : List Op) : State := ops.foldl step s

/-- A process starts: there may be a snapshot of an earlier one, and a temporary file of one that
    had the same number. -/
def start (old stale : Option (List UInt8)) : State where
  files :=
    { target := old.map fun _ => 0
      tmp := stale.map fun _ => 1
      content := fun i => if i = 0 then old.getD [] else if i = 1 then stale.getD [] else []
      next := 2 }
  saves := old.toList.map fun bytes => ⟨⟨0, bytes⟩, .saved⟩

/-- No saved snapshot is later than this one. -/
def Latest (s : State) (snap : Snapshot) : Prop :=
  ∀ (j : ℕ) d, s.saves[j]? = some d → d.phase = .saved → d.snap.taken ≤ snap.taken

/-- `snapshot.json` is absent or has the complete bytes of one snapshot that was passed to
    `save_snapshot`, taken no earlier than any that was saved. -/
def Whole (s : State) : Prop :=
  ∀ inode ∈ s.files.target, ∃ (i : ℕ) (c : Save), s.saves[i]? = some c ∧
    s.files.content inode = c.snap.bytes ∧ s.Latest c.snap

end State

/-- The temporary file that the call has, and what it has written to it. -/
def Save.file (c : Save) : Option (ℕ × List UInt8) :=
  match c.phase with
  | .opened inode written => some (inode, c.snap.bytes.take written)
  | .synced inode => some (inode, c.snap.bytes)
  | _ => none

/-- A call opens the temporary file when no other call has it, and none has saved a later
    snapshot. -/
def State.Orderly (s : State) : Op → Prop
  | .openTmp i => (∀ (j : ℕ) d, s.saves[j]? = some d → d.file = none) ∧
      ∀ c, s.saves[i]? = some c → s.Latest c.snap
  | _ => True

/-- All steps of a run are orderly. -/
def AllOrderly (s : State) : List Op → Prop
  | [] => True
  | op :: ops => s.Orderly op ∧ AllOrderly (s.step op) ops

/-! ## The invariant -/

/-- A call with this snapshot has a file of its own with this content. -/
structure State.Holds (s : State) (snap : Snapshot) (file : ℕ × List UInt8) : Prop where
  lt : file.1 < s.files.next
  ne : s.files.target ≠ some file.1
  content : s.files.content file.1 = file.2
  tmp : ∀ t ∈ s.files.tmp, t = file.1
  latest : s.Latest snap

/-- At most one call has the temporary file, and in it is what it has written. -/
structure Inv (s : State) : Prop where
  whole : s.Whole
  target : ∀ inode ∈ s.files.target, inode < s.files.next
  tmp : ∀ inode ∈ s.files.tmp, inode < s.files.next ∧ s.files.target ≠ some inode
  alone : ∀ (i j : ℕ) c d, s.saves[i]? = some c → s.saves[j]? = some d → c.file ≠ none →
    d.file ≠ none → i = j
  holds : ∀ (i : ℕ) c, s.saves[i]? = some c → ∀ file ∈ c.file, s.Holds c.snap file
  written : ∀ (i : ℕ) snap inode written, s.saves[i]? = some ⟨snap, .opened inode written⟩ →
    written ≤ snap.bytes.length

theorem State.getElem?_setPhase {s : State} {i j : ℕ} {phase : Phase} {d : Save} :
    (s.setPhase i phase).saves[j]? = some d ↔
      (j ≠ i ∧ s.saves[j]? = some d) ∨
        (j = i ∧ ∃ c, s.saves[i]? = some c ∧ d = { c with phase }) := by
  rw [setPhase, List.getElem?_modify]
  by_cases hj : i = j
  · subst hj
    simp only [if_true, Option.map_eq_map, Option.map_eq_some_iff, ne_eq, not_true_eq_false,
      false_and, false_or, true_and]
    exact exists_congr fun c => and_congr_right fun _ => eq_comm
  · simp [hj, Ne.symm hj]

/-- Some calls are over, or new, and the temporary file may be gone; nothing else is different. -/
structure Quieter (s s' : State) : Prop where
  target : s'.files.target = s.files.target
  content : s'.files.content = s.files.content
  next : s'.files.next = s.files.next
  tmp : ∀ inode ∈ s'.files.tmp, inode ∈ s.files.tmp
  kept : ∀ (i : ℕ) c, s.saves[i]? = some c → ∃ c' : Save, s'.saves[i]? = some c' ∧ c'.snap = c.snap
  came : ∀ (i : ℕ) (c : Save), s'.saves[i]? = some c →
    (c.file = none ∧ c.phase ≠ .saved) ∨ s.saves[i]? = some c

theorem Quieter.latest {s s' : State} (h : Quieter s s') {snap : Snapshot} (hs : s.Latest snap) :
    s'.Latest snap := by
  intro j d hd hsaved
  rcases h.came j d hd with ⟨-, hne⟩ | hd
  · exact absurd hsaved hne
  · exact hs j d hd hsaved

theorem Quieter.file {s s' : State} (h : Quieter s s') {i : ℕ} {c : Save}
    (hc : s'.saves[i]? = some c) (hfile : c.file ≠ none) : s.saves[i]? = some c :=
  (h.came i c hc).resolve_left fun hnone => hfile hnone.1

theorem Inv.quieter {s s' : State} (h : Inv s) (hq : Quieter s s') : Inv s' where
  whole := by
    intro inode hinode
    rw [hq.target] at hinode
    obtain ⟨i, c, hc, hcontent, hlatest⟩ := h.whole inode hinode
    obtain ⟨c', hc', hsnap⟩ := hq.kept i c hc
    refine ⟨i, c', hc', by rw [hq.content, hsnap, hcontent], ?_⟩
    rw [hsnap]
    exact hq.latest hlatest
  target inode hinode := hq.next ▸ h.target inode (hq.target ▸ hinode)
  tmp inode hinode := hq.next ▸ hq.target ▸ h.tmp inode (hq.tmp inode hinode)
  alone i j c d hc hd hfc hfd := h.alone i j c d (hq.file hc hfc) (hq.file hd hfd) hfc hfd
  holds i c hc file hfile := by
    have hne : c.file ≠ none := by
      rw [hfile]
      exact Option.some_ne_none file
    have hh := h.holds i c (hq.file hc hne) file hfile
    exact ⟨hq.next ▸ hh.lt, hq.target ▸ hh.ne, hq.content ▸ hh.content,
      fun t ht => hh.tmp t (hq.tmp t ht), hq.latest hh.latest⟩
  written i snap inode written hc :=
    h.written i snap inode written (hq.file hc (Option.some_ne_none _))

/-- A call that goes to a phase without the file. -/
theorem quieter_setPhase (s : State) (i : ℕ) {phase : Phase}
    (hfile : ∀ snap, Save.file ⟨snap, phase⟩ = none) (hsaved : phase ≠ .saved) {files : Files}
    (hfiles : files = s.files ∨ files = { s.files with tmp := none }) :
    Quieter s ({ s with files }.setPhase i phase) := by
  constructor
  · rcases hfiles with rfl | rfl <;> rfl
  · rcases hfiles with rfl | rfl <;> rfl
  · rcases hfiles with rfl | rfl <;> rfl
  · rcases hfiles with rfl | rfl
    · exact fun _ => id
    · exact fun _ hinode => nomatch hinode
  · intro j c hc
    by_cases hj : j = i
    · exact ⟨{ c with phase }, State.getElem?_setPhase.2 (.inr ⟨hj, c, hj ▸ hc, rfl⟩), rfl⟩
    · exact ⟨c, State.getElem?_setPhase.2 (.inl ⟨hj, hc⟩), rfl⟩
  · intro j d hd
    rcases State.getElem?_setPhase.1 hd with ⟨-, hd⟩ | ⟨-, c, -, rfl⟩
    · exact .inr hd
    · exact .inl ⟨hfile c.snap, hsaved⟩

/-- A step of the call that has the file, or gets it: the rest is as it was. -/
theorem Inv.hold {s : State} (h : Inv s) {i : ℕ} {c : Save} (hc : s.saves[i]? = some c)
    (hother : ∀ (j : ℕ) d, s.saves[j]? = some d → d.file ≠ none → j = i)
    {phase : Phase} (hphase : phase ≠ .saved) {files : Files}
    (htarget : files.target = s.files.target) (hnext : s.files.next ≤ files.next)
    (hcontent : ∀ inode ∈ s.files.target, files.content inode = s.files.content inode)
    (htmp : ∀ inode ∈ files.tmp, inode < files.next ∧ files.target ≠ some inode)
    (hholds : ∀ file ∈ Save.file ⟨c.snap, phase⟩, State.Holds ⟨files, s.saves⟩ c.snap file)
    (hwritten : ∀ inode written, phase = .opened inode written → written ≤ c.snap.bytes.length) :
    Inv ({ s with files }.setPhase i phase) := by
  have hlatest : ∀ {snap : Snapshot}, s.Latest snap →
      ({ s with files }.setPhase i phase).Latest snap := by
    intro snap hs j d hd hsaved
    rcases State.getElem?_setPhase.1 hd with ⟨-, hd⟩ | ⟨-, c', -, rfl⟩
    · exact hs j d hd hsaved
    · exact absurd hsaved hphase
  -- nobody else has a file afterwards
  have honly : ∀ {j : ℕ} {d : Save}, ({ s with files }.setPhase i phase).saves[j]? = some d →
      d.file ≠ none → j = i ∧ d = { c with phase } := by
    intro j d hd hfile
    rcases State.getElem?_setPhase.1 hd with ⟨hne, hd⟩ | ⟨hj, c', hc', heq⟩
    · exact absurd (hother j d hd hfile) hne
    · obtain rfl := Option.some.inj (hc.symm.trans hc')
      exact ⟨hj, heq⟩
  constructor
  · intro inode hinode
    have hinode : inode ∈ s.files.target := htarget ▸ hinode
    obtain ⟨j, d, hd, hbytes, hd'⟩ := h.whole inode hinode
    by_cases hj : j = i
    · exact ⟨j, { d with phase }, State.getElem?_setPhase.2 (.inr ⟨hj, d, hj ▸ hd, rfl⟩),
        (hcontent inode hinode).trans hbytes, hlatest hd'⟩
    · exact ⟨j, d, State.getElem?_setPhase.2 (.inl ⟨hj, hd⟩),
        (hcontent inode hinode).trans hbytes, hlatest hd'⟩
  · intro inode hinode
    exact Nat.lt_of_lt_of_le (h.target inode (htarget ▸ hinode)) hnext
  · exact htmp
  · intro j k d e hd he hfd hfe
    rw [(honly hd hfd).1, (honly he hfe).1]
  · intro j d hd file hfile
    have hne : d.file ≠ none := by
      rw [hfile]
      exact Option.some_ne_none file
    obtain ⟨-, rfl⟩ := honly hd hne
    have hh := hholds file hfile
    exact ⟨hh.lt, hh.ne, hh.content, hh.tmp, hlatest hh.latest⟩
  · intro j snap inode written hd
    obtain ⟨-, heq⟩ := honly hd (Option.some_ne_none _)
    obtain ⟨rfl, rfl⟩ := Save.mk.inj heq
    exact hwritten inode written rfl

/-- Writing the next bytes behind those that are written. -/
theorem writeAt_take {bytes : List UInt8} {written : ℕ} (hle : written ≤ bytes.length) (n : ℕ) :
    writeAt (bytes.take written) written ((bytes.drop written).take n) =
      bytes.take (written + ((bytes.drop written).take n).length) := by
  have hlen : (bytes.take written).length = written := List.length_take_of_le hle
  have htake : (bytes.drop written).take n =
      (bytes.drop written).take ((bytes.drop written).take n).length := by
    rw [List.length_take, ← List.take_take, List.take_length]
  have hdrop : (bytes.take written).drop (written + ((bytes.drop written).take n).length) = [] :=
    List.drop_eq_nil_of_le (by omega)
  rw [writeAt, hlen, hdrop, Nat.sub_self, List.replicate_zero, List.append_nil, List.append_nil,
    List.take_take, Nat.min_self, List.take_add, ← htake]

theorem Files.set_of_ne {f : Files} {inode i : ℕ} (h : i ≠ inode) (content : List UInt8) :
    (f.set inode content).content i = f.content i := if_neg h

/-- The file that is opened is empty, and it is not the target. -/
theorem Inv.openTmp {s : State} (h : Inv s) {i : ℕ} {snap : Snapshot}
    (hc : s.saves[i]? = some ⟨snap, .called⟩) (ho : s.Orderly (.openTmp i)) :
    Inv (s.step (.openTmp i)) := by
  obtain ⟨hfree, hlatest⟩ := ho
  have hother : ∀ (j : ℕ) d, s.saves[j]? = some d → d.file ≠ none → j = i :=
    fun j d hd hfile => absurd (hfree j d hd) hfile
  dsimp only [State.step]
  rw [hc]
  dsimp only [Files.openTmp]
  cases htmp : s.files.tmp with
  | some inode =>
    obtain ⟨hlt, hne⟩ := h.tmp inode htmp
    refine h.hold hc hother Phase.noConfusion rfl (Nat.le_refl _) (fun t ht => ?_) h.tmp ?_ ?_
    · exact Files.set_of_ne (fun heq : t = inode => hne (heq ▸ ht)) []
    · intro file hfile
      obtain rfl := Option.some.inj hfile
      refine ⟨hlt, hne, if_pos rfl, fun t ht => ?_, hlatest _ hc⟩
      exact Option.some.inj (ht.symm.trans htmp)
    · intro _ written hphase
      rw [← (Phase.opened.inj hphase).2]
      exact Nat.zero_le _
  | none =>
    have hnew : ∀ t ∈ s.files.target, t ≠ s.files.next :=
      fun t ht => Nat.ne_of_lt (h.target t ht)
    refine h.hold hc hother Phase.noConfusion rfl (Nat.le_succ _) (fun t ht => ?_)
      (fun t ht => ?_) ?_ ?_
    · exact Files.set_of_ne (hnew t ht) []
    · obtain rfl := Option.some.inj ht
      exact ⟨Nat.lt_succ_self _, fun heq => hnew _ heq rfl⟩
    · intro file hfile
      obtain rfl := Option.some.inj hfile
      refine ⟨Nat.lt_succ_self _, fun heq => hnew _ heq rfl, if_pos rfl, fun t ht => ?_,
        hlatest _ hc⟩
      exact (Option.some.inj ht).symm
    · intro _ written hphase
      rw [← (Phase.opened.inj hphase).2]
      exact Nat.zero_le _

/-- Whoever else has the file is this call. -/
theorem Inv.other {s : State} (h : Inv s) {i : ℕ} {c : Save} (hc : s.saves[i]? = some c)
    (hfile : c.file ≠ none) (j : ℕ) (d : Save) (hd : s.saves[j]? = some d)
    (hfd : d.file ≠ none) : j = i := h.alone j i d c hd hc hfd hfile

theorem Inv.write {s : State} (h : Inv s) {i : ℕ} {snap : Snapshot} {inode written : ℕ}
    (hc : s.saves[i]? = some ⟨snap, .opened inode written⟩) (n : ℕ) :
    Inv (s.step (.write i n)) := by
  have hle := h.written i snap inode written hc
  have hh := h.holds i _ hc _ rfl
  have hcontent : s.files.content inode = snap.bytes.take written := hh.content
  dsimp only [State.step]
  rw [hc]
  refine h.hold hc (h.other hc (Option.some_ne_none _)) Phase.noConfusion rfl (Nat.le_refl _)
    (fun t ht => ?_) h.tmp ?_ ?_
  · exact Files.set_of_ne (fun heq : t = inode => hh.ne (heq ▸ ht)) _
  · intro file hfile
    obtain rfl := Option.some.inj hfile
    refine ⟨hh.lt, hh.ne, ?_, hh.tmp, hh.latest⟩
    show (if inode = inode then _ else _) = _
    rw [if_pos rfl, hcontent]
    exact writeAt_take hle n
  · intro _ written' hphase
    rw [← (Phase.opened.inj hphase).2, List.length_take, List.length_drop]
    dsimp only
    omega

theorem Inv.sync {s : State} (h : Inv s) {i : ℕ} {snap : Snapshot} {inode written : ℕ}
    (hc : s.saves[i]? = some ⟨snap, .opened inode written⟩) : Inv (s.step (.sync i)) := by
  have hh := h.holds i _ hc _ rfl
  dsimp only [State.step]
  rw [hc]
  dsimp only
  split_ifs with hall
  · refine h.hold hc (h.other hc (Option.some_ne_none _)) Phase.noConfusion rfl (Nat.le_refl _)
      (fun _ _ => rfl) h.tmp ?_ (fun _ _ hphase => Phase.noConfusion hphase)
    intro file hfile
    obtain rfl := Option.some.inj hfile
    refine ⟨hh.lt, hh.ne, ?_, hh.tmp, hh.latest⟩
    rw [hh.content, hall, List.take_length]
  · exact h

/-- The rename puts a complete file in place, of the latest snapshot saved so far. -/
theorem Inv.rename {s : State} (h : Inv s) {i : ℕ} {snap : Snapshot} {inode : ℕ}
    (hc : s.saves[i]? = some ⟨snap, .synced inode⟩) : Inv (s.step (.rename i)) := by
  have hh := h.holds i _ hc _ rfl
  have hother := h.other hc (Option.some_ne_none _)
  dsimp only [State.step]
  rw [hc]
  dsimp only [Files.rename]
  cases htmp : s.files.tmp with
  | none => exact h.quieter (quieter_setPhase s i (fun _ => rfl) Phase.noConfusion (.inl rfl))
  | some t =>
    obtain rfl : t = inode := hh.tmp t htmp
    dsimp only [Option.map_some]
    set s' : State := ⟨{ s.files with target := some t, tmp := none }, s.saves⟩ with hs'
    have hmine : (s'.setPhase i .saved).saves[i]? = some ⟨snap, .saved⟩ :=
      State.getElem?_setPhase.2 (.inr ⟨rfl, _, hc, rfl⟩)
    have hnone : ∀ {j : ℕ} {d : Save}, (s'.setPhase i .saved).saves[j]? = some d →
        d.file = none := by
      intro j d hd
      rcases State.getElem?_setPhase.1 hd with ⟨hne, hd⟩ | ⟨-, c', -, rfl⟩
      · by_contra hfile
        exact hne (hother j d hd hfile)
      · rfl
    constructor
    · intro inode' hinode'
      obtain rfl := Option.some.inj hinode'
      refine ⟨i, ⟨snap, .saved⟩, hmine, hh.content, fun j d hd hsaved => ?_⟩
      rcases State.getElem?_setPhase.1 hd with ⟨-, hd⟩ | ⟨-, c', hc', rfl⟩
      · exact hh.latest j d hd hsaved
      · obtain rfl := Option.some.inj (hc.symm.trans hc')
        exact Nat.le_refl _
    · intro inode' hinode'
      obtain rfl := Option.some.inj hinode'
      exact hh.lt
    · exact fun inode' hinode' => nomatch hinode'
    · exact fun j k d e hd _ hfd _ => absurd (hnone hd) hfd
    · intro j d hd file hfile
      rw [hnone hd] at hfile
      cases hfile
    · intro j snap' inode' written hd
      have := hnone hd
      cases this

theorem Inv.step {s : State} (h : Inv s) (op : Op) (ho : s.Orderly op) : Inv (s.step op) := by
  have hkeep : s.files = s.files ∨ s.files = { s.files with tmp := none } := .inl rfl
  cases op with
  | call snap =>
    refine h.quieter ⟨rfl, rfl, rfl, fun _ => id, fun i c hc => ⟨c, ?_, rfl⟩, fun i c hc => ?_⟩
    · obtain ⟨hlt, -⟩ := List.getElem?_eq_some_iff.1 hc
      exact (List.getElem?_append_left hlt).trans hc
    · have hc : (s.saves ++ [⟨snap, .called⟩])[i]? = some c := hc
      rw [List.getElem?_append] at hc
      split_ifs at hc
      · exact .inr hc
      · obtain rfl := List.mem_singleton.1 (List.mem_of_getElem? hc)
        exact .inl ⟨rfl, Phase.noConfusion⟩
  | abort i =>
    dsimp only [State.step]
    split
    · exact h.quieter (quieter_setPhase s i (fun _ => rfl) Phase.noConfusion hkeep)
    · exact h
  | openTmp i =>
    by_cases hc : ∃ snap, s.saves[i]? = some ⟨snap, .called⟩
    · obtain ⟨snap, hc⟩ := hc
      exact h.openTmp hc ho
    · dsimp only [State.step]
      split
      · exact absurd ⟨_, ‹_›⟩ hc
      · exact h
  | write i n =>
    by_cases hc : ∃ snap inode written, s.saves[i]? = some ⟨snap, .opened inode written⟩
    · obtain ⟨snap, inode, written, hc⟩ := hc
      exact h.write hc n
    · dsimp only [State.step]
      split
      · exact absurd ⟨_, _, _, ‹_›⟩ hc
      · exact h
  | sync i =>
    by_cases hc : ∃ snap inode written, s.saves[i]? = some ⟨snap, .opened inode written⟩
    · obtain ⟨snap, inode, written, hc⟩ := hc
      exact h.sync hc
    · dsimp only [State.step]
      split
      · exact absurd ⟨_, _, _, ‹_›⟩ hc
      · exact h
  | rename i =>
    by_cases hc : ∃ snap inode, s.saves[i]? = some ⟨snap, .synced inode⟩
    · obtain ⟨snap, inode, hc⟩ := hc
      exact h.rename hc
    · dsimp only [State.step]
      split
      · exact absurd ⟨_, _, ‹_›⟩ hc
      · exact h
  | fail i =>
    dsimp only [State.step]
    split
    all_goals first
      | exact h.quieter (quieter_setPhase s i (fun _ => rfl) Phase.noConfusion hkeep)
      | exact h
  | remove i removed =>
    dsimp only [State.step]
    split
    · refine h.quieter (quieter_setPhase s i (fun _ => rfl) Phase.noConfusion ?_)
      cases removed with
      | true => exact .inr rfl
      | false => exact .inl rfl
    · exact h
  | die =>
    refine h.quieter ⟨rfl, rfl, rfl, fun _ => id, fun i c hc => ?_, fun i c hc => ?_⟩
    · refine ⟨if c.phase = .saved then c else { c with phase := .failed }, ?_, ?_⟩
      · simp [State.step, hc]
      · split_ifs <;> rfl
    · simp only [State.step, List.getElem?_map, Option.map_eq_some_iff] at hc
      obtain ⟨d, hd, rfl⟩ := hc
      split_ifs with hsaved
      · exact .inr hd
      · exact .inl ⟨rfl, Phase.noConfusion⟩

theorem inv_start (old stale : Option (List UInt8)) : Inv (State.start old stale) := by
  have hsaves : ∀ {i : ℕ} {c : Save}, (State.start old stale).saves[i]? = some c →
      c.phase = .saved ∧ c.snap.taken = 0 := by
    intro i c hc
    obtain ⟨bytes, -, rfl⟩ := List.mem_map.1 (List.mem_of_getElem? hc)
    exact ⟨rfl, rfl⟩
  have hfile : ∀ {i : ℕ} {c : Save}, (State.start old stale).saves[i]? = some c →
      c.file = none := by
    intro i c hc
    rw [Save.file, (hsaves hc).1]
  constructor
  · intro inode hinode
    obtain ⟨bytes, hold, rfl⟩ := Option.map_eq_some_iff.1 hinode
    refine ⟨0, ⟨⟨0, bytes⟩, .saved⟩, by simp [State.start, hold], by simp [State.start, hold],
      fun j d hd _ => ?_⟩
    exact (hsaves hd).2.symm ▸ Nat.zero_le _
  · intro inode hinode
    obtain ⟨_, -, rfl⟩ := Option.map_eq_some_iff.1 hinode
    exact Nat.two_pos
  · intro inode hinode
    obtain ⟨_, -, rfl⟩ := Option.map_eq_some_iff.1 hinode
    refine ⟨Nat.one_lt_two, fun htarget => ?_⟩
    obtain ⟨_, -, h01⟩ := Option.map_eq_some_iff.1 htarget
    exact absurd h01 Nat.zero_ne_one
  · exact fun i j c d hc _ hfc _ => absurd (hfile hc) hfc
  · intro i c hc file hf
    rw [hfile hc] at hf
    cases hf
  · intro i snap inode written hc
    have := hfile hc
    cases this

/-- **The snapshot file is whole**: in a run in which the calls write one after the other, in the
    order of their snapshots, `snapshot.json` is always absent or the complete bytes of one
    snapshot, and never older than one that was saved. -/
theorem snapshot_whole (old stale : Option (List UInt8)) {ops : List Op}
    (h : AllOrderly (State.start old stale) ops) : ((State.start old stale).run ops).Whole := by
  have hrun : ∀ (ops : List Op) (s : State), Inv s → AllOrderly s ops → Inv (s.run ops) := by
    intro ops
    induction ops with
    | nil => exact fun s hs _ => hs
    | cons op ops ih => exact fun s hs ho => ih _ (hs.step op ho.1) ho.2
  exact (hrun ops _ (inv_start old stale) h).whole

/-- The auto-save has written its file when the save at shutdown opens, and so truncates, the same
    file; then the auto-save renames it. -/
def overlap : List Op :=
  [.call ⟨1, [0x7B, 0x7D]⟩, .openTmp 0, .write 0 2, .sync 0, .call ⟨2, [0x5B, 0x5D]⟩, .openTmp 1,
    .rename 0]

theorem not_whole_overlap : ¬ ((State.start none none).run overlap).Whole := by
  intro h
  obtain ⟨i, c, hc, hbytes, -⟩ := h 2 rfl
  have hempty : ((State.start none none).run overlap).files.content 2 = [] := rfl
  rw [hempty] at hbytes
  have hsaves : ∀ c ∈ ((State.start none none).run overlap).saves, c.snap.bytes ≠ [] := by
    decide
  exact hsaves c (List.mem_of_getElem? hc) hbytes.symm

/-- Two saves, one after the other. -/
def inTurn : List Op :=
  [.call ⟨1, [0x7B, 0x7D]⟩, .openTmp 0, .write 0 2, .sync 0, .rename 0, .call ⟨2, [0x5B, 0x5D]⟩,
    .openTmp 1, .write 1 1]

theorem snapshot_whole_inTurn : ((State.start none none).run inTurn).Whole := by
  have horderly : ∀ {s : State} {i : ℕ} {c : Save}, s.saves[i]? = some c →
      (∀ d ∈ s.saves, d.file = none ∧ (d.phase = .saved → d.snap.taken ≤ c.snap.taken)) →
        s.Orderly (.openTmp i) := by
    intro s i c hc h
    refine ⟨fun j d hd => (h d (List.mem_of_getElem? hd)).1, fun c' hc' j d hd => ?_⟩
    obtain rfl := Option.some.inj (hc.symm.trans hc')
    exact (h d (List.mem_of_getElem? hd)).2
  refine snapshot_whole none none ⟨trivial, ?_, trivial, trivial, trivial, trivial, ?_, trivial,
    trivial⟩
  · exact horderly (c := ⟨⟨1, [0x7B, 0x7D]⟩, .called⟩) rfl (by decide)
  · exact horderly (c := ⟨⟨2, [0x5B, 0x5D]⟩, .called⟩) rfl (by decide)

end Nexterm.Server.Persist

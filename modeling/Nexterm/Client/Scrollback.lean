/-
  The scrollback of the client (`scrollback.rs`): a ring of lines.

  * `Scrollback`: the ring, with a write index and a list of slots that grows up to the capacity.
    An operation that panics answers `none`.
  * `Retained`: what the scrollback is for, the last lines that have been pushed.
  * `Scrollback.Holds`: the ring, read from the oldest slot on, has exactly these lines.
  * `ring_run_iff`: it does so after every run in which the first line is not pushed onto a ring
    of capacity 0.
-/
import Mathlib.Data.List.DropRight
import Mathlib.Data.List.Rotate
import Mathlib.Tactic.Common

namespace Nexterm.Client

/-- A remainder; division by zero panics. -/
def checkedRem (a b : ℕ) : Option ℕ := if b = 0 then none else some (a % b)

theorem checkedRem_of_pos {a b : ℕ} (h : 0 < b) : checkedRem a b = some (a % b) :=
  if_neg h.ne'

/-- Scrollback history buffer (ring buffer). -/
structure Scrollback (α : Type) where
  /-- Maximum number of retained rows. -/
  capacity : ℕ
  /-- Ring of row data. -/
  lines : List α
  /-- The slot the next push will overwrite. -/
  head : ℕ
  /-- Number of rows currently stored. -/
  len : ℕ
  deriving DecidableEq

/-- What can happen to a scrollback. -/
inductive ScrollbackOp (α : Type)
  | pushLine (line : α)
  | setCapacity (newCapacity : ℕ)

namespace Scrollback

variable {α : Type}

/-- Build a scrollback with the given capacity. -/
def new (capacity : ℕ) : Scrollback α := ⟨capacity, [], 0, 0⟩

/-- The slots after a write at the write index. -/
def write (s : Scrollback α) (line : α) : List α :=
  if s.lines.length ≤ s.head then s.lines ++ [line] else s.lines.set s.head line

/-- Append a row (overwriting the oldest one once capacity is exceeded). -/
def pushLine (s : Scrollback α) (line : α) : Option (Scrollback α) := do
  let len := if s.len < s.capacity then s.len + 1 else s.len
  let head ← checkedRem (s.head + 1) s.capacity
  some { s with lines := s.write line, len := len, head := head }

/-- Retrieve a row by index (0 = oldest). -/
def get (s : Scrollback α) (idx : ℕ) : Option (Option α) :=
  if idx ≥ s.len then some none
  else do
    let actual ← if s.len < s.capacity then some idx else checkedRem (s.head + idx) s.capacity
    some s.lines[actual]?

/-- Change the retained capacity, which is at least 1, and keep the most recent rows. -/
def setCapacity (s : Scrollback α) (newCapacity : ℕ) : Option (Scrollback α) :=
  let newCapacity := max newCapacity 1
  if newCapacity = s.capacity then some s
  else do
    let keepFrom := s.len - newCapacity
    let rows ← (List.range' keepFrom (s.len - keepFrom)).mapM s.get
    let kept := rows.reduceOption
    let head ← checkedRem kept.length newCapacity
    some ⟨newCapacity, kept, head, kept.length⟩

/-- The scrollback after an operation. -/
def step (s : Scrollback α) : ScrollbackOp α → Option (Scrollback α)
  | .pushLine line => s.pushLine line
  | .setCapacity newCapacity => s.setCapacity newCapacity

/-- The scrollback after a run. -/
def run (s : Scrollback α) (ops : List (ScrollbackOp α)) : Option (Scrollback α) :=
  ops.foldlM step s

end Scrollback

/-! ## What the scrollback is for -/

/-- The lines that have been pushed, how many of them are retained, and the capacity. -/
structure Retained (α : Type) where
  pushed : List α
  retained : ℕ
  capacity : ℕ

namespace Retained

variable {α : Type}

/-- The retained lines, oldest first. -/
def lines (r : Retained α) : List α := r.pushed.rtake r.retained

/-- A line is retained, if need be in place of the oldest one.  A smaller capacity discards the
    oldest lines, a larger one none. -/
def step (r : Retained α) : ScrollbackOp α → Retained α
  | .pushLine line =>
    { r with pushed := r.pushed ++ [line], retained := min (r.retained + 1) r.capacity }
  | .setCapacity newCapacity =>
    { r with
      retained := min r.retained (max newCapacity 1)
      capacity := max newCapacity 1 }

/-- What is retained after a run from an empty scrollback. -/
def run (capacity : ℕ) (ops : List (ScrollbackOp α)) : Retained α :=
  ops.foldl step ⟨[], 0, capacity⟩

end Retained

namespace Scrollback

variable {α : Type} {s : Scrollback α} {lines : List α} {r : Retained α}

/-- `len` and `get` show these lines. -/
def Shows (s : Scrollback α) (lines : List α) : Prop :=
  s.len = lines.length ∧ ∀ idx, s.get idx = some lines[idx]?

/-! ## The ring -/

/-- The ring holds these lines: until it is full it is filled from slot 0 on; then the oldest line
    is at the write index. -/
structure Holds (s : Scrollback α) (lines : List α) : Prop where
  pos : 0 < s.capacity
  len : s.len = lines.length
  fits : lines.length ≤ s.capacity
  head : s.head = lines.length % s.capacity ∨ lines.length = s.capacity
  head_lt : s.head < s.capacity
  slots : s.lines.length = lines.length
  order : s.lines.rotate (if lines.length < s.capacity then 0 else s.head) = lines

theorem holds_new {capacity : ℕ} (h : 0 < capacity) : (new capacity : Scrollback α).Holds [] :=
  ⟨h, rfl, Nat.zero_le _, .inl (Nat.zero_mod _).symm, h, rfl, List.rotate_nil _⟩

theorem Holds.shows (h : s.Holds lines) : s.Shows lines := by
  refine ⟨h.len, fun idx => ?_⟩
  have horder := h.order
  have hslots := h.slots
  unfold get
  by_cases hidx : idx ≥ s.len
  · rw [if_pos hidx, List.getElem?_eq_none (h.len ▸ hidx)]
  · rw [if_neg hidx]
    rw [not_le, h.len] at hidx
    by_cases hfull : s.len < s.capacity
    · rw [if_pos (h.len ▸ hfull), List.rotate_zero] at horder
      rw [if_pos hfull, horder]
      rfl
    · have hlen : lines.length = s.capacity :=
        le_antisymm h.fits (not_lt.1 (h.len ▸ hfull))
      rw [if_neg (hlen ▸ lt_irrefl _)] at horder
      rw [if_neg hfull, checkedRem_of_pos h.pos]
      show some s.lines[(s.head + idx) % s.capacity]? = _
      rw [← horder, List.getElem?_rotate (hslots ▸ hidx), hslots, hlen, Nat.add_comm]

/-! ## Operations -/

/-- The ring after a push that does not panic. -/
def pushed (s : Scrollback α) (line : α) : Scrollback α :=
  { s with
    lines := s.write line
    len := if s.len < s.capacity then s.len + 1 else s.len
    head := (s.head + 1) % s.capacity }

theorem pushLine_of_pos (h : 0 < s.capacity) (line : α) :
    s.pushLine line = some (s.pushed line) := by
  rw [pushLine, checkedRem_of_pos h]
  rfl

theorem Holds.pushed (h : s.Holds lines) (line : α) :
    (s.pushed line).Holds ((lines ++ [line]).drop (lines.length + 1 - s.capacity)) := by
  obtain ⟨hpos, hlen, hfits, hhead, hlt, hslots, horder⟩ := h
  by_cases hfull : lines.length < s.capacity
  · -- the next slot
    have hhead : s.head = lines.length := by
      rcases hhead with hhead | hhead
      · rw [hhead, Nat.mod_eq_of_lt hfull]
      · omega
    rw [if_pos hfull, List.rotate_zero] at horder
    have hwrite : s.write line = lines ++ [line] := by
      rw [write, if_pos (hslots.trans hhead.symm).le, horder]
    rw [show lines.length + 1 - s.capacity = 0 by omega, List.drop_zero]
    refine ⟨hpos, ?_, ?_, .inl ?_, Nat.mod_lt _ hpos, ?_, ?_⟩
    · show (if s.len < s.capacity then s.len + 1 else s.len) = _
      rw [if_pos (hlen ▸ hfull), hlen, List.length_append, List.length_singleton]
    · rw [List.length_append, List.length_singleton]
      exact hfull
    · show (s.head + 1) % s.capacity = (lines ++ [line]).length % s.capacity
      rw [hhead, List.length_append, List.length_singleton]
    · exact congrArg List.length hwrite
    · show (s.write line).rotate _ = _
      rw [hwrite]
      split_ifs with hnext
      · exact List.rotate_zero _
      · -- the ring has just become full
        show (lines ++ [line]).rotate ((s.head + 1) % s.capacity) = _
        have hcap : s.head + 1 = s.capacity := by
          change ¬(lines ++ [line]).length < s.capacity at hnext
          rw [List.length_append, List.length_singleton] at hnext
          omega
        rw [hcap, Nat.mod_self, List.rotate_zero]
  · -- the slot of the oldest line
    have hcap : lines.length = s.capacity := by omega
    rw [if_neg hfull] at horder
    have hlt' : s.head < s.lines.length := by omega
    obtain ⟨xs, y, ys, hsplit, hxs⟩ :
        ∃ xs y ys, s.lines = xs ++ y :: ys ∧ xs.length = s.head := by
      refine ⟨s.lines.take s.head, s.lines[s.head], s.lines.drop (s.head + 1), ?_, ?_⟩
      · rw [← List.drop_eq_getElem_cons hlt', List.take_append_drop]
      · exact List.length_take_of_le hlt'.le
    have hlines : lines = y :: ys ++ xs := by
      rw [← horder, hsplit, ← hxs, List.rotate_append_length_eq]
    have hwrite : s.write line = xs ++ line :: ys := by
      rw [write, if_neg (by omega), hsplit, ← hxs, List.set_append_right _ _ le_rfl, Nat.sub_self,
        List.set_cons_zero]
    have hdrop : (lines ++ [line]).drop (lines.length + 1 - s.capacity) = ys ++ xs ++ [line] := by
      rw [hcap, Nat.add_sub_cancel_left, hlines]
      rfl
    have hnext : (ys ++ xs ++ [line]).length = lines.length := by
      rw [hlines]
      simp only [List.length_append, List.length_cons, List.length_nil]
      omega
    rw [hdrop]
    refine ⟨hpos, ?_, ?_, .inr ?_, Nat.mod_lt _ hpos, ?_, ?_⟩
    · show (if s.len < s.capacity then s.len + 1 else s.len) = _
      rw [if_neg (hlen ▸ hfull), hlen, hnext]
    · exact hnext.trans_le hfits
    · exact hnext.trans hcap
    · show (s.write line).length = _
      rw [hwrite, hnext, hlines]
      simp only [List.length_append, List.length_cons]
      omega
    · show (s.write line).rotate (if _ < s.capacity then 0 else (s.head + 1) % s.capacity) = _
      have hsize : (xs ++ line :: ys).length = s.capacity := by
        rw [← hcap, hlines]
        simp only [List.length_append, List.length_cons]
        omega
      rw [hnext, if_neg hfull, hwrite, ← hsize, List.rotate_mod, ← hxs,
        show xs ++ line :: ys = (xs ++ [line]) ++ ys by simp,
        show xs.length + 1 = (xs ++ [line]).length by simp, List.rotate_append_length_eq,
        List.append_assoc]

/-- What `set_capacity` keeps. -/
theorem Holds.kept (h : s.Holds lines) (keepFrom : ℕ) :
    (List.range' keepFrom (s.len - keepFrom)).mapM s.get =
      some ((lines.drop keepFrom).map some) := by
  have hget : ∀ idx, s.get idx = some lines[idx]? := h.shows.2
  rw [h.len]
  clear h
  induction hn : lines.length - keepFrom generalizing keepFrom with
  | zero =>
    rw [List.drop_eq_nil_of_le (by omega)]
    rfl
  | succ n ih =>
    have hlt : keepFrom < lines.length := by omega
    rw [List.range'_succ, List.mapM_cons, hget, ih (keepFrom + 1) (by omega),
      List.drop_eq_getElem_cons hlt, List.getElem?_eq_getElem hlt]
    rfl

theorem Holds.setCapacity (h : s.Holds lines) (newCapacity : ℕ) :
    ∃ s', s.setCapacity newCapacity = some s' ∧ s'.capacity = max newCapacity 1 ∧
      s'.Holds (lines.drop (lines.length - max newCapacity 1)) := by
  unfold Scrollback.setCapacity
  dsimp only
  generalize hcap : max newCapacity 1 = cap
  have hpos : 0 < cap := by omega
  split_ifs with hsame
  · refine ⟨s, rfl, hsame.symm, ?_⟩
    have hfits := h.fits
    rwa [show lines.length - cap = 0 by omega, List.drop_zero]
  · rw [h.kept, h.len]
    have hkept : ((lines.drop (lines.length - cap)).map some).reduceOption =
        lines.drop (lines.length - cap) := by
      show List.filterMap _ (List.map _ _) = _
      rw [List.filterMap_map]
      exact List.filterMap_some
    generalize hk : lines.drop (lines.length - cap) = kept at hkept ⊢
    have hlength : kept.length ≤ cap := by
      rw [← hk, List.length_drop]
      omega
    refine ⟨⟨cap, kept, kept.length % cap, kept.length⟩, ?_, rfl, ?_⟩
    · show (do
        let head ← checkedRem ((kept.map some).reduceOption).length cap
        some (⟨cap, (kept.map some).reduceOption, head, _⟩ : Scrollback α)) = _
      rw [hkept, checkedRem_of_pos hpos]
      rfl
    · refine ⟨hpos, rfl, hlength, .inl rfl, Nat.mod_lt _ hpos, rfl, ?_⟩
      split_ifs with hroom
      · exact List.rotate_zero _
      · show kept.rotate (kept.length % cap) = kept
        change ¬kept.length < cap at hroom
        rw [show kept.length = cap by omega, Nat.mod_self, List.rotate_zero]

/-! ## Runs -/

/-- The ring holds what is to be retained. -/
structure Tracks (s : Scrollback α) (r : Retained α) : Prop where
  capacity : s.capacity = r.capacity
  holds : s.Holds r.lines
  retained : r.retained ≤ r.pushed.length

theorem Tracks.length (h : s.Tracks r) : r.lines.length = r.retained := by
  have := h.retained
  rw [Retained.lines, List.rtake, List.length_drop]
  omega

theorem Tracks.step (h : s.Tracks r) (op : ScrollbackOp α) :
    ∃ s', s.step op = some s' ∧ s'.Tracks (r.step op) := by
  have hlength := h.length
  obtain ⟨hcap, hholds, hretained⟩ := h
  cases op with
  | pushLine line =>
    refine ⟨s.pushed line, pushLine_of_pos hholds.pos line, hcap, ?_, ?_⟩
    · have hpushed := hholds.pushed line
      rw [hlength, hcap, Retained.lines, List.rtake, ← List.drop_append_of_le_length (by omega),
        List.drop_drop] at hpushed
      rwa [Retained.lines, Retained.step, List.rtake, List.length_append, List.length_singleton,
        show r.pushed.length + 1 - min (r.retained + 1) r.capacity =
          r.pushed.length - r.retained + (r.retained + 1 - r.capacity) by omega]
    · show min (r.retained + 1) r.capacity ≤ (r.pushed ++ [line]).length
      rw [List.length_append, List.length_singleton]
      omega
  | setCapacity newCapacity =>
    obtain ⟨s', hs', hcap', hkept⟩ := hholds.setCapacity newCapacity
    refine ⟨s', hs', hcap', ?_, ?_⟩
    · rw [hlength, Retained.lines, List.rtake, List.drop_drop] at hkept
      rwa [Retained.lines, Retained.step, List.rtake,
        show r.pushed.length - min r.retained (max newCapacity 1) =
          r.pushed.length - r.retained + (r.retained - max newCapacity 1) by omega]
    · show min r.retained (max newCapacity 1) ≤ r.pushed.length
      omega

theorem Tracks.run : ∀ {s : Scrollback α} {r : Retained α} (_ : s.Tracks r)
    (ops : List (ScrollbackOp α)), ∃ s', s.run ops = some s' ∧ s'.Tracks (ops.foldl Retained.step r)
  | s, _, h, [] => ⟨s, rfl, h⟩
  | s, r, h, op :: ops => by
    obtain ⟨s', hs', h'⟩ := h.step op
    obtain ⟨s'', hs'', h''⟩ := h'.run ops
    refine ⟨s'', ?_, h''⟩
    rw [Scrollback.run, List.foldlM_cons, hs']
    exact hs''

/-- The first line is pushed onto a ring of capacity 0. -/
def PushedOntoNothing (capacity : ℕ) (ops : List (ScrollbackOp α)) : Prop :=
  capacity = 0 ∧ ∃ line rest, ops = .pushLine line :: rest

theorem tracks_new {capacity : ℕ} (h : 0 < capacity) :
    (new capacity).Tracks (⟨[], 0, capacity⟩ : Retained α) := ⟨rfl, holds_new h, le_rfl⟩

theorem setCapacity_new (capacity newCapacity : ℕ) :
    (new capacity : Scrollback α).setCapacity newCapacity = some (new (max newCapacity 1)) := by
  unfold setCapacity
  dsimp only
  split_ifs with hsame
  · rw [hsame]
    rfl
  · rw [show (new capacity : Scrollback α).len = 0 from rfl, Nat.zero_sub, Nat.sub_zero]
    show (do
      let head ← checkedRem 0 (max newCapacity 1)
      some (⟨max newCapacity 1, [], head, 0⟩ : Scrollback α)) = _
    rw [checkedRem_of_pos (by omega), Nat.zero_mod]
    rfl

/-- **The ring is a deque of bounded length**: a run does not panic and shows the retained lines
    unless it starts with a push onto a ring of capacity 0. -/
theorem ring_run_iff (capacity : ℕ) (ops : List (ScrollbackOp α)) :
    (∃ s, (new capacity).run ops = some s ∧ s.Shows (Retained.run capacity ops).lines) ↔
      ¬PushedOntoNothing capacity ops := by
  constructor
  · rintro ⟨s, hs, -⟩ ⟨rfl, line, rest, rfl⟩
    cases hs
  · intro hops
    have hshows : ∀ {s : Scrollback α} {r : Retained α}, s.Tracks r → ∀ ops,
        ∃ s', s.run ops = some s' ∧ s'.Shows (ops.foldl Retained.step r).lines := by
      intro s r h ops
      obtain ⟨s', hs', h'⟩ := h.run ops
      exact ⟨s', hs', h'.holds.shows⟩
    cases ops with
    | nil => exact ⟨new capacity, rfl, rfl, fun _ => rfl⟩
    | cons op ops =>
      by_cases hpos : 0 < capacity
      · exact hshows (tracks_new hpos) (op :: ops)
      cases op with
      | pushLine line => exact absurd ⟨by omega, line, ops, rfl⟩ hops
      | setCapacity newCapacity =>
        -- from now on there is room for a line
        have hnext : (new (max newCapacity 1)).Tracks
            ((⟨[], 0, capacity⟩ : Retained α).step (.setCapacity newCapacity)) := by
          rw [Retained.step, Nat.zero_min]
          exact tracks_new (by omega)
        obtain ⟨s', hs', h'⟩ := hshows hnext ops
        refine ⟨s', ?_, h'⟩
        rw [run, List.foldlM_cons, step, setCapacity_new]
        exact hs'

/-- The first line panics: the write index is taken modulo the capacity. -/
theorem ring_without_capacity :
    ¬∃ s, (new 0).run [.pushLine 'a'] = some s ∧
      s.Shows (Retained.run 0 [.pushLine 'a']).lines := by
  rintro ⟨s, hs, -⟩
  cases hs

end Scrollback

end Nexterm.Client

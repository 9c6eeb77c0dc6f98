/-
  What a screen reader reaches of the history of a pane.

  * `historyNodes`: the nodes of a range of lines.
  * `ClientState.ReachesHistory`: the exposed rows are the lines around the scroll position.
  * `reaches_history_iff`: they are unless this range passes the end of the ids that a pane has for
    its scrollback.
-/
import Nexterm.A11y.Stale

namespace Nexterm.A11y

open Nexterm.Client (Scrollback ScrollbackOp Retained)

/-- The nodes of `count` lines of the history from `start` on. -/
def historyNodes (paneId : PaneId) (lines : List (List Vt.Cell)) (start count : ℕ) :
    List (ℕ × Node) :=
  ((lines.drop start).take count).mapIdx fun i line =>
    (paneScrollbackRowNodeId paneId (start + i), scrollbackRowNode line)

/-- The line before the viewport, if the history has `len` lines. -/
def lineBeforeViewport (len scrollOffset : ℕ) : ℕ := len - 1 - min scrollOffset (len - 1)

/-- A line next to the line before the viewport. -/
def NearViewport (len scrollOffset idx : ℕ) : Prop :=
  idx < len ∧ lineBeforeViewport len scrollOffset ≤ idx + scrollbackWindowRadius ∧
    idx ≤ lineBeforeViewport len scrollOffset + scrollbackWindowRadius

theorem nearViewport_lineBefore {len : ℕ} (h : 0 < len) (scrollOffset : ℕ) :
    NearViewport len scrollOffset (lineBeforeViewport len scrollOffset) := by
  refine ⟨?_, Nat.le_add_right _ _, Nat.le_add_right _ _⟩
  rw [lineBeforeViewport]
  omega

/-! ## The window -/

/-- The entries of a range, with their places. -/
theorem filterMap_range' {α : Type} (xs : List α) (start count : ℕ) :
    ((List.range' start count).filterMap fun idx => xs[idx]?.map fun x => (idx, x)) =
      ((xs.drop start).take count).mapIdx fun i x => (start + i, x) := by
  induction count generalizing start with
  | zero => simp
  | succ count ih =>
    rw [List.range'_succ]
    by_cases hlt : start < xs.length
    · rw [List.filterMap_cons_some (b := (start, xs[start])) (by simp [hlt]), ih,
        List.drop_eq_getElem_cons hlt, List.take_succ_cons, List.mapIdx_cons]
      simp only [Nat.add_zero, Nat.add_assoc, Nat.add_comm 1]
    · have hout : xs.length ≤ start := Nat.not_lt.1 hlt
      rw [List.filterMap_cons_none (by simp [hout]), ih, List.drop_eq_nil_of_le hout,
        List.drop_eq_nil_of_le (by omega)]
      simp

variable {pane : TreePane} {lines : List (List Vt.Cell)} {paneId : PaneId}

theorem scrollbackLines_of_shows (h : pane.scrollback.Shows lines) :
    scrollbackLines pane =
      ((lines.drop (scrollbackWindow pane).1).take
        ((scrollbackWindow pane).2 - (scrollbackWindow pane).1)).mapIdx fun i line =>
          ((scrollbackWindow pane).1 + i, line) := by
  rw [← filterMap_range']
  show (List.range' _ _).filterMap _ = _
  simp only [h.2, Option.join_some]
  rfl

/-- A line is exposed if it is in the window. -/
theorem mem_scrollbackLines_iff (h : pane.scrollback.Shows lines) {idx : ℕ} :
    idx ∈ (scrollbackLines pane).map Prod.fst ↔
      (scrollbackWindow pane).1 ≤ idx ∧ idx < (scrollbackWindow pane).2 := by
  have hstop : (scrollbackWindow pane).2 ≤ lines.length := by
    rw [← h.1]
    exact (Nat.min_le_left _ _).trans (Nat.min_le_right _ _)
  rw [scrollbackLines_of_shows h]
  simp only [List.mem_map, List.mem_mapIdx, List.length_take, List.length_drop]
  constructor
  · rintro ⟨_, ⟨i, hi, rfl⟩, rfl⟩
    dsimp only
    omega
  · rintro ⟨hge, hlt⟩
    exact ⟨_, ⟨idx - (scrollbackWindow pane).1, by omega, rfl⟩, by dsimp only; omega⟩

/-- The window has the lines near the viewport for which there are ids. -/
theorem window_near (h : pane.scrollback.Shows lines) {idx : ℕ}
    (hnear : NearViewport lines.length pane.scrollOffset idx) :
    ((scrollbackWindow pane).1 ≤ idx ∧ idx < (scrollbackWindow pane).2) ↔
      idx < maxScrollbackRowsPerPane := by
  obtain ⟨hlt, hge, hle⟩ := hnear
  simp only [lineBeforeViewport] at hge hle
  simp only [scrollbackWindow, h.1]
  omega

/-- The lines near the viewport all have ids if the history is short or scrolled far enough. -/
theorem near_have_ids_iff {len : ℕ} (hlen : 0 < len) (scrollOffset : ℕ) :
    (∀ idx, NearViewport len scrollOffset idx → idx < maxScrollbackRowsPerPane) ↔
      len ≤ maxScrollbackRowsPerPane ∨
        len + scrollbackWindowRadius ≤ scrollOffset + maxScrollbackRowsPerPane := by
  simp only [NearViewport, lineBeforeViewport, scrollbackWindowRadius,
    show maxScrollbackRowsPerPane = 9000 from rfl]
  constructor
  · intro h
    -- the last line that is near
    have hlast := h (min (len - 1) (len - 1 - min scrollOffset (len - 1) + 100))
    omega
  · intro h idx hidx
    omega

/-! ## Rows -/

namespace ClientState

variable {s : ClientState}

theorem paneRowTargets_encodable {k : NodeIdKind} (hk : k ∈ paneRowTargets paneId pane) :
    Encodable k ∧ k.paneOf = some paneId := by
  rcases List.mem_append.1 hk with hk | hk
  · obtain ⟨entry, hentry, rfl⟩ := List.mem_map.1 hk
    exact ⟨scrollbackLines_lt hentry, rfl⟩
  · obtain ⟨row, hrow, rfl⟩ := List.mem_map.1 hk
    exact ⟨(List.mem_range.1 hrow).trans_le (Nat.min_le_right _ _), rfl⟩

/-- The rows of a pane have distinct ids. -/
theorem nodup_paneRowNodes (s : ClientState) (paneId : PaneId) (pane : TreePane) :
    ((s.paneRowNodes paneId pane).map Prod.fst).Nodup := by
  rw [paneRowNodes_ids]
  refine List.Nodup.of_map decodeNodeId ?_
  rw [map_decode_nodeId fun k hk => (paneRowTargets_encodable hk).1]
  exact paneRowTargets_nodup paneId pane

/-- The rows of two panes have distinct ids. -/
theorem disjoint_paneRowNodes (s : ClientState) {paneId paneId' : PaneId} (hne : paneId' ≠ paneId)
    (pane pane' : TreePane) :
    ((s.paneRowNodes paneId pane).map Prod.fst).Disjoint
      ((s.paneRowNodes paneId' pane').map Prod.fst) := by
  rw [paneRowNodes_ids, paneRowNodes_ids]
  intro id hid hid'
  obtain ⟨k, hk, rfl⟩ := List.mem_map.1 hid
  obtain ⟨k', hk', heq⟩ := List.mem_map.1 hid'
  obtain ⟨henc, hpane⟩ := paneRowTargets_encodable hk
  obtain ⟨henc', hpane'⟩ := paneRowTargets_encodable hk'
  have hsame : k' = k := by rw [← decode_nodeId henc', heq, decode_nodeId henc]
  rw [hsame, hpane] at hpane'
  exact hne (Option.some.inj hpane').symm

/-- The nodes of a pane are a range of its history with the lines near the viewport, each with its
    own text, then the rows of the grid and the pane; no other row has the id of one of them. -/
structure ReachesHistory (s : ClientState) (paneId : PaneId) (pane : TreePane)
    (lines : List (List Vt.Cell)) : Prop where
  range : ∃ start count,
    (∀ idx, NearViewport lines.length pane.scrollOffset idx →
      start ≤ idx ∧ idx < start + count) ∧
    s.paneNodes paneId =
      historyNodes paneId lines start count ++ s.viewportNodes paneId pane ++
        [(paneNodeId paneId, s.paneNode paneId pane)]
  distinct : ((s.paneRowNodes paneId pane).map Prod.fst).Nodup
  apart : ∀ paneId' pane', s.panes.get paneId' = some pane' → paneId' ≠ paneId →
    ((s.paneRowNodes paneId pane).map Prod.fst).Disjoint
      ((s.paneRowNodes paneId' pane').map Prod.fst)

/-- The nodes of a pane start with those of its window. -/
theorem paneNodes_of_shows (hpane : s.panes.get paneId = some pane)
    (h : pane.scrollback.Shows lines) :
    s.paneNodes paneId =
      historyNodes paneId lines (scrollbackWindow pane).1
          ((scrollbackWindow pane).2 - (scrollbackWindow pane).1) ++
        s.viewportNodes paneId pane ++ [(paneNodeId paneId, s.paneNode paneId pane)] := by
  have hrows : s.paneRowNodes paneId pane =
      ((scrollbackLines pane).map fun entry =>
        (paneScrollbackRowNodeId paneId entry.1, scrollbackRowNode entry.2)) ++
        s.viewportNodes paneId pane := rfl
  rw [paneNodes, hpane]
  show s.paneRowNodes paneId pane ++ _ = _
  rw [hrows, scrollbackLines_of_shows h, map_mapIdx]
  rfl

theorem mem_historyNodes {start count idx : ℕ} (hlt : idx < lines.length) (hge : start ≤ idx)
    (hle : idx < start + count) :
    paneScrollbackRowNodeId paneId idx ∈ (historyNodes paneId lines start count).map Prod.fst := by
  simp only [historyNodes, List.mem_map, List.mem_mapIdx, List.length_take, List.length_drop]
  refine ⟨_, ⟨idx - start, by omega, rfl⟩, ?_⟩
  dsimp only
  rw [Nat.add_sub_cancel' hge]

theorem range_iff (hpane : s.panes.get paneId = some pane) (h : pane.scrollback.Shows lines) :
    (∃ start count,
      (∀ idx, NearViewport lines.length pane.scrollOffset idx →
        start ≤ idx ∧ idx < start + count) ∧
      s.paneNodes paneId =
        historyNodes paneId lines start count ++ s.viewportNodes paneId pane ++
          [(paneNodeId paneId, s.paneNode paneId pane)]) ↔
    ∀ idx, NearViewport lines.length pane.scrollOffset idx → idx < maxScrollbackRowsPerPane := by
  rw [paneNodes_of_shows hpane h]
  constructor
  · rintro ⟨start, count, hnear, hnodes⟩ idx hidx
    rw [List.append_cancel_right_eq, List.append_cancel_right_eq] at hnodes
    have hmem : paneScrollbackRowNodeId paneId idx ∈
        (historyNodes paneId lines start count).map Prod.fst :=
      mem_historyNodes hidx.1 (hnear idx hidx).1 (hnear idx hidx).2
    rw [← hnodes] at hmem
    simp only [historyNodes, List.mem_map, List.mem_mapIdx, List.length_take,
      List.length_drop] at hmem
    obtain ⟨_, ⟨i, hi, rfl⟩, hid⟩ := hmem
    have hidx' : (scrollbackWindow pane).1 + i = idx := Nat.add_left_cancel hid
    refine (window_near h hidx).1 ⟨?_, ?_⟩ <;> omega
  · intro hids
    refine ⟨_, _, fun idx hidx => ?_, rfl⟩
    have hwindow := (window_near h hidx).2 (hids idx hidx)
    omega

theorem reachesHistory_of_shows_iff (hpane : s.panes.get paneId = some pane)
    (h : pane.scrollback.Shows lines) (hlines : lines ≠ []) :
    s.ReachesHistory paneId pane lines ↔
      pane.scrollback.len ≤ maxScrollbackRowsPerPane ∨
        pane.scrollback.len + scrollbackWindowRadius ≤
          pane.scrollOffset + maxScrollbackRowsPerPane := by
  rw [h.1, ← near_have_ids_iff (List.length_pos_iff.2 hlines), ← range_iff hpane h]
  constructor
  · exact fun hreaches => hreaches.range
  · intro hrange
    exact ⟨hrange, nodup_paneRowNodes s paneId pane,
      fun _ pane' _ hne => disjoint_paneRowNodes s hne pane pane'⟩

/-- **Screen readers reach the history next to the viewport** of a pane, whatever has been pushed
    onto its scrollback, if and only if there are ids for all its lines or the view is scrolled up
    to lines that have some. -/
theorem reaches_history_iff (s : ClientState) (paneId : PaneId) (pane : TreePane) (capacity : ℕ)
    (ops : List (ScrollbackOp (List Vt.Cell))) (hpane : s.panes.get paneId = some pane)
    (hrun : (Scrollback.new capacity).run ops = some pane.scrollback)
    (hlines : (Retained.run capacity ops).lines ≠ []) :
    s.ReachesHistory paneId pane (Retained.run capacity ops).lines ↔
      pane.scrollback.len ≤ maxScrollbackRowsPerPane ∨
        pane.scrollback.len + scrollbackWindowRadius ≤
          pane.scrollOffset + maxScrollbackRowsPerPane := by
  have hpushed : ¬Scrollback.PushedOntoNothing capacity ops := by
    rintro ⟨rfl, line, rest, rfl⟩
    cases hrun
  obtain ⟨ring, hring, hshows⟩ := (Scrollback.ring_run_iff capacity ops).2 hpushed
  obtain rfl : pane.scrollback = ring := Option.some.inj (hrun.symm.trans hring)
  exact reachesHistory_of_shows_iff hpane hshows hlines

/-- A pane with this scrollback. -/
def paneWith (scrollback : Scrollback (List Vt.Cell)) : TreePane :=
  { Client.PaneState.new 80 24 1000 with scrollback := scrollback, title := "", cwd := none }

/-- A client with one pane. -/
def withPane (pane : TreePane) : ClientState :=
  { new plainSurfaces 1000 with panes := ⟨[(1, pane)], List.nodup_singleton _⟩ }

/-- A history of one line. -/
theorem reaches_history_iff_short :
    (withPane (paneWith ⟨5, [[]], 1, 1⟩)).ReachesHistory 1 (paneWith ⟨5, [[]], 1, 1⟩)
      (Retained.run 5 [.pushLine []]).lines :=
  (reaches_history_iff _ 1 _ 5 [.pushLine []] rfl rfl (List.cons_ne_nil _ _)).2
    (.inl (by decide))

theorem retained_pushes {α : Type} {capacity : ℕ} (lines : List α) (h : lines.length ≤ capacity) :
    Retained.run capacity (lines.map .pushLine) = ⟨lines, lines.length, capacity⟩ := by
  induction lines using List.reverseRecOn with
  | nil => rfl
  | append_singleton lines line ih =>
    rw [List.length_append, List.length_singleton] at h
    have hrun := ih (by omega)
    rw [Retained.run] at hrun ⊢
    rw [List.map_append, List.foldl_append, hrun, List.length_append, List.length_singleton]
    show Retained.mk _ (min (lines.length + 1) capacity) _ = _
    rw [Nat.min_eq_left h]

/-- With the default capacity, 9200 lines leave the viewport without any history. -/
theorem not_reaches_history_long :
    ∃ ring, (Scrollback.new 50000).run ((List.replicate 9200 []).map .pushLine) = some ring ∧
      (scrollbackLines (paneWith ring)) = [] ∧
      ¬(withPane (paneWith ring)).ReachesHistory 1 (paneWith ring)
        (Retained.run 50000 ((List.replicate 9200 []).map .pushLine)).lines := by
  have hpushed : ¬Scrollback.PushedOntoNothing 50000
      ((List.replicate 9200 ([] : List Vt.Cell)).map ScrollbackOp.pushLine) :=
    fun h => absurd h.1 (by omega)
  obtain ⟨ring, hring, hshows⟩ := (Scrollback.ring_run_iff 50000 _).2 hpushed
  have hlines : (Retained.run 50000 ((List.replicate 9200 ([] : List Vt.Cell)).map
      ScrollbackOp.pushLine)).lines = List.replicate 9200 [] := by
    rw [retained_pushes _ (by rw [List.length_replicate]; omega), Retained.lines, List.rtake,
      Nat.sub_self, List.drop_zero]
  rw [hlines] at hshows ⊢
  have hpane : (paneWith ring).scrollback.Shows (List.replicate 9200 []) := hshows
  have hlen : (paneWith ring).scrollback.len = 9200 := hshows.1.trans List.length_replicate
  have hoffset : (paneWith ring).scrollOffset = 0 := rfl
  refine ⟨ring, hring, ?_, ?_⟩
  · rw [List.eq_nil_iff_forall_not_mem]
    intro entry hentry
    have hidx := (mem_scrollbackLines_iff hpane).1 (List.mem_map_of_mem hentry)
    simp only [scrollbackWindow, hoffset, hlen, scrollbackWindowRadius,
      show maxScrollbackRowsPerPane = 9000 from rfl] at hidx
    omega
  · rw [reachesHistory_of_shows_iff rfl hpane
      (List.ne_nil_of_length_pos (by rw [List.length_replicate]; omega)), hlen, hoffset]
    show ¬(9200 ≤ 9000 ∨ 9200 + 100 ≤ 0 + 9000)
    omega

end ClientState

end Nexterm.A11y

/-
  Prompt jumps (`state/server_message.rs`): the offsets that the user jumps to.

  * `VisitsPrompts`: jumping back stops at every prompt of the scrollback once, and jumping forward
    undoes it.
  * `JumpsStraight`: the condition under which it does; `jump_prev_prompt` takes the last anchor that
    is above the offset, and anchors are recorded from the smallest on.
  * `visitsPrompts_iff`: it is exact.

  Anchors are lengths of the scrollback; one that is recorded after a larger one is recorded after a
  change of the capacity.
-/
import Nexterm.Client.Scroll
import Mathlib.Order.Bounds.Basic

namespace Nexterm.Client

/-- The last element of a list that satisfies a condition. -/
theorem find?_reverse_eq_some_iff {α : Type} {p : α → Prop} [DecidablePred p] {l : List α} {a : α} :
    l.reverse.find? (fun b => decide (p b)) = some a ↔
      p a ∧ ∃ l₁ r, l = l₁ ++ a :: r ∧ ∀ b ∈ r, ¬p b := by
  rw [List.find?_eq_some_iff_append, decide_eq_true_eq]
  refine and_congr_right fun _ => ?_
  constructor
  · rintro ⟨r, l₁, hsplit, hskipped⟩
    refine ⟨l₁.reverse, r.reverse, ?_, fun b hb => ?_⟩
    · rw [← List.reverse_reverse l, hsplit, List.reverse_append, List.reverse_cons,
        List.append_assoc]
      rfl
    · simpa using hskipped b (List.mem_reverse.1 hb)
  · rintro ⟨l₁, r, hsplit, hskipped⟩
    refine ⟨r.reverse, l₁.reverse, ?_, fun b hb => ?_⟩
    · rw [hsplit, List.reverse_append, List.reverse_cons, List.append_assoc]
      rfl
    · simpa using hskipped b (List.mem_reverse.1 hb)

namespace PaneState

/-- The pane, scrolled. -/
def atOffset (pane : PaneState) (offset : ℕ) : PaneState := { pane with scrollOffset := offset }

@[simp] theorem atOffset_scrollOffset (pane : PaneState) (offset : ℕ) :
    (pane.atOffset offset).scrollOffset = offset := rfl

@[simp] theorem atOffset_promptAnchors (pane : PaneState) (offset : ℕ) :
    (pane.atOffset offset).promptAnchors = pane.promptAnchors := rfl

@[simp] theorem atOffset_scrollback (pane : PaneState) (offset : ℕ) :
    (pane.atOffset offset).scrollback = pane.scrollback := rfl

/-- The anchors above an offset that are within the scrollback, -/
def anchorsAbove (pane : PaneState) (offset : ℕ) : Set ℕ :=
  {a | a ∈ pane.promptAnchors ∧ offset < a ∧ a ≤ pane.scrollback.len - 1}

/-- and those below it. -/
def anchorsBelow (pane : PaneState) (offset : ℕ) : Set ℕ := {a | a ∈ pane.promptAnchors ∧ a < offset}

/-- The pane after `n` jumps back from the live screen. -/
def stop (pane : PaneState) (n : ℕ) : PaneState := jumpPrevPrompt^[n] (pane.atOffset 0)

/-- A jump goes to the nearest anchor; the jumps back from the live screen go to every anchor once,
    and a jump forward undoes each of them. -/
structure VisitsPrompts (pane : PaneState) : Prop where
  prev : ∀ offset a, IsLeast (pane.anchorsAbove offset) a →
    (pane.atOffset offset).jumpPrevPrompt = pane.atOffset a
  next : ∀ offset a, IsGreatest (pane.anchorsBelow offset) a →
    (pane.atOffset offset).jumpNextPrompt = pane.atOffset a
  live : ∀ offset, pane.anchorsBelow offset = ∅ →
    (pane.atOffset offset).jumpNextPrompt = pane.atOffset 0
  visits : ∀ a ∈ pane.anchorsAbove 0, ∃! n, (pane.stop n).prevPrompt = some a
  undoes : ∀ n a, (pane.stop n).prevPrompt = some a →
    (pane.stop (n + 1)).jumpNextPrompt = pane.stop n

/-- There is an anchor, at most one that can be jumped to from the live screen, and each that is
    recorded after a larger one is followed by the larger one again. -/
structure JumpsStraight (pane : PaneState) : Prop where
  recorded : pane.promptAnchors ≠ []
  single : ∀ a ∈ pane.anchorsAbove 0, ∀ b ∈ pane.anchorsAbove 0, a = b
  order : ∀ l b r, pane.promptAnchors = l ++ b :: r → ∀ a ∈ l, b < a → a ∈ r

variable {pane : PaneState} {offset a : ℕ}

/-! ## The anchors that are found -/

/-- The anchor that `jump_prev_prompt` takes is the last one above the offset, -/
theorem prevPrompt_eq_some_iff : (pane.atOffset offset).prevPrompt = some a ↔
    (offset < a ∧ a ≤ pane.scrollback.len - 1) ∧ ∃ l r, pane.promptAnchors = l ++ a :: r ∧
      ∀ b ∈ r, offset < b → pane.scrollback.len - 1 < b := by
  refine find?_reverse_eq_some_iff.trans ?_
  simp

/-- and the one that `jump_next_prompt` takes is the last one below it. -/
theorem nextPrompt_eq_some_iff : (pane.atOffset offset).nextPrompt = some a ↔
    a < offset ∧ ∃ l r, pane.promptAnchors = l ++ a :: r ∧ ∀ b ∈ r, offset ≤ b := by
  refine find?_reverse_eq_some_iff.trans ?_
  simp

theorem mem_of_prevPrompt (h : (pane.atOffset offset).prevPrompt = some a) :
    a ∈ pane.anchorsAbove offset := by
  obtain ⟨hrange, l, r, hsplit, -⟩ := prevPrompt_eq_some_iff.1 h
  exact ⟨by simp [hsplit], hrange⟩

theorem exists_prevPrompt (h : a ∈ pane.anchorsAbove offset) :
    ∃ b, (pane.atOffset offset).prevPrompt = some b := by
  refine Option.isSome_iff_exists.1 (List.find?_isSome.2 ⟨a, List.mem_reverse.2 h.1, ?_⟩)
  exact decide_eq_true h.2

theorem anchorsAbove_subset (offset : ℕ) : pane.anchorsAbove offset ⊆ pane.anchorsAbove 0 :=
  fun _ h => ⟨h.1, Nat.zero_lt_of_lt h.2.1, h.2.2⟩

theorem jumpPrevPrompt_of_some (h : (pane.atOffset offset).prevPrompt = some a) :
    (pane.atOffset offset).jumpPrevPrompt = pane.atOffset a := by
  rw [jumpPrevPrompt, h]
  rfl

theorem jumpPrevPrompt_of_none (h : pane.prevPrompt = none) : pane.jumpPrevPrompt = pane := by
  rw [jumpPrevPrompt, h]

/-- Jumps only scroll. -/
theorem exists_stop (pane : PaneState) (n : ℕ) : ∃ offset, pane.stop n = pane.atOffset offset := by
  induction n with
  | zero => exact ⟨0, rfl⟩
  | succ n ih =>
    obtain ⟨offset, hstop⟩ := ih
    rw [stop, Function.iterate_succ_apply']
    show ∃ offset, (pane.stop n).jumpPrevPrompt = _
    rw [hstop]
    cases hprev : (pane.atOffset offset).prevPrompt with
    | none => exact ⟨offset, jumpPrevPrompt_of_none hprev⟩
    | some a => exact ⟨a, jumpPrevPrompt_of_some hprev⟩

theorem nextPrompt_eq_none_iff :
    (pane.atOffset offset).nextPrompt = none ↔ pane.anchorsBelow offset = ∅ := by
  show pane.promptAnchors.reverse.find? (fun idx => decide (idx < offset)) = none ↔ _
  rw [List.find?_eq_none, Set.eq_empty_iff_forall_notMem]
  simp [anchorsBelow]

theorem jumpNextPrompt_of_some (h : (pane.atOffset offset).nextPrompt = some a) :
    (pane.atOffset offset).jumpNextPrompt = pane.atOffset a := by
  rw [jumpNextPrompt, h]
  rfl

theorem jumpNextPrompt_of_none (hrecorded : pane.promptAnchors ≠ [])
    (h : (pane.atOffset offset).nextPrompt = none) :
    (pane.atOffset offset).jumpNextPrompt = pane.atOffset 0 := by
  rw [jumpNextPrompt, h]
  show (if offset > 0 ∧ pane.promptAnchors ≠ [] then _ else _) = _
  split_ifs with hlive
  · rfl
  · rw [Nat.eq_zero_of_not_pos fun hpos => hlive ⟨hpos, hrecorded⟩]

/-! ## The condition is enough -/

/-- The last anchor below an offset is the largest one. -/
theorem JumpsStraight.nextPrompt (h : pane.JumpsStraight)
    (hgreatest : IsGreatest (pane.anchorsBelow offset) a) :
    (pane.atOffset offset).nextPrompt = some a := by
  cases hnext : (pane.atOffset offset).nextPrompt with
  | none => exact absurd hgreatest.1 (nextPrompt_eq_none_iff.1 hnext ▸ Set.notMem_empty a)
  | some b =>
    obtain ⟨hlt, l, r, hsplit, hskipped⟩ := nextPrompt_eq_some_iff.1 hnext
    have hle : b ≤ a := hgreatest.2 ⟨by simp [hsplit], hlt⟩
    have hmem : a ∈ l ++ b :: r := hsplit ▸ hgreatest.1.1
    have hbelow := hgreatest.1.2
    simp only [List.mem_append, List.mem_cons] at hmem
    rcases hmem with hl | rfl | hr
    · rcases hle.eq_or_lt with rfl | hlt'
      · rfl
      · exact absurd (hskipped a (h.order l b r hsplit a hl hlt')) (not_le.2 hbelow)
    · rfl
    · exact absurd (hskipped a hr) (not_le.2 hbelow)

/-- From the live screen the only anchor is jumped to, -/
theorem JumpsStraight.prevPrompt (h : pane.JumpsStraight) (ha : a ∈ pane.anchorsAbove offset) :
    (pane.atOffset offset).prevPrompt = some a := by
  obtain ⟨b, hb⟩ := exists_prevPrompt ha
  rw [hb, h.single b (anchorsAbove_subset _ (mem_of_prevPrompt hb)) a (anchorsAbove_subset _ ha)]

/-- and from there nothing is. -/
theorem JumpsStraight.stop_succ (h : pane.JumpsStraight) (ha : a ∈ pane.anchorsAbove 0) (n : ℕ) :
    pane.stop (n + 1) = pane.atOffset a ∧ (pane.atOffset a).prevPrompt = none := by
  have hlast : (pane.atOffset a).prevPrompt = none := by
    refine Option.eq_none_iff_forall_ne_some.2 fun b hb => ?_
    have hb' := mem_of_prevPrompt hb
    exact absurd hb'.2.1 (h.single a ha b (anchorsAbove_subset _ hb') ▸ lt_irrefl a)
  refine ⟨?_, hlast⟩
  induction n with
  | zero => exact jumpPrevPrompt_of_some (h.prevPrompt ha)
  | succ n ih =>
    rw [stop, Function.iterate_succ_apply']
    show (pane.stop (n + 1)).jumpPrevPrompt = _
    rw [ih, jumpPrevPrompt_of_none hlast]

theorem JumpsStraight.visits (h : pane.JumpsStraight) (ha : a ∈ pane.anchorsAbove 0) :
    ∃! n, (pane.stop n).prevPrompt = some a := by
  refine ⟨0, h.prevPrompt ha, fun n hn => ?_⟩
  cases n with
  | zero => rfl
  | succ n =>
    obtain ⟨hstop, hlast⟩ := h.stop_succ ha n
    rw [hstop, hlast] at hn
    cases hn

/-- Only the first jump back goes anywhere, and from the only anchor a jump forward goes to the live
    screen: an anchor below it is 0. -/
theorem JumpsStraight.undoes (h : pane.JumpsStraight) {n : ℕ}
    (hn : (pane.stop n).prevPrompt = some a) :
    (pane.stop (n + 1)).jumpNextPrompt = pane.stop n := by
  have ha : a ∈ pane.anchorsAbove 0 := by
    obtain ⟨offset, hstop⟩ := exists_stop pane n
    exact anchorsAbove_subset offset (mem_of_prevPrompt (hstop ▸ hn))
  cases n with
  | succ n =>
    obtain ⟨hstop, hlast⟩ := h.stop_succ ha n
    rw [hstop, hlast] at hn
    cases hn
  | zero =>
    rw [(h.stop_succ ha 0).1]
    cases hnext : (pane.atOffset a).nextPrompt with
    | none => exact jumpNextPrompt_of_none h.recorded hnext
    | some b =>
      obtain ⟨hlt, l, r, hsplit, -⟩ := nextPrompt_eq_some_iff.1 hnext
      have hzero : b = 0 := by
        by_contra hne
        have hb : b ∈ pane.anchorsAbove 0 :=
          ⟨by simp [hsplit], Nat.pos_of_ne_zero hne, hlt.le.trans ha.2.2⟩
        exact absurd hlt (h.single b hb a ha ▸ lt_irrefl b)
      rw [jumpNextPrompt_of_some hnext, hzero]
      rfl

theorem JumpsStraight.visitsPrompts (h : pane.JumpsStraight) : pane.VisitsPrompts where
  prev _ _ hleast := jumpPrevPrompt_of_some (h.prevPrompt hleast.1)
  next _ _ hgreatest := jumpNextPrompt_of_some (h.nextPrompt hgreatest)
  live _ hnone := jumpNextPrompt_of_none h.recorded (nextPrompt_eq_none_iff.2 hnone)
  visits _ ha := h.visits ha
  undoes _ _ hn := h.undoes hn

/-! ## The condition is necessary -/

/-- A pane that is scrolled elsewhere is another pane. -/
theorem atOffset_injective (pane : PaneState) : Function.Injective pane.atOffset :=
  fun _ _ h => congrArg scrollOffset h

theorem VisitsPrompts.recorded (h : pane.VisitsPrompts) : pane.promptAnchors ≠ [] := by
  intro hnone
  have hlive := h.live 1 (by simp [anchorsBelow, hnone])
  have hstays : (pane.atOffset 1).jumpNextPrompt = pane.atOffset 1 := by
    simp [jumpNextPrompt, PaneState.nextPrompt, hnone]
  exact absurd (atOffset_injective pane (hstays.symm.trans hlive)) one_ne_zero

/-- From just above a larger anchor, a jump forward goes to the last anchor that is at most as
    large. -/
theorem VisitsPrompts.order (h : pane.VisitsPrompts) {l r : List ℕ} {b : ℕ}
    (hsplit : pane.promptAnchors = l ++ b :: r) (ha : a ∈ l) (hlt : b < a) : a ∈ r := by
  have hgreatest : IsGreatest (pane.anchorsBelow (a + 1)) a :=
    ⟨⟨by simp [hsplit, ha], Nat.lt_succ_self a⟩, fun x hx => Nat.le_of_lt_succ hx.2⟩
  have hjump := h.next (a + 1) a hgreatest
  cases hnext : (pane.atOffset (a + 1)).nextPrompt with
  | none => exact absurd hgreatest.1 (nextPrompt_eq_none_iff.1 hnext ▸ Set.notMem_empty a)
  | some c =>
    obtain rfl : c = a :=
      atOffset_injective pane ((jumpNextPrompt_of_some hnext).symm.trans hjump)
    obtain ⟨-, l', r', hsplit', hskipped⟩ := nextPrompt_eq_some_iff.1 hnext
    -- `b` is not skipped, so that the anchor that is taken comes after it
    rw [hsplit, List.append_eq_append_iff] at hsplit'
    rcases hsplit' with ⟨m, hl', hcons⟩ | ⟨m, hl, hcons⟩
    · cases m with
      | nil =>
        obtain rfl : b = c := (List.cons.inj hcons).1
        exact absurd hlt (lt_irrefl b)
      | cons _ m =>
        rw [(List.cons.inj hcons).2]
        simp
    · cases m with
      | nil =>
        obtain rfl : c = b := (List.cons.inj hcons).1
        exact absurd hlt (lt_irrefl c)
      | cons _ m =>
        have hb : c + 1 ≤ b := hskipped b (by simp [(List.cons.inj hcons).2])
        omega

/-- Of two anchors, the larger one is recorded last, and from just below the smaller one a jump
    back goes to the larger one. -/
theorem VisitsPrompts.le_of_mem (h : pane.VisitsPrompts) {b : ℕ} (ha : a ∈ pane.anchorsAbove 0)
    (hb : b ∈ pane.anchorsAbove 0) : b ≤ a := by
  by_contra hlt
  rw [not_le] at hlt
  have hleast : IsLeast (pane.anchorsAbove (a - 1)) a :=
    ⟨⟨ha.1, Nat.sub_lt ha.2.1 one_pos, ha.2.2⟩, fun x hx => Nat.le_of_pred_lt hx.2.1⟩
  obtain ⟨c, hc⟩ := exists_prevPrompt hleast.1
  obtain rfl : c = a :=
    atOffset_injective pane ((jumpPrevPrompt_of_some hc).symm.trans (h.prev _ _ hleast))
  obtain ⟨-, l, r, hsplit, hskipped⟩ := prevPrompt_eq_some_iff.1 hc
  -- `b` is recorded before the anchor that is taken, and so after it again
  have hafter : b ∉ r := fun hr => absurd (hskipped b hr (by omega)) (not_lt.2 hb.2.2)
  have hmem : b ∈ l ++ c :: r := hsplit ▸ hb.1
  simp only [List.mem_append, List.mem_cons] at hmem
  rcases hmem with hl | rfl | hr
  · exact hafter (h.order hsplit hl hlt)
  · exact lt_irrefl b hlt
  · exact hafter hr

theorem VisitsPrompts.jumpsStraight (h : pane.VisitsPrompts) : pane.JumpsStraight where
  recorded := h.recorded
  single _ ha _ hb := (h.le_of_mem hb ha).antisymm (h.le_of_mem ha hb)
  order _ _ _ hsplit _ ha hlt := h.order hsplit ha hlt

/-! ## The anchors that are recorded -/

/-- The anchors ascend to the length of the scrollback. -/
structure Ascending (pane : PaneState) : Prop where
  sorted : pane.promptAnchors.Pairwise (· < ·)
  le_len : ∀ a ∈ pane.promptAnchors, a ≤ pane.scrollback.len

variable {pane' : PaneState}

theorem Ascending.grow (h : pane.Ascending) (hanchors : pane'.promptAnchors = pane.promptAnchors)
    (hlen : pane.scrollback.len ≤ pane'.scrollback.len) : pane'.Ascending :=
  ⟨hanchors ▸ h.sorted, fun a ha => (h.le_len a (hanchors ▸ ha)).trans hlen⟩

theorem le_len_pushLine {α : Type} {s s' : Scrollback α} {line : α}
    (h : s.pushLine line = some s') : s.len ≤ s'.len := by
  obtain ⟨head, -, h⟩ := Option.bind_eq_some_iff.1 h
  cases h
  dsimp only
  split_ifs
  · exact Nat.le_succ _
  · exact le_rfl

theorem Ascending.applyDirtyRow (h : pane.Ascending) {dirty : Vt.DirtyRow}
    (hrow : pane.applyDirtyRow dirty = some pane') : pane'.Ascending := by
  unfold PaneState.applyDirtyRow at hrow
  split at hrow
  · cases hrow
    exact h
  · obtain ⟨scrollback, hpush, hrow⟩ := Option.bind_eq_some_iff.1 hrow
    cases hrow
    exact h.grow rfl (le_len_pushLine hpush)

theorem Ascending.applyDirtyRows {dirtyRows : List Vt.DirtyRow} :
    ∀ {pane pane' : PaneState}, pane.Ascending →
      dirtyRows.foldlM PaneState.applyDirtyRow pane = some pane' → pane'.Ascending := by
  induction dirtyRows with
  | nil =>
    intro pane pane' h hrows
    cases hrows
    exact h
  | cons dirty dirtyRows ih =>
    intro pane pane' h hrows
    obtain ⟨next, hrow, hrows⟩ := Option.bind_eq_some_iff.1 hrows
    exact ih (h.applyDirtyRow hrow) hrows

/-- A prompt is recorded at the length of the scrollback, unless the last one is there. -/
theorem Ascending.addPromptAnchor (h : pane.Ascending) :
    (PaneState.addPromptAnchor pane.promptAnchors pane.scrollback.len).Pairwise (· < ·) ∧
      ∀ a ∈ PaneState.addPromptAnchor pane.promptAnchors pane.scrollback.len,
        a ≤ pane.scrollback.len := by
  suffices hadded : ∀ anchors, anchors = (if pane.promptAnchors.getLast? ≠
      some pane.scrollback.len then pane.promptAnchors ++ [pane.scrollback.len]
      else pane.promptAnchors) →
      anchors.Pairwise (· < ·) ∧ ∀ a ∈ anchors, a ≤ pane.scrollback.len by
    obtain ⟨hsorted, hle⟩ := hadded _ rfl
    exact ⟨hsorted.drop, fun a ha => hle a (List.mem_of_mem_drop ha)⟩
  rintro anchors rfl
  split_ifs with hlast
  · refine ⟨List.pairwise_append.2 ⟨h.sorted, List.pairwise_singleton _ _, ?_⟩, ?_⟩
    · intro a ha b hb
      obtain rfl := List.mem_singleton.1 hb
      refine (h.le_len a ha).lt_of_ne ?_
      rintro rfl
      obtain ⟨l, last, hsplit⟩ := (List.eq_nil_or_concat _).resolve_left (List.ne_nil_of_mem ha)
      rw [List.concat_eq_append] at hsplit
      rw [hsplit, List.getLast?_concat, Ne, Option.some.injEq] at hlast
      have hle := h.le_len last (by simp [hsplit])
      have hsorted := h.sorted
      rw [hsplit, List.pairwise_append] at hsorted
      rw [hsplit, List.mem_append, List.mem_singleton] at ha
      rcases ha with ha | ha
      · exact absurd (hsorted.2.2 _ ha last List.mem_cons_self) (not_lt.2 hle)
      · exact hlast ha.symm
    · intro a ha
      rcases List.mem_append.1 ha with ha | ha
      · exact h.le_len a ha
      · exact (List.mem_singleton.1 ha).le
  · exact ⟨h.sorted, h.le_len⟩

theorem semanticMark_anchors (paneId : ℕ) (pane : PaneState) (kind : String)
    (exitCode : Option Int32) :
    (pane.semanticMark paneId kind exitCode).scrollback = pane.scrollback ∧
      (pane.semanticMark paneId kind exitCode).promptAnchors =
        if kind = "A" then PaneState.addPromptAnchor pane.promptAnchors pane.scrollback.len
        else pane.promptAnchors := by
  by_cases hkind : kind = "A"
  · simp only [semanticMark, hkind, if_true]
    cases SemanticMarkKind.fromIpc "A" <;> simp
  · simp only [semanticMark, hkind, if_false]
    cases SemanticMarkKind.fromIpc kind with
    | none => exact ⟨rfl, rfl⟩
    | some parsed => exact ⟨rfl, rfl⟩

theorem Ascending.step (h : pane.Ascending) {paneId : ℕ} {op : PaneOp}
    (hstep : pane.step paneId op = some pane') : pane'.Ascending := by
  cases op with
  | fullRefresh grid =>
    cases hstep
    exact h.grow rfl le_rfl
  | gridDiff dirtyRows cursorCol cursorRow =>
    obtain ⟨next, hrows, hstep⟩ := Option.bind_eq_some_iff.1 hstep
    cases hstep
    exact (h.applyDirtyRows hrows).grow rfl le_rfl
  | semanticMark kind exitCode =>
    cases hstep
    obtain ⟨hscrollback, hanchors⟩ := semanticMark_anchors paneId pane kind exitCode
    split_ifs at hanchors
    · obtain ⟨hsorted, hle⟩ := h.addPromptAnchor
      exact ⟨hanchors ▸ hsorted, fun a ha =>
        (hle a (hanchors ▸ ha)).trans_eq (congrArg _ hscrollback.symm)⟩
    · exact h.grow hanchors (congrArg _ hscrollback).ge
  | toggleBlockCollapse id =>
    cases hstep
    unfold toggleBlockCollapseById
    split
    · exact h
    · split_ifs
      · exact h
      · exact h.grow rfl le_rfl

/-- While the capacity stays what it was at the start, anchors are recorded in order. -/
theorem ascending_run (paneId cols rows capacity : ℕ) (ops : List PaneOp)
    (hrun : Runs.run (stepOrPanic paneId) (some (new cols rows capacity)) ops = some pane) :
    pane.Ascending := by
  refine Runs.run_inv (P := fun pane => ∀ p, pane = some p → p.Ascending) ?_ ?_ pane hrun
  · intro pane op h p' hp'
    obtain ⟨p, rfl, hstep⟩ := Option.bind_eq_some_iff.1 hp'
    exact (h p rfl).step hstep
  · rintro p hp
    cases hp
    exact ⟨.nil, fun _ ha => nomatch ha⟩

theorem Ascending.lt (h : pane.Ascending) {l r : List ℕ} {b : ℕ}
    (hsplit : pane.promptAnchors = l ++ b :: r) (ha : a ∈ l) : a < b := by
  have hsorted := h.sorted
  rw [hsplit, List.pairwise_append] at hsorted
  exact hsorted.2.2 a ha b List.mem_cons_self

/-- Then all that the jumps need is an anchor, and no second one to jump to. -/
theorem Ascending.jumpsStraight_iff (h : pane.Ascending) : pane.JumpsStraight ↔
    pane.promptAnchors ≠ [] ∧ (pane.anchorsAbove 0).Subsingleton := by
  constructor
  · exact fun hstraight => ⟨hstraight.recorded, fun a ha b hb => hstraight.single a ha b hb⟩
  · rintro ⟨hrecorded, hsingle⟩
    exact ⟨hrecorded, fun a ha b hb => hsingle ha hb,
      fun l b r hsplit a ha hlt => absurd hlt (h.lt hsplit ha).asymm⟩

/-! ## Exactly when -/

/-- **Prompt jumps visit every anchor exactly if there is one to visit.** -/
theorem visitsPrompts_iff (pane : PaneState) : pane.VisitsPrompts ↔ pane.JumpsStraight :=
  ⟨VisitsPrompts.jumpsStraight, JumpsStraight.visitsPrompts⟩

/-- In a scrollback of three rows the two prompts are at rows 1 and 2, and the first jump back is to
    row 2. -/
theorem prompt_skipped :
    let refresh : PaneOp := .gridDiff [⟨0, []⟩] 0 0
    ∃ pane, Runs.run (stepOrPanic 1) (some (new 1 1 10))
        [refresh, .semanticMark "A" none, refresh, .semanticMark "A" none, refresh] = some pane ∧
      pane.anchorsAbove 0 = {1, 2} ∧
      (pane.atOffset 0).jumpPrevPrompt = pane.atOffset 2 ∧ ¬pane.VisitsPrompts := by
  refine ⟨_, rfl, ?_, rfl, fun h => ?_⟩
  · ext a
    show a ∈ [1, 2] ∧ 0 < a ∧ a ≤ 2 ↔ a = 1 ∨ a = 2
    simp only [List.mem_cons, List.not_mem_nil, or_false]
    omega
  · have hleast := h.prev 0 1 ⟨⟨by decide, by decide, by decide⟩, fun a ha => ha.2.1⟩
    exact absurd (congrArg scrollOffset hleast) (by decide)

end PaneState

end Nexterm.Client

/-
  The identity of a command block: its id is made of the pane and the length of the scrollback at
  its prompt, and the blocks are extracted anew from the marks at every mark.

  * `retainedBlocks`: the blocks whose marks an operation leaves in the accumulator.
  * `KeepsIdentity`: after the operation no two blocks have one id, and the retained blocks keep
    their ids and, unless the user toggles them, their flags.
  * `Unambiguous`: the condition under which an operation does so.
  * `blocks_keep_identity_iff`: it is exact for every run.
-/
import Nexterm.Client.Pane
import Nexterm.Lib.Runs

namespace Nexterm.Client.PaneState

open Nexterm.Vt (DirtyRow)

variable {paneId : ℕ} {pane pane' : PaneState} {op : PaneOp} {marks : List SemanticMark}

/-- How many marks are shed when the next one arrives. -/
def shed (marks : List SemanticMark) : ℕ :=
  if marks.length ≥ maxSemanticMarks then maxSemanticMarks / 4 else 0

/-- The blocks whose marks are still in the accumulator after the operation.  The `k`-th block
    belongs to the `k`-th prompt; as the oldest marks are shed first, a block that has lost a mark
    has lost its prompt. -/
def retainedBlocks (pane : PaneState) : PaneOp → List CommandBlock
  | .semanticMark kind _ =>
    if (SemanticMarkKind.fromIpc kind).isSome then
      pane.blocks.drop (prompts (pane.marks.take (shed pane.marks))).length
    else pane.blocks
  | _ => pane.blocks

/-- After the operation no two blocks have one id; every retained block has kept its place among
    the retained ones, its id and, unless the user toggles it, its flag. -/
def KeepsIdentity (paneId : ℕ) (pane : PaneState) (op : PaneOp) : Prop :=
  ∀ pane' : PaneState, pane.step paneId op = some pane' →
    (pane'.blocks.map CommandBlock.id).Nodup ∧
    ∀ (k : ℕ) (b : CommandBlock), (pane.retainedBlocks op)[k]? = some b → ∃ b' : CommandBlock,
      pane'.blocks[k]? = some b' ∧ b'.id = b.id ∧
        (op ≠ .toggleBlockCollapse b.id → b'.collapsed = b.collapsed)

/-- A prompt arrives at a row where no retained prompt is (as far as the low 32 bits tell), and a
    mark arrives while no retained block is collapsed. -/
def Unambiguous (pane : PaneState) : PaneOp → Prop
  | .semanticMark kind exitCode => (SemanticMarkKind.fromIpc kind).isSome →
    (kind = "A" → ∀ m ∈ prompts (pane.marks.drop (shed pane.marks)),
      m.row % 2 ^ 32 ≠ pane.scrollback.len % 2 ^ 32) ∧
    ∀ b ∈ pane.retainedBlocks (.semanticMark kind exitCode), b.collapsed = false
  | _ => True

/-! ## The blocks and the marks -/

/-- The blocks belong to the prompts among the marks. -/
def Indexed (paneId : ℕ) (pane : PaneState) : Prop :=
  pane.blocks.map CommandBlock.id = (prompts pane.marks).map fun m => makeBlockId paneId m.row

theorem shed_le (marks : List SemanticMark) : shed marks ≤ marks.length := by
  unfold shed maxSemanticMarks
  split_ifs <;> omega

theorem addMark_eq (marks : List SemanticMark) (m : SemanticMark) :
    addMark marks m = marks.drop (shed marks) ++ [m] := by
  rw [← List.drop_append_of_le_length (shed_le marks)]
  unfold addMark shed
  simp only [List.length_append, List.length_singleton]
  split_ifs <;> first | rfl | omega

theorem prompts_append (marks marks' : List SemanticMark) :
    prompts (marks ++ marks') = prompts marks ++ prompts marks' :=
  List.filter_append marks marks'

theorem prompts_drop (marks : List SemanticMark) (n : ℕ) :
    (prompts marks).drop (prompts (marks.take n)).length = prompts (marks.drop n) := by
  conv_lhs => rw [← List.take_append_drop n marks]
  rw [prompts_append, List.take_append_drop, List.drop_left]

/-- The ids of the retained blocks. -/
theorem Indexed.ids_retained (h : Indexed paneId pane) :
    (pane.blocks.drop (prompts (pane.marks.take (shed pane.marks))).length).map CommandBlock.id =
      (prompts (pane.marks.drop (shed pane.marks))).map fun m => makeBlockId paneId m.row := by
  rw [List.map_drop, h, ← List.map_drop, prompts_drop]

theorem marks_semanticMark {kind : String} {parsed : SemanticMarkKind}
    (h : SemanticMarkKind.fromIpc kind = some parsed) (exitCode : Option Int32) :
    (pane.semanticMark paneId kind exitCode).marks =
      pane.marks.drop (shed pane.marks) ++ [⟨pane.scrollback.len, parsed, exitCode⟩] := by
  rw [← addMark_eq]
  unfold semanticMark
  rw [h]
  dsimp only
  split_ifs <;> rfl

theorem blocks_semanticMark {kind : String} {parsed : SemanticMarkKind}
    (h : SemanticMarkKind.fromIpc kind = some parsed) (exitCode : Option Int32) :
    (pane.semanticMark paneId kind exitCode).blocks =
      extractCommandBlocks paneId (pane.semanticMark paneId kind exitCode).marks := by
  unfold semanticMark
  rw [h]

theorem semanticMark_of_none {kind : String} (h : SemanticMarkKind.fromIpc kind = none)
    (exitCode : Option Int32) :
    (pane.semanticMark paneId kind exitCode).marks = pane.marks ∧
      (pane.semanticMark paneId kind exitCode).blocks = pane.blocks := by
  unfold semanticMark
  rw [h]
  dsimp only
  split_ifs <;> exact ⟨rfl, rfl⟩

/-- Output does not touch the marks and the blocks. -/
theorem applyDiff_frame {dirtyRows : List DirtyRow} {cursorCol cursorRow : ℕ}
    (h : pane.applyDiff dirtyRows cursorCol cursorRow = some pane') :
    pane'.marks = pane.marks ∧ pane'.blocks = pane.blocks := by
  have hrow : ∀ (pane pane' : PaneState) dirty, pane.applyDirtyRow dirty = some pane' →
      pane'.marks = pane.marks ∧ pane'.blocks = pane.blocks := by
    intro pane pane' dirty h
    unfold applyDirtyRow at h
    split at h
    · cases h
      exact ⟨rfl, rfl⟩
    · obtain ⟨scrollback, -, h⟩ := Option.bind_eq_some_iff.1 h
      cases h
      exact ⟨rfl, rfl⟩
  have hrows : ∀ (dirtyRows : List DirtyRow) (pane pane' : PaneState),
      dirtyRows.foldlM applyDirtyRow pane = some pane' →
      pane'.marks = pane.marks ∧ pane'.blocks = pane.blocks := by
    intro dirtyRows
    induction dirtyRows with
    | nil =>
      intro pane pane' h
      cases h
      exact ⟨rfl, rfl⟩
    | cons dirty dirtyRows ih =>
      intro pane pane' h
      obtain ⟨next, hnext, h⟩ := Option.bind_eq_some_iff.1 h
      obtain ⟨hmarks, hblocks⟩ := ih next pane' h
      obtain ⟨hmarks', hblocks'⟩ := hrow pane next dirty hnext
      exact ⟨hmarks.trans hmarks', hblocks.trans hblocks'⟩
  obtain ⟨next, hnext, h⟩ := Option.bind_eq_some_iff.1 h
  cases h
  exact hrows dirtyRows pane next hnext

/-- A toggle replaces one block. -/
theorem toggle_cases (pane : PaneState) (id : ℕ) :
    (pane.toggleBlockCollapseById id).marks = pane.marks ∧
      ((pane.toggleBlockCollapseById id).blocks = pane.blocks ∨
        ∃ i b, pane.blocks[i]? = some b ∧ b.id = id ∧
          (pane.toggleBlockCollapseById id).blocks =
            pane.blocks.modify i fun b => { b with collapsed := !b.collapsed }) := by
  unfold toggleBlockCollapseById
  split
  · exact ⟨rfl, .inl rfl⟩
  · next i hi =>
    split_ifs
    · exact ⟨rfl, .inl rfl⟩
    · obtain ⟨hlt, hid, -⟩ := List.findIdx?_eq_some_iff_getElem.1 hi
      refine ⟨rfl, .inr ⟨i, pane.blocks[i], List.getElem?_eq_getElem hlt, ?_, rfl⟩⟩
      exact of_decide_eq_true hid

theorem map_id_modify (blocks : List CommandBlock) (i : ℕ) :
    (blocks.modify i fun b => { b with collapsed := !b.collapsed }).map CommandBlock.id =
      blocks.map CommandBlock.id := by
  ext k : 1
  rw [List.getElem?_map, List.getElem?_modify, List.getElem?_map]
  cases blocks[k]? with
  | none => rfl
  | some b => split_ifs <;> rfl

/-- The blocks belong to the prompts after every operation. -/
theorem Indexed.step (h : Indexed paneId pane) (hstep : pane.step paneId op = some pane') :
    Indexed paneId pane' := by
  have hframe : ∀ {pane' : PaneState}, pane'.marks = pane.marks ∧ pane'.blocks = pane.blocks →
      Indexed paneId pane' := by
    rintro pane' ⟨hmarks, hblocks⟩
    rw [Indexed, hmarks, hblocks]
    exact h
  cases op with
  | fullRefresh grid =>
    cases hstep
    exact hframe ⟨rfl, rfl⟩
  | gridDiff dirtyRows cursorCol cursorRow => exact hframe (applyDiff_frame hstep)
  | semanticMark kind exitCode =>
    cases hstep
    cases hk : SemanticMarkKind.fromIpc kind with
    | none => exact hframe (semanticMark_of_none hk exitCode)
    | some parsed =>
      rw [Indexed, blocks_semanticMark hk]
      exact ids_extract _ _
  | toggleBlockCollapse id =>
    cases hstep
    obtain ⟨hmarks, hblocks | ⟨i, b, -, -, hblocks⟩⟩ := toggle_cases pane id
    · exact hframe ⟨hmarks, hblocks⟩
    · rw [Indexed, hmarks, hblocks, map_id_modify]
      exact h

/-! ## Exactly when -/

theorem keepsIdentity_of_blocks (hnodup : (pane.blocks.map CommandBlock.id).Nodup)
    (hstep : pane.step paneId op = some pane') (hblocks : pane'.blocks = pane.blocks)
    (hretained : pane.retainedBlocks op = pane.blocks) : KeepsIdentity paneId pane op := by
  intro pane'' hstep'
  obtain rfl : pane' = pane'' := Option.some.inj (hstep.symm.trans hstep')
  rw [hretained, hblocks]
  exact ⟨hnodup, fun k b hb => ⟨b, hb, rfl, fun _ => rfl⟩⟩

theorem keepsIdentity_toggle (hnodup : (pane.blocks.map CommandBlock.id).Nodup) (id : ℕ) :
    KeepsIdentity paneId pane (.toggleBlockCollapse id) := by
  obtain ⟨-, hblocks | ⟨i, b, hi, rfl, hblocks⟩⟩ := toggle_cases pane id
  · exact keepsIdentity_of_blocks hnodup rfl hblocks rfl
  · intro pane' hstep
    cases hstep
    rw [hblocks, map_id_modify]
    refine ⟨hnodup, fun k b' hk => ?_⟩
    change pane.blocks[k]? = some b' at hk
    by_cases hik : i = k
    · subst hik
      obtain rfl : b = b' := Option.some.inj (hi.symm.trans hk)
      exact ⟨{ b with collapsed := !b.collapsed }, by rw [List.getElem?_modify_eq, hi]; rfl, rfl,
        fun h => absurd rfl h⟩
    · exact ⟨b', by rw [List.getElem?_modify_ne _ _ hik, hk], rfl, fun _ => rfl⟩

/-- The id that a mark adds is new if it is not that of an earlier prompt. -/
theorem nodup_append_mark
    (hnodup : ((prompts marks).map fun m => makeBlockId paneId m.row).Nodup) (m : SemanticMark) :
    ((prompts marks).map (fun m => makeBlockId paneId m.row) ++
        (prompts [m]).map fun m => makeBlockId paneId m.row).Nodup ↔
      (m.kind = .promptStart → ∀ m' ∈ prompts marks, m'.row % 2 ^ 32 ≠ m.row % 2 ^ 32) := by
  by_cases hkind : m.kind = .promptStart
  · rw [show prompts [m] = [m] by simp [prompts, hkind],
      List.map_singleton, List.nodup_append]
    constructor
    · rintro ⟨-, -, hnew⟩ - m' hm' hrow
      exact hnew _ (List.mem_map_of_mem hm') _ (List.mem_singleton_self _) (makeBlockId_inj.2 hrow)
    · intro hnew
      refine ⟨hnodup, List.nodup_singleton _, ?_⟩
      intro id hid id' hid' heq
      obtain ⟨m', hm', rfl⟩ := List.mem_map.1 hid
      rw [List.mem_singleton.1 hid'] at heq
      exact hnew hkind m' hm' (makeBlockId_inj.1 heq)
  · rw [show prompts [m] = [] by simp [prompts, hkind],
      List.map_nil, List.append_nil]
    exact iff_of_true hnodup fun h => absurd h hkind

/-- A mark opens a block if it is a prompt, and every block is expanded after it. -/
theorem keepsIdentity_semanticMark_iff {kind : String} {parsed : SemanticMarkKind}
    (hindexed : Indexed paneId pane) (hnodup : (pane.blocks.map CommandBlock.id).Nodup)
    (hk : SemanticMarkKind.fromIpc kind = some parsed) (exitCode : Option Int32) :
    KeepsIdentity paneId pane (.semanticMark kind exitCode) ↔
      Unambiguous pane (.semanticMark kind exitCode) := by
  have hkind : kind = "A" ↔ parsed = .promptStart := by
    unfold SemanticMarkKind.fromIpc at hk
    split_ifs at hk <;> cases hk <;> simp_all
  have hretained : pane.retainedBlocks (.semanticMark kind exitCode) =
      pane.blocks.drop (prompts (pane.marks.take (shed pane.marks))).length := by
    simp only [retainedBlocks, hk, Option.isSome_some, if_true]
  have hids := hindexed.ids_retained
  rw [← hretained] at hids
  have hnodup' : ((pane.retainedBlocks (.semanticMark kind exitCode)).map
      CommandBlock.id).Nodup := by
    rw [hretained, List.map_drop]
    exact hnodup.sublist (List.drop_sublist _ _)
  have hblocks := @blocks_semanticMark paneId pane kind parsed hk exitCode
  have hnew := ids_extract paneId (pane.semanticMark paneId kind exitCode).marks
  rw [← hblocks, marks_semanticMark hk, prompts_append, List.map_append, ← hids] at hnew
  have hflat := collapsed_extract paneId (pane.semanticMark paneId kind exitCode).marks
  rw [← hblocks] at hflat
  have hdistinct : ((pane.semanticMark paneId kind exitCode).blocks.map CommandBlock.id).Nodup ↔
      (kind = "A" → ∀ m ∈ prompts (pane.marks.drop (shed pane.marks)),
        m.row % 2 ^ 32 ≠ pane.scrollback.len % 2 ^ 32) := by
    rw [hids] at hnodup'
    rw [hnew, hids, hkind]
    exact nodup_append_mark hnodup' _
  constructor
  · intro hkeeps _
    obtain ⟨hdist, hsame⟩ := hkeeps _ rfl
    refine ⟨hdistinct.1 hdist, fun b hb => ?_⟩
    obtain ⟨k, hk⟩ := List.mem_iff_getElem?.1 hb
    obtain ⟨b', hb', -, hflag⟩ := hsame k b hk
    rw [← hflag (fun h => nomatch h)]
    exact hflat b' (List.mem_of_getElem? hb')
  · intro hclear
    obtain ⟨hrows, hexpanded⟩ := hclear (hk ▸ rfl)
    intro pane' hstep
    cases hstep
    refine ⟨hdistinct.2 hrows, fun k b hb => ?_⟩
    have hid : ((pane.semanticMark paneId kind exitCode).blocks.map CommandBlock.id)[k]? =
        some b.id := by
      obtain ⟨hlt, -⟩ := List.getElem?_eq_some_iff.1 hb
      rw [hnew, List.getElem?_append_left (by rwa [List.length_map]), List.getElem?_map, hb]
      rfl
    rw [List.getElem?_map] at hid
    obtain ⟨b', hb', hid⟩ := Option.map_eq_some_iff.1 hid
    refine ⟨b', hb', hid, fun _ => ?_⟩
    rw [hflat b' (List.mem_of_getElem? hb'), hexpanded b (List.mem_of_getElem? hb)]

theorem keepsIdentity_iff (hindexed : Indexed paneId pane)
    (hnodup : (pane.blocks.map CommandBlock.id).Nodup) :
    KeepsIdentity paneId pane op ↔ Unambiguous pane op := by
  cases op with
  | fullRefresh grid => exact iff_of_true (keepsIdentity_of_blocks hnodup rfl rfl rfl) trivial
  | gridDiff dirtyRows cursorCol cursorRow =>
    refine iff_of_true (fun pane' hstep => ?_) trivial
    exact keepsIdentity_of_blocks hnodup hstep (applyDiff_frame hstep).2 rfl pane' hstep
  | semanticMark kind exitCode =>
    cases hk : SemanticMarkKind.fromIpc kind with
    | none =>
      refine iff_of_true ?_ (fun h => absurd h (by simp [hk]))
      exact keepsIdentity_of_blocks hnodup rfl (semanticMark_of_none hk exitCode).2
        (by simp [retainedBlocks, hk])
    | some parsed => exact keepsIdentity_semanticMark_iff hindexed hnodup hk exitCode
  | toggleBlockCollapse id => exact iff_of_true (keepsIdentity_toggle hnodup id) trivial

/-- **The blocks of a pane keep their identity** in exactly those runs in which no prompt arrives
    at the row of a retained one and no mark arrives while a retained block is collapsed. -/
theorem blocks_keep_identity_iff (paneId cols rows capacity : ℕ) (ops : List PaneOp) :
    Runs.Along (stepOrPanic paneId) (fun pane op => ∀ p, pane = some p → KeepsIdentity paneId p op)
        (some (new cols rows capacity)) ops ↔
      Runs.Along (stepOrPanic paneId) (fun pane op => ∀ p, pane = some p → Unambiguous p op)
        (some (new cols rows capacity)) ops := by
  refine Runs.along_iff
    (P := fun pane => ∀ p, pane = some p →
      Indexed paneId p ∧ (p.blocks.map CommandBlock.id).Nodup) ?_ ?_ ?_
  · intro pane op hpane hkeeps p' hp'
    obtain ⟨p, rfl, hstep⟩ := Option.bind_eq_some_iff.1 hp'
    exact ⟨(hpane p rfl).1.step hstep, (hkeeps p rfl p' hstep).1⟩
  · intro pane op hpane
    exact forall₂_congr fun p hp => keepsIdentity_iff (hpane p hp).1 (hpane p hp).2
  · rintro p hp
    cases hp
    exact ⟨rfl, List.nodup_nil⟩

/-- Once the scrollback is full every prompt is at the same row; and a mark expands the block that
    the user has collapsed. -/
theorem blocks_lose_identity :
    let refresh : PaneOp := .gridDiff [⟨0, []⟩] 0 0
    ¬Runs.Along (stepOrPanic 1) (fun pane op => ∀ p, pane = some p → KeepsIdentity 1 p op)
        (some (new 1 1 1))
        [refresh, .semanticMark "A" none, .semanticMark "D" (some 0), refresh,
          .semanticMark "A" none] ∧
      ¬Runs.Along (stepOrPanic 1) (fun pane op => ∀ p, pane = some p → KeepsIdentity 1 p op)
        (some (new 1 1 10))
        [.semanticMark "A" none, refresh, .semanticMark "D" (some 0),
          .toggleBlockCollapse (makeBlockId 1 0), .semanticMark "A" none] := by
  constructor
  · rintro ⟨-, -, -, -, h, -⟩
    exact absurd (h _ rfl _ rfl).1 (by decide)
  · rintro ⟨-, -, -, -, h, -⟩
    obtain ⟨b, hb, -, hflag⟩ := (h _ rfl _ rfl).2 0 _ rfl
    cases hb
    exact absurd (hflag (fun h => nomatch h)) (by decide)

end Nexterm.Client.PaneState

/-
  Where the blocks of a mark stream lie (`command_blocks.rs`).

  * `extract_append_cons`: a prompt starts afresh, whatever marks came before it, so that shedding
    the oldest marks takes away the oldest blocks and changes no other.
  * `Ordered`, `ordered_extract`: as long as the rows do not decrease, the blocks come one after the
    other; the end of one and the prompt of the next may share a row.
  * `HidesInner`: a collapsed block hides its inner output and nothing else; `hidesInner_iff`: it
    does unless a shared row is hidden.
-/
import Nexterm.Client.Identity

namespace Nexterm.Client

variable {paneId : ℕ} {marks : List SemanticMark}

/-! ## The fold is local -/

/-- The finished blocks are only appended to. -/
theorem extractStep_shift (paneId : ℕ) (done : List CommandBlock)
    (state : List CommandBlock × Option CommandBlock) (m : SemanticMark) :
    extractStep paneId (done ++ state.1, state.2) m =
      (done ++ (extractStep paneId state m).1, (extractStep paneId state m).2) := by
  obtain ⟨blocks, current⟩ := state
  cases hkind : m.kind <;> simp [extractStep, hkind]

theorem foldl_shift (paneId : ℕ) (marks : List SemanticMark) (done : List CommandBlock)
    (state : List CommandBlock × Option CommandBlock) :
    marks.foldl (extractStep paneId) (done ++ state.1, state.2) =
      (done ++ (marks.foldl (extractStep paneId) state).1,
        (marks.foldl (extractStep paneId) state).2) := by
  induction marks generalizing state with
  | nil => rfl
  | cons m marks ih => rw [List.foldl_cons, extractStep_shift, ih, List.foldl_cons]

/-- A prompt flushes the current block and forgets it. -/
theorem extractStep_prompt (paneId : ℕ) (state : List CommandBlock × Option CommandBlock)
    {m : SemanticMark} (hm : m.kind = .promptStart) :
    extractStep paneId state m =
      (foldBlocks state ++ (extractStep paneId ([], none) m).1,
        (extractStep paneId ([], none) m).2) := by
  obtain ⟨blocks, current⟩ := state
  simp [extractStep, foldBlocks, hm]

theorem extract_append_cons (paneId : ℕ) (marks : List SemanticMark) {m : SemanticMark}
    (hm : m.kind = .promptStart) (marks' : List SemanticMark) :
    extractCommandBlocks paneId (marks ++ m :: marks') =
      extractCommandBlocks paneId marks ++ extractCommandBlocks paneId (m :: marks') := by
  change foldBlocks ((marks ++ m :: marks').foldl (extractStep paneId) ([], none)) =
    foldBlocks (marks.foldl (extractStep paneId) ([], none)) ++
      foldBlocks ((m :: marks').foldl (extractStep paneId) ([], none))
  rw [List.foldl_append, List.foldl_cons, extractStep_prompt paneId _ hm, foldl_shift]
  exact List.append_assoc _ _ _

theorem length_extract (paneId : ℕ) (marks : List SemanticMark) :
    (extractCommandBlocks paneId marks).length = (prompts marks).length := by
  simpa using congrArg List.length (promptRows_extract paneId marks)

/-- The marks before the first prompt, and the rest. -/
theorem exists_lead (marks : List SemanticMark) :
    ∃ lead rest, marks = lead ++ rest ∧ prompts lead = [] ∧
      ∀ m ∈ rest.head?, m.kind = .promptStart := by
  induction marks with
  | nil => exact ⟨[], [], rfl, rfl, by simp⟩
  | cons m marks ih =>
    by_cases hm : m.kind = .promptStart
    · exact ⟨[], m :: marks, rfl, rfl, by simpa using hm⟩
    · obtain ⟨lead, rest, rfl, hlead, hrest⟩ := ih
      exact ⟨m :: lead, rest, rfl, by rw [prompts_cons, hlead]; simp [prompts, hm], hrest⟩

theorem extract_append (paneId : ℕ) (marks : List SemanticMark) {marks' : List SemanticMark}
    (h : ∀ m ∈ marks'.head?, m.kind = .promptStart) :
    extractCommandBlocks paneId (marks ++ marks') =
      extractCommandBlocks paneId marks ++ extractCommandBlocks paneId marks' := by
  cases marks' with
  | nil => simp [extractCommandBlocks]
  | cons m marks' => exact extract_append_cons paneId marks (h m rfl) marks'

/-- Without the oldest marks, the blocks of their prompts are gone and the others are the same. -/
theorem extract_drop (paneId : ℕ) (marks : List SemanticMark) (n : ℕ) :
    extractCommandBlocks paneId (marks.drop n) =
      (extractCommandBlocks paneId marks).drop (prompts (marks.take n)).length := by
  obtain ⟨lead, rest, hdrop, hlead, hrest⟩ := exists_lead (marks.drop n)
  have hmarks : marks = (marks.take n ++ lead) ++ rest := by
    rw [List.append_assoc, ← hdrop, List.take_append_drop]
  have hfirst : (extractCommandBlocks paneId (marks.take n ++ lead)).length =
      (prompts (marks.take n)).length := by
    rw [length_extract, PaneState.prompts_append, hlead, List.append_nil]
  have hnone : extractCommandBlocks paneId lead = [] :=
    List.eq_nil_of_length_eq_zero (by rw [length_extract, hlead]; rfl)
  have hall := extract_append paneId (marks.take n ++ lead) hrest
  rw [← hmarks] at hall
  rw [hall, List.drop_left' hfirst, hdrop, extract_append paneId lead hrest, hnone, List.nil_append]

/-- **Extraction is local**: the blocks of two streams, the second of which starts with a prompt,
    are those of the first and then those of the second.  The `k`-th block belongs to the `k`-th
    prompt; when marks are dropped, be it by hand or at the cap, the blocks of the retained prompts
    are what they were. -/
theorem extractCommandBlocks_local (paneId : ℕ) :
    (∀ (marks : List SemanticMark) (m : SemanticMark) (marks' : List SemanticMark),
      m.kind = .promptStart →
        extractCommandBlocks paneId (marks ++ m :: marks') =
          extractCommandBlocks paneId marks ++ extractCommandBlocks paneId (m :: marks')) ∧
    (∀ marks : List SemanticMark,
      (extractCommandBlocks paneId marks).map CommandBlock.promptRow =
        (prompts marks).map SemanticMark.row) ∧
    (∀ (marks : List SemanticMark) (n : ℕ),
      extractCommandBlocks paneId (marks.drop n) =
        (extractCommandBlocks paneId marks).drop (prompts (marks.take n)).length) ∧
    ∀ (marks : List SemanticMark) (m : SemanticMark),
      extractCommandBlocks paneId (PaneState.addMark marks m) =
        (extractCommandBlocks paneId (marks ++ [m])).drop
          (prompts (marks.take (PaneState.shed marks))).length := by
  refine ⟨fun marks m marks' hm => extract_append_cons paneId marks hm marks',
    promptRows_extract paneId, extract_drop paneId, ?_⟩
  intro marks m
  have hle := PaneState.shed_le marks
  rw [PaneState.addMark_eq, ← List.drop_append_of_le_length hle, extract_drop,
    List.take_append_of_le_length hle]

/-! ## One block after the other -/

/-- The last row that a block is known to reach. -/
def CommandBlock.lastRow (b : CommandBlock) : ℕ := b.endRow.getD b.outputRow

/-- The blocks of a fold whose marks have come as far as `row`. -/
structure Ordered (row : ℕ) (state : List CommandBlock × Option CommandBlock) : Prop where
  spans : ∀ b ∈ foldBlocks state,
    b.promptRow ≤ b.outputRow ∧ b.outputRow ≤ b.lastRow ∧ b.lastRow ≤ row
  apart : (foldBlocks state).Pairwise fun b b' => b.lastRow ≤ b'.promptRow
  running : ∀ b, state.2 = some b → b.endRow = none

/-- The last block may grow, as long as its prompt stays where it is. -/
theorem Ordered.grow {row row' : ℕ} {blocks : List CommandBlock} {b : CommandBlock}
    (h : Ordered row (blocks, some b)) (b' : CommandBlock) (hrow : row ≤ row')
    (hprompt : b'.promptRow = b.promptRow)
    (houtput : b.promptRow ≤ b'.outputRow) (hlast : b'.outputRow ≤ b'.lastRow)
    (hend : b'.lastRow ≤ row') {state : List CommandBlock × Option CommandBlock}
    (hblocks : foldBlocks state = blocks ++ [b'])
    (hrunning : ∀ c, state.2 = some c → c.endRow = none) : Ordered row' state where
  spans := by
    intro c hc
    rw [hblocks] at hc
    rcases List.mem_append.1 hc with hc | hc
    · obtain ⟨h₁, h₂, h₃⟩ := h.spans c (List.mem_append_left _ hc)
      exact ⟨h₁, h₂, h₃.trans hrow⟩
    · obtain rfl := List.mem_singleton.1 hc
      exact ⟨hprompt ▸ houtput, hlast, hend⟩
  apart := by
    obtain ⟨hold, -, hnew⟩ := List.pairwise_append.1 h.apart
    rw [hblocks]
    refine List.pairwise_append.2 ⟨hold, List.pairwise_singleton _ _, ?_⟩
    rintro c hc c' hc'
    obtain rfl := List.mem_singleton.1 hc'
    exact hprompt ▸ hnew c hc b (List.mem_singleton_self b)
  running := hrunning

theorem Ordered.mono {row row' : ℕ} {state : List CommandBlock × Option CommandBlock}
    (h : Ordered row state) (hrow : row ≤ row') : Ordered row' state :=
  { h with spans := fun b hb =>
      ⟨(h.spans b hb).1, (h.spans b hb).2.1, (h.spans b hb).2.2.trans hrow⟩ }

/-- The output of the last block begins further down. -/
theorem Ordered.output {row row' : ℕ} {blocks : List CommandBlock} {b : CommandBlock}
    (h : Ordered row (blocks, some b)) (hrow : row ≤ row') {b' : CommandBlock}
    (hprompt : b'.promptRow = b.promptRow) (houtput : b'.outputRow = row')
    (hend : b'.endRow = none) : Ordered row' (blocks, some b') := by
  have hb := h.spans b (by simp [foldBlocks])
  have hlast : b'.lastRow = row' := by
    rw [CommandBlock.lastRow, hend, Option.getD_none, houtput]
  refine h.grow b' hrow hprompt ?_ ?_ hlast.le (by simp [foldBlocks]) ?_
  · rw [houtput]
    exact (hb.1.trans (hb.2.1.trans hb.2.2)).trans hrow
  · rw [houtput, hlast]
  · rintro c hc
    obtain rfl := Option.some.inj hc
    exact hend

/-- A mark that is not before the others keeps the order. -/
theorem Ordered.step {row : ℕ} {state : List CommandBlock × Option CommandBlock}
    (h : Ordered row state) {m : SemanticMark} (hm : row ≤ m.row) :
    Ordered m.row (extractStep paneId state m) := by
  obtain ⟨blocks, current⟩ := state
  cases hkind : m.kind with
  | promptStart =>
    have hblocks : foldBlocks (extractStep paneId (blocks, current) m) =
        foldBlocks (blocks, current) ++ [.start paneId m.row] := by
      simp [foldBlocks, extractStep, hkind]
    refine ⟨fun b hb => ?_, ?_, ?_⟩
    · rw [hblocks] at hb
      rcases List.mem_append.1 hb with hb | hb
      · exact (h.mono hm).spans b hb
      · obtain rfl := List.mem_singleton.1 hb
        simp [CommandBlock.start, CommandBlock.lastRow]
    · rw [hblocks]
      refine List.pairwise_append.2 ⟨h.apart, List.pairwise_singleton _ _, ?_⟩
      rintro b hb b' hb'
      obtain rfl := List.mem_singleton.1 hb'
      exact (h.spans b hb).2.2.trans hm
    · rintro b hb
      obtain rfl : CommandBlock.start paneId m.row = b := by simpa [extractStep, hkind] using hb
      rfl
  | commandStart =>
    cases current with
    | none => simpa [extractStep, hkind] using h.mono hm
    | some b =>
      have hstep : extractStep paneId (blocks, some b) m =
          (blocks, some { b with commandRow := m.row, outputRow := m.row }) := by
        simp [extractStep, hkind]
      rw [hstep]
      exact h.output hm rfl rfl (h.running b rfl)
  | outputStart =>
    cases current with
    | none => simpa [extractStep, hkind] using h.mono hm
    | some b =>
      have hstep : extractStep paneId (blocks, some b) m =
          (blocks, some { b with outputRow := m.row }) := by
        simp [extractStep, hkind]
      rw [hstep]
      exact h.output hm rfl rfl (h.running b rfl)
  | commandEnd =>
    cases current with
    | none => simpa [extractStep, hkind] using h.mono hm
    | some b =>
      have hb := h.spans b (by simp [foldBlocks])
      refine h.grow { b with endRow := some m.row, exitCode := m.exitCode } hm rfl hb.1 ?_ le_rfl
        (by simp [extractStep, foldBlocks, hkind]) ?_
      · exact (hb.2.1.trans hb.2.2).trans hm
      · simp [extractStep, hkind]

theorem Ordered.foldl {row : ℕ} {state : List CommandBlock × Option CommandBlock}
    (h : Ordered row state) (hrows : marks.Pairwise fun m m' => m.row ≤ m'.row)
    (hrow : ∀ m ∈ marks, row ≤ m.row) :
    ∃ row', Ordered row' (marks.foldl (extractStep paneId) state) := by
  induction marks generalizing row state with
  | nil => exact ⟨row, h⟩
  | cons m marks ih =>
    obtain ⟨hm, hrows⟩ := List.pairwise_cons.1 hrows
    exact ih (h.step (hrow m List.mem_cons_self)) hrows hm

/-- In a list of blocks the rows of each are in order, and the last row of each is not after the
    prompt of the next. -/
structure InOrder (blocks : List CommandBlock) : Prop where
  spans : ∀ b ∈ blocks, b.promptRow ≤ b.outputRow ∧ b.outputRow ≤ b.lastRow
  apart : blocks.Pairwise fun b b' => b.lastRow ≤ b'.promptRow

theorem inOrder_extract (hrows : marks.Pairwise fun m m' => m.row ≤ m'.row) :
    InOrder (extractCommandBlocks paneId marks) := by
  have hstart : Ordered 0 (([], none) : List CommandBlock × Option CommandBlock) :=
    ⟨by simp [foldBlocks], List.Pairwise.nil, by simp⟩
  obtain ⟨row, h⟩ : ∃ row, Ordered row (marks.foldl (extractStep paneId) ([], none)) :=
    hstart.foldl hrows fun _ _ => Nat.zero_le _
  exact ⟨fun b hb => ⟨(h.spans b hb).1, (h.spans b hb).2.1⟩, h.apart⟩

/-! ## What collapsing hides -/

/-- Is this a collapsed and finished block with the row between its prompt and its end? -/
def CommandBlock.covers (row : ℕ) (b : CommandBlock) : Bool :=
  b.collapsed && b.endRow.any fun endRow => b.promptRow ≤ row && row ≤ endRow

theorem CommandBlock.covers_iff {row : ℕ} {b : CommandBlock} : b.covers row = true ↔
    b.collapsed = true ∧ ∃ endRow, b.endRow = some endRow ∧ b.promptRow ≤ row ∧ row ≤ endRow := by
  simp [covers, Option.any_eq_true]

/-- The first block that covers the row decides. -/
theorem isRowCollapsed_eq (blocks : List CommandBlock) (row : ℕ) :
    isRowCollapsed blocks row =
      (blocks.find? (·.covers row)).any fun b => row ≠ b.promptRow ∧ row ≠ b.outputRow := by
  induction blocks with
  | nil => rfl
  | cons b blocks ih =>
    rw [isRowCollapsed, List.find?_cons]
    cases hcollapsed : b.collapsed with
    | false => simpa [CommandBlock.covers, hcollapsed] using ih
    | true =>
      cases hend : b.endRow with
      | none => simpa [CommandBlock.covers, hcollapsed, hend] using ih
      | some endRow =>
        by_cases hrow : row < b.promptRow ∨ row > endRow
        · have hnot : b.covers row = false := by
            simp [CommandBlock.covers, hcollapsed, hend]
            omega
          simpa [hnot, hrow] using ih
        · have hcovers : b.covers row = true := by
            simp [CommandBlock.covers, hcollapsed, hend]
            omega
          by_cases hhead : row = b.promptRow ∨ row = b.outputRow
          · simpa [hcovers, hrow, hhead] using fun h => hhead.resolve_left h
          · simp [hcovers, hrow, not_or.1 hhead]

/-- A hidden row lies in a collapsed block that no earlier one covers, past its prompt and off its
    first output row. -/
theorem isRowCollapsed_iff {blocks : List CommandBlock} {row : ℕ} :
    isRowCollapsed blocks row = true ↔ ∃ (i : ℕ) (b : CommandBlock), blocks[i]? = some b ∧
      b.covers row = true ∧ row ≠ b.promptRow ∧ row ≠ b.outputRow ∧
        ∀ (j : ℕ) (b' : CommandBlock), j < i → blocks[j]? = some b' → b'.covers row = false := by
  rw [isRowCollapsed_eq, Option.any_eq_true]
  constructor
  · rintro ⟨b, hfind, hrow⟩
    obtain ⟨hcovers, i, hi, rfl, hfirst⟩ := List.find?_eq_some_iff_getElem.1 hfind
    have hoff := of_decide_eq_true hrow
    refine ⟨i, blocks[i], List.getElem?_eq_getElem hi, hcovers, hoff.1, hoff.2, ?_⟩
    rintro j b' hj hb'
    obtain ⟨hlt, rfl⟩ := List.getElem?_eq_some_iff.1 hb'
    simpa using hfirst j hj
  · rintro ⟨i, b, hb, hcovers, hprompt, houtput, hfirst⟩
    obtain ⟨hi, rfl⟩ := List.getElem?_eq_some_iff.1 hb
    refine ⟨blocks[i], List.find?_eq_some_iff_getElem.2 ⟨hcovers, i, hi, rfl, ?_⟩,
      decide_eq_true ⟨hprompt, houtput⟩⟩
    intro j hj
    simpa using hfirst j blocks[j] hj (List.getElem?_eq_getElem (hj.trans hi))

/-- Is the row in the range of the block?  A running block has no end yet. -/
def CommandBlock.Contains (b : CommandBlock) (row : ℕ) : Prop :=
  b.promptRow ≤ row ∧ ∀ endRow, b.endRow = some endRow → row ≤ endRow

/-- **Collapsing hides inner output only**: neither prompt rows nor first output rows, nothing where
    no collapsed block is, and all the other rows of the finished collapsed blocks. -/
structure HidesInner (blocks : List CommandBlock) : Prop where
  prompt : ∀ b ∈ blocks, isRowCollapsed blocks b.promptRow = false
  output : ∀ b ∈ blocks, isRowCollapsed blocks b.outputRow = false
  expanded : ∀ row : ℕ, (∃ b ∈ blocks, b.Contains row) →
    (∀ b ∈ blocks, b.Contains row → b.collapsed = false) → isRowCollapsed blocks row = false
  inner : ∀ b ∈ blocks, b.collapsed = true → ∀ endRow, b.endRow = some endRow →
    ∀ row, b.promptRow ≤ row → row ≤ endRow →
      (∀ b' ∈ blocks, row ≠ b'.promptRow ∧ row ≠ b'.outputRow) → isRowCollapsed blocks row = true

/-- If the block is collapsed and ends on the row where the other has its prompt, then the row is
    one that the block shows. -/
def SharesShown (b b' : CommandBlock) : Prop :=
  b.collapsed = true → b.endRow = some b'.promptRow →
    b'.promptRow = b.promptRow ∨ b'.promptRow = b.outputRow

theorem CommandBlock.covers_lastRow {row : ℕ} {b : CommandBlock} (h : b.covers row = true) :
    b.collapsed = true ∧ b.endRow = some b.lastRow ∧ b.promptRow ≤ row ∧ row ≤ b.lastRow := by
  obtain ⟨hcollapsed, endRow, hend, hrow⟩ := covers_iff.1 h
  simpa [lastRow, hend, hcollapsed] using hrow

/-- A row of no other blocks than expanded ones is shown, and a row that no block shows is hidden,
    in whatever order the blocks come. -/
theorem isRowCollapsed_expanded {blocks : List CommandBlock} {row : ℕ}
    (h : ∀ b ∈ blocks, b.Contains row → b.collapsed = false) :
    isRowCollapsed blocks row = false := by
  by_contra hhidden
  obtain ⟨i, b, hb, hcovers, -⟩ := isRowCollapsed_iff.1 (Bool.not_eq_false _ ▸ hhidden)
  obtain ⟨hcollapsed, endRow, hend, hrow⟩ := CommandBlock.covers_iff.1 hcovers
  have hexpanded := h b (List.mem_of_getElem? hb)
    ⟨hrow.1, fun e he => by rw [hend, Option.some.injEq] at he; exact he ▸ hrow.2⟩
  rw [hcollapsed] at hexpanded
  cases hexpanded

theorem isRowCollapsed_inner {blocks : List CommandBlock} {row : ℕ}
    (hcovers : ∃ b ∈ blocks, b.covers row = true)
    (hshown : ∀ b ∈ blocks, row ≠ b.promptRow ∧ row ≠ b.outputRow) :
    isRowCollapsed blocks row = true := by
  obtain ⟨b, hfind⟩ := Option.isSome_iff_exists.1 (List.find?_isSome.2 hcovers)
  rw [isRowCollapsed_eq, hfind]
  simpa using hshown b (List.mem_of_find?_eq_some hfind)

/-- Blocks that come in order hide inner output only, unless one hides a row that it shares with
    the prompt of another. -/
theorem hidesInner_iff {blocks : List CommandBlock} (h : InOrder blocks) :
    HidesInner blocks ↔ blocks.Pairwise SharesShown := by
  have hapart : ∀ {i j : ℕ} {b b' : CommandBlock}, i < j → blocks[i]? = some b →
      blocks[j]? = some b' → b.lastRow ≤ b'.promptRow := by
    intro i j b b' hij hb hb'
    obtain ⟨hi, rfl⟩ := List.getElem?_eq_some_iff.1 hb
    obtain ⟨hj, rfl⟩ := List.getElem?_eq_some_iff.1 hb'
    exact List.pairwise_iff_getElem.1 h.apart i j hi hj hij
  constructor
  · intro hhides
    refine List.pairwise_iff_getElem.2 ?_
    intro i j hi hj hij hcollapsed hend
    by_contra hoff
    obtain ⟨hprompt, houtput⟩ := not_or.1 hoff
    have hlast : blocks[i].lastRow = blocks[j].promptRow := by simp [CommandBlock.lastRow, hend]
    obtain ⟨hspan, hspan'⟩ := h.spans blocks[i] (List.getElem_mem hi)
    -- no earlier block reaches the shared row
    have hfirst : ∀ (k : ℕ) (b : CommandBlock), k < i → blocks[k]? = some b →
        b.covers blocks[j].promptRow = false := by
      intro k b hk hb
      by_contra hcovers
      have hreach := (CommandBlock.covers_lastRow (Bool.not_eq_false _ ▸ hcovers)).2.2.2
      have hbefore := hapart hk hb (List.getElem?_eq_getElem hi)
      omega
    have hhidden : isRowCollapsed blocks blocks[j].promptRow = true :=
      isRowCollapsed_iff.2 ⟨i, blocks[i], List.getElem?_eq_getElem hi,
        CommandBlock.covers_iff.2 ⟨hcollapsed, _, hend, by omega, le_rfl⟩, hprompt, houtput, hfirst⟩
    rw [hhides.prompt blocks[j] (List.getElem_mem hj)] at hhidden
    cases hhidden
  · intro hshares
    -- a hidden row that is the prompt or the first output row of a block
    have hnone : ∀ b ∈ blocks, ∀ row, row = b.promptRow ∨ row = b.outputRow →
        isRowCollapsed blocks row = false := by
      intro b hb row hrow
      by_contra hhidden
      obtain ⟨i, c, hc, hcovers, hprompt, houtput, -⟩ :=
        isRowCollapsed_iff.1 (Bool.not_eq_false _ ▸ hhidden)
      obtain ⟨hcollapsed, hend, hfrom, hto⟩ := CommandBlock.covers_lastRow hcovers
      obtain ⟨j, hj, rfl⟩ := List.getElem_of_mem hb
      obtain ⟨hspan, hspan'⟩ := h.spans blocks[j] (List.getElem_mem hj)
      rcases Nat.lt_trichotomy i j with hij | rfl | hij
      · have hbefore := hapart hij hc (List.getElem?_eq_getElem hj)
        obtain ⟨hi, rfl⟩ := List.getElem?_eq_some_iff.1 hc
        have hlast : blocks[i].lastRow = blocks[j].promptRow := by omega
        have hshare := List.pairwise_iff_getElem.1 hshares i j hi hj hij hcollapsed (hlast ▸ hend)
        omega
      · obtain rfl : blocks[i] = c := by simpa [List.getElem?_eq_getElem hj] using hc
        omega
      · have hbefore := hapart hij (List.getElem?_eq_getElem hj) hc
        omega
    exact {
      prompt := fun b hb => hnone b hb _ (.inl rfl)
      output := fun b hb => hnone b hb _ (.inr rfl)
      expanded := fun row _ hrow => isRowCollapsed_expanded hrow
      inner := fun b hb hcollapsed endRow hend row hfrom hto hrow =>
        isRowCollapsed_inner
          ⟨b, hb, CommandBlock.covers_iff.2 ⟨hcollapsed, endRow, hend, hfrom, hto⟩⟩ hrow }

/-- The blocks with the flags that the user has chosen. -/
def withCollapsed (flags : ℕ → Bool) (blocks : List CommandBlock) : List CommandBlock :=
  blocks.mapIdx fun i b => { b with collapsed := flags i }

theorem InOrder.withCollapsed {blocks : List CommandBlock} (h : InOrder blocks)
    (flags : ℕ → Bool) : InOrder (withCollapsed flags blocks) where
  spans := by
    intro b hb
    obtain ⟨i, hi, rfl⟩ := List.mem_mapIdx.1 hb
    exact h.spans blocks[i] (List.getElem_mem hi)
  apart := by
    refine List.pairwise_iff_getElem.2 ?_
    intro i j hi hj hij
    simp only [Client.withCollapsed, List.length_mapIdx] at hi hj
    simpa [Client.withCollapsed, CommandBlock.lastRow] using
      List.pairwise_iff_getElem.1 h.apart i j hi hj hij

/-- The blocks of marks that come in order, with any flags, hide inner output only if and only if
    no collapsed block ends on the prompt row of a later block, unless it shows that row itself. -/
theorem withCollapsed_hidesInner_iff (paneId : ℕ) (marks : List SemanticMark) (flags : ℕ → Bool)
    (hrows : marks.Pairwise fun m m' => m.row ≤ m'.row) :
    HidesInner (withCollapsed flags (extractCommandBlocks paneId marks)) ↔
      (withCollapsed flags (extractCommandBlocks paneId marks)).Pairwise SharesShown :=
  hidesInner_iff ((inOrder_extract hrows).withCollapsed flags)

/-- A command whose end comes at the scrollback length of the next prompt, as it does when the shell
    writes both marks at once. -/
def sharedRow : List SemanticMark :=
  [⟨0, .promptStart, none⟩, ⟨1, .outputStart, none⟩, ⟨3, .commandEnd, some 0⟩,
    ⟨3, .promptStart, none⟩]

theorem sharedRow_pairwise : sharedRow.Pairwise fun m m' => m.row ≤ m'.row := by decide

/-- With the first block collapsed the prompt of the second is gone, -/
theorem sharedRow_hidden : ¬ ∀ (marks : List SemanticMark) (flags : ℕ → Bool),
    marks.Pairwise (fun m m' => m.row ≤ m'.row) →
      HidesInner (withCollapsed flags (extractCommandBlocks 1 marks)) := by
  intro h
  have hprompt := (h sharedRow (fun i => i == 0) sharedRow_pairwise).prompt
    (CommandBlock.start 1 3) (by decide)
  exact absurd hprompt (by decide)

/-- and with the prompt one row further down it is there. -/
theorem apartRow_shown :
    HidesInner (withCollapsed (fun i => i == 0) (extractCommandBlocks 1
      [⟨0, .promptStart, none⟩, ⟨1, .outputStart, none⟩, ⟨3, .commandEnd, some 0⟩,
        ⟨4, .promptStart, none⟩])) := by
  refine (withCollapsed_hidesInner_iff 1 _ (fun i => i == 0) (by decide)).2 ?_
  refine List.pairwise_pair.2 ?_
  rintro - hend
  cases hend

end Nexterm.Client

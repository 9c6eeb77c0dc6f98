/-
  Command blocks (`command_blocks.rs`): the OSC 133 marks of a pane, folded into one block for each
  prompt.

  * `extractCommandBlocks`: the fold.
  * `prompts`, `ids_extract`: the blocks belong to the prompt marks, one each and in order.
  * `isRowCollapsed`: the rows that a collapsed block hides.
-/
import Mathlib.Algebra.Ring.Nat
import Mathlib.Data.List.Basic
import Mathlib.Tactic.Common

namespace Nexterm.Client

/-- OSC 133 mark kind. -/
inductive SemanticMarkKind
  | promptStart
  | commandStart
  | outputStart
  | commandEnd
  deriving DecidableEq, Repr

/-- Decode the single-character kind string received over IPC. -/
def SemanticMarkKind.fromIpc (kind : String) : Option SemanticMarkKind :=
  if kind = "A" then some .promptStart
  else if kind = "B" then some .commandStart
  else if kind = "C" then some .outputStart
  else if kind = "D" then some .commandEnd
  else none

/-- A mark of a pane; `row` is the length of the scrollback when it arrived. -/
structure SemanticMark where
  row : ℕ
  kind : SemanticMarkKind
  exitCode : Option Int32
  deriving DecidableEq

/-- Construct a block id from its parts: the pane id and the low 32 bits of the prompt row. -/
def makeBlockId (paneId promptRow : ℕ) : ℕ := paneId <<< 32 ||| promptRow % 2 ^ 32

/-- A logical command block. -/
structure CommandBlock where
  id : ℕ
  paneId : ℕ
  promptRow : ℕ
  commandRow : ℕ
  outputRow : ℕ
  /-- `none` while the command is still running. -/
  endRow : Option ℕ
  exitCode : Option Int32
  collapsed : Bool
  deriving DecidableEq

/-- The block that a prompt opens. -/
def CommandBlock.start (paneId row : ℕ) : CommandBlock where
  id := makeBlockId paneId row
  paneId := paneId
  promptRow := row
  commandRow := row
  outputRow := row
  endRow := none
  exitCode := none
  collapsed := false

/-- One step of the fold over the marks: the finished blocks and the current one. -/
def extractStep (paneId : ℕ) (state : List CommandBlock × Option CommandBlock) (m : SemanticMark) :
    List CommandBlock × Option CommandBlock :=
  let (blocks, current) := state
  match m.kind with
  | .promptStart => (blocks ++ current.toList, some (.start paneId m.row))
  | .commandStart =>
    (blocks, current.map fun b => { b with commandRow := m.row, outputRow := m.row })
  | .outputStart => (blocks, current.map fun b => { b with outputRow := m.row })
  | .commandEnd =>
    (blocks ++ (current.map fun b =>
      { b with endRow := some m.row, exitCode := m.exitCode }).toList, none)

/-- Fold a marker stream into command blocks. -/
def extractCommandBlocks (paneId : ℕ) (marks : List SemanticMark) : List CommandBlock :=
  let (blocks, current) := marks.foldl (extractStep paneId) ([], none)
  blocks ++ current.toList

/-- Does the row sit inside a collapsed block, between its prompt and output rows and its end? -/
def isRowCollapsed : List CommandBlock → ℕ → Bool
  | [], _ => false
  | b :: blocks, absRow =>
    match b.collapsed, b.endRow with
    | true, some endRow =>
      if absRow < b.promptRow ∨ absRow > endRow then isRowCollapsed blocks absRow
      else if absRow = b.promptRow ∨ absRow = b.outputRow then false
      else true
    | _, _ => isRowCollapsed blocks absRow

/-! ## One block for each prompt -/

theorem makeBlockId_inj {paneId row row' : ℕ} :
    makeBlockId paneId row = makeBlockId paneId row' ↔ row % 2 ^ 32 = row' % 2 ^ 32 := by
  have hadd : ∀ row, makeBlockId paneId row = paneId <<< 32 + row % 2 ^ 32 := fun row =>
    (Nat.shiftLeft_add_eq_or_of_lt (Nat.mod_lt _ (by decide)) paneId).symm
  rw [hadd, hadd, Nat.add_left_cancel_iff]

/-- The prompt marks. -/
def prompts (marks : List SemanticMark) : List SemanticMark :=
  marks.filter (·.kind = .promptStart)

theorem prompts_cons (m : SemanticMark) (marks : List SemanticMark) :
    prompts (m :: marks) = prompts [m] ++ prompts marks :=
  List.filter_append [m] marks

/-- The blocks of a fold in progress. -/
def foldBlocks (state : List CommandBlock × Option CommandBlock) : List CommandBlock :=
  state.1 ++ state.2.toList

/-- One mark opens a block exactly when it is a prompt; the id and the prompt row of a block stay
    what they are, and so does all that is made from them, -/
theorem extractStep_map {α : Type} (f : CommandBlock → α)
    (hf : ∀ b b' : CommandBlock, b'.id = b.id → b'.promptRow = b.promptRow → f b' = f b)
    (paneId : ℕ) (state : List CommandBlock × Option CommandBlock) (m : SemanticMark) :
    (foldBlocks (extractStep paneId state m)).map f =
      (foldBlocks state).map f ++ (prompts [m]).map fun m => f (.start paneId m.row) := by
  obtain ⟨blocks, current⟩ := state
  cases hkind : m.kind with
  | promptStart => simp [foldBlocks, extractStep, prompts, hkind]
  | commandStart =>
    cases current with
    | none => simp [foldBlocks, extractStep, prompts, hkind]
    | some b =>
      have hb := hf b { b with commandRow := m.row, outputRow := m.row } rfl rfl
      simp [foldBlocks, extractStep, prompts, hkind, hb]
  | outputStart =>
    cases current with
    | none => simp [foldBlocks, extractStep, prompts, hkind]
    | some b =>
      have hb := hf b { b with outputRow := m.row } rfl rfl
      simp [foldBlocks, extractStep, prompts, hkind, hb]
  | commandEnd =>
    cases current with
    | none => simp [foldBlocks, extractStep, prompts, hkind]
    | some b =>
      have hb := hf b { b with endRow := some m.row, exitCode := m.exitCode } rfl rfl
      simp [foldBlocks, extractStep, prompts, hkind, hb]

/-- and no mark collapses one. -/
theorem extractStep_expanded (paneId : ℕ) (state : List CommandBlock × Option CommandBlock)
    (m : SemanticMark) (hstate : ∀ b ∈ foldBlocks state, b.collapsed = false) :
    ∀ b ∈ foldBlocks (extractStep paneId state m), b.collapsed = false := by
  obtain ⟨blocks, current⟩ := state
  have hold : ∀ b ∈ blocks, b.collapsed = false := fun b hb =>
    hstate b (List.mem_append_left _ hb)
  have hcurrent : ∀ b, current = some b → b.collapsed = false := fun b hb =>
    hstate b (List.mem_append_right _ (by simp [hb]))
  intro b hb
  cases hkind : m.kind with
  | promptStart =>
    obtain hb | hb | rfl : b ∈ blocks ∨ current = some b ∨ b = .start paneId m.row := by
      simpa [foldBlocks, extractStep, hkind, or_assoc] using hb
    · exact hold b hb
    · exact hcurrent b hb
    · rfl
  | commandStart =>
    obtain hb | ⟨b', hb', rfl⟩ : b ∈ blocks ∨ ∃ b', current = some b' ∧
        { b' with commandRow := m.row, outputRow := m.row } = b := by
      simpa [foldBlocks, extractStep, hkind] using hb
    exacts [hold b hb, hcurrent b' hb']
  | outputStart =>
    obtain hb | ⟨b', hb', rfl⟩ : b ∈ blocks ∨ ∃ b', current = some b' ∧
        { b' with outputRow := m.row } = b := by
      simpa [foldBlocks, extractStep, hkind] using hb
    exacts [hold b hb, hcurrent b' hb']
  | commandEnd =>
    obtain hb | ⟨b', hb', rfl⟩ : b ∈ blocks ∨ ∃ b', current = some b' ∧
        { b' with endRow := some m.row, exitCode := m.exitCode } = b := by
      simpa [foldBlocks, extractStep, hkind] using hb
    exacts [hold b hb, hcurrent b' hb']

theorem foldl_map {α : Type} (f : CommandBlock → α)
    (hf : ∀ b b' : CommandBlock, b'.id = b.id → b'.promptRow = b.promptRow → f b' = f b)
    (paneId : ℕ) (marks : List SemanticMark) (state : List CommandBlock × Option CommandBlock) :
    (foldBlocks (marks.foldl (extractStep paneId) state)).map f =
      (foldBlocks state).map f ++ (prompts marks).map fun m => f (.start paneId m.row) := by
  induction marks generalizing state with
  | nil => exact (List.append_nil _).symm
  | cons m marks ih =>
    rw [List.foldl_cons, ih, extractStep_map f hf, prompts_cons m marks, List.map_append,
      List.append_assoc]

theorem foldl_expanded (paneId : ℕ) (marks : List SemanticMark)
    (state : List CommandBlock × Option CommandBlock)
    (hstate : ∀ b ∈ foldBlocks state, b.collapsed = false) :
    ∀ b ∈ foldBlocks (marks.foldl (extractStep paneId) state), b.collapsed = false := by
  induction marks generalizing state with
  | nil => exact hstate
  | cons m marks ih => exact ih _ (extractStep_expanded paneId state m hstate)

/-- **The ids of the blocks** are made from the rows of the prompts. -/
theorem ids_extract (paneId : ℕ) (marks : List SemanticMark) :
    (extractCommandBlocks paneId marks).map CommandBlock.id =
      (prompts marks).map fun m => makeBlockId paneId m.row :=
  foldl_map CommandBlock.id (fun _ _ hid _ => hid) paneId marks ([], none)

theorem promptRows_extract (paneId : ℕ) (marks : List SemanticMark) :
    (extractCommandBlocks paneId marks).map CommandBlock.promptRow =
      (prompts marks).map SemanticMark.row :=
  foldl_map CommandBlock.promptRow (fun _ _ _ hrow => hrow) paneId marks ([], none)

theorem collapsed_extract (paneId : ℕ) (marks : List SemanticMark) :
    ∀ b ∈ extractCommandBlocks paneId marks, b.collapsed = false :=
  foldl_expanded paneId marks ([], none) (fun _ h => nomatch h)

end Nexterm.Client

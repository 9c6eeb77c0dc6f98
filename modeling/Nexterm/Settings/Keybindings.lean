/-
  The key bindings of the settings panel (`settings/keybindings.rs`, `settings/keybindings_edit.rs`).

  * `KeyPanel`, `KeyOp`, `step`: the list of bindings and its dialogs.
  * `known_run`: an action in the list is one that is dispatched, or was there before.
-/
import Nexterm.Settings.Save

namespace Nexterm.Settings

/-- Edit state for the key string of the selected binding. -/
inductive KeyEditMode
  | record
  | text (buffer : String)
  deriving DecidableEq

/-- The Keybindings category of the settings panel. -/
structure KeyPanel where
  keybindings : List KeyBinding
  selectedKeyIndex : ℕ
  focusedWidgetIndex : ℕ
  keyEditing : Option KeyEditMode
  keyDeleteDialogOpen : Bool
  keyDeleteDialogConfirmFocused : Bool
  dirty : Bool
  deriving DecidableEq

/-- Allowed action names. -/
def keybindingActions : List String :=
  ["Quit", "SearchScrollback", "SplitVertical", "SplitHorizontal", "FocusNextPane", "FocusPrevPane",
    "ClosePane", "NewWindow", "Detach", "CommandPalette", "SetBroadcastOn", "SetBroadcastOff",
    "ToggleZoom", "QuickSelect", "SwapPaneNext", "SwapPanePrev", "BreakPane", "ShowSettings",
    "ShowHostManager", "ShowMacroPicker", "SftpUploadDialog", "SftpDownloadDialog",
    "ConnectSerialPrompt", "JumpPrevPrompt", "JumpNextPrompt", "DetachToNewWindow",
    "CloseOsWindow"]

namespace KeyPanel

def ofKeys (keys : List KeyBinding) : KeyPanel :=
  { keybindings := keys
    selectedKeyIndex := 0
    focusedWidgetIndex := 0
    keyEditing := none
    keyDeleteDialogOpen := false
    keyDeleteDialogConfirmFocused := false
    dirty := false }

/-- Update the selected binding, if there is one. -/
def modifySelected (p : KeyPanel) (f : KeyBinding → KeyBinding) : KeyPanel :=
  if p.selectedKeyIndex < p.keybindings.length then
    { p with keybindings := p.keybindings.modify p.selectedKeyIndex f, dirty := true }
  else p

def beginKeyRecord (p : KeyPanel) : KeyPanel :=
  if p.selectedKeyIndex < p.keybindings.length then { p with keyEditing := some .record } else p

def beginKeyTextEdit (p : KeyPanel) : KeyPanel :=
  match p.keybindings[p.selectedKeyIndex]? with
  | some kb => { p with keyEditing := some (.text kb.key) }
  | none => p

/-- Toggle between Record and Text mode. -/
def toggleKeyEditMode (p : KeyPanel) : KeyPanel :=
  match p.keyEditing with
  | some .record =>
    let initial := ((p.keybindings[p.selectedKeyIndex]?).map (·.key)).getD ""
    { p with keyEditing := some (.text initial) }
  | some (.text _) => { p with keyEditing := some .record }
  | none => p

/-- In Record mode, set the key and leave edit mode. -/
def captureKeyRecord (p : KeyPanel) (formatted : String) : KeyPanel :=
  match p.keyEditing with
  | some .record => { p.modifySelected ({ · with key := formatted }) with keyEditing := none }
  | _ => p

/-- Commit the buffer; Record mode ends without a change. -/
def commitKeyEdit (p : KeyPanel) : KeyPanel :=
  match p.keyEditing with
  | some (.text buffer) => { p.modifySelected ({ · with key := buffer }) with keyEditing := none }
  | _ => { p with keyEditing := none }

/-- The action `d` places after the current one; an unknown one is followed by `dflt`. -/
def cycleAction (d dflt : ℕ) (kb : KeyBinding) : KeyBinding :=
  let i := match keybindingActions.idxOf? kb.action with
    | some i => (i + d) % keybindingActions.length
    | none => dflt
  { kb with action := keybindingActions.getD i "" }

def nextKeyAction (p : KeyPanel) : KeyPanel := p.modifySelected (cycleAction 1 0)

def prevKeyAction (p : KeyPanel) : KeyPanel :=
  p.modifySelected (cycleAction (keybindingActions.length - 1) (keybindingActions.length - 1))

/-- Append a binding and start recording its key. -/
def addKeyBinding (p : KeyPanel) : KeyPanel :=
  let keybindings := p.keybindings ++ [{ key := "", action := keybindingActions.getD 0 "" }]
  { p with
    keybindings := keybindings
    selectedKeyIndex := keybindings.length - 1
    focusedWidgetIndex := 1
    keyEditing := some .record
    dirty := true }

def openKeyDeleteDialog (p : KeyPanel) : KeyPanel :=
  if p.keybindings = [] then p
  else { p with keyDeleteDialogOpen := true, keyDeleteDialogConfirmFocused := false }

def cancelKeyDeleteDialog (p : KeyPanel) : KeyPanel :=
  { p with keyDeleteDialogOpen := false, keyDeleteDialogConfirmFocused := false }

/-- Delete the selected binding and close the dialog. -/
def confirmKeyDeleteDialog (p : KeyPanel) : KeyPanel :=
  let keybindings := p.keybindings.eraseIdx p.selectedKeyIndex
  cancelKeyDeleteDialog <|
    if p.selectedKeyIndex < p.keybindings.length then
      { p with
        keybindings := keybindings
        selectedKeyIndex :=
          if keybindings = [] then 0 else min p.selectedKeyIndex (keybindings.length - 1)
        focusedWidgetIndex := if keybindings = [] then 0 else p.focusedWidgetIndex
        dirty := true }
    else p

def setKeybindingKeyDirect (p : KeyPanel) (value : String) : KeyPanel :=
  if p.selectedKeyIndex < p.keybindings.length then
    { p.modifySelected ({ · with key := value }) with keyEditing := none }
  else p

def setKeybindingActionDirect (p : KeyPanel) (value : String) : KeyPanel :=
  if value ∈ keybindingActions then p.modifySelected ({ · with action := value }) else p

end KeyPanel

/-- An operation of the panel; `typeText` stands for any editing of the buffer. -/
inductive KeyOp
  | select (i : ℕ)
  | focus (i : ℕ)
  | beginKeyRecord
  | beginKeyTextEdit
  | toggleKeyEditMode
  | captureKeyRecord (formatted : String)
  | typeText (buffer : String)
  | commitKeyEdit
  | cancelKeyEdit
  | nextKeyAction
  | prevKeyAction
  | addKeyBinding
  | openKeyDeleteDialog
  | cancelKeyDeleteDialog
  | confirmKeyDeleteDialog
  | toggleKeyDeleteDialogFocus
  | setKeybindingKeyDirect (value : String)
  | setKeybindingActionDirect (value : String)

namespace KeyPanel

def step (p : KeyPanel) : KeyOp → KeyPanel
  | .select i => { p with selectedKeyIndex := i }
  | .focus i => { p with focusedWidgetIndex := i }
  | .beginKeyRecord => p.beginKeyRecord
  | .beginKeyTextEdit => p.beginKeyTextEdit
  | .toggleKeyEditMode => p.toggleKeyEditMode
  | .captureKeyRecord formatted => p.captureKeyRecord formatted
  | .typeText buffer =>
    { p with
      keyEditing := p.keyEditing.map fun
        | .record => .record
        | .text _ => .text buffer }
  | .commitKeyEdit => p.commitKeyEdit
  | .cancelKeyEdit => { p with keyEditing := none }
  | .nextKeyAction => p.nextKeyAction
  | .prevKeyAction => p.prevKeyAction
  | .addKeyBinding => p.addKeyBinding
  | .openKeyDeleteDialog => p.openKeyDeleteDialog
  | .cancelKeyDeleteDialog => p.cancelKeyDeleteDialog
  | .confirmKeyDeleteDialog => p.confirmKeyDeleteDialog
  | .toggleKeyDeleteDialogFocus =>
    { p with keyDeleteDialogConfirmFocused := !p.keyDeleteDialogConfirmFocused }
  | .setKeybindingKeyDirect value => p.setKeybindingKeyDirect value
  | .setKeybindingActionDirect value => p.setKeybindingActionDirect value

def run (p : KeyPanel) (ops : List KeyOp) : KeyPanel := ops.foldl step p

/-- Every action is dispatched, or is one of `others`. -/
def Known (others : List String) (p : KeyPanel) : Prop :=
  ∀ kb ∈ p.keybindings, kb.action ∈ keybindingActions ∨ kb.action ∈ others

variable {others : List String} {p : KeyPanel}

theorem Known.modifySelected (h : p.Known others) {f : KeyBinding → KeyBinding}
    (hf : ∀ kb, (f kb).action ∈ keybindingActions ∨ (f kb).action = kb.action) :
    (p.modifySelected f).Known others := by
  unfold KeyPanel.modifySelected
  split
  · intro kb hkb
    obtain ⟨i, hi⟩ := List.mem_iff_getElem?.1 hkb
    rw [List.getElem?_modify] at hi
    obtain ⟨kb₀, hkb₀, rfl⟩ := Option.map_eq_some_iff.1 hi
    have hold := h kb₀ (List.mem_of_getElem? hkb₀)
    split
    · rcases hf kb₀ with hnew | hsame
      · exact .inl hnew
      · rwa [hsame]
    · exact hold
  · exact h

theorem Known.sublist (h : p.Known others) {p' : KeyPanel}
    (hsub : p'.keybindings.Sublist p.keybindings) : p'.Known others :=
  fun kb hkb => h kb (hsub.subset hkb)

theorem cycleAction_known {d dflt : ℕ} (hdflt : dflt < keybindingActions.length) (kb : KeyBinding) :
    (cycleAction d dflt kb).action ∈ keybindingActions := by
  have hget : ∀ i < keybindingActions.length, keybindingActions.getD i "" ∈ keybindingActions := by
    intro i hi
    rw [List.getD_eq_getElem?_getD, List.getElem?_eq_getElem hi, Option.getD_some]
    exact List.getElem_mem hi
  unfold cycleAction
  cases keybindingActions.idxOf? kb.action with
  | none => exact hget dflt hdflt
  | some i => exact hget _ (Nat.mod_lt _ (by decide))

theorem Known.step (h : p.Known others) (op : KeyOp) : (p.step op).Known others := by
  cases op with
  | select | focus | typeText | cancelKeyEdit | cancelKeyDeleteDialog
  | toggleKeyDeleteDialogFocus => exact h
  | beginKeyRecord =>
    rw [KeyPanel.step, KeyPanel.beginKeyRecord]
    split <;> exact h
  | beginKeyTextEdit =>
    rw [KeyPanel.step, KeyPanel.beginKeyTextEdit]
    split <;> exact h
  | toggleKeyEditMode =>
    rw [KeyPanel.step, KeyPanel.toggleKeyEditMode]
    split <;> exact h
  | openKeyDeleteDialog =>
    rw [KeyPanel.step, KeyPanel.openKeyDeleteDialog]
    split <;> exact h
  | captureKeyRecord formatted =>
    rw [KeyPanel.step, KeyPanel.captureKeyRecord]
    split
    · exact h.modifySelected fun _ => .inr rfl
    · exact h
  | commitKeyEdit =>
    rw [KeyPanel.step, KeyPanel.commitKeyEdit]
    split
    · exact h.modifySelected fun _ => .inr rfl
    · exact h
  | setKeybindingKeyDirect value =>
    rw [KeyPanel.step, KeyPanel.setKeybindingKeyDirect]
    split
    · exact h.modifySelected fun _ => .inr rfl
    · exact h
  | setKeybindingActionDirect value =>
    rw [KeyPanel.step, KeyPanel.setKeybindingActionDirect]
    split
    · rename_i hvalue
      exact h.modifySelected fun _ => .inl hvalue
    · exact h
  | nextKeyAction => exact h.modifySelected fun kb => .inl (cycleAction_known (by decide) kb)
  | prevKeyAction => exact h.modifySelected fun kb => .inl (cycleAction_known (by decide) kb)
  | addKeyBinding =>
    refine List.forall_mem_append.2 ⟨h, ?_⟩
    rintro kb hkb
    rw [List.mem_singleton.1 hkb]
    exact .inl (by decide)
  | confirmKeyDeleteDialog =>
    rw [KeyPanel.step, KeyPanel.confirmKeyDeleteDialog]
    split
    · exact h.sublist (List.eraseIdx_sublist _ _)
    · exact h

/-- After any run, an action in the list is one that is dispatched, or was there before. -/
theorem known_run (keys : List KeyBinding) (ops : List KeyOp) :
    ((ofKeys keys).run ops).Known (keys.map (·.action)) := by
  have hstart : (ofKeys keys).Known (keys.map (·.action)) := fun kb hkb =>
    .inr (List.mem_map_of_mem hkb)
  unfold run
  generalize ofKeys keys = p at hstart
  induction ops generalizing p with
  | nil => exact hstart
  | cons op ops ih => exact ih (p.step op) (hstart.step op)

end KeyPanel

end Nexterm.Settings

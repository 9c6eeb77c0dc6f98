/-
  When the accessibility tree is stale: the client sends a new tree if what it hashes has changed.

  * `SameUnhashed`: what the tree shows and the hash leaves out, for two states.
  * `TreeUpdate.withoutElapsed`: the tree without the elapsed seconds of the offline bar.
-/
import Nexterm.A11y.Session
import Nexterm.A11y.Unhashed

namespace Nexterm.A11y

/-! ## Panes -/

/-- The texts of the exposed range of the scrollback. -/
def scrollbackTexts (pane : TreePane) : List (ℕ × String) :=
  (scrollbackLines pane).map fun entry => (entry.1, (cellsToRowTextWithLengths entry.2).1)

/-- A row, from its text. -/
def textRunNode (text : String) (live : Option Live) : Node :=
  { role := .textRun
    value := some text
    characterLengths := text.toList.map Char.utf8Size
    live := live }

theorem cellsToRowText_lengths (cells : List Vt.Cell) : (cellsToRowTextWithLengths cells).2 =
    (cellsToRowTextWithLengths cells).1.toList.map Char.utf8Size := by
  simp only [cellsToRowTextWithLengths]
  split_ifs
  · rfl
  · rw [String.toList_ofList]

theorem scrollbackRowNode_eq (line : List Vt.Cell) :
    scrollbackRowNode line = textRunNode (cellsToRowTextWithLengths line).1 none := by
  rw [scrollbackRowNode, cellsToRowText_lengths]
  rfl

theorem viewportRowNode_eq (isCursorRow : Bool) (grid : Vt.Grid) (row : ℕ) :
    viewportRowNode isCursorRow (paneRowTextWithLengths grid row) =
      textRunNode (paneRowText grid row) (if isCursorRow then some .polite else none) := by
  have hlengths : (paneRowTextWithLengths grid row).2 =
      (paneRowTextWithLengths grid row).1.toList.map Char.utf8Size := by
    unfold paneRowTextWithLengths
    cases grid.rows[row]? with
    | none => rfl
    | some cells => exact cellsToRowText_lengths cells
  rw [viewportRowNode, hlengths]
  rfl

theorem viewportRowCount_eq (grid : Vt.Grid) :
    viewportRowCount grid = min (gridRowTexts grid).length maxViewportRowsPerPane := by
  rw [gridRowTexts, List.length_map, List.length_range, viewportRowCount]

theorem paneRowText_eq {grid grid' : Vt.Grid} (h : gridRowTexts grid = gridRowTexts grid')
    {row : ℕ} (hrow : row < viewportRowCount grid) :
    paneRowText grid row = paneRowText grid' row := by
  have hrows (g : Vt.Grid) {r : ℕ} (hr : r < (gridRowTexts g).length) :
      (gridRowTexts g)[r]? = some (paneRowText g r) := by
    rw [gridRowTexts, List.length_map, List.length_range] at hr
    rw [gridRowTexts, List.getElem?_map, List.getElem?_range hr]
    rfl
  have hlt : row < (gridRowTexts grid).length := by
    rw [viewportRowCount_eq] at hrow
    exact lt_of_lt_of_le hrow (min_le_left _ _)
  have hget := hrows grid hlt
  rw [h, hrows grid' (h ▸ hlt)] at hget
  exact (Option.some.inj hget).symm

/-- Two panes with the same inputs and the same texts in their rows. -/
structure TreePane.SameInputs (p p' : TreePane) : Prop where
  hashed : hashPane p = hashPane p'
  texts : gridRowTexts p.grid = gridRowTexts p'.grid

theorem TreePane.SameInputs.fields {p p' : TreePane} (h : p.SameInputs p') :
    p.title = p'.title ∧ p.cwd = p'.cwd ∧ p.grid.cursorCol = p'.grid.cursorCol ∧
      p.grid.cursorRow = p'.grid.cursorRow := by
  have hhashed := h.hashed
  simp only [hashPane, List.cons.injEq, HashInput.str.injEq, HashInput.optStr.injEq,
    HashInput.u16.injEq] at hhashed
  exact ⟨hhashed.1, hhashed.2.1, hhashed.2.2.1, hhashed.2.2.2.1⟩

theorem TreePane.SameInputs.viewportRowCount_eq {p p' : TreePane} (h : p.SameInputs p') :
    viewportRowCount p.grid = viewportRowCount p'.grid := by
  rw [A11y.viewportRowCount_eq, A11y.viewportRowCount_eq, h.texts]

namespace ClientState

variable {s s' : ClientState} {id : PaneId} {p p' : TreePane}

/-- The rows of the grid. -/
def viewportNodes (s : ClientState) (id : PaneId) (p : TreePane) : List (ℕ × Node) :=
  (List.range (viewportRowCount p.grid)).map fun row =>
    (paneRowNodeId id row,
      viewportRowNode (s.isCursorRow id p row) (paneRowTextWithLengths p.grid row))

theorem viewportNodes_eq (id : PaneId) (hfocus : s.focusedPaneId = s'.focusedPaneId)
    (h : p.SameInputs p') :
    s.viewportNodes id p = s'.viewportNodes id p' := by
  obtain ⟨-, -, -, hcursor⟩ := h.fields
  unfold viewportNodes
  rw [h.viewportRowCount_eq]
  refine List.map_congr_left fun row hrow => ?_
  rw [List.mem_range, ← h.viewportRowCount_eq] at hrow
  simp only [viewportRowNode_eq, isCursorRow, hfocus, hcursor, paneRowText_eq h.texts hrow]

/-- The rows of the scrollback are determined by their places and texts, and determine them. -/
theorem scrollbackNodes_eq_iff (id : PaneId) :
    ((scrollbackLines p).map fun entry =>
        (paneScrollbackRowNodeId id entry.1, scrollbackRowNode entry.2)) =
      ((scrollbackLines p').map fun entry =>
        (paneScrollbackRowNodeId id entry.1, scrollbackRowNode entry.2)) ↔
    scrollbackTexts p = scrollbackTexts p' := by
  have hnodes (q : TreePane) : ((scrollbackLines q).map fun entry =>
      (paneScrollbackRowNodeId id entry.1, scrollbackRowNode entry.2)) =
      (scrollbackTexts q).map fun entry =>
        (paneScrollbackRowNodeId id entry.1, textRunNode entry.2 none) := by
    simp only [scrollbackTexts, List.map_map, Function.comp_def, scrollbackRowNode_eq]
  rw [hnodes, hnodes]
  refine (List.map_injective_iff.2 ?_).eq_iff
  rintro ⟨idx, text⟩ ⟨idx', text'⟩ h
  simp only [paneScrollbackRowNodeId, textRunNode, Prod.mk.injEq, Nat.add_left_cancel_iff,
    Node.mk.injEq, Option.some.injEq] at h
  rw [h.1, h.2.2.2.1]

theorem paneRowNodes_eq_iff (id : PaneId) (hfocus : s.focusedPaneId = s'.focusedPaneId)
    (h : p.SameInputs p') :
    s.paneRowNodes id p = s'.paneRowNodes id p' ↔ scrollbackTexts p = scrollbackTexts p' := by
  have hview := viewportNodes_eq id hfocus h
  rw [← scrollbackNodes_eq_iff id]
  constructor
  · intro hrows
    refine (List.append_inj' hrows ?_).1
    exact congrArg List.length hview
  · intro hscroll
    exact congrArg₂ (· ++ ·) hscroll hview

theorem paneNode_eq (hfocus : s.focusedPaneId = s'.focusedPaneId) (h : p.SameInputs p')
    (hrows : s.paneRowNodes id p = s'.paneRowNodes id p') : s.paneNode id p = s'.paneNode id p' := by
  obtain ⟨htitle, hcwd, hcol, hrow⟩ := h.fields
  have hcaret : s.paneTextSelection id p = s'.paneTextSelection id p' := by
    simp only [paneTextSelection, hfocus, hrow, hcol, h.viewportRowCount_eq]
    split_ifs with hshown
    · rw [paneRowText_eq h.texts (h.viewportRowCount_eq ▸ hshown.2)]
    · rfl
  simp only [paneNode, paneTitle, htitle, hcwd, hrows, hcaret]

theorem paneRowNodes_role {n : ℕ × Node} (hn : n ∈ s.paneRowNodes id p) : n.2.role = .textRun := by
  rcases List.mem_append.1 hn with hn | hn
  · obtain ⟨entry, -, rfl⟩ := List.mem_map.1 hn
    rfl
  · obtain ⟨row, -, rfl⟩ := List.mem_map.1 hn
    rfl

/-- The rows of a pane end at the node of the pane. -/
theorem takeWhile_paneRowNodes (n : ℕ × Node) (hn : n.2.role ≠ .textRun) (r : List (ℕ × Node)) :
    (s.paneRowNodes id p ++ n :: r).takeWhile (·.2.role = .textRun) = s.paneRowNodes id p := by
  rw [List.takeWhile_append_of_pos fun m hm => decide_eq_true (paneRowNodes_role hm),
    List.takeWhile_cons_of_neg (by simpa using hn), List.append_nil]

/-- The panes that are held by both clients have the same inputs. -/
def SamePane (s s' : ClientState) (id : PaneId) : Prop :=
  Option.Rel TreePane.SameInputs (s.panes.get id) (s'.panes.get id)

/-- The exposed texts of the scrollback of a pane. -/
def scrollbackOf (s : ClientState) (id : PaneId) : Option (List (ℕ × String)) :=
  (s.panes.get id).map scrollbackTexts

theorem paneNodes_eq (hfocus : s.focusedPaneId = s'.focusedPaneId) (h : SamePane s s' id)
    (hscroll : s.scrollbackOf id = s'.scrollbackOf id) : s.paneNodes id = s'.paneNodes id := by
  unfold SamePane at h
  unfold scrollbackOf at hscroll
  unfold paneNodes
  generalize s.panes.get id = o, s'.panes.get id = o' at h hscroll ⊢
  cases h with
  | none => rfl
  | some h =>
    have hrows := (paneRowNodes_eq_iff id hfocus h).2 (Option.some.inj hscroll)
    simp only [hrows, paneNode_eq hfocus h hrows]

theorem scrollbackOf_eq (hfocus : s.focusedPaneId = s'.focusedPaneId) (h : SamePane s s' id)
    {r r' : List (ℕ × Node)} (hnodes : s.paneNodes id ++ r = s'.paneNodes id ++ r') :
    s.scrollbackOf id = s'.scrollbackOf id := by
  unfold SamePane at h
  unfold scrollbackOf
  unfold paneNodes at hnodes
  generalize s.panes.get id = o, s'.panes.get id = o' at h hnodes ⊢
  cases h with
  | none => rfl
  | some h =>
    have hrows := congrArg (List.takeWhile (·.2.role = .textRun)) hnodes
    simp only [List.append_assoc, List.cons_append] at hrows
    rw [takeWhile_paneRowNodes _ (by simp [paneNode]),
      takeWhile_paneRowNodes _ (by simp [paneNode])] at hrows
    exact congrArg some ((paneRowNodes_eq_iff id hfocus h).1 hrows)

/-! ## Tabs -/

/-- The states agree on what the tabs and panes show and what is not hashed: the buttons of the
    title bar, the order of the tabs if none is set, the title of a pane that is not listed, and the
    text of the scrollback. -/
structure SameBase (s s' : ClientState) : Prop where
  windowButtonsVisible : s.windowButtonsVisible = s'.windowButtonsVisible
  effectiveTabOrder : s.effectiveTabOrder = s'.effectiveTabOrder
  paneHint : s.paneHint = s'.paneHint
  scrollback : ∀ id ∈ s.effectiveTabOrder, s.scrollbackOf id = s'.scrollbackOf id

theorem tabNodes_eq (hfocus : s.focusedPaneId = s'.focusedPaneId)
    (hpanes : ∀ id ∈ s.effectiveTabOrder, SamePane s s' id)
    (horder : s.effectiveTabOrder = s'.effectiveTabOrder) : s.tabNodes = s'.tabNodes := by
  unfold tabNodes
  rw [← horder]
  refine List.mapIdx_eq_mapIdx_iff.2 fun i hi => ?_
  have htitle : s.tabTitle s.effectiveTabOrder[i] = s'.tabTitle s.effectiveTabOrder[i] := by
    have h := hpanes _ (List.getElem_mem hi)
    unfold SamePane at h
    unfold tabTitle
    generalize s.panes.get _ = o, s'.panes.get _ = o' at h ⊢
    cases h with
    | none => rfl
    | some h => rw [Option.map_some, Option.map_some, h.fields.1]
  simp only [tabNode, htitle, hfocus]

theorem baseNodes_eq (hfocus : s.focusedPaneId = s'.focusedPaneId)
    (hpanes : ∀ id ∈ s.effectiveTabOrder, SamePane s s' id) (h : SameBase s s') :
    s.baseNodes = s'.baseNodes := by
  have htabs := tabNodes_eq hfocus hpanes h.effectiveTabOrder
  have hnodes : s'.effectiveTabOrder.flatMap s.paneNodes =
      s'.effectiveTabOrder.flatMap s'.paneNodes := by
    rw [← h.effectiveTabOrder]
    exact List.flatMap_congr fun id hid => paneNodes_eq hfocus (hpanes id hid) (h.scrollback id hid)
  simp only [baseNodes, tabBarNode, paneAreaNode, windowButtonNodes, inputBufferNode, htabs, hnodes,
    h.effectiveTabOrder, h.windowButtonsVisible, h.paneHint]

theorem paneNodeId_injective : Function.Injective paneNodeId := by
  intro id id' h
  exact UInt32.toNat_inj.1 (Nat.add_left_cancel h)

theorem sameBase_of_nodes (hfocus : s.focusedPaneId = s'.focusedPaneId)
    (hpanes : ∀ id ∈ s.effectiveTabOrder, SamePane s s' id) {r r' : List (ℕ × Node)}
    (h : s.baseNodes ++ r = s'.baseNodes ++ r') : SameBase s s' ∧ r = r' := by
  simp only [baseNodes, List.append_assoc, List.cons_append, List.nil_append, List.cons.injEq,
    Prod.mk.injEq, true_and] at h
  obtain ⟨htabBar, hpaneArea, h⟩ := h
  have horder : s.effectiveTabOrder = s'.effectiveTabOrder := by
    have hchildren := congrArg Node.children hpaneArea
    exact List.map_injective_iff.2 paneNodeId_injective (List.append_inj' hchildren rfl).1
  have hbuttons : s.windowButtonsVisible = s'.windowButtonsVisible := by
    have hchildren := congrArg Node.children htabBar
    simp only [tabBarNode, horder, List.append_cancel_left_eq] at hchildren
    cases hs : s.windowButtonsVisible <;> cases hs' : s'.windowButtonsVisible <;>
      simp_all [windowButtons]
  have hbuttonNodes : s.windowButtonNodes = s'.windowButtonNodes := by
    simp only [windowButtonNodes, hbuttons]
  rw [tabNodes_eq hfocus hpanes horder, hbuttonNodes, List.append_cancel_left_eq,
    List.append_cancel_left_eq, ← horder] at h
  have hscroll {id : PaneId} (hid : id ∈ s.effectiveTabOrder) (r r' : List (ℕ × Node))
      (hr : s.paneNodes id ++ r = s'.paneNodes id ++ r') : s.scrollbackOf id = s'.scrollbackOf id :=
    scrollbackOf_eq hfocus (hpanes id hid) hr
  obtain ⟨hagree, hrest⟩ := Delimited.flatMap_agree (fun id hid r r' hr =>
    paneNodes_eq hfocus (hpanes id hid) (hscroll hid r r' hr)) h
  simp only [List.cons.injEq, Prod.mk.injEq, true_and] at hrest
  have hhint : s.paneHint = s'.paneHint := by
    have hdesc := congrArg Node.description hrest.1
    simp only [inputBufferNode, Option.some.injEq, String.append_left_inj,
      String.append_right_inj] at hdesc
    exact hdesc
  exact ⟨⟨hbuttons, horder, hhint, fun id hid => hscroll hid [] []
    (congrArg (· ++ []) (hagree id hid))⟩, hrest.2⟩

theorem mem_hashedPanes : (id, p) ∈ s.hashedPanes ↔
    id ∈ s.effectiveTabOrder ∧ s.panes.get id = some p := by
  have horder (i : PaneId) : i ∈ (if s.tabOrder = [] then s.panes.keys.mergeSort (· ≤ ·)
      else s.tabOrder) ↔ i ∈ s.effectiveTabOrder := by
    unfold effectiveTabOrder
    split_ifs
    · exact List.mem_mergeSort
    · rfl
  simp only [hashedPanes, List.mem_filterMap, horder, Option.map_eq_some_iff, Prod.mk.injEq]
  constructor
  · rintro ⟨i, hi, q, hq, rfl, rfl⟩
    exact ⟨hi, hq⟩
  · rintro ⟨hid, hp⟩
    exact ⟨id, hid, p, hp, rfl, rfl⟩

/-- The same is hashed for the rows of the panes. -/
def SameRows (s s' : ClientState) : Prop :=
  ∀ id, (s.panes.get id).map (fun p => gridRowTexts p.grid) =
    (s'.panes.get id).map fun p => gridRowTexts p.grid

theorem samePane {loc : Locale} (h : SameInputs loc s s') (hrows : SameRows s s') (id : PaneId)
    (hid : id ∈ s.effectiveTabOrder) : SamePane s s' id := by
  have htexts := hrows id
  unfold SamePane
  cases hp : s.panes.get id with
  | none =>
    rw [hp] at htexts
    rw [Option.map_eq_none_iff.1 htexts.symm]
    exact .none
  | some p =>
    rw [hp] at htexts
    obtain ⟨p', hp', htext⟩ := Option.map_eq_some_iff.1 htexts.symm
    have hmem := List.mem_map_of_mem (f := fun e => (e.1, hashPane e.2))
      (mem_hashedPanes.2 ⟨hid, hp⟩)
    rw [h.panes] at hmem
    obtain ⟨⟨i, q⟩, hq, heq⟩ := List.mem_map.1 hmem
    obtain ⟨rfl, hhash⟩ := Prod.mk.inj heq
    have hget := (mem_hashedPanes.1 hq).2
    rw [hp'] at hget
    obtain rfl := Option.some.inj hget
    rw [hp']
    exact .some ⟨hhash.symm, htext.symm⟩

end ClientState

/-! ## Bars and alerts -/

/-- A node of a live bar of the offline kind: the node of an alert is not live. -/
def isOfflineBar (n : ℕ × Node) : Bool :=
  n.1 = infoBarNodeId .offline && n.2.role = .alert && n.2.live.isSome

/-- The elapsed seconds are the label of the offline bar. -/
def forgetElapsed (n : ℕ × Node) : ℕ × Node :=
  if isOfflineBar n then (n.1, { n.2 with label := none }) else n

def TreeUpdate.withoutElapsed (u : TreeUpdate) : TreeUpdate :=
  { u with nodes := u.nodes.map forgetElapsed }

theorem map_forgetElapsed {ns : List (ℕ × Node)}
    (h : ∀ n ∈ ns, n.2.role = .alert → n.2.live = none) : ns.map forgetElapsed = ns := by
  refine (List.map_congr_left fun n hn => ?_).trans (List.map_id ns)
  have hbar : isOfflineBar n = false := by
    by_cases hrole : n.2.role = .alert
    · simp [isOfflineBar, h n hn hrole]
    · simp [isOfflineBar, hrole]
  rw [forgetElapsed, hbar]
  rfl

/-- What a bar says; the text of the offline bar is its elapsed seconds. -/
def InfoBarKind.said (loc : Locale) : InfoBarKind → InfoBarSlot × Option String
  | .offline _ => (.offline, none)
  | kind => (kind.slot, some (kind.label loc 0))

/-- The node of a bar, from what it says. -/
def saidNode (said : InfoBarSlot × Option String) : ℕ × Node :=
  (infoBarNodeId said.1,
    { role := .alert
      label := said.2
      live := some (if said.1 = .serverError then .assertive else .polite) })

theorem infoBarNodeId_injective : Function.Injective infoBarNodeId := by
  rintro (_ | _ | _) (_ | _ | _) h <;> first | rfl | exact absurd h (by decide)

theorem saidNode_injective : Function.Injective saidNode := by
  rintro ⟨slot, text⟩ ⟨slot', text'⟩ h
  obtain ⟨hid, hnode⟩ := Prod.mk.inj h
  exact Prod.ext (infoBarNodeId_injective hid) (congrArg Node.label hnode)

theorem infoBarNodes_eq_iff {env : Env} {t t' : Clock} {bars bars' : List InfoBar} :
    (buildInfoBarNodes env t bars).map forgetElapsed =
      (buildInfoBarNodes env t' bars').map forgetElapsed ↔
    (liveBars bars).map (fun bar => bar.kind.said env.loc) =
      (liveBars bars').map fun bar => bar.kind.said env.loc := by
  have hnodes (t : Clock) (bars : List InfoBar) : (buildInfoBarNodes env t bars).map forgetElapsed =
      ((liveBars bars).map fun bar => bar.kind.said env.loc).map saidNode := by
    simp only [buildInfoBarNodes, List.map_map]
    refine List.map_congr_left fun bar _ => ?_
    rcases bar with ⟨_ | _ | _, _⟩ <;> rfl
  rw [hnodes, hnodes]
  exact (List.map_injective_iff.2 saidNode_injective).eq_iff

/-- Lists with the same keys, and two functions that tell apart the same entries of one key. -/
theorem map_eq_iff_of_map_eq {α κ β γ : Type} {k : α → κ} {f : α → β} {g : α → γ}
    (hfg : ∀ a b, k a = k b → (f a = f b ↔ g a = g b)) {l l' : List α} (h : l.map k = l'.map k) :
    l.map f = l'.map f ↔ l.map g = l'.map g := by
  induction l generalizing l' with
  | nil =>
    rw [List.map_eq_nil_iff.1 h.symm]
    exact iff_of_true rfl rfl
  | cons a l ih =>
    cases l' with
    | nil => cases h
    | cons b l' =>
      obtain ⟨hab, hrest⟩ := List.cons.inj h
      simp only [List.map_cons, List.cons.injEq, hfg a b hab, ih hrest]

theorem alertNodes_eq_iff {alerts alerts' : List AlertEntry}
    (h : alerts.map (fun a => (a.seq, a.kind)) = alerts'.map fun a => (a.seq, a.kind)) :
    buildAlertRegionNodes alerts = buildAlertRegionNodes alerts' ↔
      alerts.map (fun a => (a.title, a.body)) = alerts'.map fun a => (a.title, a.body) := by
  have hempty : alerts = [] ↔ alerts' = [] := by
    rw [← List.map_eq_nil_iff, h, List.map_eq_nil_iff]
  have hseq : alerts.map (fun a => alertNodeId a.seq) = alerts'.map fun a => alertNodeId a.seq := by
    simpa [Function.comp_def] using congrArg (List.map fun key => alertNodeId key.1) h
  have hnode : ∀ a b : AlertEntry, (a.seq, a.kind) = (b.seq, b.kind) →
      ((alertNodeId a.seq, alertNode a) = (alertNodeId b.seq, alertNode b) ↔
        (a.title, a.body) = (b.title, b.body)) := by
    rintro ⟨seq, kind, _, title, body, _⟩ ⟨seq', kind', _, title', body', _⟩ hkey
    obtain ⟨rfl, rfl⟩ := Prod.mk.inj hkey
    by_cases hbody : body = "" <;> by_cases hbody' : body' = "" <;> cases kind <;>
      simp [alertNode, hbody, hbody', eq_comm]
  unfold buildAlertRegionNodes
  by_cases hnil : alerts' = []
  · rw [if_pos (hempty.2 hnil), if_pos hnil, hempty.2 hnil, hnil]
    exact iff_of_true rfl rfl
  · rw [if_neg (mt hempty.1 hnil), if_neg hnil, hseq, List.cons.injEq,
      map_eq_iff_of_map_eq hnode h]
    exact and_iff_right rfl

/-! ## The tree -/

section Roles

variable {env : Env} {t : Clock}

theorem optionNodes_role {α : Type} {id : ℕ → ℕ} {node : ℕ → α → Node} {l : List α} {role : Role}
    (h : ∀ idx x, (node idx x).role ≠ role) : ∀ n ∈ optionNodes id node l, n.2.role ≠ role := by
  intro n hn
  obtain ⟨idx, hidx, rfl⟩ := List.mem_mapIdx.1 hn
  exact h idx _

theorem panelNodes_not_alert (sp : Panel) :
    ∀ n ∈ (buildSettingsPanelNodes env sp).nodes, n.2.role ≠ .alert := by
  obtain ⟨hfooter, hwidgets, hssh, hkey⟩ := panelParts_role env sp .alert (.inr rfl)
  have htabs : ∀ n ∈ sp.categoryTabNodes env, n.2.role ≠ .alert := by
    simp [Panel.categoryTabNodes, SettingsCategory.all]
  simp only [buildSettingsPanelNodes, List.forall_mem_append, List.forall_mem_cons]
  exact ⟨⟨⟨⟨⟨by decide, hfooter⟩, by decide, htabs⟩, hwidgets⟩, (fun h => by cases h), hssh⟩, hkey⟩

theorem overlayNodes_not_alert (shown : Shown) :
    ∀ n ∈ (shown.overlay env t).nodes, n.2.role ≠ .alert := by
  cases shown with
  | closeDialog d => simp [Shown.overlay, buildCloseDialogNodes]
  | quickSelect qs =>
    refine List.forall_mem_append.2 ⟨by simp, optionNodes_role fun _ _ h => by cases h⟩
  | contextMenu m =>
    refine List.forall_mem_cons.2 ⟨(fun h => by cases h), optionNodes_role fun _ item => ?_⟩
    by_cases hitem : item.action = .separator <;> simp [contextItemNode, hitem]
  | palette p =>
    refine List.forall_mem_append.2 ⟨by simp, optionNodes_role fun _ _ h => by cases h⟩
  | hostManager m =>
    exact List.forall_mem_cons.2 ⟨(fun h => by cases h), optionNodes_role fun _ _ h => by cases h⟩
  | macroPicker m =>
    exact List.forall_mem_cons.2 ⟨(fun h => by cases h), optionNodes_role fun _ _ h => by cases h⟩
  | settingsPanel sp => exact panelNodes_not_alert sp

theorem baseNodes_not_alert (s : ClientState) : ∀ n ∈ s.baseNodes, n.2.role ≠ .alert := by
  have htabs : ∀ n ∈ s.tabNodes, n.2.role ≠ .alert := by
    intro n hn
    obtain ⟨idx, hidx, rfl⟩ := List.mem_mapIdx.1 hn
    simp [ClientState.tabNode]
  have hbuttons : ∀ n ∈ s.windowButtonNodes, n.2.role ≠ .alert := by
    unfold ClientState.windowButtonNodes
    split_ifs <;> simp [ClientState.windowButtons]
  have hpanes : ∀ n ∈ s.effectiveTabOrder.flatMap s.paneNodes, n.2.role ≠ .alert := by
    intro n hn
    obtain ⟨id, -, hn⟩ := List.mem_flatMap.1 hn
    unfold ClientState.paneNodes at hn
    cases hp : s.panes.get id with
    | none =>
      rw [hp] at hn
      exact absurd hn List.not_mem_nil
    | some pane =>
      rw [hp] at hn
      rcases List.mem_append.1 hn with hn | hn
      · simp [ClientState.paneRowNodes_role hn]
      · simp [List.mem_singleton.1 hn, ClientState.paneNode]
  simp only [ClientState.baseNodes, List.forall_mem_append]
  refine ⟨⟨⟨⟨?_, htabs⟩, hbuttons⟩, hpanes⟩, ?_⟩
  · simp [ClientState.tabBarNode, ClientState.paneAreaNode]
  · simp [ClientState.inputBufferNode]

end Roles

/-- The states agree on what the tree shows and the hash leaves out. -/
structure SameUnhashed (env : Env) (t t' : Clock) (s s' : ClientState) : Prop
    extends ClientState.SameBase s s' where
  overlay : ∀ a ∈ s.shown, ∀ b ∈ s'.shown, a.SameUnhashed env t t' b
  infoBars : (liveBars s.infoBars).map (fun bar => bar.kind.said env.loc) =
    (liveBars s'.infoBars).map fun bar => bar.kind.said env.loc
  alerts : s.alerts.map (fun a => (a.title, a.body)) = s'.alerts.map fun a => (a.title, a.body)

namespace ClientState

variable {env : Env} {t t' : Clock} {s s' : ClientState}

/-- The nodes of the overlay, if one is shown. -/
def overlayNodes (env : Env) (t : Clock) (s : ClientState) : List (ℕ × Node) :=
  (s.overlay env t).elim [] Overlay.nodes

theorem overlayNodes_not_alert (env : Env) (t : Clock) (s : ClientState) :
    ∀ n ∈ s.overlayNodes env t, n.2.role ≠ .alert := by
  unfold overlayNodes overlay
  cases s.shown with
  | none => exact fun n hn => absurd hn List.not_mem_nil
  | some shown => exact A11y.overlayNodes_not_alert shown

/-- Only the bars say how long the client has been offline. -/
theorem withoutElapsed_nodes : (s.buildTreeFromState env t).withoutElapsed.nodes =
    (rootId, s.rootNode env t) :: (s.baseNodes ++ (s.overlayNodes env t ++
      ((buildInfoBarNodes env t s.infoBars).map forgetElapsed ++
        buildAlertRegionNodes s.alerts))) := by
  have halerts : ∀ n ∈ buildAlertRegionNodes s.alerts, n.2.role = .alert → n.2.live = none := by
    unfold buildAlertRegionNodes
    split_ifs
    · exact fun n hn => absurd hn List.not_mem_nil
    · refine List.forall_mem_cons.2 ⟨nofun, fun n hn _ => ?_⟩
      obtain ⟨alert, -, rfl⟩ := List.mem_map.1 hn
      rfl
  have hbase := map_forgetElapsed fun n hn hrole => absurd hrole (baseNodes_not_alert s n hn)
  have hoverlay := map_forgetElapsed fun n hn hrole =>
    absurd hrole (overlayNodes_not_alert env t s n hn)
  have hroot : forgetElapsed (rootId, s.rootNode env t) = (rootId, s.rootNode env t) := rfl
  show List.map forgetElapsed ((rootId, s.rootNode env t) :: s.baseNodes ++ s.overlayNodes env t ++
    buildInfoBarNodes env t s.infoBars ++ buildAlertRegionNodes s.alerts) = _
  simp only [List.map_append, List.map_cons, hroot, hbase, hoverlay, map_forgetElapsed halerts,
    List.cons_append, List.append_assoc]

theorem length_liveBars {loc : Locale} (h : SameInputs loc s s') :
    (liveBars s.infoBars).length = (liveBars s'.infoBars).length := by
  have hlive (bars : List InfoBar) :
      (liveBars bars).length = (bars.filter (!·.isDismissed)).length :=
    ((List.mergeSort_perm bars louder).filter _).length_eq
  rw [hlive, hlive]
  simpa [liveQueue] using congrArg List.length h.infoBars

section

variable (h : s.treeStateInputs env.loc = s'.treeStateInputs env.loc) (hrows : SameRows s s')

include h hrows

theorem sameUnhashed_of_tree (htree : (s.buildTreeFromState env t).withoutElapsed =
    (s'.buildTreeFromState env t').withoutElapsed) : SameUnhashed env t t' s s' := by
  have hinputs := sameInputs_of_treeStateInputs h
  have hpanes := samePane hinputs hrows
  have hshown := shown_sameInputs hinputs
  have hempty : s.alerts = [] ↔ s'.alerts = [] := by
    rw [← List.map_eq_nil_iff, hinputs.alerts, List.map_eq_nil_iff]
  have hnodes := congrArg TreeUpdate.nodes htree
  rw [withoutElapsed_nodes, withoutElapsed_nodes] at hnodes
  obtain ⟨hbase, hrest⟩ := sameBase_of_nodes hinputs.focusedPaneId hpanes (List.cons.inj hnodes).2
  have halertsLen : (buildAlertRegionNodes s.alerts).length =
      (buildAlertRegionNodes s'.alerts).length := by
    have hlen : s.alerts.length = s'.alerts.length := by
      simpa using congrArg List.length hinputs.alerts
    simp only [buildAlertRegionNodes, hempty]
    split_ifs
    · rfl
    · simp only [List.length_cons, List.length_map, hlen]
  have hbarsLen : ((buildInfoBarNodes env t s.infoBars).map forgetElapsed).length =
      ((buildInfoBarNodes env t' s'.infoBars).map forgetElapsed).length := by
    simp only [buildInfoBarNodes, List.length_map, length_liveBars hinputs]
  rw [← List.append_assoc, ← List.append_assoc] at hrest
  obtain ⟨hfront, halerts⟩ := List.append_inj' hrest halertsLen
  obtain ⟨hoverlay, hbars⟩ := List.append_inj' hfront hbarsLen
  refine { toSameBase := hbase, overlay := ?_, infoBars := infoBarNodes_eq_iff.1 hbars
           alerts := (alertNodes_eq_iff hinputs.alerts).1 halerts }
  intro a ha b hb
  unfold overlayNodes overlay at hoverlay
  rw [Option.mem_def.1 ha, Option.mem_def.1 hb] at hoverlay hshown
  cases hshown with
  | some hab => exact Shown.sameUnhashed_of_nodes hab hoverlay

theorem tree_of_sameUnhashed (hu : SameUnhashed env t t' s s') :
    (s.buildTreeFromState env t).withoutElapsed =
      (s'.buildTreeFromState env t').withoutElapsed := by
  have hinputs := sameInputs_of_treeStateInputs h
  have hpanes := samePane hinputs hrows
  have hshown := shown_sameInputs hinputs
  have hempty : s.alerts = [] ↔ s'.alerts = [] := by
    rw [← List.map_eq_nil_iff, hinputs.alerts, List.map_eq_nil_iff]
  have hbase := baseNodes_eq hinputs.focusedPaneId hpanes hu.toSameBase
  have hbars : (buildInfoBarNodes env t s.infoBars).map forgetElapsed =
      (buildInfoBarNodes env t' s'.infoBars).map forgetElapsed :=
    infoBarNodes_eq_iff.2 hu.infoBars
  have halerts := (alertNodes_eq_iff hinputs.alerts).2 hu.alerts
  have hoverlay : s.overlay env t = s'.overlay env t' := by
    have hagree := hu.overlay
    unfold overlay
    generalize s.shown = o, s'.shown = o' at hshown hagree ⊢
    cases hshown with
    | none => simp only [Option.map_none]
    | some hab => exact congrArg some (Shown.overlay_eq hab (hagree _ rfl _ rfl))
  have hids : (buildInfoBarNodes env t s.infoBars).map Prod.fst =
      (buildInfoBarNodes env t' s'.infoBars).map Prod.fst := by
    have hfst : Prod.fst ∘ forgetElapsed = Prod.fst := by
      ext n
      simp only [Function.comp_apply, forgetElapsed]
      split_ifs <;> rfl
    simpa only [List.map_map, hfst] using congrArg (List.map Prod.fst) hbars
  have hroot : s.rootNode env t = s'.rootNode env t' := by
    simp only [rootNode, rootChildren, hoverlay, hids, hempty]
  have hnodes : (s.buildTreeFromState env t).withoutElapsed.nodes =
      (s'.buildTreeFromState env t').withoutElapsed.nodes := by
    simp only [withoutElapsed_nodes, overlayNodes, hroot, hbase, hoverlay, hbars, halerts]
  have hfocus : (s.buildTreeFromState env t).focus = (s'.buildTreeFromState env t').focus := by
    simp only [buildTreeFromState, hoverlay, defaultFocus, hinputs.focusedPaneId]
  exact (TreeUpdate.mk.injEq ..).mpr ⟨hnodes, rfl, hfocus⟩

end

/-- **What the hash leaves out is all that can make the tree stale**: if the same is hashed for two
    states, they have the same tree if and only if they agree on it. -/
theorem withoutElapsed_eq_iff (env : Env) (t t' : Clock) (s s' : ClientState)
    (h : s.treeStateInputs env.loc = s'.treeStateInputs env.loc) (hrows : SameRows s s') :
    (s.buildTreeFromState env t).withoutElapsed = (s'.buildTreeFromState env t').withoutElapsed ↔
      SameUnhashed env t t' s s' :=
  ⟨sameUnhashed_of_tree h hrows, tree_of_sameUnhashed h hrows⟩

/-- The settings panel at its Window tab, with the blinking of the cursor turned on or off. -/
def windowTab (blink : Bool) : ClientState :=
  { new plainSurfaces 1000 with
    settingsPanel :=
      { plainSurfaces.settingsPanel with
        isOpen := true
        category := .window
        cursorBlinkEnabled := blink } }

theorem windowTab_inputs :
    (windowTab false).treeStateInputs plainEnv.loc = (windowTab true).treeStateInputs plainEnv.loc :=
  rfl

/-- The blinking of the cursor is turned off, and the tree still says that it is on. -/
theorem not_fresh_windowTab :
    ¬ ∀ (env : Env) (t t' : Clock) (s s' : ClientState),
      s.treeStateInputs env.loc = s'.treeStateInputs env.loc → SameRows s s' →
      (s.buildTreeFromState env t).withoutElapsed =
        (s'.buildTreeFromState env t').withoutElapsed := by
  intro h
  have htree := h plainEnv ⟨0, 0⟩ ⟨0, 0⟩ (windowTab false) (windowTab true) windowTab_inputs
    fun _ => rfl
  have hu := sameUnhashed_of_tree windowTab_inputs (fun _ => rfl) htree
  have hwindow := (hu.overlay _ rfl _ rfl).2
  exact absurd hwindow.cursorBlinkEnabled Bool.false_ne_true

/-- The two states of the Window tab. -/
theorem withoutElapsed_eq_iff_windowTab :
    ((windowTab false).buildTreeFromState plainEnv ⟨0, 0⟩).withoutElapsed =
        ((windowTab true).buildTreeFromState plainEnv ⟨1, 1⟩).withoutElapsed ↔
      SameUnhashed plainEnv ⟨0, 0⟩ ⟨1, 1⟩ (windowTab false) (windowTab true) :=
  withoutElapsed_eq_iff plainEnv ⟨0, 0⟩ ⟨1, 1⟩ (windowTab false) (windowTab true) windowTab_inputs
    fun _ => rfl

end ClientState

end Nexterm.A11y

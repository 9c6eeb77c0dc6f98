/-
  The shape of the accessibility tree.

  * `targets`: what the nodes of the tree are built for, in the order of the nodes.
  * `Part a r ns ks`: the nodes `ns` are a tree with the root `r`, built for the things `ks`.
  * `WellFormed`: an update that the screen reader accepts, and whose ids are decoded to what
    they were built for.
  * `wellFormed_of_fits`: the states in which every listed pane is held, and every list is short
    enough for its ids, have a well-formed tree.
-/
import Nexterm.A11y.Tree
import Nexterm.Lib.Forest

namespace Nexterm.A11y

open Forest (Spans Under)

/-! ## Targets -/

/-- The parts of the tree. -/
inductive Area
  | root
  | tabs
  | panes
  | overlay
  | bars
  | alerts
  deriving DecidableEq

/-- The part that a node belongs to. -/
def NodeIdKind.area : NodeIdKind → Area
  | .root | .unknown => .root
  | .tabBar | .tab _ | .windowMinimizeButton | .windowMaximizeButton | .windowCloseButton => .tabs
  | .paneArea | .pane _ | .paneRow .. | .paneScrollbackRow .. | .paneInputBuffer => .panes
  | .infoBar _ => .bars
  | .alertRegion | .alert _ => .alerts
  | _ => .overlay

/-- The pane that a node of the pane area belongs to. -/
def NodeIdKind.paneOf : NodeIdKind → Option PaneId
  | .pane paneId | .paneRow paneId _ | .paneScrollbackRow paneId _ => some paneId
  | _ => none

namespace ClientState

variable (s : ClientState)

def paneRowTargets (paneId : PaneId) (pane : TreePane) : List NodeIdKind :=
  ((scrollbackLines pane).map fun entry => .paneScrollbackRow paneId entry.1) ++
    (List.range (viewportRowCount pane.grid)).map (.paneRow paneId)

def paneTargets (paneId : PaneId) : List NodeIdKind :=
  match s.panes.get paneId with
  | none => []
  | some pane => paneRowTargets paneId pane ++ [.pane paneId]

def windowButtonTargets : List NodeIdKind :=
  if s.windowButtonsVisible then
    [.windowMinimizeButton, .windowMaximizeButton, .windowCloseButton]
  else []

/-- The tab bar and what is in it. -/
def tabTargets : List NodeIdKind :=
  .tabBar :: s.effectiveTabOrder.map .tab ++ s.windowButtonTargets

/-- The pane area and what is in it. -/
def paneAreaTargets : List NodeIdKind :=
  .paneArea :: s.effectiveTabOrder.flatMap s.paneTargets ++ [.paneInputBuffer]

def baseTargets : List NodeIdKind :=
  [.tabBar, .paneArea] ++ s.effectiveTabOrder.map .tab ++ s.windowButtonTargets ++
    s.effectiveTabOrder.flatMap s.paneTargets ++ [.paneInputBuffer]

end ClientState

/-- A list, and its entries. -/
def listTargets (list : NodeIdKind) (item : ℕ → NodeIdKind) (count : ℕ) : List NodeIdKind :=
  list :: (List.range count).map item

namespace Panel

variable (env : Env) (sp : Panel)

def footerTargets : List NodeIdKind :=
  .settingsFooterOpenConfig ::
    if sp.categoryResettable then [.settingsFooterResetCategory] else []

def widgetTargets : List NodeIdKind :=
  (sp.widgetDescs env.loc).map fun desc => .settingsWidget desc.id

def sshDialogTargets : List NodeIdKind :=
  if sp.sshDialogShown then
    [.settingsSshDeleteDialog, .settingsSshDeleteCancelBtn, .settingsSshDeleteConfirmBtn]
  else []

def keyDialogTargets : List NodeIdKind :=
  if sp.keyDialogShown then
    [.settingsKeyDeleteDialog, .settingsKeyDeleteCancelBtn, .settingsKeyDeleteConfirmBtn]
  else []

def targets : List NodeIdKind :=
  .settingsPanel :: sp.footerTargets ++
    listTargets .settingsTabList .settingsTab SettingsCategory.all.length ++
    sp.widgetTargets env ++ .settingsContent :: sp.sshDialogTargets ++ sp.keyDialogTargets

end Panel

/-- What the nodes of an overlay are built for. -/
def Shown.targets (env : Env) (t : Clock) : Shown → List NodeIdKind
  | closeDialog _ => [.closeDialog, .closeDialogKill, .closeDialogCancel]
  | quickSelect qs => .quickSelect :: listTargets .quickSelectList .quickSelectItem
      qs.quickMatches.length
  | contextMenu menu => listTargets .contextMenu .contextItem menu.items.length
  | palette p => [.palette, .paletteSearch] ++
      listTargets .paletteList .paletteItem (p.filtered env t).length
  | hostManager manager => listTargets .hostManager .hostItem (manager.filtered env).length
  | macroPicker picker => listTargets .macroPicker .macroItem (picker.filtered env).length
  | settingsPanel sp => sp.targets env

def infoBarTargets (bars : List InfoBar) : List NodeIdKind :=
  (liveBars bars).map fun bar => .infoBar bar.kind.slot

def alertTargets (alerts : List AlertEntry) : List NodeIdKind :=
  if alerts = [] then [] else .alertRegion :: alerts.map fun a => .alert a.seq

/-- What the nodes of the tree are built for, in their order. -/
def ClientState.targets (env : Env) (t : Clock) (s : ClientState) : List NodeIdKind :=
  .root :: s.baseTargets ++ s.shown.elim [] (Shown.targets env t) ++ infoBarTargets s.infoBars ++
    alertTargets s.alerts

/-! ## Parts of the tree -/

/-- The nodes with their children. -/
def edges (ns : List (ℕ × Node)) : Forest.Nodes ℕ := ns.map fun n => (n.1, n.2.children)

@[simp] theorem ids_edges (ns : List (ℕ × Node)) : Forest.ids (edges ns) = ns.map Prod.fst := by
  simp only [Forest.ids, edges, List.map_map, Function.comp_def]

@[simp] theorem edges_nil : edges [] = [] := rfl

@[simp] theorem edges_cons (n : ℕ × Node) (ns : List (ℕ × Node)) :
    edges (n :: ns) = (n.1, n.2.children) :: edges ns := rfl

@[simp] theorem edges_append (ms ns : List (ℕ × Node)) :
    edges (ms ++ ns) = edges ms ++ edges ns := List.map_append

theorem edges_flatMap {β : Type} (bs : List β) (f : β → List (ℕ × Node)) :
    edges (bs.flatMap f) = bs.flatMap fun b => edges (f b) := List.map_flatMap

/-- Nodes without children. -/
theorem edges_leaves {ns : List (ℕ × Node)} (h : ∀ n ∈ ns, n.2.children = []) :
    edges ns = (ns.map Prod.fst).map fun c => (c, []) := by
  rw [edges, List.map_map]
  refine List.map_congr_left ?_
  intro n hn
  simp [h n hn]

/-- A node over leaves. -/
theorem spans_over_leaves {r : ℕ} {node : Node} {ns : List (ℕ × Node)}
    (hchildren : node.children = ns.map Prod.fst) (hleaves : ∀ n ∈ ns, n.2.children = []) :
    Spans r (edges ((r, node) :: ns)) := by
  rw [edges_cons, edges_leaves hleaves, hchildren]
  exact (Under.leaves _).node

/-- The nodes are a tree with the root `r`, built for the things `ks`, all of the area `a`. -/
structure Part (a : Area) (r : ℕ) (ns : List (ℕ × Node)) (ks : List NodeIdKind) : Prop where
  ids : ns.map Prod.fst = ks.map nodeId
  nodup : ks.Nodup
  encodable : ∀ k ∈ ks, Encodable k
  area : ∀ k ∈ ks, k.area = a
  spans : Spans r (edges ns)

theorem Part.perm {a : Area} {r : ℕ} {ms ns : List (ℕ × Node)} {js ks : List NodeIdKind}
    (h : Part a r ms js) (hids : ns.map Prod.fst = ks.map nodeId) (hns : ns.Perm ms)
    (hks : ks.Perm js) : Part a r ns ks where
  ids := hids
  nodup := hks.nodup_iff.2 h.nodup
  encodable := fun k hk => h.encodable k (hks.mem_iff.1 hk)
  area := fun k hk => h.area k (hks.mem_iff.1 hk)
  spans := h.spans.perm (hns.map _)

/-- A node over leaves, each built for one thing. -/
theorem Part.over_leaves {a : Area} {k : NodeIdKind} {ks : List NodeIdKind} {node : Node}
    {ns : List (ℕ × Node)} (hids : ns.map Prod.fst = ks.map nodeId)
    (hchildren : node.children = ns.map Prod.fst) (hleaves : ∀ n ∈ ns, n.2.children = [])
    (hnodup : (k :: ks).Nodup) (hencodable : ∀ j ∈ k :: ks, Encodable j)
    (harea : ∀ j ∈ k :: ks, j.area = a) : Part a (nodeId k) ((nodeId k, node) :: ns) (k :: ks) where
  ids := by rw [List.map_cons, hids, List.map_cons]
  nodup := hnodup
  encodable := hencodable
  area := harea
  spans := spans_over_leaves hchildren hleaves

section Lists

variable {α β γ : Type}

theorem map_mapIdx (f : ℕ → α → β) (g : β → γ) (l : List α) :
    (l.mapIdx f).map g = l.mapIdx fun i a => g (f i a) :=
  List.ext_getElem (by simp) (by simp)

theorem mapIdx_eq_map (f : α → β) (l : List α) : (l.mapIdx fun _ a => f a) = l.map f :=
  List.ext_getElem (by simp) (by simp)

theorem mapIdx_eq_range_map (f : ℕ → β) (l : List α) :
    (l.mapIdx fun i _ => f i) = (List.range l.length).map f :=
  List.ext_getElem (by simp) (by simp)

/-- Keeping the entries that have a value, with their values. -/
theorem map_fst_filterMap_sublist (f : α → Option β) (l : List α) :
    ((l.filterMap fun a => (f a).map fun b => (a, b)).map Prod.fst).Sublist l := by
  induction l with
  | nil => exact List.Sublist.refl _
  | cons a l ih =>
    rw [List.filterMap_cons]
    cases f a with
    | none => exact ih.cons a
    | some b => exact ih.cons_cons a

end Lists

theorem nodup_range_map {item : ℕ → NodeIdKind} (hitem : Function.Injective item) (count : ℕ) :
    ((List.range count).map item).Nodup := List.nodup_range.map hitem

/-! ### Tabs and panes -/

theorem Panes.mem_keys {ps : Panes} {paneId : PaneId} :
    paneId ∈ ps.keys ↔ ∃ pane, ps.get paneId = some pane := by
  rw [← Option.isSome_iff_exists, Option.isSome_iff_ne_none, Ne, Panes.get,
    List.lookup_eq_none_iff]
  simp [Panes.keys]

namespace ClientState

variable {s : ClientState}

/-- Every tab is there once, and its pane is held. -/
structure TabsHeld (s : ClientState) : Prop where
  nodup : s.effectiveTabOrder.Nodup
  held : ∀ paneId ∈ s.effectiveTabOrder, paneId ∈ s.panes.keys

theorem tabNodes_ids :
    s.tabNodes.map Prod.fst = (s.effectiveTabOrder.map NodeIdKind.tab).map nodeId := by
  rw [tabNodes, map_mapIdx, mapIdx_eq_map, List.map_map]
  rfl

theorem windowButtonNodes_ids :
    s.windowButtonNodes.map Prod.fst = s.windowButtonTargets.map nodeId := by
  unfold windowButtonNodes windowButtonTargets
  split_ifs <;> rfl

theorem mem_tabTargets {k : NodeIdKind} (hk : k ∈ s.tabTargets) :
    Encodable k ∧ k.area = .tabs := by
  simp only [tabTargets, List.mem_cons, List.mem_append, List.mem_map, List.cons_append] at hk
  rcases hk with rfl | ⟨paneId, -, rfl⟩ | hk
  · exact ⟨trivial, rfl⟩
  · exact ⟨trivial, rfl⟩
  · unfold windowButtonTargets at hk
    split_ifs at hk
    · simp only [List.mem_cons, List.not_mem_nil, or_false] at hk
      rcases hk with rfl | rfl | rfl <;> exact ⟨trivial, rfl⟩
    · cases hk

theorem tabPart (h : s.effectiveTabOrder.Nodup) :
    Part .tabs tabBarId ((tabBarId, s.tabBarNode) :: (s.tabNodes ++ s.windowButtonNodes))
      s.tabTargets := by
  refine Part.over_leaves (k := .tabBar) ?_ ?_ ?_ ?_ ?_ ?_
  · rw [List.map_append, tabNodes_ids, windowButtonNodes_ids]
    exact List.map_append.symm
  · rw [List.map_append, tabNodes_ids, windowButtonNodes_ids, tabBarNode, List.map_map,
      windowButtonTargets]
    split_ifs <;> rfl
  · intro n hn
    rcases List.mem_append.1 hn with hn | hn
    · obtain ⟨i, hi, rfl⟩ := List.mem_mapIdx.1 hn
      rfl
    · unfold windowButtonNodes at hn
      split_ifs at hn
      · obtain ⟨b, -, rfl⟩ := List.mem_map.1 hn
        rfl
      · cases hn
  · have htabs : (s.effectiveTabOrder.map NodeIdKind.tab).Nodup :=
      h.map fun _ _ heq => NodeIdKind.tab.inj heq
    simp only [windowButtonTargets]
    split_ifs
    · simp [htabs, List.nodup_append]
    · simp [htabs]
  · intro k hk
    exact (mem_tabTargets hk).1
  · intro k hk
    exact (mem_tabTargets hk).2

theorem paneRowNodes_ids (paneId : PaneId) (pane : TreePane) :
    (s.paneRowNodes paneId pane).map Prod.fst = (paneRowTargets paneId pane).map nodeId := by
  simp only [paneRowNodes, paneRowTargets, List.map_append, List.map_map]
  rfl

theorem paneRowNodes_leaves {paneId : PaneId} {pane : TreePane} :
    ∀ n ∈ s.paneRowNodes paneId pane, n.2.children = [] := by
  intro n hn
  rcases List.mem_append.1 hn with hn | hn
  · obtain ⟨entry, -, rfl⟩ := List.mem_map.1 hn
    rfl
  · obtain ⟨row, -, rfl⟩ := List.mem_map.1 hn
    rfl

theorem scrollbackLines_sublist (pane : TreePane) :
    ((scrollbackLines pane).map Prod.fst).Sublist
      (List.range' (scrollbackWindow pane).1
        ((scrollbackWindow pane).2 - (scrollbackWindow pane).1)) :=
  map_fst_filterMap_sublist (fun idx => (pane.scrollback.get idx).join) _

/-- The exposed range ends where the ids for it end. -/
theorem scrollbackLines_lt {pane : TreePane} {entry : ℕ × List Vt.Cell}
    (h : entry ∈ scrollbackLines pane) : entry.1 < maxScrollbackRowsPerPane := by
  have hmem := (scrollbackLines_sublist pane).subset (List.mem_map_of_mem h)
  have hstop : (scrollbackWindow pane).2 ≤ maxScrollbackRowsPerPane := Nat.min_le_right _ _
  rw [List.mem_range'_1] at hmem
  omega

theorem paneRowTargets_nodup (paneId : PaneId) (pane : TreePane) :
    (paneRowTargets paneId pane).Nodup := by
  rw [paneRowTargets, List.nodup_append]
  refine ⟨?_, nodup_range_map (fun _ _ heq => (NodeIdKind.paneRow.inj heq).2) _, ?_⟩
  · have hsub := (scrollbackLines_sublist pane).map (NodeIdKind.paneScrollbackRow paneId)
    rw [List.map_map] at hsub
    refine hsub.nodup (List.Nodup.map ?_ List.nodup_range')
    exact fun _ _ heq => (NodeIdKind.paneScrollbackRow.inj heq).2
  · intro k hk k' hk'
    obtain ⟨entry, -, rfl⟩ := List.mem_map.1 hk
    obtain ⟨row, -, rfl⟩ := List.mem_map.1 hk'
    exact NodeIdKind.noConfusion

/-- The rows of a pane, and the pane. -/
theorem mem_paneTargets {paneId : PaneId} {k : NodeIdKind} (hk : k ∈ s.paneTargets paneId) :
    Encodable k ∧ k.area = .panes ∧ k.paneOf = some paneId := by
  unfold paneTargets at hk
  cases hpane : s.panes.get paneId with
  | none => simp [hpane] at hk
  | some pane =>
    simp only [hpane, paneRowTargets, List.mem_append, List.mem_map, List.mem_range,
      List.mem_singleton] at hk
    rcases hk with (⟨entry, hentry, rfl⟩ | ⟨row, hrow, rfl⟩) | rfl
    · exact ⟨scrollbackLines_lt hentry, rfl, rfl⟩
    · exact ⟨hrow.trans_le (Nat.min_le_right _ _), rfl, rfl⟩
    · exact ⟨trivial, rfl, rfl⟩

theorem panePart {paneId : PaneId} {pane : TreePane} (h : s.panes.get paneId = some pane) :
    Part .panes (paneNodeId paneId) (s.paneNodes paneId) (s.paneTargets paneId) := by
  have hmem : ∀ k ∈ s.paneTargets paneId, Encodable k ∧ k.area = .panes ∧ _ :=
    fun k hk => mem_paneTargets hk
  simp only [paneTargets, paneNodes, h] at hmem ⊢
  have hperm := List.perm_append_singleton (.pane paneId) (paneRowTargets paneId pane)
  refine Part.perm (Part.over_leaves (k := .pane paneId) (paneRowNodes_ids paneId pane) rfl
    paneRowNodes_leaves ?_ ?_ ?_) ?_ (List.perm_append_singleton _ _) hperm
  · refine List.nodup_cons.2 ⟨?_, paneRowTargets_nodup paneId pane⟩
    simp [paneRowTargets]
  · exact fun k hk => (hmem k (hperm.mem_iff.2 hk)).1
  · exact fun k hk => (hmem k (hperm.mem_iff.2 hk)).2.1
  · rw [List.map_append, paneRowNodes_ids, List.map_append]
    rfl

theorem paneNodes_ids (paneId : PaneId) :
    (s.paneNodes paneId).map Prod.fst = (s.paneTargets paneId).map nodeId := by
  cases h : s.panes.get paneId with
  | none => simp [paneNodes, paneTargets, h]
  | some pane => exact (panePart h).ids

theorem flatMap_paneNodes_ids (order : List PaneId) :
    (order.flatMap s.paneNodes).map Prod.fst = (order.flatMap s.paneTargets).map nodeId := by
  rw [List.map_flatMap, List.map_flatMap]
  exact List.flatMap_congr fun paneId _ => paneNodes_ids paneId

theorem nodup_flatMap_paneTargets (h : s.TabsHeld) :
    (s.effectiveTabOrder.flatMap s.paneTargets).Nodup := by
  rw [List.nodup_flatMap]
  constructor
  · intro paneId hpane
    obtain ⟨pane, hget⟩ := Panes.mem_keys.1 (h.held paneId hpane)
    exact (panePart hget).nodup
  · refine h.nodup.imp ?_
    intro paneId paneId' hne k hk hk'
    have hpane := (mem_paneTargets hk).2.2
    rw [(mem_paneTargets hk').2.2] at hpane
    exact hne (Option.some.inj hpane).symm

theorem mem_paneAreaTargets {k : NodeIdKind} (hk : k ∈ s.paneAreaTargets) :
    Encodable k ∧ k.area = .panes := by
  simp only [paneAreaTargets, List.cons_append, List.mem_cons, List.mem_append, List.mem_flatMap,
    List.not_mem_nil, or_false] at hk
  rcases hk with rfl | ⟨paneId, -, hk⟩ | rfl
  · exact ⟨trivial, rfl⟩
  · exact ⟨(mem_paneTargets hk).1, (mem_paneTargets hk).2.1⟩
  · exact ⟨trivial, rfl⟩

/-- One tree for each pane, and the input buffer. -/
theorem spans_paneArea (h : s.TabsHeld) :
    Spans paneAreaId (edges ((paneAreaId, s.paneAreaNode) ::
      (s.effectiveTabOrder.flatMap s.paneNodes ++ [(paneInputBufferId, s.inputBufferNode)]))) := by
  have hpanes : Under (s.effectiveTabOrder.map paneNodeId)
      (edges (s.effectiveTabOrder.flatMap s.paneNodes)) := by
    rw [edges_flatMap]
    refine Under.flatMap ?_
    intro paneId hpane
    obtain ⟨pane, hget⟩ := Panes.mem_keys.1 (h.held paneId hpane)
    exact (panePart hget).spans
  rw [edges_cons, edges_append]
  exact (hpanes.append (Under.single (Under.spans_leaf paneInputBufferId))).node

/-- The area of the panes. -/
theorem paneAreaPart (h : s.TabsHeld) :
    Part .panes paneAreaId
      ((paneAreaId, s.paneAreaNode) :: (s.effectiveTabOrder.flatMap s.paneNodes ++
        [(paneInputBufferId, s.inputBufferNode)]))
      s.paneAreaTargets where
  ids := by
    simp only [paneAreaTargets, List.cons_append, List.map_cons, List.map_append,
      flatMap_paneNodes_ids]
    rfl
  nodup := by
    have hother : ∀ k ∈ s.effectiveTabOrder.flatMap s.paneTargets, k.paneOf ≠ none := by
      intro k hk
      obtain ⟨paneId, -, hk⟩ := List.mem_flatMap.1 hk
      simp [(mem_paneTargets hk).2.2]
    rw [paneAreaTargets, List.cons_append, List.nodup_cons, List.nodup_append]
    refine ⟨?_, nodup_flatMap_paneTargets h, List.nodup_singleton _, ?_⟩
    · intro hk
      rcases List.mem_append.1 hk with hk | hk
      · exact hother _ hk rfl
      · cases List.mem_singleton.1 hk
    · rintro k hk k' hk' rfl
      obtain rfl := List.mem_singleton.1 hk'
      exact hother _ hk rfl
  encodable := fun _ hk => (mem_paneAreaTargets hk).1
  area := fun _ hk => (mem_paneAreaTargets hk).2
  spans := spans_paneArea h

end ClientState

/-! ### Overlays -/

theorem optionNodes_ids {α : Type} {item : ℕ → NodeIdKind} {id : ℕ → ℕ}
    (hid : ∀ idx, nodeId (item idx) = id idx) (node : ℕ → α → Node) (entries : List α) :
    (optionNodes id node entries).map Prod.fst =
      ((List.range entries.length).map item).map nodeId := by
  rw [optionNodes, map_mapIdx, mapIdx_eq_range_map, List.map_map]
  exact List.map_congr_left fun idx _ => (hid idx).symm

theorem optionNodes_leaves {α : Type} {id : ℕ → ℕ} {node : ℕ → α → Node}
    (hleaf : ∀ idx a, (node idx a).children = []) {entries : List α} :
    ∀ n ∈ optionNodes id node entries, n.2.children = [] := by
  intro n hn
  obtain ⟨idx, hidx, rfl⟩ := List.mem_mapIdx.1 hn
  exact hleaf idx _

/-- A kind of list entry, with its ids. -/
structure IsItem (a : Area) (item : ℕ → NodeIdKind) (id : ℕ → ℕ) : Prop where
  nodeId_eq : ∀ idx, nodeId (item idx) = id idx
  injective : Function.Injective item
  encodable : ∀ idx, Encodable (item idx) ↔ idx < dynRange
  area : ∀ idx, (item idx).area = a

theorem isItem_palette : IsItem .overlay .paletteItem paletteItemId :=
  ⟨fun _ => rfl, fun _ _ => NodeIdKind.paletteItem.inj, fun _ => Iff.rfl, fun _ => rfl⟩

theorem isItem_host : IsItem .overlay .hostItem hostItemId :=
  ⟨fun _ => rfl, fun _ _ => NodeIdKind.hostItem.inj, fun _ => Iff.rfl, fun _ => rfl⟩

theorem isItem_macro : IsItem .overlay .macroItem macroItemId :=
  ⟨fun _ => rfl, fun _ _ => NodeIdKind.macroItem.inj, fun _ => Iff.rfl, fun _ => rfl⟩

theorem isItem_context : IsItem .overlay .contextItem contextItemId :=
  ⟨fun _ => rfl, fun _ _ => NodeIdKind.contextItem.inj, fun _ => Iff.rfl, fun _ => rfl⟩

theorem isItem_quickSelect : IsItem .overlay .quickSelectItem quickselectItemId :=
  ⟨fun _ => rfl, fun _ _ => NodeIdKind.quickSelectItem.inj, fun _ => Iff.rfl, fun _ => rfl⟩

/-- A list over its options, if there are ids for all of them. -/
theorem listPart {α : Type} {item : ℕ → NodeIdKind} {id : ℕ → ℕ} (h : IsItem .overlay item id)
    (list : NodeIdKind) (root : Node) (node : ℕ → α → Node) (entries : List α)
    (hchildren : root.children = (List.range entries.length).map id)
    (hleaf : ∀ idx a, (node idx a).children = []) (hlist : ∀ idx, list ≠ item idx)
    (hencodable : Encodable list) (harea : list.area = .overlay)
    (hlen : entries.length ≤ dynRange) :
    Part .overlay (nodeId list) ((nodeId list, root) :: optionNodes id node entries)
      (listTargets list item entries.length) := by
  refine Part.over_leaves (optionNodes_ids h.nodeId_eq node entries) ?_
    (optionNodes_leaves hleaf) ?_ ?_ ?_
  · rw [optionNodes_ids h.nodeId_eq, hchildren, List.map_map]
    exact List.map_congr_left fun idx _ => (h.nodeId_eq idx).symm
  · refine List.nodup_cons.2 ⟨?_, nodup_range_map h.injective _⟩
    intro hmem
    obtain ⟨idx, -, heq⟩ := List.mem_map.1 hmem
    exact hlist idx heq.symm
  · intro k hk
    rcases List.mem_cons.1 hk with rfl | hk
    · exact hencodable
    · obtain ⟨idx, hidx, rfl⟩ := List.mem_map.1 hk
      exact (h.encodable idx).2 ((List.mem_range.1 hidx).trans_le hlen)
  · intro k hk
    rcases List.mem_cons.1 hk with rfl | hk
    · exact harea
    · obtain ⟨idx, -, rfl⟩ := List.mem_map.1 hk
      exact h.area idx

/-! ### The settings panel -/

namespace Panel

variable {env : Env} {sp : Panel}

/-- The rows of a category. -/
def rowIndices (count : ℕ) : List UInt16 := (List.range count).map UInt16.ofNat

/-- The entries of a list, from the base on. -/
def entryIndices (base : UInt16) (count : ℕ) : List UInt16 :=
  (List.range count).map fun i => base + UInt16.ofNat i

/-- The number of a category in the ids of its widgets. -/
def categoryNumber : SettingsCategory → UInt8
  | .startup => startupCategory
  | .font => fontCategory
  | .theme => themeCategory
  | .window => windowCategory
  | .ssh => sshCategory
  | .keybindings => keybindingsCategory
  | .profiles => profilesCategory
  | .blocks => blocksCategory
  | .security => securityCategory

/-- The indices of the widgets of the current category, in their order. -/
def widgetIndices (sp : Panel) : List UInt16 :=
  match sp.category with
  | .startup => rowIndices startupRowCount
  | .font => rowIndices fontRowCount
  | .theme => rowIndices 2 ++ entryIndices themeSwatchBase Settings.BuiltinScheme.all.length
  | .window => rowIndices windowRowCount
  | .security => rowIndices securityRowCount
  | .blocks => rowIndices 3
  | .profiles =>
    if sp.profiles = [] then [] else 0 :: entryIndices profilesListBase sp.profiles.length
  | .ssh => entryIndices sshListBase sp.sshHosts.length ++
      (if sp.sshHosts = [] then [] else [1, 2, 3, 4, 5]) ++ [sshAdd, sshDelete]
  | .keybindings => entryIndices keyListBase sp.keybindings.length ++
      (if sp.keybindings = [] then [] else [1, 2]) ++ [keyAdd, keyDelete, keyLeader]

theorem getElem?_min_eq_none {α : Type} {l : List α} {i : ℕ} :
    l[min i (l.length - 1)]? = none ↔ l = [] := by
  rw [List.getElem?_eq_none_iff]
  cases l with
  | nil => simp
  | cons a l =>
    simp only [List.length_cons, reduceCtorEq, iff_false]
    omega

/-- The widgets of a list: one for each entry. -/
theorem entryDescs_ids {α : Type} (category : UInt8) (base : UInt16) (desc : ℕ → α → WidgetDesc)
    (hid : ∀ i a, (desc i a).id = ⟨category, base + UInt16.ofNat i⟩) (l : List α) :
    (l.mapIdx desc).map WidgetDesc.id = (entryIndices base l.length).map (WidgetId.mk category) := by
  simp only [map_mapIdx, hid, entryIndices, List.map_map]
  exact mapIdx_eq_range_map _ l

/-- The widgets of a category that is a list of rows. -/
theorem rowDescs_ids {α : Type} (category : UInt8) (desc : ℕ → α → WidgetDesc)
    (hid : ∀ i a, (desc i a).id = ⟨category, UInt16.ofNat i⟩) (l : List α) :
    (l.mapIdx desc).map WidgetDesc.id = (rowIndices l.length).map (WidgetId.mk category) := by
  simp only [map_mapIdx, hid, rowIndices, List.map_map]
  exact mapIdx_eq_range_map _ l

theorem themeWidgetDescs_ids (loc : Locale) :
    (sp.themeWidgetDescs loc).map WidgetDesc.id =
      (rowIndices 2 ++ entryIndices themeSwatchBase Settings.BuiltinScheme.all.length).map
        (WidgetId.mk themeCategory) := by
  rw [themeWidgetDescs, List.map_append, List.map_append,
    entryDescs_ids themeCategory themeSwatchBase _ fun _ _ => rfl]
  rfl

theorem sshWidgetDescs_ids (loc : Locale) :
    (sp.sshWidgetDescs loc).map WidgetDesc.id =
      (entryIndices sshListBase sp.sshHosts.length ++
        (if sp.sshHosts = [] then [] else [1, 2, 3, 4, 5]) ++ [sshAdd, sshDelete]).map
          (WidgetId.mk sshCategory) := by
  have hfields : (sp.selectedSshHost.elim [] (sp.sshFieldDescs loc)).map WidgetDesc.id =
      (if sp.sshHosts = [] then [] else [1, 2, 3, 4, 5]).map (WidgetId.mk sshCategory) := by
    cases hsel : sp.selectedSshHost with
    | none =>
      rw [if_pos (getElem?_min_eq_none.1 hsel)]
      rfl
    | some host =>
      rw [if_neg fun h => by simp [getElem?_min_eq_none.2 h, selectedSshHost] at hsel]
      rfl
  simp only [sshWidgetDescs, List.map_append]
  rw [entryDescs_ids sshCategory sshListBase _ fun _ _ => rfl, hfields]
  rfl

theorem keybindingsWidgetDescs_ids (loc : Locale) :
    (sp.keybindingsWidgetDescs loc).map WidgetDesc.id =
      (entryIndices keyListBase sp.keybindings.length ++
        (if sp.keybindings = [] then [] else [1, 2]) ++ [keyAdd, keyDelete, keyLeader]).map
          (WidgetId.mk keybindingsCategory) := by
  have hfields : (sp.selectedKeyBinding.elim [] (sp.keyFieldDescs loc)).map WidgetDesc.id =
      (if sp.keybindings = [] then [] else [1, 2]).map (WidgetId.mk keybindingsCategory) := by
    cases hsel : sp.selectedKeyBinding with
    | none =>
      rw [if_pos (getElem?_min_eq_none.1 hsel)]
      rfl
    | some kb =>
      rw [if_neg fun h => by simp [getElem?_min_eq_none.2 h, selectedKeyBinding] at hsel]
      rfl
  simp only [keybindingsWidgetDescs, List.map_append]
  rw [entryDescs_ids keybindingsCategory keyListBase _ fun _ _ => rfl, hfields]
  rfl

theorem profilesWidgetDescs_ids (loc : Locale) :
    (sp.profilesWidgetDescs loc).map WidgetDesc.id =
      (if sp.profiles = [] then [] else 0 :: entryIndices profilesListBase sp.profiles.length).map
        (WidgetId.mk profilesCategory) := by
  unfold profilesWidgetDescs
  split_ifs
  · rfl
  · rw [List.map_cons, List.map_cons, entryDescs_ids profilesCategory _ _ fun _ _ => rfl]

theorem widgetDescs_ids (loc : Locale) :
    (sp.widgetDescs loc).map WidgetDesc.id =
      sp.widgetIndices.map (WidgetId.mk (categoryNumber sp.category)) := by
  unfold widgetDescs widgetIndices
  cases sp.category with
  | startup => rfl
  | font => rfl
  | theme => exact themeWidgetDescs_ids loc
  | window => exact rowDescs_ids windowCategory _ (fun _ _ => rfl) (sp.windowRows loc)
  | ssh => exact sshWidgetDescs_ids loc
  | keybindings => exact keybindingsWidgetDescs_ids loc
  | profiles => exact profilesWidgetDescs_ids loc
  | blocks => rfl
  | security => exact rowDescs_ids securityCategory _ (fun _ _ => rfl) _

/-- The list of a category is short enough for its ids. -/
def ListFits (sp : Panel) : SettingsCategory → Prop
  | .ssh => sshListBase.toNat + sp.sshHosts.length ≤ 2 ^ 16
  | .keybindings => keyListBase.toNat + sp.keybindings.length ≤ 2 ^ 16
  | .profiles => profilesListBase.toNat + sp.profiles.length ≤ 2 ^ 16
  | _ => True

/-- In the Theme tab there is no widget between the rows and the swatches. -/
def FocusFits (category : SettingsCategory) (index : UInt16) : Prop :=
  category = .theme → index < 2 ∨ themeSwatchBase ≤ index

/-- The list of the current category fits, and so does the focus. -/
structure Fits (sp : Panel) : Prop where
  list : sp.ListFits sp.category
  focus : FocusFits sp.category sp.focusedWidgetIndex

theorem toNat_entry {base : UInt16} {count i : ℕ} (h : base.toNat + count ≤ 2 ^ 16)
    (hi : i < count) : (base + UInt16.ofNat i).toNat = base.toNat + i := by
  have hi' : i < UInt16.size := by
    rw [show UInt16.size = 2 ^ 16 from rfl]
    omega
  rw [UInt16.toNat_add, UInt16.toNat_ofNat_of_lt' hi', Nat.mod_eq_of_lt (by omega)]

/-- Entries are at or above the base. -/
theorem mem_entryIndices {base : UInt16} {count : ℕ} (h : base.toNat + count ≤ 2 ^ 16)
    {index : UInt16} (hi : index ∈ entryIndices base count) : base.toNat ≤ index.toNat := by
  obtain ⟨i, hrange, rfl⟩ := List.mem_map.1 hi
  rw [toNat_entry h (List.mem_range.1 hrange)]
  omega

theorem nodup_entryIndices (base : UInt16) {count : ℕ} (h : base.toNat + count ≤ 2 ^ 16) :
    (entryIndices base count).Nodup := by
  refine List.Nodup.map_on ?_ List.nodup_range
  intro i hi j hj heq
  have hnat := congrArg UInt16.toNat heq
  rw [toNat_entry h (List.mem_range.1 hi), toNat_entry h (List.mem_range.1 hj)] at hnat
  omega

theorem nodup_rowIndices {count : ℕ} (h : count ≤ 2 ^ 16) : (rowIndices count).Nodup := by
  have hnodup := nodup_entryIndices 0 (by simpa using h)
  simpa only [entryIndices, rowIndices, UInt16.zero_add] using hnodup

/-- The entries of a list, and the fields below it. -/
theorem nodup_entries_append {base : UInt16} {count : ℕ} (h : base.toNat + count ≤ 2 ^ 16)
    {fields : List UInt16} (hnodup : fields.Nodup)
    (hbelow : fields.all fun i => i.toNat < base.toNat) :
    (entryIndices base count ++ fields).Nodup := by
  rw [List.nodup_append]
  refine ⟨nodup_entryIndices _ h, hnodup, ?_⟩
  rintro i hi j hj rfl
  have hlt := of_decide_eq_true (List.all_eq_true.1 hbelow i hj)
  exact absurd hlt (Nat.not_lt.2 (mem_entryIndices h hi))

theorem nodup_widgetIndices (h : sp.Fits) : sp.widgetIndices.Nodup := by
  have hlist := h.list
  cases hcat : sp.category with
  | startup | font | window | blocks | security =>
    simp only [widgetIndices, hcat]
    exact nodup_rowIndices (by decide)
  | theme =>
    simp only [widgetIndices, hcat]
    decide
  | ssh =>
    rw [hcat] at hlist
    simp only [widgetIndices, hcat, List.append_assoc]
    refine nodup_entries_append hlist ?_ ?_ <;> split_ifs <;> decide
  | keybindings =>
    rw [hcat] at hlist
    simp only [widgetIndices, hcat, List.append_assoc]
    refine nodup_entries_append hlist ?_ ?_ <;> split_ifs <;> decide
  | profiles =>
    rw [hcat] at hlist
    simp only [widgetIndices, hcat]
    split_ifs
    · exact List.nodup_nil
    · refine List.nodup_cons.2 ⟨?_, nodup_entryIndices _ hlist⟩
      intro hmem
      exact absurd (mem_entryIndices hlist hmem) (by decide)

theorem mem_rowIndices {count : ℕ} {index : UInt16} (h : index.toNat < count) :
    index ∈ rowIndices count :=
  List.mem_map.2 ⟨index.toNat, List.mem_range.2 h, UInt16.ofNat_toNat⟩

/-- Fields that are numbered from 1 on. -/
theorem mem_fields (count : ℕ) {index : UInt16} (hpos : 1 ≤ index.toNat)
    (hle : index.toNat ≤ count) : index ∈ (List.range count).map fun i => UInt16.ofNat (i + 1) := by
  refine List.mem_map.2 ⟨index.toNat - 1, List.mem_range.2 (by omega), ?_⟩
  rw [Nat.sub_add_cancel hpos, UInt16.ofNat_toNat]

/-- The selected entry of a list is one of its entries. -/
theorem selected_mem_entryIndices {α : Type} {l : List α} (hl : l ≠ []) (base : UInt16) (i : ℕ) :
    base + UInt16.ofNat (min i (l.length - 1)) ∈ entryIndices base l.length := by
  have hpos := List.length_pos_of_ne_nil hl
  exact List.mem_map_of_mem (List.mem_range.2 (by omega))

theorem rowFocus_eq_some {category : UInt8} {index : UInt16} {count id : ℕ}
    (h : rowFocus category index count = some id) :
    index.toNat < count ∧ id = settingsWidgetId ⟨category, index⟩ := by
  unfold rowFocus at h
  split_ifs at h with hlt
  exact ⟨hlt, (Option.some.inj h).symm⟩

/-- Of the hosts the selected one has the focus, of its fields and the buttons the focused one. -/
theorem sshFocus_eq_some (hcat : sp.category = .ssh) {id : ℕ} (hid : sp.widgetFocusId = some id) :
    ∃ index ∈ entryIndices sshListBase sp.sshHosts.length ++
        (if sp.sshHosts = [] then [] else [1, 2, 3, 4, 5]) ++ [sshAdd, sshDelete],
      id = settingsWidgetId ⟨sshCategory, index⟩ := by
  simp only [widgetFocusId, hcat] at hid
  by_cases hempty : sp.sshHosts = []
  · simp only [hempty, decide_true, Bool.not_true, Bool.false_eq_true, and_false, if_false] at hid
    split_ifs at hid
    exact ⟨sshAdd, by simp, (Option.some.inj hid).symm⟩
  · rw [if_neg hempty]
    simp only [hempty, decide_false, Bool.not_false, and_true] at hid
    split_ifs at hid with hopen hlist hfield hadd hdelete <;>
      obtain rfl := Option.some.inj hid
    · exact ⟨_, List.mem_append_left _ (List.mem_append_left _
        (selected_mem_entryIndices hempty _ _)), rfl⟩
    · have hmem := mem_fields 5 (UInt16.le_iff_toNat_le.1 hfield.1)
        (UInt16.le_iff_toNat_le.1 hfield.2)
      exact ⟨_, List.mem_append_left _ (List.mem_append_right _ hmem), rfl⟩
    · exact ⟨sshAdd, by simp, rfl⟩
    · exact ⟨sshDelete, by simp, rfl⟩

theorem keyFocus_eq_some (hcat : sp.category = .keybindings) {id : ℕ}
    (hid : sp.widgetFocusId = some id) :
    ∃ index ∈ entryIndices keyListBase sp.keybindings.length ++
        (if sp.keybindings = [] then [] else [1, 2]) ++ [keyAdd, keyDelete, keyLeader],
      id = settingsWidgetId ⟨keybindingsCategory, index⟩ := by
  simp only [widgetFocusId, hcat] at hid
  by_cases hempty : sp.keybindings = []
  · simp only [hempty, decide_true, Bool.not_true, Bool.false_eq_true, and_false, if_false] at hid
    split_ifs at hid <;> obtain rfl := Option.some.inj hid
    · exact ⟨keyAdd, by simp, rfl⟩
    · exact ⟨keyLeader, by simp, rfl⟩
  · rw [if_neg hempty]
    simp only [hempty, decide_false, Bool.not_false, and_true] at hid
    split_ifs at hid with hopen hlist hfield hadd hdelete hleader <;>
      obtain rfl := Option.some.inj hid
    · exact ⟨_, List.mem_append_left _ (List.mem_append_left _
        (selected_mem_entryIndices hempty _ _)), rfl⟩
    · have hmem := mem_fields 2 (UInt16.le_iff_toNat_le.1 hfield.1)
        (UInt16.le_iff_toNat_le.1 hfield.2)
      exact ⟨_, List.mem_append_left _ (List.mem_append_right _ hmem), rfl⟩
    · exact ⟨keyAdd, by simp, rfl⟩
    · exact ⟨keyDelete, by simp, rfl⟩
    · exact ⟨keyLeader, by simp, rfl⟩

/-- The reported focus is on a widget that is there. -/
theorem widgetFocusId_eq_some (h : sp.Fits) {id : ℕ} (hid : sp.widgetFocusId = some id) :
    ∃ index ∈ sp.widgetIndices, id = settingsWidgetId ⟨categoryNumber sp.category, index⟩ := by
  cases hcat : sp.category with
  | startup | window | security | font =>
    simp only [widgetFocusId, widgetIndices, hcat] at hid ⊢
    obtain ⟨hrow, rfl⟩ := rowFocus_eq_some hid
    exact ⟨_, mem_rowIndices hrow, rfl⟩
  | theme =>
    simp only [widgetFocusId, widgetIndices, hcat] at hid ⊢
    obtain ⟨hrow, rfl⟩ := rowFocus_eq_some hid
    refine ⟨_, List.mem_append_left _ (mem_rowIndices ?_), rfl⟩
    rcases h.focus hcat with hlow | hhigh
    · exact UInt16.lt_iff_toNat_lt.1 hlow
    · exact absurd hrow (Nat.not_lt.2 (UInt16.le_iff_toNat_le.1 hhigh))
  | ssh =>
    simp only [widgetIndices, hcat]
    exact sshFocus_eq_some hcat hid
  | keybindings =>
    simp only [widgetIndices, hcat]
    exact keyFocus_eq_some hcat hid
  | profiles =>
    simp only [widgetFocusId, widgetIndices, hcat] at hid ⊢
    split_ifs at hid ⊢ with hempty
    exact ⟨_, List.mem_cons_of_mem _ (selected_mem_entryIndices hempty _ _),
      (rowFocus_eq_some hid).2⟩
  | blocks =>
    simp only [widgetFocusId, hcat] at hid
    cases hid

theorem widgetNodes_ids (env : Env) :
    (sp.widgetNodes env).map Prod.fst = (sp.widgetTargets env).map nodeId := by
  simp only [widgetNodes, widgetTargets, List.map_map]
  rfl

theorem widgetTargets_eq (env : Env) :
    sp.widgetTargets env = sp.widgetIndices.map fun index =>
      .settingsWidget ⟨categoryNumber sp.category, index⟩ := by
  have hids := congrArg (List.map NodeIdKind.settingsWidget) (sp.widgetDescs_ids env.loc)
  rw [List.map_map, List.map_map] at hids
  exact hids

theorem nodup_widgetTargets (env : Env) (h : sp.Fits) : (sp.widgetTargets env).Nodup := by
  rw [widgetTargets_eq]
  refine (nodup_widgetIndices h).map ?_
  intro i j heq
  exact congrArg WidgetId.index (NodeIdKind.settingsWidget.inj heq)

/-- The footer, the dialogs and the dialog itself, which are there once. -/
theorem mem_targets (env : Env) {k : NodeIdKind} (hk : k ∈ sp.targets env) :
    Encodable k ∧ k.area = .overlay := by
  simp only [targets, footerTargets, listTargets, widgetTargets, sshDialogTargets,
    keyDialogTargets, List.cons_append, List.append_assoc, List.mem_cons, List.mem_append,
    List.mem_map, List.mem_range] at hk
  rcases hk with rfl | rfl | hk | rfl | ⟨i, hi, rfl⟩ | ⟨desc, -, rfl⟩ | rfl | hk | hk
  · exact ⟨trivial, rfl⟩
  · exact ⟨trivial, rfl⟩
  · split_ifs at hk
    · rw [List.mem_singleton.1 hk]
      exact ⟨trivial, rfl⟩
    · cases hk
  · exact ⟨trivial, rfl⟩
  · exact ⟨hi.trans (by decide), rfl⟩
  · exact ⟨trivial, rfl⟩
  · exact ⟨trivial, rfl⟩
  · split_ifs at hk
    · simp only [List.mem_cons, List.not_mem_nil, or_false] at hk
      rcases hk with rfl | rfl | rfl <;> exact ⟨trivial, rfl⟩
    · cases hk
  · split_ifs at hk
    · simp only [List.mem_cons, List.not_mem_nil, or_false] at hk
      rcases hk with rfl | rfl | rfl <;> exact ⟨trivial, rfl⟩
    · cases hk

theorem nodup_targets (env : Env) (h : sp.Fits) : (sp.targets env).Nodup := by
  have hwidgets := nodup_widgetTargets env h
  have htabs : ((List.range SettingsCategory.all.length).map NodeIdKind.settingsTab).Nodup :=
    nodup_range_map (fun _ _ => NodeIdKind.settingsTab.inj) _
  have hfooter : sp.footerTargets.Sublist
      [.settingsFooterOpenConfig, .settingsFooterResetCategory] := by
    refine .cons_cons _ ?_
    split_ifs
    · exact .refl _
    · exact List.nil_sublist _
  have hssh : sp.sshDialogTargets.Sublist
      [.settingsSshDeleteDialog, .settingsSshDeleteCancelBtn, .settingsSshDeleteConfirmBtn] := by
    unfold sshDialogTargets
    split_ifs
    · exact .refl _
    · exact List.nil_sublist _
  have hkey : sp.keyDialogTargets.Sublist
      [.settingsKeyDeleteDialog, .settingsKeyDeleteCancelBtn, .settingsKeyDeleteConfirmBtn] := by
    unfold keyDialogTargets
    split_ifs
    · exact .refl _
    · exact List.nil_sublist _
  -- with both dialogs and all of the footer
  refine List.Nodup.sublist ((((hfooter.cons_cons _).append_right _).append_right _).append
    (hssh.cons_cons _) |>.append hkey) ?_
  simp only [List.nodup_append, listTargets, hwidgets]
  simp [widgetTargets]
  refine ⟨⟨htabs, ?_⟩, ?_⟩
  · rintro k (⟨i, -, rfl⟩ | ⟨desc, -, rfl⟩) <;> simp
  · rintro k (⟨i, -, rfl⟩ | ⟨desc, -, rfl⟩ | rfl | rfl | rfl | rfl) <;> simp

theorem panelNodes_ids (env : Env) :
    (buildSettingsPanelNodes env sp).nodes.map Prod.fst = (sp.targets env).map nodeId := by
  have htabs : (sp.categoryTabNodes env).map Prod.fst =
      ((List.range SettingsCategory.all.length).map NodeIdKind.settingsTab).map nodeId := by
    rw [categoryTabNodes, map_mapIdx, mapIdx_eq_range_map, List.map_map]
    rfl
  have hfooter : (sp.footerNodes env).map Prod.fst = sp.footerTargets.map nodeId := by
    unfold footerNodes footerTargets
    split_ifs <;> rfl
  have hssh : sp.sshDialogNodes.map Prod.fst = sp.sshDialogTargets.map nodeId := by
    unfold sshDialogNodes sshDialogTargets
    split_ifs <;> rfl
  have hkey : (sp.keyDialogNodes env).map Prod.fst = sp.keyDialogTargets.map nodeId := by
    unfold keyDialogNodes keyDialogTargets
    split_ifs <;> rfl
  simp only [buildSettingsPanelNodes, Panel.targets, listTargets, List.map_cons, List.map_append,
    List.cons_append, List.append_assoc, htabs, hfooter, hssh, hkey, widgetNodes_ids]
  rfl

theorem mem_widgetTargets_ids (env : Env) {index : UInt16} (h : index ∈ sp.widgetIndices) :
    settingsWidgetId ⟨categoryNumber sp.category, index⟩ ∈ (sp.widgetTargets env).map nodeId := by
  rw [widgetTargets_eq, List.map_map]
  exact List.mem_map_of_mem h

/-- The focus is on a widget, on a button of the dialog that is shown, or on the tab of the
    category. -/
theorem panelFocus_mem (env : Env) (h : sp.Fits) : sp.panelFocus ∈ (sp.targets env).map nodeId := by
  simp only [targets, List.map_append, List.map_cons, List.cons_append, List.append_assoc,
    List.mem_cons, List.mem_append]
  unfold panelFocus
  cases hid : sp.widgetFocusId with
  | some id =>
    obtain ⟨index, hindex, rfl⟩ := widgetFocusId_eq_some h hid
    exact .inr (.inr (.inr (.inl (mem_widgetTargets_ids env hindex))))
  | none =>
    simp only []
    split_ifs with hssh hconfirm hkey hconfirm
    · simp [sshDialogTargets, hssh, nodeId]
    · simp [sshDialogTargets, hssh, nodeId]
    · simp [keyDialogTargets, hkey, nodeId]
    · simp [keyDialogTargets, hkey, nodeId]
    · refine .inr (.inr (.inl ?_))
      rw [listTargets, List.map_cons, List.map_map]
      refine List.mem_cons_of_mem _ (List.mem_map.2 ⟨sp.category.index, ?_, rfl⟩)
      cases sp.category <;> decide

end Panel

theorem spans_deleteDialog {dialog cancel confirm : ℕ} {label target confirmText : String}
    {confirmFocused : Bool} : Spans dialog (edges (Panel.deleteDialogNodes dialog cancel confirm
      label target confirmText confirmFocused)) := by
  refine spans_over_leaves rfl ?_
  intro n hn
  simp only [List.mem_cons, List.not_mem_nil, or_false] at hn
  rcases hn with rfl | rfl <;> rfl

theorem under_footer (env : Env) (sp : Panel) :
    Under ((sp.footerNodes env).map Prod.fst) (edges (sp.footerNodes env)) := by
  rw [edges_leaves]
  · exact Under.leaves _
  · unfold Panel.footerNodes
    split_ifs <;> simp

theorem under_sshDialog (sp : Panel) :
    Under (if sp.sshDialogShown then [settingsSshDeleteDialogId] else [])
      (edges sp.sshDialogNodes) := by
  unfold Panel.sshDialogNodes
  split_ifs
  · exact Under.single spans_deleteDialog
  · exact Under.nil

theorem under_keyDialog (env : Env) (sp : Panel) :
    Under (if sp.keyDialogShown then [settingsKeyDeleteDialogId] else [])
      (edges (sp.keyDialogNodes env)) := by
  unfold Panel.keyDialogNodes
  split_ifs
  · exact Under.single spans_deleteDialog
  · exact Under.nil

/-- The parts of the panel: the category tabs, the content, the footer and the delete dialogs. -/
theorem spans_settingsPanel (env : Env) (sp : Panel) :
    Spans settingsPanelId (edges (buildSettingsPanelNodes env sp).nodes) := by
  have htabs : Spans settingsTablistId (edges ((settingsTablistId,
      { role := .tabList, label := some "Categories",
        children := (List.range SettingsCategory.all.length).map settingsTabIdAt }) ::
      sp.categoryTabNodes env)) := by
    refine spans_over_leaves ?_ ?_
    · rw [Panel.categoryTabNodes, map_mapIdx, mapIdx_eq_range_map]
    · intro n hn
      obtain ⟨i, hi, rfl⟩ := List.mem_mapIdx.1 hn
      rfl
  have hcontent : Spans settingsContentId
      (edges ((settingsContentId, sp.contentNode env) :: sp.widgetNodes env)) := by
    refine spans_over_leaves rfl ?_
    intro n hn
    obtain ⟨desc, -, rfl⟩ := List.mem_map.1 hn
    rfl
  have hunder := ((((Under.single htabs).append (Under.single hcontent)).append
    (under_footer env sp)).append (under_sshDialog sp)).append (under_keyDialog env sp)
  have hchildren : sp.panelChildren =
      [settingsTablistId] ++ [settingsContentId] ++ (sp.footerNodes env).map Prod.fst ++
        (if sp.sshDialogShown then [settingsSshDeleteDialogId] else []) ++
        (if sp.keyDialogShown then [settingsKeyDeleteDialogId] else []) := by
    unfold Panel.panelChildren Panel.footerNodes
    split_ifs <;> rfl
  rw [← hchildren] at hunder
  refine Spans.perm hunder.node ?_
  simp only [buildSettingsPanelNodes, List.cons_append, List.append_assoc, edges_cons,
    edges_append]
  refine List.Perm.cons _ (List.perm_iff_count.2 fun n => ?_)
  simp only [List.count_append, List.count_cons]
  omega

theorem settingsPanelPart (env : Env) {sp : Panel} (h : sp.Fits) :
    Part .overlay settingsPanelId (buildSettingsPanelNodes env sp).nodes (sp.targets env) where
  ids := Panel.panelNodes_ids env
  nodup := Panel.nodup_targets env h
  encodable := fun _ hk => (Panel.mem_targets env hk).1
  area := fun _ hk => (Panel.mem_targets env hk).2
  spans := spans_settingsPanel env sp

/-! ### The overlay that is shown -/

namespace Shown

variable {env : Env} {t : Clock}

/-- There are ids for all entries of the lists, and the focus is on one of them. -/
def Fits (env : Env) (t : Clock) : Shown → Prop
  | closeDialog _ => True
  | quickSelect qs => qs.quickMatches.length ≤ dynRange
  | contextMenu menu => menu.items.length ≤ dynRange
  | palette p => (p.filtered env t).length ≤ dynRange
  | hostManager manager => (manager.filtered env).length ≤ dynRange
  | macroPicker picker => (picker.filtered env).length ≤ dynRange
  | settingsPanel sp => sp.Fits

theorem closeDialogPart (dialog : CloseWindowDialog) :
    Part .overlay closeDialogId (buildCloseDialogNodes dialog).nodes
      [.closeDialog, .closeDialogKill, .closeDialogCancel] := by
  refine Part.over_leaves (k := .closeDialog) rfl rfl ?_ (by decide) ?_ ?_
  · simp
  · simp [Encodable]
  · decide

/-- A dialog over a list, with nodes before the list. -/
theorem overListPart {list : ℕ} {ns : List (ℕ × Node)} {ks : List NodeIdKind}
    (hlist : Part .overlay list ns ks) (dialog : NodeIdKind) (d : Node)
    (before : List (ℕ × Node)) (kinds : List NodeIdKind) (hbefore : before.map Prod.fst = kinds.map nodeId)
    (hchildren : d.children = before.map Prod.fst ++ [list])
    (hleaves : ∀ n ∈ before, n.2.children = []) (hnodup : (dialog :: kinds ++ ks).Nodup)
    (hkinds : ∀ k ∈ dialog :: kinds, Encodable k ∧ k.area = .overlay) :
    Part .overlay (nodeId dialog) ((nodeId dialog, d) :: before ++ ns) (dialog :: kinds ++ ks) where
  ids := by rw [List.cons_append, List.map_cons, List.map_append, hbefore, hlist.ids,
    List.cons_append, List.map_cons, List.map_append]
  nodup := hnodup
  encodable := by
    intro k hk
    exact (List.mem_append.1 hk).elim (fun h => (hkinds k h).1) (hlist.encodable k)
  area := by
    intro k hk
    exact (List.mem_append.1 hk).elim (fun h => (hkinds k h).2) (hlist.area k)
  spans := by
    rw [List.cons_append, edges_cons, edges_append, edges_leaves hleaves, hchildren]
    exact ((Under.leaves _).append (Under.single hlist.spans)).node

theorem quickSelectPart {qs : QuickSelectState} (h : qs.quickMatches.length ≤ dynRange) :
    Part .overlay quickSelectId (buildQuickSelectNodes qs).nodes
      (.quickSelect :: listTargets .quickSelectList .quickSelectItem qs.quickMatches.length) := by
  have hlist := listPart isItem_quickSelect .quickSelectList
    { role := .listBox
      label := some (toString qs.quickMatches.length ++ " match(es)")
      children := (List.range qs.quickMatches.length).map quickselectItemId }
    (quickSelectItemNode qs) qs.quickMatches rfl (fun _ _ => rfl) (fun _ => nofun) trivial rfl h
  refine overListPart hlist .quickSelect _ [] [] rfl rfl (by simp) ?_ ?_
  · refine List.nodup_cons.2 ⟨?_, hlist.nodup⟩
    simp [listTargets]
  · exact List.forall_mem_singleton.2 ⟨trivial, rfl⟩

theorem palettePart {p : CommandPalette} (h : (p.filtered env t).length ≤ dynRange) :
    Part .overlay paletteId (buildPaletteNodes env t p).nodes
      ([.palette, .paletteSearch] ++
        listTargets .paletteList .paletteItem (p.filtered env t).length) := by
  have hlist := listPart isItem_palette .paletteList
    { role := .listBox
      label := some (toString (p.filtered env t).length ++ " candidate(s)")
      children := (List.range (p.filtered env t).length).map paletteItemId }
    (paletteItemNode p) (p.filtered env t) rfl (fun _ _ => rfl) (fun _ => nofun) trivial rfl h
  refine overListPart hlist .palette _
    [(paletteSearchId, { role := .searchInput, label := some "Search", value := some p.query })]
    [.paletteSearch] rfl rfl ?_ ?_ ?_
  · simp
  · rw [List.nodup_append]
    refine ⟨by decide, hlist.nodup, ?_⟩
    simp [listTargets]
  · exact List.forall_mem_cons.2 ⟨⟨trivial, rfl⟩, List.forall_mem_singleton.2 ⟨trivial, rfl⟩⟩

/-- **An overlay is a tree, built for its parts and its entries.** -/
theorem part {shown : Shown} (h : shown.Fits env t) :
    Part .overlay (shown.overlay env t).root (shown.overlay env t).nodes (shown.targets env t) := by
  cases shown with
  | closeDialog dialog => exact closeDialogPart dialog
  | quickSelect qs => exact quickSelectPart h
  | contextMenu menu =>
    exact listPart isItem_context .contextMenu _ _ _ rfl (fun _ _ => rfl) (fun _ => nofun) trivial rfl h
  | palette p => exact palettePart h
  | hostManager manager =>
    exact listPart isItem_host .hostManager _ _ _ rfl (fun _ _ => rfl) (fun _ => nofun) trivial rfl h
  | macroPicker picker =>
    exact listPart isItem_macro .macroPicker _ _ _ rfl (fun _ _ => rfl) (fun _ => nofun) trivial rfl h
  | settingsPanel sp => exact settingsPanelPart env h

theorem item_mem {item : ℕ → NodeIdKind} {id : ℕ → ℕ} (h : IsItem .overlay item id) {idx count : ℕ}
    (hidx : idx < count) (list : NodeIdKind) : id idx ∈ (listTargets list item count).map nodeId := by
  rw [← h.nodeId_eq]
  exact List.mem_map_of_mem (List.mem_cons_of_mem _ (List.mem_map_of_mem (List.mem_range.2 hidx)))

theorem list_mem {item : ℕ → NodeIdKind} {count : ℕ} (list : NodeIdKind) :
    nodeId list ∈ (listTargets list item count).map nodeId :=
  List.mem_map_of_mem List.mem_cons_self

/-- **The focus of an overlay is on one of its nodes.** -/
theorem focus_mem {shown : Shown} (h : shown.Fits env t) :
    (shown.overlay env t).focus ∈ (shown.targets env t).map nodeId := by
  cases shown with
  | closeDialog dialog =>
    simp only [overlay, buildCloseDialogNodes, targets]
    split_ifs <;> simp [nodeId]
  | quickSelect qs =>
    refine List.mem_cons_of_mem _ ?_
    simp only [overlay, buildQuickSelectNodes]
    cases hfind : qs.quickMatches.findIdx? qs.narrowsTo with
    | some idx =>
      have hidx := (List.findIdx?_eq_some_iff_getElem.1 hfind).1
      exact item_mem isItem_quickSelect hidx _
    | none =>
      simp only []
      split_ifs with hempty
      · exact list_mem _
      · exact item_mem isItem_quickSelect (List.length_pos_of_ne_nil hempty) _
  | contextMenu menu =>
    simp only [overlay, buildContextMenuNodes, targets]
    cases hhovered : menu.hovered.filter (· < menu.items.length) with
    | none => exact list_mem .contextMenu
    | some idx =>
      have hidx := (Option.filter_eq_some_iff.1 hhovered).2
      exact item_mem isItem_context (of_decide_eq_true hidx) _
  | palette p =>
    simp only [overlay, buildPaletteNodes, targets]
    split_ifs with hselected
    · rw [List.map_append]
      exact List.mem_append_right _ (item_mem isItem_palette hselected _)
    · simp [nodeId]
  | hostManager manager =>
    simp only [overlay, buildHostManagerNodes, listDialog, targets]
    split_ifs with hselected
    · exact item_mem isItem_host hselected _
    · exact list_mem .hostManager
  | macroPicker picker =>
    simp only [overlay, buildMacroPickerNodes, listDialog, targets]
    split_ifs with hselected
    · exact item_mem isItem_macro hselected _
    · exact list_mem .macroPicker
  | settingsPanel sp => exact Panel.panelFocus_mem env h

end Shown

/-! ### Bars and alerts -/

theorem infoBarNodes_ids (env : Env) (t : Clock) (bars : List InfoBar) :
    (buildInfoBarNodes env t bars).map Prod.fst = (infoBarTargets bars).map nodeId := by
  simp only [buildInfoBarNodes, infoBarTargets, List.map_map]
  rfl

theorem under_infoBars (env : Env) (t : Clock) (bars : List InfoBar) :
    Under ((buildInfoBarNodes env t bars).map Prod.fst) (edges (buildInfoBarNodes env t bars)) := by
  rw [edges_leaves]
  · exact Under.leaves _
  · intro n hn
    obtain ⟨bar, -, rfl⟩ := List.mem_map.1 hn
    rfl

/-- One bar for each slot. -/
theorem nodup_infoBarTargets {bars : List InfoBar}
    (h : ((liveBars bars).map fun bar => bar.kind.slot).Nodup) : (infoBarTargets bars).Nodup := by
  have hmap := h.map (f := NodeIdKind.infoBar) fun _ _ => NodeIdKind.infoBar.inj
  rwa [List.map_map] at hmap

theorem mem_infoBarTargets {bars : List InfoBar} {k : NodeIdKind} (hk : k ∈ infoBarTargets bars) :
    Encodable k ∧ k.area = .bars := by
  obtain ⟨bar, -, rfl⟩ := List.mem_map.1 hk
  exact ⟨trivial, rfl⟩

theorem alertNodes_ids (alerts : List AlertEntry) :
    (buildAlertRegionNodes alerts).map Prod.fst = (alertTargets alerts).map nodeId := by
  unfold buildAlertRegionNodes alertTargets
  split_ifs
  · rfl
  · simp only [List.map_cons, List.map_map]
    rfl

theorem under_alerts (alerts : List AlertEntry) :
    Under (if alerts = [] then [] else [alertRegionId]) (edges (buildAlertRegionNodes alerts)) := by
  unfold buildAlertRegionNodes
  split_ifs
  · exact Under.nil
  · refine Under.single (spans_over_leaves ?_ ?_)
    · rw [List.map_map]
      rfl
    · intro n hn
      obtain ⟨alert, -, rfl⟩ := List.mem_map.1 hn
      rfl

theorem nodup_alertTargets {alerts : List AlertEntry} (h : (alerts.map AlertEntry.seq).Nodup) :
    (alertTargets alerts).Nodup := by
  unfold alertTargets
  split_ifs
  · exact List.nodup_nil
  · have hmap := h.map (f := NodeIdKind.alert) fun _ _ => NodeIdKind.alert.inj
    rw [List.map_map] at hmap
    refine List.nodup_cons.2 ⟨?_, hmap⟩
    simp

theorem mem_alertTargets {alerts : List AlertEntry}
    (h : ∀ a ∈ alerts, a.seq < 2 ^ 64 - alertOffset) {k : NodeIdKind}
    (hk : k ∈ alertTargets alerts) : Encodable k ∧ k.area = .alerts := by
  unfold alertTargets at hk
  split_ifs at hk
  · cases hk
  · rcases List.mem_cons.1 hk with rfl | hk
    · exact ⟨trivial, rfl⟩
    · obtain ⟨alert, halert, rfl⟩ := List.mem_map.1 hk
      exact ⟨h alert halert, rfl⟩

/-! ## The tree -/

/-- What a screen reader asks of an update: the nodes have distinct ids, every listed child is
    there, every node but the root is listed once, and the focus is on a node; the nodes are a
    tree, and are decoded to `ks`. -/
structure WellFormed (u : TreeUpdate) (ks : List NodeIdKind) : Prop where
  nodup : (u.nodes.map Prod.fst).Nodup
  children : ∀ n ∈ u.nodes, ∀ c ∈ n.2.children, c ∈ u.nodes.map Prod.fst
  parent : ∀ n ∈ u.nodes, n.1 ≠ u.root → (u.nodes.flatMap fun m => m.2.children).count n.1 = 1
  focus : u.focus ∈ u.nodes.map Prod.fst
  spans : Spans u.root (edges u.nodes)
  decoded : (u.nodes.map fun n => decodeNodeId n.1) = ks

theorem map_decode_nodeId {ks : List NodeIdKind} (h : ∀ k ∈ ks, Encodable k) :
    (ks.map nodeId).map decodeNodeId = ks := by
  rw [List.map_map]
  conv_rhs => rw [← List.map_id ks]
  exact List.map_congr_left fun k hk => decode_nodeId (h k hk)

/-- Nodes that are a tree, with ids of different things. -/
theorem WellFormed.of_targets {u : TreeUpdate} {ks : List NodeIdKind}
    (hids : u.nodes.map Prod.fst = ks.map nodeId) (hnodup : ks.Nodup)
    (hencodable : ∀ k ∈ ks, Encodable k) (hspans : Spans u.root (edges u.nodes))
    (hfocus : u.focus ∈ ks.map nodeId) : WellFormed u ks := by
  have hdecode := map_decode_nodeId hencodable
  have hdistinct : (u.nodes.map Prod.fst).Nodup := by
    rw [hids]
    exact List.Nodup.of_map decodeNodeId (by rwa [hdecode])
  have hlisted : Forest.listed (edges u.nodes) = u.nodes.flatMap fun m => m.2.children :=
    List.flatMap_map _ _ u.nodes
  refine ⟨hdistinct, ?_, ?_, hids ▸ hfocus, hspans, ?_⟩
  · intro n hn c hc
    have hmem := hspans.mem_ids_of_listed (hlisted ▸ List.mem_flatMap.2 ⟨n, hn, hc⟩)
    rwa [ids_edges] at hmem
  · intro n hn hne
    rw [← hlisted]
    refine hspans.count_listed (by rwa [ids_edges]) ?_ hne
    rw [ids_edges]
    exact List.mem_map_of_mem hn
  · rw [← hdecode, ← hids, List.map_map]
    rfl

/-- Things of distinct areas are distinct. -/
theorem nodup_of_areas {pieces : List (Area × List NodeIdKind)}
    (hareas : (pieces.map Prod.fst).Nodup)
    (h : ∀ p ∈ pieces, p.2.Nodup ∧ ∀ k ∈ p.2, k.area = p.1) : (pieces.flatMap Prod.snd).Nodup := by
  rw [List.nodup_flatMap]
  refine ⟨fun p hp => (h p hp).1, ?_⟩
  rw [List.Nodup, List.pairwise_map] at hareas
  refine hareas.imp_of_mem ?_
  intro p q hp hq hne k hk hk'
  exact hne (((h p hp).2 k hk).symm.trans ((h q hq).2 k hk'))

namespace ClientState

variable {env : Env} {t : Clock} {s : ClientState}

/-- The pane that has the focus is one of the tabs. -/
def FocusListed (s : ClientState) : Prop :=
  ∀ paneId, s.focusedPaneId = some paneId → paneId ∈ s.effectiveTabOrder

/-- The tabs are held, and so is the focus if no overlay is shown; lists and alerts have ids. -/
structure Fits (env : Env) (t : Clock) (s : ClientState) : Prop where
  tabs : s.TabsHeld
  focus : s.shown = none → s.FocusListed
  overlay : ∀ shown, s.shown = some shown → shown.Fits env t
  bars : ((liveBars s.infoBars).map fun bar => bar.kind.slot).Nodup
  alerts : (s.alerts.map AlertEntry.seq).Nodup
  alerts_lt : ∀ a ∈ s.alerts, a.seq < 2 ^ 64 - alertOffset

/-- What the overlay is built for. -/
def overlayTargets (env : Env) (t : Clock) (s : ClientState) : List NodeIdKind :=
  s.shown.elim [] (Shown.targets env t)

/-- The things by their areas. -/
def pieces (env : Env) (t : Clock) (s : ClientState) : List (Area × List NodeIdKind) :=
  [(.root, [.root]), (.tabs, s.tabTargets), (.panes, s.paneAreaTargets),
    (.overlay, s.overlayTargets env t), (.bars, infoBarTargets s.infoBars),
    (.alerts, alertTargets s.alerts)]

theorem targets_perm : (s.targets env t).Perm ((s.pieces env t).flatMap Prod.snd) := by
  refine List.perm_iff_count.2 fun k => ?_
  simp only [targets, baseTargets, pieces, tabTargets, paneAreaTargets, overlayTargets,
    List.flatMap_cons, List.flatMap_nil, List.count_append, List.count_cons, List.count_nil]
  omega

theorem mem_overlayTargets (h : s.Fits env t) {k : NodeIdKind} (hk : k ∈ s.overlayTargets env t) :
    Encodable k ∧ k.area = .overlay := by
  unfold overlayTargets at hk
  cases hshown : s.shown with
  | none =>
    rw [hshown] at hk
    cases hk
  | some shown =>
    rw [hshown] at hk
    have hpart := Shown.part (h.overlay shown hshown)
    exact ⟨hpart.encodable k hk, hpart.area k hk⟩

theorem nodup_overlayTargets (h : s.Fits env t) : (s.overlayTargets env t).Nodup := by
  unfold overlayTargets
  cases hshown : s.shown with
  | none => exact List.nodup_nil
  | some shown => exact (Shown.part (h.overlay shown hshown)).nodup

/-- Every piece has its things once, in its own area, and with ids. -/
theorem pieces_spec (h : s.Fits env t) :
    ∀ p ∈ s.pieces env t, p.2.Nodup ∧ ∀ k ∈ p.2, Encodable k ∧ k.area = p.1 := by
  intro p hp
  simp only [pieces, List.mem_cons, List.not_mem_nil, or_false] at hp
  rcases hp with rfl | rfl | rfl | rfl | rfl | rfl
  · exact ⟨List.nodup_singleton _, List.forall_mem_singleton.2 ⟨trivial, rfl⟩⟩
  · exact ⟨(tabPart h.tabs.nodup).nodup, fun _ hk => mem_tabTargets hk⟩
  · exact ⟨(paneAreaPart h.tabs).nodup, fun _ hk => mem_paneAreaTargets hk⟩
  · exact ⟨nodup_overlayTargets h, fun _ hk => mem_overlayTargets h hk⟩
  · exact ⟨nodup_infoBarTargets h.bars, fun _ hk => mem_infoBarTargets hk⟩
  · exact ⟨nodup_alertTargets h.alerts, fun _ hk => mem_alertTargets h.alerts_lt hk⟩

theorem nodup_targets (h : s.Fits env t) : (s.targets env t).Nodup := by
  refine targets_perm.nodup_iff.2 (nodup_of_areas (by simp [pieces]) ?_)
  intro p hp
  exact ⟨(pieces_spec h p hp).1, fun k hk => ((pieces_spec h p hp).2 k hk).2⟩

theorem encodable_targets (h : s.Fits env t) : ∀ k ∈ s.targets env t, Encodable k := by
  intro k hk
  obtain ⟨p, hp, hk⟩ := List.mem_flatMap.1 (targets_perm.mem_iff.1 hk)
  exact ((pieces_spec h p hp).2 k hk).1

theorem nodes_ids (h : s.Fits env t) :
    (s.buildTreeFromState env t).nodes.map Prod.fst = (s.targets env t).map nodeId := by
  have hoverlay : ((s.overlay env t).elim [] Overlay.nodes).map Prod.fst =
      (s.overlayTargets env t).map nodeId := by
    unfold overlay overlayTargets
    cases hshown : s.shown with
    | none => rfl
    | some shown => exact (Shown.part (h.overlay shown hshown)).ids
  simp only [buildTreeFromState, baseNodes, targets, baseTargets, List.map_cons, List.map_append,
    List.cons_append, List.nil_append, tabNodes_ids, windowButtonNodes_ids, flatMap_paneNodes_ids,
    infoBarNodes_ids, alertNodes_ids, hoverlay]
  rfl

theorem under_overlay (h : s.Fits env t) :
    Under ((s.overlay env t).elim [] fun o => [o.root])
      (edges ((s.overlay env t).elim [] Overlay.nodes)) := by
  unfold overlay
  cases hshown : s.shown with
  | none => exact Under.nil
  | some shown => exact Under.single (Shown.part (h.overlay shown hshown)).spans

/-- The window over the tabs, the panes, the overlay, the bars and the alerts. -/
theorem spans_tree (h : s.Fits env t) :
    Spans rootId (edges (s.buildTreeFromState env t).nodes) := by
  have hunder := ((((Under.single (tabPart h.tabs.nodup).spans).append
    (Under.single (paneAreaPart h.tabs).spans)).append (under_overlay h)).append
      (under_infoBars env t s.infoBars)).append (under_alerts s.alerts)
  have hroot := hunder.node (r := rootId)
  change Spans rootId ((rootId, (s.rootNode env t).children) :: _) at hroot
  refine Spans.perm hroot (List.perm_iff_count.2 fun n => ?_)
  simp only [buildTreeFromState, baseNodes, edges_cons, edges_append, List.count_append,
    List.count_cons, edges_nil, List.count_nil, List.cons_append, List.nil_append]
  omega

/-- Without an overlay the focus is on the focused pane, or on the window. -/
theorem focus_mem (h : s.Fits env t) :
    (s.buildTreeFromState env t).focus ∈ (s.targets env t).map nodeId := by
  have hin : ∀ k, k = .root ∨ k ∈ s.effectiveTabOrder.flatMap s.paneTargets ∨
      k ∈ s.overlayTargets env t → k ∈ s.targets env t := by
    intro k hk
    rw [targets_perm.mem_iff, pieces]
    simp only [List.flatMap_cons, List.mem_append, paneAreaTargets, List.mem_cons,
      List.cons_append]
    tauto
  simp only [buildTreeFromState, overlay]
  cases hshown : s.shown with
  | some shown =>
    obtain ⟨k, hk, heq⟩ := List.mem_map.1 (Shown.focus_mem (h.overlay shown hshown))
    have hoverlay : k ∈ s.overlayTargets env t := by rwa [overlayTargets, hshown]
    exact List.mem_map.2 ⟨k, hin k (.inr (.inr hoverlay)), heq⟩
  | none =>
    cases hfocus : s.focusedPaneId with
    | none =>
      refine List.mem_map.2 ⟨.root, hin _ (.inl rfl), ?_⟩
      simp [defaultFocus, hfocus, nodeId]
    | some paneId =>
      have hlisted := h.focus hshown paneId hfocus
      obtain ⟨pane, hget⟩ := Panes.mem_keys.1 (h.tabs.held paneId hlisted)
      have hpane : NodeIdKind.pane paneId ∈ s.paneTargets paneId := by simp [paneTargets, hget]
      refine List.mem_map.2 ⟨.pane paneId, hin _ (.inr (.inl ?_)), ?_⟩
      · exact List.mem_flatMap.2 ⟨paneId, hlisted, hpane⟩
      · simp [defaultFocus, hfocus, nodeId]

/-- **The tree of a state in which everything fits is well formed.** -/
theorem wellFormed_of_fits (h : s.Fits env t) :
    WellFormed (s.buildTreeFromState env t) (s.targets env t) :=
  .of_targets (nodes_ids h) (nodup_targets h) (encodable_targets h) (spans_tree h) (focus_mem h)

/-! ### The tabs and the focus of a well-formed tree -/

theorem Shown.area_of_mem_targets {shown : Shown} {k : NodeIdKind} (hk : k ∈ shown.targets env t) :
    k.area = .overlay := by
  cases shown with
  | settingsPanel sp => exact (Panel.mem_targets env hk).2
  | _ =>
    simp only [Shown.targets, listTargets, List.mem_cons, List.mem_append, List.mem_map,
      List.not_mem_nil, or_false] at hk
    aesop

/-- A pane is built for a tab that is held. -/
theorem held_of_mem_targets {paneId : PaneId} (h : .pane paneId ∈ s.targets env t) :
    paneId ∈ s.effectiveTabOrder ∧ paneId ∈ s.panes.keys := by
  have hpane : NodeIdKind.pane paneId ∈ s.effectiveTabOrder.flatMap s.paneTargets := by
    simp only [targets, baseTargets, windowButtonTargets, infoBarTargets, alertTargets,
      List.cons_append, List.mem_cons, List.mem_append, List.mem_map, reduceCtorEq, and_false,
      exists_false, false_or, or_false, List.not_mem_nil] at h
    rcases h with ((h | h) | h) | h
    · split_ifs at h <;> simp at h
    · exact h
    · cases hshown : s.shown with
      | none => simp [hshown] at h
      | some shown =>
        rw [hshown] at h
        exact absurd (Shown.area_of_mem_targets h) nofun
    · split_ifs at h <;> simp at h
  obtain ⟨p, hp, hmem⟩ := List.mem_flatMap.1 hpane
  obtain rfl : p = paneId := (Option.some.inj (mem_paneTargets hmem).2.2).symm
  refine ⟨hp, Panes.mem_keys.2 ?_⟩
  unfold paneTargets at hmem
  cases hget : s.panes.get p with
  | none => simp [hget] at hmem
  | some pane => exact ⟨pane, rfl⟩

/-- **If the tree is well formed, the tabs are held, and so is the focus.** -/
theorem held_of_wellFormed (h : WellFormed (s.buildTreeFromState env t) (s.targets env t)) :
    s.TabsHeld ∧ (s.shown = none → s.FocusListed) := by
  have hdecode : ∀ k, Encodable k → nodeId k ∈ (s.buildTreeFromState env t).nodes.map Prod.fst →
      k ∈ s.targets env t := by
    intro k hk hmem
    obtain ⟨n, hn, heq⟩ := List.mem_map.1 hmem
    rw [← h.decoded, ← decode_nodeId hk, ← heq]
    exact List.mem_map_of_mem hn
  refine ⟨⟨?_, ?_⟩, ?_⟩
  · have hsub : s.tabNodes.Sublist (s.buildTreeFromState env t).nodes := by
      refine List.Sublist.trans ?_ (List.sublist_append_left _ (buildAlertRegionNodes s.alerts))
      refine List.Sublist.trans ?_ (List.sublist_append_left _ _)
      refine List.Sublist.trans ?_ (List.sublist_append_left _ _)
      refine List.Sublist.cons _ (List.Sublist.trans ?_ (List.sublist_append_left _ _))
      refine List.Sublist.trans ?_ (List.sublist_append_left _ _)
      refine List.Sublist.trans ?_ (List.sublist_append_left _ _)
      exact List.sublist_append_right _ _
    have hnodup := (hsub.map Prod.fst).nodup h.nodup
    rw [tabNodes_ids, List.map_map] at hnodup
    exact hnodup.of_map _
  · intro paneId hpane
    have harea : (paneAreaId, s.paneAreaNode) ∈ (s.buildTreeFromState env t).nodes := by
      simp [buildTreeFromState, baseNodes]
    have hchild : paneNodeId paneId ∈ s.paneAreaNode.children :=
      List.mem_append_left _ (List.mem_map_of_mem hpane)
    exact (held_of_mem_targets (hdecode (.pane paneId) trivial (h.children _ harea _ hchild))).2
  · intro hshown paneId hpane
    have heq : (s.buildTreeFromState env t).focus = paneNodeId paneId := by
      simp only [buildTreeFromState, overlay, hshown, Option.map_none, Option.elim_none,
        defaultFocus, hpane, Option.elim_some]
    have hfocus := h.focus
    rw [heq] at hfocus
    exact (held_of_mem_targets (hdecode (.pane paneId) trivial hfocus)).1

end ClientState

end Nexterm.A11y

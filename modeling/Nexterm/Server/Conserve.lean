/-
  Conservation of panes by the moves between windows.

  * `holdings`: the panes of a window and of a session, as a multiset of kinds and ids.
  * `Sound`: what every reachable session satisfies: no pane id occurs twice, panes are stored
    under their ids, the focus of each window is one of its panes.
  * `holdings_call`: a successful move keeps the holdings, up to the floating panes of a window
    that it removes.
-/
import Mathlib.Data.Multiset.Bind
import Nexterm.Server.Moves

namespace Nexterm.Server

open Std.ExtTreeMap

variable {F : Type}

/-- The containers of a window. -/
inductive PaneKind
  | pty
  | serial
  | floating
  deriving DecidableEq, Repr

/-! ## The panes of one container -/

/-- The panes of a map, under a kind. -/
def tagged {V : Type} (kind : PaneKind) (m : IdMap V) : Multiset (PaneKind × ℕ) :=
  (m.keys.map fun id => (kind, id) : List (PaneKind × ℕ))

section tagged

variable {V W : Type} {kind : PaneKind} {m : IdMap V} {id : ℕ}

theorem tagged_empty : tagged kind (∅ : IdMap V) = 0 := rfl

theorem tagged_eq_zero_iff : tagged kind m = 0 ↔ m = ∅ := by
  rw [tagged, Multiset.coe_eq_zero, List.map_eq_nil_iff, keys_eq_nil_iff]

theorem tagged_congr {m' : IdMap W} (h : m'.keys = m.keys) : tagged kind m' = tagged kind m := by
  unfold tagged; rw [h]

theorem mem_tagged {k : PaneKind} : (k, id) ∈ tagged kind m ↔ k = kind ∧ id ∈ m := by
  simp [tagged, and_comm, eq_comm]

theorem tagged_erase (h : id ∈ m) : tagged kind m = (kind, id) ::ₘ tagged kind (m.erase id) :=
  Multiset.coe_eq_coe.2 ((keys_erase_perm h).map _)

theorem tagged_erase_le : tagged kind (m.erase id) ≤ tagged kind m := by
  by_cases h : id ∈ m
  · rw [tagged_erase h]; exact Multiset.le_cons_self _ _
  · rw [erase_of_not_mem h]

theorem tagged_insert (v : V) (h : id ∉ m) :
    tagged kind (m.insert id v) = (kind, id) ::ₘ tagged kind m :=
  Multiset.coe_eq_coe.2 ((keys_insert_perm h).map _)

theorem tagged_insert_le (v : V) : tagged kind (m.insert id v) ≤ (kind, id) ::ₘ tagged kind m := by
  rw [← insert_erase_eq, tagged_insert v (by simp)]
  exact Multiset.cons_le_cons _ tagged_erase_le

end tagged

/-! ## The panes of a window -/

namespace Window

/-- The panes of a window: tiled PTY panes, serial panes and floating panes. -/
def holdings (w : Window F) : Multiset (PaneKind × ℕ) :=
  tagged .pty w.panes + tagged .serial w.serialPanes + tagged .floating w.floatingPanes

/-- The panes are stored under their ids, and the focus is one of them. -/
structure Sound (w : Window F) : Prop where
  keyed : KeyedById w.panes
  focus : w.FocusHeld

theorem holdings_congr {w w' : Window F} (hp : w'.panes.keys = w.panes.keys)
    (hs : w'.serialPanes.keys = w.serialPanes.keys)
    (hf : w'.floatingPanes.keys = w.floatingPanes.keys) : w'.holdings = w.holdings := by
  unfold holdings
  rw [tagged_congr hp, tagged_congr hs, tagged_congr hf]

/-- A take moves one PTY pane out of the window. -/
theorem Took.holdings {w w' : Window F} {paneId : ℕ} {pane : Pane} (h : w.Took paneId w' pane) :
    w.holdings = (.pty, paneId) ::ₘ w'.holdings := by
  unfold Window.holdings
  rw [tagged_erase (mem_iff_getElem?.2 ⟨pane, h.pane⟩), h.serialPanes,
    h.floatingPanes, tagged_congr h.panes, Multiset.cons_add, Multiset.cons_add]

theorem keys_resizeSerialPanes (rects : List PaneRect) (panes : IdMap Pane)
    (serials : IdMap SerialPane) : (resizeSerialPanes rects panes serials).keys = serials.keys :=
  keys_eq_of_mem_iff fun _ => mem_resizeSerialPanes _ _ _

variable [Ratio F] {w : Window F}

theorem holdings_resizeTiled {cols rows : ℕ} : (w.resizeTiled cols rows).holdings = w.holdings :=
  holdings_congr (keys_resizePanes _ _) rfl rfl

theorem holdings_resizeAllPanes {cols rows : ℕ} :
    (w.resizeAllPanes cols rows).holdings = w.holdings :=
  holdings_congr (keys_resizePanes _ _) (keys_resizeSerialPanes _ _ _) keys_map

theorem Sound.resizeTiled (h : w.Sound) (cols rows : ℕ) : (w.resizeTiled cols rows).Sound :=
  ⟨h.keyed.resize _, h.focus.imp_left (mem_resizePanes _ _).2⟩

theorem Sound.resizeAllPanes (h : w.Sound) (cols rows : ℕ) : (w.resizeAllPanes cols rows).Sound :=
  ⟨h.keyed.resize _,
    h.focus.imp (mem_resizePanes _ _).2 (mem_resizeSerialPanes _ _ _).2⟩

omit [Ratio F] in
theorem holdings_ofPane (id : ℕ) (name : String) (pane : Pane) (cols rows : ℕ) :
    (ofPane id name pane cols rows : Window F).holdings = {(.pty, pane.id)} := by
  unfold ofPane Window.holdings
  rw [tagged_insert pane (by simp)]
  rfl

theorem holdings_newWithPane (id : ℕ) (name : String) (pane : Pane) (cols rows : ℕ) :
    (newWithPane id name pane cols rows : Window F).holdings = {(.pty, pane.id)} := by
  rw [newWithPane, holdings_resizeAllPanes, holdings_ofPane]

omit [Ratio F] in
theorem sound_ofPane (id : ℕ) (name : String) (pane : Pane) (cols rows : ℕ) :
    (ofPane id name pane cols rows : Window F).Sound := by
  refine ⟨KeyedById.insert (fun id p hp => ?_) pane, Or.inl (by simp [ofPane])⟩
  simp at hp

/-- An insertion moves one PTY pane into the window. -/
theorem holdings_insertPaneAt (pane : Pane) (cols rows : ℕ) (dir : SplitDir) (position : Option ℕ)
    (h : pane.id ∉ w.panes) :
    (w.insertPaneAt pane cols rows dir position).holdings = (.pty, pane.id) ::ₘ w.holdings := by
  unfold insertPaneAt
  rw [holdings_resizeTiled]
  unfold Window.holdings
  rw [tagged_insert pane h, Multiset.cons_add, Multiset.cons_add]

theorem holdings_insertPaneAt_le (pane : Pane) (cols rows : ℕ) (dir : SplitDir)
    (position : Option ℕ) :
    (w.insertPaneAt pane cols rows dir position).holdings ≤ (.pty, pane.id) ::ₘ w.holdings := by
  unfold insertPaneAt
  rw [holdings_resizeTiled]
  unfold Window.holdings
  rw [← Multiset.cons_add, ← Multiset.cons_add]
  exact add_le_add_left (add_le_add_left (tagged_insert_le pane) _) _

theorem Sound.insertPaneAt (h : w.Sound) (pane : Pane) (cols rows : ℕ) (dir : SplitDir)
    (position : Option ℕ) : (w.insertPaneAt pane cols rows dir position).Sound :=
  Sound.resizeTiled ⟨h.keyed.insert pane, Or.inl (by simp)⟩ cols rows

/-! ## What a window operation does to the panes -/

/-- The pane that an operation may add. -/
def brings : WindowOp F → Multiset (PaneKind × ℕ)
  | .addPane newId _ _ _ _ => {(.pty, newId)}
  | .addSerialPane newId _ _ _ _ => {(.serial, newId)}
  | .insertPaneAt pane _ _ _ _ => {(.pty, pane.id)}
  | .openFloatingPane newId _ _ _ => {(.floating, newId)}
  | _ => 0

omit [Ratio F] in
/-- An operation that touches at most one container, and there adds at most `new`. -/
theorem holdings_le {w' : Window F} {new : Multiset (PaneKind × ℕ)}
    (h : ∃ a b c, tagged .pty w'.panes ≤ a + tagged .pty w.panes ∧
      tagged .serial w'.serialPanes ≤ b + tagged .serial w.serialPanes ∧
      tagged .floating w'.floatingPanes ≤ c + tagged .floating w.floatingPanes ∧ a + b + c = new) :
    w'.holdings ≤ new + w.holdings := by
  obtain ⟨a, b, c, ha, hb, hc, rfl⟩ := h
  refine (add_le_add (add_le_add ha hb) hc).trans (le_of_eq ?_)
  unfold Window.holdings
  abel

theorem holdings_step_le (w : Window F) (op : WindowOp F) :
    (w.step op).holdings ≤ brings op + w.holdings := by
  have same : ∀ (w' : Window F) {new}, w'.panes.keys = w.panes.keys →
      w'.serialPanes.keys = w.serialPanes.keys → w'.floatingPanes.keys = w.floatingPanes.keys →
      w'.holdings ≤ new + w.holdings := fun w' _ hp hs hf => by
    rw [holdings_congr hp hs hf]
    exact Multiset.le_add_left _ _
  cases op with
  | addPane newId totalCols totalRows dir opened =>
    simp only [step, addPaneWithOptions, brings]
    split_ifs
    · exact same _ rfl rfl rfl
    · cases opened with
      | error text => exact same _ rfl rfl rfl
      | ok u =>
        refine holdings_le ⟨{(.pty, newId)}, 0, 0, ?_, by simp, by simp, by simp⟩
        dsimp only
        rw [tagged_congr (keys_resizePanes _ _), Multiset.singleton_add]
        exact tagged_insert_le _
  | addSerialPane newId totalCols totalRows dir opened =>
    simp only [step, addSerialPane, brings]
    cases opened with
    | error text => exact Multiset.le_add_left _ _
    | ok u =>
      dsimp only
      rw [holdings_resizeAllPanes]
      exact holdings_le ⟨0, {(.serial, newId)}, 0, by simp, tagged_insert_le _, by simp, by simp⟩
  | insertPaneAt pane totalCols totalRows dir position => exact holdings_insertPaneAt_le ..
  | removeFocusedPane cols rows =>
    simp only [step, removeFocusedPane, brings]
    split_ifs
    · simp
    · rw [holdings_resizeTiled]
      exact holdings_le ⟨0, 0, 0, by simpa using tagged_erase_le, by simpa using tagged_erase_le,
        by simp, by simp⟩
  | takeFocusedPane cols rows =>
    simp only [step, brings]
    by_cases hcan : w.CanTakeFocused
    · obtain ⟨w', pane, ht⟩ := takeFocusedPane_of_can hcan cols rows
      rw [ht, (takeFocusedPane_some ht).2.holdings, zero_add]
      exact Multiset.le_cons_self _ _
    · obtain ⟨layout, ht, -⟩ := takeFocusedPane_of_not hcan cols rows
      rw [ht]
      exact same _ rfl rfl rfl
  | takePaneById paneId cols rows =>
    simp only [step, brings]
    by_cases hcan : w.CanTake paneId
    · obtain ⟨w', pane, ht⟩ := takePaneById_of_can hcan cols rows
      rw [ht, (takePaneById_some ht).2.holdings, zero_add]
      exact Multiset.le_cons_self _ _
    · rw [takePaneById_of_not hcan, zero_add]
  | swapFocusedWith targetPaneId =>
    simp only [step, swapFocusedWith]
    split_ifs <;> exact same _ rfl rfl rfl
  | reorderPanes newOrder =>
    simp only [step, reorderPanes]
    split_ifs <;> exact same _ rfl rfl rfl
  | setFocusedPane paneId =>
    simp only [step, setFocusedPane]
    split_ifs <;> exact same _ rfl rfl rfl
  | focusNext =>
    simp only [step, focusNext]
    split <;> exact same _ rfl rfl rfl
  | focusPrev =>
    simp only [step, focusPrev]
    split <;> exact same _ rfl rfl rfl
  | toggleZoom cols rows =>
    simp only [step, toggleZoom, brings]
    split_ifs
    · exact same _ keys_modify rfl rfl
    · rw [holdings_resizeAllPanes]
      exact same _ rfl rfl rfl
  | setLayoutMode mode cols rows =>
    simp only [step, setLayoutMode, holdings_resizeAllPanes]
    exact same _ rfl rfl rfl
  | adjustSplitRatio delta cols rows =>
    simp only [step, adjustSplitRatio]
    split_ifs
    · rw [holdings_resizeTiled]
      exact same _ rfl rfl rfl
    · exact same _ rfl rfl rfl
  | resizeAllPanes cols rows =>
    simp only [step, holdings_resizeAllPanes]
    exact same _ rfl rfl rfl
  | openFloatingPane newId totalCols totalRows opened =>
    simp only [step, openFloatingPane, brings]
    cases opened with
    | error text => exact same _ rfl rfl rfl
    | ok u =>
      exact holdings_le ⟨0, 0, {(.floating, newId)}, by simp, by simp, tagged_insert_le _, by simp⟩
  | closeFloatingPane paneId =>
    exact holdings_le ⟨0, 0, 0, by simp [step, closeFloatingPane],
      by simp [step, closeFloatingPane],
      by simpa [step, closeFloatingPane] using tagged_erase_le, rfl⟩
  | moveFloatingPane paneId colOff rowOff =>
    simp only [step, moveFloatingPane]
    split
    · exact same _ rfl rfl rfl
    · next h => exact same _ rfl rfl (keys_insert_mem _ (mem_iff_getElem?.2 ⟨_, h⟩))
  | resizeFloatingPane paneId cols rows =>
    simp only [step, resizeFloatingPane]
    split
    · exact same _ rfl rfl rfl
    · next h => exact same _ rfl rfl (keys_insert_mem _ (mem_iff_getElem?.2 ⟨_, h⟩))

theorem Sound.step (h : w.Sound) (op : WindowOp F) : (w.step op).Sound := by
  have refocus : ∀ i, ({ w with focusedPaneId := w.panes.keys.getD i w.focusedPaneId }).Sound :=
    fun i => ⟨h.keyed, by
      unfold FocusHeld
      rw [List.getD_eq_getElem?_getD]
      cases hi : w.panes.keys[i]? with
      | none => exact h.focus
      | some id => exact Or.inl (mem_keys.1 (List.mem_of_getElem? hi))⟩
  cases op with
  | addPane newId totalCols totalRows dir opened =>
    simp only [Window.step, addPaneWithOptions]
    split_ifs
    · exact ⟨h.keyed, h.focus⟩
    · cases opened with
      | error text => exact ⟨h.keyed, h.focus⟩
      | ok u =>
        exact ⟨KeyedById.resize (h.keyed.insert ⟨newId, _, _⟩) _,
          Or.inl ((mem_resizePanes _ _).2 (mem_insert_eq.2 (Or.inl rfl)))⟩
  | addSerialPane newId totalCols totalRows dir opened =>
    simp only [Window.step, addSerialPane]
    cases opened with
    | error text => exact h
    | ok u =>
      refine Sound.resizeAllPanes ?_ _ _
      exact ⟨h.keyed, Or.inr (mem_insert_eq.2 (Or.inl rfl))⟩
  | insertPaneAt pane totalCols totalRows dir position => exact h.insertPaneAt ..
  | removeFocusedPane cols rows =>
    simp only [Window.step, removeFocusedPane]
    split_ifs with hsize
    · exact h
    · refine Sound.resizeTiled ⟨h.keyed.erase _, Or.inl (nextId_mem
        (w := { w with panes := w.panes.erase _ }) ?_)⟩ _ _
      have := size_le_size_erase (t := w.panes) (k := w.focusedPaneId)
      dsimp only
      omega
  | takeFocusedPane cols rows =>
    simp only [Window.step]
    by_cases hcan : w.CanTakeFocused
    · obtain ⟨w', pane, ht⟩ := takeFocusedPane_of_can hcan cols rows
      have htook := (takeFocusedPane_some ht).2
      rw [ht]
      exact ⟨htook.keyed h.keyed, htook.focus h.focus⟩
    · obtain ⟨layout, ht, -⟩ := takeFocusedPane_of_not hcan cols rows
      rw [ht]
      exact ⟨h.keyed, h.focus⟩
  | takePaneById paneId cols rows =>
    simp only [Window.step]
    by_cases hcan : w.CanTake paneId
    · obtain ⟨w', pane, ht⟩ := takePaneById_of_can hcan cols rows
      have htook := (takePaneById_some ht).2
      rw [ht]
      exact ⟨htook.keyed h.keyed, htook.focus h.focus⟩
    · rw [takePaneById_of_not hcan]
      exact h
  | swapFocusedWith targetPaneId =>
    simp only [Window.step, swapFocusedWith]
    split_ifs <;> exact ⟨h.keyed, h.focus⟩
  | reorderPanes newOrder =>
    simp only [Window.step, reorderPanes]
    split_ifs <;> exact ⟨h.keyed, h.focus⟩
  | setFocusedPane paneId =>
    simp only [Window.step, setFocusedPane]
    split_ifs with hmem
    · exact ⟨h.keyed, Or.inl hmem⟩
    · exact h
  | focusNext =>
    simp only [Window.step, focusNext]
    split
    · exact refocus _
    · exact h
  | focusPrev =>
    simp only [Window.step, focusPrev]
    split
    · exact refocus _
    · exact h
  | toggleZoom cols rows =>
    simp only [Window.step, toggleZoom]
    split_ifs
    · exact ⟨h.keyed.modify _ _ _, h.focus.imp_left mem_modify.2⟩
    · exact Sound.resizeAllPanes (w := { w with zoomed := !w.zoomed }) ⟨h.keyed, h.focus⟩ _ _
  | setLayoutMode mode cols rows =>
    exact Sound.resizeAllPanes (w := { w with layoutMode := mode }) ⟨h.keyed, h.focus⟩ _ _
  | adjustSplitRatio delta cols rows =>
    simp only [Window.step, adjustSplitRatio]
    split_ifs
    · exact Sound.resizeTiled 
        (w := { w with layout := (w.layout.adjustRatioFor w.focusedPaneId delta).1 })
        ⟨h.keyed, h.focus⟩ _ _
    · exact ⟨h.keyed, h.focus⟩
  | resizeAllPanes cols rows => exact h.resizeAllPanes _ _
  | openFloatingPane newId totalCols totalRows opened => cases opened <;> exact ⟨h.keyed, h.focus⟩
  | closeFloatingPane paneId => exact ⟨h.keyed, h.focus⟩
  | moveFloatingPane paneId colOff rowOff =>
    simp only [Window.step, moveFloatingPane]
    split <;> exact ⟨h.keyed, h.focus⟩
  | resizeFloatingPane paneId cols rows =>
    simp only [Window.step, resizeFloatingPane]
    split <;> exact ⟨h.keyed, h.focus⟩

end Window

/-! ## The panes of a session -/

/-- The panes of all windows. -/
def held (m : IdMap (Window F)) : Multiset (PaneKind × ℕ) := sumValues Window.holdings m

/-- Every window is sound. -/
def AllSound (m : IdMap (Window F)) : Prop :=
  ∀ (k : ℕ) (w : Window F), m[k]? = some w → w.Sound

section held

variable {m m' : IdMap (Window F)} {k : ℕ} {w w' : Window F}

theorem AllSound.insert (h : AllSound m) (hw : w.Sound) : AllSound (m.insert k w) := by
  intro a v ha
  rw [getElem?_insert_eq] at ha
  split_ifs at ha
  · cases ha; exact hw
  · exact h a v ha

theorem AllSound.erase (h : AllSound m) : AllSound (m.erase k) := by
  intro a v ha
  rw [getElem?_erase_eq] at ha
  split_ifs at ha
  exact h a v ha

theorem held_erase_le : held (m.erase k) ≤ held m := by
  by_cases h : k ∈ m
  · obtain ⟨w, hw⟩ := mem_iff_getElem?.1 h
    rw [held, held, sumValues_erase _ hw]
    exact Multiset.le_add_left _ _
  · rw [erase_of_not_mem h]

theorem held_insert_le : held (m.insert k w) ≤ w.holdings + held m := by
  rw [held, sumValues_replace]
  exact add_le_add_right held_erase_le _

/-- Replacing a window by one with at most some new panes. -/
theorem held_replace_le {new : Multiset (PaneKind × ℕ)} (hw : m[k]? = some w)
    (h : w'.holdings ≤ new + w.holdings) : held (m.insert k w') ≤ new + held m := by
  rw [held, held, sumValues_replace, sumValues_erase _ hw, ← add_assoc]
  exact add_le_add_left h _

theorem holdings_le_held (hw : m[k]? = some w) : w.holdings ≤ held m := by
  rw [held, sumValues_erase _ hw]
  exact Multiset.le_add_right _ _

/-- No pane id occurs in two windows. -/
def IdsDisjoint (m : IdMap (Window F)) : Prop :=
  ∀ (k k' : ℕ) (w w' : Window F), m[k]? = some w → m[k']? = some w' → k ≠ k' →
    Disjoint (w.holdings.map Prod.snd) (w'.holdings.map Prod.snd)

theorem idsDisjoint_of_nodup (h : ((held m).map Prod.snd).Nodup) : IdsDisjoint m := by
  intro k k' w w' hw hw' hne
  have hw'' : (m.erase k)[k']? = some w' := by rw [getElem?_erase_eq, if_neg hne, hw']
  rw [held, sumValues_erase _ hw, Multiset.map_add, Multiset.nodup_add] at h
  exact h.2.2.mono_right (Multiset.map_le_map (holdings_le_held hw''))

end held

/-! ## Taking a pane and putting it elsewhere -/

variable [Ratio F]

/-- `Taken m pane m' dropped`: the pane has been taken out of the windows `m`, which leaves `m'`
    and drops the panes `dropped`. -/
inductive Taken (m : IdMap (Window F)) (pane : Pane) :
    IdMap (Window F) → Multiset (PaneKind × ℕ) → Prop
  | took {source paneId w w'} : m[source]? = some w → w.Took paneId w' pane →
      Taken m pane (m.insert source w') 0
  | whole {source paneId w} : m[source]? = some w → w.serialPanes = ∅ →
      w.panes.toList = [(paneId, pane)] → Taken m pane (m.erase source) (tagged .floating w.floatingPanes)

/-- `Put m pane newIds m' focus`: the pane has been put into the windows `m`, which gives `m'` with
    the pane in the window `focus`; a new window takes its id from `newIds`. -/
inductive Put (m : IdMap (Window F)) (pane : Pane) (newIds : List ℕ) :
    IdMap (Window F) → ℕ → Prop
  | new {newId name cols rows} : newId ∈ newIds →
      Put m pane newIds (m.insert newId (.newWithPane newId name pane cols rows)) newId
  | insert {target w cols rows dir position} : m[target]? = some w →
      Put m pane newIds (m.insert target (w.insertPaneAt pane cols rows dir position)) target

section Taken

variable {m m' : IdMap (Window F)} {pane : Pane} {dropped : Multiset (PaneKind × ℕ)}
  {newIds : List ℕ} {focus : ℕ}

omit [Ratio F] in
theorem Taken.sound (h : Taken m pane m' dropped) (hm : AllSound m) : AllSound m' := by
  cases h with
  | took hw htook =>
    exact hm.insert ⟨htook.keyed (hm _ _ hw).keyed, htook.focus (hm _ _ hw).focus⟩
  | whole hw hs hp => exact hm.erase

omit [Ratio F] in
theorem Taken.held (h : Taken m pane m' dropped) (hm : AllSound m) :
    held m = (.pty, pane.id) ::ₘ (held m' + dropped) := by
  cases h with
  | @took source paneId w w' hw htook =>
    have hid : pane.id = paneId := (hm _ _ hw).keyed _ _ htook.pane
    unfold Nexterm.Server.held
    rw [sumValues_erase _ hw, sumValues_replace, htook.holdings, hid, add_zero, Multiset.cons_add]
  | @whole source paneId w hw hs hp =>
    have hpane : w.panes[paneId]? = some pane := by
      rw [← mem_toList_iff_getElem?_eq_some, hp]; exact List.mem_singleton_self _
    have hid : pane.id = paneId := (hm _ _ hw).keyed _ _ hpane
    have hkeys : w.panes.keys = [paneId] := by rw [← map_fst_toList_eq_keys, hp]; rfl
    have hw1 : w.holdings = (.pty, paneId) ::ₘ tagged .floating w.floatingPanes := by
      unfold Window.holdings
      rw [hs, tagged_empty, add_zero, tagged, hkeys]
      rfl
    unfold Nexterm.Server.held
    rw [sumValues_erase _ hw, hw1, hid, Multiset.cons_add, add_comm]

theorem Put.sound (h : Put m pane newIds m' focus) (hm : AllSound m) : AllSound m' := by
  cases h with
  | new h => exact hm.insert ((Window.sound_ofPane ..).resizeAllPanes _ _)
  | insert hw => exact hm.insert ((hm _ _ hw).insertPaneAt ..)

theorem Put.held_le (h : Put m pane newIds m' focus) : held m' ≤ (.pty, pane.id) ::ₘ held m := by
  cases h with
  | new h =>
    refine held_insert_le.trans (le_of_eq ?_)
    rw [Window.holdings_newWithPane, Multiset.singleton_add]
  | insert hw =>
    rw [← Multiset.singleton_add]
    exact held_replace_le hw (Window.holdings_insertPaneAt_le ..)

/-- Nothing is lost if the new window has a fresh id and the pane is in no other window. -/
theorem Put.held (h : Put m pane newIds m' focus) (hnew : ∀ id ∈ newIds, id ∉ m)
    (hid : (PaneKind.pty, pane.id) ∉ held m) : held m' = (.pty, pane.id) ::ₘ held m := by
  cases h with
  | new h =>
    unfold Nexterm.Server.held
    rw [sumValues_insert _ _ (hnew _ h), Window.holdings_newWithPane, Multiset.singleton_add]
  | @insert target w _ _ _ _ hw =>
    have hnot : pane.id ∉ w.panes := fun hmem => by
      refine hid (Multiset.mem_of_le (holdings_le_held hw) ?_)
      simp [Window.holdings, mem_tagged, hmem]
    unfold Nexterm.Server.held
    rw [sumValues_replace, Window.holdings_insertPaneAt _ _ _ _ _ hnot, Multiset.cons_add,
      ← sumValues_erase _ hw]

omit [Ratio F] in
theorem Taken.mem (h : Taken m pane m' dropped) {k : ℕ} (hk : k ∈ m') : k ∈ m := by
  cases h with
  | took hw htook =>
    rcases mem_insert_eq.1 hk with rfl | hk
    · exact mem_iff_getElem?.2 ⟨_, hw⟩
    · exact hk
  | whole hw hs hp => exact (mem_erase_eq.1 hk).2

theorem Put.mem_of_mem (h : Put m pane newIds m' focus) {k : ℕ} (hk : k ∈ m') :
    k ∈ m ∨ k ∈ newIds := by
  cases h with
  | new hnew =>
    rcases mem_insert_eq.1 hk with rfl | hk
    · exact Or.inr hnew
    · exact Or.inl hk
  | insert hw =>
    rcases mem_insert_eq.1 hk with rfl | hk
    · exact Or.inl (mem_iff_getElem?.2 ⟨_, hw⟩)
    · exact Or.inl hk

/-- The destination is a window of the result. -/
theorem Put.mem (h : Put m pane newIds m' focus) : focus ∈ m' := by
  cases h <;> exact mem_insert_eq.2 (Or.inl rfl)

end Taken

/-! ## The moves -/

namespace PaneMove

/-- The window ids that a call may allocate. -/
def windowIds : PaneMove → List ℕ
  | .breakPane newId => [newId]
  | .movePane _ _ _ newId _ => [newId]
  | .joinPane _ => []

end PaneMove

namespace Session

/-- The panes of a session. -/
def holdings (s : Session F) : Multiset (PaneKind × ℕ) := held s.windows

omit [Ratio F] in
/-- The call takes the last tiled pane of a window that still holds floating panes. -/
def DropsFloating (s : Session F) : PaneMove → Prop
  | .movePane paneId _ _ _ pick => ∃ source w, s.sourceWindow paneId pick = some source ∧
      s.windows[source]? = some w ∧ w.paneCount ≤ 1 ∧ w.floatingPanes ≠ ∅
  | _ => False

variable {s : Session F}

/-- What a call does, in two cases: a take followed by a put, or an error. -/
def CallCases (s : Session F) (m : PaneMove) : Prop :=
  (∃ pane windows dropped windows' focus, Taken s.windows pane windows dropped ∧
    (dropped = 0 ↔ ¬s.DropsFloating m) ∧ Put windows pane m.windowIds windows' focus ∧
    s.call m = ({ s with windows := windows', focusedWindowId := focus }, none)) ∨
  (∃ windows e, s.call m = ({ s with windows := windows }, some e) ∧
    (windows = s.windows ∨ (∃ k, windows = s.windows.erase k) ∨
      (∃ k w layout, s.windows[k]? = some w ∧
        windows = s.windows.insert k { w with layout := layout }) ∨
      ∃ pane dropped, Taken s.windows pane windows dropped))

variable {s : Session F}

theorem breakPane_cases (newId : ℕ) : s.CallCases (.breakPane newId) := by
  simp only [CallCases, call, breakPane]
  cases hw : s.windows[s.focusedWindowId]? with
  | none => exact Or.inr ⟨s.windows, _, rfl, Or.inl rfl⟩
  | some w =>
    by_cases hcan : w.CanTakeFocused
    · obtain ⟨w', pane, ht⟩ := Window.takeFocusedPane_of_can hcan s.cols s.rows
      simp only [ht]
      exact Or.inl ⟨pane, _, 0, _, _, .took hw (Window.takeFocusedPane_some ht).2,
        iff_of_true rfl not_false, .new (List.mem_singleton_self _), rfl⟩
    · obtain ⟨layout, ht, -⟩ := Window.takeFocusedPane_of_not hcan s.cols s.rows
      simp only [ht]
      exact Or.inr ⟨_, _, rfl, Or.inr (Or.inr (Or.inl ⟨_, w, layout, hw, rfl⟩))⟩

theorem joinPane_cases (target : ℕ) : s.CallCases (.joinPane target) := by
  simp only [CallCases, call, joinPane]
  by_cases hsame : s.focusedWindowId = target
  · rw [if_pos hsame]
    exact Or.inr ⟨s.windows, _, rfl, Or.inl rfl⟩
  rw [if_neg hsame]
  cases hw : s.windows[s.focusedWindowId]? with
  | none => exact Or.inr ⟨s.windows, _, rfl, Or.inl rfl⟩
  | some w =>
    by_cases hcan : w.CanTakeFocused
    · obtain ⟨w', pane, ht⟩ := Window.takeFocusedPane_of_can hcan s.cols s.rows
      have htaken := Taken.took hw (Window.takeFocusedPane_some ht).2
      simp only [ht]
      cases hwt : (s.windows.insert s.focusedWindowId w')[target]? with
      | none => exact Or.inr ⟨_, _, rfl, Or.inr (Or.inr (Or.inr ⟨pane, 0, htaken⟩))⟩
      | some t =>
        exact Or.inl ⟨pane, _, 0, _, _, htaken, iff_of_true rfl not_false, .insert hwt, rfl⟩
    · obtain ⟨layout, ht, -⟩ := Window.takeFocusedPane_of_not hcan s.cols s.rows
      simp only [ht]
      exact Or.inr ⟨_, _, rfl, Or.inr (Or.inr (Or.inl ⟨_, w, layout, hw, rfl⟩))⟩

/-- A put of the move into the windows it finds. -/
theorem putInto_put {pane : Pane} {target newId destination : ℕ} {insertAt : Option ℕ}
    {s' : Session F} (h : s.putInto pane target insertAt newId = (s', .ok destination)) :
    ∃ windows', Put s.windows pane [newId] windows' destination ∧
      s' = { s with windows := windows', focusedWindowId := destination } := by
  unfold putInto at h
  split_ifs at h with h0
  · cases h
    exact ⟨_, .new (List.mem_singleton_self _), rfl⟩
  · cases ht : s.windows[target]? with
    | none => simp [ht] at h
    | some w =>
      simp only [ht, Prod.mk.injEq, Except.ok.injEq] at h
      obtain ⟨rfl, rfl⟩ := h
      exact ⟨_, .insert ht, rfl⟩

theorem movePane_cases (paneId target : ℕ) (insertAt : Option ℕ) (newId pick : ℕ) :
    s.CallCases (.movePane paneId target insertAt newId pick) := by
  simp only [CallCases, call, movePane]
  cases hsource : s.sourceWindow paneId pick with
  | none => exact Or.inr ⟨s.windows, _, rfl, Or.inl rfl⟩
  | some source =>
    obtain ⟨w, hw, hids⟩ := sourceWindow_some hsource
    by_cases hsame : source = target
    · simp only [hsame, if_true]
      exact Or.inr ⟨s.windows, _, rfl, Or.inl rfl⟩
    have hdrops : s.DropsFloating (.movePane paneId target insertAt newId pick) ↔
        w.paneCount ≤ 1 ∧ w.floatingPanes ≠ ∅ := by
      refine ⟨?_, fun h => ⟨source, w, hsource, hw, h⟩⟩
      rintro ⟨source', w', h1, h2, h⟩
      rw [hsource, Option.some.injEq] at h1
      rw [← h1, hw, Option.some.injEq] at h2
      exact h2 ▸ h
    rw [hdrops]
    simp only [hsame, if_false]
    rcases takeFrom_cases hw hids with
      ⟨hcount, hser, e, ht⟩ | ⟨hcount, hcan, e, ht⟩ | ⟨windows, pane, hcase, ht⟩
    · simp only [ht]
      exact Or.inr ⟨_, _, rfl, Or.inr (Or.inl ⟨source, rfl⟩)⟩
    · simp only [ht]
      exact Or.inr ⟨s.windows, _, rfl, Or.inl rfl⟩
    · obtain ⟨dropped, htaken, hdrop⟩ : ∃ dropped, Taken s.windows pane windows dropped ∧
          (dropped = 0 ↔ ¬(w.paneCount ≤ 1 ∧ w.floatingPanes ≠ ∅)) := by
        rcases hcase with ⟨h1, -, h2, h3, rfl⟩ | ⟨h1, h2, w', htook, rfl⟩
        · refine ⟨_, .whole hw h2 h3, ?_⟩
          rw [tagged_eq_zero_iff]
          simp [h1]
        · exact ⟨0, .took hw htook, by simp [h1]⟩
      simp only [ht]
      rcases putInto_cases (s := { s with windows := windows }) pane target insertAt newId with
        ⟨-, -, hp⟩ | ⟨-, s', d, hp⟩
      · simp only [hp]
        exact Or.inr ⟨_, _, rfl, Or.inr (Or.inr (Or.inr ⟨pane, dropped, htaken⟩))⟩
      · obtain ⟨windows', hput, rfl⟩ := putInto_put hp
        simp only [hp]
        exact Or.inl ⟨pane, windows, dropped, windows', d, htaken, hdrop, hput, rfl⟩

theorem call_cases (s : Session F) : ∀ m, s.CallCases m
  | .breakPane newId => breakPane_cases newId
  | .movePane paneId target insertAt newId pick => movePane_cases paneId target insertAt newId pick
  | .joinPane target => joinPane_cases target

/-- Whatever a call answers, it keeps the windows sound and adds no pane. -/
theorem call_held_le (hs : AllSound s.windows) (m : PaneMove) :
    AllSound (s.call m).1.windows ∧ (s.call m).1.holdings ≤ s.holdings := by
  rcases s.call_cases m with ⟨pane, windows, dropped, windows', focus, htaken, -, hput, hc⟩ |
    ⟨windows, e, hc, hw⟩
  · rw [hc]
    refine ⟨hput.sound (htaken.sound hs), hput.held_le.trans ?_⟩
    rw [holdings, htaken.held hs]
    exact Multiset.cons_le_cons _ (Multiset.le_add_right _ _)
  · rw [hc]
    rcases hw with rfl | ⟨k, rfl⟩ | ⟨k, w, layout, hk, rfl⟩ | ⟨pane, dropped, htaken⟩
    · exact ⟨hs, le_rfl⟩
    · exact ⟨hs.erase, held_erase_le⟩
    · refine ⟨hs.insert ⟨(hs _ _ hk).keyed, (hs _ _ hk).focus⟩, ?_⟩
      have h : held (s.windows.insert k { w with layout := layout }) ≤ 0 + held s.windows :=
        held_replace_le hk (by rw [zero_add]; exact le_rfl)
      rwa [zero_add] at h
    · refine ⟨htaken.sound hs, ?_⟩
      rw [holdings, holdings, htaken.held hs]
      exact (Multiset.le_add_right _ _).trans (Multiset.le_cons_self _ _)

end Session

/-! ## Reachable sessions -/

/-- The pane ids that the process-wide counter hands out for a request. -/
def Request.paneIds : Request F → List ℕ
  | .window (.split _ newId _) => [newId]
  | .window (.connectSerial _ newId _) => [newId]
  | .window (.openFloatingPane newId _) => [newId]
  | .newWindow _ paneId _ => [paneId]
  | _ => []

/-- The window ids that the process-wide counter hands out for a request. -/
def Request.windowIds : Request F → List ℕ
  | .newWindow windowId _ _ => [windowId]
  | .breakPane newId => [newId]
  | .movePane _ _ _ newId _ => [newId]
  | _ => []

omit [Ratio F] in
theorem brings_op (r : WindowRequest F) (cols rows : ℕ) :
    (Window.brings (r.op cols rows)).map Prod.snd = ((Request.window r).paneIds : Multiset ℕ) := by
  cases r <;> rfl

namespace Session

/-- The pane ids of a session. -/
def ids (s : Session F) : Multiset ℕ := s.holdings.map Prod.snd

variable {s : Session F}

omit [Ratio F] in
/-- Changing one window in place. -/
theorem held_modify_le {f : Window F → Window F} {k : ℕ} {new : Multiset (PaneKind × ℕ)}
    (h : ∀ w, (f w).holdings ≤ new + w.holdings) :
    held (s.windows.modify k f) ≤ new + held s.windows := by
  by_cases hk : k ∈ s.windows
  · obtain ⟨w, hw⟩ := mem_iff_getElem?.1 hk
    rw [modify_eq_insert f hw]
    exact held_replace_le hw (h w)
  · rw [modify_of_not_mem f hk]
    exact Multiset.le_add_left _ _

omit [Ratio F] in
theorem allSound_modify {f : Window F → Window F} {k : ℕ} (hs : AllSound s.windows)
    (h : ∀ w : Window F, w.Sound → (f w).Sound) : AllSound (s.windows.modify k f) := by
  by_cases hk : k ∈ s.windows
  · obtain ⟨w, hw⟩ := mem_iff_getElem?.1 hk
    rw [modify_eq_insert f hw]
    exact hs.insert (h w (hs _ _ hw))
  · rwa [modify_of_not_mem f hk]

/-- **What a request does to the panes.**  It keeps the windows sound and adds at most the panes
    whose ids it allocates. -/
theorem step_ids_le (hs : AllSound s.windows) (r : Request F) :
    AllSound (s.step r).windows ∧ (s.step r).ids ≤ r.paneIds + s.ids := by
  have moved : ∀ m, AllSound (s.call m).1.windows ∧ (s.call m).1.ids ≤ s.ids := fun m =>
    ⟨(call_held_le hs m).1, Multiset.map_le_map (call_held_le hs m).2⟩
  have same : ∀ (f : Window F → Window F) (k : ℕ) (new : Multiset ℕ),
      (∀ w, (f w).holdings = w.holdings) →
      (held (s.windows.modify k f)).map Prod.snd ≤ new + s.ids := fun f k new h => by
    have : held (s.windows.modify k f) ≤ 0 + held s.windows :=
      held_modify_le fun w => by rw [h, zero_add]
    rw [zero_add] at this
    exact (Multiset.map_le_map this).trans (Multiset.le_add_left _ _)
  cases r with
  | window r =>
    refine ⟨allSound_modify hs fun w hw => hw.step _, ?_⟩
    rw [ids, ids, ← brings_op r s.cols s.rows, ← Multiset.map_add]
    exact Multiset.map_le_map (held_modify_le fun w => Window.holdings_step_le w _)
  | newWindow windowId paneId opened =>
    cases opened with
    | error text => exact ⟨hs, Multiset.le_add_left _ _⟩
    | ok u =>
      refine ⟨hs.insert (Window.sound_ofPane ..), ?_⟩
      have : ([paneId] : Multiset ℕ) = Multiset.map Prod.snd
          ((Window.ofPane windowId ("window-" ++ toString windowId) ⟨paneId, s.cols, s.rows⟩
            s.cols s.rows : Window F).holdings) := by
        rw [Window.holdings_ofPane]; rfl
      rw [Request.paneIds, this, ids, ids, ← Multiset.map_add]
      exact Multiset.map_le_map held_insert_le
  | closeWindow windowId pick =>
    simp only [step, removeWindow]
    by_cases hsize : s.windows.size ≤ 1
    · rw [if_pos hsize]
      exact ⟨hs, Multiset.le_add_left _ _⟩
    rw [if_neg hsize]
    by_cases hmem : windowId ∉ s.windows
    · rw [if_pos hmem]
      exact ⟨hs, Multiset.le_add_left _ _⟩
    · rw [if_neg hmem]
      exact ⟨hs.erase, (Multiset.map_le_map held_erase_le).trans (Multiset.le_add_left _ _)⟩
  | focusWindow windowId =>
    simp only [step, focusWindow]
    split_ifs <;> exact ⟨hs, Multiset.le_add_left _ _⟩
  | renameWindow windowId name =>
    simp only [step, renameWindow]
    by_cases hmem : windowId ∉ s.windows
    · rw [if_pos hmem]
      exact ⟨hs, Multiset.le_add_left _ _⟩
    · rw [if_neg hmem]
      exact ⟨allSound_modify (f := fun w => { w with name := name }) hs
        fun w hw => ⟨hw.keyed, hw.focus⟩, same (fun w => { w with name := name }) _ _ fun w => rfl⟩
  | resize cols rows =>
    simp only [step, resizeFocused]
    split_ifs
    · exact ⟨allSound_modify hs fun w hw => hw.resizeAllPanes _ _,
        same _ _ _ fun w => Window.holdings_resizeAllPanes⟩
    · exact ⟨hs, Multiset.le_add_left _ _⟩
  | breakPane newId =>
    obtain ⟨hkept, hle⟩ := moved (.breakPane newId)
    exact ⟨hkept, hle.trans (Multiset.le_add_left _ _)⟩
  | movePane paneId target insertAt newId pick =>
    have h := moved (.movePane paneId target insertAt newId pick)
    exact ⟨h.1, h.2.trans (Multiset.le_add_left _ _)⟩
  | joinPane target =>
    obtain ⟨hkept, hle⟩ := moved (.joinPane target)
    exact ⟨hkept, hle.trans (Multiset.le_add_left _ _)⟩

theorem mem_call {m : PaneMove} {k : ℕ} (hk : k ∈ (s.call m).1.windows) :
    k ∈ s.windows ∨ k ∈ m.windowIds := by
  rcases s.call_cases m with ⟨pane, windows, dropped, windows', focus, htaken, -, hput, hc⟩ |
    ⟨windows, e, hc, hw⟩
  · rw [hc] at hk
    exact (hput.mem_of_mem hk).imp_left htaken.mem
  · rw [hc] at hk
    rcases hw with rfl | ⟨k', rfl⟩ | ⟨k', w, layout, hk', rfl⟩ | ⟨pane, dropped, htaken⟩
    · exact Or.inl hk
    · exact Or.inl (mem_erase_eq.1 hk).2
    · rcases mem_insert_eq.1 hk with rfl | hk
      · exact Or.inl (mem_iff_getElem?.2 ⟨w, hk'⟩)
      · exact Or.inl hk
    · exact Or.inl (htaken.mem hk)

theorem mem_step {r : Request F} {k : ℕ} (hk : k ∈ (s.step r).windows) :
    k ∈ s.windows ∨ k ∈ r.windowIds := by
  cases r with
  | window r => exact Or.inl (mem_modify.1 hk)
  | newWindow windowId paneId opened =>
    cases opened with
    | error text => exact Or.inl hk
    | ok u =>
      exact (mem_insert_eq.1 hk).elim (fun he => Or.inr (by simp [Request.windowIds, he])) Or.inl
  | closeWindow windowId pick =>
    simp only [step, removeWindow] at hk
    split_ifs at hk
    all_goals first | exact Or.inl hk | exact Or.inl (mem_erase_eq.1 hk).2
  | focusWindow windowId =>
    simp only [step, focusWindow] at hk
    split_ifs at hk <;> exact Or.inl hk
  | renameWindow windowId name =>
    simp only [step, renameWindow] at hk
    split_ifs at hk
    all_goals first | exact Or.inl hk | exact Or.inl (mem_modify.1 hk)
  | resize cols rows =>
    simp only [step, resizeFocused] at hk
    split_ifs at hk
    all_goals first | exact Or.inl hk | exact Or.inl (mem_modify.1 hk)
  | breakPane newId => exact mem_call (m := .breakPane newId) hk
  | movePane paneId target insertAt newId pick =>
    exact mem_call (m := .movePane paneId target insertAt newId pick) hk
  | joinPane target => exact mem_call (m := .joinPane target) hk

/-- No pane id occurs twice in the session, and its windows are sound. -/
structure Sound (s : Session F) : Prop where
  nodup : s.ids.Nodup
  windows : AllSound s.windows

/-- **Soundness over runs.**  A session stays sound as long as the counters hand out no id twice;
    `paneIds` and `windowIds` are the ids that they have handed out before the run. -/
theorem sound_run (ops : List (Request F)) : ∀ (s : Session F) (paneIds windowIds : List ℕ),
    s.Sound → (∀ id ∈ s.ids, id ∈ paneIds) → (∀ k ∈ s.windows, k ∈ windowIds) →
    (paneIds ++ ops.flatMap Request.paneIds).Nodup →
    (Runs.run step s ops).Sound ∧
      ∀ k ∈ (Runs.run step s ops).windows, k ∈ windowIds ++ ops.flatMap Request.windowIds := by
  induction ops with
  | nil =>
    exact fun s paneIds windowIds hs _ hw _ => ⟨hs, fun k hk => List.mem_append_left _ (hw k hk)⟩
  | cons r ops ih =>
    intro s paneIds windowIds hs hp hw hnd
    obtain ⟨hsound, hle⟩ := step_ids_le hs.windows r
    rw [List.flatMap_cons, ← List.append_assoc] at hnd
    have hnd' := List.nodup_append.1 (List.nodup_append.1 hnd).1
    -- the ids of this request are new, so they stay distinct from the ones in use
    have hfresh : ((r.paneIds : Multiset ℕ) + s.ids).Nodup := by
      refine Multiset.nodup_add.2 ⟨Multiset.coe_nodup.2 hnd'.2.1, hs.nodup, ?_⟩
      exact Multiset.disjoint_left.2 fun {id} h1 h2 => hnd'.2.2 id (hp id h2) id h1 rfl
    have := ih (s.step r) (paneIds ++ r.paneIds) (windowIds ++ r.windowIds)
      ⟨Multiset.nodup_of_le hle hfresh, hsound⟩
      (fun id hid => ?_) (fun k hk => ?_) hnd
    · rw [List.append_assoc, ← List.flatMap_cons] at this
      exact this
    · rcases Multiset.mem_add.1 (Multiset.mem_of_le hle hid) with h | h
      · exact List.mem_append_right _ h
      · exact List.mem_append_left _ (hp id h)
    · rcases mem_step hk with h | h
      · exact List.mem_append_left _ (hw k h)
      · exact List.mem_append_right _ h

/-- What a successful move must keep: the panes of the session, their ids in one window each, and
    a focus on an existing window and on a pane that it holds. -/
structure Conserved (s s' : Session F) : Prop where
  holdings : s'.holdings = s.holdings
  disjoint : IdsDisjoint s'.windows
  focus : ∃ w, s'.windows[s'.focusedWindowId]? = some w ∧ w.FocusHeld

/-- What a successful move does to the panes of a sound session. -/
theorem conserved_call_iff (hs : s.Sound) {m : PaneMove} (hnew : ∀ id ∈ m.windowIds, id ∉ s.windows)
    (hok : (s.call m).2 = none) : s.Conserved (s.call m).1 ↔ ¬s.DropsFloating m := by
  rcases s.call_cases m with ⟨pane, windows, dropped, windows', focus, htaken, hdrop, hput, hc⟩ |
    ⟨windows, e, hc, -⟩
  · have hheld := htaken.held hs.windows
    have hnd : ((held s.windows).map Prod.snd).Nodup := hs.nodup
    -- the pane that was taken is nowhere else
    have hid : (PaneKind.pty, pane.id) ∉ held windows := fun hmem => by
      rw [hheld, Multiset.map_cons, Multiset.nodup_cons, Multiset.map_add] at hnd
      exact hnd.1 (Multiset.mem_add.2 (Or.inl (Multiset.mem_map_of_mem Prod.snd hmem)))
    have hput' := hput.held (fun id hi hm => hnew id hi (htaken.mem hm)) hid
    rw [← Multiset.cons_add, ← hput'] at hheld
    have hsum : s.holdings = (s.call m).1.holdings + dropped := by rw [hc]; exact hheld
    rw [← hdrop]
    constructor
    · intro h
      have := h.holdings
      rw [hsum] at this
      exact (left_eq_add.1 this)
    · rintro rfl
      rw [add_zero] at hsum hheld
      obtain ⟨w, hw⟩ := mem_iff_getElem?.1 hput.mem
      refine ⟨hsum.symm, ?_, ?_⟩
      · rw [hc]
        exact idsDisjoint_of_nodup (hheld ▸ hnd)
      · rw [hc]
        exact ⟨w, hw, ((hput.sound (htaken.sound hs.windows)) _ _ hw).focus⟩
  · rw [hc] at hok
    cases hok

omit [Ratio F] in
theorem new_ok {s₀ : Session F} {cols rows windowId paneId : ℕ} {opened : Except String Unit}
    (h : new cols rows windowId paneId opened = .ok s₀) :
    s₀ = ⟨(∅ : IdMap (Window F)).insert windowId
      (.ofPane windowId "window-1" ⟨paneId, cols, rows⟩ cols rows), windowId, cols, rows⟩ := by
  cases opened with
  | error text => cases h
  | ok u => cases h; rfl

/-- **Conservation of panes.**  In every session reached from a new one while the id counters hand
    out no id twice, a successful move keeps the panes, their ids and the focus exactly if it does
    not take the last tiled pane of a window that still holds floating panes. -/
theorem conserved_iff {s₀ : Session F} {cols rows windowId paneId : ℕ}
    {opened : Except String Unit} (h₀ : new cols rows windowId paneId opened = .ok s₀)
    (ops : List (Request F)) (m : PaneMove)
    (hpanes : (paneId :: ops.flatMap Request.paneIds).Nodup)
    (hwindows : (windowId :: (ops.flatMap Request.windowIds ++ m.windowIds)).Nodup)
    (hok : ((Runs.run step s₀ ops).call m).2 = none) :
    (Runs.run step s₀ ops).Conserved ((Runs.run step s₀ ops).call m).1 ↔
      ¬(Runs.run step s₀ ops).DropsFloating m := by
  have hids : s₀.ids = {paneId} := by
    rw [new_ok h₀, ids, holdings, held, sumValues_insert _ _ (by simp), Window.holdings_ofPane,
      sumValues_empty]
    rfl
  have hsound : s₀.Sound := by
    refine ⟨hids ▸ Multiset.nodup_singleton _, ?_⟩
    rw [new_ok h₀]
    exact AllSound.insert (fun k w hw => by simp at hw) (Window.sound_ofPane ..)
  obtain ⟨hs, hkeys⟩ := sound_run ops s₀ [paneId] [windowId] hsound
    (fun id hid => by rw [hids] at hid; simpa using hid)
    (fun k hk => by
      rw [new_ok h₀] at hk
      rcases mem_insert_eq.1 hk with rfl | hk
      · exact List.mem_singleton_self _
      · simp at hk) hpanes
  refine conserved_call_iff hs (fun id hid hmem => ?_) hok
  rw [← List.cons_append, List.nodup_append] at hwindows
  exact hwindows.2.2 id (hkeys id hmem) id hid rfl

/-- The window of a fresh session. -/
def startSession : Session ℚ :=
  ⟨(∅ : IdMap (Window ℚ)).insert 1 (.ofPane 1 "window-1" ⟨1, 80, 24⟩ 80 24), 1, 80, 24⟩

/-- Breaking a pane out of a split window. -/
theorem conserved_iff_break :
    (Runs.run step startSession [.window (.split .vertical 2 (.ok ()))]).Conserved
      ((Runs.run step startSession [.window (.split .vertical 2 (.ok ()))]).call (.breakPane 2)).1 :=
  (conserved_iff (rfl : Session.new 80 24 1 1 (.ok ()) = .ok startSession) _ (.breakPane 2)
    (by decide) (by decide) (by decide +kernel)).2 fun h => h

/-- A session with a floating pane in its first window. -/
def floatingSession : Session ℚ :=
  Runs.run step startSession [.window (.openFloatingPane 2 (.ok ())), .newWindow 2 3 (.ok ())]

/-- Moving the last tiled pane out of a window with a floating pane: the call succeeds, and the
    floating pane is gone. -/
theorem move_drops_floating :
    Session.new 80 24 1 1 (.ok ()) = .ok startSession ∧
    (floatingSession.call (.movePane 1 2 none 3 0)).2 = none ∧
    ¬floatingSession.Conserved (floatingSession.call (.movePane 1 2 none 3 0)).1 :=
  ⟨rfl, by decide +kernel, fun h => absurd h.holdings (by decide +kernel)⟩

end Session

end Nexterm.Server

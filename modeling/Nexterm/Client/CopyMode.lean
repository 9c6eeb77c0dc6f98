/-
  The search of copy mode (`copy_mode.rs`).

  * `searchForward`, `searchPrev`: the two searches; `keyN`: the key that repeats the last one.
  * `occurrences`: the places of the query in the rows of the pane, in reading order.
  * `FindsForward`, `FindsBackward`, `PressFinds`: when the code finds the next one of them.
  * `copySearch_iff`: these conditions are exact, for one search and for every run of the key.

  A position is a pair of a column and a row, as in the source.  Columns and rows of a window are
  below 2^16, and no sum of them leaves its type.
-/
import Nexterm.Client.Pane
import Nexterm.Lib.Cyclic
import Nexterm.Lib.Turned

namespace Nexterm.Client

open Nexterm.Vt (Cell)
open Turned

/-- The part of the client that copy mode searches in. -/
structure CopyMode where
  /-- The size of the window. -/
  cols : ℕ
  rows : ℕ
  focusedPane : Option PaneState
  cursorCol : ℕ
  cursorRow : ℕ
  lastSearchQuery : String
  searchBackward : Bool

/-! ## The code -/

/-- The characters of some cells. -/
def cellChars (cells : List Cell) : List Char := cells.map (·.ch)

/-- `str::find`, counted in characters. -/
def findChars (query text : List Char) : Option ℕ :=
  (List.range (text.length + 1)).find? fun i => query.isPrefixOf (text.drop i)

/-- `str::rfind`, counted in characters. -/
def rfindChars (query text : List Char) : Option ℕ :=
  (List.range (text.length + 1)).reverse.find? fun i => query.isPrefixOf (text.drop i)

/-- Visit the rows `(dr, r)`, where `dr` counts them, up to the first one with a result.  The
    search ends without one at a row that the pane does not have. -/
def searchRows (rows : List (List Cell)) (colIn : ℕ → List Cell → Option ℕ) (maxCol : ℕ) :
    List (ℕ × ℕ) → Option (ℕ × ℕ)
  | [] => none
  | (dr, r) :: visits =>
    match rows[r]? with
    | none => none
    | some cells =>
      match colIn dr cells with
      | some col => some (min col maxCol, r)
      | none => searchRows rows colIn maxCol visits

/-- The first match of a row; in the row of the cursor, of what begins there. -/
def colForward (query : List Char) (startCol dr : ℕ) (cells : List Cell) : Option ℕ :=
  let colStart := if dr = 0 then startCol else 0
  if colStart ≥ cells.length then none
  else (findChars query (cellChars (cells.drop colStart))).map (colStart + ·)

/-- The last match of a row; in the row of the cursor, of what ends a query behind it. -/
def colPrev (query : List Char) (startCol dr : ℕ) (cells : List Cell) : Option ℕ :=
  let endCol :=
    if dr = 0 then min (startCol + query.length) cells.length else cells.length
  rfindChars query (cellChars (cells.take endCol))

namespace CopyMode

/-- Forward search. -/
def searchForward (s : CopyMode) (query : String) (startCol startRow maxCol maxRow : ℕ) :
    Option (ℕ × ℕ) := do
  let pane ← s.focusedPane
  let rowsTotal := maxRow + 1
  searchRows pane.grid.rows (colForward query.toList startCol) maxCol
    ((List.range rowsTotal).map fun dr => (dr, (startRow + dr) % rowsTotal))

/-- Backward search. -/
def searchPrev (s : CopyMode) (query : String) (startCol startRow maxCol maxRow : ℕ) :
    Option (ℕ × ℕ) := do
  let pane ← s.focusedPane
  let rowsTotal := maxRow + 1
  searchRows pane.grid.rows (colPrev query.toList startCol) maxCol
    ((List.range rowsTotal).map fun dr => (dr, (startRow + rowsTotal - dr) % rowsTotal))

/-- `n` repeats the last search in its own direction, `N` in the other one. -/
def keyN (s : CopyMode) (shift : Bool) : CopyMode :=
  let maxCol := s.cols - 1
  let maxRow := s.rows - 1
  let backward := if shift then !s.searchBackward else s.searchBackward
  if s.lastSearchQuery.isEmpty then s
  else
    let result :=
      if backward then
        s.searchPrev s.lastSearchQuery (s.cursorCol - 1) s.cursorRow maxCol maxRow
      else s.searchForward s.lastSearchQuery (s.cursorCol + 1) s.cursorRow maxCol maxRow
    match result with
    | some (nc, nr) => { s with cursorCol := nc, cursorRow := nr }
    | none => s

end CopyMode

/-! ## Reading order -/

/-- A position comes before another one in reading order. -/
def Before (p q : ℕ × ℕ) : Prop := p.2 < q.2 ∨ p.2 = q.2 ∧ p.1 < q.1

/-- A position comes before another one on the way back. -/
def After (p q : ℕ × ℕ) : Prop := Before q p

instance : DecidableRel Before := fun _ _ => inferInstanceAs (Decidable (_ ∨ _))

instance : DecidableRel After := fun p q => inferInstanceAs (Decidable (Before q p))

instance : IsTrans (ℕ × ℕ) Before where
  trans _ _ _ hpq hqr := by
    unfold Before at *
    omega

instance : Std.Asymm Before where
  asymm _ _ hpq hqp := by
    unfold Before at *
    omega

instance : IsTrans (ℕ × ℕ) After where
  trans p q r hpq hqr := IsTrans.trans r q p hqr hpq

instance : Std.Asymm After where
  asymm p q hpq hqp := Std.Asymm.asymm q p hpq hqp

/-- The query begins at the column. -/
def occursAt (query : List Char) (cells : List Cell) (col : ℕ) : Bool :=
  query.isPrefixOf ((cellChars cells).drop col)

/-- Where the query occurs in the row with the number `r`. -/
def rowOccurrences (rows : List (List Cell)) (query : List Char) (r : ℕ) : List (ℕ × ℕ) :=
  let cells := rows.getD r []
  ((List.range cells.length).filter (occursAt query cells)).map (·, r)

/-- Where the query occurs, in reading order. -/
def occurrences (rows : List (List Cell)) (query : List Char) : List (ℕ × ℕ) :=
  (List.range rows.length).flatMap (rowOccurrences rows query)

variable {rows : List (List Cell)} {query : List Char} {p : ℕ × ℕ} {r c H : ℕ}

theorem row_of_mem (h : p ∈ rowOccurrences rows query r) : p.2 = r := by
  obtain ⟨col, -, rfl⟩ := List.mem_map.1 h
  rfl

theorem mem_occurrences : p ∈ occurrences rows query ↔
    p.2 < rows.length ∧ p ∈ rowOccurrences rows query p.2 := by
  simp only [occurrences, List.mem_flatMap, List.mem_range]
  constructor
  · rintro ⟨r, hr, hp⟩
    obtain rfl := row_of_mem hp
    exact ⟨hr, hp⟩
  · rintro ⟨hr, hp⟩
    exact ⟨p.2, hr, hp⟩

theorem sorted_rowOccurrences (r : ℕ) : (rowOccurrences rows query r).Pairwise Before := by
  rw [rowOccurrences, List.pairwise_map]
  refine (List.pairwise_lt_range.filter _).imp ?_
  intro col col' hlt
  exact .inr ⟨rfl, hlt⟩

theorem sorted_occurrences : (occurrences rows query).Pairwise Before := by
  rw [occurrences, List.pairwise_flatMap]
  refine ⟨fun r _ => sorted_rowOccurrences r, List.pairwise_lt_range.imp ?_⟩
  intro r r' hlt p hp q hq
  exact .inl (by rwa [row_of_mem hp, row_of_mem hq])

theorem sorted_reverse : (occurrences rows query).reverse.Pairwise After := by
  rw [List.pairwise_reverse]
  exact sorted_occurrences

/-! ## One row -/

theorem lt_of_occursAt (hquery : query ≠ []) {cells : List Cell} {col : ℕ}
    (h : occursAt query cells col = true) : col + query.length ≤ cells.length ∧
      col < cells.length := by
  have hpos := List.length_pos_of_ne_nil hquery
  have hlen := (List.isPrefixOf_iff_prefix.1 h).length_le
  rw [List.length_drop, cellChars, List.length_map] at hlen
  omega

theorem find?_range {q : ℕ → Bool} {m n : ℕ} (h : ∀ i, q i = true → i < m) (hmn : m ≤ n) :
    (List.range n).find? q = (List.range m).find? q := by
  obtain ⟨k, rfl⟩ := Nat.exists_eq_add_of_le hmn
  have hnone : ((List.range k).map (m + ·)).find? q = none := by
    rw [List.find?_eq_none]
    intro i hi hq
    obtain ⟨j, -, rfl⟩ := List.mem_map.1 hi
    have hlt := h _ hq
    omega
  rw [List.range_add, List.find?_append, hnone, Option.or_none]

theorem find?_reverse_range {q : ℕ → Bool} {m n : ℕ} (h : ∀ i, q i = true → i < m)
    (hmn : m ≤ n) : (List.range n).reverse.find? q = (List.range m).reverse.find? q := by
  obtain ⟨k, rfl⟩ := Nat.exists_eq_add_of_le hmn
  have hnone : ((List.range k).map (m + ·)).reverse.find? q = none := by
    rw [List.find?_eq_none]
    intro i hi hq
    obtain ⟨j, -, rfl⟩ := List.mem_map.1 (List.mem_reverse.1 hi)
    have hlt := h _ hq
    omega
  rw [List.range_add, List.reverse_append, List.find?_append, hnone, Option.none_or]

/-- The first occurrence of the row; in the row of the cursor, from the cursor on. -/
theorem colForward_eq (hquery : query ≠ []) (startCol dr : ℕ) (cells : List Cell) :
    colForward query startCol dr cells = (List.range cells.length).find? fun col =>
      decide (dr = 0 → startCol ≤ col) && occursAt query cells col := by
  unfold colForward
  have hstart : ∀ col, decide (dr = 0 → startCol ≤ col) =
      decide ((if dr = 0 then startCol else 0) ≤ col) := by
    intro col
    split_ifs with hdr <;> simp [hdr]
  simp only [hstart]
  generalize (if dr = 0 then startCol else 0) = colStart
  split_ifs with hbeyond
  · symm
    rw [List.find?_eq_none]
    intro col hcol hfound
    have hlt := List.mem_range.1 hcol
    simp only [Bool.and_eq_true, decide_eq_true_eq] at hfound
    omega
  · have hlt : ∀ col, (decide (colStart ≤ col) && occursAt query cells col) = true →
        col < cells.length := by
      intro col hfound
      exact (lt_of_occursAt hquery (Bool.and_eq_true_iff.1 hfound).2).2
    have hnone : (List.range colStart).find? (fun col =>
        decide (colStart ≤ col) && occursAt query cells col) = none := by
      rw [List.find?_eq_none]
      intro col hcol hfound
      have hlt := List.mem_range.1 hcol
      simp only [Bool.and_eq_true, decide_eq_true_eq] at hfound
      omega
    have hlen : cells.length + 1 = colStart + (cells.length - colStart + 1) := by omega
    rw [← find?_range hlt (Nat.le_succ _), Nat.succ_eq_add_one, hlen, List.range_add,
      List.find?_append, hnone, Option.none_or, List.find?_map, findChars]
    simp only [cellChars, List.map_drop, List.length_drop, List.length_map, List.drop_drop]
    congr 2
    funext col
    simp [occursAt, cellChars]

/-- The last occurrence of the row; in the row of the cursor, up to the cursor. -/
theorem colPrev_eq (hquery : query ≠ []) (startCol dr : ℕ) (cells : List Cell) :
    colPrev query startCol dr cells = (List.range cells.length).reverse.find? fun col =>
      decide (dr = 0 → col ≤ startCol) && occursAt query cells col := by
  have hpos := List.length_pos_of_ne_nil hquery
  unfold colPrev
  set endCol := if dr = 0 then min (startCol + query.length) cells.length else cells.length
    with hend
  have hle : endCol ≤ cells.length := by
    rw [hend]
    split_ifs <;> omega
  have hsame : (fun col => query.isPrefixOf ((cellChars (cells.take endCol)).drop col)) =
      fun col => decide (dr = 0 → col ≤ startCol) && occursAt query cells col := by
    funext col
    rw [Bool.eq_iff_iff, Bool.and_eq_true, decide_eq_true_iff, List.isPrefixOf_iff_prefix,
      cellChars, List.map_take, List.drop_take, List.prefix_take_iff]
    constructor
    · rintro ⟨hpart, hlen⟩
      refine ⟨?_, List.isPrefixOf_iff_prefix.2 hpart⟩
      intro hdr
      rw [hend, if_pos hdr] at hlen
      omega
    · rintro ⟨hcol, hoccurs⟩
      obtain ⟨hlen, -⟩ := lt_of_occursAt hquery hoccurs
      refine ⟨List.isPrefixOf_iff_prefix.1 hoccurs, ?_⟩
      rw [hend]
      split_ifs with hdr
      · have hcol := hcol hdr
        omega
      · omega
  have hlt : ∀ col, (decide (dr = 0 → col ≤ startCol) && occursAt query cells col) = true →
      col < endCol := by
    intro col hfound
    rw [← congrFun hsame col] at hfound
    have hlen := (List.isPrefixOf_iff_prefix.1 hfound).length_le
    rw [List.length_drop, cellChars, List.length_map, List.length_take] at hlen
    omega
  have hlen : (cellChars (cells.take endCol)).length = endCol := by
    rw [cellChars, List.length_map, List.length_take, Nat.min_eq_left hle]
  rw [rfindChars, hlen, hsame, find?_reverse_range hlt (Nat.le_succ _),
    find?_reverse_range hlt hle]

/-! ## The rows of a search -/

/-- What a search finds lies in the rows it visits before the first one that is missing. -/
theorem searchRows_eq {colIn : ℕ → List Cell → Option ℕ} {maxCol : ℕ}
    {found : ℕ → List (ℕ × ℕ)} {visits : List (ℕ × ℕ)}
    (h : ∀ v ∈ visits, ∀ cells, rows[v.2]? = some cells →
      (colIn v.1 cells).map (fun col => (min col maxCol, v.2)) = (found v.2).head?) :
    searchRows rows colIn maxCol visits =
      (((visits.map (·.2)).takeWhile (· < rows.length)).flatMap found).head? := by
  induction visits with
  | nil => rfl
  | cons v visits ih =>
    obtain ⟨dr, r⟩ := v
    cases hcells : rows[r]? with
    | none =>
      have hr : ¬r < rows.length := by
        rw [Nat.not_lt]
        exact List.getElem?_eq_none_iff.1 hcells
      simp [searchRows, hr]
    | some cells =>
      have hr : r < rows.length := (List.getElem?_eq_some_iff.1 hcells).1
      have hfirst := h (dr, r) List.mem_cons_self cells hcells
      have hrest := ih fun v hv => h v (List.mem_cons_of_mem _ hv)
      rw [searchRows, hcells, List.map_cons, List.takeWhile_cons_of_pos (by simpa using hr),
        List.flatMap_cons, List.head?_append, ← hfirst]
      cases hcol : colIn dr cells with
      | none =>
        simp only [hcol, Option.map_none, Option.none_or]
        exact hrest
      | some col => simp [hcol]

theorem order_eq_append {k : ℕ} (hk : k ≤ H) :
    Cyclic.order H k = List.range' k (H - k) ++ List.range k := by
  rw [Cyclic.order, List.rotate_eq_drop_append_take (by rwa [List.length_range]),
    List.take_range, Nat.min_eq_left hk, List.range_eq_range', List.drop_range', Nat.mul_one,
    Nat.zero_add]

theorem order_mod (k : ℕ) : Cyclic.order H (k % H) = Cyclic.order H k := by
  have hmod := List.rotate_mod (List.range H) k
  rwa [List.length_range] at hmod

/-- The rows from the start down, and then from the top. -/
theorem order_forward (hH : 0 < H) (k : ℕ) : Cyclic.order H k =
    k % H :: List.range' (k % H + 1) (H - (k % H + 1)) ++ List.range (k % H) := by
  have hlt := Nat.mod_lt k hH
  have hlen : H - k % H = H - (k % H + 1) + 1 := by omega
  rw [← order_mod, order_eq_append hlt.le, hlen, List.range'_succ]

/-- The rows from the start up, and then from the bottom. -/
theorem order_backward (hH : 0 < H) (k : ℕ) : (Cyclic.order H (k + 1)).reverse =
    k % H :: (List.range (k % H)).reverse ++
      (List.range' (k % H + 1) (H - (k % H + 1))).reverse := by
  have hlt := Nat.mod_lt k hH
  have hmod : Cyclic.order H (k + 1) = Cyclic.order H (k % H + 1) := by
    rw [← order_mod, ← order_mod (k % H + 1), Nat.mod_add_mod]
  rw [hmod, order_eq_append hlt, List.reverse_append, List.range_succ, List.reverse_append]
  rfl

theorem range_split {k n : ℕ} (hk : k < n) :
    List.range n = List.range k ++ k :: List.range' (k + 1) (n - (k + 1)) := by
  have hlen : n = k + (n - (k + 1) + 1) := by omega
  conv_lhs => rw [hlen]
  rw [List.range_eq_range', ← List.range'_append_1, Nat.zero_add, List.range'_succ,
    List.range_eq_range']

/-- The rows visited before the first missing one, on the way down. -/
theorem visited_forward (hH : 0 < H) {n : ℕ} (hn : n ≤ H) {k : ℕ} (hk : k % H < n) :
    (Cyclic.order H k).takeWhile (· < n) =
      k % H :: List.range' (k % H + 1) (n - (k % H + 1)) ++
        if n = H then List.range (k % H) else [] := by
  have hhead : ∀ i ∈ k % H :: List.range' (k % H + 1) (n - (k % H + 1)),
      decide (i < n) = true := by
    intro i hi
    rw [decide_eq_true_iff]
    rcases List.mem_cons.1 hi with rfl | hi
    · exact hk
    · rw [List.mem_range'_1] at hi
      omega
  have hlen : H - (k % H + 1) = n - (k % H + 1) + (H - n) := by omega
  rw [order_forward hH, hlen, ← List.range'_append_1, ← List.cons_append, List.append_assoc,
    List.takeWhile_append_of_pos hhead, List.append_cancel_left_eq]
  split_ifs with hall
  · have hself : ∀ i ∈ List.range (k % H), decide (i < n) = true := by
      intro i hi
      have hi := List.mem_range.1 hi
      exact decide_eq_true (hi.trans hk)
    have hzero : H - n = 0 := by omega
    rw [hzero, List.range'_zero, List.nil_append, List.takeWhile_eq_self_iff.2 hself]
  · -- the first row below the pane
    have hlen : H - n = H - n - 1 + 1 := by omega
    have hrow : k % H + 1 + (n - (k % H + 1)) = n := by omega
    rw [hlen, List.range'_succ, hrow, List.cons_append,
      List.takeWhile_cons_of_neg (by simp)]

/-- The rows visited before the first missing one, on the way up. -/
theorem visited_backward (hH : 0 < H) {n : ℕ} (hn : n ≤ H) {k : ℕ} (hk : k % H < n) :
    (Cyclic.order H (k + 1)).reverse.takeWhile (· < n) =
      k % H :: (List.range (k % H)).reverse ++
        if n = H then (List.range' (k % H + 1) (n - (k % H + 1))).reverse else [] := by
  have hhead : ∀ i ∈ k % H :: (List.range (k % H)).reverse, decide (i < n) = true := by
    intro i hi
    rw [decide_eq_true_iff]
    rcases List.mem_cons.1 hi with rfl | hi
    · exact hk
    · rw [List.mem_reverse, List.mem_range] at hi
      exact hi.trans hk
  rw [order_backward hH, List.takeWhile_append_of_pos hhead, List.append_cancel_left_eq]
  split_ifs with hall
  · have hself : ∀ i ∈ (List.range' (k % H + 1) (H - (k % H + 1))).reverse,
        decide (i < n) = true := by
      intro i hi
      rw [List.mem_reverse, List.mem_range'_1] at hi
      rw [decide_eq_true_iff]
      omega
    rw [List.takeWhile_eq_self_iff.2 hself, hall]
  · -- the lowest row of the window
    have hlen : H - (k % H + 1) = H - (k % H + 1) - 1 + 1 := by omega
    have hrow : k % H + 1 + (H - (k % H + 1) - 1) = H - 1 := by omega
    rw [hlen, List.range'_concat, Nat.one_mul, hrow, List.reverse_append, List.reverse_singleton,
      List.singleton_append, List.takeWhile_cons_of_neg (by simp; omega)]

/-- The search starts in a row that is missing. -/
theorem visited_nothing {k : ℕ} {l l' : List ℕ} {n : ℕ} (hk : ¬k % H < n) :
    (k % H :: l ++ l').takeWhile (· < n) = [] := by
  rw [List.cons_append, List.takeWhile_cons_of_neg (by simpa using hk)]

/-! ## The searches -/

/-- The places a search forward should try, in order. -/
def forwardFrom (rows : List (List Cell)) (query : List Char) (start : ℕ × ℕ) : List (ℕ × ℕ) :=
  turned (fun p => ¬Before p start) (occurrences rows query)

/-- The places a search backward should try, in order. -/
def backwardFrom (rows : List (List Cell)) (query : List Char) (start : ℕ × ℕ) : List (ℕ × ℕ) :=
  turned (fun p => ¬Before start p) (occurrences rows query).reverse

theorem head?_filter_map (l : List ℕ) (o q : ℕ → Bool) (r : ℕ) :
    (((l.filter o).map (·, r)).filter fun p => q p.1).head? =
      (l.find? fun col => q col && o col).map (·, r) := by
  rw [List.filter_map, List.head?_map, List.head?_filter, List.find?_filter]
  congr 2
  funext col
  simp [Bool.and_comm]

theorem rowOccurrences_of {cells : List Cell} (hcells : rows[r]? = some cells) :
    rowOccurrences rows query r =
      ((List.range cells.length).filter (occursAt query cells)).map (·, r) := by
  rw [rowOccurrences, List.getD_eq_getElem?_getD, hcells, Option.getD_some]

theorem add_mod_eq_iff {k d : ℕ} (hd : d < H) : (k + d) % H = k % H ↔ d = 0 := by
  constructor
  · intro hmod
    have hzero : d % H = 0 % H := Nat.ModEq.add_left_cancel' k hmod
    rwa [Nat.mod_eq_of_lt hd, Nat.zero_mod] at hzero
  · rintro rfl
    rfl

theorem sub_mod_eq_iff {k d : ℕ} (hd : d < H) : (k + H - d) % H = k % H ↔ d = 0 := by
  constructor
  · intro hmod
    by_contra hne
    rw [Nat.add_sub_assoc hd.le] at hmod
    have hzero := (add_mod_eq_iff (by omega)).1 hmod
    omega
  · rintro rfl
    simp

/-- The column of a match is in the window. -/
theorem map_min {maxCol : ℕ} {cells : List Cell} (hcols : cells.length ≤ maxCol + 1)
    {l : List ℕ} (hl : ∀ col ∈ l, col < cells.length) (q : ℕ → Bool) :
    (l.find? q).map (fun col => (min col maxCol, r)) = (l.find? q).map (·, r) := by
  cases hfound : l.find? q with
  | none => rfl
  | some col =>
    have hlt := hl col (List.mem_of_find?_eq_some hfound)
    rw [Option.map_some, Option.map_some, Nat.min_eq_left (by omega)]

/-- What a row contributes to a search forward from column `c` of row `start`. -/
def forwardInRow (rows : List (List Cell)) (query : List Char) (c start r : ℕ) : List (ℕ × ℕ) :=
  (rowOccurrences rows query r).filter fun p => decide (r = start → c ≤ p.1)

/-- What a row contributes to a search backward. -/
def backwardInRow (rows : List (List Cell)) (query : List Char) (c start r : ℕ) : List (ℕ × ℕ) :=
  (rowOccurrences rows query r).reverse.filter fun p => decide (r = start → p.1 ≤ c)

section Row

variable {maxCol start dr : ℕ} {cells : List Cell}

theorem colForward_inRow (hquery : query ≠ []) (hcols : cells.length ≤ maxCol + 1)
    (hcells : rows[r]? = some cells) (hstart : r = start ↔ dr = 0) :
    (colForward query c dr cells).map (fun col => (min col maxCol, r)) =
      (forwardInRow rows query c start r).head? := by
  simp only [forwardInRow, rowOccurrences_of hcells, hstart]
  rw [head?_filter_map _ _ fun col => decide (dr = 0 → c ≤ col), colForward_eq hquery,
    map_min hcols fun col => List.mem_range.1]

theorem colPrev_inRow (hquery : query ≠ []) (hcols : cells.length ≤ maxCol + 1)
    (hcells : rows[r]? = some cells) (hstart : r = start ↔ dr = 0) :
    (colPrev query c dr cells).map (fun col => (min col maxCol, r)) =
      (backwardInRow rows query c start r).head? := by
  simp only [backwardInRow, rowOccurrences_of hcells, hstart]
  rw [← List.map_reverse, ← List.filter_reverse,
    head?_filter_map _ _ fun col => decide (dr = 0 → col ≤ c), colPrev_eq hquery,
    map_min hcols fun col hcol => List.mem_range.1 (List.mem_reverse.1 hcol)]

theorem forwardInRow_self : forwardInRow rows query c start start =
    (rowOccurrences rows query start).filter fun p => ¬Before p (c, start) := by
  refine List.filter_congr ?_
  intro p hp
  rw [decide_eq_decide]
  unfold Before
  rw [row_of_mem hp]
  dsimp only
  omega

theorem backwardInRow_self : backwardInRow rows query c start start =
    (rowOccurrences rows query start).reverse.filter fun p => ¬Before (c, start) p := by
  refine List.filter_congr ?_
  intro p hp
  rw [decide_eq_decide]
  unfold Before
  rw [row_of_mem (List.mem_reverse.1 hp)]
  dsimp only
  omega

theorem forwardInRow_of_ne (h : r ≠ start) :
    forwardInRow rows query c start r = rowOccurrences rows query r :=
  List.filter_eq_self.2 fun _ _ => decide_eq_true fun heq => absurd heq h

theorem backwardInRow_of_ne (h : r ≠ start) :
    backwardInRow rows query c start r = (rowOccurrences rows query r).reverse :=
  List.filter_eq_self.2 fun _ _ => decide_eq_true fun heq => absurd heq h

theorem before_of_row_lt (h : p ∈ rowOccurrences rows query r) (hr : r < start) :
    Before p (c, start) := .inl (by rwa [row_of_mem h])

theorem before_of_lt_row (h : p ∈ rowOccurrences rows query r) (hr : start < r) :
    Before (c, start) p := .inl (by rwa [row_of_mem h])

end Row

/-- What a search forward finds: the first of the occurrences from the start to the end of the
    pane, and from the top to the row above the start if the pane fills the window. -/
theorem searchRows_forward {maxCol : ℕ} (hquery : query ≠ []) (hrows : rows.length ≤ H)
    (hcols : ∀ cells ∈ rows, cells.length ≤ maxCol + 1) (hH : 0 < H) (c k : ℕ) :
    ∃ found, searchRows rows (colForward query c) maxCol
        ((List.range H).map fun dr => (dr, (k + dr) % H)) = found.head? ∧
      found <+: forwardFrom rows query (c, k % H) ∧
      ∀ p, p ∈ found ↔ p ∈ occurrences rows query ∧
        (¬Before p (c, k % H) ∨ rows.length = H ∧ p.2 < k % H) := by
  have hvisit : ∀ v ∈ (List.range H).map fun dr => (dr, (k + dr) % H), ∀ cells,
      rows[v.2]? = some cells → (colForward query c v.1 cells).map
        (fun col => (min col maxCol, v.2)) = (forwardInRow rows query c (k % H) v.2).head? := by
    intro v hv cells hcells
    obtain ⟨dr, hdr, rfl⟩ := List.mem_map.1 hv
    exact colForward_inRow hquery (hcols cells (List.mem_of_getElem? hcells)) hcells
      (add_mod_eq_iff (List.mem_range.1 hdr))
  have hsearch := searchRows_eq hvisit
  have horder : ((List.range H).map fun dr => (dr, (k + dr) % H)).map (·.2) =
      Cyclic.order H k := by
    rw [List.map_map, Cyclic.order_eq_map]
    rfl
  rw [horder] at hsearch
  by_cases hk : k % H < rows.length
  · have hbefore : ∀ i ∈ List.range (k % H), ∀ p ∈ rowOccurrences rows query i,
        decide (¬Before p (c, k % H)) = false := by
      intro i hi p hp
      rw [decide_eq_false_iff_not, not_not]
      exact before_of_row_lt hp (List.mem_range.1 hi)
    have hafter : ∀ i ∈ List.range' (k % H + 1) (rows.length - (k % H + 1)),
        ∀ p ∈ rowOccurrences rows query i, decide (¬Before p (c, k % H)) = true := by
      intro i hi p hp
      rw [decide_eq_true_iff]
      exact Std.Asymm.asymm _ _ (before_of_lt_row hp (List.mem_range'_1.1 hi).1)
    have hothers : ∀ i ∈ List.range' (k % H + 1) (rows.length - (k % H + 1)) ++
        List.range (k % H),
          forwardInRow rows query c (k % H) i = rowOccurrences rows query i := by
      intro i hi
      rw [List.mem_append, List.mem_range'_1, List.mem_range] at hi
      exact forwardInRow_of_ne (by omega)
    obtain ⟨hpart, hmem⟩ :=
      prefix_turned (k % H) hbefore hafter forwardInRow_self hothers (rows.length = H)
    rw [← range_split hk] at hpart hmem
    refine ⟨_, hsearch.trans (by rw [visited_forward hH hrows hk]), hpart, ?_⟩
    intro p
    rw [hmem p, decide_eq_true_iff]
    refine and_congr_right fun hp => or_congr_right (and_congr_right fun _ => ?_)
    rw [List.mem_flatMap]
    constructor
    · rintro ⟨i, hi, hpi⟩
      rw [row_of_mem hpi]
      exact List.mem_range.1 hi
    · intro hlt
      exact ⟨p.2, List.mem_range.2 hlt, (mem_occurrences.1 hp).2⟩
  · refine ⟨[], ?_, List.nil_prefix, ?_⟩
    · rw [hsearch, order_forward hH, visited_nothing hk]
      rfl
    · intro p
      refine iff_of_false List.not_mem_nil ?_
      rintro ⟨hp, hreach⟩
      have hlt := (mem_occurrences.1 hp).1
      rcases hreach with hreach | ⟨hall, -⟩
      · exact hreach (.inl (by change p.2 < k % H; omega))
      · have hlt := Nat.mod_lt k hH
        omega

/-- What a search backward finds: the last of the occurrences from the top of the pane to the
    start, and from the row below the start to the bottom if the pane fills the window. -/
theorem searchRows_backward {maxCol : ℕ} (hquery : query ≠ []) (hrows : rows.length ≤ H)
    (hcols : ∀ cells ∈ rows, cells.length ≤ maxCol + 1) (hH : 0 < H) (c k : ℕ) :
    ∃ found, searchRows rows (colPrev query c) maxCol
        ((List.range H).map fun dr => (dr, (k + H - dr) % H)) = found.head? ∧
      found <+: backwardFrom rows query (c, k % H) ∧
      ∀ p, p ∈ found ↔ p ∈ occurrences rows query ∧ k % H < rows.length ∧
        (¬Before (c, k % H) p ∨ rows.length = H ∧ k % H < p.2) := by
  have hvisit : ∀ v ∈ (List.range H).map fun dr => (dr, (k + H - dr) % H), ∀ cells,
      rows[v.2]? = some cells → (colPrev query c v.1 cells).map
        (fun col => (min col maxCol, v.2)) = (backwardInRow rows query c (k % H) v.2).head? := by
    intro v hv cells hcells
    obtain ⟨dr, hdr, rfl⟩ := List.mem_map.1 hv
    exact colPrev_inRow hquery (hcols cells (List.mem_of_getElem? hcells)) hcells
      (sub_mod_eq_iff (List.mem_range.1 hdr))
  have hsearch := searchRows_eq hvisit
  have horder : ((List.range H).map fun dr => (dr, (k + H - dr) % H)).map (·.2) =
      (Cyclic.order H (k + 1)).reverse := by
    rw [List.map_map, Cyclic.reverse_order, List.range'_eq_map_range, List.map_map]
    refine List.map_congr_left ?_
    intro dr _
    change (k + H - dr) % H = (k + 1 + H - (1 + dr)) % H
    congr 1
    omega
  rw [horder] at hsearch
  by_cases hk : k % H < rows.length
  · have hbefore : ∀ i ∈ (List.range' (k % H + 1) (rows.length - (k % H + 1))).reverse,
        ∀ p ∈ (rowOccurrences rows query i).reverse,
          decide (¬Before (c, k % H) p) = false := by
      intro i hi p hp
      rw [List.mem_reverse, List.mem_range'_1] at hi
      rw [decide_eq_false_iff_not, not_not]
      exact before_of_lt_row (List.mem_reverse.1 hp) hi.1
    have hafter : ∀ i ∈ (List.range (k % H)).reverse,
        ∀ p ∈ (rowOccurrences rows query i).reverse,
          decide (¬Before (c, k % H) p) = true := by
      intro i hi p hp
      rw [List.mem_reverse, List.mem_range] at hi
      rw [decide_eq_true_iff]
      exact Std.Asymm.asymm _ _ (before_of_row_lt (List.mem_reverse.1 hp) hi)
    have hothers : ∀ i ∈ (List.range (k % H)).reverse ++
        (List.range' (k % H + 1) (rows.length - (k % H + 1))).reverse,
          backwardInRow rows query c (k % H) i = (rowOccurrences rows query i).reverse := by
      intro i hi
      rw [List.mem_append, List.mem_reverse, List.mem_reverse, List.mem_range'_1,
        List.mem_range] at hi
      exact backwardInRow_of_ne (by omega)
    obtain ⟨hpart, hmem⟩ :=
      prefix_turned (k % H) hbefore hafter backwardInRow_self hothers (rows.length = H)
    have hall : ((List.range' (k % H + 1) (rows.length - (k % H + 1))).reverse ++
        k % H :: (List.range (k % H)).reverse).flatMap
          (fun i => (rowOccurrences rows query i).reverse) =
        (occurrences rows query).reverse := by
      rw [occurrences, List.reverse_flatMap, range_split hk, List.reverse_append,
        List.reverse_cons, List.append_assoc]
      rfl
    rw [hall] at hpart hmem
    refine ⟨_, hsearch.trans (by rw [visited_backward hH hrows hk]), hpart, ?_⟩
    intro p
    rw [hmem p, decide_eq_true_iff, List.mem_reverse]
    refine and_congr_right fun hp => ?_
    rw [and_iff_right hk]
    refine or_congr_right (and_congr_right fun _ => ?_)
    rw [List.mem_flatMap]
    constructor
    · rintro ⟨i, hi, hpi⟩
      rw [row_of_mem (List.mem_reverse.1 hpi)]
      rw [List.mem_reverse, List.mem_range'_1] at hi
      exact hi.1
    · intro hlt
      obtain ⟨hrow, hp⟩ := mem_occurrences.1 hp
      refine ⟨p.2, ?_, List.mem_reverse.2 hp⟩
      rw [List.mem_reverse, List.mem_range'_1]
      omega
  · refine ⟨[], ?_, List.nil_prefix, ?_⟩
    · rw [hsearch, order_backward hH, visited_nothing hk]
      rfl
    · intro p
      refine iff_of_false List.not_mem_nil ?_
      rintro ⟨-, hlt, -⟩
      exact hk hlt

/-! ## When the searches find what they are for -/

/-- A search forward in a window of `H` rows finds the first occurrence at or after the cursor,
    round the pane: there is none at all, or one in the rows that the search gets to.  A cursor
    below the window is taken for one in the row `row % H`, which must not matter. -/
def FindsForward (rows : List (List Cell)) (query : List Char) (H col row : ℕ) : Prop :=
  occurrences rows query = [] ∨
    (∃ p ∈ occurrences rows query,
      ¬Before p (col, row % H) ∨ rows.length = H ∧ p.2 < row % H) ∧
    (row < H ∨ (∀ p ∈ occurrences rows query, ¬Before p (col, row % H)) ∨
      ∀ p ∈ occurrences rows query, Before p (col, row % H))

/-- A search backward finds the last occurrence at or before the cursor, round the pane. -/
def FindsBackward (rows : List (List Cell)) (query : List Char) (H col row : ℕ) : Prop :=
  occurrences rows query = [] ∨
    (∃ p ∈ occurrences rows query, row % H < rows.length ∧
      (¬Before (col, row % H) p ∨ rows.length = H ∧ row % H < p.2)) ∧
    (row < H ∨ (∀ p ∈ occurrences rows query, ¬Before (col, row % H) p) ∨
      ∀ p ∈ occurrences rows query, Before (col, row % H) p)

instance (rows : List (List Cell)) (query : List Char) (H col row : ℕ) :
    Decidable (FindsForward rows query H col row) := inferInstanceAs (Decidable (_ ∨ _ ∧ _))

instance (rows : List (List Cell)) (query : List Char) (H col row : ℕ) :
    Decidable (FindsBackward rows query H col row) := inferInstanceAs (Decidable (_ ∨ _ ∧ _))

theorem ne_nil_iff {found : List (ℕ × ℕ)} : found ≠ [] ↔ ∃ p, p ∈ found :=
  ⟨List.exists_mem_of_ne_nil found, fun ⟨_, hp⟩ => List.ne_nil_of_mem hp⟩

theorem before_iff_not_before {p q : ℕ × ℕ} : decide (¬Before p q) = false ↔ Before p q := by
  rw [decide_eq_false_iff_not, not_not]

/-- The part of the occurrences that a search forward gets to is enough under this condition. -/
theorem findsForward_iff {found : List (ℕ × ℕ)} {col row : ℕ} (hrows : rows.length ≤ H)
    (hpart : found <+: forwardFrom rows query (col, row % H))
    (hmem : ∀ p, p ∈ found ↔ p ∈ occurrences rows query ∧
      (¬Before p (col, row % H) ∨ rows.length = H ∧ p.2 < row % H)) :
    found.head? = (forwardFrom rows query (col, row)).head? ↔
      FindsForward rows query H col row := by
  have hforth : ∀ a b, Before a b → decide (¬Before a (col, row % H)) = true →
      decide (¬Before b (col, row % H)) = true := by
    intro a b hab ha
    rw [decide_eq_true_iff] at ha ⊢
    exact fun hb => ha (IsTrans.trans a b _ hab hb)
  have hin : row < H →
      forwardFrom rows query (col, row) = forwardFrom rows query (col, row % H) := by
    intro hrow
    rw [Nat.mod_eq_of_lt hrow]
  have hout : ¬row < H → forwardFrom rows query (col, row) = occurrences rows query := by
    intro hrow
    refine turned_of_none ?_
    intro p hp
    have hlt := (mem_occurrences.1 hp).1
    rw [before_iff_not_before]
    exact .inl (by change p.2 < row; omega)
  rw [head?_eq_iff sorted_occurrences hforth hpart hin hout, ne_nil_iff]
  simp only [hmem, decide_eq_true_eq, before_iff_not_before, FindsForward]

/-- The part of the occurrences that a search backward gets to is enough under this condition. -/
theorem findsBackward_iff {found : List (ℕ × ℕ)} {col row : ℕ} (hrows : rows.length ≤ H)
    (hpart : found <+: backwardFrom rows query (col, row % H))
    (hmem : ∀ p, p ∈ found ↔ p ∈ occurrences rows query ∧ row % H < rows.length ∧
      (¬Before (col, row % H) p ∨ rows.length = H ∧ row % H < p.2)) :
    found.head? = (backwardFrom rows query (col, row)).head? ↔
      FindsBackward rows query H col row := by
  have hforth : ∀ a b, After a b → decide (¬Before (col, row % H) a) = true →
      decide (¬Before (col, row % H) b) = true := by
    intro a b hab ha
    rw [decide_eq_true_iff] at ha ⊢
    exact fun hb => ha (IsTrans.trans _ b a hb hab)
  have hin : row < H →
      backwardFrom rows query (col, row) = backwardFrom rows query (col, row % H) := by
    intro hrow
    rw [Nat.mod_eq_of_lt hrow]
  have hout : ¬row < H →
      backwardFrom rows query (col, row) = (occurrences rows query).reverse := by
    intro hrow
    refine turned_of_all ?_
    intro p hp
    have hlt := (mem_occurrences.1 (List.mem_reverse.1 hp)).1
    rw [decide_eq_true_iff]
    rintro (hbelow | ⟨hsame, -⟩)
    · change row < p.2 at hbelow
      omega
    · change row = p.2 at hsame
      omega
  rw [head?_eq_iff sorted_reverse hforth hpart hin hout, ne_nil_iff, List.reverse_eq_nil_iff]
  simp only [hmem, List.mem_reverse, decide_eq_true_eq, before_iff_not_before, FindsBackward]

/-- Going back from an occurrence, the search comes upon it at once. -/
theorem head?_backwardFrom (hp : p ∈ occurrences rows query) :
    (backwardFrom rows query p).head? = some p := by
  have hirrefl : ¬Before p p := fun hb => Std.Asymm.asymm _ _ hb hb
  obtain ⟨q, hhead, hbefore, hlast⟩ :=
    head?_turned (p := fun q => ¬Before p q) sorted_reverse (List.mem_reverse.2 hp)
      (decide_eq_true hirrefl)
  rw [backwardFrom, hhead]
  rcases hlast p (List.mem_reverse.2 hp) (decide_eq_true hirrefl) with heq | hlt
  · rw [heq]
  · exact absurd hlt (of_decide_eq_true hbefore)

namespace CopyMode

/-- The focused pane is not larger than the window. -/
structure Shows (s : CopyMode) (pane : PaneState) : Prop where
  focused : s.focusedPane = some pane
  rows_le : pane.grid.rows.length ≤ s.rows
  cols_le : ∀ cells ∈ pane.grid.rows, cells.length ≤ s.cols

def cursor (s : CopyMode) : ℕ × ℕ := (s.cursorCol, s.cursorRow)

/-- Does the key go back? -/
def goesBack (s : CopyMode) (shift : Bool) : Bool :=
  if shift then !s.searchBackward else s.searchBackward

/-- The occurrences in the order in which the key should visit them, the one at the cursor last. -/
def upcoming (s : CopyMode) (pane : PaneState) (shift : Bool) : List (ℕ × ℕ) :=
  let occs := occurrences pane.grid.rows s.lastSearchQuery.toList
  if s.goesBack shift then past After s.cursor occs.reverse else past Before s.cursor occs

/-- A press of the key goes to the next occurrence: the search finds it, and it does not begin at
    the occurrence under the cursor again; or that is the only one. -/
def PressFinds (s : CopyMode) (pane : PaneState) (shift : Bool) : Prop :=
  let occs := occurrences pane.grid.rows s.lastSearchQuery.toList
  let H := s.rows - 1 + 1
  (if s.goesBack shift then
      FindsBackward pane.grid.rows s.lastSearchQuery.toList H (s.cursorCol - 1) s.cursorRow ∧
        (s.cursorCol = 0 → s.cursor ∉ occs)
    else FindsForward pane.grid.rows s.lastSearchQuery.toList H (s.cursorCol + 1) s.cursorRow) ∨
  occs = [s.cursor]

instance (s : CopyMode) (pane : PaneState) (shift : Bool) :
    Decidable (s.PressFinds pane shift) :=
  inferInstanceAs (Decidable ((if s.goesBack shift then FindsBackward _ _ _ _ _ ∧ (_ = 0 → _ ∉ _)
    else FindsForward _ _ _ _ _) ∨ _ = _))

variable {s : CopyMode} {pane : PaneState} {text : String}

theorem Shows.height (h : s.Shows pane) : pane.grid.rows.length ≤ s.rows - 1 + 1 := by
  have hle := h.rows_le
  omega

theorem Shows.width (h : s.Shows pane) :
    ∀ cells ∈ pane.grid.rows, cells.length ≤ s.cols - 1 + 1 := by
  intro cells hcells
  have hle := h.cols_le cells hcells
  omega

theorem toList_ne_nil (htext : text ≠ "") : text.toList ≠ [] :=
  fun hnil => htext (String.toList_eq_nil_iff.1 hnil)

theorem exists_searchForward (h : s.Shows pane) (htext : text ≠ "") (col row : ℕ) :
    ∃ found, s.searchForward text col row (s.cols - 1) (s.rows - 1) = found.head? ∧
      found ⊆ occurrences pane.grid.rows text.toList ∧
      (found.head? = (forwardFrom pane.grid.rows text.toList (col, row)).head? ↔
        FindsForward pane.grid.rows text.toList (s.rows - 1 + 1) col row) := by
  obtain ⟨found, hsearch, hpart, hmem⟩ :=
    searchRows_forward (toList_ne_nil htext) h.height h.width (Nat.succ_pos _) col row
  refine ⟨found, ?_, fun p hp => ((hmem p).1 hp).1, findsForward_iff h.height hpart hmem⟩
  rw [searchForward, h.focused]
  exact hsearch

theorem exists_searchPrev (h : s.Shows pane) (htext : text ≠ "") (col row : ℕ) :
    ∃ found, s.searchPrev text col row (s.cols - 1) (s.rows - 1) = found.head? ∧
      found ⊆ occurrences pane.grid.rows text.toList ∧
      (found.head? = (backwardFrom pane.grid.rows text.toList (col, row)).head? ↔
        FindsBackward pane.grid.rows text.toList (s.rows - 1 + 1) col row) := by
  obtain ⟨found, hsearch, hpart, hmem⟩ :=
    searchRows_backward (toList_ne_nil htext) h.height h.width (Nat.succ_pos _) col row
  refine ⟨found, ?_, fun p hp => ((hmem p).1 hp).1, findsBackward_iff h.height hpart hmem⟩
  rw [searchPrev, h.focused]
  exact hsearch

/-- What the search of the key answers. -/
def answer (s : CopyMode) (shift : Bool) : Option (ℕ × ℕ) :=
  if s.goesBack shift then
    s.searchPrev s.lastSearchQuery (s.cursorCol - 1) s.cursorRow (s.cols - 1) (s.rows - 1)
  else
    s.searchForward s.lastSearchQuery (s.cursorCol + 1) s.cursorRow (s.cols - 1) (s.rows - 1)

theorem keyN_eq (hquery : s.lastSearchQuery ≠ "") (shift : Bool) :
    s.keyN shift = match s.answer shift with
      | some (nc, nr) => { s with cursorCol := nc, cursorRow := nr }
      | none => s := by
  have hempty : ¬s.lastSearchQuery.isEmpty = true :=
    fun hempty => hquery (String.isEmpty_iff.1 hempty)
  unfold keyN
  rw [if_neg hempty]
  rfl

/-- Where the key puts the cursor. -/
theorem cursor_keyN (hquery : s.lastSearchQuery ≠ "") (shift : Bool) :
    (s.keyN shift).cursor = (s.answer shift).getD s.cursor := by
  rw [keyN_eq hquery]
  cases s.answer shift <;> rfl

/-- The key moves the cursor and nothing else. -/
theorem exists_keyN (hquery : s.lastSearchQuery ≠ "") (shift : Bool) :
    ∃ col row, s.keyN shift = { s with cursorCol := col, cursorRow := row } := by
  rw [keyN_eq hquery]
  cases s.answer shift with
  | none => exact ⟨s.cursorCol, s.cursorRow, rfl⟩
  | some p => exact ⟨p.1, p.2, rfl⟩

theorem press_forward_iff (h : s.Shows pane) (hquery : s.lastSearchQuery ≠ "") {shift : Bool}
    (hback : s.goesBack shift = false) :
    (s.keyN shift).cursor = next Before s.cursor
        (occurrences pane.grid.rows s.lastSearchQuery.toList) ↔ s.PressFinds pane shift := by
  obtain ⟨found, hsearch, hsub, hfinds⟩ :=
    exists_searchForward h hquery (s.cursorCol + 1) s.cursorRow
  have hpast : past Before s.cursor (occurrences pane.grid.rows s.lastSearchQuery.toList) =
      forwardFrom pane.grid.rows s.lastSearchQuery.toList (s.cursorCol + 1, s.cursorRow) := by
    refine turned_congr ?_
    intro p _
    rw [decide_eq_decide]
    unfold Before cursor
    dsimp only
    omega
  have hmem : ∀ p, found.head? = some p →
      p ∈ occurrences pane.grid.rows s.lastSearchQuery.toList :=
    fun p hp => hsub (List.mem_of_mem_head? hp)
  have hanswer : s.answer shift = found.head? := by
    rw [answer, hback, if_neg Bool.false_ne_true, hsearch]
  rw [cursor_keyN hquery, hanswer, getD_eq_next_iff sorted_occurrences hmem, hpast, hfinds,
    PressFinds, hback, if_neg Bool.false_ne_true]

theorem press_backward_iff (h : s.Shows pane) (hquery : s.lastSearchQuery ≠ "") {shift : Bool}
    (hback : s.goesBack shift = true) :
    (s.keyN shift).cursor = next After s.cursor
        (occurrences pane.grid.rows s.lastSearchQuery.toList).reverse ↔
      s.PressFinds pane shift := by
  obtain ⟨found, hsearch, hsub, hfinds⟩ :=
    exists_searchPrev h hquery (s.cursorCol - 1) s.cursorRow
  have hmem : ∀ p, found.head? = some p →
      p ∈ (occurrences pane.grid.rows s.lastSearchQuery.toList).reverse :=
    fun p hp => List.mem_reverse.2 (hsub (List.mem_of_mem_head? hp))
  have hpress : s.PressFinds pane shift ↔
      (FindsBackward pane.grid.rows s.lastSearchQuery.toList (s.rows - 1 + 1) (s.cursorCol - 1)
        s.cursorRow ∧ (s.cursorCol = 0 → s.cursor ∉
          occurrences pane.grid.rows s.lastSearchQuery.toList)) ∨
        occurrences pane.grid.rows s.lastSearchQuery.toList = [s.cursor] := by
    rw [PressFinds, hback, if_pos rfl]
  have hanswer : s.answer shift = found.head? := by
    rw [answer, hback, if_pos rfl, hsearch]
  have honly : (occurrences pane.grid.rows s.lastSearchQuery.toList).reverse = [s.cursor] ↔
      occurrences pane.grid.rows s.lastSearchQuery.toList = [s.cursor] := by
    rw [List.reverse_eq_iff, List.reverse_singleton]
  rw [cursor_keyN hquery, hanswer, hpress]
  by_cases hstuck : s.cursorCol = 0 ∧ s.cursor ∈
      occurrences pane.grid.rows s.lastSearchQuery.toList
  · -- the search finds the occurrence under the cursor
    obtain ⟨hcol, hcursor⟩ := hstuck
    have hat : (s.cursorCol - 1, s.cursorRow) = s.cursor := by
      rw [hcol, cursor, hcol]
    have hirrefl : ¬Before s.cursor s.cursor := fun hb => Std.Asymm.asymm _ _ hb hb
    have hlt : s.cursorRow < pane.grid.rows.length := (mem_occurrences.1 hcursor).1
    have hrow : s.cursorRow < s.rows - 1 + 1 := Nat.lt_of_lt_of_le hlt h.height
    have hreach : FindsBackward pane.grid.rows s.lastSearchQuery.toList (s.rows - 1 + 1)
        (s.cursorCol - 1) s.cursorRow := by
      refine .inr ⟨⟨s.cursor, hcursor, ?_⟩, .inl hrow⟩
      rw [Nat.mod_eq_of_lt hrow, hat]
      exact ⟨hlt, .inl hirrefl⟩
    have hself : found.head? = some s.cursor := by
      rw [hfinds.2 hreach, hat, head?_backwardFrom hcursor]
    rw [hself, Option.getD_some, eq_comm, next_eq_self_iff sorted_reverse, honly,
      List.reverse_eq_nil_iff]
    constructor
    · rintro (hnil | hall)
      · rw [hnil] at hcursor
        cases hcursor
      · exact .inr hall
    · rintro (⟨-, hfree⟩ | hall)
      · exact absurd hcursor (hfree hcol)
      · exact .inr hall
  · have hpast : past After s.cursor
        (occurrences pane.grid.rows s.lastSearchQuery.toList).reverse =
        backwardFrom pane.grid.rows s.lastSearchQuery.toList
          (s.cursorCol - 1, s.cursorRow) := by
      refine turned_congr ?_
      intro p hp
      rw [decide_eq_decide]
      by_cases hcol : s.cursorCol = 0
      · have hne : p ≠ s.cursor := by
          rintro rfl
          exact hstuck ⟨hcol, List.mem_reverse.1 hp⟩
        have hne : ¬(p.1 = s.cursorCol ∧ p.2 = s.cursorRow) :=
          fun heq => hne (Prod.ext heq.1 heq.2)
        unfold After Before cursor
        dsimp only
        omega
      · unfold After Before cursor
        dsimp only
        omega
    rw [getD_eq_next_iff sorted_reverse hmem, hpast, hfinds, honly]
    refine or_congr_left (and_iff_left ?_).symm
    exact fun hcol hcursor => hstuck ⟨hcol, hcursor⟩

/-- Presses of the key. -/
def presses (s : CopyMode) (shift : Bool) : ℕ → CopyMode
  | 0 => s
  | k + 1 => (presses s shift k).keyN shift

theorem exists_presses (hquery : s.lastSearchQuery ≠ "") (shift : Bool) (k : ℕ) :
    ∃ col row, s.presses shift k = { s with cursorCol := col, cursorRow := row } := by
  induction k with
  | zero => exact ⟨s.cursorCol, s.cursorRow, rfl⟩
  | succ k ih =>
    obtain ⟨col, row, hk⟩ := ih
    obtain ⟨col', row', hkey⟩ :=
      exists_keyN (s := { s with cursorCol := col, cursorRow := row }) hquery shift
    refine ⟨col', row', ?_⟩
    rw [presses, hk, hkey]

/-- The presses visit the occurrences in turn if and only if each of them finds the next one. -/
theorem presses_iff (h : s.Shows pane) (hquery : s.lastSearchQuery ≠ "") (shift : Bool) (n : ℕ) :
    (∀ k < n, (s.presses shift (k + 1)).cursor = (s.upcoming pane shift).getD
        (k % (s.upcoming pane shift).length) s.cursor) ↔
      ∀ k < n, (s.presses shift k).PressFinds pane shift := by
  have hlen : (s.upcoming pane shift).length =
      (occurrences pane.grid.rows s.lastSearchQuery.toList).length := by
    unfold upcoming
    split_ifs
    · exact (turned_perm _ _).length_eq.trans (List.length_reverse)
    · exact (turned_perm _ _).length_eq
  have hframe : ∀ k, (s.presses shift k).Shows pane ∧
      (s.presses shift k).lastSearchQuery = s.lastSearchQuery ∧
        (s.presses shift k).goesBack shift = s.goesBack shift := by
    intro k
    obtain ⟨col, row, hk⟩ := exists_presses hquery shift k
    rw [hk]
    exact ⟨⟨h.focused, h.rows_le, h.cols_le⟩, rfl, rfl⟩
  rw [hlen]
  cases hback : s.goesBack shift with
  | false =>
    have hvisits := visits_iff (l := occurrences pane.grid.rows s.lastSearchQuery.toList)
      sorted_occurrences (fun k => (s.presses shift k).cursor) n
    have hupcoming : s.upcoming pane shift =
        past Before s.cursor (occurrences pane.grid.rows s.lastSearchQuery.toList) := by
      rw [upcoming, hback, if_neg Bool.false_ne_true]
    rw [hupcoming]
    refine hvisits.trans (forall₂_congr fun k _ => ?_)
    obtain ⟨hshows, hsame, hgoes⟩ := hframe k
    have hpress := press_forward_iff hshows (hsame.trans_ne hquery) (hgoes.trans hback)
    rw [hsame] at hpress
    exact hpress
  | true =>
    have hvisits :=
      visits_iff (l := (occurrences pane.grid.rows s.lastSearchQuery.toList).reverse)
        sorted_reverse (fun k => (s.presses shift k).cursor) n
    have hupcoming : s.upcoming pane shift =
        past After s.cursor (occurrences pane.grid.rows s.lastSearchQuery.toList).reverse := by
      rw [upcoming, hback, if_pos rfl]
    rw [hupcoming, ← List.length_reverse]
    refine hvisits.trans (forall₂_congr fun k _ => ?_)
    obtain ⟨hshows, hsame, hgoes⟩ := hframe k
    have hpress := press_backward_iff hshows (hsame.trans_ne hquery) (hgoes.trans hback)
    rw [hsame] at hpress
    exact hpress

theorem upcoming_perm (s : CopyMode) (pane : PaneState) (shift : Bool) :
    (s.upcoming pane shift).Perm (occurrences pane.grid.rows s.lastSearchQuery.toList) := by
  unfold upcoming
  split_ifs
  · exact (turned_perm _ _).trans (List.reverse_perm _)
  · exact turned_perm _ _

end CopyMode

/-- **The search of copy mode** finds the first occurrence from the cursor on, or the last one up to
    it, round the pane, if and only if the search gets to one or there is none; and the presses of
    the key visit all the occurrences in turn if and only if each press finds the next one. -/
theorem copySearch_iff {s : CopyMode} {pane : PaneState} (h : s.Shows pane) :
    (∀ text : String, text ≠ "" → ∀ col row,
      (s.searchForward text col row (s.cols - 1) (s.rows - 1) =
          (forwardFrom pane.grid.rows text.toList (col, row)).head? ↔
        FindsForward pane.grid.rows text.toList (s.rows - 1 + 1) col row) ∧
      (s.searchPrev text col row (s.cols - 1) (s.rows - 1) =
          (backwardFrom pane.grid.rows text.toList (col, row)).head? ↔
        FindsBackward pane.grid.rows text.toList (s.rows - 1 + 1) col row)) ∧
    (s.lastSearchQuery ≠ "" → ∀ shift : Bool,
      (s.upcoming pane shift).Perm (occurrences pane.grid.rows s.lastSearchQuery.toList) ∧
      ∀ n, (∀ k < n, (s.presses shift (k + 1)).cursor = (s.upcoming pane shift).getD
          (k % (s.upcoming pane shift).length) s.cursor) ↔
        ∀ k < n, (s.presses shift k).PressFinds pane shift) := by
  constructor
  · intro text htext col row
    obtain ⟨found, hforward, -, hfinds⟩ := CopyMode.exists_searchForward h htext col row
    obtain ⟨found', hprev, -, hfinds'⟩ := CopyMode.exists_searchPrev h htext col row
    rw [hforward, hprev]
    exact ⟨hfinds, hfinds'⟩
  · intro hquery shift
    exact ⟨CopyMode.upcoming_perm s pane shift, CopyMode.presses_iff h hquery shift⟩

/-- A pane that shows some lines of four characters. -/
def paneOf (lines : List String) : PaneState where
  grid := ⟨4, lines.length, lines.map fun line => line.toList.map fun ch => { ch := ch }, 0, 0, []⟩
  cursorCol := 0
  cursorRow := 0
  scrollback := .new 0
  scrollOffset := 0
  promptAnchors := []
  marks := []
  blocks := []
  contentDirty := true

/-- A search for `a` in a window of four columns and three rows. -/
def searchFor (lines : List String) (col row : ℕ) : CopyMode :=
  ⟨4, 3, some (paneOf lines), col, row, "a", false⟩

/-- Two presses of `n` in a pane with three occurrences. -/
theorem searchFor_finds :
    let s := searchFor ["a..a", "....", "a..."] 0 0
    (s.presses false 1).cursor = (3, 0) ∧ (s.presses false 2).cursor = (0, 2) := by
  intro s
  have hshows : s.Shows (paneOf ["a..a", "....", "a..."]) := ⟨rfl, by decide, by decide⟩
  obtain ⟨-, hpresses⟩ := copySearch_iff hshows
  obtain ⟨-, hvisits⟩ := hpresses (by decide) false
  have hfinds : ∀ k < 2,
      (s.presses false k).PressFinds (paneOf ["a..a", "....", "a..."]) false := by
    decide
  have hcursor := (hvisits 2).2 hfinds
  exact ⟨(hcursor 0 (by decide)).trans (by decide), (hcursor 1 (by decide)).trans (by decide)⟩

/-- The start row is not searched to its beginning; a pane lower than the window is not searched
    from its top; and `N` stays on an occurrence in the first column. -/
theorem searchFor_misses :
    (searchFor ["a...", "....", "...."] 1 0).searchForward "a" 1 0 3 2 ≠
        (forwardFrom (paneOf ["a...", "....", "...."]).grid.rows ['a'] (1, 0)).head? ∧
      (searchFor ["a...", "...."] 1 1).searchForward "a" 1 1 3 2 ≠
        (forwardFrom (paneOf ["a...", "...."]).grid.rows ['a'] (1, 1)).head? ∧
      ((searchFor ["a...", "a...", "...."] 0 1).keyN true).cursor ≠
        ((searchFor ["a...", "a...", "...."] 0 1).upcoming
          (paneOf ["a...", "a...", "...."]) true).headD (0, 1) := by
  decide

end Nexterm.Client

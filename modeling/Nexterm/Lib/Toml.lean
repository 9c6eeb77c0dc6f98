/-
  TOML documents and edits of single keys.

  * `Item`, `Table`: a document, without order and layout.
  * `Edit`, `run`: writes by path; a write into something that is neither a table nor missing
    fails (indexing panics).
  * `run_eq`: a run fails only there; `read_run`, `read_run_of_separate`: what is read
    afterwards.
-/
import Mathlib.Data.Int.Order.Basic
import Nexterm.Lib.Nested

namespace Toml

/-- An item of a document; floats are given by their bits. -/
inductive Item
  | string (s : String)
  | integer (n : ℤ)
  | float (x : UInt64)
  | boolean (b : Bool)
  | datetime (s : String)
  | array (items : List Item)
  | inlineTable (fields : String → Option Item)
  | table (fields : String → Option Item)
  | arrayOfTables (rows : List (String → Option Item))

/-- The keys of a table. -/
abbrev Table := String → Option Item

/-- The keys of a table, inline or not. -/
def Item.fields : Item → Option Table
  | .inlineTable fields | .table fields => some fields
  | _ => none

namespace Item

def asString : Item → Option String
  | .string s => some s
  | _ => none

def asBool : Item → Option Bool
  | .boolean b => some b
  | _ => none

def asStrings : Item → Option (List String)
  | .array items => items.mapM asString
  | _ => none

/-- An integer in a range from 0. -/
def asNat (bound : ℕ) : Item → Option ℕ
  | .integer n => if 0 ≤ n ∧ n < bound then some n.toNat else none
  | _ => none

theorem asNat_ofNat {bound n : ℕ} (h : n < bound) : (Item.integer n).asNat bound = some n := by
  have hrange : (0 : ℤ) ≤ n ∧ (n : ℤ) < bound := ⟨Int.natCast_nonneg n, Int.ofNat_lt.2 h⟩
  simp only [asNat, hrange, if_true, and_self, Int.toNat_natCast]

theorem asStrings_map_string (l : List String) : (Item.array (l.map .string)).asStrings = some l := by
  rw [asStrings, List.mapM_map]
  induction l with
  | nil => rfl
  | cons s l ih => simp_all [asString]

end Item

namespace Table

def empty : Table := fun _ => none

def insert (t : Table) (key : String) (v : Item) : Table := fun k => if k = key then some v else t k

def remove (t : Table) (key : String) : Table := fun k => if k = key then none else t k

/-- A section with one more key; one that is missing becomes an inline table. -/
def withKey (key : String) (v : Item) : Option Item → Item
  | some (.table fields) => .table (insert fields key v)
  | some (.inlineTable fields) => .inlineTable (insert fields key v)
  | _ => .inlineTable (insert empty key v)

/-- Write into a section. -/
def setIn (t : Table) (sec key : String) (v : Item) : Table :=
  t.insert sec (withKey key v (t sec))

/-- The table without some keys. -/
def without (t : Table) (keys : List String) : Table := fun k => if k ∈ keys then none else t k

/-- The value of a key, or a default if it is missing. -/
def field {α : Type} (t : Table) (key : String) (dec : Item → Option α) (dflt : α) : Option α :=
  (t key).elim (some dflt) dec

/-- The keys of a section. -/
def section? (t : Table) (sec : String) : Option Table := (t sec).bind Item.fields

/-- The section is missing or a table. -/
def isSection (t : Table) (sec : String) : Bool := (t sec).all fun item => item.fields.isSome

/-- The item at the top, or in a section. -/
def read (t : Table) (n : Nested.Name) : Option Item :=
  match n.1 with
  | none => t n.2
  | some sec => (t.section? sec).bind (· n.2)

end Table

/-! ## Edits -/

/-- A key to be written or removed. -/
inductive Edit
  | set (key : String) (v : Item)
  | setIn (sec key : String) (v : Item)
  | remove (key : String)

namespace Edit

/-- The key that is written. -/
def name : Edit → Nested.Name
  | set key _ => (none, key)
  | setIn sec key _ => (some sec, key)
  | remove key => (none, key)

/-- What is there afterwards. -/
def value : Edit → Option Item
  | set _ v | setIn _ _ v => some v
  | remove _ => none

/-- The edit, where it can be made. -/
def update (t : Table) : Edit → Table
  | set key v => t.insert key v
  | setIn sec key v => t.setIn sec key v
  | remove key => t.remove key

/-- The edit; indexing what is not a table panics. -/
def apply (t : Table) : Edit → Option Table
  | set key v => some (t.insert key v)
  | setIn sec key v => if t.isSection sec then some (t.setIn sec key v) else none
  | remove key => some (t.remove key)

end Edit

/-- Edits one after the other; `none` is a panic. -/
def run (es : List Edit) (t : Table) : Option Table := es.foldlM Edit.apply t

namespace Table

variable (t : Table)

theorem insert_self (key : String) (v : Item) : t.insert key v key = some v := if_pos rfl

theorem setIn_of_ne {sec key' : String} (key : String) (v : Item) (h : key' ≠ sec) :
    t.setIn sec key v key' = t key' := if_neg h

theorem setIn_self (sec key : String) (v : Item) :
    t.setIn sec key v sec = some (withKey key v (t sec)) := if_pos rfl

theorem fields_withKey (key : String) (v : Item) (item : Option Item) :
    (withKey key v item).fields = some (((item.bind Item.fields).getD empty).insert key v) := by
  rcases item with _ | item
  · rfl
  · cases item <;> rfl

theorem section?_setIn (sec key : String) (v : Item) :
    (t.setIn sec key v).section? sec = some (((t.section? sec).getD empty).insert key v) := by
  rw [section?, setIn_self, Option.bind_some, fields_withKey]
  rfl

theorem read_setIn (sec key : String) (v : Item) (sec' key' : String) :
    (t.setIn sec key v).read (some sec', key') =
      if sec' = sec ∧ key' = key then some v else t.read (some sec', key') := by
  by_cases hsec : sec' = sec
  · subst hsec
    simp only [read, section?_setIn, true_and, Option.bind_some, insert]
    cases t.section? sec' <;> rfl
  · simp only [read, section?, setIn_of_ne t key v hsec, hsec, false_and, if_false]

theorem isSection_setIn (sec key : String) (v : Item) (sec' : String) :
    (t.setIn sec key v).isSection sec' = (decide (sec' = sec) || t.isSection sec') := by
  by_cases hsec : sec' = sec
  · subst hsec
    simp [isSection, setIn_self, fields_withKey]
  · simp [isSection, setIn_of_ne t key v hsec, hsec]

end Table

theorem Edit.read_update_self (t : Table) (e : Edit) : (e.update t).read e.name = e.value := by
  cases e with
  | set key v => exact if_pos rfl
  | setIn sec key v => exact (t.read_setIn sec key v sec key).trans (if_pos ⟨rfl, rfl⟩)
  | remove key => exact if_pos rfl

theorem Table.read_congr {t t' : Table} {n : Nested.Name} (htop : n.1 = none → t' n.2 = t n.2)
    (hsec : ∀ sec, n.1 = some sec → t' sec = t sec) : t'.read n = t.read n := by
  rcases n with ⟨_ | sec, key⟩
  · exact htop rfl
  · simp only [read, section?, hsec sec rfl]

theorem Edit.read_update_of_separate (t : Table) (e : Edit) (n : Nested.Name)
    (h : Nested.Separate e.name n) : (e.update t).read n = t.read n := by
  obtain ⟨hname, hsec, hsec'⟩ := h
  have hkey : e.name.1 = none → n.1 = none → n.2 ≠ e.name.2 :=
    fun he hn heq => hname (Prod.ext (he.trans hn.symm) heq.symm)
  have htop : e.name.1 = none → ∀ sec, n.1 = some sec → sec ≠ e.name.2 :=
    fun he sec hn heq => hsec' he (by rw [hn, heq])
  cases e with
  | set key v =>
    exact Table.read_congr (fun hn => if_neg (hkey rfl hn)) fun sec hn => if_neg (htop rfl sec hn)
  | remove key =>
    exact Table.read_congr (fun hn => if_neg (hkey rfl hn)) fun sec hn => if_neg (htop rfl sec hn)
  | setIn sec key v =>
    rcases n with ⟨_ | sec', key'⟩
    · exact t.setIn_of_ne key v fun heq => hsec rfl (congrArg some heq.symm)
    · refine (t.read_setIn sec key v sec' key').trans (if_neg ?_)
      rintro ⟨rfl, rfl⟩
      exact hname rfl

/-! ## Runs -/

/-- The edit needs no index into what is not a table. -/
def Edit.fits (e : Edit) (t : Table) : Bool := e.name.1.all t.isSection

theorem Edit.apply_eq (t : Table) (e : Edit) :
    e.apply t = if e.fits t then some (e.update t) else none := by
  cases e <;> rfl

/-- An edit that fits makes no difference to whether another one does. -/
theorem Edit.fits_update {e e' : Edit} (h : Nested.Separate e.name e'.name) {t : Table}
    (hfits : e.fits t = true) : e'.fits (e.update t) = e'.fits t := by
  unfold Edit.fits at hfits ⊢
  cases hn : e'.name.1 with
  | none => rfl
  | some sec =>
    have htop : e.name.1 = none → sec ≠ e.name.2 := fun he heq => h.2.2 he (by rw [hn, heq])
    cases e with
    | set key v =>
      have hother : t.insert key v sec = t sec := if_neg (htop rfl)
      simp only [Option.all_some, Edit.update, Table.isSection, hother]
    | remove key =>
      have hother : t.remove key sec = t sec := if_neg (htop rfl)
      simp only [Option.all_some, Edit.update, Table.isSection, hother]
    | setIn sec' key v =>
      have hsec' : t.isSection sec' = true := hfits
      rw [Option.all_some, Option.all_some, Edit.update, Table.isSection_setIn]
      by_cases hsec : sec = sec'
      · rw [hsec, hsec']
        simp
      · rw [decide_eq_false hsec, Bool.false_or]

variable {es : List Edit} (hes : (es.map Edit.name).Pairwise Nested.Separate)

include hes

/-- A run fails only where an edit did not fit from the beginning. -/
theorem run_eq (t : Table) :
    run es t = if es.all (·.fits t) then some (es.foldl Edit.update t) else none := by
  induction es generalizing t with
  | nil => rfl
  | cons e es ih =>
    obtain ⟨he, hes⟩ := List.pairwise_cons.1 hes
    rw [run, List.foldlM_cons, Edit.apply_eq]
    cases hfits : e.fits t with
    | false => simp [hfits]
    | true =>
      have hrest : es.all (·.fits (e.update t)) = es.all (·.fits t) := by
        rw [Bool.eq_iff_iff, List.all_eq_true, List.all_eq_true]
        exact forall₂_congr fun e' he' => by
          rw [Edit.fits_update (he _ (List.mem_map_of_mem he')) hfits]
      have hrun := ih hes (e.update t)
      rw [hrest] at hrun
      simpa [hfits, run] using hrun

/-- What is read after a run is what was written. -/
theorem read_run {t t' : Table} (h : run es t = some t') {e : Edit} (he : e ∈ es) :
    t'.read e.name = e.value := by
  rw [run_eq hes] at h
  split at h
  · obtain rfl := Option.some.inj h
    exact Nested.read_foldl Table.read Edit.name Edit.read_update_of_separate (fun e _ => e.value)
      Edit.read_update_self t hes he
  · exact nomatch h

theorem read_run_of_separate {t t' : Table} (h : run es t = some t') {n : Nested.Name}
    (hn : ∀ m ∈ es.map Edit.name, Nested.Separate m n) : t'.read n = t.read n := by
  rw [run_eq hes] at h
  split at h
  · obtain rfl := Option.some.inj h
    exact Nested.read_foldl_of_separate Table.read Edit.name Edit.read_update_of_separate t hn
  · exact nomatch h

end Toml

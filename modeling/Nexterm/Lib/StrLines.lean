/-
  The lines of a text, as Rust's `str` has them.

  * `lines`: without their ends; an empty line at the end of the text does not count.
-/
import Mathlib.Data.List.Basic

namespace Nexterm.Str

def stripCr (line : List Char) : List Char :=
  if line.getLast? = some '\r' then line.dropLast else line

/-- `str::lines`. -/
def lines (content : List Char) : List (List Char) :=
  let pieces := content.splitOn '\n'
  let last := pieces.getLast?.getD []
  pieces.dropLast.map stripCr ++ if last = [] then [] else [last]

theorem lines_cons {line : List Char} (h : '\n' ∉ line) (rest : List Char) :
    lines (line ++ '\n' :: rest) = stripCr line :: lines rest := by
  obtain ⟨piece, pieces, hpieces⟩ := List.exists_cons_of_ne_nil (List.splitOn_ne_nil '\n' rest)
  rw [lines, lines, List.splitOn_append_cons_self_of_not_mem h, hpieces]
  rfl

/-- Lines that are ended, and what follows them. -/
theorem lines_flatMap_append {ls : List (List Char)} (h : ∀ line ∈ ls, '\n' ∉ line)
    (rest : List Char) :
    lines (ls.flatMap (· ++ ['\n']) ++ rest) = ls.map stripCr ++ lines rest := by
  induction ls with
  | nil => rfl
  | cons line ls ih =>
    rw [List.flatMap_cons, List.append_assoc, List.append_assoc, List.singleton_append,
      lines_cons (h line List.mem_cons_self), ih fun l hl => h l (List.mem_cons_of_mem _ hl)]
    rfl

theorem lines_last {line : List Char} (h : '\n' ∉ line) :
    lines line = if line = [] then [] else [line] := by
  have hsplit : line.splitOn '\n' = [line] := List.splitOn_eq_singleton h
  rw [lines, hsplit]
  rfl

end Nexterm.Str

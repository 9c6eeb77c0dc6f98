/-
  A list with a cursor in it.

  * `insert`, `backspace`, `delete`, `moveLeft` and so on: edits at the cursor.
  * `toList_moveLeft`, `toList_moveRight`: what a move keeps.
-/
import Mathlib.Data.List.Basic

/-- The elements before and after the cursor. -/
structure Zipper (α : Type) where
  left : List α
  right : List α

namespace Zipper

variable {α : Type} (z : Zipper α)

def toList : List α := z.left ++ z.right

/-- The cursor ends up after what is inserted. -/
def insert (l : List α) : Zipper α := ⟨z.left ++ l, z.right⟩

def backspace : Zipper α := ⟨z.left.dropLast, z.right⟩

def delete : Zipper α := ⟨z.left, z.right.tail⟩

def moveLeft : Zipper α := ⟨z.left.dropLast, z.left.getLast?.toList ++ z.right⟩

def moveRight : Zipper α := ⟨z.left ++ z.right.head?.toList, z.right.tail⟩

def moveHome : Zipper α := ⟨[], z.toList⟩

def moveEnd : Zipper α := ⟨z.toList, []⟩

theorem toList_moveLeft : z.moveLeft.toList = z.toList := by
  rcases z with ⟨left, right⟩
  rcases List.eq_nil_or_concat' left with rfl | ⟨l, a, rfl⟩ <;> simp [moveLeft, toList]

theorem toList_moveRight : z.moveRight.toList = z.toList := by
  rcases z with ⟨left, right⟩
  cases right <;> simp [moveRight, toList]

end Zipper

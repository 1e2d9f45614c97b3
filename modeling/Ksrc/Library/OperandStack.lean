import Mathlib.Data.List.Basic

/-!
# Operand stacks

A stack is a list, its top first. An index counts from the bottom where it is positive, the bottom
being 1, and from the top where it is negative, the top being -1.
-/
namespace Ksrc.Library.OperandStack

variable {ν : Type*} {s above : List ν} {v fill : ν} {k : Nat}

/-- How far below the top an index is: 1 at the top, 0 where the index is not valid. -/
def depth (s : List ν) (i : Int) : Nat :=
  if 0 < i then (s.length + 1 - i).toNat else (-i).toNat

def valueAt (s : List ν) (i : Int) : Option ν :=
  match depth s i with
  | 0 => none
  | d + 1 => s[d]?

/-- Give the stack a height. -/
def settop (fill : ν) (s : List ν) (height : Nat) : List ν :=
  if height ≤ s.length then s.drop (s.length - height)
  else List.replicate (height - s.length) fill ++ s

/-- Take out the value at an index. -/
def remove (s : List ν) (i : Int) : List ν := s.eraseIdx (depth s i - 1)

/-- Move the top to an index, over the value that was there. -/
def insert (s : List ν) (i : Int) : List ν :=
  match s with
  | [] => []
  | v :: rest => rest.insertIdx (depth s i - 1) v

@[simp]
theorem valueAt_top : valueAt (v :: s) (-1) = some v := rfl

/-- A value below some others, from the top. -/
theorem valueAt_below (above : List ν) (v : ν) (s : List ν) :
    valueAt (above ++ v :: s) (-(above.length : Int) - 1) = some v := by
  have below : depth (above ++ v :: s) (-(above.length : Int) - 1) = above.length + 1 := by
    unfold depth
    rw [if_neg (by omega)]
    omega
  unfold valueAt
  rw [below]
  simp

/-- A value under two runs of others. -/
theorem valueAt_under (above between : List ν) (v : ν) (s : List ν) {i : Int}
    (index : i = -(above.length : Int) - (between.length + 1 : Nat)) :
    valueAt (above ++ (between ++ v :: s)) i = some v := by
  have below := valueAt_below (above ++ between) v s
  rw [List.length_append, List.append_assoc] at below
  have same : i = -((above.length + between.length : Nat) : Int) - 1 := by omega
  rw [same]
  exact below

/-- The values above some others, from the bottom. -/
theorem valueAt_above : valueAt (above ++ s) (s.length + 1 + k) = above.reverse[k]? := by
  unfold valueAt depth
  rw [if_pos (by omega), List.length_append]
  by_cases inside : k < above.length
  · have deep : (((above.length + s.length : Nat) : Int) + 1 - (s.length + 1 + k)).toNat =
        (above.length - 1 - k) + 1 := by omega
    rw [deep]
    dsimp only
    rw [List.getElem?_append_left (by omega), List.getElem?_reverse inside]
  · have deep : (((above.length + s.length : Nat) : Int) + 1 - (s.length + 1 + k)).toNat = 0 := by
      omega
    rw [deep]
    dsimp only
    rw [List.getElem?_eq_none (by simpa using inside)]

@[simp]
theorem settop_above : settop fill (above ++ s) s.length = s := by
  unfold settop
  rw [if_pos (by simp)]
  simp

end Ksrc.Library.OperandStack

import Mathlib.Data.List.Basic
import Mathlib.Data.List.Nodup

/-!
# Where the blocks of a list end

A list of blocks is laid out in a row, from an offset on. `ends` are the positions of the last
elements of the blocks.
-/
namespace Ksrc.Library

variable {α : Type*} {a : α} {n i : Nat} {blocks more : List (List α)}

/-- The position of the last element of each block, laid out from `n` on. -/
def ends : Nat → List (List α) → List Nat
  | _, [] => []
  | n, block :: blocks => (n + block.length - 1) :: ends (n + block.length) blocks

theorem ends_append : ends n (blocks ++ more) = ends n blocks ++ ends (n + blocks.flatten.length) more := by
  induction blocks generalizing n with
  | nil => simp [ends]
  | cons block blocks ih =>
    simp only [List.cons_append, ends, ih, List.flatten_cons, List.length_append]
    rw [Nat.add_assoc]

/-- The ends are inside what is laid out. -/
theorem ends_bounds (full : ∀ block ∈ blocks, block ≠ []) (member : i ∈ ends n blocks) :
    n ≤ i ∧ i < n + blocks.flatten.length := by
  induction blocks generalizing n with
  | nil => simp [ends] at member
  | cons block blocks ih =>
    have some : 0 < block.length := List.length_pos_iff.mpr (full block List.mem_cons_self)
    simp only [List.flatten_cons, List.length_append]
    simp only [ends, List.mem_cons] at member
    rcases member with rfl | later
    · omega
    · have bounds := ih (fun b inside => full b (List.mem_cons_of_mem _ inside)) later
      omega

theorem ends_nodup (full : ∀ block ∈ blocks, block ≠ []) : (ends n blocks).Nodup := by
  induction blocks generalizing n with
  | nil => simp [ends]
  | cons block blocks ih =>
    have some : 0 < block.length := List.length_pos_iff.mpr (full block List.mem_cons_self)
    have others : ∀ b ∈ blocks, b ≠ [] := fun b inside => full b (List.mem_cons_of_mem _ inside)
    simp only [ends, List.nodup_cons]
    constructor
    · intro again
      have bounds := ends_bounds others again
      omega
    · exact ih others

/-- Every position is an end just when every block has one element. -/
theorem ends_cover (full : ∀ block ∈ blocks, block ≠ []) :
    (∀ i, n ≤ i → i < n + blocks.flatten.length → i ∈ ends n blocks) ↔
      ∀ block ∈ blocks, block.length = 1 := by
  induction blocks generalizing n with
  | nil => simp [ends]
  | cons block blocks ih =>
    have some : 0 < block.length := List.length_pos_iff.mpr (full block List.mem_cons_self)
    have others : ∀ b ∈ blocks, b ≠ [] := fun b inside => full b (List.mem_cons_of_mem _ inside)
    rw [List.forall_mem_cons]
    simp only [ends, List.flatten_cons, List.length_append, List.mem_cons]
    constructor
    · intro cover
      -- the first position is the end of the first block
      have single : block.length = 1 := by
        rcases cover n (Nat.le_refl n) (by omega) with last | later
        · omega
        · have bounds := ends_bounds others later
          omega
      have rest : ∀ i, n + block.length ≤ i → i < n + block.length + blocks.flatten.length →
          i ∈ ends (n + block.length) blocks := by
        intro i low high
        rcases cover i (by omega) (by omega) with last | later
        · omega
        · exact later
      exact ⟨single, (ih others).mp rest⟩
    · rintro ⟨single, rest⟩ i low high
      by_cases first : i = n
      · left
        omega
      · right
        exact (ih others).mpr rest i (by omega) (by omega)

/-- Where an element stands in a row of blocks. -/
theorem exists_block (found : blocks.flatten[i]? = some a) :
    ∃ before front back after, blocks = before ++ (front ++ a :: back) :: after ∧
      i = before.flatten.length + front.length := by
  induction blocks generalizing i with
  | nil => simp at found
  | cons block blocks ih =>
    rw [List.flatten_cons] at found
    by_cases inside : i < block.length
    · rw [List.getElem?_append_left inside] at found
      obtain ⟨_, rfl⟩ := List.getElem?_eq_some_iff.mp found
      refine ⟨[], block.take i, block.drop (i + 1), blocks, ?_, ?_⟩
      · rw [List.getElem_cons_drop, List.take_append_drop]
        rfl
      · simp only [List.flatten_nil, List.length_nil, List.length_take]
        omega
    · rw [List.getElem?_append_right (by omega)] at found
      obtain ⟨before, front, back, after, rfl, place⟩ := ih found
      refine ⟨block :: before, front, back, after, rfl, ?_⟩
      simp only [List.flatten_cons, List.length_append]
      omega

/-- An element of a block is at an end when nothing is behind it. -/
theorem mem_ends_iff (full : ∀ block ∈ blocks, block ≠ []) {before after : List (List α)}
    {front back : List α} (split : blocks = before ++ (front ++ a :: back) :: after) :
    n + before.flatten.length + front.length ∈ ends n blocks ↔ back = [] := by
  subst split
  have earlier : ∀ b ∈ before, b ≠ [] := fun b inside => full b (List.mem_append_left _ inside)
  have later : ∀ b ∈ after, b ≠ [] := fun b inside =>
    full b (List.mem_append_right _ (List.mem_cons_of_mem _ inside))
  rw [ends_append, ends, List.mem_append, List.mem_cons, List.length_append, List.length_cons]
  constructor
  · rintro (first | here | last)
    · have bounds := ends_bounds earlier first
      omega
    · exact List.length_eq_zero_iff.mp (by omega)
    · have bounds := ends_bounds later last
      omega
  · rintro rfl
    right
    left
    simp only [List.length_nil]
    omega

end Ksrc.Library

import Mathlib.Data.List.Basic

/-!
# First occurrences

The elements of a list that are the first of their kind, and lists that first mention the same elements
in the same order.
-/
namespace Ksrc.Library

variable {α : Type*}

/-- The elements that are the first of their kind, after some earlier ones. -/
def firstsBy (same : α → α → Bool) : List α → List α → List α
  | _, [] => []
  | earlier, a :: rest =>
    if earlier.any (same a) then firstsBy same (a :: earlier) rest
    else a :: firstsBy same (a :: earlier) rest

section Firsts

variable {same : α → α → Bool} {a : α} {earlier l : List α}

theorem firstsBy_snoc : firstsBy same earlier (l ++ [a]) =
    firstsBy same earlier l ++ if (earlier ++ l).any (same a) then [] else [a] := by
  induction l generalizing earlier with
  | nil =>
    simp only [List.nil_append, firstsBy, List.append_nil]
  | cons b rest ih =>
    have swap : (b :: earlier ++ rest).any (same a) = (earlier ++ b :: rest).any (same a) := by
      simp only [List.any_append, List.any_cons]
      grind
    rw [List.cons_append, firstsBy, firstsBy, ih, swap]
    split <;> rfl

end Firsts

variable [DecidableEq α]

/-- Two lists with the same elements, first mentioned in the same order. -/
structure SameFirsts (l m : List α) : Prop where
  mem : ∀ a, a ∈ l ↔ a ∈ m
  order : ∀ a b, l.idxOf a ≤ l.idxOf b ↔ m.idxOf a ≤ m.idxOf b

section Order

variable {a b : α} {l m : List α}

theorem sameFirsts_nil : SameFirsts ([] : List α) [] := by
  constructor
  · exact fun _ => Iff.rfl
  · exact fun _ _ => Iff.rfl

/-- Where an element is, with one more at the end. -/
theorem idxOf_snoc (a b : α) (l : List α) : (l ++ [a]).idxOf b =
    if b ∈ l then l.idxOf b else if b = a then l.length else l.length + 1 := by
  split
  · rename_i inside
    exact List.idxOf_append_of_mem inside
  rename_i outside
  rw [List.idxOf_append_of_notMem outside]
  split
  · rename_i same
    rw [same, List.idxOf_cons_self, Nat.add_zero]
  · rename_i other
    rw [List.idxOf_cons_ne _ (Ne.symm other), List.idxOf_nil]

theorem idxOf_cases (b : α) (l : List α) :
    (b ∈ l ∧ l.idxOf b < l.length) ∨ (b ∉ l ∧ l.idxOf b = l.length) := by
  by_cases inside : b ∈ l
  · exact .inl ⟨inside, List.idxOf_lt_length_of_mem inside⟩
  · exact .inr ⟨inside, List.idxOf_eq_length inside⟩

/-- An element that was mentioned before makes no difference. -/
theorem SameFirsts.again (ok : SameFirsts l m) (old : a ∈ l) : SameFirsts l (m ++ [a]) := by
  have mentioned := (ok.mem a).mp old
  constructor
  · intro b
    rw [ok.mem, List.mem_append, List.mem_singleton]
    refine (or_iff_left_of_imp ?_).symm
    rintro rfl
    exact mentioned
  · intro b c
    have one := idxOf_cases b m
    have other := idxOf_cases c m
    rw [ok.order, idxOf_snoc, idxOf_snoc]
    grind

/-- A new element comes last in both. -/
theorem SameFirsts.new (ok : SameFirsts l m) : SameFirsts (l ++ [a]) (m ++ [a]) := by
  constructor
  · intro b
    rw [List.mem_append, List.mem_append, ok.mem]
  · intro b c
    have order := ok.order b c
    have memB := ok.mem b
    have memC := ok.mem c
    have oneL := idxOf_cases b l
    have otherL := idxOf_cases c l
    have oneM := idxOf_cases b m
    have otherM := idxOf_cases c m
    rw [idxOf_snoc, idxOf_snoc, idxOf_snoc, idxOf_snoc]
    grind

end Order

end Ksrc.Library

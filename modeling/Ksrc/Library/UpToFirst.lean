import Mathlib.Data.List.Basic

/-!
# Up to the first element of a list

What holds of the elements of a list up to and including the first one that does not pass.
-/
namespace Ksrc.Library

variable {α : Type*} {passes holds : α → Prop} {a : α} {l : List α}

/-- `holds` is true of every element that only elements that pass come before. -/
def UpToFirst (passes holds : α → Prop) (l : List α) : Prop :=
  ∀ before a after, l = before ++ a :: after → (∀ b ∈ before, passes b) → holds a

theorem upToFirst_nil : UpToFirst passes holds [] := by
  intro before a after split
  simp at split

theorem upToFirst_cons :
    UpToFirst passes holds (a :: l) ↔ holds a ∧ (passes a → UpToFirst passes holds l) := by
  constructor
  · intro all
    refine ⟨all [] a l rfl (by simp), fun first before b after split pass => ?_⟩
    refine all (a :: before) b after (by rw [split]; rfl) ?_
    rw [List.forall_mem_cons]
    exact ⟨first, pass⟩
  · rintro ⟨here, later⟩ before b after split pass
    cases before with
    | nil =>
      cases split
      exact here
    | cons c before =>
      cases split
      rw [List.forall_mem_cons] at pass
      exact later pass.1 before b after rfl pass.2

/-- Where some element does not pass, there is a first one. -/
theorem exists_first [DecidablePred passes] (failing : ∃ a ∈ l, ¬ passes a) :
    ∃ before a after, l = before ++ a :: after ∧ (∀ b ∈ before, passes b) ∧ ¬ passes a := by
  induction l with
  | nil =>
    obtain ⟨a, member, -⟩ := failing
    exact absurd member List.not_mem_nil
  | cons c l ih =>
    by_cases pass : passes c
    · have later : ∃ a ∈ l, ¬ passes a := by
        obtain ⟨a, member, fails⟩ := failing
        rcases List.mem_cons.mp member with rfl | member
        · exact absurd pass fails
        · exact ⟨a, member, fails⟩
      obtain ⟨before, a, after, split, all, fails⟩ := ih later
      refine ⟨c :: before, a, after, by rw [split]; rfl, ?_, fails⟩
      rw [List.forall_mem_cons]
      exact ⟨pass, all⟩
    · exact ⟨[], c, l, rfl, by simp, pass⟩

end Ksrc.Library

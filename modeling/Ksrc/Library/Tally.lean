import Mathlib.Data.Finset.Card

/-!
# Counters that count

A counter that goes up and down with a property of indices: it is the number of the indices
that have the property, of which there are finitely many at any time.
-/
namespace Ksrc.Library

variable {ι : Type*} {p p' : ι → Prop} {n : Nat} {x y : ι}

/-- As many indices as the counter says have the property. -/
def Tally (n : Nat) (p : ι → Prop) : Prop := ∃ s : Finset ι, (∀ x, x ∈ s ↔ p x) ∧ s.card = n

namespace Tally

theorem zero (none : ∀ x, ¬ p x) : Tally 0 p :=
  ⟨∅, fun x => ⟨fun inside => absurd inside (Finset.notMem_empty x), fun holds => absurd holds (none x)⟩,
    Finset.card_empty⟩

theorem congr (tally : Tally n p) (same : ∀ x, p' x ↔ p x) : Tally n p' := by
  obtain ⟨s, member, card⟩ := tally
  exact ⟨s, fun x => (member x).trans (same x).symm, card⟩

theorem pos (tally : Tally n p) (holds : p x) : 0 < n := by
  obtain ⟨s, member, card⟩ := tally
  rw [← card]
  exact Finset.card_pos.mpr ⟨x, (member x).mpr holds⟩

theorem of_zero (tally : Tally 0 p) (x : ι) : ¬ p x := fun holds =>
  absurd (tally.pos holds) (Nat.lt_irrefl 0)

theorem eq_zero (tally : Tally n p) (none : ∀ x, ¬ p x) : n = 0 := by
  obtain ⟨s, member, card⟩ := tally
  rw [← card, Finset.card_eq_zero]
  exact Finset.eq_empty_of_forall_notMem fun x inside => none x ((member x).mp inside)

theorem unique {k : Nat} (tally : Tally n p) (tally' : Tally k p) : n = k := by
  obtain ⟨s, member, card⟩ := tally
  obtain ⟨t, member', card'⟩ := tally'
  have same : s = t := Finset.ext fun x => (member x).trans (member' x).symm
  rw [← card, ← card', same]

/-- At most one index has the property. -/
theorem le_one (tally : Tally n p) (only : ∀ y, p y → y = x) : n ≤ 1 := by
  obtain ⟨s, member, card⟩ := tally
  rw [← card, Finset.card_le_one]
  intro a isA b isB
  rw [only a ((member a).mp isA), only b ((member b).mp isB)]

/-- One more index. -/
theorem gain (tally : Tally n p) (new : ¬ p x) (grows : ∀ y, p' y ↔ y = x ∨ p y) :
    Tally (n + 1) p' := by
  classical
  obtain ⟨s, member, card⟩ := tally
  refine ⟨insert x s, fun y => ?_, ?_⟩
  · rw [Finset.mem_insert, member, grows]
  · have outside : x ∉ s := fun inside => new ((member x).mp inside)
    rw [Finset.card_insert_of_notMem outside, card]

/-- One index less. -/
theorem lose (tally : Tally n p) (old : p x) (shrinks : ∀ y, p' y ↔ y ≠ x ∧ p y) :
    Tally (n - 1) p' := by
  classical
  obtain ⟨s, member, card⟩ := tally
  refine ⟨s.erase x, fun y => ?_, ?_⟩
  · rw [Finset.mem_erase, member, shrinks]
  · rw [Finset.card_erase_of_mem ((member x).mpr old), card]

/-- One index in the place of another. -/
theorem swap (tally : Tally n p) (old : p x) (new : ¬ p y)
    (moves : ∀ z, p' z ↔ z = y ∨ z ≠ x ∧ p z) : Tally n p' := by
  have shrunk : Tally (n - 1) fun z => z ≠ x ∧ p z := tally.lose old fun _ => Iff.rfl
  have grown : Tally (n - 1 + 1) p' := shrunk.gain (fun both => new both.2) moves
  have positive := tally.pos old
  rwa [Nat.sub_add_cancel positive] at grown

end Tally

end Ksrc.Library

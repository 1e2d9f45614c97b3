import Mathlib.Data.List.Nodup
import Mathlib.Data.List.Perm.Subperm

/-!
# Loops that walk from place to place

A loop whose next place is a partial function of the place it is at. If it ends at all it never comes
back to a place, so that a bound on the places is a bound on its rounds.
-/
namespace Ksrc.Library

variable {α : Type*} (next : α → Option α)

/-- The places of the first rounds. -/
def walk : Nat → α → List α
  | 0, _ => []
  | fuel + 1, a =>
    a :: match next a with
      | none => []
      | some b => walk fuel b

/-- The loop ends within so many rounds. -/
def endsWithin : Nat → α → Bool
  | 0, _ => false
  | fuel + 1, a =>
    match next a with
    | none => true
    | some b => endsWithin fuel b

variable {next} {a b : α} {fuel more : Nat}

/-- A loop that ends within some rounds ends within more, at the same places. -/
theorem walk_stable (ends : endsWithin next fuel a = true) (le : fuel ≤ more) :
    endsWithin next more a = true ∧ walk next more a = walk next fuel a := by
  induction fuel generalizing a more with
  | zero => cases ends
  | succ fuel ih =>
    obtain ⟨more, rfl⟩ : ∃ m, more = m + 1 := ⟨more - 1, by omega⟩
    simp only [endsWithin, walk] at ends ⊢
    cases step : next a with
    | none => exact ⟨rfl, rfl⟩
    | some b =>
      simp only [step] at ends
      have fewer : fuel ≤ more := by omega
      obtain ⟨later, same⟩ := ih ends fewer
      exact ⟨later, by simp only [same]⟩

/-- The rounds from a place on the walk are fewer. -/
theorem endsWithin_of_mem (ends : endsWithin next fuel a = true) (member : b ∈ walk next fuel a) :
    endsWithin next fuel b = true ∧ (walk next fuel b).length ≤ (walk next fuel a).length := by
  induction fuel generalizing a with
  | zero => cases ends
  | succ fuel ih =>
    rcases List.mem_cons.mp (by simpa only [walk] using member) with rfl | later
    · exact ⟨ends, Nat.le_refl _⟩
    · cases step : next a with
      | none => simp [step] at later
      | some c =>
        simp only [step] at later
        have rest : endsWithin next fuel c = true := by simpa only [endsWithin, step] using ends
        obtain ⟨done, short⟩ := ih rest later
        obtain ⟨longer, same⟩ := walk_stable done (Nat.le_succ fuel)
        refine ⟨longer, ?_⟩
        rw [same]
        simp only [walk, step, List.length_cons]
        omega

/-- A loop that ends comes to no place twice. -/
theorem walk_nodup (ends : endsWithin next fuel a = true) : (walk next fuel a).Nodup := by
  induction fuel generalizing a with
  | zero => cases ends
  | succ fuel ih =>
    simp only [walk]
    cases step : next a with
    | none => simp
    | some c =>
      have rest : endsWithin next fuel c = true := by simpa only [endsWithin, step] using ends
      refine List.nodup_cons.mpr ⟨?_, ih rest⟩
      -- from the same place the loop would be shorter than itself
      intro again
      obtain ⟨done, short⟩ := endsWithin_of_mem rest again
      obtain ⟨-, same⟩ := walk_stable done (Nat.le_succ fuel)
      rw [← same] at short
      simp only [walk, step, List.length_cons] at short
      omega

theorem endsWithin_length (ends : endsWithin next fuel a = true) :
    endsWithin next (walk next fuel a).length a = true := by
  induction fuel generalizing a with
  | zero => cases ends
  | succ fuel ih =>
    simp only [walk]
    cases step : next a with
    | none => simp [endsWithin, step]
    | some c =>
      have rest : endsWithin next fuel c = true := by simpa only [endsWithin, step] using ends
      simp only [List.length_cons, endsWithin, step]
      exact ih rest

/-- As many rounds as there are places are enough. -/
theorem endsWithin_places {places : List α} (ends : endsWithin next fuel a = true)
    (inside : ∀ b ∈ walk next fuel a, b ∈ places) : endsWithin next places.length a = true := by
  have short : (walk next fuel a).length ≤ places.length :=
    ((walk_nodup ends).subperm inside).length_le
  exact (walk_stable (endsWithin_length ends) short).1

end Ksrc.Library

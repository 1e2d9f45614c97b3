import Mathlib.Data.Option.Basic
import Mathlib.Logic.Relation

/-!
# Chains of links

Every element has at most one successor. A chain that ends within some number of links has a search
that ends, too.
-/
namespace Ksrc.Library

variable {α : Type} {next : α → Option α} {a b c : α} {n m : Nat}

/-- `b` is the successor of `a`. -/
def Links (next : α → Option α) (a b : α) : Prop := next a = some b

/-- `b` comes later in the chain of `a`. -/
def Ahead (next : α → Option α) : α → α → Prop := Relation.TransGen (Links next)

/-- The chain from an element has at most so many links. -/
def EndsWithin (next : α → Option α) : Nat → α → Prop
  | 0, a => next a = none
  | n + 1, a => ∀ b, next a = some b → EndsWithin next n b

theorem endsWithin_of_none (ends : next a = none) : EndsWithin next n a := by
  cases n with
  | zero => exact ends
  | succ n =>
    intro b link
    rw [ends] at link
    cases link

theorem EndsWithin.tail (ends : EndsWithin next (n + 1) a) (link : next a = some b) :
    EndsWithin next n b :=
  ends b link

theorem not_ahead_of_none (ends : next a = none) : ¬ Ahead next a b := by
  intro ahead
  obtain ⟨c, link, -⟩ := Relation.TransGen.head'_iff.mp ahead
  unfold Links at link
  rw [ends] at link
  cases link

/-- What is ahead is the successor or ahead of it. -/
theorem ahead_of_some (link : next a = some b) : Ahead next a c ↔ b = c ∨ Ahead next b c := by
  constructor
  · intro ahead
    obtain ⟨b', link', rest⟩ := Relation.TransGen.head'_iff.mp ahead
    unfold Links at link'
    rw [link] at link'
    cases link'
    rcases Relation.reflTransGen_iff_eq_or_transGen.mp rest with same | later
    · exact .inl same.symm
    · exact .inr later
  · rintro (rfl | later)
    · exact Relation.TransGen.single link
    · exact Relation.TransGen.head link later

end Ksrc.Library

import Mathlib.Logic.Basic

/-!
# What a loop accumulates

A loop that folds a list into an accumulator. A property of the accumulator that each element may
add, and none takes away, holds at the end if it held before or some element added it.
-/
namespace Ksrc.Library

variable {σ α : Type*} {inv seen : σ → Prop} {adds : α → Prop} {f : σ → α → σ}

/-- A step keeps the invariant, and adds the property just for the elements named. -/
structure Accumulates (inv seen : σ → Prop) (adds : α → Prop) (f : σ → α → σ) : Prop where
  keeps : ∀ s a, inv s → inv (f s a)
  grows : ∀ s a, inv s → (seen (f s a) ↔ seen s ∨ adds a)

namespace Accumulates

theorem foldl_keeps (step : Accumulates inv seen adds f) (l : List α) {s : σ} (start : inv s) :
    inv (l.foldl f s) := by
  induction l generalizing s with
  | nil => exact start
  | cons a l ih => exact ih (step.keeps s a start)

theorem foldl_grows (step : Accumulates inv seen adds f) (l : List α) {s : σ} (start : inv s) :
    seen (l.foldl f s) ↔ seen s ∨ ∃ a ∈ l, adds a := by
  induction l generalizing s with
  | nil => simp
  | cons a l ih =>
    have next := ih (step.keeps s a start)
    rw [List.foldl_cons, next, step.grows s a start]
    simp only [List.mem_cons, exists_eq_or_imp]
    exact or_assoc

/-- A loop over such loops. -/
theorem nest {β : Type*} {g : σ → β → σ} {inner : β → List α} {each : β → α → Prop}
    {run : β → σ → α → σ} (step : ∀ b, Accumulates inv seen (each b) (run b))
    (body : ∀ s b, g s b = (inner b).foldl (run b) s) :
    Accumulates inv seen (fun b => ∃ a ∈ inner b, each b a) g := by
  constructor
  · intro s b start
    rw [body]
    exact (step b).foldl_keeps _ start
  · intro s b start
    rw [body]
    exact (step b).foldl_grows _ start

/-- One loop after another. -/
theorem seq {β : Type*} {g : σ → β → σ} {first second : σ → β → σ} {adds₁ adds₂ : β → Prop}
    (one : Accumulates inv seen adds₁ first) (two : Accumulates inv seen adds₂ second)
    (body : ∀ s b, g s b = second (first s b) b) :
    Accumulates inv seen (fun b => adds₁ b ∨ adds₂ b) g := by
  constructor
  · intro s b start
    rw [body]
    exact two.keeps _ b (one.keeps s b start)
  · intro s b start
    rw [body, two.grows _ b (one.keeps s b start), one.grows s b start]
    exact or_assoc

end Accumulates

end Ksrc.Library

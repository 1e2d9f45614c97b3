import Mathlib.Data.List.Basic

/-!
# Computations that record what they read

A computation that may fail and reads slots one after another. It carries the slots that it has read
up to its end, so that what is read can be spoken of beside what is computed.
-/
namespace Ksrc.Library

/-- A computation with the slots it reads. -/
structure Traced (σ ε α : Type) where
  reads : List σ
  result : Except ε α

namespace Traced

variable {σ ε α β : Type}

instance : Monad (Traced σ ε) where
  pure a := { reads := [], result := .ok a }
  bind m f :=
    match m.result with
    | .error e => { reads := m.reads, result := .error e }
    | .ok a => { reads := m.reads ++ (f a).reads, result := (f a).result }

/-- A computation that reads no slot. -/
def lift (x : Except ε α) : Traced σ ε α := { reads := [], result := x }

/-- A slot and what comes of reading it. -/
def read (slot : σ) (x : Except ε α) : Traced σ ε α := { reads := [slot], result := x }

/-- Every slot that is read is one of `Good`. -/
def Reads (Good : σ → Prop) (m : Traced σ ε α) : Prop := ∀ slot ∈ m.reads, Good slot

section Results

@[simp] theorem result_pure (a : α) : (pure a : Traced σ ε α).result = .ok a := rfl

@[simp] theorem result_lift (x : Except ε α) : (lift x : Traced σ ε α).result = x := rfl

@[simp] theorem result_read (slot : σ) (x : Except ε α) :
    (read slot x : Traced σ ε α).result = x := rfl

@[simp] theorem result_bind (m : Traced σ ε α) (f : α → Traced σ ε β) :
    (m >>= f).result = m.result >>= fun a => (f a).result := by
  obtain ⟨reads, result⟩ := m
  cases result with
  | error e => rfl
  | ok a => rfl

end Results

section Slots

variable {Good : σ → Prop}

@[simp] theorem reads_pure (a : α) : Reads Good (pure a : Traced σ ε α) := by
  intro slot member
  cases member

@[simp] theorem reads_lift (x : Except ε α) : Reads Good (lift x : Traced σ ε α) := by
  intro slot member
  cases member

@[simp] theorem reads_read (slot : σ) (x : Except ε α) :
    Reads Good (read slot x : Traced σ ε α) ↔ Good slot := by
  unfold Reads read
  simp

/-- What a sequence reads: the second part is reached with the result of the first. -/
theorem reads_bind (m : Traced σ ε α) (f : α → Traced σ ε β) :
    Reads Good (m >>= f) ↔ Reads Good m ∧ ∀ a, m.result = .ok a → Reads Good (f a) := by
  obtain ⟨reads, result⟩ := m
  cases result with
  | error e =>
    refine ⟨fun all => ⟨all, fun a same => ?_⟩, fun all => all.1⟩
    cases same
  | ok a =>
    show (∀ slot ∈ reads ++ (f a).reads, Good slot) ↔ _
    simp only [List.mem_append]
    constructor
    · intro all
      refine ⟨fun slot member => all slot (.inl member), fun b same => ?_⟩
      cases same
      exact fun slot member => all slot (.inr member)
    · intro ⟨before, after⟩ slot member
      rcases member with first | second
      · exact before slot first
      · exact after a rfl slot second

/-- The rule of a sequence. -/
theorem Reads.bind {m : Traced σ ε α} {f : α → Traced σ ε β} (first : Reads Good m)
    (rest : ∀ a, m.result = .ok a → Reads Good (f a)) : Reads Good (m >>= f) :=
  (reads_bind m f).mpr ⟨first, rest⟩

theorem Reads.left {m : Traced σ ε α} {f : α → Traced σ ε β} (all : Reads Good (m >>= f)) :
    Reads Good m := ((reads_bind m f).mp all).1

theorem Reads.right {m : Traced σ ε α} {f : α → Traced σ ε β} (all : Reads Good (m >>= f)) {a : α}
    (ended : m.result = .ok a) : Reads Good (f a) := ((reads_bind m f).mp all).2 a ended

end Slots

end Traced

end Ksrc.Library

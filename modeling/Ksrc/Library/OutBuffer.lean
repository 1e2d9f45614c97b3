import Mathlib.Data.List.Basic

/-!
# Writing into a buffer of fixed size

A buffer is bytes that were allocated and a position. A writer fails where it would write
past the end, and may fail for reasons of its own. `Emits write text` tells that a writer
leaves `text` behind the position in every buffer that has room for it and for one byte
more, the terminator a copied string brings along.
-/
namespace Ksrc.Library

structure OutBuffer (α : Type) where
  bytes : List α
  pos : Nat
  deriving DecidableEq, Repr

namespace OutBuffer

variable {α ε : Type}

abbrev Writer (ε α : Type) := OutBuffer α → Except ε (OutBuffer α)

section Writers

variable (overflow : ε)

/-- `*p++ = c`. -/
def put (c : α) : Writer ε α := fun b =>
  if b.pos < b.bytes.length then .ok { bytes := b.bytes.set b.pos c, pos := b.pos + 1 }
  else .error overflow

/-- `*p = c`. -/
def putLast (c : α) : Writer ε α := fun b =>
  if b.pos < b.bytes.length then .ok { b with bytes := b.bytes.set b.pos c }
  else .error overflow

/-- One writer after the other. -/
def andThen (first second : Writer ε α) : Writer ε α := fun b =>
  match first b with
  | .error e => .error e
  | .ok b => second b

/-- `strcpy(p, s); p += strlen(s)`, for the terminator `nul`. -/
def copyString (nul : α) : List α → Writer ε α
  | [] => putLast overflow nul
  | c :: rest => andThen (put overflow c) (copyString nul rest)

end Writers

def skip : Writer ε α := .ok

/-- A writer that needs a value first. -/
def withValue {β : Type} (value : Except ε β) (write : β → Writer ε α) : Writer ε α := fun b =>
  match value with
  | .error e => .error e
  | .ok v => write v b

/-- The text stands behind what was there, and the buffer has kept its size. -/
structure Wrote (text : List α) (b b' : OutBuffer α) : Prop where
  pos : b'.pos = b.pos + text.length
  size : b'.bytes.length = b.bytes.length
  bytes : b'.bytes.take b'.pos = b.bytes.take b.pos ++ text

def Emits (write : Writer ε α) (text : List α) : Prop :=
  ∀ b, b.pos + text.length < b.bytes.length → ∃ b', write b = .ok b' ∧ Wrote text b b'

theorem take_set_succ {bytes : List α} {pos : Nat} (inside : pos < bytes.length) (c : α) :
    (bytes.set pos c).take (pos + 1) = bytes.take pos ++ [c] := by
  rw [List.take_add_one, List.take_set_of_le (Nat.le_refl pos)]
  simp [inside]

theorem emits_skip : Emits (skip : Writer ε α) [] := by
  intro b room
  exact ⟨b, rfl, rfl, rfl, by simp⟩

theorem emits_put (overflow : ε) (c : α) : Emits (put overflow c) [c] := by
  intro b room
  simp only [List.length_singleton] at room
  have inside : b.pos < b.bytes.length := by omega
  refine ⟨{ bytes := b.bytes.set b.pos c, pos := b.pos + 1 }, if_pos inside, rfl, ?_, ?_⟩
  · exact List.length_set
  · exact take_set_succ inside c

theorem emits_putLast (overflow : ε) (c : α) : Emits (putLast overflow c) [] := by
  intro b room
  have inside : b.pos < b.bytes.length := room
  refine ⟨{ b with bytes := b.bytes.set b.pos c }, if_pos inside, rfl, List.length_set, ?_⟩
  dsimp only
  rw [List.take_set_of_le (Nat.le_refl _), List.append_nil]

theorem Wrote.trans {s t : List α} {b b' b'' : OutBuffer α} (first : Wrote s b b')
    (second : Wrote t b' b'') : Wrote (s ++ t) b b'' := by
  constructor
  · rw [second.pos, first.pos, List.length_append]
    omega
  · exact second.size.trans first.size
  · rw [second.bytes, first.bytes, List.append_assoc]

theorem Emits.andThen {write write' : Writer ε α} {s t : List α} (first : Emits write s)
    (second : Emits write' t) : Emits (andThen write write') (s ++ t) := by
  intro b room
  rw [List.length_append] at room
  obtain ⟨b', wrote, firstDone⟩ := first b (by omega)
  have position := firstDone.pos
  have size := firstDone.size
  obtain ⟨b'', wrote', secondDone⟩ := second b' (by omega)
  refine ⟨b'', ?_, firstDone.trans secondDone⟩
  simp only [OutBuffer.andThen, wrote]
  exact wrote'

theorem andThen_assoc (first second third : Writer ε α) :
    andThen first (andThen second third) = andThen (andThen first second) third := by
  funext b
  unfold andThen
  cases first b with
  | error e => rfl
  | ok b => rfl

theorem Emits.withValue {β : Type} {value : Except ε β} {v : β} {write : β → Writer ε α}
    {text : List α} (known : value = .ok v) (emits : Emits (write v) text) :
    Emits (withValue value write) text := by
  rw [known]
  exact emits

theorem emits_copyString (overflow : ε) (nul : α) (s : List α) :
    Emits (copyString overflow nul s) s := by
  induction s with
  | nil => exact emits_putLast overflow nul
  | cons c rest ih => exact (emits_put overflow c).andThen ih

/-- The terminator at the end of a text that leaves one byte. -/
theorem Wrote.closed {overflow : ε} {nul : α} {text : List α} {b b' : OutBuffer α}
    (wrote : Wrote text b b') (start : b.pos = 0) (fits : b.bytes.length = text.length + 1) :
    ∃ b'', putLast overflow nul b' = .ok b'' ∧ b''.bytes = text ++ [nul] := by
  have position := wrote.pos
  have size := wrote.size
  have bytes := wrote.bytes
  have inside : b'.pos < b'.bytes.length := by omega
  refine ⟨{ b' with bytes := b'.bytes.set b'.pos nul }, if_pos inside, ?_⟩
  have whole := take_set_succ inside nul
  rw [bytes, start, List.take_zero, List.nil_append] at whole
  rw [← whole]
  dsimp only
  rw [List.take_of_length_le]
  rw [List.length_set]
  omega

end OutBuffer

end Ksrc.Library

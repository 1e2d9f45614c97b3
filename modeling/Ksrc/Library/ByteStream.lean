import Mathlib.Data.List.Basic
import Mathlib.Data.BitVec

/-!
# Reading and writing byte streams

A reader takes bytes off the front of a list; a writer appends bytes to a buffer of
limited room. `Takes` says what a reader makes of a given string of bytes whatever
follows it, `Emits` what string a writer appends.
-/
namespace Ksrc.Library

universe u

abbrev Byte := BitVec 8

/-- A sequence of fallible steps succeeds when each does. -/
theorem exceptBind_ok {ε : Type} {α β : Type u} {x : Except ε α} {f : α → Except ε β} {b : β} :
    (x >>= f) = .ok b ↔ ∃ a, x = .ok a ∧ f a = .ok b := by
  cases x with
  | error e => simp [bind, Except.bind]
  | ok a => simp [bind, Except.bind]

/-- A reader of values of type `α` that may fail with an error. -/
def ByteReader (ε : Type) (α : Type u) := List Byte → Except ε (α × List Byte)

namespace ByteReader

variable {ε : Type} {α β σ : Type u}

/-- A value read from no bytes. -/
def ret (a : α) : ByteReader ε α := fun s => .ok (a, s)

def fail (e : ε) : ByteReader ε α := fun _ => .error e

/-- Read, then go on with the value. -/
def andThen (x : ByteReader ε α) (f : α → ByteReader ε β) : ByteReader ε β := fun s =>
  match x s with
  | .error e => .error e
  | .ok (a, rest) => f a rest

instance : Monad (ByteReader ε) where
  pure := ret
  bind := andThen

/-- A result that is at hand already. -/
def lift (x : Except ε α) : ByteReader ε α := fun s =>
  match x with
  | .error e => .error e
  | .ok a => .ok (a, s)

/-- Go on only if `p` holds. -/
def require (e : ε) (p : Prop) [Decidable p] : ByteReader ε Unit := fun s =>
  if p then .ok ((), s) else .error e

/-- The next `n` bytes; `short` if there are fewer. -/
def bytes (short : ε) (n : Nat) : ByteReader ε (List Byte) := fun s =>
  if s.length < n then .error short else .ok (s.take n, s.drop n)

/-- `n` rounds of a loop that carries a state. -/
def times (f : σ → ByteReader ε σ) : Nat → σ → ByteReader ε σ
  | 0, s => ret s
  | n + 1, s => andThen (f s) (times f n)

/-- `n` values in a row. -/
def several (x : ByteReader ε α) : Nat → ByteReader ε (List α)
  | 0 => ret []
  | n + 1 => andThen x fun a => andThen (several x n) fun rest => ret (a :: rest)

/-- What the reader makes of `bs`, whatever follows. -/
def Takes (x : ByteReader ε α) (bs : List Byte) (a : α) : Prop :=
  ∀ rest, x (bs ++ rest) = .ok (a, rest)

section Inversion

variable {s rest : List Byte}

@[simp] theorem pure_ok {a b : α} : (pure a : ByteReader ε α) s = .ok (b, rest) ↔ a = b ∧ s = rest := by
  simp [pure, ret]

@[simp] theorem ret_ok {a b : α} : (ret a : ByteReader ε α) s = .ok (b, rest) ↔ a = b ∧ s = rest := by
  simp [ret]

@[simp] theorem fail_ok {e : ε} {a : α} : ¬ (fail e : ByteReader ε α) s = .ok (a, rest) := by
  simp [fail]

/-- A sequence succeeds when its parts do, one after the other. -/
theorem andThen_ok {x : ByteReader ε α} {f : α → ByteReader ε β} {b : β} :
    andThen x f s = .ok (b, rest) ↔ ∃ a mid, x s = .ok (a, mid) ∧ f a mid = .ok (b, rest) := by
  unfold andThen
  cases x s with
  | error e => simp
  | ok pair =>
    obtain ⟨a, mid⟩ := pair
    simp

theorem bind_ok {x : ByteReader ε α} {f : α → ByteReader ε β} {b : β} :
    (x >>= f) s = .ok (b, rest) ↔ ∃ a mid, x s = .ok (a, mid) ∧ f a mid = .ok (b, rest) :=
  andThen_ok

/-- Reading is associative. -/
theorem bind_assoc {γ : Type u} (x : ByteReader ε α) (f : α → ByteReader ε β) (g : β → ByteReader ε γ) :
    (x >>= f) >>= g = x >>= fun a => f a >>= g := by
  funext s
  simp only [bind, andThen]
  cases x s with
  | error e => rfl
  | ok pair => rfl

theorem lift_ok {x : Except ε α} {a : α} :
    (lift x : ByteReader ε α) s = .ok (a, rest) ↔ x = .ok a ∧ s = rest := by
  unfold lift
  cases x <;> simp

@[simp] theorem require_ok {e : ε} {p : Prop} [Decidable p] {u : Unit} :
    (require e p : ByteReader ε Unit) s = .ok (u, rest) ↔ p ∧ s = rest := by
  unfold require
  split <;> simp_all

theorem bytes_ok {short : ε} {n : Nat} {bs : List Byte} :
    bytes short n s = .ok (bs, rest) ↔ s = bs ++ rest ∧ bs.length = n := by
  unfold bytes
  split
  · rename_i few
    constructor
    · intro absurdity
      cases absurdity
    · rintro ⟨rfl, rfl⟩
      rw [List.length_append] at few
      omega
  · rename_i enough
    simp only [Except.ok.injEq, Prod.mk.injEq]
    constructor
    · rintro ⟨rfl, rfl⟩
      refine ⟨(List.take_append_drop n s).symm, ?_⟩
      rw [List.length_take]
      omega
    · rintro ⟨rfl, rfl⟩
      exact ⟨by simp, by simp⟩

/-- The invariant rule for loops: what each round preserves. -/
theorem times_preserves (inv : σ → Prop) {f : σ → ByteReader ε σ} {n : Nat} {a b : σ}
    (step : ∀ a s b rest, inv a → f a s = .ok (b, rest) → inv b) (start : inv a)
    (done : times f n a s = .ok (b, rest)) : inv b := by
  induction n generalizing a s with
  | zero =>
    simp only [times, ret_ok] at done
    rw [← done.1]
    exact start
  | succ n ih =>
    simp only [times, andThen_ok] at done
    obtain ⟨mid, after, once, more⟩ := done
    exact ih (step a s mid after start once) more

/-- The rule for loops that collect: where each round reads a value, the loop reads as many in a
row and takes the same bytes. -/
theorem times_several (rel : σ → List α → Prop) {f : σ → ByteReader ε σ} {x : ByteReader ε α}
    {n : Nat} {a b : σ} {before : List α}
    (step : ∀ a s b rest l, rel a l → f a s = .ok (b, rest) →
      ∃ v, x s = .ok (v, rest) ∧ rel b (l ++ [v]))
    (start : rel a before) (done : times f n a s = .ok (b, rest)) :
    ∃ values, several x n s = .ok (values, rest) ∧ rel b (before ++ values) := by
  induction n generalizing a s before with
  | zero =>
    simp only [times, ret_ok] at done
    obtain ⟨rfl, rfl⟩ := done
    refine ⟨[], by simp [several, ret], ?_⟩
    rw [List.append_nil]
    exact start
  | succ n ih =>
    simp only [times, andThen_ok] at done
    obtain ⟨mid, after, once, more⟩ := done
    obtain ⟨v, same, related⟩ := step a s mid after before start once
    obtain ⟨values, others, last⟩ := ih related more
    refine ⟨v :: values, ?_, ?_⟩
    · simp only [several, andThen_ok, ret_ok]
      exact ⟨v, after, same, values, rest, others, rfl, rfl⟩
    · rw [List.append_cons]
      exact last

/-- Everything in a row satisfies what each value read does. -/
theorem several_all {x : ByteReader ε α} {good : α → Prop} {n : Nat} {values : List α}
    (each : ∀ s a rest, x s = .ok (a, rest) → good a)
    (done : several x n s = .ok (values, rest)) : ∀ a ∈ values, good a := by
  induction n generalizing s values with
  | zero =>
    simp only [several, ret_ok] at done
    simp [← done.1]
  | succ n ih =>
    simp only [several, andThen_ok, ret_ok] at done
    obtain ⟨a, mid, first, others, after, more, rfl, rfl⟩ := done
    intro b member
    rcases List.mem_cons.mp member with rfl | member
    · exact each s b mid first
    · exact ih more b member

/-- Where each value read is read, in another form, by another reader, so are values in a row. -/
theorem several_related {rel : α → β → Prop} {x : ByteReader ε α} {y : ByteReader ε β} {n : Nat}
    {values : List α}
    (each : ∀ s a rest, x s = .ok (a, rest) → ∃ b, y s = .ok (b, rest) ∧ rel a b)
    (done : several x n s = .ok (values, rest)) :
    ∃ others, several y n s = .ok (others, rest) ∧ List.Forall₂ rel values others := by
  induction n generalizing s values with
  | zero =>
    simp only [several, ret_ok] at done
    obtain ⟨rfl, rfl⟩ := done
    exact ⟨[], by simp [several, ret], List.Forall₂.nil⟩
  | succ n ih =>
    simp only [several, andThen_ok, ret_ok] at done
    obtain ⟨a, mid, first, tail, after, more, rfl, rfl⟩ := done
    obtain ⟨b, same, related⟩ := each s a mid first
    obtain ⟨others, sameTail, all⟩ := ih more
    refine ⟨b :: others, ?_, List.Forall₂.cons related all⟩
    simp only [several, andThen_ok, ret_ok]
    exact ⟨b, mid, same, others, _, sameTail, rfl, rfl⟩

theorem several_length {x : ByteReader ε α} {n : Nat} {values : List α}
    (done : several x n s = .ok (values, rest)) : values.length = n := by
  induction n generalizing s values with
  | zero =>
    simp only [several, ret_ok] at done
    simp [← done.1]
  | succ n ih =>
    simp only [several, andThen_ok, ret_ok] at done
    obtain ⟨a, mid, first, others, after, more, rfl, rfl⟩ := done
    rw [List.length_cons, ih more]

end Inversion

end ByteReader

/-- A buffer being filled: what was written and the room left. -/
structure Buffer where
  data : List Byte
  room : Nat
  deriving DecidableEq, Repr

def ByteWriter (ε : Type) := Buffer → Except ε Buffer

namespace ByteWriter

variable {ε : Type} {α : Type u}

/-- Append bytes; `full` if there is no room for them. -/
def put (full : ε) (bs : List Byte) : ByteWriter ε := fun b =>
  if b.room < bs.length then .error full
  else .ok { data := b.data ++ bs, room := b.room - bs.length }

/-- Write nothing. -/
def skip : ByteWriter ε := fun b => .ok b

def fail (e : ε) : ByteWriter ε := fun _ => .error e

/-- One writer after the other. -/
def andThen (v w : ByteWriter ε) : ByteWriter ε := fun b =>
  match v b with
  | .error e => .error e
  | .ok b => w b

def seq : List (ByteWriter ε) → ByteWriter ε
  | [] => skip
  | w :: rest => andThen w (seq rest)

/-- Write each value of a list. -/
def each (w : α → ByteWriter ε) : List α → ByteWriter ε
  | [] => skip
  | a :: rest => andThen (w a) (each w rest)

/-- The writer appends `bs` where they fit and fails with `full` where they do not. -/
def Emits (full : ε) (w : ByteWriter ε) (bs : List Byte) : Prop :=
  ∀ b : Buffer, w b =
    if b.room < bs.length then .error full
    else .ok { data := b.data ++ bs, room := b.room - bs.length }

section Rules

variable {full : ε} {v w : ByteWriter ε} {bs cs : List Byte}

theorem emits_put : Emits full (put full bs) bs := fun _ => rfl

theorem emits_skip : Emits full skip [] := by
  intro b
  simp [skip]

/-- What two writers append one after the other. -/
theorem Emits.andThen (first : Emits full v bs) (second : Emits full w cs) :
    Emits full (andThen v w) (bs ++ cs) := by
  intro b
  unfold ByteWriter.andThen
  rw [first b, List.length_append]
  by_cases fits : b.room < bs.length
  · rw [if_pos fits, if_pos (by omega)]
  · rw [if_neg fits]
    simp only
    rw [second]
    by_cases both : b.room - bs.length < cs.length
    · rw [if_pos both, if_pos (by omega)]
    · rw [if_neg both, if_neg (by omega), List.append_assoc, Nat.sub_sub]

theorem emits_each {f : α → ByteWriter ε} {g : α → List Byte} {values : List α}
    (each : ∀ a ∈ values, Emits full (f a) (g a)) :
    Emits full (ByteWriter.each f values) (values.flatMap g) := by
  induction values with
  | nil => exact emits_skip
  | cons a rest ih =>
    exact (each a List.mem_cons_self).andThen
      (ih fun b member => each b (List.mem_cons_of_mem _ member))

end Rules

end ByteWriter

end Ksrc.Library

import Mathlib.Data.BitVec
import Mathlib.Data.List.TakeWhile
import Mathlib.Data.Nat.Basic
import Mathlib.Tactic.Tauto

/-!
# Sets of numbers as lists of blocks

A block has a start and some bits after it; the blocks of a list ascend, start at multiples of the block
size, and none is empty. Such a list is determined by its numbers.
-/
namespace Ksrc.Library

variable {ν : Type*}

/-- A word that is not 0 has a bit. -/
theorem exists_getLsbD {n : Nat} {x : BitVec n} (nonzero : x ≠ 0#n) :
    ∃ k < n, x.getLsbD k = true := by
  by_contra none
  refine nonzero (BitVec.eq_of_getLsbD_eq fun k inside => ?_)
  rw [BitVec.getLsbD_zero]
  exact eq_false_of_ne_true fun set => none ⟨k, inside, set⟩

/-- Blocks of one size, which their start and their bits determine. -/
structure BlockKind (ν : Type*) where
  size : Nat
  start : ν → Nat
  bit : ν → Nat → Bool
  positive : 0 < size
  ext : ∀ n n', start n = start n' → (∀ ofs < size, bit n ofs = bit n' ofs) → n = n'

namespace BlockKind

variable (k : BlockKind ν)

/-- The number is in the block. -/
def Has (n : ν) (b : Nat) : Prop :=
  k.start n ≤ b ∧ b < k.start n + k.size ∧ k.bit n (b - k.start n) = true

def HasAny (nodes : List ν) (b : Nat) : Prop := ∃ n ∈ nodes, k.Has n b

/-- Blocks from a number on, each past the one before, at multiples of the size, none empty. -/
def From : Nat → List ν → Prop
  | _, [] => True
  | low, n :: rest =>
    low ≤ k.start n ∧ k.start n % k.size = 0 ∧ (∃ b, k.Has n b) ∧ From (k.start n + k.size) rest

/-- The first number past the blocks. -/
def stop : Nat → List ν → Nat
  | low, [] => low
  | _, n :: rest => stop (k.start n + k.size) rest

/-- The numbers of a block, in order. -/
def members (n : ν) : List Nat := ((List.range k.size).filter (k.bit n)).map (k.start n + ·)

variable {k} {n n' : ν} {nodes nodes' : List ν} {low low' b : Nat}

theorem hasAny_nil : ¬ k.HasAny [] b := by
  rintro ⟨n, member, -⟩
  cases member

theorem hasAny_cons : k.HasAny (n :: nodes) b ↔ k.Has n b ∨ k.HasAny nodes b := by
  simp only [HasAny, List.mem_cons, exists_eq_or_imp]

theorem From.mono (ok : k.From low nodes) (less : low' ≤ low) : k.From low' nodes := by
  cases nodes with
  | nil => trivial
  | cons n rest =>
    obtain ⟨first, others⟩ := ok
    exact ⟨Nat.le_trans less first, others⟩

theorem From.lower (ok : k.From low nodes) (inside : k.HasAny nodes b) : low ≤ b := by
  induction nodes generalizing low with
  | nil => exact absurd inside hasAny_nil
  | cons n rest ih =>
    obtain ⟨first, -, -, later⟩ := ok
    rcases hasAny_cons.mp inside with here | there
    · have := here.1
      omega
    · have := ih later there
      omega

theorem From.le_stop (ok : k.From low nodes) : low ≤ k.stop low nodes := by
  induction nodes generalizing low with
  | nil => exact Nat.le_refl low
  | cons n rest ih =>
    obtain ⟨first, -, -, later⟩ := ok
    have := ih later
    unfold stop
    omega

/-- Where blocks end does not depend on where they may begin. -/
theorem stop_of_ne_nil (some : nodes ≠ []) : k.stop low nodes = k.stop low' nodes := by
  cases nodes with
  | nil => exact absurd rfl some
  | cons n rest => rfl

theorem From.upper (ok : k.From low nodes) (inside : k.HasAny nodes b) : b < k.stop low nodes := by
  induction nodes generalizing low with
  | nil => exact absurd inside hasAny_nil
  | cons n rest ih =>
    obtain ⟨-, -, -, later⟩ := ok
    unfold stop
    rcases hasAny_cons.mp inside with here | there
    · have := here.2.1
      have := later.le_stop
      omega
    · exact ih later there

theorem from_append : k.From low (nodes ++ [n]) ↔
    k.From low nodes ∧ k.stop low nodes ≤ k.start n ∧ k.start n % k.size = 0 ∧ ∃ b, k.Has n b := by
  induction nodes generalizing low with
  | nil => simp [From, stop]
  | cons m rest ih =>
    rw [List.cons_append]
    unfold From
    rw [ih]
    simp only [stop]
    tauto

theorem stop_append : k.stop low (nodes ++ [n]) = k.start n + k.size := by
  induction nodes generalizing low with
  | nil => rfl
  | cons m rest ih => exact ih

/-- Where the block of a number starts. -/
theorem Has.start_eq (inside : k.Has n b) (aligned : k.start n % k.size = 0) :
    k.start n = b - b % k.size := by
  obtain ⟨lower, upper, -⟩ := inside
  have part : b % k.size = b - k.start n := by
    obtain ⟨c, whole⟩ := Nat.dvd_of_mod_eq_zero aligned
    have split : b = b - k.start n + k.size * c := by omega
    rw [split, Nat.add_mul_mod_self_left, Nat.mod_eq_of_lt (by omega)]
    omega
  omega

/-- Blocks that are not none end with the block of one of their numbers. -/
theorem From.last (ok : k.From low nodes) (some : nodes ≠ []) :
    ∃ b, k.HasAny nodes b ∧ k.stop low nodes = b - b % k.size + k.size := by
  induction nodes generalizing low with
  | nil => exact absurd rfl some
  | cons n rest ih =>
    obtain ⟨-, aligned, ⟨b, used⟩, later⟩ := ok
    cases rest with
    | nil =>
      refine ⟨b, hasAny_cons.mpr (.inl used), ?_⟩
      rw [← used.start_eq aligned]
      rfl
    | cons m rest =>
      obtain ⟨b, inside, ends⟩ := ih later (List.cons_ne_nil m rest)
      exact ⟨b, hasAny_cons.mpr (.inr inside), ends⟩

/-- There are no more blocks than there is room for. -/
theorem From.length_le (ok : k.From low nodes) : low + k.size * nodes.length ≤ k.stop low nodes := by
  induction nodes generalizing low with
  | nil => simp [stop]
  | cons n rest ih =>
    obtain ⟨first, -, -, later⟩ := ok
    have := ih later
    rw [List.length_cons, Nat.mul_succ]
    unfold stop
    omega

/-- Blocks with the same start and numbers are the same. -/
theorem has_ext (start : k.start n = k.start n') (same : ∀ b, k.Has n b ↔ k.Has n' b) : n = n' := by
  refine k.ext n n' start fun ofs inside => ?_
  have here := same (k.start n + ofs)
  unfold Has at here
  rw [← start, Nat.add_sub_cancel_left] at here
  simp only [Nat.le_add_right, Nat.add_lt_add_iff_left, inside, true_and] at here
  exact Bool.eq_iff_iff.mpr here

/-- A list of blocks is determined by its numbers. -/
theorem From.ext (ok : k.From low nodes) (ok' : k.From low' nodes')
    (same : ∀ b, k.HasAny nodes b ↔ k.HasAny nodes' b) : nodes = nodes' := by
  induction nodes generalizing low low' nodes' with
  | nil =>
    cases nodes' with
    | nil => rfl
    | cons n' rest' =>
      obtain ⟨-, -, ⟨b, used⟩, -⟩ := ok'
      exact absurd ((same b).mpr (hasAny_cons.mpr (.inl used))) hasAny_nil
  | cons n rest ih =>
    cases nodes' with
    | nil =>
      obtain ⟨-, -, ⟨b, used⟩, -⟩ := ok
      exact absurd ((same b).mp (hasAny_cons.mpr (.inl used))) hasAny_nil
    | cons n' rest' =>
      obtain ⟨-, aligned, ⟨b, used⟩, later⟩ := ok
      obtain ⟨-, aligned', ⟨b', used'⟩, later'⟩ := ok'
      -- the first block of either list is not after that of the other
      have startLe : k.start n' ≤ k.start n := by
        rcases hasAny_cons.mp ((same b).mp (hasAny_cons.mpr (.inl used))) with here | there
        · rw [here.start_eq aligned', used.start_eq aligned]
        · have past := later'.lower there
          by_contra less
          have := used.2.1
          have gap := Nat.le_of_lt_add_of_dvd (show k.start n < k.start n' + k.size by omega)
            (Nat.dvd_of_mod_eq_zero aligned) (Nat.dvd_of_mod_eq_zero aligned')
          omega
      have startGe : k.start n ≤ k.start n' := by
        rcases hasAny_cons.mp ((same b').mpr (hasAny_cons.mpr (.inl used'))) with here | there
        · rw [here.start_eq aligned, used'.start_eq aligned']
        · have past := later.lower there
          by_contra less
          have := used'.2.1
          have gap := Nat.le_of_lt_add_of_dvd (show k.start n' < k.start n + k.size by omega)
            (Nat.dvd_of_mod_eq_zero aligned') (Nat.dvd_of_mod_eq_zero aligned)
          omega
      have start : k.start n = k.start n' := Nat.le_antisymm startGe startLe
      have first : ∀ b, b < k.start n + k.size → (k.HasAny (n :: rest) b ↔ k.Has n b) := by
        intro b less
        rw [hasAny_cons]
        refine or_iff_left fun there => ?_
        have := later.lower there
        omega
      have first' : ∀ b, b < k.start n' + k.size → (k.HasAny (n' :: rest') b ↔ k.Has n' b) := by
        intro b less
        rw [hasAny_cons]
        refine or_iff_left fun there => ?_
        have := later'.lower there
        omega
      have equal : n = n' := by
        refine has_ext start fun b => ?_
        constructor
        · intro here
          exact (first' b (start ▸ here.2.1)).mp ((same b).mp (hasAny_cons.mpr (.inl here)))
        · intro here
          exact (first b (start ▸ here.2.1)).mp ((same b).mpr (hasAny_cons.mpr (.inl here)))
      subst equal
      rw [ih later later' fun b => ?_]
      have whole := same b
      rw [hasAny_cons, hasAny_cons] at whole
      constructor
      · intro inside
        refine (whole.mp (.inr inside)).resolve_left fun here => ?_
        have := here.2.1
        have := later.lower inside
        omega
      · intro inside
        refine (whole.mpr (.inr inside)).resolve_left fun here => ?_
        have := here.2.1
        have := later'.lower inside
        omega

theorem mem_members : b ∈ k.members n ↔ k.Has n b := by
  unfold members Has
  simp only [List.mem_map, List.mem_filter, List.mem_range]
  constructor
  · rintro ⟨ofs, ⟨inside, set⟩, rfl⟩
    exact ⟨by omega, by omega, by rwa [Nat.add_sub_cancel_left]⟩
  · rintro ⟨lower, upper, set⟩
    exact ⟨b - k.start n, ⟨by omega, set⟩, by omega⟩

theorem mem_flatMap_members : b ∈ nodes.flatMap k.members ↔ k.HasAny nodes b := by
  simp only [List.mem_flatMap, mem_members, HasAny]

theorem members_sorted : (k.members n).Pairwise (· < ·) := by
  unfold members
  rw [List.pairwise_map]
  exact (List.pairwise_lt_range.filter _).imp fun less => Nat.add_lt_add_left less _

/-- The numbers of the blocks, in order. -/
theorem From.sorted (ok : k.From low nodes) : (nodes.flatMap k.members).Pairwise (· < ·) := by
  induction nodes generalizing low with
  | nil => exact List.Pairwise.nil
  | cons n rest ih =>
    obtain ⟨-, -, -, later⟩ := ok
    rw [List.flatMap_cons, List.pairwise_append]
    refine ⟨members_sorted, ih later, fun a inN b inRest => ?_⟩
    have upper := (mem_members.mp inN).2.1
    have lower := later.lower (mem_flatMap_members.mp inRest)
    omega

end BlockKind

end Ksrc.Library

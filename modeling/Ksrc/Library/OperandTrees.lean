import Mathlib.Data.List.Basic
import Mathlib.Order.Lattice

/-!
# Operand trees

A row of tokens in which an operator comes after its operands, and the tree that it stands for. A
stack machine that has room for so many values runs the row; one run is the image of the other
where the values are, so that one over trees says everything about the row.
-/
namespace Ksrc.Library

/-- What a token takes from the stack. -/
inductive OperandKind where
  | operand
  | unary
  | binary
  deriving DecidableEq, Repr

inductive OperandTree (α : Type) where
  | operand (a : α)
  | unary (a : α) (t : OperandTree α)
  | binary (a : α) (l r : OperandTree α)
  deriving DecidableEq, Repr

namespace OperandTree

variable {α β γ : Type}

/-- The row of a tree, every operator after its operands. -/
def tokens : OperandTree α → List α
  | operand a => [a]
  | unary a t => t.tokens ++ [a]
  | binary a l r => l.tokens ++ r.tokens ++ [a]

/-- Every token is of the kind of its place. -/
def Fits (kind : α → Option OperandKind) : OperandTree α → Prop
  | operand a => kind a = some .operand
  | unary a t => kind a = some .unary ∧ t.Fits kind
  | binary a l r => kind a = some .binary ∧ l.Fits kind ∧ r.Fits kind

instance decidableFits (kind : α → Option OperandKind) : (t : OperandTree α) → Decidable (t.Fits kind)
  | operand a => inferInstanceAs (Decidable (kind a = some .operand))
  | unary a t =>
    have := decidableFits kind t
    inferInstanceAs (Decidable (kind a = some .unary ∧ t.Fits kind))
  | binary a l r =>
    have := decidableFits kind l
    have := decidableFits kind r
    inferInstanceAs (Decidable (kind a = some .binary ∧ l.Fits kind ∧ r.Fits kind))

/-- The places that the evaluation of a tree needs. -/
def need : OperandTree α → Nat
  | operand _ => 1
  | unary _ t => t.need
  | binary _ l r => max l.need (r.need + 1)

/-- What the tokens do with values. -/
structure Meaning (α β : Type) where
  value : α → β
  unary : α → β → β
  binary : α → β → β → β

/-- The value of a tree. -/
def eval (m : Meaning α β) : OperandTree α → β
  | operand a => m.value a
  | unary a t => m.unary a (t.eval m)
  | binary a l r => m.binary a (l.eval m) (r.eval m)

/-- The meaning of a token as a tree. -/
def build : Meaning α (OperandTree α) where
  value := operand
  unary := unary
  binary := binary

@[simp]
theorem eval_build (t : OperandTree α) : t.eval build = t := by
  induction t with
  | operand a => rfl
  | unary a t ih => exact congrArg (unary a) ih
  | binary a l r ihl ihr => exact congrArg₂ (binary a) ihl ihr

/-- What is left of the values when only the height counts. -/
def heights : Meaning α Unit where
  value _ := ()
  unary _ _ := ()
  binary _ _ _ := ()

theorem need_pos (t : OperandTree α) : 0 < t.need := by
  induction t with
  | operand a => simp [need]
  | unary a t ih => exact ih
  | binary a l r ihl ihr =>
    simp only [need]
    omega

section Machine

variable (max : Nat) (kind : α → Option OperandKind) (m : Meaning α β)

/-- One token on a stack with its top in front. -/
def step (a : α) (s : List β) : Option (List β) :=
  match kind a, s with
  | some .operand, s => if s.length < max then some (m.value a :: s) else none
  | some .unary, v :: s => some (m.unary a v :: s)
  | some .binary, w :: v :: s => some (m.binary a v w :: s)
  | _, _ => none

def run : List α → List β → Option (List β)
  | [], s => some s
  | a :: rest, s => (step max kind m a s).bind (run rest)

end Machine

variable {max : Nat} {kind : α → Option OperandKind} {m : Meaning α β} {a : α} {s s' : List β}
  {row rest : List α} {t : OperandTree α}

@[simp]
theorem run_nil : run max kind m [] s = some s := rfl

theorem run_cons : run max kind m (a :: rest) s = (step max kind m a s).bind (run max kind m rest) :=
  rfl

theorem run_append :
    run max kind m (row ++ rest) s = (run max kind m row s).bind (run max kind m rest) := by
  induction row generalizing s with
  | nil => rfl
  | cons a row ih =>
    rw [List.cons_append, run_cons, run_cons]
    cases step max kind m a s with
    | none => rfl
    | some s' => exact ih

theorem step_operand (is : kind a = some .operand) :
    step max kind m a s = if s.length < max then some (m.value a :: s) else none := by
  unfold step
  rw [is]

theorem step_unary {v : β} (is : kind a = some .unary) :
    step max kind m a (v :: s) = some (m.unary a v :: s) := by
  unfold step
  rw [is]

theorem step_binary {v w : β} (is : kind a = some .binary) :
    step max kind m a (w :: v :: s) = some (m.binary a v w :: s) := by
  unfold step
  rw [is]

/-- What a step can do. -/
theorem step_cases (done : step max kind m a s = some s') :
    (kind a = some .operand ∧ s.length < max ∧ s' = m.value a :: s) ∨
      (∃ v below, kind a = some .unary ∧ s = v :: below ∧ s' = m.unary a v :: below) ∨
      ∃ v w below, kind a = some .binary ∧ s = w :: v :: below ∧ s' = m.binary a v w :: below := by
  unfold step at done
  split at done
  · rename_i is
    split at done
    · rename_i room
      cases done
      exact .inl ⟨is, room, rfl⟩
    · cases done
  · rename_i v below is
    cases done
    exact .inr (.inl ⟨v, below, is, rfl, rfl⟩)
  · rename_i w v below is
    cases done
    exact .inr (.inr ⟨v, w, below, is, rfl, rfl⟩)
  · cases done

/-! ### Runs and trees -/

/-- The row of a tree leaves its value, where there is room. -/
theorem run_tokens (fits : t.Fits kind) (room : s.length + t.need ≤ max) :
    run max kind m (t.tokens ++ rest) s = run max kind m rest (t.eval m :: s) := by
  induction t generalizing s rest with
  | operand a =>
    have place : s.length < max := room
    rw [tokens, List.singleton_append, run_cons, step_operand fits, if_pos place]
    rfl
  | unary a t ih =>
    rw [tokens, List.append_assoc, ih fits.2 room, List.singleton_append, run_cons,
      step_unary fits.1]
    rfl
  | binary a l r ihl ihr =>
    simp only [need] at room
    have one : s.length + l.need ≤ max := by omega
    have other : (l.eval m :: s).length + r.need ≤ max := by
      rw [List.length_cons]
      omega
    rw [tokens, List.append_assoc, List.append_assoc, ihl fits.2.1 one, ihr fits.2.2 other,
      List.singleton_append, run_cons, step_binary fits.1]
    rfl

theorem run_whole (fits : t.Fits kind) (room : s.length + t.need ≤ max) :
    run max kind m t.tokens s = some (t.eval m :: s) := by
  have done : run max kind m (t.tokens ++ []) s = run max kind m [] (t.eval m :: s) :=
    run_tokens fits room
  rwa [List.append_nil] at done

/-- It runs on no stack with less room. -/
theorem run_tokens_full (fits : t.Fits kind) (full : max < s.length + t.need)
    (space : s.length ≤ max) : run max kind m (t.tokens ++ rest) s = none := by
  induction t generalizing s rest with
  | operand a =>
    have place : ¬ s.length < max := by
      simp only [need] at full
      omega
    rw [tokens, List.singleton_append, run_cons, step_operand fits, if_neg place]
    rfl
  | unary a t ih =>
    rw [tokens, List.append_assoc]
    exact ih fits.2 full space
  | binary a l r ihl ihr =>
    simp only [need] at full
    rw [tokens, List.append_assoc, List.append_assoc]
    by_cases one : s.length + l.need ≤ max
    · rw [run_tokens fits.2.1 one]
      have positive := l.need_pos
      refine ihr fits.2.2 ?_ ?_
      · rw [List.length_cons]
        omega
      · rw [List.length_cons]
        omega
    · exact ihl fits.2.1 (by omega) space

/-- A run on the values of trees is the image of the run on the trees. -/
theorem run_eval (trees : List (OperandTree α)) :
    run max kind m row (trees.map (eval m)) =
      (run max kind build row trees).map (List.map (eval m)) := by
  induction row generalizing trees with
  | nil => rfl
  | cons a row ih =>
    have same : step max kind m a (trees.map (eval m)) =
        (step max kind build a trees).map (List.map (eval m)) := by
      cases is : kind a with
      | none =>
        unfold step
        rw [is]
        rfl
      | some k =>
        cases k with
        | operand =>
          rw [step_operand is, step_operand is, List.length_map]
          split
          · rfl
          · rfl
        | unary =>
          cases trees with
          | nil =>
            unfold step
            rw [is]
            rfl
          | cons t trees =>
            rw [List.map_cons, step_unary is, step_unary is]
            rfl
        | binary =>
          match trees with
          | [] =>
            unfold step
            rw [is]
            rfl
          | [_] =>
            unfold step
            rw [is]
            rfl
          | r :: l :: trees =>
            rw [List.map_cons, List.map_cons, step_binary is, step_binary is]
            rfl
    rw [run_cons, run_cons, same]
    cases step max kind build a trees with
    | none => rfl
    | some next => exact ih next

/-- The stack is never higher than its room. -/
theorem run_length (done : run max kind m row s = some s') (space : s.length ≤ max) :
    s'.length ≤ max := by
  induction row generalizing s with
  | nil =>
    cases done
    exact space
  | cons a row ih =>
    obtain ⟨next, stepped, done⟩ := Option.bind_eq_some_iff.mp done
    refine ih done ?_
    obtain ⟨-, room, rfl⟩ | ⟨v, below, -, rfl, rfl⟩ | ⟨v, w, below, -, rfl, rfl⟩ :=
      step_cases stepped
    · exact room
    · exact space
    · simp only [List.length_cons] at space ⊢
      omega

/-- Whether a token can run depends on the height only. -/
theorem step_height (m' : Meaning α γ) {w : List γ} (stepped : step max kind m a s = some s')
    (same : w.length = s.length) :
    ∃ w', step max kind m' a w = some w' ∧ w'.length = s'.length := by
  obtain ⟨is, room, rfl⟩ | ⟨v, below, is, rfl, rfl⟩ | ⟨v, v', below, is, rfl, rfl⟩ :=
    step_cases stepped
  · refine ⟨m'.value a :: w, ?_, by simp [same]⟩
    rw [step_operand is]
    exact if_pos (by omega)
  · match w with
    | [] => cases same
    | u :: rest => exact ⟨_, step_unary is, same⟩
  · match w with
    | [] => cases same
    | [_] => simp at same
    | u' :: u :: rest =>
      refine ⟨_, step_binary is, ?_⟩
      simp only [List.length_cons] at same ⊢
      omega

/-- Nor does where a row runs, and how high the stack is after it. -/
theorem run_height (m' : Meaning α γ) {w : List γ} (ran : run max kind m row s = some s')
    (same : w.length = s.length) :
    ∃ w', run max kind m' row w = some w' ∧ w'.length = s'.length := by
  induction row generalizing s w with
  | nil =>
    cases ran
    exact ⟨w, rfl, same⟩
  | cons a row ih =>
    obtain ⟨next, stepped, rest⟩ := Option.bind_eq_some_iff.mp ran
    obtain ⟨next', stepped', height⟩ := step_height m' stepped same
    obtain ⟨w', done, final⟩ := ih rest height
    refine ⟨w', ?_, final⟩
    rw [run_cons, stepped']
    exact done

/-- The trees on the stack hold the tokens in their order. -/
theorem run_rows {trees after : List (OperandTree α)}
    (done : run max kind build row trees = some after) (fit : ∀ t ∈ trees, t.Fits kind) :
    after.reverse.flatMap tokens = trees.reverse.flatMap tokens ++ row ∧
      ∀ t ∈ after, t.Fits kind := by
  induction row generalizing trees with
  | nil =>
    cases done
    exact ⟨by simp, fit⟩
  | cons a row ih =>
    obtain ⟨next, stepped, done⟩ := Option.bind_eq_some_iff.mp done
    obtain ⟨is, -, rfl⟩ | ⟨v, below, is, rfl, rfl⟩ | ⟨v, w, below, is, rfl, rfl⟩ :=
      step_cases stepped
    · have fitting : ∀ t ∈ build.value a :: trees, t.Fits kind := by
        intro t member
        rcases List.mem_cons.mp member with rfl | member
        · exact is
        · exact fit t member
      obtain ⟨rows, fits⟩ := ih done fitting
      refine ⟨?_, fits⟩
      simpa [build, tokens] using rows
    · have fitting : ∀ t ∈ build.unary a v :: below, t.Fits kind := by
        intro t member
        rcases List.mem_cons.mp member with rfl | member
        · exact ⟨is, fit v (by simp)⟩
        · exact fit t (by simp [member])
      obtain ⟨rows, fits⟩ := ih done fitting
      refine ⟨?_, fits⟩
      simpa [build, tokens] using rows
    · have fitting : ∀ t ∈ build.binary a v w :: below, t.Fits kind := by
        intro t member
        rcases List.mem_cons.mp member with rfl | member
        · exact ⟨is, fit v (by simp), fit w (by simp)⟩
        · exact fit t (by simp [member])
      obtain ⟨rows, fits⟩ := ih done fitting
      refine ⟨?_, fits⟩
      simpa [build, tokens] using rows

/-- A row is that of at most one tree. -/
theorem tokens_unique {t' : OperandTree α} (fits : t.Fits kind) (fits' : t'.Fits kind)
    (same : t.tokens = t'.tokens) : t = t' := by
  have one : run (t.need + t'.need) kind build t.tokens [] = some [t.eval build] :=
    run_whole fits (by simp)
  have other : run (t.need + t'.need) kind build t'.tokens [] = some [t'.eval build] :=
    run_whole fits' (by simp)
  rw [same, other] at one
  simpa using one.symm

/-- A row leaves a single value where, and only where, it is that of a tree for which there is
room. -/
theorem run_single_iff {v : β} :
    run max kind m row [] = some [v] ↔
      ∃ t : OperandTree α, t.Fits kind ∧ t.tokens = row ∧ t.need ≤ max ∧ t.eval m = v := by
  constructor
  · intro done
    rw [← List.map_nil (f := eval m), run_eval] at done
    obtain ⟨after, built, image⟩ := Option.map_eq_some_iff.mp done
    obtain ⟨rows, fits⟩ := run_rows built (by simp)
    match after with
    | [] => cases image
    | [t] =>
      have whole : t.tokens = row := by simpa using rows
      have fit := fits t (by simp)
      refine ⟨t, fit, whole, ?_, by simpa using image⟩
      by_contra more
      have stops : run max kind build (t.tokens ++ []) [] = none :=
        run_tokens_full fit (by simpa using more) (by simp)
      rw [List.append_nil, whole, built] at stops
      cases stops
    | _ :: _ :: _ => cases image
  · rintro ⟨t, fits, rfl, room, rfl⟩
    exact run_whole fits (by simpa using room)

end OperandTree

end Ksrc.Library

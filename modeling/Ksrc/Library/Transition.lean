import Mathlib.Logic.Relation

/-!
# Transition systems given by a partial step function

A machine has start states and a step function; `none` means that the action is
not enabled. Runs may be restricted by a guard on the state before each step and
its action, so that a property can be proved of the runs whose steps all meet a
condition.
-/
namespace Ksrc.Library

variable {σ α : Type*}

structure Machine (σ α : Type*) where
  start : σ → Prop
  step : σ → α → Option σ

namespace Machine

/-- The guard that every step meets. -/
def free : σ → α → Prop := fun _ _ => True

/-- One enabled step that meets the guard. -/
def Step (m : Machine σ α) (guard : σ → α → Prop) (s s' : σ) : Prop :=
  ∃ a, guard s a ∧ m.step s a = some s'

/-- Runs all of whose steps meet the guard. -/
def Reaches (m : Machine σ α) (guard : σ → α → Prop) : σ → σ → Prop :=
  Relation.ReflTransGen (m.Step guard)

/-- The states some guarded run from a start state ends in. -/
def Reachable (m : Machine σ α) (guard : σ → α → Prop) (s : σ) : Prop :=
  ∃ s₀, m.start s₀ ∧ m.Reaches guard s₀ s

/-- The state after a list of actions, if each is enabled in turn. -/
def exec (m : Machine σ α) : σ → List α → Option σ
  | s, [] => some s
  | s, a :: rest => (m.step s a).bind (fun s' => m.exec s' rest)

variable {m : Machine σ α} {guard : σ → α → Prop}

/-- What each guarded step preserves, a guarded run preserves. -/
theorem Reaches.preserves {inv : σ → Prop} {s s' : σ} (run : m.Reaches guard s s')
    (step : ∀ s a s', inv s → guard s a → m.step s a = some s' → inv s')
    (before : inv s) : inv s' := by
  induction run with
  | refl => exact before
  | tail _ last ih =>
    obtain ⟨a, meets, stepped⟩ := last
    exact step _ a _ ih meets stepped

/-- The invariant rule. -/
theorem Reachable.invariant {inv : σ → Prop} {s : σ} (reached : m.Reachable guard s)
    (start : ∀ s₀, m.start s₀ → inv s₀)
    (step : ∀ s a s', inv s → guard s a → m.step s a = some s' → inv s') : inv s := by
  obtain ⟨s₀, started, run⟩ := reached
  exact run.preserves step (start s₀ started)

theorem Reaches.trans {s s' s'' : σ} (first : m.Reaches guard s s')
    (second : m.Reaches guard s' s'') : m.Reaches guard s s'' :=
  Relation.ReflTransGen.trans first second

theorem exec_append (s : σ) (as bs : List α) :
    m.exec s (as ++ bs) = (m.exec s as).bind (fun s' => m.exec s' bs) := by
  induction as generalizing s with
  | nil => rfl
  | cons a rest ih =>
    cases h : m.step s a with
    | none => simp [exec, h]
    | some s' => simp [exec, h, ih]

/-- Executing actions that meet the guard where an invariant holds is a guarded run. -/
theorem exec_reaches_where {inv : σ → Prop} {s s' : σ} {as : List α} (ran : m.exec s as = some s')
    (before : inv s) (meets : ∀ a ∈ as, ∀ s, inv s → guard s a)
    (keeps : ∀ a ∈ as, ∀ s s', inv s → m.step s a = some s' → inv s') : m.Reaches guard s s' := by
  induction as generalizing s with
  | nil =>
    cases ran
    exact Relation.ReflTransGen.refl
  | cons a rest ih =>
    simp only [exec, Option.bind_eq_some_iff] at ran
    obtain ⟨mid, stepped, ran⟩ := ran
    have first : m.Step guard s mid := ⟨a, meets a List.mem_cons_self s before, stepped⟩
    exact Relation.ReflTransGen.head first
      (ih ran (keeps a List.mem_cons_self s mid before stepped)
        (fun b member => meets b (List.mem_cons_of_mem a member))
        fun b member => keeps b (List.mem_cons_of_mem a member))

/-- Executing actions that meet the guard in every state is a guarded run. -/
theorem exec_reaches_guard {s s' : σ} {as : List α} (ran : m.exec s as = some s')
    (meets : ∀ a ∈ as, ∀ s, guard s a) : m.Reaches guard s s' :=
  
  exec_reaches_where ran trivial (fun a member s _ => meets a member s) fun _ _ _ _ _ _ => trivial

/-- An executed list of actions is an unguarded run. -/
theorem exec_reaches {s s' : σ} {as : List α} (ran : m.exec s as = some s') :
    m.Reaches free s s' :=
  exec_reaches_guard ran fun _ _ _ => trivial

/-- One more guarded step. -/
theorem Reaches.snoc {s s' s'' : σ} (run : m.Reaches guard s s') (a : α) (meets : guard s' a)
    (stepped : m.step s' a = some s'') : m.Reaches guard s s'' :=
  Relation.ReflTransGen.tail run ⟨a, meets, stepped⟩

/-- The state after a list of actions, if each passes a test and is enabled in turn. -/
def execTested (m : Machine σ α) (test : σ → α → Bool) : σ → List α → Option σ
  | s, [] => some s
  | s, a :: rest =>
    if test s a then (m.step s a).bind (fun s' => m.execTested test s' rest) else none

/-- Actions that pass a test for the guard make a guarded run. -/
theorem execTested_reaches {test : σ → α → Bool} (sound : ∀ s a, test s a = true → guard s a)
    {s s' : σ} {as : List α} (ran : m.execTested test s as = some s') : m.Reaches guard s s' := by
  induction as generalizing s with
  | nil =>
    cases ran
    exact Relation.ReflTransGen.refl
  | cons a rest ih =>
    rw [execTested] at ran
    split at ran
    · rename_i passes
      obtain ⟨mid, stepped, ran⟩ := Option.bind_eq_some_iff.mp ran
      have first : m.Step guard s mid := ⟨a, sound s a passes, stepped⟩
      exact Relation.ReflTransGen.head first (ih ran)
    · cases ran

end Machine

end Ksrc.Library

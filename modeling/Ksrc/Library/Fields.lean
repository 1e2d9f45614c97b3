import Mathlib.Logic.Basic

/-!
# Fields cut out of a string

A string ends at its first terminator or with its buffer. A cut looks for a separator in it;
the field before the separator and what follows are two strings, as if the separator had been
overwritten by a terminator.
-/
namespace Ksrc.Library

variable {α : Type*} [DecidableEq α] {nul sep : α} {s field rest : List α}

/-- The field up to the separator and the string behind it, where there is one. -/
def cut (nul sep : α) : List α → Option (List α × List α)
  | [] => none
  | c :: s =>
    if c = nul then none
    else if c = sep then some ([], s)
    else
      match cut nul sep s with
      | none => none
      | some (field, rest) => some (c :: field, rest)

/-- A cut finds the first separator. -/
theorem cut_append (apart : sep ≠ nul) (unterminated : nul ∉ field) (unseparated : sep ∉ field)
    (rest : List α) : cut nul sep (field ++ sep :: rest) = some (field, rest) := by
  induction field with
  | nil =>
    rw [List.nil_append, cut, if_neg apart, if_pos rfl]
  | cons c field ih =>
    have later := ih (fun member => unterminated (List.mem_cons_of_mem c member))
      fun member => unseparated (List.mem_cons_of_mem c member)
    have notNul : c ≠ nul := fun same => unterminated (same ▸ List.mem_cons_self)
    have notSep : c ≠ sep := fun same => unseparated (same ▸ List.mem_cons_self)
    rw [List.cons_append, cut, if_neg notNul, if_neg notSep, later]

/-- A string without the separator is not cut. -/
theorem cut_none (unseparated : sep ∉ s) : cut nul sep s = none := by
  induction s with
  | nil => rfl
  | cons c s ih =>
    have later := ih fun member => unseparated (List.mem_cons_of_mem c member)
    have notSep : c ≠ sep := fun same => unseparated (same ▸ List.mem_cons_self)
    rw [cut, if_neg notSep, later, ite_self]

/-- The terminator ends the scan for a separator. -/
theorem cut_terminated (unseparated : sep ∉ field) (rest : List α) :
    cut nul sep (field ++ nul :: rest) = none := by
  induction field with
  | nil => rw [List.nil_append, cut, if_pos rfl]
  | cons c field ih =>
    have later := ih fun member => unseparated (List.mem_cons_of_mem c member)
    have notSep : c ≠ sep := fun same => unseparated (same ▸ List.mem_cons_self)
    rw [List.cons_append, cut, if_neg notSep, later, ite_self]

theorem cut_some (found : cut nul sep s = some (field, rest)) :
    s = field ++ sep :: rest ∧ nul ∉ field ∧ sep ∉ field := by
  induction s generalizing field with
  | nil => cases found
  | cons c s ih =>
    rw [cut] at found
    split at found
    · cases found
    · rename_i notNul
      split at found
      · rename_i isSep
        cases found
        exact ⟨by rw [isSep, List.nil_append], List.not_mem_nil, List.not_mem_nil⟩
      · rename_i notSep
        cases later : cut nul sep s with
        | none =>
          rw [later] at found
          cases found
        | some parts =>
          rw [later] at found
          cases found
          obtain ⟨whole, unterminated, unseparated⟩ := ih later
          refine ⟨by rw [List.cons_append, ← whole], ?_, ?_⟩
          · rw [List.mem_cons, not_or]
            exact ⟨Ne.symm notNul, unterminated⟩
          · rw [List.mem_cons, not_or]
            exact ⟨Ne.symm notSep, unseparated⟩

/-- Only what is before the terminator matters. -/
theorem cut_eq_none_iff :
    cut nul sep s = none ↔ sep ∉ s.takeWhile fun c => decide (c ≠ nul) := by
  induction s with
  | nil => exact iff_of_true rfl List.not_mem_nil
  | cons c s ih =>
    rw [cut, List.takeWhile_cons]
    by_cases isNul : c = nul
    · rw [if_pos isNul, decide_eq_false (not_not.mpr isNul), if_neg Bool.false_ne_true]
      exact iff_of_true rfl List.not_mem_nil
    · rw [if_neg isNul, decide_eq_true isNul, if_pos rfl, List.mem_cons]
      by_cases isSep : c = sep
      · rw [if_pos isSep]
        exact iff_of_false (Option.some_ne_none _) fun absent => absent (.inl isSep.symm)
      · rw [if_neg isSep, or_iff_right (Ne.symm isSep), ← ih]
        cases cut nul sep s with
        | none => exact iff_of_true rfl rfl
        | some parts => exact iff_of_false (Option.some_ne_none _) (Option.some_ne_none _)

end Ksrc.Library

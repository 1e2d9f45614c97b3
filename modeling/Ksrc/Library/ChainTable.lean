import Mathlib.Data.List.Basic
import Mathlib.Data.Nat.Bitwise
import Mathlib.Order.Basic

/-!
# Tables of chains

A table is a list of chains; a mask, the number of chains less one, cuts a hash value to a slot.
-/
namespace Ksrc.Library

variable {α : Type*} {a : α} {i : Nat} {chains : List (List α)} {chain : List α}

/-- One more element on a chain is one more in the table. -/
theorem flatten_set_perm (inside : i < chains.length) (more : chain.Perm (a :: chains.getD i [])) :
    (chains.set i chain).flatten.Perm (a :: chains.flatten) := by
  rw [List.getD_eq_getElem _ _ inside] at more
  have split : chains = chains.take i ++ chains[i] :: chains.drop (i + 1) := by
    rw [List.getElem_cons_drop, List.take_append_drop]
  rw [List.set_eq_take_append_cons_drop, if_pos inside]
  conv =>
    rhs
    rw [split]
  simp only [List.flatten_append, List.flatten_cons]
  calc
    ((chains.take i).flatten ++ (chain ++ (chains.drop (i + 1)).flatten)).Perm
        ((chains.take i).flatten ++ (a :: chains[i] ++ (chains.drop (i + 1)).flatten)) :=
      (more.append_right _).append_left _
    List.Perm _ (a :: ((chains.take i).flatten ++ (chains[i] ++ (chains.drop (i + 1)).flatten))) :=
      List.perm_middle

theorem chain_set_self (inside : i < chains.length) : (chains.set i chain).getD i [] = chain := by
  simp only [List.getD_eq_getElem?_getD, List.getElem?_set_self inside, Option.getD_some]

theorem chain_set_other {j : Nat} (other : i ≠ j) :
    (chains.set i chain).getD j [] = chains.getD j [] := by
  simp only [List.getD_eq_getElem?_getD, List.getElem?_set, other, if_false]

/-- Every chain of a fresh table is empty. -/
theorem replicate_chain (n i : Nat) : (List.replicate n ([] : List α)).getD i [] = [] := by
  simp only [List.getD_eq_getElem?_getD, List.getElem?_replicate]
  split <;> rfl

/-- The mask keeps a slot inside the table. -/
theorem mask_lt {x n width : Nat} (some : n ≠ 0) : x &&& (n - 1) % 2 ^ width < n := by
  have below : x &&& (n - 1) % 2 ^ width ≤ n - 1 := Nat.and_le_right.trans (Nat.mod_le _ _)
  omega

end Ksrc.Library

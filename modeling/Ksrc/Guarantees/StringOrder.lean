import Mathlib.Data.List.Lex
import Mathlib.Data.List.TakeWhile
import Ksrc.Source.PolicyFile

/-!
# C strings

Source: `strcmp`. It compares two strings by the unsigned values of their bytes. A C string ends
before the first zero of its buffer.
-/
namespace Ksrc.Guarantees.StringOrder

open Source

variable {a b : Name}

theorem strcmp_neg : strcmp a b < 0 ↔ a.map BitVec.toNat < b.map BitVec.toNat := by
  induction a, b using strcmp.induct with
  | case1 => simp [strcmp]
  | case2 b bs => simp [strcmp]
  | case3 a as => simp [strcmp]
  | case4 a as bs ih => simp [strcmp, ih]
  | case5 a as b bs differs less =>
    rw [strcmp, if_neg differs, if_pos less]
    simp [List.cons_lt_cons_iff, less]
  | case6 a as b bs differs notLess =>
    have apart : a.toNat ≠ b.toNat := fun same => differs (BitVec.eq_of_toNat_eq same)
    rw [strcmp, if_neg differs, if_neg notLess]
    simp [List.cons_lt_cons_iff, notLess, apart]

theorem strcmp_pos : 0 < strcmp a b ↔ b.map BitVec.toNat < a.map BitVec.toNat := by
  induction a, b using strcmp.induct with
  | case1 => simp [strcmp]
  | case2 b bs => simp [strcmp]
  | case3 a as => simp [strcmp]
  | case4 a as bs ih => simp [strcmp, ih]
  | case5 a as b bs differs less =>
    rw [strcmp, if_neg differs, if_pos less]
    simp only [List.map_cons, List.cons_lt_cons_iff]
    omega
  | case6 a as b bs differs notLess =>
    have apart : a.toNat ≠ b.toNat := fun same => differs (BitVec.eq_of_toNat_eq same)
    rw [strcmp, if_neg differs, if_neg notLess]
    simp only [List.map_cons, List.cons_lt_cons_iff]
    omega

theorem text_inj : a.map BitVec.toNat = b.map BitVec.toNat ↔ a = b := by
  constructor
  · intro same
    exact List.map_injective_iff.mpr (fun x y => BitVec.eq_of_toNat_eq) same
  · intro same
    rw [same]

/-- Just equal strings compare as equal. -/
theorem strcmp_zero : strcmp a b = 0 ↔ a = b := by
  have less := @strcmp_neg a b
  have more := @strcmp_pos a b
  rw [← text_inj]
  constructor
  · intro zero
    apply le_antisymm
    · rw [← not_lt, ← more]
      omega
    · rw [← not_lt, ← less]
      omega
  · intro same
    rw [same, lt_self_iff_false, iff_false] at less more
    omega

theorem cString_unterminated (unterminated : 0 ∉ a) : cString a = a := by
  unfold cString
  refine List.takeWhile_eq_self_iff.mpr fun c member => ?_
  rw [decide_eq_true_eq]
  rintro rfl
  exact unterminated member

end Ksrc.Guarantees.StringOrder

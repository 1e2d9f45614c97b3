import Mathlib.Order.Bounds.Basic
import Ksrc.Source.SidtabStats
import Ksrc.Guarantees.SidtabTree

/-!
# The level of a count of SIDs

Source: `security/selinux/ss/sidtab.c` (`sidtab_level_startcount`), `sidtab.h`
(`SIDTAB_LEAF_ENTRIES`, `SIDTAB_MAX_LEVEL`). The capacity of level 3 does not fit 32
bits and wraps; the one after it is 0 and stays 0. Up to the wrapped capacity the
level is still the least that holds the count, beyond it the loop does not end.
-/
namespace Ksrc.Guarantees.SidtabLevels

open Source SidtabTree

/-- The entries a tree of this level holds. -/
def levelCapacity (level : Nat) : Nat := sidtabLeafEntries * 2 ^ (level * sidtabInnerShift)

/-- The loop ends after some number of shifts, with the least level that holds the
count, and that level has a root. -/
def LevelFits (count : U32) : Prop :=
  ∃ fuel level, levelLoop count fuel (BitVec.ofNat 32 sidtabLeafEntries) 0 = some level ∧
    level ≤ sidtabMaxLevel ∧ IsLeast {l | count.toNat ≤ levelCapacity l} level

theorem levelCapacity_mono {low high : Nat} (ordered : low ≤ high) :
    levelCapacity low ≤ levelCapacity high := by
  apply Nat.mul_le_mul_left
  apply Nat.pow_le_pow_right (by omega)
  exact Nat.mul_le_mul_right _ ordered

/-- A level that holds the count, with the one below it too small. -/
theorem isLeast_succ {count : Nat} (level : Nat) (small : levelCapacity level < count)
    (enough : count ≤ levelCapacity (level + 1)) :
    IsLeast {l | count ≤ levelCapacity l} (level + 1) := by
  constructor
  · exact enough
  · intro other holds
    by_contra below
    have ordered := levelCapacity_mono (show other ≤ level by omega)
    have held : count ≤ levelCapacity other := holds
    omega

/-- More shifts do not change a level that is found. -/
theorem levelLoop_more {count : U32} {fuel level : Nat} (extra : Nat) {capacity : U32} {start : Nat}
    (found : levelLoop count fuel capacity start = some level) :
    levelLoop count (fuel + extra) capacity start = some level := by
  induction fuel generalizing capacity start with
  | zero => simp [levelLoop] at found
  | succ fuel ih =>
    rw [show fuel + 1 + extra = fuel + extra + 1 by omega]
    simp only [levelLoop] at found ⊢
    split at found
    · rename_i above
      rw [if_pos above]
      exact ih found
    · rename_i enough
      rw [if_neg enough]
      exact found

/-- From capacity 0 no number of shifts ends the loop. -/
theorem levelLoop_zero {count : U32} (positive : 0 < count.toNat) (fuel start : Nat) :
    levelLoop count fuel 0 start = none := by
  induction fuel generalizing start with
  | zero => rfl
  | succ fuel ih =>
    have below : (0 : U32) < count := by simpa [BitVec.lt_def] using positive
    have still : (0 : U32) <<< sidtabInnerShift = 0 := by decide
    rw [levelLoop, if_pos below, still]
    exact ih (start + 1)

/-- Past the wrapped capacity the loop goes on for ever. -/
theorem levelLoop_never {count : U32} (above : sidtabLevelLimit < count.toNat) (fuel : Nat) :
    levelLoop count fuel (BitVec.ofNat 32 sidtabLeafEntries) 0 = none := by
  have step : ∀ (fuel : Nat) (capacity : U32) (level : Nat), capacity.toNat ≤ sidtabLevelLimit →
      levelLoop count (fuel + 1) capacity level =
        levelLoop count fuel (capacity <<< sidtabInnerShift) (level + 1) := by
    intro fuel capacity level fits
    rw [levelLoop, if_pos (BitVec.lt_def.mpr (by omega))]
  have start : levelLoop count (fuel + 4) (BitVec.ofNat 32 sidtabLeafEntries) 0 = none := by
    rw [step _ _ _ (by decide), step _ _ _ (by decide), step _ _ _ (by decide),
      step _ _ _ (by decide)]
    exact levelLoop_zero (by omega) fuel 4
  cases found : levelLoop count fuel (BitVec.ofNat 32 sidtabLeafEntries) 0 with
  | none => rfl
  | some level =>
    have more := levelLoop_more 4 found
    rw [start] at more
    cases more

/-- Up to the wrapped capacity the level found is the least that holds the count. -/
theorem sidtabLevelFromCount_least {count : U32} (fits : count.toNat ≤ sidtabLevelLimit) :
    ∃ level, sidtabLevelFromCount count = some level ∧ level ≤ sidtabMaxLevel ∧
      IsLeast {l | count.toNat ≤ levelCapacity l} level := by
  have top : sidtabMaxLevel = 3 := by decide
  have capacity0 : levelCapacity 0 = 39 := by decide
  have capacity1 : levelCapacity 1 = 19968 := by decide
  have capacity2 : levelCapacity 2 = 10223616 := by decide
  have capacity3 : levelCapacity 3 = 5234491392 := by decide
  rw [sidtabLevelFromCount_eq, top]
  split
  · exact ⟨0, rfl, by omega, ⟨show count.toNat ≤ levelCapacity 0 by omega,
      fun _ _ => Nat.zero_le _⟩⟩
  · split
    · exact ⟨1, rfl, by omega, isLeast_succ 0 (by omega) (show _ ≤ levelCapacity 1 by omega)⟩
    · split
      · exact ⟨2, rfl, by omega, isLeast_succ 1 (by omega) (show _ ≤ levelCapacity 2 by omega)⟩
      · simp only [sidtabLevelLimit] at fits
        exact ⟨3, rfl, by omega, isLeast_succ 2 (by omega) (show _ ≤ levelCapacity 3 by omega)⟩

/-- The level is found, has a root and is the least one exactly up to the capacity of
level 3 as 32 bits hold it. -/
theorem levelFits_iff (count : U32) : LevelFits count ↔ count.toNat ≤ sidtabLevelLimit := by
  constructor
  · intro fits
    obtain ⟨fuel, level, found, -⟩ := fits
    by_contra above
    rw [levelLoop_never (by omega)] at found
    cases found
  · intro fits
    obtain ⟨level, found, bounded, least⟩ := sidtabLevelFromCount_least fits
    exact ⟨5, level, found, bounded, least⟩

/-- A count of one more than the wrapped capacity never ends the loop. -/
theorem level_never_found : ¬ ∀ count : U32, count ≤ sidtabMax → LevelFits count := by
  intro all
  obtain ⟨fuel, level, found, -⟩ := all 939524097#32 (by decide)
  rw [levelLoop_never (by decide)] at found
  cases found

end Ksrc.Guarantees.SidtabLevels

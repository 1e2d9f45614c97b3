import Ksrc.Source.Sidtab

/-!
# Where the SID table keeps an index

Source: `security/selinux/ss/sidtab.c` (`sidtab_level_from_count`,
`sidtab_alloc_roots`, `sidtab_do_lookup`). The level found for a count covers it, so
the leaf index is inside the subtree, and the radix tree keeps distinct indices in
distinct slots through every later allocation.
-/
namespace Ksrc.Guarantees.SidtabTree

open Library Source

/-- The largest count whose level is found: `39 << 27` as a 32-bit number. Beyond it
the capacity becomes 0 and the loop does not end. -/
def sidtabLevelLimit : Nat := 939524096

/-- The loop, with its capacities written out. -/
theorem sidtabLevelFromCount_eq (count : U32) : sidtabLevelFromCount count =
    if count.toNat ≤ 39 then some 0 else if count.toNat ≤ 19968 then some 1
    else if count.toNat ≤ 10223616 then some 2
    else if count.toNat ≤ sidtabLevelLimit then some 3 else none := by
  have loop : ∀ (fuel : Nat) (capacity : U32) (level : Nat),
      levelLoop count (fuel + 1) capacity level = if count.toNat ≤ capacity.toNat then some level
        else levelLoop count fuel (capacity <<< 9) (level + 1) := by
    intro fuel capacity level
    simp only [levelLoop, BitVec.lt_def, sidtabInnerShift]
    by_cases fits : count.toNat ≤ capacity.toNat
    · rw [if_pos fits, if_neg (by omega)]
    · rw [if_neg fits, if_pos (by omega)]
  have none_left : ∀ (capacity : U32) (level : Nat), levelLoop count 0 capacity level = none :=
    fun _ _ => rfl
  have capacity1 : (39#32 <<< 9).toNat = 19968 := by decide
  have capacity2 : (39#32 <<< 9 <<< 9).toNat = 10223616 := by decide
  have capacity3 : (39#32 <<< 9 <<< 9 <<< 9).toNat = sidtabLevelLimit := by decide
  have capacity4 : (39#32 <<< 9 <<< 9 <<< 9 <<< 9).toNat = 0 := by decide
  have capacity0 : (39#32).toNat = 39 := by decide
  rw [sidtabLevelFromCount, sidtabLeafEntries, loop, loop, loop, loop, loop, none_left, capacity0,
    capacity1, capacity2, capacity3, capacity4]
  split
  · rfl
  · split
    · rfl
    · split
      · rfl
      · split
        · rfl
        · rw [if_neg (by omega)]

theorem toNat_succ {index : U32} (below : index.toNat + 1 < 2 ^ 32) :
    (index + 1).toNat = index.toNat + 1 := by
  have one : (1 : U32).toNat = 1 := rfl
  rw [BitVec.toNat_add, one, Nat.mod_eq_of_lt below]

/-- A level that is found covers the count. -/
theorem sidtabLevelFromCount_covers {count : U32} {level : Nat}
    (found : sidtabLevelFromCount count = some level) :
    count.toNat ≤ sidtabLeafEntries * 2 ^ (sidtabInnerShift * level) ∧
      count.toNat ≤ sidtabLevelLimit := by
  rw [sidtabLevelFromCount_eq] at found
  simp only [sidtabLeafEntries, sidtabInnerShift]
  split at found
  · cases found
    simp only [sidtabLevelLimit]
    omega
  · split at found
    · cases found
      simp only [sidtabLevelLimit]
      omega
    · split at found
      · cases found
        simp only [sidtabLevelLimit]
        omega
      · split at found
        · rename_i fits
          cases found
          simp only [sidtabLevelLimit] at fits ⊢
          omega
        · cases found

/-- Larger counts have higher levels. -/
theorem sidtabLevelFromCount_mono {count count' : U32} {level level' : Nat}
    (less : count.toNat ≤ count'.toNat) (found : sidtabLevelFromCount count = some level)
    (found' : sidtabLevelFromCount count' = some level') : level ≤ level' := by
  rw [sidtabLevelFromCount_eq] at found found'
  split at found <;> split at found' <;> grind

theorem sidtabLevelFromCount_found (count : U32) (small : count.toNat ≤ sidtabLevelLimit) :
    ∃ level, sidtabLevelFromCount count = some level := by
  simp only [sidtabLevelFromCount_eq, small, if_true]
  split
  · exact ⟨_, rfl⟩
  · split
    · exact ⟨_, rfl⟩
    · split
      · exact ⟨_, rfl⟩
      · exact ⟨_, rfl⟩

/-- The reference the table has for an index. -/
def lookupRef (t : RadixTree SidtabEntry) (index : U32) : Option EntryRef :=
  match sidtabDoLookup t index false [] with
  | some (r, _, _) => r
  | none => none

/-- The reference, as the leaf and the slot of the index. -/
theorem lookupRef_eq (t : RadixTree SidtabEntry) (index : U32) :
    lookupRef t index = (sidtabLevelFromCount (index + 1)).bind fun level =>
      (t.leafAt sidtabInnerShift level (index.toNat / sidtabLeafEntries)).map
        (EntryRef.leaf · (index.toNat % sidtabLeafEntries)) := by
  simp only [lookupRef, sidtabDoLookup, RadixTree.leafAt]
  cases sidtabLevelFromCount (index + 1) with
  | none => rfl
  | some level =>
    simp only [Bool.false_eq_true, if_false, Option.bind_some]
    cases t.roots level with
    | none =>
      simp only [Option.bind_none, Option.map_none]
      by_cases zero : level = 0
      · simp [zero]
      · simp [zero]
    | some root => rfl

section Index

variable {t t' : RadixTree SidtabEntry} {index index' : U32} {r : EntryRef}

/-- An index below the largest one, whose reference is found, is inside its subtree. -/
theorem leaf_inside {level : Nat} (below : index.toNat + 1 < 2 ^ 32)
    (found : sidtabLevelFromCount (index + 1) = some level) :
    index.toNat / sidtabLeafEntries < 2 ^ (sidtabInnerShift * level) := by
  have covers := (sidtabLevelFromCount_covers found).1
  have next := toNat_succ below
  rw [next] at covers
  rw [Nat.div_lt_iff_lt_mul (by decide)]
  rw [Nat.mul_comm]
  omega

theorem lookupRef_extends (extended : RadixTree.Extends t t') (found : lookupRef t index = some r) :
    lookupRef t' index = some r := by
  rw [lookupRef_eq] at found ⊢
  obtain ⟨level, levelEq, found⟩ := Option.bind_eq_some_iff.mp found
  obtain ⟨leaf, leafEq, rfl⟩ := Option.map_eq_some_iff.mp found
  simp only [levelEq, Option.bind_some, RadixTree.leafAt_extends extended leafEq, Option.map_some]

/-- Distinct indices never share a leaf slot. -/
theorem lookupRef_injective (shaped : RadixTree.Shaped sidtabInnerShift t)
    (below : index.toNat + 1 < 2 ^ 32) (below' : index'.toNat + 1 < 2 ^ 32)
    (found : lookupRef t index = some r) (found' : lookupRef t index' = some r) :
    index = index' := by
  rw [lookupRef_eq] at found found'
  obtain ⟨level, levelEq, found⟩ := Option.bind_eq_some_iff.mp found
  obtain ⟨leaf, leafEq, refEq⟩ := Option.map_eq_some_iff.mp found
  obtain ⟨level', levelEq', found'⟩ := Option.bind_eq_some_iff.mp found'
  obtain ⟨leaf', leafEq', refEq'⟩ := Option.map_eq_some_iff.mp found'
  rw [← refEq', EntryRef.leaf.injEq] at refEq
  obtain ⟨rfl, sameSlot⟩ := refEq
  have sameLeaf := RadixTree.leafAt_injective shaped (leaf_inside below levelEq)
    (leaf_inside below' levelEq') leafEq leafEq'
  apply BitVec.eq_of_toNat_eq
  rw [← Nat.div_add_mod index.toNat sidtabLeafEntries,
    ← Nat.div_add_mod index'.toNat sidtabLeafEntries, sameLeaf, sameSlot]

/-- An index whose reference is found is below the limit of the level loop. -/
theorem lookupRef_below (below : index.toNat + 1 < 2 ^ 32) (found : lookupRef t index = some r) :
    index.toNat < sidtabLevelLimit := by
  rw [lookupRef_eq] at found
  obtain ⟨level, levelEq, -⟩ := Option.bind_eq_some_iff.mp found
  have covers := (sidtabLevelFromCount_covers levelEq).2
  have next := toNat_succ below
  omega

theorem lookupRef_isLeaf (found : lookupRef t index = some r) :
    ∃ leaf, r = .leaf leaf (index.toNat % sidtabLeafEntries) := by
  rw [lookupRef_eq] at found
  obtain ⟨level, -, found⟩ := Option.bind_eq_some_iff.mp found
  obtain ⟨leaf, -, rfl⟩ := Option.map_eq_some_iff.mp found
  exact ⟨leaf, rfl⟩

@[simp] theorem lookupRef_setSlot (t : RadixTree SidtabEntry) (a i : Nat) (e : SidtabEntry)
    (index : U32) : lookupRef (t.setSlot a i e) index = lookupRef t index := by
  simp only [lookupRef_eq, RadixTree.leafAt_setSlot]

/-- The leaf of a reference that is found is an allocated node. -/
theorem lookupRef_used (shaped : RadixTree.Shaped sidtabInnerShift t)
    (below : index.toNat + 1 < 2 ^ 32) {leaf slot : Nat}
    (found : lookupRef t index = some (.leaf leaf slot)) : leaf < t.next := by
  obtain ⟨name, named⟩ := shaped.named
  rw [lookupRef_eq] at found
  obtain ⟨level, levelEq, found⟩ := Option.bind_eq_some_iff.mp found
  obtain ⟨leaf', leafEq, refEq⟩ := Option.map_eq_some_iff.mp found
  rw [EntryRef.leaf.injEq] at refEq
  obtain ⟨rfl, -⟩ := refEq
  have here := RadixTree.leafAt_named named (leaf_inside below levelEq) leafEq
  exact named.used leaf' (by simp [here])

theorem sidtabDoLookup_of_ref (found : lookupRef t index = some r) :
    ∃ t' rest, sidtabDoLookup t index false [] = some (some r, t', rest) := by
  unfold lookupRef at found
  split at found
  · rename_i r' t' rest done
    subst found
    exact ⟨t', rest, done⟩
  · cases found

/-- Where the reference of an index is found, the root of its level is there. -/
theorem lookupRef_root {level : Nat} (levelEq : sidtabLevelFromCount (index + 1) = some level)
    (found : lookupRef t index = some r) : ∃ root, t.roots level = some root := by
  rw [lookupRef_eq, levelEq, Option.bind_some] at found
  obtain ⟨leaf, leafEq, -⟩ := Option.map_eq_some_iff.mp found
  obtain ⟨root, here, -⟩ := Option.bind_eq_some_iff.mp leafEq
  exact ⟨root, here⟩

/-- Under the root of the level of a count, every index below the count is found where
the table looks it up. -/
theorem lookupRef_level {count : U32} {level root : Nat}
    (shaped : RadixTree.Shaped sidtabInnerShift t)
    (levelEq : sidtabLevelFromCount count = some level) (here : t.roots level = some root)
    (less : index < count) : lookupRef t index =
      (t.leafAt sidtabInnerShift level (index.toNat / sidtabLeafEntries)).map
        (EntryRef.leaf · (index.toNat % sidtabLeafEntries)) := by
  rw [BitVec.lt_def] at less
  have below : index.toNat + 1 < 2 ^ 32 := Nat.lt_of_le_of_lt less count.isLt
  have next := toNat_succ below
  have limit := (sidtabLevelFromCount_covers levelEq).2
  obtain ⟨low, lowEq⟩ := sidtabLevelFromCount_found (index + 1) (by omega)
  have ordered : low ≤ level := sidtabLevelFromCount_mono (by omega) lowEq levelEq
  rw [lookupRef_eq, lowEq, Option.bind_some,
    RadixTree.leafAt_of_le shaped here ordered (leaf_inside below lowEq)]

end Index

/-- What `sidtab_do_lookup` with allocation does: it only adds to the tree, and the
entry it returns is the one every later lookup of the index finds. -/
theorem sidtabDoLookup_alloc {t t' : RadixTree SidtabEntry} {index : U32} {r : Option EntryRef}
    {allocs rest : List Bool} (shaped : RadixTree.Shaped sidtabInnerShift t)
    (done : sidtabDoLookup t index true allocs = some (r, t', rest)) :
    RadixTree.Extends t t' ∧ RadixTree.Shaped sidtabInnerShift t' ∧
      (∀ dst, r = some dst → lookupRef t' index = some dst) := by
  simp only [sidtabDoLookup] at done
  cases levelEq : sidtabLevelFromCount (index + 1) with
  | none =>
    rw [levelEq] at done
    cases done
  | some level =>
    obtain ⟨extended, shaped', present, -⟩ :=
      RadixTree.growRoots_spec zeroEntry shaped level allocs
    simp only [levelEq, if_true, sidtabAllocRoots] at done
    cases grown : RadixTree.growRoots zeroEntry level t allocs with
    | mk ok out =>
      obtain ⟨t₁, allocs₁⟩ := out
      rw [grown] at extended shaped' present done
      cases ok with
      | false =>
        cases done
        exact ⟨extended, shaped', by simp⟩
      | true =>
        cases root : t₁.roots level with
        | none => exact absurd root (present rfl level (Nat.le_refl _))
        | some a =>
          simp only [root] at done
          obtain ⟨name, named⟩ := shaped'.named
          have spec := RadixTree.descendAlloc_spec zeroEntry
            (p := index.toNat / sidtabLeafEntries) named (named.root _ _ root) allocs₁
          obtain ⟨extended₂, roots, shapedNamed, found⟩ := spec
          cases done
          refine ⟨extended.trans extended₂,
            ⟨shapedNamed, shaped'.stacked.of_extends extended₂ roots⟩, ?_⟩
          rintro dst result
          obtain ⟨leaf, leafEq, rfl⟩ := Option.map_eq_some_iff.mp result
          rw [lookupRef_eq]
          simp only [levelEq, Option.bind_some, RadixTree.leafAt]
          rw [roots, root, Option.bind_some, found leaf leafEq, Option.map_some]

end Ksrc.Guarantees.SidtabTree

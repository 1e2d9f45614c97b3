import Ksrc.Guarantees.BooleanStates
import Ksrc.Guarantees.PoliciesInForce

/-!
# The arrays of a policy in force

Source: `security/selinux/ss/policydb.c` (`policydb_index`), `conditional.c` (`cond_index_bool`,
`cond_bools_index`, `duplicate_policydb_bools`).

`policydb_index` files the symbols of a policy under their values once, when the policy is loaded. A change
of the booleans makes their array anew, from the same names and values.
-/
namespace Ksrc.Guarantees.IndexedArrays

open Library Source BooleanStates PoliciesInForce
  PolicydbShape

variable {p p' q : Policydb} {bytes rest : List U8}

section Booleans

variable {bools bools' : Symtab CondBoolDatum} {entries entries' : List (Name × CondBoolDatum)}

/-- What the index functions look at in the booleans. -/
def slotsOf (entries : List (Name × CondBoolDatum)) : List (Name × U32) := entries.map fun e => (e.1, e.2.value)

/-- Two tables of booleans that are filed alike. -/
structure SameSlots (bools bools' : Symtab CondBoolDatum) : Prop where
  nprim : bools'.nprim = bools.nprim
  slots : slotsOf bools'.table.entries = slotsOf bools.table.entries

theorem SameSlots.refl (bools : Symtab CondBoolDatum) : SameSlots bools bools := ⟨rfl, rfl⟩

theorem SameSlots.trans {bools'' : Symtab CondBoolDatum} (first : SameSlots bools bools')
    (second : SameSlots bools' bools'') : SameSlots bools bools'' :=
  ⟨second.nprim.trans first.nprim, second.slots.trans first.slots⟩

theorem boolSetState_slots (name : Name) (state : U32) : SameSlots bools (boolSetState bools name state) := by
  refine ⟨rfl, ?_⟩
  unfold slotsOf
  rw [boolSetState_entries, List.map_map]
  refine List.map_congr_left fun e _ => ?_
  simp only [Function.comp, withState]
  split
  · rfl
  · rfl

theorem preserveBools_slots (states : List (Name × U32)) : SameSlots bools (states.foldl preserveBool bools) := by
  induction states generalizing bools with
  | nil => exact .refl bools
  | cons e states ih =>
    refine SameSlots.trans ?_ ih
    unfold preserveBool
    split
    · exact .refl bools
    · exact boolSetState_slots e.1 e.2

/-- `cond_index_bool` looks at names and values only. -/
theorem condIndexBool_slots {nprim : U32} {arrays : IndexArrays Name} (same : slotsOf entries' = slotsOf entries) :
    hashtabMap (condIndexBool nprim) entries' arrays = hashtabMap (condIndexBool nprim) entries arrays := by
  induction entries generalizing entries' arrays with
  | nil =>
    have none : entries' = [] := List.map_eq_nil_iff.mp same
    rw [none]
  | cons e entries ih =>
    obtain ⟨e', rest, rfl, first, later⟩ := List.map_eq_cons_iff.mp same
    obtain ⟨key, value⟩ := Prod.mk.inj first
    have step : condIndexBool nprim e'.1 e'.2 arrays = condIndexBool nprim e.1 e.2 arrays := by
      unfold condIndexBool
      rw [key, value]
    unfold hashtabMap
    rw [step]
    cases condIndexBool nprim e.1 e.2 arrays with
    | error e => rfl
    | ok arrays => exact ih later

/-- The copy of the booleans files them where `policydb_index` did. -/
theorem condBoolsIndex_same {nprim : U32} {arrays arrays' : IndexArrays Name}
    (indexed : hashtabMap (condIndexBool nprim) entries arrays = .ok arrays') :
    hashtabMap condBoolsIndex entries arrays.2 = .ok arrays'.2 := by
  induction entries generalizing arrays with
  | nil =>
    cases indexed
    rfl
  | cons e entries ih =>
    unfold hashtabMap at indexed ⊢
    cases stored : condIndexBool nprim e.1 e.2 arrays with
    | error fault =>
      rw [stored] at indexed
      cases indexed
    | ok mid =>
      rw [stored] at indexed
      obtain ⟨-, -, -, rfl⟩ := indexAt_ok stored
      exact ih indexed

end Booleans

section Index

/-- The policy with the arrays of another. -/
def withArrays (q p : Policydb) : Policydb :=
  { q with
    symValToName := p.symValToName, classValToStruct := p.classValToStruct, roleValToStruct := p.roleValToStruct
    typeValToStruct := p.typeValToStruct, userValToStruct := p.userValToStruct, boolValToStruct := p.boolValToStruct }

/-- The symbol tables that `policydb_index` goes through are the same, but for the states of the booleans. -/
structure SameTables (p q : Policydb) : Prop where
  commons : q.pCommons = p.pCommons
  classes : q.pClasses = p.pClasses
  roles : q.pRoles = p.pRoles
  types : q.pTypes = p.pTypes
  users : q.pUsers = p.pUsers
  bools : SameSlots p.pBools q.pBools
  levels : q.pLevels = p.pLevels
  cats : q.pCats = p.pCats

/-- The arrays depend on the tables only. -/
theorem policydbIndex_tables (indexed : policydbIndex p = .ok p') (same : SameTables p q) :
    policydbIndex q = .ok (withArrays q p') := by
  have bools : ∀ array, symtabIndex q.pBools condIndexBool array = symtabIndex p.pBools condIndexBool array := by
    intro array
    unfold symtabIndex
    rw [same.bools.nprim]
    refine congrArg (_ >>= ·) (funext fun names => ?_)
    exact condIndexBool_slots same.bools.slots
  simp only [policydbIndex, exceptBind_ok] at indexed
  obtain ⟨classArray, classMade, roleArray, roleMade, userArray, userMade, typeArray, typeMade, boolArray, boolMade,
    ⟨commons, none⟩, commonsDone, ⟨classes, classValToStruct⟩, classesDone, ⟨roles, roleValToStruct⟩, rolesDone,
    ⟨types, typeValToStruct⟩, typesDone, ⟨users, userValToStruct⟩, usersDone, ⟨names, boolValToStruct⟩, boolsDone,
    ⟨levels, noLevels⟩, levelsDone, ⟨cats, noCats⟩, catsDone, done⟩ := indexed
  cases done
  simp only [policydbIndex, exceptBind_ok, same.commons, same.classes, same.roles, same.types, same.users,
    same.bools.nprim, same.levels, same.cats, bools]
  refine ⟨classArray, classMade, roleArray, roleMade, userArray, userMade, typeArray, typeMade, boolArray, boolMade,
    _, commonsDone, _, classesDone, _, rolesDone, _, typesDone, _, usersDone, _, boolsDone, _, levelsDone, _, catsDone,
    ?_⟩
  simp only [withArrays, same.commons, same.classes, same.roles, same.types, same.users, same.levels, same.cats]
  rfl

/-- The array of the booleans is what `cond_bools_index` files in one that nothing is in. -/
theorem policydbIndex_bools (indexed : policydbIndex p = .ok p') :
    hashtabMap condBoolsIndex p.pBools.table.entries (List.replicate p.pBools.nprim.toNat none) =
      .ok p'.boolValToStruct := by
  simp only [policydbIndex, exceptBind_ok] at indexed
  obtain ⟨classArray, -, roleArray, -, userArray, -, typeArray, -, boolArray, boolMade, _, -, _, -, _, -, _, -, _, -,
    ⟨names, boolValToStruct⟩, boolsDone, _, -, _, -, done⟩ := indexed
  cases done
  simp only [symtabIndex, exceptBind_ok] at boolsDone
  obtain ⟨names₀, -, mapped⟩ := boolsDone
  have filed := condBoolsIndex_same mapped
  rw [pointerArray_ok boolMade] at filed
  exact filed

end Index

section InForce

/-- The arrays of a policy are those of its tables. -/
def Indexed (p : Policydb) : Prop := policydbIndex p = .ok p

theorem indexed_of {q : Policydb} (indexed : Indexed p) (same : SameTables p q) (arrays : withArrays q p = q) :
    Indexed q := by
  have made := policydbIndex_tables indexed same
  rw [arrays] at made
  exact made

theorem policydbRead_indexed (read : policydbRead bytes = .ok (p, rest)) : Indexed p := by
  obtain ⟨s, rfl⟩ := policydbRead_steps read
  obtain ⟨r, made⟩ := policydbReadRules_steps s.rules
  have frame := (policydbIndex_ok r.index).1
  have same : SameTables r.p₃ s.policy := by
    unfold PolicySteps.policy
    rw [made]
    unfold RulesSteps.policy
    rw [frame]
    exact ⟨rfl, rfl, rfl, rfl, rfl, .refl _, rfl, rfl⟩
  have index := policydbIndex_tables r.index same
  have arrays : withArrays s.policy r.p₄ = s.policy := by
    unfold PolicySteps.policy
    rw [made]
    rfl
  rw [arrays] at index
  exact index

theorem Indexed.switched (indexed : Indexed p) (same : SameRules p p') (bools : SameSlots p.pBools p'.pBools)
    (array : p'.boolValToStruct = p.boolValToStruct) : Indexed p' := by
  refine indexed_of indexed ?_ ?_
  · unfold SameRules at same
    rw [same]
    exact ⟨rfl, rfl, rfl, rfl, rfl, bools, rfl, rfl⟩
  · unfold withArrays
    rw [← array]
    unfold SameRules at same
    rw [same]

theorem evaluateCondNodes_slots (done : evaluateCondNodes p = .ok p') :
    SameSlots p.pBools p'.pBools ∧ p'.boolValToStruct = p.boolValToStruct := by
  unfold evaluateCondNodes at done
  split at done
  · cases done
  · cases done
    exact ⟨.refl _, rfl⟩

theorem setBoolStates_slots {values : List U32} {i : Nat} (set : setBoolStates values i p = .ok p') :
    SameSlots p.pBools p'.pBools ∧ p'.boolValToStruct = p.boolValToStruct := by
  induction values generalizing i p with
  | nil =>
    cases set
    exact ⟨.refl _, rfl⟩
  | cons value values ih =>
    unfold setBoolStates at set
    split at set
    · obtain ⟨slots, array⟩ := ih set
      exact ⟨(boolSetState_slots _ _).trans slots, array⟩
    · cases set

theorem condPolicydbDup_slots (indexed : Indexed p) (copied : condPolicydbDup p = .ok p') :
    SameSlots p.pBools p'.pBools ∧ p'.boolValToStruct = p.boolValToStruct := by
  have entries : (hashtabDuplicate (fun orig => orig) p.pBools.table).entries = p.pBools.table.entries := by
    refine (entries_map _ _).trans ?_
    rw [List.map_id']
  have filed := policydbIndex_bools indexed
  unfold condPolicydbDup duplicatePolicydbBools at copied
  dsimp only at copied
  rw [entries, filed] at copied
  dsimp only at copied
  unfold duplicatePolicydbCondList at copied
  split at copied
  · cases copied
  · cases copied
    refine ⟨⟨rfl, ?_⟩, rfl⟩
    dsimp only
    rw [entries]

/-- After any loads and changes of the booleans the arrays of the policy in force are those that `policydb_index`
makes of its tables. -/
theorem inForce_indexed (inForce : InForce p) : Indexed p := by
  induction inForce with
  | loaded read => exact policydbRead_indexed read
  | @reloaded old p p' bytes rest _ read kept _ =>
    have same := (securityPreserveBools_ok (policydbRead_shape read).teCondAvtab kept).1
    unfold securityPreserveBools at kept
    split at kept
    · cases kept
    · obtain ⟨slots, array⟩ := evaluateCondNodes_slots kept
      exact (policydbRead_indexed read).switched same ((preserveBools_slots _).trans slots) array
  | @switched p p' values _ set indexed =>
    have same := (securitySetBools_ok set).1
    unfold securitySetBools at set
    split at set
    · cases set
    split at set
    · cases set
    · rename_i copied
      split at set
      · cases set
      · rename_i states
        obtain ⟨copySlots, copyArray⟩ := condPolicydbDup_slots indexed copied
        obtain ⟨setSlots, setArray⟩ := setBoolStates_slots states
        obtain ⟨slots, array⟩ := evaluateCondNodes_slots set
        exact indexed.switched same ((copySlots.trans setSlots).trans slots)
          (array.trans (setArray.trans copyArray))

end InForce

end Ksrc.Guarantees.IndexedArrays

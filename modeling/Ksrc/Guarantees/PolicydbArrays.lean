import Ksrc.Guarantees.PolicydbStages

/-!
# The arrays by value

Source: `security/selinux/ss/policydb.c` (`policydb_index` and the `*_index` functions),
`conditional.c` (`cond_index_bool`).

A slot of an array of names or data is that of an entry of the symbol table with its value, or there is
no such entry and the slot is empty: nothing makes the values of a table cover `1..nprim`.
-/
namespace Ksrc.Guarantees.PolicydbArrays

open Library Source PolicydbShape PolicydbStages

variable {δ α : Type}

/-- An index function that stores the entries that `used` picks, under their values. -/
def IndexesBy (value : δ → U32) (used : δ → Bool) (stored : Name → δ → α)
    (index : U32 → Name → δ → IndexArrays α → Except Fault (IndexArrays α)) : Prop :=
  ∀ nprim key datum arrays arrays', index nprim key datum arrays = .ok arrays' →
    (used datum = false ∧ arrays' = arrays) ∨
      (used datum = true ∧ value datum ≠ 0 ∧ value datum ≤ nprim ∧
        arrays' = (arrays.1.set (value datum - 1).toNat (some key),
          arrays.2.set (value datum - 1).toNat (some (stored key datum))))

/-- Slot `i` of the two arrays is that of an entry. -/
structure SlotOf (value : δ → U32) (used : δ → Bool) (stored : Name → δ → α)
    (entries : List (Name × δ)) (arrays : IndexArrays α) (i : Nat) (key : Name) (datum : δ) : Prop where
  member : (key, datum) ∈ entries
  used : used datum = true
  value : (value datum).toNat = i + 1
  name : arrays.1[i]? = some (some key)
  datum : i < arrays.2.length → arrays.2[i]? = some (some (stored key datum))

/-- The arrays hold the entries `done` of those of a table; `size` is that of the array of data. -/
structure IndexedBy (value : δ → U32) (used : δ → Bool) (stored : Name → δ → α) (nprim : U32)
    (size : Nat) (entries done : List (Name × δ)) (arrays : IndexArrays α) : Prop where
  names : arrays.1.length = nprim.toNat
  data : arrays.2.length = size
  slots : ∀ i < nprim.toNat, (arrays.1[i]? = some none ∧ (i < size → arrays.2[i]? = some none)) ∨
    ∃ key datum, SlotOf value used stored entries arrays i key datum
  filled : ∀ key datum, (key, datum) ∈ done → used datum = true →
    value datum ≠ 0 ∧ value datum ≤ nprim ∧
      ∃ key' datum', SlotOf value used stored entries arrays (value datum - 1).toNat key' datum'

section Steps

variable {value : δ → U32} {used : δ → Bool} {stored : Name → δ → α} {nprim : U32} {size : Nat}
  {entries done : List (Name × δ)} {arrays arrays' : IndexArrays α} {key : Name} {datum : δ}
  {index : U32 → Name → δ → IndexArrays α → Except Fault (IndexArrays α)}

theorem toNat_pred {v : U32} (nonzero : v ≠ 0) : (v - 1).toNat + 1 = v.toNat := by
  have positive : v.toNat ≠ 0 := fun zero => nonzero (BitVec.eq_of_toNat_eq zero)
  have less : (1 : U32) ≤ v := by
    show (1 : U32).toNat ≤ v.toNat
    change 1 ≤ v.toNat
    omega
  rw [BitVec.toNat_sub_of_le less]
  change v.toNat - 1 + 1 = v.toNat
  omega

/-- Storing an entry fills its slot and leaves the others. -/
theorem indexedBy_step (by_ : IndexesBy value used stored index)
    (indexed : IndexedBy value used stored nprim size entries done arrays)
    (member : (key, datum) ∈ entries) (step : index nprim key datum arrays = .ok arrays') :
    IndexedBy value used stored nprim size entries (done ++ [(key, datum)]) arrays' := by
  rcases by_ nprim key datum arrays arrays' step with ⟨unused, rfl⟩ | ⟨isUsed, nonzero, range, rfl⟩
  · refine ⟨indexed.names, indexed.data, indexed.slots, fun k d inDone isUsed => ?_⟩
    rcases List.mem_append.mp inDone with before | last
    · exact indexed.filled k d before isUsed
    · cases List.mem_singleton.mp last
      rw [unused] at isUsed
      cases isUsed
  · have place := toNat_pred nonzero
    have inside : (value datum - 1).toNat < nprim.toNat := by
      have : (value datum).toNat ≤ nprim.toNat := range
      omega
    have here : SlotOf value used stored entries
        (arrays.1.set (value datum - 1).toNat (some key),
          arrays.2.set (value datum - 1).toNat (some (stored key datum)))
        (value datum - 1).toNat key datum := by
      refine ⟨member, isUsed, place.symm, ?_, fun small => ?_⟩
      · dsimp only
        rw [List.getElem?_set_self (by rw [indexed.names]; exact inside)]
      · dsimp only at small ⊢
        rw [List.length_set] at small
        rw [List.getElem?_set_self small]
    have others : ∀ i k d, SlotOf value used stored entries arrays i k d →
        ∃ k' d', SlotOf value used stored entries
          (arrays.1.set (value datum - 1).toNat (some key),
            arrays.2.set (value datum - 1).toNat (some (stored key datum))) i k' d' := by
      intro i k d slot
      by_cases same : (value datum - 1).toNat = i
      · rw [← same]
        exact ⟨key, datum, here⟩
      · refine ⟨k, d, slot.member, slot.used, slot.value, ?_, fun small => ?_⟩
        · dsimp only
          rw [List.getElem?_set_ne same]
          exact slot.name
        · dsimp only at small ⊢
          rw [List.length_set] at small
          rw [List.getElem?_set_ne same]
          exact slot.datum small
    refine ⟨?_, ?_, fun i small => ?_, fun k d inDone isUsed => ?_⟩
    · dsimp only
      rw [List.length_set]
      exact indexed.names
    · dsimp only
      rw [List.length_set]
      exact indexed.data
    · rcases indexed.slots i small with ⟨noName, noDatum⟩ | ⟨k, d, slot⟩
      · by_cases same : (value datum - 1).toNat = i
        · rw [← same]
          exact .inr ⟨key, datum, here⟩
        · left
          dsimp only
          rw [List.getElem?_set_ne same, List.getElem?_set_ne same]
          exact ⟨noName, noDatum⟩
      · exact .inr (others i k d slot)
    · rcases List.mem_append.mp inDone with before | last
      · obtain ⟨nonzero', range', k', d', slot⟩ := indexed.filled k d before isUsed
        exact ⟨nonzero', range', others _ k' d' slot⟩
      · cases List.mem_singleton.mp last
        exact ⟨nonzero, range, key, datum, here⟩

theorem indexedBy_map (by_ : IndexesBy value used stored index) {todo : List (Name × δ)}
    (indexed : IndexedBy value used stored nprim size entries done arrays)
    (within : ∀ e ∈ todo, e ∈ entries)
    (mapped : hashtabMap (index nprim) todo arrays = .ok arrays') :
    IndexedBy value used stored nprim size entries (done ++ todo) arrays' := by
  induction todo generalizing done arrays with
  | nil =>
    cases mapped
    rw [List.append_nil]
    exact indexed
  | cons e later ih =>
    unfold hashtabMap at mapped
    split at mapped
    · cases mapped
    · rename_i mid step
      have now := indexedBy_step by_ indexed (within e List.mem_cons_self) step
      have all := ih now (fun e' member => within e' (List.mem_cons_of_mem _ member)) mapped
      rw [List.append_assoc] at all
      exact all

/-- One round of the loop of `policydb_index`. -/
theorem symtabIndex_indexed (by_ : IndexesBy value used stored index) {s : Symtab δ}
    {array : List (Option α)} {names : List (Option Name)} {array' : List (Option α)}
    (empty : array = List.replicate size none)
    (indexed : symtabIndex s index array = .ok (names, array')) :
    IndexedBy value used stored s.nprim size s.table.entries s.table.entries (names, array') := by
  unfold symtabIndex at indexed
  simp only [exceptBind_ok] at indexed
  obtain ⟨names₀, made, mapped⟩ := indexed
  have noNames := pointerArray_ok made
  have start : IndexedBy value used stored s.nprim size s.table.entries [] (names₀, array) := by
    rw [noNames, empty]
    refine ⟨List.length_replicate, List.length_replicate, fun i small => .inl ⟨?_, fun inside => ?_⟩,
      fun _ _ member => ?_⟩
    · exact List.getElem?_replicate_of_lt small
    · exact List.getElem?_replicate_of_lt inside
    · cases member
  exact indexedBy_map by_ start (fun _ member => member) mapped

end Steps

section Functions

/-- An index function without aliases. -/
theorem indexAt_indexesBy {value : δ → U32} {bounded : U32 → δ → Bool} {stored : Name → δ → α}
    {index : U32 → Name → δ → IndexArrays α → Except Fault (IndexArrays α)}
    (same : ∀ nprim key datum arrays, index nprim key datum arrays =
      indexAt nprim (value datum) (bounded nprim datum) key (stored key datum) arrays) :
    IndexesBy value (fun _ => true) stored index := by
  intro nprim key datum arrays arrays' done
  rw [same] at done
  obtain ⟨nonzero, range, -, made⟩ := indexAt_ok done
  exact .inr ⟨rfl, nonzero, range, made⟩

/-- An index function that leaves aliases out. -/
theorem indexAt_indexesBy_of {value : δ → U32} {used : δ → Bool} {bounded : U32 → δ → Bool}
    {stored : Name → δ → α} {index : U32 → Name → δ → IndexArrays α → Except Fault (IndexArrays α)}
    (same : ∀ nprim key datum arrays, index nprim key datum arrays =
      if used datum = true then
        indexAt nprim (value datum) (bounded nprim datum) key (stored key datum) arrays
      else .ok arrays) :
    IndexesBy value used stored index := by
  intro nprim key datum arrays arrays' done
  rw [same] at done
  split at done
  · rename_i isUsed
    obtain ⟨nonzero, range, -, made⟩ := indexAt_ok done
    exact .inr ⟨isUsed, nonzero, range, made⟩
  · rename_i unused
    cases done
    exact .inl ⟨Bool.not_eq_true _ |>.mp unused, rfl⟩

theorem roleIndex_indexes : IndexesBy RoleDatum.value (fun _ => true) (fun _ d => d) roleIndex :=
  @indexAt_indexesBy _ _ _ (fun nprim (d : RoleDatum) => decide (d.bounds ≤ nprim)) _ _
    fun _ _ _ _ => rfl

theorem userIndex_indexes : IndexesBy UserDatum.value (fun _ => true) (fun _ d => d) userIndex :=
  @indexAt_indexesBy _ _ _ (fun nprim (d : UserDatum) => decide (d.bounds ≤ nprim)) _ _
    fun _ _ _ _ => rfl

theorem typeIndex_indexes :
    IndexesBy TypeDatum.value (fun d => decide (d.primary ≠ 0)) (fun _ d => d) typeIndex := by
  refine @indexAt_indexesBy_of _ _ _ _ (fun nprim d => decide (d.bounds ≤ nprim)) _ _
    fun nprim key datum arrays => ?_
  unfold typeIndex
  simp only [decide_eq_true_eq]

theorem sensIndex_indexes :
    IndexesBy (fun d : LevelDatum => d.level.sens) (fun d => decide (d.isalias = 0)) (fun _ _ => ())
      sensIndex := by
  refine @indexAt_indexesBy_of _ _ _ _ (fun _ _ => true) _ _ fun nprim key datum arrays => ?_
  unfold sensIndex
  simp only [decide_eq_true_eq]

theorem catIndex_indexes :
    IndexesBy CatDatum.value (fun d => decide (d.isalias = 0)) (fun _ _ => ()) catIndex := by
  refine @indexAt_indexesBy_of _ _ _ _ (fun _ _ => true) _ _ fun nprim key datum arrays => ?_
  unfold catIndex
  simp only [decide_eq_true_eq]

end Functions

/-- A symbol table with the array of its names and that of its data, which has `nprim` slots. -/
def Filed (value : δ → U32) (used : δ → Bool) (stored : Name → δ → α) (s : Symtab δ)
    (names : List (Option Name)) (array : List (Option α)) : Prop :=
  IndexedBy value used stored s.nprim s.nprim.toNat s.table.entries s.table.entries (names, array)

/-- A symbol table with the array of its names. -/
def Named (value : δ → U32) (used : δ → Bool) (s : Symtab δ) (names : List (Option Name)) : Prop :=
  IndexedBy value used (fun _ _ => ()) s.nprim 0 s.table.entries s.table.entries (names, [])

/-- The arrays of a policy by its symbol tables. -/
structure Arrays (p : Policydb) : Prop where
  classes : Filed ClassDatum.value (fun _ => true) (fun _ d => d) p.pClasses p.symValToName.classes
    p.classValToStruct
  roles : Filed RoleDatum.value (fun _ => true) (fun _ d => d) p.pRoles p.symValToName.roles
    p.roleValToStruct
  types : Filed TypeDatum.value (fun d => decide (d.primary ≠ 0)) (fun _ d => d) p.pTypes
    p.symValToName.types p.typeValToStruct
  users : Filed UserDatum.value (fun _ => true) (fun _ d => d) p.pUsers p.symValToName.users
    p.userValToStruct
  bools : Filed CondBoolDatum.value (fun _ => true) (fun key _ => key) p.pBools p.symValToName.bools
    p.boolValToStruct
  levels : Named (fun d : LevelDatum => d.level.sens) (fun d => decide (d.isalias = 0)) p.pLevels
    p.symValToName.levels
  cats : Named CatDatum.value (fun d => decide (d.isalias = 0)) p.pCats p.symValToName.cats

section Policies

variable {p p' : Policydb}

theorem policydbIndex_arrays (indexed : policydbIndex p = .ok p') : Arrays p' := by
  simp only [policydbIndex, exceptBind_ok] at indexed
  obtain ⟨classArray, classMade, roleArray, roleMade, userArray, userMade, typeArray, typeMade,
    boolArray, boolMade, ⟨_, _⟩, -, ⟨_, classes⟩, classesDone, ⟨_, roles⟩, rolesDone, ⟨_, types⟩,
    typesDone, ⟨_, users⟩, usersDone, ⟨_, bools⟩, boolsDone, ⟨_, levels⟩, levelsDone, ⟨_, cats⟩,
    catsDone, done⟩ := indexed
  cases done
  constructor
  · exact symtabIndex_indexed (indexAt_indexesBy fun _ _ _ _ => rfl) (pointerArray_ok classMade)
      classesDone
  · exact symtabIndex_indexed roleIndex_indexes (pointerArray_ok roleMade) rolesDone
  · exact symtabIndex_indexed typeIndex_indexes (pointerArray_ok typeMade) typesDone
  · exact symtabIndex_indexed userIndex_indexes (pointerArray_ok userMade) usersDone
  · exact symtabIndex_indexed (indexAt_indexesBy fun _ _ _ _ => rfl) (pointerArray_ok boolMade)
      boolsDone
  · have named := symtabIndex_indexed sensIndex_indexes (List.replicate_zero).symm levelsDone
    have none : levels = [] := List.eq_nil_of_length_eq_zero named.data
    rw [none] at named
    exact named
  · have named := symtabIndex_indexed catIndex_indexes (List.replicate_zero).symm catsDone
    have none : cats = [] := List.eq_nil_of_length_eq_zero named.data
    rw [none] at named
    exact named

theorem Arrays.transfer (arrays : Arrays p') (tables : SameTables p p') (same : SameArrays p p') :
    Arrays p := by
  constructor
  · rw [tables.classes, same.names, same.classes]
    exact arrays.classes
  · rw [tables.roles, same.names, same.roles]
    exact arrays.roles
  · rw [tables.types, same.names, same.types]
    exact arrays.types
  · rw [tables.users, same.names, same.users]
    exact arrays.users
  · rw [tables.bools, same.names, same.bools]
    exact arrays.bools
  · rw [tables.levels, same.names]
    exact arrays.levels
  · rw [tables.cats, same.names]
    exact arrays.cats

theorem stages_arrays (stages : Stages p) : Arrays p := by
  obtain ⟨p₃, p₄, indexed, tables, arrays⟩ := stages.arrays
  have frame := (policydbIndex_ok indexed).1
  refine (policydbIndex_arrays indexed).transfer (tables.trans ?_) arrays
  rw [frame]
  constructor <;> rfl

end Policies

section Slots

variable {value : δ → U32} {used : δ → Bool} {stored : Name → δ → α} {s : Symtab δ}
  {names : List (Option Name)} {array : List (Option α)} {i : Nat}

/-- A slot of the array of data is filled by an entry, under its value. -/
theorem Filed.entry (filed : Filed value used stored s names array) {a : α}
    (slot : array[i]? = some (some a)) :
    ∃ key datum, (key, datum) ∈ s.table.entries ∧ used datum = true ∧ (value datum).toNat = i + 1 ∧
      a = stored key datum := by
  have inside : i < array.length := (List.getElem?_eq_some_iff.mp slot).1
  have small : i < s.nprim.toNat := by
    rw [← filed.data]
    exact inside
  rcases filed.slots i small with ⟨-, noDatum⟩ | ⟨key, datum, entry⟩
  · have empty := noDatum small
    dsimp only at empty
    rw [slot] at empty
    cases empty
  · have here := entry.datum inside
    dsimp only at here
    rw [slot] at here
    cases here
    exact ⟨key, datum, entry.member, entry.used, entry.value, rfl⟩

/-- The two arrays are filled at the same values. -/
theorem Filed.both (filed : Filed value used stored s names array) :
    (∃ name, names[i]? = some (some name)) ↔ ∃ a, array[i]? = some (some a) := by
  constructor
  · rintro ⟨name, slot⟩
    have inside : i < names.length := (List.getElem?_eq_some_iff.mp slot).1
    have small : i < s.nprim.toNat := by
      rw [← filed.names]
      exact inside
    rcases filed.slots i small with ⟨noName, -⟩ | ⟨key, datum, entry⟩
    · dsimp only at noName
      rw [slot] at noName
      cases noName
    · have data := filed.data
      dsimp only at data
      exact ⟨_, entry.datum (by dsimp only; omega)⟩
  · rintro ⟨a, slot⟩
    have inside : i < array.length := (List.getElem?_eq_some_iff.mp slot).1
    have small : i < s.nprim.toNat := by
      rw [← filed.data]
      exact inside
    rcases filed.slots i small with ⟨-, noDatum⟩ | ⟨key, datum, entry⟩
    · have empty := noDatum small
      dsimp only at empty
      rw [slot] at empty
      cases empty
    · exact ⟨key, entry.name⟩

end Slots

end Ksrc.Guarantees.PolicydbArrays

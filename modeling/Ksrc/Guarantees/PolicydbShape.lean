import Ksrc.Source.PolicydbRead
import Ksrc.Guarantees.AvtabEnumeration

/-!
# What an accepted policy database looks like

Source: `security/selinux/ss/policydb.c` (`policydb_read`, `policydb_index`,
`policydb_bounds_sanity_check`), `conditional.c` (`cond_read_list`).

Both rule tables are in order, the arrays by value have an entry for each value, and the
bounds of every type lead, in at most three steps, to a type without bounds.
-/
namespace Ksrc.Guarantees.PolicydbShape

open Library Source AvtabEnumeration

section Tables

variable {κ δ σ : Type} {params : HashtabKeyParams κ} {key : κ} {datum : δ}

theorem hashtabChainInsert_mem {cmp : κ → κ → Int} {chain chain' : List (κ × δ)}
    (inserted : hashtabChainInsert cmp key datum chain = .ok chain') (e : κ × δ) :
    e ∈ chain' ↔ e = (key, datum) ∨ e ∈ chain := by
  induction chain generalizing chain' with
  | nil =>
    cases inserted
    simp
  | cons cur next ih =>
    unfold hashtabChainInsert at inserted
    split at inserted
    · cases inserted
    · split at inserted
      · cases inserted
        simp
      · split at inserted
        · cases inserted
        · rename_i next' later
          cases inserted
          rw [List.mem_cons, List.mem_cons, ih later]
          tauto

/-- An insertion adds the entry and no other. -/
theorem mem_hashtabInsert {h h' : Hashtab κ δ} (inserted : hashtabInsert params h key datum = .ok h')
    {e : κ × δ} (member : e ∈ h'.entries) : e = (key, datum) ∨ e ∈ h.entries := by
  unfold hashtabInsert at inserted
  split at inserted
  · cases inserted
  · split at inserted
    · cases inserted
    · rename_i chain linked
      cases inserted
      unfold Hashtab.entries at member ⊢
      obtain ⟨row, inTable, inRow⟩ := List.mem_flatten.mp member
      rcases List.mem_or_eq_of_mem_set inTable with old | rfl
      · exact .inr (List.mem_flatten.mpr ⟨row, old, inRow⟩)
      · rcases (hashtabChainInsert_mem linked e).mp inRow with new | old
        · exact .inl new
        · right
          by_cases inside : hashtabSlot params h key < h.htable.length
          · rw [List.getD_eq_getElem _ _ inside] at old
            exact List.mem_flatten.mpr ⟨_, List.getElem_mem inside, old⟩
          · rw [List.getD_eq_default _ _ (by omega)] at old
            cases old

theorem mem_symtabInsert {s s' : Symtab δ} {name : Name}
    (inserted : symtabInsert s name datum = .ok s') {e : Name × δ}
    (member : e ∈ s'.table.entries) : e = (name, datum) ∨ e ∈ s.table.entries := by
  unfold symtabInsert at inserted
  split at inserted
  · cases inserted
  · rename_i table linked
    cases inserted
    exact mem_hashtabInsert linked member

theorem symtabInit_entries {size : U32} {s : Symtab δ} (made : symtabInit size = .ok s) :
    s.table.entries = [] := by
  unfold symtabInit hashtabInit at made
  simp only at made
  split at made
  · cases made
  · rename_i table sized
    split at sized
    · cases sized
    · cases sized
      cases made
      simp [Hashtab.entries]

/-- The map visits every entry with success. -/
theorem hashtabMap_each (inv : σ → Prop) {apply : κ → δ → σ → Except Fault σ}
    {entries : List (κ × δ)} {s s' : σ}
    (step : ∀ k d s s', (k, d) ∈ entries → inv s → apply k d s = .ok s' → inv s')
    (start : inv s) (mapped : hashtabMap apply entries s = .ok s') :
    inv s' ∧ ∀ e ∈ entries, ∃ before after, inv before ∧ apply e.1 e.2 before = .ok after := by
  induction entries generalizing s with
  | nil =>
    cases mapped
    exact ⟨start, by simp⟩
  | cons cur next ih =>
    unfold hashtabMap at mapped
    split at mapped
    · cases mapped
    · rename_i mid applied
      have midInv := step cur.1 cur.2 s mid List.mem_cons_self start applied
      obtain ⟨done, each⟩ := ih (fun k d s s' member => step k d s s' (List.mem_cons_of_mem _ member))
        midInv mapped
      refine ⟨done, fun e member => ?_⟩
      rcases List.mem_cons.mp member with rfl | member
      · exact ⟨s, mid, start, applied⟩
      · exact each e member

/-- What every datum read satisfies, every entry of the table read satisfies. -/
theorem symtabRead_entries {reader : PolicyReader (Name × δ)} {good : δ → Prop} {s : Symtab δ}
    {bytes rest : List U8} (each : ∀ bytes k d rest, reader bytes = .ok ((k, d), rest) → good d)
    (read : symtabRead .ok (symRead reader) bytes = .ok (s, rest)) :
    ∀ e ∈ s.table.entries, good e.2 := by
  simp only [symtabRead, ByteReader.bind_ok, ByteReader.pure_ok, ByteReader.lift_ok] at read
  obtain ⟨nprim, _, -, nel, _, -, s₀, _, ⟨made, rfl⟩, s₁, _, ⟨same, rfl⟩, s₂, _, loop, rfl, rfl⟩ := read
  cases same
  have start : ∀ e ∈ s₀.table.entries, good e.2 := by
    rw [symtabInit_entries made]
    simp
  suffices kept : ∀ e ∈ s₂.table.entries, good e.2 from kept
  refine ByteReader.times_preserves (fun t : Symtab δ => ∀ e ∈ t.table.entries, good e.2)
    (fun t bytes t' rest ok once => ?_) start loop
  simp only [symRead, ByteReader.bind_ok, ByteReader.lift_ok] at once
  obtain ⟨⟨k, d⟩, _, item, inserted, -⟩ := once
  intro e member
  rcases mem_symtabInsert inserted member with rfl | old
  · exact each _ _ _ _ item
  · exact ok e old

end Tables

section Rules

variable {p : Policydb} {bytes rest : List U8}

variable {σ τ : Type} {f : AvtabKey → AvtabDatum → σ → Except Fault σ}
  {g : AvtabKey → AvtabDatum → τ → Except Fault τ} {st st' : σ} {st₂ : τ}

/-- Where one insertion of a rule with a single specifier succeeds, so does the other. -/
def InsertSimulates (rel : σ → τ → Prop) (f : AvtabKey → AvtabDatum → σ → Except Fault σ)
    (g : AvtabKey → AvtabDatum → τ → Except Fault τ) : Prop :=
  ∀ k d st st' st₂, specCount k.specified = 1 → rel st st₂ → f k d st = .ok st' →
    ∃ st₂', g k d st₂ = .ok st₂' ∧ rel st' st₂'

theorem specCount_old {spec : U16} (known : spec ∈ specOrder) (enabled : Bool) :
    specCount (spec ||| if enabled then avtabEnabled else 0) = 1 := by
  have each : (specOrder.all fun s =>
      [true, false].all fun on => specCount (s ||| if on then avtabEnabled else 0) == 1) = true := by
    decide
  have both := List.all_eq_true.mp (List.all_eq_true.mp each spec known) enabled (by cases enabled <;> simp)
  exact beq_iff_eq.mp both

theorem avtabReadSpecs_simulates {rel : σ → τ → Prop} (step : InsertSimulates rel f g)
    {key : AvtabKey} {val : U32} {buf : List U32} {specs : List U16} {items items' : Nat}
    (known : ∀ spec ∈ specs, spec ∈ specOrder) (start : rel st st₂)
    (read : avtabReadSpecs f key val buf specs items st = .ok (items', st')) :
    ∃ st₂', avtabReadSpecs g key val buf specs items st₂ = .ok (items', st₂') ∧ rel st' st₂' := by
  induction specs generalizing items st st₂ with
  | nil =>
    cases read
    exact ⟨st₂, rfl, start⟩
  | cons spec more ih =>
    have others : ∀ s ∈ more, s ∈ specOrder := fun s member => known s (List.mem_cons_of_mem _ member)
    unfold avtabReadSpecs at read
    by_cases named : val &&& spec.zeroExtend 32 ≠ 0
    · rw [if_pos named] at read
      dsimp only at read
      split at read
      · cases read
      · rename_i mid inserted
        have single := specCount_old (known spec List.mem_cons_self)
          (decide (val &&& avtabEnabledOld ≠ 0))
        simp only [decide_eq_true_eq] at single
        obtain ⟨mid₂, same, related⟩ := step _ _ st mid st₂ single start inserted
        obtain ⟨st₂', rest, last⟩ := ih others related read
        refine ⟨st₂', ?_, last⟩
        unfold avtabReadSpecs
        rw [if_pos named]
        dsimp only
        rw [same]
        exact rest
    · rw [if_neg named] at read
      obtain ⟨st₂', rest, last⟩ := ih others start read
      refine ⟨st₂', ?_, last⟩
      unfold avtabReadSpecs
      rw [if_neg named]
      exact rest

theorem avtabReadOldEntry_simulates {rel : σ → τ → Prop} (step : InsertSimulates rel f g)
    {buf : List U32} (start : rel st st₂) (read : avtabReadOldEntry f buf st = .ok st') :
    ∃ st₂', avtabReadOldEntry g buf st₂ = .ok st₂' ∧ rel st' st₂' := by
  unfold avtabReadOldEntry at read ⊢
  dsimp only at read ⊢
  split at read
  · cases read
  · rename_i narrow
    rw [if_neg narrow]
    split at read
    · cases read
    · rename_i named
      rw [if_neg named]
      split at read
      · cases read
      · rename_i apart
        rw [if_neg apart]
        split at read
        · cases read
        · rename_i plain
          rw [if_neg plain]
          split at read
          · cases read
          · rename_i items mid done
            split at read
            · rename_i counted
              cases read
              obtain ⟨st₂', same, related⟩ :=
                avtabReadSpecs_simulates step (fun _ member => member) start done
              rw [same]
              exact ⟨st₂', if_pos counted, related⟩
            · cases read

/-- Where the insertion of a rule succeeds in both, reading a rule does, in both formats. -/
theorem avtabReadItem_simulates {rel : σ → τ → Prop} (step : InsertSimulates rel f g)
    (start : rel st st₂) (read : avtabReadItem p f st bytes = .ok (st', rest)) :
    ∃ st₂', avtabReadItem p g st₂ bytes = .ok (st₂', rest) ∧ rel st' st₂' := by
  unfold avtabReadItem at read ⊢
  split at read
  · rename_i old
    rw [if_pos old]
    simp only [avtabReadOldItem, ByteReader.bind_ok, ByteReader.lift_ok] at read ⊢
    obtain ⟨items2, _, count, _, _, small, buf, _, words, entry, rfl⟩ := read
    obtain ⟨st₂', same, related⟩ := avtabReadOldEntry_simulates step start entry
    exact ⟨st₂', ⟨items2, _, count, _, _, small, buf, _, words, same, rfl⟩, related⟩
  · rename_i new
    rw [if_neg new]
    simp only [ByteReader.bind_ok, ByteReader.lift_ok, ByteReader.require_ok] at read ⊢
    obtain ⟨source, s₁, r₁, target, s₂, r₂, cls, s₃, r₃, specified, s₄, r₄, _, s₅, valid, _, s₆,
      ⟨single, kept⟩, _, s₇, xperms, datum, s₈, r₅, _, s₉, typed, inserted, done⟩ := read
    obtain ⟨st₂', same, related⟩ := step _ _ st st' st₂ single start inserted
    exact ⟨st₂', ⟨source, s₁, r₁, target, s₂, r₂, cls, s₃, r₃, specified, s₄, r₄, (), s₅, valid, (), s₆,
      ⟨single, kept⟩, (), s₇, xperms, datum, s₈, r₅, (), s₉, typed, same, done⟩, related⟩

/-- What the insertion of a rule keeps, reading a rule keeps. -/
theorem avtabReadItem_preserves (inv : σ → Prop)
    (step : ∀ k d st st', specCount k.specified = 1 → inv st → f k d st = .ok st' → inv st')
    (start : inv st) (read : avtabReadItem p f st bytes = .ok (st', rest)) : inv st' := by
  have kept : InsertSimulates (fun st (_ : Unit) => inv st) f fun _ _ _ => .ok () := by
    intro k d st st' _ single before inserted
    exact ⟨(), rfl, step k d st st' single before inserted⟩
  obtain ⟨_, -, done⟩ : ∃ st₂' : Unit, avtabReadItem p (fun _ _ _ => .ok ()) () bytes =
    .ok (st₂', rest) ∧ inv st' := avtabReadItem_simulates kept start read
  exact done

theorem avtabRead_ok {h : Avtab} (read : avtabRead p bytes = .ok (h, rest)) : AvtabOk h := by
  simp only [avtabRead, ByteReader.bind_ok] at read
  obtain ⟨nel, _, -, _, _, -, loop⟩ := read
  refine ByteReader.times_preserves AvtabOk (fun t bytes t' rest ok once => ?_) (avtabAlloc_ok nel) loop
  exact avtabReadItem_preserves AvtabOk (fun _ _ _ _ _ ok inserted => avtabInsert_ok ok inserted) ok once

/-- What every insertion into a table of conditional rules keeps. -/
def InsertKeeps (inv : Avtab → Prop) : Prop :=
  ∀ h key datum h' addr, inv h → avtabInsertNonunique h key datum = some (h', addr) → inv h'

section Conditional

variable {inv : Avtab → Prop}

/-- What the conditional lists are read into. -/
theorem condInsertf_keeps (keeps : InsertKeeps inv) {teAvtab : Avtab} {other : Option (List Nat)}
    {k : AvtabKey} {d : AvtabDatum} {st st' : Avtab × Option Nat} (before : inv st.1)
    (inserted : condInsertf teAvtab other k d st = .ok st') : inv st'.1 := by
  unfold condInsertf at inserted
  split at inserted
  · cases inserted
  · split at inserted
    · cases inserted
    · rename_i table addr linked
      cases inserted
      exact keeps _ _ _ _ _ before linked

theorem condReadAvList_keeps (keeps : InsertKeeps inv) {h h' : Avtab} {other : Option (List Nat)}
    {list : List Nat} (before : inv h)
    (read : condReadAvList p h other bytes = .ok ((h', list), rest)) : inv h' := by
  simp only [condReadAvList, ByteReader.bind_ok] at read
  obtain ⟨len, _, -, loop⟩ := read
  refine ByteReader.times_preserves (fun st : Avtab × List Nat => inv st.1)
    (fun st bytes st' rest before once => ?_) before loop
  simp only [condReadAvItem, ByteReader.bind_ok, ByteReader.pure_ok] at once
  obtain ⟨⟨table, dst⟩, _, item, _, _, -, rfl, -⟩ := once
  exact avtabReadItem_preserves (fun st => inv st.1)
    (fun _ _ _ _ _ before inserted => condInsertf_keeps keeps before inserted) before item

theorem condReadList_keeps (keeps : InsertKeeps inv) (start : ∀ nrules, inv (avtabAlloc nrules))
    {p' : Policydb} (read : condReadList p bytes = .ok (p', rest)) : inv p'.teCondAvtab := by
  simp only [condReadList, ByteReader.bind_ok, ByteReader.pure_ok] at read
  obtain ⟨len, _, -, ⟨h, list⟩, _, loop, rfl, -⟩ := read
  refine ByteReader.times_preserves (fun st : Avtab × List CondNode => inv st.1)
    (fun st bytes st' rest before once => ?_) (start _) loop
  simp only [condReadNode, ByteReader.bind_ok, ByteReader.pure_ok] at once
  obtain ⟨_, _, -, _, _, -, _, _, -, ⟨h₁, l₁⟩, _, first, ⟨h₂, l₂⟩, _, second, rfl, -⟩ := once
  exact condReadAvList_keeps keeps (condReadAvList_keeps keeps before first) second

end Conditional

theorem condReadList_ok {p' : Policydb} (read : condReadList p bytes = .ok (p', rest)) :
    AvtabOk p'.teCondAvtab ∧
      p' = { p with teCondAvtab := p'.teCondAvtab, condList := p'.condList } := by
  refine ⟨condReadList_keeps ?_ avtabAlloc_ok read, ?_⟩
  · intro h key datum h' addr ok inserted
    exact avtabInsertNonunique_ok ok inserted
  · simp only [condReadList, ByteReader.bind_ok, ByteReader.pure_ok] at read
    obtain ⟨len, _, -, ⟨h, list⟩, _, -, rfl, -⟩ := read
    rfl

end Rules

section Index

variable {δ α : Type} {nprim value : U32} {bounded : Bool} {key : Name}

theorem indexAt_ok {datum : α} {arrays arrays' : IndexArrays α}
    (stored : indexAt nprim value bounded key datum arrays = .ok arrays') :
    value ≠ 0 ∧ value ≤ nprim ∧ bounded = true ∧
      arrays' = (arrays.1.set (value - 1).toNat (some key),
        arrays.2.set (value - 1).toNat (some datum)) := by
  unfold indexAt valueIsvalid at stored
  split at stored
  · rename_i valid
    simp only [Bool.and_eq_true, decide_eq_true_eq, ne_eq] at valid
    cases stored
    exact ⟨valid.1.1, valid.1.2, valid.2, rfl⟩
  · cases stored

theorem pointerArray_ok {array : List (Option α)} (made : pointerArray nprim = .ok array) :
    array = List.replicate nprim.toNat none := by
  unfold pointerArray at made
  split at made
  · cases made
  · cases made
    rfl

/-- An index function stores nothing but the datum it is given. -/
def StoresDatum (index : U32 → Name → δ → IndexArrays δ → Except Fault (IndexArrays δ)) : Prop :=
  ∀ nprim key datum arrays arrays', index nprim key datum arrays = .ok arrays' →
    arrays'.2 = arrays.2 ∨ ∃ i, arrays'.2 = arrays.2.set i (some datum)

theorem classIndex_stores : StoresDatum classIndex := by
  intro nprim key datum arrays arrays' stored
  right
  rw [(indexAt_ok stored).2.2.2]
  exact ⟨_, rfl⟩

theorem typeIndex_stores : StoresDatum typeIndex := by
  intro nprim key datum arrays arrays' stored
  unfold typeIndex at stored
  split at stored
  · right
    rw [(indexAt_ok stored).2.2.2]
    exact ⟨_, rfl⟩
  · cases stored
    exact .inl rfl

/-- The array of a table has an entry for each value and holds data of the table. -/
theorem symtabIndex_ok {s : Symtab δ} {array array' : List (Option δ)} {names : List (Option Name)}
    {index : U32 → Name → δ → IndexArrays δ → Except Fault (IndexArrays δ)}
    (stores : StoresDatum index) (made : pointerArray nprim = .ok array)
    (indexed : symtabIndex s index array = .ok (names, array')) :
    array'.length = nprim.toNat ∧
      ∀ datum, some datum ∈ array' → ∃ name, (name, datum) ∈ s.table.entries := by
  have empty := pointerArray_ok made
  unfold symtabIndex at indexed
  simp only [exceptBind_ok] at indexed
  obtain ⟨names₀, -, mapped⟩ := indexed
  have holds : array'.length = nprim.toNat ∧
      ∀ datum, some datum ∈ array' → ∃ name, (name, datum) ∈ s.table.entries := by
    have done := hashtabMap_each (fun arrays : IndexArrays δ =>
      arrays.2.length = nprim.toNat ∧
        ∀ datum, some datum ∈ arrays.2 → ∃ name, (name, datum) ∈ s.table.entries) ?_ ?_ mapped
    · exact done.1
    · rintro name datum arrays arrays' member ⟨length, old⟩ stored
      rcases stores _ _ _ _ _ stored with same | ⟨i, set⟩
      · rw [same]
        exact ⟨length, old⟩
      · rw [set, List.length_set]
        refine ⟨length, fun d inside => ?_⟩
        rcases List.mem_or_eq_of_mem_set inside with before | new
        · exact old d before
        · cases new
          exact ⟨name, member⟩
    · rw [empty]
      refine ⟨List.length_replicate, fun d inside => ?_⟩
      cases List.eq_of_mem_replicate inside
  exact holds

/-- What `policydb_index` leaves in the arrays of the classes and the types. -/
theorem policydbIndex_ok {p p' : Policydb} (indexed : policydbIndex p = .ok p') :
    p' = { p with
      symValToName := p'.symValToName, classValToStruct := p'.classValToStruct
      roleValToStruct := p'.roleValToStruct, typeValToStruct := p'.typeValToStruct
      userValToStruct := p'.userValToStruct, boolValToStruct := p'.boolValToStruct } ∧
    (p'.classValToStruct.length = p.pClasses.nprim.toNat ∧
      ∀ c, some c ∈ p'.classValToStruct → ∃ name, (name, c) ∈ p.pClasses.table.entries) ∧
    p'.typeValToStruct.length = p.pTypes.nprim.toNat ∧
      ∀ t, some t ∈ p'.typeValToStruct → ∃ name, (name, t) ∈ p.pTypes.table.entries := by
  simp only [policydbIndex, exceptBind_ok] at indexed
  obtain ⟨classArray, classMade, roleArray, -, userArray, -, typeArray, typeMade, boolArray, -,
    ⟨_, _⟩, -, ⟨_, classes⟩, classesDone, ⟨_, _⟩, -, ⟨_, types⟩, typesDone, ⟨_, _⟩, -, ⟨_, _⟩, -,
    ⟨_, _⟩, -, ⟨_, _⟩, -, done⟩ := indexed
  cases done
  exact ⟨rfl, symtabIndex_ok classIndex_stores classMade classesDone,
    symtabIndex_ok typeIndex_stores typeMade typesDone⟩

end Index

/-- The check a bounding type passes. -/
def notAttribute (upper : TypeDatum) : Except Fault Unit :=
  if upper.isAttribute ≠ 0 then .error einval else .ok ()

/-- What the access decisions rely on. -/
structure PolicyShape (p : Policydb) : Prop where
  teAvtab : AvtabOk p.teAvtab
  teCondAvtab : AvtabOk p.teCondAvtab
  attrMaps : p.typeAttrMapArray.length = p.pTypes.nprim.toNat
  types : p.typeValToStruct.length = p.pTypes.nprim.toNat
  typeBounds : ∀ t, some t ∈ p.typeValToStruct →
    boundsLoop TypeDatum.bounds p.typeValToStruct notAttribute (policydbBoundsMaxdepth - 1) t = .ok ()
  processClass : p.processClass = stringToSecurityClass p processName
  transPerms : processTransPerms p = .ok p.processTransPerms

section Read

variable {p p' : Policydb} {bytes rest : List U8}

/-- Before they were in the format, no type has bounds. -/
theorem typeReadDatum_bounds {vers : U32} {name : Name} {t : TypeDatum}
    (read : typeReadDatum vers bytes = .ok ((name, t), rest)) (old : vers < policydbVersionBoundary) :
    t.bounds = 0 := by
  have notNew : ¬ policydbVersionBoundary ≤ vers := BitVec.not_le.mpr old
  simp only [typeReadDatum, ByteReader.bind_ok, boundsRead, if_neg notNew, ByteReader.pure_ok] at read
  obtain ⟨_, _, -, _, _, -, _, _, -, bounds, _, ⟨zero, -⟩, _, _, -, made, -⟩ := read
  cases made
  exact zero.symm

/-- The symbol tables of an image: what is read, where it starts, and that it is read. -/
structure SymtabsSteps (n : Nat) (p : Policydb) (bytes rest : List U8) where
  pCommons : Symtab CommonDatum
  pClasses : Symtab ClassDatum
  pRoles : Symtab RoleDatum
  pTypes : Symtab TypeDatum
  pUsers : Symtab UserDatum
  pBools : Symtab CondBoolDatum
  pLevels : Symtab LevelDatum
  pCats : Symtab CatDatum
  atClasses : List U8
  atRoles : List U8
  atTypes : List U8
  atUsers : List U8
  atBools : List U8
  atLevels : List U8
  atCats : List U8
  commons : symtabRead .ok (symRead commonReadDatum) bytes = .ok (pCommons, atClasses)
  classes : symtabRead .ok (symRead (classReadDatum p.policyvers pCommons)) atClasses = .ok (pClasses, atRoles)
  roles : symtabRead rolesInit (roleRead p.policyvers) atRoles = .ok (pRoles, atTypes)
  types : symtabRead .ok (symRead (typeReadDatum p.policyvers)) atTypes = .ok (pTypes, atUsers)
  users : symtabRead .ok (symRead (userReadDatum p.policyvers)) atUsers = .ok (pUsers, atBools)
  bools : (if 5 < n then symtabRead .ok (symRead condReadBoolDatum) else pure p.pBools) atBools =
    .ok (pBools, atLevels)
  levels : (if 6 < n then symtabRead .ok (symRead sensReadDatum) else pure p.pLevels) atLevels =
    .ok (pLevels, atCats)
  cats : (if 7 < n then symtabRead .ok (symRead catReadDatum) else pure p.pCats) atCats = .ok (pCats, rest)

/-- The policy with the tables. -/
def SymtabsSteps.policy {n : Nat} (s : SymtabsSteps n p bytes rest) : Policydb :=
  { p with
    pCommons := s.pCommons, pClasses := s.pClasses, pRoles := s.pRoles, pTypes := s.pTypes
    pUsers := s.pUsers, pBools := s.pBools, pLevels := s.pLevels, pCats := s.pCats }

theorem symtabsRead_steps {n : Nat} (read : symtabsRead n p bytes = .ok (p', rest)) :
    ∃ s : SymtabsSteps n p bytes rest, p' = s.policy := by
  simp only [symtabsRead, ByteReader.bind_ok, ByteReader.pure_ok] at read
  obtain ⟨_, _, commons, _, _, classes, _, _, roles, _, _, types, _, _, users, _, _, bools, _, _, levels, _,
    _, cats, rfl, rfl⟩ := read
  exact ⟨⟨_, _, _, _, _, _, _, _, _, _, _, _, _, _, _, commons, classes, roles, types, users, bools, levels,
    cats⟩, rfl⟩

theorem symtabsRead_ok {n : Nat} (read : symtabsRead n p bytes = .ok (p', rest)) :
    p' = { p with
      pCommons := p'.pCommons, pClasses := p'.pClasses, pRoles := p'.pRoles, pTypes := p'.pTypes
      pUsers := p'.pUsers, pBools := p'.pBools, pLevels := p'.pLevels, pCats := p'.pCats } ∧
    (p.policyvers < policydbVersionBoundary → ∀ e ∈ p'.pTypes.table.entries, e.2.bounds = 0) := by
  obtain ⟨s, rfl⟩ := symtabsRead_steps read
  refine ⟨rfl, fun old => ?_⟩
  exact symtabRead_entries (fun _ _ _ _ item => typeReadDatum_bounds item old) s.types

theorem filenameTransRead_ok (read : filenameTransRead p bytes = .ok (p', rest)) :
    p' = { p with
      compatFilenameTransCount := p'.compatFilenameTransCount, filenameTrans := p'.filenameTrans
      filenameTransTtypes := p'.filenameTransTtypes } := by
  unfold filenameTransRead at read
  split at read
  · simp only [ByteReader.pure_ok] at read
    rw [← read.1]
  · simp only [ByteReader.bind_ok] at read
    obtain ⟨nel, _, -, read⟩ := read
    split at read
    · simp only [ByteReader.bind_ok, ByteReader.pure_ok] at read
      obtain ⟨_, _, -, ⟨_, _⟩, _, -, rfl, -⟩ := read
      rfl
    · simp only [ByteReader.bind_ok, ByteReader.pure_ok] at read
      obtain ⟨_, _, -, ⟨_, _⟩, _, -, rfl, -⟩ := read
      rfl

theorem typeAttrMapsRead_length {vers : U32} {left i : Nat} {maps : List Ebitmap}
    (read : typeAttrMapsRead vers left i bytes = .ok (maps, rest)) : maps.length = left := by
  induction left generalizing i bytes maps rest with
  | zero =>
    simp only [typeAttrMapsRead, ByteReader.pure_ok] at read
    rw [← read.1]
    rfl
  | succ left ih =>
    simp only [typeAttrMapsRead, ByteReader.bind_ok, ByteReader.pure_ok] at read
    obtain ⟨_, _, -, others, _, more, rfl, -⟩ := read
    rw [List.length_cons, ih more]

/-- A type that passes the check of `policydb_bounds_sanity_check`. -/
theorem boundsCheck_types (checked : policydbBoundsSanityCheck p = .ok ())
    (recent : ¬ p.policyvers < policydbVersionBoundary) {name : Name} {t : TypeDatum}
    (member : (name, t) ∈ p.pTypes.table.entries) :
    boundsLoop TypeDatum.bounds p.typeValToStruct notAttribute (policydbBoundsMaxdepth - 1) t =
      .ok () := by
  unfold policydbBoundsSanityCheck at checked
  rw [if_neg recent] at checked
  simp only [exceptBind_ok] at checked
  obtain ⟨_, -, _, -, mapped⟩ := checked
  obtain ⟨-, each⟩ := hashtabMap_each (fun _ : Unit => True) (fun _ _ _ _ _ _ _ => trivial) trivial
    mapped
  obtain ⟨_, _, -, applied⟩ := each (name, t) member
  exact applied

/-- The header makes a policy that is empty but for what the header has. -/
theorem policydbReadHeader_made {info : PolicydbCompatInfo}
    (read : policydbReadHeader bytes = .ok ((p, info), rest)) :
    p = { policydbInit with
      policyvers := p.policyvers, mlsEnabled := p.mlsEnabled, policycaps := p.policycaps
      permissiveMap := p.permissiveMap, rejectUnknown := p.rejectUnknown
      allowUnknown := p.allowUnknown } := by
  simp only [policydbReadHeader, ByteReader.bind_ok] at read
  obtain ⟨_, _, -, policyvers, _, -, _, _, -, _, _, -, _, _, -, _, _, -, _, _, -, _, _, -, _, _, -,
    read⟩ := read
  cases found : policydbLookupCompat policyvers with
  | none => simp only [found, ByteReader.fail_ok] at read
  | some compat =>
    simp only [found, ByteReader.bind_ok, ByteReader.pure_ok] at read
    obtain ⟨_, _, -, made, -⟩ := read
    cases made
    rfl

/-- The conditional rules, in versions that have them. -/
theorem condRead_ok (ok : AvtabOk p.teCondAvtab)
    (read : (if policydbVersionBool ≤ p.policyvers then condReadList p else pure p) bytes =
      .ok (p', rest)) :
    AvtabOk p'.teCondAvtab ∧
      p' = { p with teCondAvtab := p'.teCondAvtab, condList := p'.condList } := by
  split at read
  · exact condReadList_ok read
  · simp only [ByteReader.pure_ok] at read
    rw [← read.1]
    exact ⟨ok, rfl⟩

/-- What `policydb_read` has made before the object contexts. -/
structure RulesShape (p : Policydb) : Prop where
  teAvtab : AvtabOk p.teAvtab
  teCondAvtab : AvtabOk p.teCondAvtab
  types : p.typeValToStruct.length = p.pTypes.nprim.toNat
  typesFrom : ∀ t, some t ∈ p.typeValToStruct → ∃ name, (name, t) ∈ p.pTypes.table.entries
  oldBounds : p.policyvers < policydbVersionBoundary → ∀ e ∈ p.pTypes.table.entries, e.2.bounds = 0
  processClass : p.processClass = stringToSecurityClass p processName
  transPerms : processTransPerms p = .ok p.processTransPerms

/-- The steps of `policydb_read` before the object contexts: the policies they make, the places in the
image where they start, and that each of them succeeds. -/
structure RulesSteps (bytes : List U8) (info : PolicydbCompatInfo) (rest : List U8) where
  p₀ : Policydb
  p₁ : Policydb
  p₂ : Policydb
  p₃ : Policydb
  p₄ : Policydb
  atTables : List U8
  atRules : List U8
  atConds : List U8
  atRoles : List U8
  atAllows : List U8
  atNames : List U8
  teAvtab : Avtab
  roleTr : Hashtab RoleTransKey RoleTransDatum
  roleAllow : List RoleAllow
  perms : U32
  header : policydbReadHeader bytes = .ok ((p₀, info), atTables)
  symtabs : symtabsRead info.symNum p₀ atTables = .ok (p₁, atRules)
  known : stringToSecurityClass p₁ processName ≠ 0
  rules : avtabRead { p₁ with processClass := stringToSecurityClass p₁ processName } atRules =
    .ok (teAvtab, atConds)
  conds : (if policydbVersionBool ≤ p₁.policyvers then
      condReadList { p₁ with processClass := stringToSecurityClass p₁ processName, teAvtab }
    else pure { p₁ with processClass := stringToSecurityClass p₁ processName, teAvtab }) atConds =
      .ok (p₂, atRoles)
  roleTrans : roleTransRead p₂ atRoles = .ok (roleTr, atAllows)
  allows : roleAllowRead p₂ atAllows = .ok (roleAllow, atNames)
  names : filenameTransRead { p₂ with roleTr, roleAllow } atNames = .ok (p₃, rest)
  index : policydbIndex p₃ = .ok p₄
  transPerms : processTransPerms p₄ = .ok perms

namespace RulesSteps

variable {info : PolicydbCompatInfo} (s : RulesSteps bytes info rest)

/-- The policy that the steps make. -/
def policy : Policydb := { s.p₄ with processTransPerms := s.perms }

/-- Before the conditional rules are read there are none. -/
theorem noConds : s.p₁.teCondAvtab = avtabInit ∧ s.p₁.condList = [] := by
  rw [(symtabsRead_ok s.symtabs).1, policydbReadHeader_made s.header]
  exact ⟨rfl, rfl⟩

theorem condsRead : AvtabOk s.p₂.teCondAvtab ∧
    s.p₂ = { s.p₁ with
      processClass := stringToSecurityClass s.p₁ processName, teAvtab := s.teAvtab
      teCondAvtab := s.p₂.teCondAvtab, condList := s.p₂.condList } := by
  refine condRead_ok (p := { s.p₁ with
    processClass := stringToSecurityClass s.p₁ processName, teAvtab := s.teAvtab }) ?_ s.conds
  show AvtabOk s.p₁.teCondAvtab
  rw [s.noConds.1]
  exact avtabOk_empty 0 0

/-- What comes after the conditional rules makes the arrays and the tables that follow. -/
theorem frame : s.policy = { s.p₂ with
    roleTr := s.roleTr, roleAllow := s.roleAllow
    compatFilenameTransCount := s.p₃.compatFilenameTransCount, filenameTrans := s.p₃.filenameTrans
    filenameTransTtypes := s.p₃.filenameTransTtypes
    symValToName := s.p₄.symValToName, classValToStruct := s.p₄.classValToStruct
    roleValToStruct := s.p₄.roleValToStruct, typeValToStruct := s.p₄.typeValToStruct
    userValToStruct := s.p₄.userValToStruct, boolValToStruct := s.p₄.boolValToStruct
    processTransPerms := s.perms } := by
  unfold policy
  rw [(policydbIndex_ok s.index).1, filenameTransRead_ok s.names]

end RulesSteps

theorem policydbReadRules_steps {info : PolicydbCompatInfo}
    (read : policydbReadRules bytes = .ok ((p, info), rest)) :
    ∃ s : RulesSteps bytes info rest, p = s.policy := by
  unfold policydbReadRules at read
  obtain ⟨⟨p₀, info₀⟩, _, header, read⟩ := ByteReader.bind_ok.mp read
  obtain ⟨p₁, _, symtabs, read⟩ := ByteReader.bind_ok.mp read
  obtain ⟨_, _, known, read⟩ := ByteReader.bind_ok.mp read
  obtain ⟨teAvtab, _, rules, read⟩ := ByteReader.bind_ok.mp read
  obtain ⟨p₂, _, conds, read⟩ := ByteReader.bind_ok.mp read
  obtain ⟨roleTr, _, roleTrans, read⟩ := ByteReader.bind_ok.mp read
  obtain ⟨roleAllow, _, allows, read⟩ := ByteReader.bind_ok.mp read
  obtain ⟨p₃, _, names, read⟩ := ByteReader.bind_ok.mp read
  obtain ⟨p₄, _, index, read⟩ := ByteReader.bind_ok.mp read
  obtain ⟨perms, _, trans, read⟩ := ByteReader.bind_ok.mp read
  obtain ⟨made, rfl⟩ := ByteReader.pure_ok.mp read
  obtain ⟨indexed, rfl⟩ := ByteReader.lift_ok.mp index
  obtain ⟨transPerms, rfl⟩ := ByteReader.lift_ok.mp trans
  obtain ⟨isKnown, rfl⟩ := ByteReader.require_ok.mp known
  cases made
  exact ⟨⟨p₀, p₁, p₂, p₃, p₄, _, _, _, _, _, _, teAvtab, roleTr, roleAllow, perms, header, symtabs, isKnown,
    rules, conds, roleTrans, allows, names, indexed, transPerms⟩, rfl⟩

theorem policydbReadRules_shape {info : PolicydbCompatInfo}
    (read : policydbReadRules bytes = .ok ((p, info), rest)) : RulesShape p := by
  obtain ⟨s, rfl⟩ := policydbReadRules_steps read
  obtain ⟨symtabsFrame, oldBounds⟩ := symtabsRead_ok s.symtabs
  obtain ⟨indexFrame, -, typesLength, typesFrom⟩ := policydbIndex_ok s.index
  obtain ⟨condOk, condFrame⟩ := s.condsRead
  have types : s.p₄.pTypes = s.p₃.pTypes := by rw [indexFrame]
  constructor
  · have rules : s.policy.teAvtab = s.teAvtab := by rw [s.frame, condFrame]
    rw [rules]
    exact avtabRead_ok s.rules
  · have conds : s.policy.teCondAvtab = s.p₂.teCondAvtab := by rw [s.frame]
    rw [conds]
    exact condOk
  · suffices s.p₄.typeValToStruct.length = s.p₄.pTypes.nprim.toNat from this
    rw [types]
    exact typesLength
  · intro t member
    suffices ∃ name, (name, t) ∈ s.p₄.pTypes.table.entries from this
    rw [types]
    exact typesFrom t member
  · have vers : s.policy.policyvers = s.p₀.policyvers := by rw [s.frame, condFrame, symtabsFrame]
    have same : s.policy.pTypes = s.p₁.pTypes := by rw [s.frame, condFrame]
    rw [vers, same]
    exact oldBounds
  · have process : s.policy.processClass = stringToSecurityClass s.p₁ processName := by
      rw [s.frame, condFrame]
    have classes : s.policy.pClasses = s.p₁.pClasses := by rw [s.frame, condFrame]
    rw [process]
    unfold stringToSecurityClass
    rw [classes]
  · exact s.transPerms

/-- The steps of `policydb_read` from the object contexts on. -/
structure PolicySteps (bytes rest : List U8) where
  q : Policydb
  info : PolicydbCompatInfo
  atOcontexts : List U8
  atGenfs : List U8
  atRanges : List U8
  atAttrs : List U8
  ocontextArray : Vector (List Ocontext) 9
  genfsList : List Genfs
  rangeTr : Hashtab RangeTrans MlsRange
  attrs : List Ebitmap
  rules : policydbReadRules bytes = .ok ((q, info), atOcontexts)
  ocontexts : ocontextRead q info atOcontexts = .ok (ocontextArray, atGenfs)
  genfs : genfsRead q atGenfs = .ok (genfsList, atRanges)
  ranges : rangeRead q atRanges = .ok (rangeTr, atAttrs)
  typeAttrs : typeAttrMapsRead q.policyvers q.pTypes.nprim.toNat 0 atAttrs = .ok (attrs, rest)
  checked : policydbBoundsSanityCheck { q with
    ocontexts := ocontextArray, genfs := genfsList, rangeTr, typeAttrMapArray := attrs } = .ok ()

/-- The policy that the steps make. -/
def PolicySteps.policy (s : PolicySteps bytes rest) : Policydb :=
  { s.q with
    ocontexts := s.ocontextArray, genfs := s.genfsList, rangeTr := s.rangeTr, typeAttrMapArray := s.attrs }

theorem policydbRead_steps (read : policydbRead bytes = .ok (p, rest)) :
    ∃ s : PolicySteps bytes rest, p = s.policy := by
  unfold policydbRead at read
  obtain ⟨⟨q, info⟩, _, rules, read⟩ := ByteReader.bind_ok.mp read
  obtain ⟨ocontexts, _, ocontextsRead, read⟩ := ByteReader.bind_ok.mp read
  obtain ⟨genfs, _, genfsRead, read⟩ := ByteReader.bind_ok.mp read
  obtain ⟨rangeTr, _, ranges, read⟩ := ByteReader.bind_ok.mp read
  obtain ⟨attrs, _, attrsRead, read⟩ := ByteReader.bind_ok.mp read
  obtain ⟨_, _, check, read⟩ := ByteReader.bind_ok.mp read
  obtain ⟨made, rfl⟩ := ByteReader.pure_ok.mp read
  obtain ⟨checked, rfl⟩ := ByteReader.lift_ok.mp check
  cases made
  exact ⟨⟨q, info, _, _, _, _, ocontexts, genfs, rangeTr, attrs, rules, ocontextsRead, genfsRead, ranges,
    attrsRead, checked⟩, rfl⟩

theorem policydbRead_shape (read : policydbRead bytes = .ok (p, rest)) : PolicyShape p := by
  obtain ⟨s, rfl⟩ := policydbRead_steps read
  have shape := policydbReadRules_shape s.rules
  constructor
  · exact shape.teAvtab
  · exact shape.teCondAvtab
  · exact typeAttrMapsRead_length s.typeAttrs
  · exact shape.types
  · intro t member
    obtain ⟨name, entry⟩ := shape.typesFrom t member
    by_cases old : s.q.policyvers < policydbVersionBoundary
    · have zero : t.bounds = 0 := shape.oldBounds old (name, t) entry
      unfold boundsLoop
      rw [if_pos zero]
    · exact boundsCheck_types s.checked old entry
  · exact shape.processClass
  · exact shape.transPerms

end Read

end Ksrc.Guarantees.PolicydbShape

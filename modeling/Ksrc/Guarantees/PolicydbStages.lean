import Ksrc.Guarantees.PolicydbShape

/-!
# The stages of reading a policy

Source: `security/selinux/ss/policydb.c` (`policydb_read`).

An accepted policy still has the symbol tables that were read, the arrays that `policydb_index` made
of them, the conditional rules that `cond_read_list` read against them, and has passed
`policydb_bounds_sanity_check`.
-/
namespace Ksrc.Guarantees.PolicydbStages

open Library Source PolicydbShape

/-- Two policies of one version with the same symbol tables. -/
structure SameTables (p q : Policydb) : Prop where
  vers : p.policyvers = q.policyvers
  commons : p.pCommons = q.pCommons
  classes : p.pClasses = q.pClasses
  roles : p.pRoles = q.pRoles
  types : p.pTypes = q.pTypes
  users : p.pUsers = q.pUsers
  bools : p.pBools = q.pBools
  levels : p.pLevels = q.pLevels
  cats : p.pCats = q.pCats

/-- Two policies with the same arrays by value. -/
structure SameArrays (p q : Policydb) : Prop where
  names : p.symValToName = q.symValToName
  classes : p.classValToStruct = q.classValToStruct
  roles : p.roleValToStruct = q.roleValToStruct
  types : p.typeValToStruct = q.typeValToStruct
  users : p.userValToStruct = q.userValToStruct
  bools : p.boolValToStruct = q.boolValToStruct

/-- The symbol tables are those that were read, from a policy without any. -/
def TablesRead (p : Policydb) : Prop :=
  ∃ (n : Nat) (p₀ p₁ : Policydb) (bytes rest : List U8),
    symtabsRead n p₀ bytes = .ok (p₁, rest) ∧
      p₀.pBools = symtabZero ∧ p₀.pLevels = symtabZero ∧ p₀.pCats = symtabZero ∧ SameTables p p₁

/-- The arrays are those that `policydb_index` makes of the symbol tables. -/
def ArraysIndexed (p : Policydb) : Prop :=
  ∃ p₃ p₄, policydbIndex p₃ = .ok p₄ ∧ SameTables p p₃ ∧ SameArrays p p₄

/-- The conditional rules are those that `cond_read_list` read, in versions that have them. -/
def ConditionalsRead (p : Policydb) : Prop :=
  (p.policyvers < policydbVersionBool ∧ p.teCondAvtab = avtabInit ∧ p.condList = []) ∨
    ∃ (p₁ p₂ : Policydb) (bytes rest : List U8),
      condReadList p₁ bytes = .ok (p₂, rest) ∧ SameTables p p₁ ∧ p.teAvtab = p₁.teAvtab ∧
        p.teCondAvtab = p₂.teCondAvtab ∧ p.condList = p₂.condList

/-- The unconditional rules are those that `avtab_read` read. -/
def RulesRead (p : Policydb) : Prop :=
  ∃ (p₁ : Policydb) (bytes rest : List U8),
    avtabRead p₁ bytes = .ok (p.teAvtab, rest) ∧ SameTables p p₁

/-- What the stages of `policydb_read` leave in an accepted policy. -/
structure Stages (p : Policydb) : Prop where
  tables : TablesRead p
  rules : RulesRead p
  conditionals : ConditionalsRead p
  arrays : ArraysIndexed p

section Search

variable {κ δ : Type} {params : HashtabKeyParams κ} {key : κ} {datum : δ}

theorem mem_of_chainSearch {cmp : κ → κ → Int} {chain : List (κ × δ)}
    (found : hashtabChainSearch cmp key chain = some datum) : ∃ k, (k, datum) ∈ chain := by
  induction chain with
  | nil => cases found
  | cons cur next ih =>
    unfold hashtabChainSearch at found
    split at found
    · cases found
      exact ⟨cur.1, List.mem_cons_self⟩
    · split at found
      · cases found
      · obtain ⟨k, member⟩ := ih found
        exact ⟨k, List.mem_cons_of_mem _ member⟩

/-- A search finds an entry of the table. -/
theorem mem_of_hashtabSearch {h : Hashtab κ δ} (found : hashtabSearch params h key = some datum) :
    ∃ k, (k, datum) ∈ h.entries := by
  unfold hashtabSearch at found
  split at found
  · cases found
  · obtain ⟨k, member⟩ := mem_of_chainSearch found
    by_cases inside : hashtabSlot params h key < h.htable.length
    · rw [List.getD_eq_getElem _ _ inside] at member
      exact ⟨k, List.mem_flatten.mpr ⟨_, List.getElem_mem inside, member⟩⟩
    · rw [List.getD_eq_default _ _ (by omega)] at member
      cases member

end Search

section Transfer

variable {p q r : Policydb}

theorem SameTables.trans (first : SameTables p q) (second : SameTables q r) : SameTables p r := by
  constructor
  · exact first.vers.trans second.vers
  · exact first.commons.trans second.commons
  · exact first.classes.trans second.classes
  · exact first.roles.trans second.roles
  · exact first.types.trans second.types
  · exact first.users.trans second.users
  · exact first.bools.trans second.bools
  · exact first.levels.trans second.levels
  · exact first.cats.trans second.cats

theorem SameArrays.trans (first : SameArrays p q) (second : SameArrays q r) : SameArrays p r := by
  constructor
  · exact first.names.trans second.names
  · exact first.classes.trans second.classes
  · exact first.roles.trans second.roles
  · exact first.types.trans second.types
  · exact first.users.trans second.users
  · exact first.bools.trans second.bools

/-- A stage that changes other fields leaves what the stages before it made. -/
theorem Stages.transfer (stages : Stages q) (tables : SameTables p q) (arrays : SameArrays p q)
    (rules : p.teAvtab = q.teAvtab) (condRules : p.teCondAvtab = q.teCondAvtab)
    (condList : p.condList = q.condList) : Stages p := by
  constructor
  · obtain ⟨n, q₀, q₁, bytes, rest, read, noBools, noLevels, noCats, same⟩ := stages.tables
    exact ⟨n, q₀, q₁, bytes, rest, read, noBools, noLevels, noCats, tables.trans same⟩
  · obtain ⟨q₁, bytes, rest, read, same⟩ := stages.rules
    exact ⟨q₁, bytes, rest, by rw [rules]; exact read, tables.trans same⟩
  · rcases stages.conditionals with ⟨old, noRules, noList⟩ | ⟨q₁, q₂, bytes, rest, read, same, made⟩
    · left
      rw [tables.vers, condRules, condList]
      exact ⟨old, noRules, noList⟩
    · right
      refine ⟨q₁, q₂, bytes, rest, read, tables.trans same, ?_⟩
      rw [rules, condRules, condList]
      exact made
  · obtain ⟨q₃, q₄, indexed, same, made⟩ := stages.arrays
    exact ⟨q₃, q₄, indexed, tables.trans same, arrays.trans made⟩

end Transfer

section Read

variable {p : Policydb} {bytes rest : List U8}

theorem policydbReadHeader_empty {info : PolicydbCompatInfo}
    (read : policydbReadHeader bytes = .ok ((p, info), rest)) :
    p.pBools = symtabZero ∧ p.pLevels = symtabZero ∧ p.pCats = symtabZero := by
  rw [policydbReadHeader_made read]
  exact ⟨rfl, rfl, rfl⟩

/-- The steps after the symbol tables leave them. -/
theorem steps_tables {info : PolicydbCompatInfo} (s : RulesSteps bytes info rest) :
    SameTables s.policy s.p₁ := by
  rw [s.frame, s.condsRead.2]
  constructor <;> rfl

theorem policydbReadRules_stages {info : PolicydbCompatInfo}
    (read : policydbReadRules bytes = .ok ((p, info), rest)) : Stages p := by
  obtain ⟨s, rfl⟩ := policydbReadRules_steps read
  obtain ⟨noBools, noLevels, noCats⟩ := policydbReadHeader_empty s.header
  have tables := steps_tables s
  have rules : s.policy.teAvtab = s.teAvtab := by rw [s.frame, s.condsRead.2]
  have condTable : s.policy.teCondAvtab = s.p₂.teCondAvtab := by rw [s.frame]
  have condNodes : s.policy.condList = s.p₂.condList := by rw [s.frame]
  constructor
  · exact ⟨_, s.p₀, s.p₁, _, _, s.symtabs, noBools, noLevels, noCats, tables⟩
  · unfold RulesRead
    rw [rules]
    exact ⟨_, _, _, s.rules, tables.trans (by constructor <;> rfl)⟩
  · unfold ConditionalsRead
    rw [condTable, condNodes, rules]
    have read := s.conds
    split at read
    · exact .inr ⟨_, s.p₂, _, _, read, tables.trans (by constructor <;> rfl), rfl, rfl, rfl⟩
    · rename_i old
      left
      rw [← (ByteReader.pure_ok.mp read).1, tables.vers]
      exact ⟨BitVec.not_le.mp old, s.noConds⟩
  · have indexed : SameTables s.p₄ s.p₃ := by
      rw [(policydbIndex_ok s.index).1]
      constructor <;> rfl
    have last : SameTables s.policy s.p₄ := by constructor <;> rfl
    exact ⟨s.p₃, s.p₄, s.index, last.trans indexed, by constructor <;> rfl⟩

/-- What an accepted policy is made of, and the check it has passed. -/
theorem policydbRead_stages (read : policydbRead bytes = .ok (p, rest)) :
    Stages p ∧ policydbBoundsSanityCheck p = .ok () := by
  obtain ⟨s, rfl⟩ := policydbRead_steps read
  refine ⟨(policydbReadRules_stages s.rules).transfer ?_ ?_ rfl rfl rfl, s.checked⟩
  · constructor <;> rfl
  · constructor <;> rfl

/-- The symbol tables of an accepted policy are read right behind the header of its image. -/
theorem policydbRead_symtabs (read : policydbRead bytes = .ok (p, rest)) :
    ∃ p₀ info mid p₁ more, policydbReadHeader bytes = .ok ((p₀, info), mid) ∧
      symtabsRead info.symNum p₀ mid = .ok (p₁, more) ∧ SameTables p p₁ := by
  obtain ⟨s, rfl⟩ := policydbRead_steps read
  obtain ⟨early, made⟩ := policydbReadRules_steps s.rules
  have same : SameTables s.policy s.q := by constructor <;> rfl
  refine ⟨early.p₀, s.info, early.atTables, early.p₁, early.atRules, early.header, early.symtabs, ?_⟩
  rw [made] at same
  exact same.trans (steps_tables early)

end Read

end Ksrc.Guarantees.PolicydbStages

import Ksrc.Guarantees.LevelValidity
import Ksrc.Guarantees.PoliciesInForce
import Ksrc.Guarantees.PolicydbArrays
import Ksrc.Guarantees.SafeQueries
import Ksrc.Guarantees.SymbolTables

/-!
# What a policy in force has behind its indices

Source: `security/selinux/ss/policydb.c` (`policydb_index`, `roles_init`, `range_read` and the role
transitions of `policydb_read`), `conditional.c` (`expr_node_isvalid`, `duplicate_policydb_bools`).

The loader checks that values are at most `nprim`: those of the rules that it checks are, and the arrays
have that many slots. No check is about the slots themselves, except that the role `object_r` is always
made and that the bounds of a type are followed.
-/
namespace Ksrc.Guarantees.LoadedSlots

open Library Source PolicydbShape PolicydbStages
open PolicydbArrays PoliciesInForce SymbolTables
open EbitmapFiles NamedContexts SafeQueries

variable {p p' : Policydb} {bytes rest : List U8}

/-- An array of names and an array of data with `nprim` slots, filled at the same values. -/
structure SlotsAgree {α : Type} (nprim : U32) (names : List (Option Name)) (array : List (Option α)) :
    Prop where
  namesLength : names.length = nprim.toNat
  dataLength : array.length = nprim.toNat
  same : ∀ i : Nat, (names[i]?.join).isSome = (array[i]?.join).isSome

/-- A role transition of an accepted policy. -/
def RoleTransValid (p : Policydb) (e : RoleTransKey × RoleTransDatum) : Prop :=
  policydbClassIsvalid p e.1.tclass = true ∧ policydbRoleIsvalid p e.2.newRole = true

/-- A range transition of an accepted policy. -/
def RangeTransValid (p : Policydb) (e : RangeTrans × MlsRange) : Prop :=
  policydbClassIsvalid p e.1.targetClass = true ∧ mlsRangeIsvalid p e.2 = .ok true

/-- What the loader establishes about the tables. -/
structure TablesLoaded (p : Policydb) : Prop where
  users : SlotsAgree p.pUsers.nprim p.symValToName.users p.userValToStruct
  roles : SlotsAgree p.pRoles.nprim p.symValToName.roles p.roleValToStruct
  types : SlotsAgree p.pTypes.nprim p.symValToName.types p.typeValToStruct
  classes : SlotsAgree p.pClasses.nprim p.symValToName.classes p.classValToStruct
  levels : p.symValToName.levels.length = p.pLevels.nprim.toNat
  cats : p.symValToName.cats.length = p.pCats.nprim.toNat
  objectRole : Filled p .roles objectRVal
  bounds : ∀ value t, atValue p.typeValToStruct value = .ok (some t) → t.bounds ≠ 0 →
    ∃ upper, atValue p.typeValToStruct t.bounds = .ok (some upper)
  roleTrans : ∀ e ∈ p.roleTr.entries, RoleTransValid p e
  rangeTrans : ∀ e ∈ p.rangeTr.entries, RangeTransValid p e
  processClass : policydbClassIsvalid p (p.processClass.zeroExtend 32) = true
  levelsBuilt : ∀ e ∈ p.pLevels.table.entries, Built e.2.level.cat

/-- What the loader establishes about the booleans, and every change of them keeps. -/
structure BoolsLoaded (p : Policydb) : Prop where
  slots : p.boolValToStruct.length = p.pBools.nprim.toNat
  keys : ∀ e ∈ p.pBools.table.entries, (symtabSearch p.pBools e.1).isSome = true
  named : ∀ (i : Nat) (name : Name), p.boolValToStruct[i]? = some (some name) → ∃ d, (name, d) ∈ p.pBools.table.entries
  exprs : ∀ node ∈ p.condList, ∀ e ∈ node.expr, e.boolean ≤ p.pBools.nprim

theorem BoolsLoaded.found (loaded : BoolsLoaded p) : BoolsFound p := by
  intro i name slot
  obtain ⟨d, member⟩ := loaded.named i name slot
  exact loaded.keys _ member

section Arrays

theorem isSome_join {α : Type} {array : List (Option α)} {i : Nat} :
    (array[i]?.join).isSome = true ↔ ∃ a, array[i]? = some (some a) := by
  cases here : array[i]? with
  | none => simp
  | some entry =>
    cases entry with
    | none => simp
    | some a => simp

theorem slotsAgree_of_filed {δ : Type} {value : δ → U32} {used : δ → Bool} {s : Symtab δ}
    {names : List (Option Name)} {array : List (Option δ)}
    (filed : Filed value used (fun _ d => d) s names array) : SlotsAgree s.nprim names array := by
  refine ⟨filed.names, filed.data, fun i => ?_⟩
  rw [Bool.eq_iff_iff, isSome_join, isSome_join]
  exact filed.both

/-- The slot of the value of an entry is filled. -/
theorem filed_slot {δ α : Type} {value : δ → U32} {used : δ → Bool} {stored : Name → δ → α} {s : Symtab δ}
    {names : List (Option Name)} {array : List (Option α)} (filed : Filed value used stored s names array)
    {key : Name} {d : δ} (member : (key, d) ∈ s.table.entries) (isUsed : used d = true) :
    (value d - 1).toNat < s.nprim.toNat ∧ (array[(value d - 1).toNat]?.join).isSome = true := by
  obtain ⟨nonzero, le, key', d', slot⟩ := filed.filled key d member isUsed
  have inside : (value d - 1).toNat < s.nprim.toNat := by
    have range : (value d).toNat ≤ s.nprim.toNat := le
    have place := toNat_pred nonzero
    omega
  refine ⟨inside, isSome_join.mpr ⟨_, slot.datum ?_⟩⟩
  have length := filed.data
  dsimp only at length ⊢
  rw [length]
  exact inside

end Arrays

section Roles

/-- `object_r` is in the table from the start. -/
theorem objectRole_read {vers : U32} {s : Symtab RoleDatum}
    (read : symtabRead rolesInit (roleRead vers) bytes = .ok (s, rest)) :
    ∃ d, (objectR, d) ∈ s.table.entries ∧ d.value = objectRVal := by
  simp only [symtabRead, ByteReader.bind_ok, ByteReader.pure_ok, ByteReader.lift_ok] at read
  obtain ⟨nprim, _, -, nel, _, -, s₀, _, ⟨made, rfl⟩, s₁, _, ⟨init, rfl⟩, s₂, _, loop, rfl, rfl⟩ := read
  let Has (t : Symtab RoleDatum) : Prop :=
    TableOk t.table ∧ ∃ d, (objectR, d) ∈ t.table.entries ∧ d.value = objectRVal
  have start : Has s₁ := by
    unfold rolesInit at init
    dsimp only at init
    split at init
    · cases init
    · rename_i first
      have empty : TableOk ({ s₀ with nprim := s₀.nprim + 1 } : Symtab RoleDatum).table :=
        (symtabInit_ok made).1
      obtain ⟨-, ok, perm⟩ := symtabInsert_ok empty init
      exact ⟨ok, _, perm.mem_iff.mpr List.mem_cons_self, not_not.mp first⟩
  have kept : Has s₂ := by
    refine ByteReader.times_preserves Has (fun t bytes t' rest has once => ?_) start loop
    simp only [roleRead, ByteReader.bind_ok] at once
    obtain ⟨⟨k, d⟩, _, item, once⟩ := once
    split at once
    · simp only [ByteReader.bind_ok, ByteReader.pure_ok] at once
      obtain ⟨_, _, -, rfl, -⟩ := once
      exact has
    · obtain ⟨inserted, -⟩ := ByteReader.lift_ok.mp once
      obtain ⟨ok, role, member, value⟩ := has
      obtain ⟨-, ok', perm⟩ := symtabInsert_ok ok inserted
      exact ⟨ok', role, perm.mem_iff.mpr (List.mem_cons_of_mem _ member), value⟩
  exact kept.2

theorem objectRole_filled (stages : Stages p) : Filled p .roles objectRVal := by
  obtain ⟨n, p₀, p₁, from', after, tables, -, -, -, same⟩ := stages.tables
  obtain ⟨s, rfl⟩ := symtabsRead_steps tables
  obtain ⟨d, member, value⟩ := objectRole_read s.roles
  have here : (objectR, d) ∈ p.pRoles.table.entries := by
    rw [same.roles]
    exact member
  have slot := filed_slot (stages_arrays stages).roles here rfl
  rw [value] at slot
  exact slot

end Roles

section Bools

/-- The symbols of an accepted policy are found by their names. -/
theorem boolKeys_found (stages : Stages p) :
    ∀ e ∈ p.pBools.table.entries, (symtabSearch p.pBools e.1).isSome = true := by
  obtain ⟨n, p₀, p₁, from', after, tables, noBools, -, -, same⟩ := stages.tables
  obtain ⟨s, rfl⟩ := symtabsRead_steps tables
  have ok : TableOk s.pBools.table := by
    have boolsRead := s.bools
    split at boolsRead
    · obtain ⟨_, _, _, _, _, -, -, -, symbols⟩ := symtabRead_symbols boolsRead
      exact symbols.ok
    · rw [← (ByteReader.pure_ok.mp boolsRead).1, noBools]
      exact tableOk_empty 0 0
  have table : p.pBools = s.pBools := same.bools
  intro e member
  rw [table] at member ⊢
  rw [(symtabSearch_iff ok).mpr (show (e.1, e.2) ∈ s.pBools.table.entries from member)]
  rfl

/-- The booleans of an expression are checked against their number. -/
theorem exprBooleans_le (stages : Stages p) :
    ∀ node ∈ p.condList, ∀ e ∈ node.expr, e.boolean ≤ p.pBools.nprim := by
  rcases stages.conditionals with ⟨-, -, noList⟩ | ⟨p₁, p₂, from', after, read, same, -, -, list⟩
  · rw [noList]
    intro node member
    cases member
  rw [list, same.bools]
  simp only [condReadList, ByteReader.bind_ok, ByteReader.pure_ok] at read
  obtain ⟨len, _, -, ⟨h, nodes⟩, _, loop, rfl, -⟩ := read
  let Checked (st : Avtab × List CondNode) : Prop :=
    ∀ node ∈ st.2, ∀ e ∈ node.expr, e.boolean ≤ p₁.pBools.nprim
  have all : Checked (h, nodes) := by
    refine ByteReader.times_preserves Checked (fun st bytes st' rest before once => ?_) ?_ loop
    · simp only [condReadNode, ByteReader.bind_ok, ByteReader.pure_ok] at once
      obtain ⟨_, _, -, _, _, -, expr, _, exprRead, ⟨_, _⟩, _, -, ⟨_, _⟩, _, -, rfl, -⟩ := once
      intro node member
      rcases List.mem_append.mp member with old | new
      · exact before node old
      · cases List.mem_singleton.mp new
        show ∀ e ∈ expr, e.boolean ≤ p₁.pBools.nprim
        refine ByteReader.several_all (fun bytes e rest one => ?_) exprRead
        simp only [condReadExprNode, ByteReader.bind_ok, ByteReader.pure_ok] at one
        obtain ⟨_, _, -, boolean, _, -, _, _, valid, rfl, -⟩ := one
        have isValid := (ByteReader.require_ok.mp valid).1
        unfold exprNodeIsvalid at isValid
        simp only [Bool.and_eq_true, decide_eq_true_eq] at isValid
        exact isValid.2
    · intro node member
      cases member
  exact all

end Bools

section Transitions

variable {q : Policydb}

theorem classIsvalid_same (same : SameTables p q) (cls : U32) :
    policydbClassIsvalid p cls = policydbClassIsvalid q cls := by
  unfold policydbClassIsvalid
  rw [same.classes]

theorem roleIsvalid_same (same : SameTables p q) (role : U32) :
    policydbRoleIsvalid p role = policydbRoleIsvalid q role := by
  unfold policydbRoleIsvalid
  rw [same.roles]

theorem rangeIsvalid_same (same : SameTables p q) (arrays : SameArrays p q) (r : MlsRange) :
    mlsRangeIsvalid p r = mlsRangeIsvalid q r := by
  unfold mlsRangeIsvalid mlsLevelIsvalid
  rw [same.levels, same.cats, arrays.names]

theorem hashtabInit_entries {κ δ : Type} {nel : U32} {h : Hashtab κ δ} (made : hashtabInit nel = .ok h) :
    h.entries = [] := by
  unfold hashtabInit at made
  dsimp only at made
  split at made
  · cases made
  · cases made
    unfold Hashtab.entries
    simp

theorem roleTransRead_valid {table : Hashtab RoleTransKey RoleTransDatum}
    (read : roleTransRead p bytes = .ok (table, rest)) : ∀ e ∈ table.entries, RoleTransValid p e := by
  simp only [roleTransRead, ByteReader.bind_ok, ByteReader.lift_ok] at read
  obtain ⟨nel, _, -, empty, _, ⟨made, rfl⟩, loop⟩ := read
  refine ByteReader.times_preserves
    (fun t : Hashtab RoleTransKey RoleTransDatum => ∀ e ∈ t.entries, RoleTransValid p e)
    (fun t bytes t' rest before once => ?_) ?_ loop
  · simp only [roleTransReadOne, ByteReader.bind_ok, ByteReader.lift_ok, ByteReader.require_ok] at once
    obtain ⟨role, _, -, type, _, -, newRole, _, -, tclass, _, -, _, _, ⟨⟨-, -, cls, new⟩, rfl⟩, inserted,
      -⟩ := once
    intro e member
    rcases mem_hashtabInsert inserted member with rfl | old
    · exact ⟨cls, new⟩
    · exact before e old
  · rw [hashtabInit_entries made]
    intro e member
    cases member

theorem rangeRead_valid {table : Hashtab RangeTrans MlsRange} (noRules : p.rangeTr.entries = [])
    (read : rangeRead p bytes = .ok (table, rest)) : ∀ e ∈ table.entries, RangeTransValid p e := by
  unfold rangeRead at read
  split at read
  · rw [← (ByteReader.pure_ok.mp read).1, noRules]
    intro e member
    cases member
  simp only [ByteReader.bind_ok, ByteReader.lift_ok] at read
  obtain ⟨nel, _, -, empty, _, ⟨made, rfl⟩, loop⟩ := read
  refine ByteReader.times_preserves
    (fun t : Hashtab RangeTrans MlsRange => ∀ e ∈ t.entries, RangeTransValid p e)
    (fun t bytes t' rest before once => ?_) ?_ loop
  · simp only [rangeReadOne, ByteReader.bind_ok, ByteReader.lift_ok, ByteReader.require_ok] at once
    obtain ⟨source, _, -, target, _, -, cls, _, -, _, _, ⟨⟨-, -, clsValid⟩, rfl⟩, range, _, -, valid, _,
      ⟨isValid, rfl⟩, _, _, ⟨yes, rfl⟩, inserted, -⟩ := once
    intro e member
    rcases mem_hashtabInsert inserted member with rfl | old
    · rw [yes] at isValid
      exact ⟨clsValid, isValid⟩
    · exact before e old
  · rw [hashtabInit_entries made]
    intro e member
    cases member

/-- The role transitions are those that `policydb_read` read. -/
def RoleTransRead (p : Policydb) : Prop :=
  ∃ (q : Policydb) (bytes rest : List U8), roleTransRead q bytes = .ok (p.roleTr, rest) ∧ SameTables p q

/-- The range transitions are those that `range_read` read into an empty table. -/
def RangesRead (p : Policydb) : Prop :=
  ∃ (q : Policydb) (bytes rest : List U8), rangeRead q bytes = .ok (p.rangeTr, rest) ∧
    q.rangeTr.entries = [] ∧ SameTables p q ∧ SameArrays p q

/-- The transitions of an accepted policy were read against its symbol tables. -/
theorem policydbRead_transStages (read : policydbRead bytes = .ok (p, rest)) :
    RoleTransRead p ∧ RangesRead p := by
  obtain ⟨s, rfl⟩ := policydbRead_steps read
  obtain ⟨early, made⟩ := policydbReadRules_steps s.rules
  constructor
  · have table : early.policy.roleTr = early.roleTr := by rw [early.frame]
    have same : SameTables early.policy early.p₂ := by
      rw [early.frame]
      constructor <;> rfl
    have last : SameTables s.policy s.q := by constructor <;> rfl
    refine ⟨early.p₂, early.atRoles, early.atAllows, ?_, ?_⟩
    · show roleTransRead early.p₂ early.atRoles = .ok (s.q.roleTr, early.atAllows)
      rw [made, table]
      exact early.roleTrans
    · rw [made] at last
      exact last.trans same
  · have noRules : s.q.rangeTr.entries = [] := by
      rw [made, early.frame, early.condsRead.2, (symtabsRead_ok early.symtabs).1,
        policydbReadHeader_made early.header]
      rfl
    refine ⟨s.q, s.atRanges, s.atAttrs, s.ranges, noRules, ?_, ?_⟩
    · constructor <;> rfl
    · constructor <;> rfl

/-- The transitions of an accepted policy are checked when they are read. -/
theorem policydbRead_transitions (read : policydbRead bytes = .ok (p, rest)) :
    (∀ e ∈ p.roleTr.entries, RoleTransValid p e) ∧ ∀ e ∈ p.rangeTr.entries, RangeTransValid p e := by
  obtain ⟨⟨q, _, _, roles, same⟩, q', _, _, ranges, noRules, same', arrays⟩ :=
    policydbRead_transStages read
  constructor
  · intro e member
    obtain ⟨cls, new⟩ := roleTransRead_valid roles e member
    rw [← classIsvalid_same same] at cls
    rw [← roleIsvalid_same same] at new
    exact ⟨cls, new⟩
  · intro e member
    obtain ⟨cls, range⟩ := rangeRead_valid noRules ranges e member
    rw [← classIsvalid_same same'] at cls
    rw [← rangeIsvalid_same same' arrays] at range
    exact ⟨cls, range⟩

end Transitions

section Loading

theorem processClass_valid (shape : PolicyShape p) :
    policydbClassIsvalid p (p.processClass.zeroExtend 32) = true := by
  have perms := shape.transPerms
  unfold processTransPerms at perms
  obtain ⟨perm, found, named⟩ := exceptBind_ok.mp perms
  unfold stringToAvPerm at found
  split at found
  · cases found
    cases named
  · rename_i known
    obtain ⟨nonzero, inside⟩ := not_or.mp known
    unfold policydbClassIsvalid valueIsvalid
    rw [Bool.and_eq_true, decide_eq_true_eq, decide_eq_true_eq]
    refine ⟨fun zero => nonzero ?_, BitVec.not_lt.mp inside⟩
    refine BitVec.eq_of_toNat_eq ?_
    have value := congrArg BitVec.toNat zero
    have small := p.processClass.isLt
    rw [BitVec.toNat_setWidth] at value
    change p.processClass.toNat % 2 ^ 32 = 0 at value
    change p.processClass.toNat = 0
    omega

theorem bounds_filled (shape : PolicyShape p) {value : U32} {t : TypeDatum}
    (read : atValue p.typeValToStruct value = .ok (some t)) (bounded : t.bounds ≠ 0) :
    ∃ upper, atValue p.typeValToStruct t.bounds = .ok (some upper) := by
  have inArray : some t ∈ p.typeValToStruct := by
    unfold atValue at read
    split at read
    · rename_i here
      cases read
      exact List.mem_of_getElem? here
    · cases read
  have passed := shape.typeBounds t inArray
  unfold boundsLoop at passed
  rw [if_neg bounded] at passed
  have some_ : policydbBoundsMaxdepth - 1 = 3 := rfl
  rw [some_] at passed
  obtain ⟨entry, read, passed⟩ := exceptBind_ok.mp passed
  obtain ⟨upper, pointer, -⟩ := exceptBind_ok.mp passed
  cases entry with
  | none => cases pointer
  | some _ =>
    cases pointer
    exact ⟨upper, read⟩

theorem policydbRead_tables (read : policydbRead bytes = .ok (p, rest)) : TablesLoaded p := by
  obtain ⟨stages, -⟩ := policydbRead_stages read
  have arrays := stages_arrays stages
  have shape := policydbRead_shape read
  obtain ⟨roles, ranges⟩ := policydbRead_transitions read
  constructor
  · exact slotsAgree_of_filed arrays.users
  · exact slotsAgree_of_filed arrays.roles
  · exact slotsAgree_of_filed arrays.types
  · exact slotsAgree_of_filed arrays.classes
  · exact arrays.levels.names
  · exact arrays.cats.names
  · exact objectRole_filled stages
  · exact fun value t slot bounded => bounds_filled shape slot bounded
  · exact roles
  · exact ranges
  · exact processClass_valid shape
  · exact LevelValidity.levels_built read

theorem policydbRead_bools (read : policydbRead bytes = .ok (p, rest)) : BoolsLoaded p := by
  obtain ⟨stages, -⟩ := policydbRead_stages read
  have filed := (stages_arrays stages).bools
  constructor
  · exact filed.data
  · exact boolKeys_found stages
  · intro i name slot
    obtain ⟨key, d, member, -, -, rfl⟩ := filed.entry slot
    exact ⟨d, member⟩
  · exact exprBooleans_le stages

/-- Only the booleans and the conditional rules change. -/
theorem TablesLoaded.same (loaded : TablesLoaded p) (same : SameRules p p') : TablesLoaded p' := by
  unfold SameRules at same
  generalize p'.pBools = bools, p'.boolValToStruct = array, p'.condList = list,
    p'.teCondAvtab = table at same
  subst same
  constructor
  · exact loaded.users
  · exact loaded.roles
  · exact loaded.types
  · exact loaded.classes
  · exact loaded.levels
  · exact loaded.cats
  · exact loaded.objectRole
  · exact loaded.bounds
  · exact loaded.roleTrans
  · exact loaded.rangeTrans
  · exact loaded.processClass
  · exact loaded.levelsBuilt

/-- Every policy in force has the tables of an accepted one. -/
theorem inForce_tables (inForce : InForce p) : TablesLoaded p := by
  induction inForce with
  | loaded read => exact policydbRead_tables read
  | reloaded _ read kept _ =>
    have shape := policydbRead_shape read
    exact (policydbRead_tables read).same (securityPreserveBools_ok shape.teCondAvtab kept).1
  | switched _ set loaded => exact loaded.same (securitySetBools_ok set).1

theorem TablesLoaded.objectSlot (loaded : TablesLoaded p) :
    ∃ role, atValue p.roleValToStruct objectRVal = .ok (some role) := by
  obtain ⟨role, -, slot⟩ := atValue_of_held loaded.objectRole.2
  exact ⟨role, slot⟩

/-- The role of a valid context is there. -/
theorem TablesLoaded.roleSlot (loaded : TablesLoaded p) {c : Context}
    (valid : policydbContextIsvalid p c = .ok true) :
    ∃ role, atValue p.roleValToStruct c.role = .ok (some role) := by
  by_cases object : c.role = objectRVal
  · rw [object]
    exact loaded.objectSlot
  · unfold policydbContextIsvalid at valid
    split at valid
    · cases valid
    split at valid
    · cases valid
    split at valid
    · cases valid
    cases slot : atValue p.roleValToStruct c.role with
    | error f =>
      rw [slot] at valid
      cases valid
    | ok entry =>
      cases entry with
      | none =>
        rw [slot] at valid
        cases valid
      | some role => exact ⟨role, rfl⟩

end Loading

end Ksrc.Guarantees.LoadedSlots

import Ksrc.Guarantees.BooleanStates
import Ksrc.Guarantees.ContextFiles
import Ksrc.Guarantees.SymbolFiles

/-!
# The symbol tables of a policy in force

Source: `security/selinux/ss/policydb.c` (the loops over the symbol tables in `policydb_read` and
`policydb_write`).

A change of the booleans changes the states in their table and nothing else of it, so each table of a policy
in force is one that was read.
-/
namespace Ksrc.Guarantees.SymtabFiles

open Library Source BooleanStates ContextFiles
  HashtabFiles PoliciesInForce PolicyCodecs
  PolicydbShape PolicyImages SymbolFiles

variable {p p' : Policydb} {bytes rest : List U8}

section Booleans

variable {κ δ : Type} {params : HashtabKeyParams κ} {set : κ × δ → κ × δ} {bools : Symtab CondBoolDatum}

/-- New data under the keys of a table. -/
theorem settled_map (keeps : ∀ e, (set e).1 = e.1) {h : Hashtab κ δ} (settled : Settled params h) {nel : Nat}
    (same : nel = h.nel) : Settled params { htable := h.htable.map (·.map set), nel } := by
  have size : Hashtab.size { htable := h.htable.map (·.map set), nel } = h.size := by
    unfold Hashtab.size
    rw [List.length_map]
  have chain (i : Nat) : (h.htable.map (·.map set)).getD i [] = (h.htable.getD i []).map set := by
    rw [List.getD_eq_getElem?_getD, List.getD_eq_getElem?_getD, List.getElem?_map]
    cases h.htable[i]? with
    | none => rfl
    | some chain => rfl
  subst same
  refine ⟨size.trans settled.size, size ▸ settled.fits, ?_, settled.counted, fun i e member => ?_, fun i => ?_⟩
  · rw [entries_map, List.length_map]
    exact settled.count
  · rw [chain] at member
    obtain ⟨old, before, rfl⟩ := List.mem_map.mp member
    rw [keeps, ← settled.slot i old before]
    exact OrderedChains.hashtabSlot_size size old.1
  · rw [chain]
    refine List.pairwise_map.mpr ((settled.ascending i).imp fun less => ?_)
    rw [keeps, keeps]
    exact less

/-- The booleans of a policy in force are in their table as they were read, but for their states. -/
structure BoolsStored (bools : Symtab CondBoolDatum) : Prop where
  settled : Settled symtabKeyParams bools.table
  names : ∀ e ∈ bools.table.entries, e.1 ≠ [] → Stored e.1

theorem BoolsStored.map {set : Name × CondBoolDatum → Name × CondBoolDatum} (keeps : ∀ e, (set e).1 = e.1)
    (stored : BoolsStored bools) {nel : Nat} (same : nel = bools.table.nel) {nprim : U32} :
    BoolsStored { table := { htable := bools.table.htable.map (·.map set), nel }, nprim } := by
  refine ⟨settled_map keeps stored.settled same, fun e member some => ?_⟩
  change e ∈ Hashtab.entries { htable := bools.table.htable.map (·.map set), nel } at member
  rw [entries_map] at member
  obtain ⟨old, before, rfl⟩ := List.mem_map.mp member
  rw [keeps] at some ⊢
  exact stored.names old before some

theorem boolSetState_stored (stored : BoolsStored bools) (name : Name) (state : U32) :
    BoolsStored (boolSetState bools name state) :=
  stored.map (withState_key name state) rfl

theorem preserveBools_stored {states : List (Name × U32)} (stored : BoolsStored bools) :
    BoolsStored (states.foldl preserveBool bools) := by
  induction states generalizing bools with
  | nil => exact stored
  | cons e states ih =>
    refine ih ?_
    unfold preserveBool
    split
    · exact stored
    · exact boolSetState_stored stored e.1 e.2

theorem setBoolStates_stored {values : List U32} {i : Nat} (stored : BoolsStored p.pBools)
    (set : setBoolStates values i p = .ok p') : BoolsStored p'.pBools := by
  induction values generalizing i p with
  | nil =>
    cases set
    exact stored
  | cons value values ih =>
    unfold setBoolStates at set
    split at set
    · exact ih (boolSetState_stored stored _ _) set
    · cases set

theorem evaluateCondNodes_bools (done : evaluateCondNodes p = .ok p') : p'.pBools = p.pBools := by
  unfold evaluateCondNodes at done
  split at done
  · cases done
  · cases done
    rfl

theorem condPolicydbDup_stored (stored : BoolsStored p.pBools) (copied : condPolicydbDup p = .ok p') :
    BoolsStored p'.pBools := by
  have copy : BoolsStored { table := hashtabDuplicate (fun orig => orig) p.pBools.table, nprim := p.pBools.nprim } :=
    stored.map (fun _ => rfl) stored.settled.count.symm
  unfold condPolicydbDup duplicatePolicydbBools at copied
  dsimp only at copied
  split at copied
  · cases copied
  · rename_i bools
    split at bools
    · cases bools
    · cases bools
      unfold duplicatePolicydbCondList at copied
      split at copied
      · cases copied
      · cases copied
        exact copy

theorem securitySetBools_stored {values : List U32} (stored : BoolsStored p.pBools)
    (set : securitySetBools p values = .ok p') : BoolsStored p'.pBools := by
  unfold securitySetBools at set
  split at set
  · cases set
  split at set
  · cases set
  · rename_i copied
    split at set
    · cases set
    · rename_i states
      rw [evaluateCondNodes_bools set]
      exact setBoolStates_stored (condPolicydbDup_stored stored copied) states

theorem securityPreserveBools_stored {old : Policydb} (stored : BoolsStored p.pBools)
    (done : securityPreserveBools old p = .ok p') : BoolsStored p'.pBools := by
  unfold securityPreserveBools at done
  split at done
  · cases done
  · rw [evaluateCondNodes_bools done]
    exact preserveBools_stored stored

end Booleans

section Tables

/-- The symbol tables as they were read. -/
structure TablesStored (p : Policydb) : Prop where
  commons : SymtabStored commonReadDatum p.pCommons
  classes : SymtabStored (classReadDatum p.policyvers p.pCommons) p.pClasses
  roles : RolesStored p.policyvers p.pRoles
  types : SymtabStored (typeReadDatum p.policyvers) p.pTypes
  users : SymtabStored (userReadDatum p.policyvers) p.pUsers
  bools : BoolsStored p.pBools
  levels : SymtabStored sensReadDatum p.pLevels
  cats : SymtabStored catReadDatum p.pCats

/-- Versions with levels have all the tables. -/
theorem compat_tables {vers : U32} {info : PolicydbCompatInfo} (mls : policydbVersionMls ≤ vers)
    (found : policydbLookupCompat vers = some info) : info.symNum = symNum := by
  unfold policydbLookupCompat at found
  have all : policydbCompat.all fun info => decide (policydbVersionMls ≤ info.version → info.symNum = symNum) := by
    decide
  have version : info.version = vers := by
    have same := List.find?_some found
    simpa using same
  have here := of_decide_eq_true (List.all_eq_true.mp all info (List.mem_of_find?_eq_some found))
  rw [version] at here
  exact here mls

theorem boolsStored_read (stored : SymtabStored condReadBoolDatum p.pBools) : BoolsStored p.pBools := by
  refine ⟨stored.settled, fun e member some => ?_⟩
  obtain ⟨_, _, read⟩ := stored.each e member
  exact boolRead_name read some

theorem symtabsRead_stored {q : Policydb} (read : symtabsRead symNum q bytes = .ok (p, rest)) : TablesStored p := by
  obtain ⟨s, rfl⟩ := symtabsRead_steps read
  have bools := s.bools
  have levels := s.levels
  have cats := s.cats
  rw [if_pos (by decide)] at bools levels cats
  exact ⟨symtab_stored s.commons, symtab_stored s.classes, roles_stored s.roles, symtab_stored s.types,
    symtab_stored s.users, boolsStored_read (p := s.policy) (symtab_stored bools), symtab_stored levels,
    symtab_stored cats⟩

theorem policydbRead_tables (read : policydbRead bytes = .ok (p, rest)) (mls : policydbVersionMls ≤ p.policyvers) :
    TablesStored p := by
  obtain ⟨s, rfl⟩ := policydbRead_steps read
  obtain ⟨r, made⟩ := policydbReadRules_steps s.rules
  have same : s.q = r.policy := made
  have frame := r.frame
  rw [r.condsRead.2] at frame
  have vers : s.policy.policyvers = r.p₁.policyvers := by
    change s.q.policyvers = _
    rw [same, frame]
  have header := (symtabsRead_ok r.symtabs).1
  have compat := policydbReadHeader_compat r.header
  have versions : r.p₁.policyvers = r.p₀.policyvers := by rw [header]
  have tables := r.symtabs
  rw [compat_tables (by rw [← versions, ← vers]; exact mls) compat] at tables
  have stored := symtabsRead_stored tables
  have whole : s.policy.pCommons = r.p₁.pCommons ∧ s.policy.pClasses = r.p₁.pClasses ∧
      s.policy.pRoles = r.p₁.pRoles ∧ s.policy.pTypes = r.p₁.pTypes ∧ s.policy.pUsers = r.p₁.pUsers ∧
      s.policy.pBools = r.p₁.pBools ∧ s.policy.pLevels = r.p₁.pLevels ∧ s.policy.pCats = r.p₁.pCats := by
    change s.q.pCommons = _ ∧ s.q.pClasses = _ ∧ s.q.pRoles = _ ∧ s.q.pTypes = _ ∧ s.q.pUsers = _ ∧
      s.q.pBools = _ ∧ s.q.pLevels = _ ∧ s.q.pCats = _
    rw [same, frame]
    exact ⟨rfl, rfl, rfl, rfl, rfl, rfl, rfl, rfl⟩
  obtain ⟨commons, classes, roles, types, users, bools, levels, cats⟩ := whole
  constructor
  · rw [commons]
    exact stored.commons
  · rw [vers, commons, classes]
    exact stored.classes
  · rw [vers, roles]
    exact stored.roles
  · rw [vers, types]
    exact stored.types
  · rw [vers, users]
    exact stored.users
  · rw [bools]
    exact stored.bools
  · rw [levels]
    exact stored.levels
  · rw [cats]
    exact stored.cats

theorem TablesStored.switched (stored : TablesStored p) (same : SameRules p p') (bools : BoolsStored p'.pBools) :
    TablesStored p' := by
  unfold SameRules at same
  rw [same]
  exact ⟨stored.commons, stored.classes, stored.roles, stored.types, stored.users, bools, stored.levels, stored.cats⟩

/-- The symbol tables of every policy in force. -/
theorem inForce_tables (inForce : InForce p) (mls : policydbVersionMls ≤ p.policyvers) : TablesStored p := by
  induction inForce with
  | loaded read => exact policydbRead_tables read mls
  | @reloaded old p p' bytes rest _ read kept _ =>
    have same := (securityPreserveBools_ok (policydbRead_shape read).teCondAvtab kept).1
    have vers : p'.policyvers = p.policyvers := by
      unfold SameRules at same
      rw [same]
    have stored := policydbRead_tables read (vers ▸ mls)
    exact stored.switched same (securityPreserveBools_stored stored.bools kept)
  | @switched p p' values _ set before =>
    have same := (securitySetBools_ok set).1
    have vers : p'.policyvers = p.policyvers := by
      unfold SameRules at same
      rw [same]
    have stored := before (vers ▸ mls)
    exact stored.switched same (securitySetBools_stored stored.bools set)

/-- Symbols with names that are not empty and bitmaps that have no empty nodes; a table of the roles that was
made for as many roles as it has. -/
structure TablesOrdinary (p : Policydb) : Prop where
  commons : ∀ e ∈ p.pCommons.table.entries, e.1 ≠ [] ∧ ∀ perm ∈ e.2.permissions.table.entries, perm.1 ≠ []
  classes : ∀ e ∈ p.pClasses.table.entries, ClassOrdinary e
  roles : ∀ e ∈ p.pRoles.table.entries, RoleOrdinary e
  rolesSized : p.pRoles.table.size = hashtabComputeSize (BitVec.ofNat 32 p.pRoles.table.nel)
  types : ∀ e ∈ p.pTypes.table.entries, e.1 ≠ []
  users : ∀ e ∈ p.pUsers.table.entries, UserOrdinary e
  bools : ∀ e ∈ p.pBools.table.entries, e.1 ≠ []
  levels : ∀ e ∈ p.pLevels.table.entries, e.1 ≠ [] ∧ LevelStored e.2.level
  cats : ∀ e ∈ p.pCats.table.entries, e.1 ≠ []

/-- A policy with the symbol tables of another. -/
def withTables (q p : Policydb) : Policydb :=
  { q with
    pCommons := p.pCommons, pClasses := p.pClasses, pRoles := p.pRoles, pTypes := p.pTypes, pUsers := p.pUsers
    pBools := p.pBools, pLevels := p.pLevels, pCats := p.pCats }

theorem symtabs_carry {q : Policydb} (vers : q.policyvers = p.policyvers) (mls : policydbVersionMls ≤ p.policyvers)
    (stored : TablesStored p) (ordinary : TablesOrdinary p)
    (states : ∀ e ∈ p.pBools.table.entries, e.2.state = 0 ∨ e.2.state = 1) :
    Carries einval (symtabsWrite symNum p) (symtabsRead symNum q) (withTables q p) := by
  have classes := stored.classes
  have roles := stored.roles
  have types := stored.types
  have users := stored.users
  unfold symtabsWrite symtabsRead
  rw [← vers] at mls classes roles types users ⊢
  rw [if_pos (by decide), if_pos (by decide), if_pos (by decide)]
  refine (symtab_carries stored.commons.settled fun e member => ?_).cons
    ((symtab_carries classes.settled fun e member => ?_).cons
    ((roles_carry roles ordinary.rolesSized ordinary.roles).cons
    ((symtab_carries types.settled fun e member => ?_).cons
    ((symtab_carries users.settled fun e member => ?_).cons
    ((symtab_carries stored.bools.settled fun e member => ?_).cons
    ((symtab_carries stored.levels.settled fun e member => ?_).cons ?_))))))
  · obtain ⟨_, _, read⟩ := stored.commons.each e member
    obtain ⟨name, perms⟩ := ordinary.commons e member
    exact common_carries read name perms
  · obtain ⟨_, _, read⟩ := classes.each e member
    exact class_carries mls read (ordinary.classes e member)
  · obtain ⟨_, _, read⟩ := types.each e member
    exact type_carries read (ordinary.types e member)
  · obtain ⟨_, _, read⟩ := users.each e member
    exact user_carries mls read (ordinary.users e member)
  · exact bool_carries (stored.bools.names e member (ordinary.bools e member)) (states e member)
  · obtain ⟨_, _, read⟩ := stored.levels.each e member
    obtain ⟨name, level⟩ := ordinary.levels e member
    exact sens_carries read name level
  · have cats : Carries einval (symtabWrite catWrite p.pCats) (symtabRead .ok (symRead catReadDatum)) p.pCats :=
      symtab_carries stored.cats.settled fun e member => by
        obtain ⟨_, _, read⟩ := stored.cats.each e member
        exact cat_carries read (ordinary.cats e member)
    exact (cats.map (g := fun pCats => { withTables q p with pCats })).last

/-- Bitmaps that are empty, and no name that is empty. -/
def plainConstraint (c : ConstraintNode) : Bool :=
  c.expr.all fun e => e.names == ebitmapInit &&
    e.typeNames.all fun t => t.types == ebitmapInit && t.negset == ebitmapInit

def plainTables (p : Policydb) : Bool :=
  (p.pCommons.table.entries.all fun e => e.1 != [] && e.2.permissions.table.entries.all (·.1 != [])) &&
    (p.pClasses.table.entries.all fun e => e.1 != [] && e.2.comkey != some [] &&
      e.2.permissions.table.entries.all (·.1 != []) && e.2.constraints.all plainConstraint &&
      e.2.validatetrans.all plainConstraint) &&
    (p.pRoles.table.entries.all fun e => e.1 != [] && e.2.dominates == ebitmapInit && e.2.types == ebitmapInit) &&
    p.pRoles.table.size == hashtabComputeSize (BitVec.ofNat 32 p.pRoles.table.nel) &&
    p.pTypes.table.entries.all (·.1 != []) &&
    (p.pUsers.table.entries.all fun e => e.1 != [] && e.2.roles == ebitmapInit && e.2.range.low.cat == ebitmapInit &&
      e.2.range.high.cat == ebitmapInit && e.2.dfltlevel.cat == ebitmapInit) &&
    p.pBools.table.entries.all (·.1 != []) &&
    (p.pLevels.table.entries.all fun e => e.1 != [] && e.2.level.cat == ebitmapInit) &&
    p.pCats.table.entries.all (·.1 != [])

theorem empty_bitmap {e : Ebitmap} (empty : e = ebitmapInit) : BitmapStored e := by
  have level := empty_stored (l := ⟨0, e⟩) empty
  exact ⟨level.canonical, level.small⟩

theorem plainConstraint_ordinary {c : ConstraintNode} (plain : plainConstraint c = true) : ConstraintOrdinary c := by
  simp only [plainConstraint, List.all_eq_true, Bool.and_eq_true, beq_iff_eq] at plain
  refine ⟨fun e member => empty_bitmap (plain e member).1, fun e member t typed => ?_⟩
  have types := (plain e member).2
  rw [typed, Option.all_some] at types
  simp only [Bool.and_eq_true, beq_iff_eq] at types
  exact ⟨empty_bitmap types.1, empty_bitmap types.2⟩

theorem plainTables_ordinary (plain : plainTables p = true) : TablesOrdinary p := by
  simp only [plainTables, Bool.and_eq_true, List.all_eq_true, bne_iff_ne, beq_iff_eq] at plain
  obtain ⟨⟨⟨⟨⟨⟨⟨⟨commons, classes⟩, roles⟩, sized⟩, types⟩, users⟩, bools⟩, levels⟩, cats⟩ := plain
  refine ⟨commons, fun e member => ?_, fun e member => ?_, sized, types, fun e member => ?_, bools,
    fun e member => ⟨(levels e member).1, empty_stored (levels e member).2⟩, cats⟩
  · obtain ⟨⟨⟨⟨name, comkey⟩, perms⟩, constraints⟩, validatetrans⟩ := classes e member
    exact ⟨name, comkey, perms, fun c inside => plainConstraint_ordinary (constraints c inside),
      fun c inside => plainConstraint_ordinary (validatetrans c inside)⟩
  · obtain ⟨⟨name, dominates⟩, types⟩ := roles e member
    exact ⟨name, empty_bitmap dominates, empty_bitmap types⟩
  · obtain ⟨⟨⟨⟨name, roles⟩, low⟩, high⟩, dfltlevel⟩ := users e member
    exact ⟨name, empty_bitmap roles, ⟨empty_stored low, empty_stored high⟩, empty_stored dfltlevel⟩

/-- A class with a constraint, under a common. -/
def filedClass : List U8 :=
  word 4 ++ word 2 ++ word 2 ++ word 0 ++ word 0 ++ word 1 ++ cstr ['f', 'i', 'l', 'e'] ++ cstr ['i', 'o'] ++
    word 1 ++ word 1 ++ word cexprAttr.toNat ++ word cexprUser.toNat ++ word cexprEq.toNat ++ word 0 ++
    word 1 ++ word 0 ++ word 0 ++ word 0

/-- A common, two booleans, a level and a category. -/
def tablesImage : PolicyImage :=
  { smallImage with
    commons := symbols 1 [word 2 ++ word 1 ++ word 1 ++ word 1 ++ cstr ['i', 'o'] ++ permBytes 1 (cstr ['r'])]
    classes := symbols 2 [processClass, filedClass]
    bools := symbols 2 [boolBytes 1 0 (cstr ['c']), boolBytes 2 1 (cstr ['d'])]
    levels := symbols 1 [sensBytes 1 (cstr ['s']) emptyBitmap]
    cats := symbols 1 [catBytes 1 (cstr ['k'])] }

def tablesTest (p : Policydb) : Bool :=
  p.policyvers == 33 && (securitySetBools p [1, 0]).toOption.any fun p' => p'.policyvers == 33 && plainTables p' &&
    p'.pBools.table.entries.map (fun e => e.2.state) == [0, 1]

end Tables

end Ksrc.Guarantees.SymtabFiles

import Ksrc.Guarantees.BoundsChains
import Ksrc.Guarantees.EbitmapFiles
import Ksrc.Guarantees.PolicyImages
import Ksrc.Guarantees.PolicydbArrays

/-!
# The bounds check

Source: `security/selinux/ss/policydb.c` (`policydb_bounds_sanity_check`, `policydb_read`).

The check visits every entry of the tables of users, roles and types. The index functions have looked
at the bounds of roles, users and primary types only, and not at all at whether there is a datum with
the value, so an alias, or a value without a datum, leads the check out of an array or to a `NULL`.
-/
namespace Ksrc.Guarantees.BoundsCheck

open Library Source BoundsChains EbitmapBits
  EbitmapFiles PolicyImages PolicydbArrays
  PolicydbShape PolicydbStages

/-- `policydb_read` up to `policydb_bounds_sanity_check`. -/
def policydbReadToBounds : PolicyReader Policydb := do
  let (p, info) ← policydbReadRules
  let ocontexts ← ocontextRead p info
  let genfs ← genfsRead p
  let rangeTr ← rangeRead p
  let typeAttrMapArray ← typeAttrMapsRead p.policyvers p.pTypes.nprim.toNat 0
  pure { p with ocontexts, genfs, rangeTr, typeAttrMapArray }

section Reading

variable {p : Policydb} {bytes rest : List U8}

/-- An image is accepted when it reaches the check and passes it. -/
theorem policydbRead_iff : policydbRead bytes = .ok (p, rest) ↔
    policydbReadToBounds bytes = .ok (p, rest) ∧ policydbBoundsSanityCheck p = .ok () := by
  simp only [policydbRead, policydbReadToBounds, ByteReader.bind_ok, ByteReader.pure_ok,
    ByteReader.lift_ok]
  constructor
  · rintro ⟨⟨q, info⟩, _, rules, ocontexts, _, readO, genfs, _, readG, ranges, _, readR, attrs, _, readA,
      u, _, ⟨checked, rfl⟩, rfl, rfl⟩
    exact ⟨⟨(q, info), _, rules, ocontexts, _, readO, genfs, _, readG, ranges, _, readR, attrs, _, readA,
      rfl, rfl⟩, checked⟩
  · rintro ⟨⟨⟨q, info⟩, _, rules, ocontexts, _, readO, genfs, _, readG, ranges, _, readR, attrs, _,
      readA, rfl, rfl⟩, checked⟩
    exact ⟨(q, info), _, rules, ocontexts, _, readO, genfs, _, readG, ranges, _, readR, attrs, _, readA,
      (), _, ⟨checked, rfl⟩, rfl, rfl⟩

theorem readToBounds_stages (read : policydbReadToBounds bytes = .ok (p, rest)) : Stages p := by
  simp only [policydbReadToBounds, ByteReader.bind_ok, ByteReader.pure_ok] at read
  obtain ⟨⟨q, info⟩, _, rules, _, _, -, _, _, -, _, _, -, _, _, -, rfl, -⟩ := read
  refine (policydbReadRules_stages rules).transfer ?_ ?_ rfl rfl rfl
  · constructor <;> rfl
  · constructor <;> rfl

/-- What is read of a user or role: its bitmap is built, and it has no bounds in versions without. -/
structure ReadDatum (vers bounds : U32) (map : Ebitmap) : Prop where
  built : Built map
  old : vers < policydbVersionBoundary → bounds = 0

theorem boundsRead_old {vers bounds : U32} (read : boundsRead vers bytes = .ok (bounds, rest))
    (old : vers < policydbVersionBoundary) : bounds = 0 := by
  unfold boundsRead at read
  rw [if_neg (BitVec.not_le.mpr old)] at read
  exact (ByteReader.pure_ok.mp read).1.symm

theorem userReadDatum_ok {vers : U32} {name : Name} {d : UserDatum}
    (read : userReadDatum vers bytes = .ok ((name, d), rest)) : ReadDatum vers d.bounds d.roles := by
  simp only [userReadDatum, ByteReader.bind_ok, ByteReader.pure_ok] at read
  obtain ⟨_, _, -, _, _, -, bounds, _, readB, _, _, -, roles, _, readR, ⟨_, _⟩, _, -, made, -⟩ := read
  cases made
  exact ⟨ebitmapRead_built readR, boundsRead_old readB⟩

theorem roleReadDatum_ok {vers : U32} {name : Name} {d : RoleDatum}
    (read : roleReadDatum vers bytes = .ok ((name, d), rest)) : ReadDatum vers d.bounds d.types := by
  simp only [roleReadDatum, ByteReader.bind_ok, ByteReader.pure_ok] at read
  obtain ⟨_, _, -, _, _, -, bounds, _, readB, _, _, -, _, _, -, types, _, readT, made, -⟩ := read
  cases made
  exact ⟨ebitmapRead_built readT, boundsRead_old readB⟩

/-- The roles that are read, and `object_r`. -/
theorem rolesRead_entries {vers : U32} {s : Symtab RoleDatum}
    (read : symtabRead rolesInit (roleRead vers) bytes = .ok (s, rest)) :
    ∀ e ∈ s.table.entries, ReadDatum vers e.2.bounds e.2.types := by
  simp only [symtabRead, ByteReader.bind_ok, ByteReader.pure_ok, ByteReader.lift_ok] at read
  obtain ⟨nprim, _, -, nel, _, -, s₀, _, ⟨made, rfl⟩, s₁, _, ⟨init, rfl⟩, s₂, _, loop, rfl, rfl⟩ := read
  have start : ∀ e ∈ s₁.table.entries, ReadDatum vers e.2.bounds e.2.types := by
    unfold rolesInit at init
    dsimp only at init
    split at init
    · cases init
    · intro e member
      rcases mem_symtabInsert init member with rfl | old
      · exact ⟨init_built, fun _ => rfl⟩
      · rw [symtabInit_entries made] at old
        cases old
  suffices kept : ∀ e ∈ s₂.table.entries, ReadDatum vers e.2.bounds e.2.types from kept
  refine ByteReader.times_preserves
    (fun t : Symtab RoleDatum => ∀ e ∈ t.table.entries, ReadDatum vers e.2.bounds e.2.types)
    (fun t bytes t' rest ok once => ?_) start loop
  simp only [roleRead, ByteReader.bind_ok] at once
  obtain ⟨⟨k, d⟩, _, item, once⟩ := once
  split at once
  · simp only [ByteReader.bind_ok, ByteReader.pure_ok] at once
    obtain ⟨_, _, -, rfl, -⟩ := once
    exact ok
  · obtain ⟨inserted, -⟩ := ByteReader.lift_ok.mp once
    intro e member
    rcases mem_symtabInsert inserted member with rfl | old
    · exact roleReadDatum_ok item
    · exact ok e old

/-- What the check relies on in the three tables. -/
structure BoundsTables (p : Policydb) : Prop where
  users : ∀ e ∈ p.pUsers.table.entries, ReadDatum p.policyvers e.2.bounds e.2.roles
  roles : ∀ e ∈ p.pRoles.table.entries, ReadDatum p.policyvers e.2.bounds e.2.types
  types : p.policyvers < policydbVersionBoundary → ∀ e ∈ p.pTypes.table.entries, e.2.bounds = 0

theorem stages_boundsTables (stages : Stages p) : BoundsTables p := by
  obtain ⟨n, p₀, p₁, from', after, tables, -, -, -, same⟩ := stages.tables
  have vers : p.policyvers = p₀.policyvers := by
    rw [same.vers, (symtabsRead_ok tables).1]
  constructor
  · rw [same.users, vers]
    obtain ⟨s, rfl⟩ := symtabsRead_steps tables
    exact @symtabRead_entries _ _ (fun d : UserDatum => ReadDatum p₀.policyvers d.bounds d.roles) _ _ _
      (fun _ _ _ _ item => userReadDatum_ok item) s.users
  · rw [same.roles, vers]
    obtain ⟨s, rfl⟩ := symtabsRead_steps tables
    exact rolesRead_entries s.roles
  · rw [same.types, vers]
    exact (symtabsRead_ok tables).2

end Reading

/-- The roles of a user are roles of an ancestor. -/
def RolesWithin (user upper : UserDatum) : Prop :=
  ∀ role, InBitmap user.roles role → InBitmap upper.roles role

/-- The types of a role are types of an ancestor. -/
def TypesWithin (role upper : RoleDatum) : Prop :=
  ∀ type, InBitmap role.types type → InBitmap upper.types type

/-- A bounding type is no attribute. -/
def NoAttribute (upper : TypeDatum) : Prop := upper.isAttribute = 0

section Properties

variable (p : Policydb)

/-- The links that a chain may have. -/
def maxLinks : Nat := policydbBoundsMaxdepth - 1

def UserNested (d : UserDatum) : Prop :=
  Nested UserDatum.bounds p.userValToStruct (RolesWithin d) maxLinks d

def RoleNested (d : RoleDatum) : Prop :=
  Nested RoleDatum.bounds p.roleValToStruct (TypesWithin d) maxLinks d

def TypeNested (d : TypeDatum) : Prop :=
  Nested TypeDatum.bounds p.typeValToStruct NoAttribute maxLinks d

/-- The bounds that the check comes to from a user lead to users. -/
def UserLinked (d : UserDatum) : Prop :=
  Linked UserDatum.bounds p.userValToStruct (RolesWithin d) maxLinks d

def RoleLinked (d : RoleDatum) : Prop :=
  Linked RoleDatum.bounds p.roleValToStruct (TypesWithin d) maxLinks d

def TypeLinked (d : TypeDatum) : Prop :=
  Linked TypeDatum.bounds p.typeValToStruct NoAttribute maxLinks d

/-- Every chain of bounds is short, no bounding type is an attribute, and users and roles stay within
their ancestors. -/
structure AllNested : Prop where
  users : ∀ e ∈ p.pUsers.table.entries, UserNested p e.2
  roles : ∀ e ∈ p.pRoles.table.entries, RoleNested p e.2
  types : ∀ e ∈ p.pTypes.table.entries, TypeNested p e.2

/-- The values at which the check of a user reads `user_val_to_struct`. -/
def userBoundsReads (d : UserDatum) : List U32 :=
  boundsReads UserDatum.bounds p.userValToStruct
    (fun upper => boundsBits p.symValToName.roles upper.roles (ebitmapPositiveBits d.roles)) maxLinks d

def roleBoundsReads (d : RoleDatum) : List U32 :=
  boundsReads RoleDatum.bounds p.roleValToStruct
    (fun upper => boundsBits p.symValToName.types upper.types (ebitmapPositiveBits d.types)) maxLinks d

def typeBoundsReads (d : TypeDatum) : List U32 :=
  boundsReads TypeDatum.bounds p.typeValToStruct notAttribute maxLinks d

/-- The values at which the map over the users reads `user_val_to_struct`. -/
def userReads : List U32 :=
  readsUntil (userBoundsSanityCheck p) (userBoundsReads p) p.pUsers.table.entries

def roleReads : List U32 :=
  readsUntil (roleBoundsSanityCheck p) (roleBoundsReads p) p.pRoles.table.entries

def typeReads : List U32 :=
  readsUntil (typeBoundsSanityCheck p) (typeBoundsReads p) p.pTypes.table.entries

/-- The check reads the three arrays inside them and at filled slots; the roles are visited when the
users have passed, the types when the roles have. -/
structure ReadsFilled : Prop where
  users : ∀ value ∈ userReads p, ∃ d, slotOf p.userValToStruct value = some d
  roles : (∀ e ∈ p.pUsers.table.entries, userBoundsSanityCheck p e.2 = .ok ()) →
    ∀ value ∈ roleReads p, ∃ d, slotOf p.roleValToStruct value = some d
  types : (∀ e ∈ p.pUsers.table.entries, userBoundsSanityCheck p e.2 = .ok ()) →
    (∀ e ∈ p.pRoles.table.entries, roleBoundsSanityCheck p e.2 = .ok ()) →
    ∀ value ∈ typeReads p, ∃ d, slotOf p.typeValToStruct value = some d

/-- The check is safe and decides nesting. -/
structure CheckMeets : Prop where
  reads : policydbVersionBoundary ≤ p.policyvers → ReadsFilled p
  decides : policydbBoundsSanityCheck p = .ok () ↔ AllNested p

/-- The bounds that the check comes to lead to data: of the entries up to the first one that is not
nested, and of their ancestors up to the first one that does not pass. -/
structure BoundsLead : Prop where
  users : UpToFirst (fun e => UserNested p e.2) (fun e => UserLinked p e.2) p.pUsers.table.entries
  roles : (∀ e ∈ p.pUsers.table.entries, UserNested p e.2) →
    UpToFirst (fun e => RoleNested p e.2) (fun e => RoleLinked p e.2) p.pRoles.table.entries
  types : (∀ e ∈ p.pUsers.table.entries, UserNested p e.2) →
    (∀ e ∈ p.pRoles.table.entries, RoleNested p e.2) →
    UpToFirst (fun e => TypeNested p e.2) (fun e => TypeLinked p e.2) p.pTypes.table.entries

end Properties

section Checks

variable {p : Policydb} {bytes rest : List U8}

theorem slotOf_some {δ : Type} {array : List (Option δ)} {value : U32} {d : δ}
    (slot : slotOf array value = some d) : array[(value - 1).toNat]? = some (some d) := by
  unfold slotOf at slot
  cases found : array[(value - 1).toNat]? with
  | none =>
    rw [found] at slot
    cases slot
  | some entry =>
    rw [found] at slot
    rw [show entry = some d from slot]

/-- The walk over the bits of a map accepts a map within the other. -/
theorem boundsBits_iff {names : List (Option Name)} {lower upper : Ebitmap} (builtL : Built lower)
    (builtU : Built upper) :
    boundsBits names upper (ebitmapPositiveBits lower) = .ok () ↔
      ∀ b, InBitmap lower b → InBitmap upper b := by
  have walk : ∀ bits : List U32, boundsBits names upper bits = .ok () ↔
      ∀ bit ∈ bits, InBitmap upper bit.toNat := by
    intro bits
    induction bits with
    | nil => exact iff_of_true rfl (by simp)
    | cons bit more ih =>
      unfold boundsBits
      rw [List.forall_mem_cons, ← getBit_iff builtU]
      cases ebitmapGetBit upper bit.toNat with
      | true =>
        rw [if_pos rfl]
        exact ih.trans (and_iff_right rfl).symm
      | false =>
        rw [if_neg Bool.false_ne_true]
        refine iff_of_false (fun ok => ?_) fun all => Bool.false_ne_true all.1
        split at ok
        · cases ok
        · cases ok
  rw [walk]
  constructor
  · intro all b inside
    have small := builtL.upper inside
    have bit : (BitVec.ofNat 32 b).toNat = b := by
      rw [BitVec.toNat_ofNat, Nat.mod_eq_of_lt (lt_trans small lower.highbit.isLt)]
    have member := (mem_positiveBits builtL (BitVec.ofNat 32 b)).mpr (by rw [bit]; exact inside)
    have here := all _ member
    rwa [bit] at here
  · exact fun all bit member => all _ ((mem_positiveBits builtL bit).mp member)

theorem userChecks (arrays : Arrays p) (tables : BoundsTables p) {e : Name × UserDatum}
    (member : e ∈ p.pUsers.table.entries) (value : U32) (upper : UserDatum)
    (slot : slotOf p.userValToStruct value = some upper) :
    boundsBits p.symValToName.roles upper.roles (ebitmapPositiveBits e.2.roles) = .ok () ↔
      RolesWithin e.2 upper := by
  obtain ⟨name, d, inTable, -, -, rfl⟩ := arrays.users.entry (slotOf_some slot)
  exact boundsBits_iff (tables.users e member).built (tables.users _ inTable).built

theorem roleChecks (arrays : Arrays p) (tables : BoundsTables p) {e : Name × RoleDatum}
    (member : e ∈ p.pRoles.table.entries) (value : U32) (upper : RoleDatum)
    (slot : slotOf p.roleValToStruct value = some upper) :
    boundsBits p.symValToName.types upper.types (ebitmapPositiveBits e.2.types) = .ok () ↔
      TypesWithin e.2 upper := by
  obtain ⟨name, d, inTable, -, -, rfl⟩ := arrays.roles.entry (slotOf_some slot)
  exact boundsBits_iff (tables.roles e member).built (tables.roles _ inTable).built

theorem typeChecks {array : List (Option TypeDatum)} (value : U32) (upper : TypeDatum)
    (_ : slotOf array value = some upper) : notAttribute upper = .ok () ↔ NoAttribute upper := by
  unfold notAttribute NoAttribute
  split
  · rename_i isOne
    refine iff_of_false (fun ok => ?_) isOne
    cases ok
  · rename_i plain
    exact iff_of_true rfl (not_not.mp plain)

/-- The check is the three maps, one after the other. -/
theorem sanityCheck_iff (recent : policydbVersionBoundary ≤ p.policyvers) :
    policydbBoundsSanityCheck p = .ok () ↔
      (∀ e ∈ p.pUsers.table.entries, userBoundsSanityCheck p e.2 = .ok ()) ∧
        (∀ e ∈ p.pRoles.table.entries, roleBoundsSanityCheck p e.2 = .ok ()) ∧
          ∀ e ∈ p.pTypes.table.entries, typeBoundsSanityCheck p e.2 = .ok () := by
  unfold policydbBoundsSanityCheck
  rw [if_neg (BitVec.not_lt.mpr recent)]
  simp only [exceptBind_ok]
  rw [← hashtabMap_unit, ← hashtabMap_unit, ← hashtabMap_unit]
  constructor
  · rintro ⟨_, users, _, roles, types⟩
    exact ⟨users, roles, types⟩
  · rintro ⟨users, roles, types⟩
    exact ⟨(), users, (), roles, types⟩

/-- The check is safe and decides nesting just when the bounds it comes to lead to data. -/
theorem bounds_check_iff (reached : policydbReadToBounds bytes = .ok (p, rest)) :
    CheckMeets p ↔ (policydbVersionBoundary ≤ p.policyvers → BoundsLead p) := by
  have stages := readToBounds_stages reached
  have arrays := stages_arrays stages
  have tables := stages_boundsTables stages
  have userAccepts : ∀ e ∈ p.pUsers.table.entries, UserLinked p e.2 →
      (userBoundsSanityCheck p e.2 = .ok () ↔ UserNested p e.2) :=
    fun e member => boundsLoop_iff (userChecks arrays tables member)
  have roleAccepts : ∀ e ∈ p.pRoles.table.entries, RoleLinked p e.2 →
      (roleBoundsSanityCheck p e.2 = .ok () ↔ RoleNested p e.2) :=
    fun e member => boundsLoop_iff (roleChecks arrays tables member)
  have typeAccepts : ∀ e ∈ p.pTypes.table.entries, TypeLinked p e.2 →
      (typeBoundsSanityCheck p e.2 = .ok () ↔ TypeNested p e.2) :=
    fun e _ => boundsLoop_iff typeChecks
  have userReads_iff : (∀ value ∈ userReads p, ∃ d, slotOf p.userValToStruct value = some d) ↔
      UpToFirst (fun e => UserNested p e.2) (fun e => UserLinked p e.2) p.pUsers.table.entries :=
    readsUntil_iff (fun e member => boundsReads_iff (userChecks arrays tables member)) userAccepts
  have roleReads_iff : (∀ value ∈ roleReads p, ∃ d, slotOf p.roleValToStruct value = some d) ↔
      UpToFirst (fun e => RoleNested p e.2) (fun e => RoleLinked p e.2) p.pRoles.table.entries :=
    readsUntil_iff (fun e member => boundsReads_iff (roleChecks arrays tables member)) roleAccepts
  have typeReads_iff : (∀ value ∈ typeReads p, ∃ d, slotOf p.typeValToStruct value = some d) ↔
      UpToFirst (fun e => TypeNested p e.2) (fun e => TypeLinked p e.2) p.pTypes.table.entries :=
    readsUntil_iff (fun e _ => boundsReads_iff typeChecks) typeAccepts
  constructor
  · rintro ⟨reads, -⟩ recent
    obtain ⟨users, roles, types⟩ := reads recent
    have usersLead := userReads_iff.mp users
    have usersOk := all_accepted_iff userAccepts usersLead
    refine ⟨usersLead, fun nestedU => roleReads_iff.mp (roles (usersOk.mpr nestedU)),
      fun nestedU nestedR => ?_⟩
    have rolesLead := roleReads_iff.mp (roles (usersOk.mpr nestedU))
    have rolesOk := all_accepted_iff roleAccepts rolesLead
    exact typeReads_iff.mp (types (usersOk.mpr nestedU) (rolesOk.mpr nestedR))
  · intro leads
    by_cases recent : policydbVersionBoundary ≤ p.policyvers
    · obtain ⟨usersLead, rolesLead, typesLead⟩ := leads recent
      have usersOk := all_accepted_iff userAccepts usersLead
      have rolesOk := fun nestedU => all_accepted_iff roleAccepts (rolesLead nestedU)
      have typesOk := fun nestedU nestedR => all_accepted_iff typeAccepts (typesLead nestedU nestedR)
      refine ⟨fun _ => ⟨userReads_iff.mpr usersLead, fun okU => ?_, fun okU okR => ?_⟩, ?_⟩
      · exact roleReads_iff.mpr (rolesLead (usersOk.mp okU))
      · have nestedU := usersOk.mp okU
        exact typeReads_iff.mpr (typesLead nestedU ((rolesOk nestedU).mp okR))
      · rw [sanityCheck_iff recent]
        constructor
        · rintro ⟨okU, okR, okT⟩
          have nestedU := usersOk.mp okU
          have nestedR := (rolesOk nestedU).mp okR
          exact ⟨nestedU, nestedR, (typesOk nestedU nestedR).mp okT⟩
        · rintro ⟨nestedU, nestedR, nestedT⟩
          exact ⟨usersOk.mpr nestedU, (rolesOk nestedU).mpr nestedR,
            (typesOk nestedU nestedR).mpr nestedT⟩
    · have old := BitVec.not_le.mp recent
      refine ⟨fun now => absurd now recent, iff_of_true ?_ ⟨?_, ?_, ?_⟩⟩
      · unfold policydbBoundsSanityCheck
        rw [if_pos old]
      · exact fun e member => nested_zero ((tables.users e member).old old)
      · exact fun e member => nested_zero ((tables.roles e member).old old)
      · exact fun e member => nested_zero (tables.types old e member)

end Checks

section Concrete

/-- The bounds of the alias `c` are past the last type. -/
def aliasImage : PolicyImage :=
  { smallImage with
    types := symbols 2 [typeBytes 1 1 0 (cstr ['a']), typeBytes 2 1 0 (cstr ['b']),
      typeBytes 1 0 9 (cstr ['c'])] }

def reaches (image : PolicyImage) (test : Policydb → Bool) : Bool :=
  match policydbReadToBounds image.bytes with
  | .ok (p, _) => test p
  | .error _ => false

theorem reaches_iff {image : PolicyImage} {test : Policydb → Bool} :
    reaches image test = true ↔
      ∃ p rest, policydbReadToBounds image.bytes = .ok (p, rest) ∧ test p = true := by
  unfold reaches
  cases policydbReadToBounds image.bytes with
  | error e => simp
  | ok pair =>
    obtain ⟨p, rest⟩ := pair
    simp

theorem bounds_check_iff_alias : ∃ p rest,
    policydbReadToBounds aliasImage.bytes = .ok (p, rest) ∧
      (CheckMeets p ↔ (policydbVersionBoundary ≤ p.policyvers → BoundsLead p)) := by
  have read : reaches aliasImage (fun _ => true) = true := by decide +kernel
  obtain ⟨p, rest, reached, -⟩ := reaches_iff.mp read
  exact ⟨p, rest, reached, bounds_check_iff reached⟩

def aliasTest (p : Policydb) : Bool :=
  decide (policydbVersionBoundary ≤ p.policyvers) && (typeReads p).contains 9 &&
    (slotOf p.typeValToStruct 9).isNone &&
    p.pUsers.table.entries.all (fun e => (userBoundsSanityCheck p e.2).toBool) &&
    p.pRoles.table.entries.all (fun e => (roleBoundsSanityCheck p e.2).toBool)

/-- The check reads the array of types past its end. -/
theorem alias_reads_outside : ∃ p rest,
    policydbReadToBounds aliasImage.bytes = .ok (p, rest) ∧ ¬ CheckMeets p := by
  have read : reaches aliasImage aliasTest = true := by decide +kernel
  obtain ⟨p, rest, reached, test⟩ := reaches_iff.mp read
  refine ⟨p, rest, reached, fun meets => ?_⟩
  simp only [aliasTest, Bool.and_eq_true, decide_eq_true_eq, List.contains_iff_mem,
    List.all_eq_true] at test
  obtain ⟨⟨⟨⟨recent, inReads⟩, outside⟩, users⟩, roles⟩ := test
  have passes : ∀ x : Except Fault Unit, x.toBool = true → x = .ok () := by
    intro x ok
    cases x with
    | error e => cases ok
    | ok u => rfl
  obtain ⟨d, slot⟩ := (meets.reads recent).types (fun e member => passes _ (users e member))
    (fun e member => passes _ (roles e member)) 9 inReads
  rw [slot] at outside
  cases outside

end Concrete

end Ksrc.Guarantees.BoundsCheck

import Ksrc.Guarantees.BooleanStates
import Ksrc.Guarantees.EbitmapSets
import Ksrc.Guarantees.FilenameKeys
import Ksrc.Guarantees.PolicyImages
import Ksrc.Guarantees.UserContexts

/-!
# What an accepted policy needs behind its indices

Source: `security/selinux/ss/services.c` (`context_struct_to_string`, `context_struct_compute_av`,
`security_compute_sid`, `compute_sid_handle_invalid_context`), `conditional.c` (`cond_evaluate_expr`),
`policydb.c` (`policydb_context_isvalid`).

The loader checks values against `nprim` and fills the slots that have an entry. A query reads the slots
of the values it has in hand, so every value up to `nprim` that a query can have in hand needs its entry:
that of a user, a type or a class, the category of a sensitivity, the role or type that a transition
gives. A class that the policy does not have is read for the report of an invalid context.
-/
namespace Ksrc.Guarantees.SymbolSlots

open Library Source PoliciesInForce EbitmapBits
open EbitmapFiles EbitmapSets EbitmapWalks
open LevelValidity
open NamedContexts SafeQueries QueryResults
open LoadedSlots PolicyImages
open UserContexts (RangeBuilt dom_refl rangeIsvalid_iff mlsReadRangeHelper_built)

variable {p : Policydb} {m : ClassMap} {q : SidQuery} {c scontext tcontext : Context}

/-- A context that `policydb_context_isvalid` accepts, with bitmaps as the code builds them. -/
structure ValidContext (p : Policydb) (c : Context) : Prop where
  valid : policydbContextIsvalid p c = .ok true
  built : RangeBuilt c.range

/-- Every later query reads only slots that are in their tables and hold an entry. -/
structure SymbolsComplete (p : Policydb) (m : ClassMap) : Prop where
  printed : ∀ c, ValidContext p c → Safe p (contextStructToStringReads p c)
  decided : ∀ s t tclass avd xperms, ValidContext p s → ValidContext p t →
    policydbClassIsvalid p (tclass.zeroExtend 32) = true →
      Safe p (contextStructComputeAvReads p s t tclass avd xperms)
  evaluated : ∀ node ∈ p.condList, Safe p (condEvaluateExprReads p node.expr)
  labelled : ∀ s t q enforcing, ValidContext p s → ValidContext p t →
    Safe p (securityComputeSidReads p s t m q enforcing)

/-- The context of a new socket of a class that the policy does not have. -/
def socketContext (p : Policydb) (m : ClassMap) (q : SidQuery) (s t : Context) : Context :=
  { user := if q.specified = avtabMember then t.user else s.user
    role := s.role
    type := (ruleType p s t (m.tclass q) q.specified q.objname).getD s.type
    range := if q.specified = avtabMember then mlsContextCpyLow s else s.range
    str := none }

/-- The slots of the values that a query about valid contexts can have in hand. -/
structure SlotsFilled (p : Policydb) (m : ClassMap) : Prop where
  users : ∀ user, valueIsvalid p.pUsers.nprim user = true → Filled p .users user
  types : ∀ type, policydbTypeIsvalid p type = true → Filled p .types type
  classes : ∀ tclass : U16, policydbClassIsvalid p (tclass.zeroExtend 32) = true →
    Filled p .classes (tclass.zeroExtend 32)
  cats : p.mlsEnabled = true → ∀ sens datum b, SensDatum p sens datum → InBitmap datum.level.cat b →
    (p.pCats.nprim ≠ 0 → b ≤ p.pCats.nprim.toNat) → Filled p .catNames (BitVec.ofNat 32 b + 1)
  roles : ∀ s t q role, ValidContext p s → ValidContext p t →
    ruleRole p s t (m.tclass q) q.specified = some role → Filled p .roles role
  ruleTypes : ∀ s t q type, ValidContext p s → ValidContext p t →
    ruleType p s t (m.tclass q) q.specified q.objname = some type → Filled p .types type
  sockets : ∀ s t q, ValidContext p s → ValidContext p t →
    policydbClassIsvalid p ((m.tclass q).zeroExtend 32) = false → m.sock q = true →
      policydbContextIsvalid p (socketContext p m q s t) = .ok true

/-- The booleans that the evaluation of a conditional comes to have their entries, and the slots of
contexts are filled if there is a context at all. -/
def SymbolsPresent (p : Policydb) (m : ClassMap) : Prop :=
  (∀ node ∈ p.condList, ∀ boolean ∈ reachedBooleans node.expr 0, Filled p .bools boolean) ∧
    ((∃ c, ValidContext p c) → SlotsFilled p m)

section Slots

variable {α : Type} {names data : ValueArray} {value : U32}

/-- Two arrays that are filled at the same values. -/
theorem filled_congr (nprim : names.nprim p = data.nprim p)
    (holds : ∀ i, names.holds p i = data.holds p i) : Filled p names value ↔ Filled p data value := by
  unfold Filled Slot.Filled
  dsimp only
  rw [nprim, holds]

theorem held_of_atValue {array : List (Option α)} {a : α} (read : atValue array value = .ok (some a)) :
    (value - 1).toNat < array.length ∧ (array[(value - 1).toNat]?.join).isSome = true := by
  unfold atValue at read
  split at read
  · rename_i here
    cases read
    exact ⟨(List.getElem?_eq_some_iff.mp here).1, by rw [here]; rfl⟩
  · cases read

theorem userNamed (loaded : TablesLoaded p) : Filled p .userNames value ↔ Filled p .users value :=
  filled_congr rfl loaded.users.same

theorem roleNamed (loaded : TablesLoaded p) : Filled p .roleNames value ↔ Filled p .roles value :=
  filled_congr rfl loaded.roles.same

theorem typeNamed (loaded : TablesLoaded p) : Filled p .typeNames value ↔ Filled p .types value :=
  filled_congr rfl loaded.types.same

theorem className (loaded : TablesLoaded p) : Filled p .classNames value ↔ Filled p .classes value :=
  filled_congr rfl loaded.classes.same

/-- The loader follows the bounds of the types. -/
theorem boundsFilled (loaded : TablesLoaded p) : BoundsFilled p := by
  intro value t read bounded
  obtain ⟨upper, found⟩ := loaded.bounds value t read bounded
  obtain ⟨inside, held⟩ := held_of_atValue found
  rw [loaded.types.dataLength] at inside
  have filled : Filled p .types t.bounds := ⟨inside, held⟩
  exact ⟨(typeNamed loaded).mpr filled, filled⟩

theorem valueIsvalid_iff {nprim : U32} :
    valueIsvalid nprim value = true ↔ ¬ (value = 0 ∨ nprim < value) := by
  unfold valueIsvalid
  rw [Bool.and_eq_true, decide_eq_true_eq, decide_eq_true_eq, not_or, BitVec.not_lt]

theorem classIsvalid_iff {tclass : U16} : policydbClassIsvalid p (tclass.zeroExtend 32) = true ↔
    ¬ (tclass = 0 ∨ p.pClasses.nprim < tclass.zeroExtend 32) := by
  have zero : (tclass.zeroExtend 32 : U32) = 0 ↔ tclass = 0 := by
    constructor
    · intro same
      have value := congrArg BitVec.toNat same
      have small := tclass.isLt
      rw [BitVec.toNat_setWidth] at value
      refine BitVec.eq_of_toNat_eq ?_
      change tclass.toNat = 0
      change tclass.toNat % 2 ^ 32 = 0 at value
      omega
    · rintro rfl
      rfl
  unfold policydbClassIsvalid
  rw [valueIsvalid_iff, zero]

end Slots

section Checking

/-- What the check of a context establishes whatever the role is. -/
structure CheckPassed (p : Policydb) (c : Context) : Prop where
  role : valueIsvalid p.pRoles.nprim c.role = true
  user : valueIsvalid p.pUsers.nprim c.user = true
  type : policydbTypeIsvalid p c.type = true
  range : p.mlsEnabled = true → mlsRangeIsvalid p c.range = .ok true

theorem mlsContextIsvalid_range (valid : mlsContextIsvalid p c = .ok true)
    (enabled : p.mlsEnabled = true) : mlsRangeIsvalid p c.range = .ok true := by
  unfold mlsContextIsvalid at valid
  rw [if_neg (not_not.mpr enabled), exceptBind_ok] at valid
  obtain ⟨range, read, answer⟩ := valid
  cases range with
  | true => exact read
  | false => cases answer

theorem check_passed (valid : policydbContextIsvalid p c = .ok true) : CheckPassed p c := by
  unfold policydbContextIsvalid at valid
  split at valid
  · cases valid
  rename_i role
  split at valid
  · cases valid
  rename_i user
  split at valid
  · cases valid
  rename_i type
  refine ⟨valueIsvalid_iff.mpr role, valueIsvalid_iff.mpr user, valueIsvalid_iff.mpr type, ?_⟩
  split at valid
  · obtain ⟨entry, -, valid⟩ := exceptBind_ok.mp valid
    cases entry with
    | none => cases valid
    | some role =>
      dsimp only at valid
      split at valid
      · obtain ⟨entry, -, valid⟩ := exceptBind_ok.mp valid
        cases entry with
        | none => cases valid
        | some user =>
          dsimp only at valid
          split at valid
          · exact mlsContextIsvalid_range valid
          · cases valid
      · cases valid
  · exact mlsContextIsvalid_range valid

/-- For `object_r` there is nothing else to check. -/
theorem object_check (object : c.role = objectRVal) (passed : CheckPassed p c) :
    policydbContextIsvalid p c = .ok true := by
  unfold policydbContextIsvalid
  rw [if_neg (valueIsvalid_iff.mp passed.role), if_neg (valueIsvalid_iff.mp passed.user),
    if_neg (valueIsvalid_iff.mp passed.type), if_neg (not_not.mpr object)]
  unfold mlsContextIsvalid
  split
  · rfl
  · rename_i enabled
    rw [passed.range (not_not.mp enabled)]
    rfl

/-- The check reads the user, the role, the type and, with MLS, the range. -/
theorem isvalid_congr {c' : Context} (user : c.user = c'.user) (role : c.role = c'.role)
    (type : c.type = c'.type) (range : p.mlsEnabled = true → c.range = c'.range) :
    policydbContextIsvalid p c = policydbContextIsvalid p c' := by
  have mls : mlsContextIsvalid p c = mlsContextIsvalid p c' := by
    unfold mlsContextIsvalid
    by_cases enabled : p.mlsEnabled = true
    · rw [range enabled, user, role]
    · rw [if_pos enabled, if_pos enabled]
  unfold policydbContextIsvalid
  rw [user, role, type, mls]

theorem objectRole_valid (loaded : TablesLoaded p) : valueIsvalid p.pRoles.nprim objectRVal = true :=
  filled_value loaded.objectRole

/-- A valid context stays one with the role `object_r`, another user and type of the policy and another
valid range. -/
theorem ValidContext.withObject (loaded : TablesLoaded p) (built : RangeBuilt c.range)
    (object : c.role = objectRVal) (user : valueIsvalid p.pUsers.nprim c.user = true)
    (type : policydbTypeIsvalid p c.type = true)
    (range : p.mlsEnabled = true → mlsRangeIsvalid p c.range = .ok true) : ValidContext p c := by
  refine ⟨object_check object ?_, built⟩
  constructor
  · rw [object]
    exact objectRole_valid loaded
  · exact user
  · exact type
  · exact range

end Checking

section Categories

/-- The categories of the sensitivities have their names. -/
def CatsFilled (p : Policydb) : Prop :=
  ∀ sens datum b, SensDatum p sens datum → InBitmap datum.level.cat b →
    (p.pCats.nprim ≠ 0 → b ≤ p.pCats.nprim.toNat) → Filled p .catNames (BitVec.ofNat 32 b + 1)

theorem sens_named {sens : U32} {datum : LevelDatum} (defined : SensDatum p sens datum) :
    Filled p .levelNames sens := by
  obtain ⟨nonzero, inside, name, slot, -⟩ := defined
  refine ⟨(valid_inside (valueIsvalid_iff.mpr ?_)).2.2, ?_⟩
  · exact not_or.mpr ⟨nonzero, BitVec.not_lt.mpr inside⟩
  · show (p.symValToName.levels[_]?.join).isSome = true
    rw [slot]
    rfl

theorem SensDatum.built (loaded : TablesLoaded p) {sens : U32} {datum : LevelDatum}
    (defined : SensDatum p sens datum) : Built datum.level.cat := by
  obtain ⟨-, -, name, -, found⟩ := defined
  obtain ⟨k, member⟩ := PolicydbStages.mem_of_hashtabSearch found
  exact loaded.levelsBuilt _ member

/-- A valid level has its names. -/
theorem level_named (loaded : TablesLoaded p) (cats : CatsFilled p) {l : MlsLevel} (built : Built l.cat)
    (valid : mlsLevelIsvalid p l = .ok true) : LevelNamed p l := by
  obtain ⟨datum, defined, contains⟩ := (mlsLevelIsvalid_iff p l).mp valid
  obtain ⟨-, bits, bound⟩ := (contains_iff (SensDatum.built loaded defined) built).mp contains
  refine ⟨sens_named defined, fun bit member => ?_⟩
  have inside := (mem_positiveBits built bit).mp member
  have filled := cats _ _ _ defined (bits _ inside) fun some => bound some _ inside
  rw [BitVec.ofNat_toNat, BitVec.setWidth_eq] at filled
  exact filled

theorem range_named (loaded : TablesLoaded p) (cats : CatsFilled p) {r : MlsRange} (built : RangeBuilt r)
    (valid : mlsRangeIsvalid p r = .ok true) : LevelNamed p r.low ∧ LevelNamed p r.high := by
  obtain ⟨⟨low, high⟩, -⟩ := rangeIsvalid_iff.mp valid
  exact ⟨level_named loaded cats built.low low, level_named loaded cats built.high high⟩

/-- A valid context has everything that is read of it. -/
theorem SlotsFilled.context (loaded : TablesLoaded p) (slots : SlotsFilled p m) (valid : ValidContext p c) :
    ContextFilled p c := by
  have passed := check_passed valid.valid
  have user := slots.users _ passed.user
  have type := slots.types _ passed.type
  obtain ⟨role, slot⟩ := loaded.roleSlot valid.valid
  have roleFilled : Filled p .roles c.role := ⟨(valid_inside passed.role).2.2, (held_of_atValue slot).2⟩
  constructor
  · exact (userNamed loaded).mpr user
  · exact (roleNamed loaded).mpr roleFilled
  · exact (typeNamed loaded).mpr type
  · exact user
  · exact roleFilled
  · exact type
  · intro enabled
    exact range_named loaded (slots.cats enabled) valid.built (passed.range enabled)

end Categories

section Transitions

variable {k1 k2 : RoleTransKey} {tclass : U16} {specified : U16} {sock : Bool}

theorem diffs_zero {a1 a2 b1 b2 c1 c2 : U32} :
    (if diffInt a1 a2 ≠ 0 then diffInt a1 a2 else if diffInt b1 b2 ≠ 0 then diffInt b1 b2
      else diffInt c1 c2) = 0 ↔ a1 = a2 ∧ b1 = b2 ∧ c1 = c2 := by
  have first := @FilenameKeys.diffInt_zero a1 a2
  have second := @FilenameKeys.diffInt_zero b1 b2
  have third := @FilenameKeys.diffInt_zero c1 c2
  split
  · rename_i apart
    exact iff_of_false apart fun same => apart (first.mpr same.1)
  rename_i sameFirst
  rw [not_not, first] at sameFirst
  split
  · rename_i apart
    exact iff_of_false apart fun same => apart (second.mpr same.2.1)
  rename_i sameSecond
  rw [not_not, second] at sameSecond
  exact third.trans ⟨fun same => ⟨sameFirst, sameSecond, same⟩, fun same => same.2.2⟩

theorem roleTransCmp_zero {a b : RoleTransKey} : roleTransCmp a b = 0 ↔ a = b := by
  obtain ⟨role, type, tclass⟩ := a
  obtain ⟨role', type', tclass'⟩ := b
  rw [RoleTransKey.mk.injEq]
  exact diffs_zero

theorem rangetrCmp_zero {a b : RangeTrans} : rangetrCmp a b = 0 ↔ a = b := by
  obtain ⟨source, target, cls⟩ := a
  obtain ⟨source', target', cls'⟩ := b
  rw [RangeTrans.mk.injEq]
  exact diffs_zero

/-- There is no role transition for a class that the policy does not have. -/
theorem ruleRole_outside (loaded : TablesLoaded p)
    (outside : policydbClassIsvalid p (tclass.zeroExtend 32) = false) :
    ruleRole p scontext tcontext tclass specified = none := by
  unfold ruleRole
  split
  · cases found : policydbRoletrSearch p scontext.role tcontext.type (tclass.zeroExtend 32) with
    | none => rfl
    | some d =>
      have member := OrderedChains.hashtabSearch_mem roleTransCmp_zero found
      have valid := (loaded.roleTrans _ member).1
      dsimp only at valid
      rw [outside] at valid
      cases valid
  · rfl

theorem rangetr_entry (found : policydbRangetrSearch p scontext tcontext tclass = some r) :
    ∃ k : RangeTrans, (k, r) ∈ p.rangeTr.entries ∧ k.targetClass = tclass.zeroExtend 32 :=
  ⟨_, OrderedChains.hashtabSearch_mem rangetrCmp_zero found, rfl⟩

theorem rangetr_outside (loaded : TablesLoaded p)
    (outside : policydbClassIsvalid p (tclass.zeroExtend 32) = false) :
    policydbRangetrSearch p scontext tcontext tclass = none := by
  cases found : policydbRangetrSearch p scontext tcontext tclass with
  | none => rfl
  | some r =>
    obtain ⟨k, member, same⟩ := rangetr_entry found
    have valid := (loaded.rangeTrans _ member).1
    dsimp only at valid
    rw [same, outside] at valid
    cases valid

end Transitions

section Ranges

variable {q' : Policydb} {bytes rest : List U8} {tclass specified : U16} {sock : Bool} {r : MlsRange}

theorem rangeRead_built {table : Hashtab RangeTrans MlsRange} (noRules : p.rangeTr.entries = [])
    (read : rangeRead p bytes = .ok (table, rest)) : ∀ e ∈ table.entries, RangeBuilt e.2 := by
  unfold rangeRead at read
  split at read
  · rw [← (ByteReader.pure_ok.mp read).1, noRules]
    intro e member
    cases member
  simp only [ByteReader.bind_ok, ByteReader.lift_ok] at read
  obtain ⟨nel, _, -, empty, _, ⟨made, rfl⟩, loop⟩ := read
  refine ByteReader.times_preserves
    (fun t : Hashtab RangeTrans MlsRange => ∀ e ∈ t.entries, RangeBuilt e.2)
    (fun t bytes t' rest before once => ?_) ?_ loop
  · simp only [rangeReadOne, ByteReader.bind_ok, ByteReader.lift_ok, ByteReader.require_ok] at once
    obtain ⟨source, _, -, target, _, -, cls, _, -, _, _, -, range, _, readRange, valid, _, -, _, _, -,
      inserted, -⟩ := once
    intro e member
    rcases PolicydbShape.mem_hashtabInsert inserted member with rfl | old
    · exact mlsReadRangeHelper_built readRange
    · exact before e old
  · rw [hashtabInit_entries made]
    intro e member
    cases member

/-- The range transitions of a policy in force have bitmaps as they are read. -/
theorem inForce_ranges (inForce : InForce p) : ∀ e ∈ p.rangeTr.entries, RangeBuilt e.2 := by
  have accepted {p : Policydb} {bytes rest : List U8} (read : policydbRead bytes = .ok (p, rest)) :
      ∀ e ∈ p.rangeTr.entries, RangeBuilt e.2 := by
    obtain ⟨-, q, _, _, ranges, noRules, -, -⟩ := policydbRead_transStages read
    exact rangeRead_built noRules ranges
  have kept {p p' : Policydb} (same : SameRules p p') : p'.rangeTr = p.rangeTr := by
    unfold SameRules at same
    rw [same]
  induction inForce with
  | loaded read => exact accepted read
  | reloaded _ read done _ =>
    have shape := PolicydbShape.policydbRead_shape read
    rw [kept (securityPreserveBools_ok shape.teCondAvtab done).1]
    exact accepted read
  | switched _ set ranges =>
    rw [kept (securitySetBools_ok set).1]
    exact ranges

theorem level_and_named {l : MlsLevel} {sens : U32} {e2 : Ebitmap} {alloc : Nat → Bool}
    (named : LevelNamed p l) (filled : Filled p .levelNames sens) :
    LevelNamed p { sens, cat := (ebitmapAnd alloc l.cat e2).2 } :=
  ⟨filled, fun bit member => named.2 bit (and_positive member)⟩

/-- The greatest lower and the least upper bound of two ranges have their names. -/
theorem glblub_named (s : LevelNamed p scontext.range.low ∧ LevelNamed p scontext.range.high)
    (t : LevelNamed p tcontext.range.low ∧ LevelNamed p tcontext.range.high)
    (made : mlsContextGlblub scontext tcontext = .ok r) : LevelNamed p r.low ∧ LevelNamed p r.high := by
  unfold mlsContextGlblub at made
  dsimp only at made
  split at made
  · cases made
  cases made
  constructor
  · refine level_and_named s.1 ?_
    split
    · exact t.1.1
    · exact s.1.1
  · refine level_and_named s.2 ?_
    split
    · exact s.2.1
    · exact t.2.1

theorem defaultRange_named {defaultRange : U8}
    (s : LevelNamed p scontext.range.low ∧ LevelNamed p scontext.range.high)
    (t : LevelNamed p tcontext.range.low ∧ LevelNamed p tcontext.range.high)
    (made : mlsDefaultRange scontext tcontext defaultRange = some (.ok r)) :
    LevelNamed p r.low ∧ LevelNamed p r.high := by
  unfold mlsDefaultRange at made
  split at made
  · cases made
    exact ⟨s.1, s.1⟩
  split at made
  · cases made
    exact ⟨s.2, s.2⟩
  split at made
  · cases made
    exact s
  split at made
  · cases made
    exact ⟨t.1, t.1⟩
  split at made
  · cases made
    exact ⟨t.2, t.2⟩
  split at made
  · cases made
    exact t
  split at made
  · exact glblub_named s t (Option.some.inj made)
  · cases made

theorem changeRange_named (s : LevelNamed p scontext.range.low ∧ LevelNamed p scontext.range.high) :
    LevelNamed p (mlsChangeRange p scontext tclass sock).low ∧
      LevelNamed p (mlsChangeRange p scontext tclass sock).high := by
  unfold mlsChangeRange
  split
  · exact s
  · exact ⟨s.1, s.1⟩

/-- The range of a new context has its names. -/
theorem computed_named (loaded : TablesLoaded p) (ranges : ∀ e ∈ p.rangeTr.entries, RangeBuilt e.2)
    (cats : CatsFilled p) (enabled : p.mlsEnabled = true)
    (s : LevelNamed p scontext.range.low ∧ LevelNamed p scontext.range.high)
    (t : LevelNamed p tcontext.range.low ∧ LevelNamed p tcontext.range.high)
    (made : (mlsComputeSidReads p scontext tcontext tclass specified sock).result = .ok r) :
    LevelNamed p r.low ∧ LevelNamed p r.high := by
  unfold mlsComputeSidReads at made
  rw [if_neg (not_not.mpr enabled)] at made
  split at made
  · cases found : policydbRangetrSearch p scontext tcontext tclass with
    | some r' =>
      rw [found] at made
      cases made
      obtain ⟨k, member, -⟩ := rangetr_entry found
      exact range_named loaded cats (ranges _ member) (loaded.rangeTrans _ member).2
    | none =>
      rw [found] at made
      dsimp only at made
      rw [Traced.result_bind, exceptBind_ok] at made
      obtain ⟨cladatum, -, made⟩ := made
      cases given : cladatum.bind fun c => mlsDefaultRange scontext tcontext c.defaultRange with
      | none =>
        rw [given] at made
        cases made
        exact changeRange_named s
      | some answer =>
        rw [given] at made
        cases answer with
        | error f => cases made
        | ok r' =>
          cases made
          cases cladatum with
          | none => cases given
          | some c => exact defaultRange_named s t given
  split at made
  · cases made
    exact changeRange_named s
  split at made
  · cases made
    exact ⟨s.1, s.1⟩
  · cases made

end Ranges

section Labelling

variable {tclass specified : U16} {sock enforcing : Bool} {cladatum : Option ClassDatum} {range : MlsRange}

/-- `newcontext` of `security_compute_sid`. -/
def newContext (p : Policydb) (m : ClassMap) (q : SidQuery) (s t : Context)
    (cladatum : Option ClassDatum) (range : MlsRange) : Context :=
  { user := newUser s t q.specified cladatum
    role := (ruleRole p s t (m.tclass q) q.specified).getD
      (newRole p s t (m.tclass q) (m.sock q) cladatum)
    type := (ruleType p s t (m.tclass q) q.specified q.objname).getD
      (newType p s t (m.tclass q) (m.sock q) cladatum)
    range
    str := none }

/-- The check of the new context, and the report about it. -/
def settleReads (p : Policydb) (s t : Context) (tclass : U16) (c : Context) (enforcing : Bool) :
    Asking Context := do
  if ← policydbContextIsvalidReads p c then pure c
  else do
    computeSidHandleInvalidContextReads p s t tclass c enforcing
    pure c

theorem computeSid_eq : securityComputeSidReads p scontext tcontext m q enforcing = (do
    let cladatum ← cladatumReads p (m.tclass q)
    let range ← mlsComputeSidReads p scontext tcontext (m.tclass q) q.specified (m.sock q)
    settleReads p scontext tcontext (m.tclass q) (newContext p m q scontext tcontext cladatum range)
      enforcing) := rfl

theorem cladatum_outside (outside : policydbClassIsvalid p (tclass.zeroExtend 32) = false) :
    cladatumReads p tclass = pure none := by
  unfold cladatumReads
  refine if_pos ?_
  by_contra inside
  rw [classIsvalid_iff.mpr inside] at outside
  cases outside

theorem processClass_inside (loaded : TablesLoaded p)
    (outside : policydbClassIsvalid p (tclass.zeroExtend 32) = false) : tclass ≠ p.processClass := by
  rintro rfl
  rw [loaded.processClass] at outside
  cases outside

/-- The range of a new object of a class that the policy does not have. -/
theorem computed_outside (loaded : TablesLoaded p)
    (outside : policydbClassIsvalid p (tclass.zeroExtend 32) = false) (enabled : p.mlsEnabled = true)
    (made : (mlsComputeSidReads p scontext tcontext tclass specified sock).result = .ok range) :
    range = if sock = true ∧ specified ≠ avtabMember then scontext.range else mlsContextCpyLow scontext := by
  have change : mlsChangeRange p scontext tclass sock =
      if sock = true then scontext.range else mlsContextCpyLow scontext := by
    unfold mlsChangeRange
    simp only [processClass_inside loaded outside, false_or]
  unfold mlsComputeSidReads at made
  rw [if_neg (not_not.mpr enabled), rangetr_outside loaded outside, cladatum_outside outside] at made
  split at made
  · rename_i transition
    have other : specified ≠ avtabMember := by
      rw [transition]
      decide
    cases made
    rw [change]
    simp only [other, ne_eq, not_false_eq_true, and_true]
  split at made
  · rename_i changed
    have other : specified ≠ avtabMember := by
      rw [changed]
      decide
    cases made
    rw [change]
    simp only [other, ne_eq, not_false_eq_true, and_true]
  split at made
  · rename_i member
    cases made
    exact (if_neg fun both => both.2 member).symm
  · cases made

theorem low_range (built : RangeBuilt c.range) (range : mlsRangeIsvalid p c.range = .ok true) :
    mlsRangeIsvalid p (mlsContextCpyLow c) = .ok true := by
  obtain ⟨⟨low, -⟩, -⟩ := rangeIsvalid_iff.mp range
  exact rangeIsvalid_iff.mpr ⟨⟨low, low⟩, dom_refl built.low⟩

/-- The new context for a class that the policy does not have. -/
theorem outside_check (loaded : TablesLoaded p) (s : ValidContext p scontext) (t : ValidContext p tcontext)
    (types : ∀ type, ruleType p scontext tcontext (m.tclass q) q.specified q.objname = some type →
      policydbTypeIsvalid p type = true)
    (outside : policydbClassIsvalid p ((m.tclass q).zeroExtend 32) = false)
    (made : (mlsComputeSidReads p scontext tcontext (m.tclass q) q.specified (m.sock q)).result =
      .ok range) :
    policydbContextIsvalid p (newContext p m q scontext tcontext none range) =
      if m.sock q = true then policydbContextIsvalid p (socketContext p m q scontext tcontext)
      else .ok true := by
  have notProcess := processClass_inside loaded outside
  have user : newUser scontext tcontext q.specified none =
      if q.specified = avtabMember then tcontext.user else scontext.user := by
    unfold newUser
    simp only [Option.any_none, Bool.false_eq_true, if_false]
  have role : newRole p scontext tcontext (m.tclass q) (m.sock q) none =
      if m.sock q = true then scontext.role else objectRVal := by
    unfold newRole
    simp only [Option.any_none, Bool.false_eq_true, if_false, notProcess, false_or]
  have type : newType p scontext tcontext (m.tclass q) (m.sock q) none =
      if m.sock q = true then scontext.type else tcontext.type := by
    unfold newType
    simp only [Option.any_none, Bool.false_eq_true, if_false, notProcess, false_or]
  by_cases socket : m.sock q = true
  · rw [if_pos socket]
    refine isvalid_congr ?_ ?_ ?_ fun enabled => ?_
    · exact user
    · show (ruleRole _ _ _ _ _).getD _ = _
      rw [ruleRole_outside loaded outside, Option.getD_none, role, if_pos socket]
      rfl
    · show (ruleType _ _ _ _ _ _).getD _ = (ruleType _ _ _ _ _ _).getD _
      rw [type, if_pos socket]
    · show range = if q.specified = avtabMember then _ else _
      rw [computed_outside loaded outside enabled made]
      by_cases member : q.specified = avtabMember
      · rw [if_neg fun both => both.2 member, if_pos member]
      · rw [if_pos ⟨socket, member⟩, if_neg member]
  · rw [if_neg socket]
    have sPassed := check_passed s.valid
    have tPassed := check_passed t.valid
    have object : (newContext p m q scontext tcontext none range).role = objectRVal := by
      show (ruleRole _ _ _ _ _).getD _ = _
      rw [ruleRole_outside loaded outside, Option.getD_none, role, if_neg socket]
    refine object_check object ⟨?_, ?_, ?_, fun enabled => ?_⟩
    · rw [object]
      exact objectRole_valid loaded
    · show valueIsvalid p.pUsers.nprim (newUser scontext tcontext q.specified none) = true
      rw [user]
      split
      · exact tPassed.user
      · exact sPassed.user
    · show policydbTypeIsvalid p ((ruleType _ _ _ _ _ _).getD _) = true
      cases given : ruleType p scontext tcontext (m.tclass q) q.specified q.objname with
      | some given' => exact types _ given
      | none =>
        rw [Option.getD_none, type, if_neg socket]
        exact tPassed.type
    · show mlsRangeIsvalid p range = .ok true
      rw [computed_outside loaded outside enabled made, if_neg fun both => socket both.1]
      exact low_range s.built (sPassed.range enabled)

end Labelling

section Enough

variable {enforcing : Bool} {cladatum : Option ClassDatum} {range : MlsRange} {tclass specified : U16}
  {sock : Bool}

theorem safe_cladatum (slots : SlotsFilled p m) : Safe p (cladatumReads p tclass) := by
  unfold cladatumReads
  split
  · exact Traced.reads_pure _
  · rename_i inside
    exact (Traced.reads_read _ _).mpr (slots.classes _ (classIsvalid_iff.mpr inside))

theorem safe_mlsComputeSid (slots : SlotsFilled p m) :
    Safe p (mlsComputeSidReads p scontext tcontext tclass specified sock) := by
  unfold mlsComputeSidReads
  split
  · exact Traced.reads_pure _
  split
  · cases policydbRangetrSearch p scontext tcontext tclass with
    | some r => exact Traced.reads_pure _
    | none =>
      refine Traced.Reads.bind (safe_cladatum slots) fun cladatum _ => ?_
      cases cladatum.bind fun c => mlsDefaultRange scontext tcontext c.defaultRange with
      | some r => exact Traced.reads_lift _
      | none => exact Traced.reads_pure _
  split
  · exact Traced.reads_pure _
  split
  · exact Traced.reads_pure _
  · exact Traced.reads_lift _

/-- The new context has everything that is read of it. -/
theorem newContext_filled (loaded : TablesLoaded p) (ranges : ∀ e ∈ p.rangeTr.entries, RangeBuilt e.2)
    (slots : SlotsFilled p m) (s : ValidContext p scontext) (t : ValidContext p tcontext)
    (made : (mlsComputeSidReads p scontext tcontext (m.tclass q) q.specified (m.sock q)).result =
      .ok range) : ContextFilled p (newContext p m q scontext tcontext cladatum range) := by
  have source := SlotsFilled.context loaded slots s
  have target := SlotsFilled.context loaded slots t
  have user : Filled p .users (newContext p m q scontext tcontext cladatum range).user := by
    show Filled p .users (newUser scontext tcontext q.specified cladatum)
    unfold newUser
    split
    · exact target.user
    split
    · exact target.user
    · exact source.user
  have role : Filled p .roles (newContext p m q scontext tcontext cladatum range).role := by
    show Filled p .roles ((ruleRole _ _ _ _ _).getD _)
    cases given : ruleRole p scontext tcontext (m.tclass q) q.specified with
    | some role => exact slots.roles _ _ _ _ s t given
    | none =>
      show Filled p .roles (newRole p scontext tcontext (m.tclass q) (m.sock q) cladatum)
      unfold newRole
      split
      · exact source.role
      split
      · exact target.role
      split
      · exact source.role
      · exact loaded.objectRole
  have type : Filled p .types (newContext p m q scontext tcontext cladatum range).type := by
    show Filled p .types ((ruleType _ _ _ _ _ _).getD _)
    cases given : ruleType p scontext tcontext (m.tclass q) q.specified q.objname with
    | some type => exact slots.ruleTypes _ _ _ _ s t given
    | none =>
      show Filled p .types (newType p scontext tcontext (m.tclass q) (m.sock q) cladatum)
      unfold newType
      split
      · exact source.type
      split
      · exact target.type
      split
      · exact source.type
      · exact target.type
  constructor
  · exact (userNamed loaded).mpr user
  · exact (roleNamed loaded).mpr role
  · exact (typeNamed loaded).mpr type
  · exact user
  · exact role
  · exact type
  · intro enabled
    exact computed_named loaded ranges (slots.cats enabled) enabled (source.levels enabled)
      (target.levels enabled) made

/-- The label of a new object, its report included. -/
theorem safe_computeSid (loaded : TablesLoaded p) (ranges : ∀ e ∈ p.rangeTr.entries, RangeBuilt e.2)
    (slots : SlotsFilled p m) (s : ValidContext p scontext) (t : ValidContext p tcontext) :
    Safe p (securityComputeSidReads p scontext tcontext m q enforcing) := by
  rw [computeSid_eq]
  refine Traced.Reads.bind (safe_cladatum slots) fun cladatum read => ?_
  refine Traced.Reads.bind (safe_mlsComputeSid slots) fun range made => ?_
  have filled : ContextFilled p (newContext p m q scontext tcontext cladatum range) :=
    newContext_filled loaded ranges slots s t made
  unfold settleReads
  refine Traced.Reads.bind (safe_isvalid filled) fun valid answer => ?_
  split
  · exact Traced.reads_pure _
  rename_i invalid
  refine Traced.Reads.bind ?_ fun _ _ => Traced.reads_pure _
  have known : policydbClassIsvalid p ((m.tclass q).zeroExtend 32) = true := by
    by_contra unknown
    have outside := Bool.eq_false_of_not_eq_true unknown
    rw [cladatum_outside outside] at read
    cases read
    rw [policydbContextIsvalidReads_result, outside_check loaded s t (fun type given =>
      filled_value (slots.ruleTypes _ _ _ _ s t given)) outside made] at answer
    split at answer
    · rename_i socket
      rw [slots.sockets _ _ _ s t outside socket] at answer
      exact invalid (Except.ok.inj answer).symm
    · exact invalid (Except.ok.inj answer).symm
  unfold computeSidHandleInvalidContextReads
  refine Traced.Reads.bind (safe_print (SlotsFilled.context loaded slots s)) fun _ _ => ?_
  refine Traced.Reads.bind (safe_print (SlotsFilled.context loaded slots t)) fun _ _ => ?_
  refine Traced.Reads.bind (safe_print filled) fun _ _ => ?_
  refine Traced.Reads.bind ((Traced.reads_read _ _).mpr ?_) fun _ _ => ?_
  · exact (className loaded).mpr (slots.classes _ known)
  split
  · exact Traced.reads_lift _
  · exact Traced.reads_pure _

/-- Queries about valid contexts read only filled slots where the values they can have in hand are
there. -/
theorem complete_of_present (loaded : TablesLoaded p) (found : BoolsFound p)
    (ranges : ∀ e ∈ p.rangeTr.entries, RangeBuilt e.2) (present : SymbolsPresent p m) :
    SymbolsComplete p m := by
  obtain ⟨bools, slots⟩ := present
  constructor
  · intro c valid
    exact safe_print (SlotsFilled.context loaded (slots ⟨c, valid⟩) valid)
  · intro s t tclass avd xperms sValid tValid known
    have filled := slots ⟨s, sValid⟩
    have cls := filled.classes _ known
    exact safe_computeAv (boundsFilled loaded) ⟨(className loaded).mpr cls, cls⟩
      (SlotsFilled.context loaded filled sValid) (SlotsFilled.context loaded filled tValid)
  · intro node member
    exact (safe_condExpr found node.expr).mpr (bools node member)
  · intro s t q enforcing sValid tValid
    exact safe_computeSid loaded ranges (slots ⟨s, sValid⟩) sValid tValid

end Enough

section Answering

variable {α β : Type} {array : ValueArray} {data : List (Option α)} {value : U32} {tclass specified : U16}
  {sock : Bool}

theorem answers_read (same : ∀ i, array.holds p i = (data[i]?.join).isSome) :
    Answers p (Traced.read ⟨array, value⟩ (atValue data value)) := by
  intro safe
  have held := ((Traced.reads_read _ _).mp safe).2
  dsimp only at held
  rw [same] at held
  obtain ⟨a, -, here⟩ := atValue_of_held held
  exact ⟨some a, here⟩

/-- An entry that is read and used. -/
theorem answers_entry {f : α → Asking β} (same : ∀ i, array.holds p i = (data[i]?.join).isSome)
    (rest : ∀ a, Answers p (f a)) :
    Answers p (Traced.read ⟨array, value⟩ (atValue data value) >>= fun entry =>
      Traced.lift (derefPtr entry) >>= f) := by
  intro safe
  have held := ((Traced.reads_read _ _).mp safe.left).2
  dsimp only at held
  rw [same] at held
  obtain ⟨a, -, here⟩ := atValue_of_held held
  have later : Safe p (f a) := (safe.right here).right rfl
  obtain ⟨b, done⟩ := rest a later
  refine ⟨b, ?_⟩
  rw [Traced.result_bind, Traced.result_read, here]
  exact done

theorem answers_cladatum : Answers p (cladatumReads p tclass) := by
  unfold cladatumReads
  split
  · exact answers_pure _
  · exact answers_read fun _ => rfl

theorem answers_levelIsvalid {l : MlsLevel} : Answers p (mlsLevelIsvalidReads p l) := by
  unfold mlsLevelIsvalidReads
  split
  · exact answers_pure _
  · refine (answers_symName fun _ => rfl).bind fun name => ?_
    cases symtabSearch p.pLevels name with
    | none => exact answers_pure _
    | some levdatum => exact answers_pure _

theorem answers_rangeIsvalid {r : MlsRange} : Answers p (mlsRangeIsvalidReads p r) := by
  unfold mlsRangeIsvalidReads
  refine answers_levelIsvalid.bind fun low => ?_
  split
  · refine answers_levelIsvalid.bind fun high => ?_
    split
    · exact answers_pure _
    · exact answers_pure _
  · exact answers_pure _

theorem answers_mlsIsvalid : Answers p (mlsContextIsvalidReads p c) := by
  unfold mlsContextIsvalidReads
  split
  · exact answers_pure _
  · refine answers_rangeIsvalid.bind fun range => ?_
    split
    · split
      · exact answers_pure _
      split
      · exact answers_pure _
      · exact answers_entry (fun _ => rfl) fun _ => answers_pure _
    · exact answers_pure _

theorem answers_isvalid : Answers p (policydbContextIsvalidReads p c) := by
  unfold policydbContextIsvalidReads
  split
  · exact answers_pure _
  split
  · exact answers_pure _
  split
  · exact answers_pure _
  split
  · refine (answers_read fun _ => rfl).bind fun entry => ?_
    cases entry with
    | none => exact answers_pure _
    | some role =>
      dsimp only
      split
      · refine (answers_read fun _ => rfl).bind fun entry => ?_
        cases entry with
        | none => exact answers_pure _
        | some user =>
          dsimp only
          split
          · exact answers_mlsIsvalid
          · exact answers_pure _
      · exact answers_pure _
  · exact answers_mlsIsvalid

theorem defaultRange_ok {defaultRange : U8} {answer : Except Fault MlsRange}
    (same : tcontext.range = scontext.range)
    (ordered : ¬ scontext.range.high.sens < scontext.range.low.sens)
    (given : mlsDefaultRange scontext tcontext defaultRange = some answer) : ∃ r, answer = .ok r := by
  unfold mlsDefaultRange at given
  repeat' split at given
  all_goals cases given
  any_goals exact ⟨_, rfl⟩
  unfold mlsContextGlblub
  dsimp only
  rw [same, if_neg (not_or.mpr ⟨ordered, ordered⟩)]
  exact ⟨_, rfl⟩

theorem specified_cases (q : SidQuery) :
    q.specified = avtabTransition ∨ q.specified = avtabChange ∨ q.specified = avtabMember := by
  cases q with
  | securityTransitionSid _ _ => exact .inl rfl
  | securityTransitionSidUser _ _ => exact .inl rfl
  | securityMemberSid _ => exact .inr (.inr rfl)
  | securityChangeSid _ => exact .inr (.inl rfl)

/-- The range is made where the two contexts have one range. -/
theorem answers_mlsComputeSid (same : tcontext.range = scontext.range)
    (ordered : p.mlsEnabled = true → ¬ scontext.range.high.sens < scontext.range.low.sens) :
    Answers p (mlsComputeSidReads p scontext tcontext tclass q.specified sock) := by
  unfold mlsComputeSidReads
  split
  · exact answers_pure _
  rename_i enabled
  rw [not_not] at enabled
  split
  · cases policydbRangetrSearch p scontext tcontext tclass with
    | some r => exact answers_pure _
    | none =>
      refine answers_cladatum.bind fun cladatum => ?_
      cases given : cladatum.bind fun c => mlsDefaultRange scontext tcontext c.defaultRange with
      | none => exact answers_pure _
      | some answer =>
        obtain ⟨cls, -, given⟩ := Option.bind_eq_some_iff.mp given
        obtain ⟨r, rfl⟩ := defaultRange_ok same (ordered enabled) given
        exact answers_pure _
  split
  · exact answers_pure _
  split
  · exact answers_pure _
  · rename_i transition change member
    rcases specified_cases q with is | is | is
    · exact absurd is transition
    · exact absurd is change
    · exact absurd is member

end Answering

section Needed

variable {c₀ : Context}

theorem classes_needed (complete : SymbolsComplete p m) (valid : ValidContext p c₀) {tclass : U16}
    (known : policydbClassIsvalid p (tclass.zeroExtend 32) = true) :
    Filled p .classes (tclass.zeroExtend 32) := by
  have safe := complete.decided c₀ c₀ tclass ⟨0, 0, 0, 0, 0⟩ none valid valid known
  have first : Safe p (contextStructComputeAvDepthReads p (p.typeValToStruct.length + 3 + 1) c₀ c₀ tclass
    ⟨0, 0, 0, 0, 0⟩ none) := safe
  unfold contextStructComputeAvDepthReads at first
  dsimp only at first
  rw [if_neg (classIsvalid_iff.mp known)] at first
  have rules := first.left
  unfold computeAvUnboundedReads at rules
  have filled := (Traced.reads_read _ _).mp rules.left
  exact filled

/-- Any user, type and valid range, with the role `object_r`. -/
theorem object_printed (loaded : TablesLoaded p) (complete : SymbolsComplete p m)
    {user type : U32} {range : MlsRange} (userValid : valueIsvalid p.pUsers.nprim user = true)
    (typeValid : policydbTypeIsvalid p type = true) (built : RangeBuilt range)
    (rangeValid : p.mlsEnabled = true → mlsRangeIsvalid p range = .ok true) :
    Filled p .users user ∧ Filled p .types type ∧
      Safe p (mlsComputeContextLenReads p { user, role := objectRVal, type, range, str := none }) := by
  have context : ValidContext p { user, role := objectRVal, type, range, str := none } :=
    ValidContext.withObject loaded built rfl userValid typeValid rangeValid
  obtain ⟨userName, -, typeName, length⟩ := print_named rfl (complete.printed _ context)
  exact ⟨(userNamed loaded).mp userName, (typeNamed loaded).mp typeName, length⟩

/-- A bitmap with one bit of another. -/
theorem exists_single {e : Ebitmap} {b : Nat} (built : Built e) (inside : InBitmap e b) :
    ∃ e', Canonical e' ∧ (∀ x, InBitmap e' x ↔ x = b) ∧ Covers e e' := by
  obtain ⟨n, member, here⟩ := inside
  have aligned := (built.nodes.start member).2
  have start := start_of_inNode aligned here
  have upper := built.upper ⟨n, member, here⟩
  have ends : ∀ {low : Nat} {nodes : List EbitmapNode}, Ascending low nodes → n ∈ nodes →
      n.startbit.toNat + ebitmapSize ≤ endOf low nodes ∧ n.startbit.toNat + ebitmapSize < 2 ^ 32 := by
    intro low nodes ok
    induction nodes generalizing low with
    | nil => exact fun none => absurd none List.not_mem_nil
    | cons n' rest ih =>
      obtain ⟨-, -, fits, later⟩ := ok
      intro found
      rcases List.mem_cons.mp found with rfl | there
      · exact ⟨later.le_endOf, fits⟩
      · exact ih later there
  obtain ⟨last, fits⟩ := ends built.nodes member
  have room : b - b % ebitmapSize + ebitmapSize < 2 ^ 32 := by
    rw [← start]
    exact fits
  obtain ⟨made, bits⟩ := setBit_canonical init_canonical room
  have only : ∀ x, InBitmap (ebitmapSetBit ebitmapInit b true) x ↔ x = b :=
    fun x => (bits x).trans (or_iff_left init_bits)
  refine ⟨_, made, only, ?_, fun n2 member2 => ⟨n, member, BitVec.eq_of_toNat_eq ?_⟩⟩
  · have some : (ebitmapSetBit ebitmapInit b true).node ≠ [] := by
      intro empty
      obtain ⟨n2, member2, -⟩ := (only b).mpr rfl
      rw [empty] at member2
      cases member2
    obtain ⟨x, inside2, ends2⟩ := endOf_last made.nodes some
    have same := (only x).mp inside2
    rw [BitVec.le_def, made.high, ends2, same, ← start]
    exact last.trans built.below
  · obtain ⟨aligned2, x, inside2⟩ := nodesFrom_start made.nodes member2
    have same := (only x).mp ⟨n2, member2, inside2⟩
    rw [start_of_inNode aligned2 inside2, same, start]

/-- The name of a category that is alone is read. -/
theorem single_read {bit : U32} (small : bit.toNat < 2 ^ 32 - 2)
    (safe : Safe p (mlsComputeCatsLenReads p [bit] (-2) (-2))) : Filled p .catNames (bit + 1) := by
  unfold mlsComputeCatsLenReads at safe
  split at safe
  · obtain ⟨_, -, name⟩ := safe_after answers_closeLen safe
    exact safe_symName.mp name.left
  · unfold mlsComputeCatsLenReads mlsComputeCloseLenReads at safe
    have other : (-2 : Int) ≠ bit.toInt := by
      rw [BitVec.toInt_eq_toNat_cond]
      omega
    rw [if_pos other] at safe
    have name := safe_symName.mp safe.left
    rw [BitVec.ofInt_toInt] at name
    exact name

theorem cats_needed (loaded : TablesLoaded p) (complete : SymbolsComplete p m)
    (valid : ValidContext p c₀) (enabled : p.mlsEnabled = true) : CatsFilled p := by
  intro sens datum b defined inside bound
  have passed := check_passed valid.valid
  have builtDatum := SensDatum.built loaded defined
  obtain ⟨e, canonical, only, covers⟩ := exists_single builtDatum inside
  have built := Canonical.built canonical
  have level : mlsLevelIsvalid p { sens, cat := e } = .ok true := by
    refine (mlsLevelIsvalid_iff p _).mpr ⟨datum, defined, (contains_iff builtDatum built).mpr
      ⟨covers, fun x here => ?_, fun some x here => ?_⟩⟩
    · rw [(only x).mp here]
      exact inside
    · rw [(only x).mp here]
      exact bound some
  have range : mlsRangeIsvalid p { low := { sens, cat := e }, high := { sens, cat := e } } = .ok true :=
    rangeIsvalid_iff.mpr ⟨⟨level, level⟩, dom_refl built⟩
  obtain ⟨-, -, length⟩ := object_printed loaded complete passed.user passed.type ⟨built, built⟩
    fun _ => range
  unfold mlsComputeContextLenReads at length
  rw [if_neg (not_not.mpr enabled)] at length
  have low := length.left
  unfold mlsComputeLevelLenReads at low
  obtain ⟨_, -, cats⟩ := safe_after (answers_symName fun _ => rfl) low
  have small : b < e.highbit.toNat := built.upper ((only b).mpr rfl)
  have below := canonical.nodes.room ((only b).mpr rfl)
  rw [← canonical.high] at below
  have high := e.highbit.isLt
  obtain ⟨sorted, members⟩ := positiveBits_spec canonical
  have single : ebitmapPositiveBits e = [BitVec.ofNat 32 b] := by
    refine List.map_injective_iff.mpr (fun _ _ => BitVec.eq_of_toNat_eq) ?_
    rw [List.map_cons, List.map_nil, BitVec.toNat_ofNat, Nat.mod_eq_of_lt (by omega)]
    refine List.Perm.eq_of_pairwise (fun x y _ _ less more => absurd less (by omega)) sorted
      (List.pairwise_singleton _ _) ?_
    refine (List.perm_ext_iff_of_nodup (sorted.imp Nat.ne_of_lt) (List.nodup_singleton b)).mpr fun x => ?_
    rw [members, only, List.mem_singleton]
  have read := cats.left
  dsimp only at read
  rw [single] at read
  refine single_read ?_ read
  rw [BitVec.toNat_ofNat, Nat.mod_eq_of_lt (by omega)]
  unfold ebitmapSize at below
  omega

end Needed

section Reports

variable {c₀ : Context} {tclass : U16} {enforcing : Bool}

/-- What the report of an invalid context reads. -/
theorem report_named (mapped : c.str = none)
    (safe : Safe p (computeSidHandleInvalidContextReads p scontext tcontext tclass c enforcing)) :
    Filled p .roleNames c.role ∧ Filled p .typeNames c.type ∧
      Filled p .classNames (tclass.zeroExtend 32) := by
  unfold computeSidHandleInvalidContextReads at safe
  obtain ⟨_, -, afterSource⟩ := safe_after answers_print safe
  obtain ⟨_, -, afterTarget⟩ := safe_after answers_print afterSource
  obtain ⟨_, -, afterNew⟩ := safe_after answers_print afterTarget
  obtain ⟨-, role, type, -⟩ := print_named mapped afterTarget.left
  have cls := (Traced.reads_read _ _).mp afterNew.left
  exact ⟨role, type, cls⟩

/-- A new context that is checked and reported without an empty slot. -/
theorem settle_needs (loaded : TablesLoaded p)
    (types : ∀ type, policydbTypeIsvalid p type = true → Filled p .types type) (mapped : c.str = none)
    (safe : Safe p (settleReads p scontext tcontext tclass c enforcing)) :
    Filled p .roles c.role ∧ Filled p .types c.type ∧
      (policydbContextIsvalid p c ≠ .ok true → policydbClassIsvalid p (tclass.zeroExtend 32) = true) := by
  unfold settleReads at safe
  obtain ⟨valid, answer, rest⟩ := safe_after answers_isvalid safe
  rw [policydbContextIsvalidReads_result] at answer
  cases valid with
  | true =>
    have passed := check_passed answer
    obtain ⟨role, slot⟩ := loaded.roleSlot answer
    refine ⟨⟨(valid_inside passed.role).2.2, (held_of_atValue slot).2⟩, types _ passed.type, ?_⟩
    exact fun invalid => absurd answer invalid
  | false =>
    rw [if_neg Bool.false_ne_true] at rest
    obtain ⟨role, type, cls⟩ := report_named mapped rest.left
    exact ⟨(roleNamed loaded).mp role, (typeNamed loaded).mp type, fun _ => filled_value cls⟩

theorem ordered_range (valid : ValidContext p c) (enabled : p.mlsEnabled = true) :
    ¬ c.range.high.sens < c.range.low.sens := by
  obtain ⟨-, ordered⟩ := rangeIsvalid_iff.mp ((check_passed valid.valid).range enabled)
  unfold mlsLevelDom at ordered
  rw [Bool.and_eq_true, decide_eq_true_eq] at ordered
  exact BitVec.not_lt.mpr ordered.1

/-- The role and the type of a new object, whatever the contexts are. -/
theorem rules_needed (loaded : TablesLoaded p) (complete : SymbolsComplete p m)
    (types : ∀ type, policydbTypeIsvalid p type = true → Filled p .types type)
    (s : ValidContext p scontext) (t : ValidContext p tcontext) :
    (∀ role, ruleRole p scontext tcontext (m.tclass q) q.specified = some role → Filled p .roles role) ∧
      ∀ type, ruleType p scontext tcontext (m.tclass q) q.specified q.objname = some type →
        Filled p .types type := by
  -- the rules depend on the type of the target only, and its range may not fit that of the source
  let target : Context :=
    { tcontext with role := objectRVal, range := scontext.range, str := none }
  have sPassed := check_passed s.valid
  have tPassed := check_passed t.valid
  have valid : ValidContext p target :=
    ValidContext.withObject loaded s.built rfl tPassed.user tPassed.type sPassed.range
  have safe := complete.labelled scontext target q false s valid
  rw [computeSid_eq] at safe
  obtain ⟨cladatum, -, afterClass⟩ := safe_after answers_cladatum safe
  have answers : Answers p
      (mlsComputeSidReads p scontext target (m.tclass q) q.specified (m.sock q)) :=
    answers_mlsComputeSid rfl (ordered_range s)
  obtain ⟨range, -, settle⟩ := safe_after answers afterClass
  obtain ⟨roleFilled, typeFilled, -⟩ := settle_needs loaded types rfl settle
  constructor
  · intro role given
    have same : (newContext p m q scontext target cladatum range).role = role := by
      show (ruleRole p scontext tcontext (m.tclass q) q.specified).getD _ = role
      rw [given]
      rfl
    rwa [same] at roleFilled
  · intro type given
    have same : (newContext p m q scontext target cladatum range).type = type := by
      show (ruleType p scontext tcontext (m.tclass q) q.specified q.objname).getD _ = type
      rw [given]
      rfl
    rwa [same] at typeFilled

/-- The range of a new object of a class that the policy does not have is always made. -/
theorem answers_outside (loaded : TablesLoaded p)
    (outside : policydbClassIsvalid p (tclass.zeroExtend 32) = false) {sock : Bool} :
    Answers p (mlsComputeSidReads p scontext tcontext tclass q.specified sock) := by
  unfold mlsComputeSidReads
  rw [rangetr_outside loaded outside, cladatum_outside outside]
  split
  · exact answers_pure _
  split
  · exact answers_pure _
  split
  · exact answers_pure _
  split
  · exact answers_pure _
  · rename_i transition change member
    rcases specified_cases q with is | is | is
    · exact absurd is transition
    · exact absurd is change
    · exact absurd is member

theorem sockets_needed (loaded : TablesLoaded p) (complete : SymbolsComplete p m)
    (types : ∀ type, policydbTypeIsvalid p type = true → Filled p .types type)
    (s : ValidContext p scontext) (t : ValidContext p tcontext)
    (outside : policydbClassIsvalid p ((m.tclass q).zeroExtend 32) = false) (socket : m.sock q = true) :
    policydbContextIsvalid p (socketContext p m q scontext tcontext) = .ok true := by
  have safe := complete.labelled scontext tcontext q false s t
  rw [computeSid_eq, cladatum_outside outside] at safe
  have afterClass := safe.right rfl
  obtain ⟨range, made, settle⟩ := safe_after (answers_outside loaded outside) afterClass
  obtain ⟨-, -, unlessValid⟩ := settle_needs loaded types rfl settle
  have given : ∀ type, ruleType p scontext tcontext (m.tclass q) q.specified q.objname = some type →
      Filled p .types type := (rules_needed loaded complete types s t).2
  have check := outside_check loaded s t (fun type here => filled_value (given type here)) outside made
  rw [if_pos socket] at check
  rw [← check]
  by_contra invalid
  rw [unlessValid invalid] at outside
  cases outside

theorem present_of_complete (loaded : TablesLoaded p) (found : BoolsFound p)
    (complete : SymbolsComplete p m) : SymbolsPresent p m := by
  refine ⟨fun node member => (safe_condExpr found node.expr).mp (complete.evaluated node member), ?_⟩
  rintro ⟨c₀, valid⟩
  have passed := check_passed valid.valid
  have types : ∀ type, policydbTypeIsvalid p type = true → Filled p .types type := fun type known =>
    (object_printed loaded complete passed.user known valid.built passed.range).2.1
  constructor
  · exact fun user known => (object_printed loaded complete known passed.type valid.built passed.range).1
  · exact types
  · exact fun tclass known => classes_needed complete valid known
  · exact fun enabled => cats_needed loaded complete valid enabled
  · exact fun s t q role sValid tValid given =>
      (rules_needed loaded complete types sValid tValid).1 role given
  · exact fun s t q type sValid tValid given =>
      (rules_needed loaded complete types sValid tValid).2 type given
  · exact fun s t q sValid tValid outside socket =>
      sockets_needed loaded complete types sValid tValid outside socket

end Reports

section Main

/-- Every query about valid contexts stays on filled slots just where the values it can have in hand are
there. -/
theorem symbols_complete_iff (inForce : InForce p) (m : ClassMap) :
    SymbolsComplete p m ↔ SymbolsPresent p m := by
  have loaded := inForce_tables inForce
  have found := (BooleanStates.inForce_bools inForce).loaded.found
  constructor
  · exact present_of_complete loaded found
  · exact complete_of_present loaded found (inForce_ranges inForce)

end Main

section Concrete

/-- Two users, of which one has an entry. -/
def missingImage : PolicyImage :=
  { smallImage with users := symbols 2 [userBytes 1 0 0 (cstr ['u']) emptyBitmap] }

/-- A context of the user without an entry. -/
def missingContext : Context :=
  { contextInit with user := 2, role := objectRVal, type := 1 }

/-- A kernel without classes of its own. -/
def noClasses : ClassMap := { map := { mapping := [] }, securityIsSocketClass := fun _ => false }

theorem symbols_complete_iff_small : ∃ p rest, policydbRead smallImage.bytes = .ok (p, rest) ∧
    (SymbolsComplete p noClasses ↔ SymbolsPresent p noClasses) := by
  have accepted : smallImage.accepts (fun _ => true) = true := by decide +kernel
  obtain ⟨p, rest, read, -⟩ := PolicyImage.accepts_iff.mp accepted
  exact ⟨p, rest, read, symbols_complete_iff (.loaded read) noClasses⟩

/-- A valid context of a user without an entry is printed through an empty slot. -/
theorem missing_user_printed : ∃ p rest, policydbRead missingImage.bytes = .ok (p, rest) ∧
    ValidContext p missingContext ∧ ¬ Safe p (contextStructToStringReads p missingContext) := by
  have accepted : missingImage.accepts (fun p =>
      (policydbContextIsvalid p missingContext).toOption == some true &&
        !ValueArray.userNames.holds p 1) = true := by
    decide +kernel
  obtain ⟨p, rest, read, test⟩ := PolicyImage.accepts_iff.mp accepted
  rw [Bool.and_eq_true, beq_iff_eq, Bool.not_eq_true'] at test
  obtain ⟨valid, empty⟩ := test
  refine ⟨p, rest, read, ⟨?_, ⟨init_built, init_built⟩⟩, fun safe => ?_⟩
  · cases answer : policydbContextIsvalid p missingContext with
    | error f =>
      rw [answer] at valid
      cases valid
    | ok v =>
      rw [answer] at valid
      cases valid
      rfl
  · have held := (print_named rfl safe).1.2
    change ValueArray.userNames.holds p 1 = true at held
    rw [empty] at held
    cases held

end Concrete

end Ksrc.Guarantees.SymbolSlots

import Ksrc.Guarantees.AvRules
import Ksrc.Guarantees.BoundsRecursion
import Ksrc.Guarantees.LoadedSlots

/-!
# What an access decision means

Source: `security/selinux/ss/services.c` (`context_struct_compute_av`,
`type_attribute_bounds_av`), `conditional.c` (`cond_compute_av`).

A permission is allowed where some rule of the pair of contexts gives it, every constraint on it holds,
the change of roles it makes is allowed, and the contexts of the bounds have it, too. The two audit
vectors depend on the rules only.
-/
namespace Ksrc.Guarantees.AccessDecisions

open Library Source AvRules AvtabEnumeration
  BoundsRecursion PoliciesInForce PolicydbShape
  PolicyImages

variable {p : Policydb} {scontext tcontext : Context} {tclass : U16} {k : Nat}

/-- The types and attributes that stand for a type: the values of the bits of its map. -/
def typesOf (p : Policydb) (type : U32) : List U32 :=
  match p.typeAttrMapArray[(type - 1).toNat]? with
  | some attrs => (ebitmapPositiveBits attrs).map (· + 1)
  | none => []

/-- A key is one of the class and of types of both contexts, as far as its 16 bits tell. -/
structure KeyFor (p : Policydb) (scontext tcontext : Context) (tclass : U16) (key : AvtabKey) :
    Prop where
  source : ∃ value ∈ typesOf p scontext.type, key.sourceType = value.truncate 16
  target : ∃ value ∈ typesOf p tcontext.type, key.targetType = value.truncate 16
  tclass : key.targetClass = tclass

/-- A rule of the pair of contexts with a specifier; a conditional one is enabled. -/
def RuleOf (p : Policydb) (scontext tcontext : Context) (tclass flag : U16) (n : AvtabNode) : Prop :=
  KeyFor p scontext tcontext tclass n.key ∧
    (n ∈ p.teAvtab.nodes ∧ n.key.specified = flag ∨ n ∈ p.teCondAvtab.nodes ∧ Both n flag)

/-- The constraints of a class. -/
def constraintsOf (p : Policydb) (tclass : U16) : List ConstraintNode :=
  match p.classValToStruct[(tclass.zeroExtend 32 - 1).toNat]? with
  | some (some datum) => datum.constraints
  | _ => []

/-- The bit is that of a permission of the class. -/
def PermBit (p : Policydb) (tclass : U16) (name : Name) (k : Nat) : Prop :=
  ∃ perm, stringToAvPerm p tclass name = .ok perm ∧ perm.getLsbD k = true

/-- A permission of a process to change into a context of another role. -/
def RoleChange (p : Policydb) (scontext tcontext : Context) (tclass : U16) (k : Nat) : Prop :=
  tclass = stringToSecurityClass p processName ∧ scontext.role ≠ tcontext.role ∧
    (PermBit p tclass transitionName k ∨ PermBit p tclass dyntransitionName k)

/-- What a permission needs, whatever the bounds. -/
structure GrantedHere (p : Policydb) (tclass : U16) (k : Nat) (scontext tcontext : Context) : Prop where
  rule : ∃ n, RuleOf p scontext tcontext tclass avtabAllowed n ∧ n.datum.u.getLsbD k = true
  constraints : ∀ constraint ∈ constraintsOf p tclass, constraint.permissions.getLsbD k = true →
    constraintExprEval p scontext tcontext none constraint.expr [] = .ok true
  roles : RoleChange p scontext tcontext tclass k →
    ∃ ra ∈ p.roleAllow, scontext.role = ra.role ∧ tcontext.role = ra.newRole

/-- The context with the type that bounds its own, if there is one. -/
def boundTarget (p : Policydb) (tcontext : Context) : Context :=
  { tcontext with type := (typeBound p tcontext.type).getD tcontext.type }

/-- A permission is granted, up the bounds of the source. -/
inductive Granted (p : Policydb) (tclass : U16) (k : Nat) : Context → Context → Prop
  | intro {scontext tcontext : Context} : GrantedHere p tclass k scontext tcontext →
    (∀ bounds, typeBound p scontext.type = some bounds →
      Granted p tclass k { scontext with type := bounds } (boundTarget p tcontext)) →
    Granted p tclass k scontext tcontext

/-- The vectors of a decision are those that the policy gives the pair of contexts. -/
structure Decides (p : Policydb) (tclass : U16) (scontext tcontext : Context) (avd : AvDecision) :
    Prop where
  allowed : ∀ k, avd.allowed.getLsbD k = true ↔ Granted p tclass k scontext tcontext
  auditallow : ∀ k, avd.auditallow.getLsbD k = true ↔
    ∃ n, RuleOf p scontext tcontext tclass avtabAuditallow n ∧ n.datum.u.getLsbD k = true
  auditdeny : ∀ k < 32, avd.auditdeny.getLsbD k = true ↔
    ∀ n, RuleOf p scontext tcontext tclass avtabAuditdeny n → n.datum.u.getLsbD k = true

section Rules

variable {table : Avtab} {sattr tattr : Ebitmap} {n : AvtabNode} {acc : Acc}

/-- The vectors before any rule. -/
def Cleared (acc : Acc) : Prop :=
  acc.1.allowed = 0 ∧ acc.1.auditallow = 0 ∧ acc.1.auditdeny = 0xffffffff

theorem avtabMatch_attrKey {i j : U32} {specified : U16} {key : AvtabKey} :
    avtabMatch (attrKey i j tclass specified) specified key = true ↔
      (key.sourceType = (i + 1).truncate 16 ∧ key.targetType = (j + 1).truncate 16 ∧
        key.targetClass = tclass) ∧ specified &&& key.specified ≠ 0 := by
  simp only [avtabMatch, attrKey, Bool.and_eq_true, beq_iff_eq, decide_eq_true_eq]
  constructor
  · rintro ⟨⟨⟨source, target⟩, cls⟩, specifier⟩
    exact ⟨⟨source.symm, target.symm, cls.symm⟩, specifier⟩
  · rintro ⟨⟨source, target, cls⟩, specifier⟩
    exact ⟨⟨⟨source.symm, target.symm⟩, cls.symm⟩, specifier⟩

theorem typesOf_map {type : U32} {attrs : Ebitmap} (map : atValue p.typeAttrMapArray type = .ok attrs) :
    typesOf p type = (ebitmapPositiveBits attrs).map (· + 1) := by
  unfold typesOf
  rw [atValue_ok map]

theorem held_iff {type : U32} {attrs : Ebitmap} (map : atValue p.typeAttrMapArray type = .ok attrs)
    (held : U16) : (∃ value ∈ typesOf p type, held = value.truncate 16) ↔
      ∃ i ∈ ebitmapPositiveBits attrs, held = (i + 1).truncate 16 := by
  rw [typesOf_map map]
  simp only [List.mem_map, exists_exists_and_eq_and]

/-- The loops come to the rules whose keys are for the pair of contexts. -/
theorem ruleFor_iff (sources : atValue p.typeAttrMapArray scontext.type = .ok sattr)
    (targets : atValue p.typeAttrMapArray tcontext.type = .ok tattr)
    (specifier : avSpecified &&& n.key.specified ≠ 0) :
    RuleFor table sattr tattr tclass n ↔
      n ∈ table.nodes ∧ KeyFor p scontext tcontext tclass n.key := by
  unfold RuleFor
  apply and_congr_right
  intro _
  constructor
  · rintro ⟨i, source, j, target, matched⟩
    obtain ⟨⟨sourceType, targetType, cls⟩, -⟩ := avtabMatch_attrKey.mp matched
    constructor
    · exact (held_iff sources _).mpr ⟨i, source, sourceType⟩
    · exact (held_iff targets _).mpr ⟨j, target, targetType⟩
    · exact cls
  · rintro ⟨source, target, cls⟩
    obtain ⟨i, source, sourceType⟩ := (held_iff sources _).mp source
    obtain ⟨j, target, targetType⟩ := (held_iff targets _).mp target
    exact ⟨i, source, j, target, avtabMatch_attrKey.mpr ⟨⟨sourceType, targetType, cls⟩, specifier⟩⟩

theorem code_specifier (bit : AvBit) : avSpecified &&& bit.code ≠ 0 := by
  rcases bit.code_cases with code | code | code <;> rw [code] <;> decide

theorem both_specifier (bit : AvBit) (both : Both n bit.code) : avSpecified &&& n.key.specified ≠ 0 := by
  have facts : avSpecified &&& (bit.code ||| avtabEnabled) ≠ 0 := by
    rcases bit.code_cases with code | code | code <;> rw [code] <;> decide
  intro none
  apply facts
  rw [← both, ← BitVec.and_assoc, none]
  exact BitVec.zero_and

/-- The loops see what some rule of the pair of contexts sets. -/
theorem computeAvRules_bit (shape : PolicyShape p) (bit : AvBit)
    (sources : atValue p.typeAttrMapArray scontext.type = .ok sattr)
    (targets : atValue p.typeAttrMapArray tcontext.type = .ok tattr) :
    bit.seen (computeAvRules p tclass sattr tattr acc) ↔ bit.seen acc ∨
      ∃ n, RuleOf p scontext tcontext tclass bit.code n ∧ bit.sets n.datum.u := by
  have start : Stamped acc.1.seqno acc.1.flags acc := ⟨rfl, rfl⟩
  have seen : _ ∧ (bit.seen (computeAvRules p tclass sattr tattr acc) ↔ _) :=
    computeAvRules_seen shape.teAvtab shape.teCondAvtab (teBit bit) (condBit bit) sattr tattr start
  rw [seen.2]
  apply or_congr_right
  constructor
  · rintro (⟨n, ruleFor, specified, sets⟩ | ⟨n, ruleFor, both, sets⟩)
    · have specifier := code_specifier bit
      rw [← specified] at specifier
      obtain ⟨member, key⟩ := (ruleFor_iff sources targets specifier).mp ruleFor
      exact ⟨n, ⟨key, .inl ⟨member, specified⟩⟩, sets⟩
    · obtain ⟨member, key⟩ := (ruleFor_iff sources targets (both_specifier bit both)).mp ruleFor
      exact ⟨n, ⟨key, .inr ⟨member, both⟩⟩, sets⟩
  · rintro ⟨n, ⟨key, ⟨member, specified⟩ | ⟨member, both⟩⟩, sets⟩
    · have specifier := code_specifier bit
      rw [← specified] at specifier
      exact .inl ⟨n, (ruleFor_iff sources targets specifier).mpr ⟨member, key⟩, specified, sets⟩
    · exact .inr ⟨n, (ruleFor_iff sources targets (both_specifier bit both)).mpr ⟨member, key⟩, both, sets⟩

end Rules

section Restrictions

variable {cs : List ConstraintNode} {allowed allowed' : U32}

/-- The evaluation of a constraint of the list does not stop. -/
def Evaluate (p : Policydb) (scontext tcontext : Context) (cs : List ConstraintNode) : Prop :=
  ∀ constraint ∈ cs, ∃ v, constraintExprEval p scontext tcontext none constraint.expr [] = .ok v

theorem getLsbD_without {a b : U32} :
    (a &&& ~~~b).getLsbD k = true ↔ a.getLsbD k = true ∧ ¬ b.getLsbD k = true := by
  rw [BitVec.getLsbD_and, BitVec.getLsbD_not, Bool.and_eq_true, Bool.and_eq_true, Bool.not_eq_true',
    Bool.not_eq_true]
  constructor
  · rintro ⟨one, -, other⟩
    exact ⟨one, other⟩
  · rintro ⟨one, other⟩
    exact ⟨one, decide_eq_true (BitVec.lt_of_getLsbD one), other⟩

/-- Two masks with a bit in common meet. -/
theorem meet_of_bit {a b : U32} (one : a.getLsbD k = true) (other : b.getLsbD k = true) :
    a &&& b ≠ 0 := by
  intro none
  have bit : (a &&& b).getLsbD k = true := by
    rw [BitVec.getLsbD_and, one, other]
    rfl
  rw [none, show (0 : U32).getLsbD k = false from BitVec.getLsbD_zero] at bit
  cases bit

/-- The permissions that the constraints leave. -/
theorem computeAvConstraints_bit
    (done : computeAvConstraints p scontext tcontext cs allowed = .ok allowed') :
    allowed'.getLsbD k = true ↔ allowed.getLsbD k = true ∧
      ∀ constraint ∈ cs, constraint.permissions.getLsbD k = true →
        constraintExprEval p scontext tcontext none constraint.expr [] = .ok true := by
  induction cs generalizing allowed with
  | nil =>
    cases done
    simp
  | cons constraint rest ih =>
    unfold computeAvConstraints at done
    rw [List.forall_mem_cons]
    split at done
    · cases evaluated : constraintExprEval p scontext tcontext none constraint.expr [] with
      | error e =>
        rw [evaluated] at done
        cases done
      | ok holds =>
        rw [evaluated] at done
        rw [ih done]
        cases holds with
        | true => simp
        | false =>
          rw [if_neg Bool.false_ne_true, getLsbD_without, and_assoc]
          simp
    · rename_i apart
      rw [ih done]
      apply and_congr_right
      intro bit
      have free : ¬ constraint.permissions.getLsbD k = true := fun other => apart (meet_of_bit other bit)
      simp [free]

theorem computeAvConstraints_ok (evaluate : Evaluate p scontext tcontext cs) (allowed : U32) :
    ∃ allowed', computeAvConstraints p scontext tcontext cs allowed = .ok allowed' := by
  induction cs generalizing allowed with
  | nil => exact ⟨allowed, rfl⟩
  | cons constraint rest ih =>
    obtain ⟨⟨holds, evaluated⟩, others⟩ := List.forall_mem_cons.mp evaluate
    unfold computeAvConstraints
    split
    · rw [evaluated]
      exact ih others _
    · exact ih others _

theorem permBit_iff {name : Name} {perm : U32} (found : stringToAvPerm p tclass name = .ok perm) :
    PermBit p tclass name k ↔ perm.getLsbD k = true := by
  unfold PermBit
  rw [found]
  constructor
  · rintro ⟨perm', same, bit⟩
    cases same
    exact bit
  · exact fun bit => ⟨perm, rfl, bit⟩

/-- The permissions that the loader has put together for the check of the roles. -/
theorem roleChange_iff (shape : PolicyShape p) : RoleChange p scontext tcontext tclass k ↔
    tclass = p.processClass ∧ scontext.role ≠ tcontext.role ∧
      p.processTransPerms.getLsbD k = true := by
  unfold RoleChange
  rw [← shape.processClass]
  apply and_congr_right
  rintro rfl
  apply and_congr_right
  intro _
  have perms := shape.transPerms
  unfold processTransPerms at perms
  obtain ⟨perm, found, perms⟩ := exceptBind_ok.mp perms
  split at perms
  · cases perms
  · obtain ⟨dyn, foundDyn, perms⟩ := exceptBind_ok.mp perms
    split at perms
    · cases perms
    · rw [permBit_iff found, permBit_iff foundDyn, ← Except.ok.inj perms, BitVec.getLsbD_or,
        Bool.or_eq_true]

/-- The permissions that the change of roles leaves. -/
theorem computeAvRoles_bit (shape : PolicyShape p) :
    (computeAvRoles p scontext tcontext tclass allowed).getLsbD k = true ↔
      allowed.getLsbD k = true ∧ (RoleChange p scontext tcontext tclass k →
        ∃ ra ∈ p.roleAllow, scontext.role = ra.role ∧ tcontext.role = ra.newRole) := by
  rw [roleChange_iff shape]
  unfold computeAvRoles
  split
  · rename_i checked
    obtain ⟨process, -, differ⟩ := checked
    have pairs : (p.roleAllow.any fun ra => scontext.role == ra.role && tcontext.role == ra.newRole) =
        true ↔ ∃ ra ∈ p.roleAllow, scontext.role = ra.role ∧ tcontext.role = ra.newRole := by
      simp [List.any_eq_true]
    rw [← pairs]
    split
    · rename_i listed
      exact (and_iff_left fun _ => listed).symm
    · rename_i unlisted
      rw [getLsbD_without]
      apply and_congr_right
      intro _
      constructor
      · exact fun free change => absurd change.2.2 free
      · exact fun change bit => unlisted (change ⟨process, differ, bit⟩)
  · rename_i unchecked
    refine (and_iff_left_of_imp fun bit change => ?_).symm
    exact absurd ⟨change.1, meet_of_bit bit change.2.2, change.2.1⟩ unchecked

end Restrictions

section Pair

variable {acc r : Acc} {datum : ClassDatum}

/-- The class is there. -/
def ClassThere (p : Policydb) (tclass : U16) : Prop :=
  ∃ datum, atValue p.classValToStruct (tclass.zeroExtend 32) = .ok (some datum)

theorem constraintsOf_class (there : atValue p.classValToStruct (tclass.zeroExtend 32) = .ok (some datum)) :
    constraintsOf p tclass = datum.constraints := by
  unfold constraintsOf
  rw [atValue_ok there]

/-- The vectors that the rules, the constraints and the roles give a pair of contexts. -/
theorem computeAvUnbounded_bits (shape : PolicyShape p) (cleared : Cleared acc)
    (done : computeAvUnbounded p scontext tcontext tclass acc = .ok r) :
    (∀ k, r.1.allowed.getLsbD k = true ↔ GrantedHere p tclass k scontext tcontext) ∧
      (∀ k, r.1.auditallow.getLsbD k = true ↔
        ∃ n, RuleOf p scontext tcontext tclass avtabAuditallow n ∧ n.datum.u.getLsbD k = true) ∧
      ∀ k < 32, r.1.auditdeny.getLsbD k = true ↔
        ∀ n, RuleOf p scontext tcontext tclass avtabAuditdeny n → n.datum.u.getLsbD k = true := by
  obtain ⟨noAllowed, noAuditallow, allAuditdeny⟩ := cleared
  unfold computeAvUnbounded at done
  simp only [exceptBind_ok] at done
  obtain ⟨entry, slot, sattr, sources, tattr, targets, datum, pointer, allowed, constrained, made⟩ := done
  cases entry with
  | none => cases pointer
  | some _ =>
    cases pointer
    cases made
    have bits (bit : AvBit) : bit.seen (computeAvRules p tclass sattr tattr acc) ↔ _ :=
      computeAvRules_bit shape bit sources targets
    have noBit : ∀ k, (0 : U32).getLsbD k = true ↔ False := by simp
    constructor
    · intro k
      have rules := bits (.allowed k)
      simp only [AvBit.seen, AvBit.code, AvBit.sets, noAllowed, noBit, false_or] at rules
      dsimp only
      rw [computeAvRoles_bit shape, computeAvConstraints_bit constrained, rules, ← constraintsOf_class slot]
      constructor
      · rintro ⟨⟨rule, constraints⟩, roles⟩
        exact ⟨rule, constraints, roles⟩
      · exact fun granted => ⟨⟨granted.rule, granted.constraints⟩, granted.roles⟩
    constructor
    · intro k
      have rules := bits (.auditallow k)
      simp only [AvBit.seen, AvBit.code, AvBit.sets, noAuditallow, noBit, false_or] at rules
      exact rules
    · intro k small
      have full : acc.1.auditdeny.getLsbD k = true := by
        have ones : (0xffffffff : U32) = BitVec.allOnes 32 := by decide
        rw [allAuditdeny, ones, BitVec.getLsbD_allOnes, decide_eq_true small]
      have rules := bits (.quiet k)
      simp only [AvBit.seen, AvBit.code, AvBit.sets, full, Bool.true_eq_false, false_or] at rules
      rw [← Bool.not_eq_false, rules]
      simp only [not_exists, not_and, Bool.not_eq_false]

/-- Nothing stops the decision about a pair of contexts whose bounds are left out. -/
theorem computeAvUnbounded_ok (there : ClassThere p tclass)
    (source : ∃ attrs, atValue p.typeAttrMapArray scontext.type = .ok attrs)
    (target : ∃ attrs, atValue p.typeAttrMapArray tcontext.type = .ok attrs)
    (evaluate : Evaluate p scontext tcontext (constraintsOf p tclass)) (acc : Acc) :
    ∃ r, computeAvUnbounded p scontext tcontext tclass acc = .ok r := by
  obtain ⟨datum, slot⟩ := there
  obtain ⟨sattr, sources⟩ := source
  obtain ⟨tattr, targets⟩ := target
  rw [constraintsOf_class slot] at evaluate
  obtain ⟨allowed, constrained⟩ :=
    computeAvConstraints_ok evaluate (computeAvRules p tclass sattr tattr acc).1.allowed
  refine ⟨({ (computeAvRules p tclass sattr tattr acc).1 with
    allowed := computeAvRoles p scontext tcontext tclass allowed },
    (computeAvRules p tclass sattr tattr acc).2), ?_⟩
  unfold computeAvUnbounded
  simp only [exceptBind_ok]
  exact ⟨_, slot, _, sources, _, targets, _, rfl, _, constrained, rfl⟩

end Pair

section Bounds

variable {avd : AvDecision} {xperms : Option ExtendedPerms} {r : Acc}

/-- The contexts that bound a pair of contexts. -/
def upBounds (p : Policydb) (pair : Context × Context) : Option (Context × Context) :=
  (typeBound p pair.1.type).map fun bounds => ({ pair.1 with type := bounds }, boundTarget p pair.2)

/-- The type is there. -/
def TypeThere (p : Policydb) (type : U32) : Prop :=
  ∃ datum, atValue p.typeValToStruct type = .ok (some datum)

/-- What a decision reads is there, and no constraint stops it on the way up the bounds. -/
structure Evaluable (p : Policydb) (tclass : U16) (scontext tcontext : Context) : Prop where
  cls : ClassThere p tclass
  source : TypeThere p scontext.type
  target : TypeThere p tcontext.type
  constraints : ∀ pair, Relation.ReflTransGen (Links (upBounds p)) (scontext, tcontext) pair →
    Evaluate p pair.1 pair.2 (constraintsOf p tclass)

theorem typeBound_datum {type : U32} {datum : TypeDatum}
    (there : atValue p.typeValToStruct type = .ok (some datum)) :
    typeBound p type = if datum.bounds = 0 then none else some datum.bounds :=
  typeBound_slot (atValue_ok there)

theorem boundTarget_eq {datum : TypeDatum}
    (there : atValue p.typeValToStruct tcontext.type = .ok (some datum)) :
    boundTarget p tcontext =
      if datum.bounds ≠ 0 then { tcontext with type := datum.bounds } else tcontext := by
  unfold boundTarget
  rw [typeBound_datum there]
  by_cases unbounded : datum.bounds = 0
  · rw [if_pos unbounded, if_neg (not_not.mpr unbounded)]
    rfl
  · rw [if_neg unbounded, if_pos unbounded]
    rfl

/-- The contexts that a decision goes on with are those of the bounds. -/
theorem boundingContexts_up {lo : Option (Context × Context)}
    (found : boundingContexts p scontext tcontext = .ok lo) : upBounds p (scontext, tcontext) = lo := by
  unfold boundingContexts at found
  simp only [exceptBind_ok] at found
  obtain ⟨entry, sourceRead, source, pointer, found⟩ := found
  cases entry with
  | none => cases pointer
  | some _ =>
    cases pointer
    unfold upBounds
    rw [typeBound_datum sourceRead]
    split at found
    · rename_i unbounded
      cases found
      rw [if_pos unbounded]
      rfl
    · rename_i bounded
      simp only [exceptBind_ok] at found
      obtain ⟨entry, targetRead, target, pointer, made⟩ := found
      cases entry with
      | none => cases pointer
      | some _ =>
        cases pointer
        cases made
        rw [if_neg bounded, ← boundTarget_eq targetRead]
        rfl

theorem boundingContexts_there (source : TypeThere p scontext.type) (target : TypeThere p tcontext.type) :
    ∃ lo, boundingContexts p scontext tcontext = .ok lo := by
  obtain ⟨source, sourceRead⟩ := source
  obtain ⟨target, targetRead⟩ := target
  unfold boundingContexts
  rw [sourceRead]
  by_cases unbounded : source.bounds = 0
  · exact ⟨none, if_pos unbounded⟩
  · refine ⟨some ({ scontext with type := source.bounds },
      if target.bounds ≠ 0 then { tcontext with type := target.bounds } else tcontext), ?_⟩
    refine (if_neg unbounded).trans ?_
    rw [targetRead]
    rfl

theorem upBounds_some {bounds : U32} (bounded : typeBound p scontext.type = some bounds) :
    upBounds p (scontext, tcontext) =
      some ({ scontext with type := bounds }, boundTarget p tcontext) := by
  unfold upBounds
  rw [bounded]
  rfl

/-- The answer of a decision for the bounds masks the permissions. -/
theorem getLsbD_masked {a b : U32} :
    (a &&& ~~~(~~~b &&& a)).getLsbD k = true ↔ a.getLsbD k = true ∧ b.getLsbD k = true := by
  rw [getLsbD_without]
  apply and_congr_right
  intro bit
  rw [BitVec.and_comm, getLsbD_without, not_and, not_not]
  exact ⟨fun masked => masked bit, fun other _ => other⟩

/-- A decision is that of the policy, by induction on the depth of the bounds. -/
theorem computeAvDepth_decides {depth : Nat} (shape : PolicyShape p)
    (known : ¬ (tclass = 0 ∨ p.pClasses.nprim < tclass.zeroExtend 32))
    (done : contextStructComputeAvDepth p depth scontext tcontext tclass avd xperms = .ok r) :
    Decides p tclass scontext tcontext r.1 := by
  induction depth generalizing scontext tcontext avd xperms r with
  | zero => cases done
  | succ depth ih =>
    unfold contextStructComputeAvDepth at done
    simp only [if_neg known] at done
    split at done
    · cases done
    · rename_i avd' xperms' unbounded
      obtain ⟨allowed, auditallow, auditdeny⟩ := computeAvUnbounded_bits shape ⟨rfl, rfl, rfl⟩ unbounded
      cases bounding : boundingContexts p scontext tcontext with
      | error e =>
        rw [bounding] at done
        cases done
      | ok lo =>
        rw [bounding] at done
        have up := boundingContexts_up bounding
        cases lo with
        | none =>
          cases done
          refine ⟨fun k => (allowed k).trans ?_, auditallow, auditdeny⟩
          constructor
          · intro here
            refine ⟨here, fun bounds bounded => ?_⟩
            rw [upBounds_some bounded] at up
            cases up
          · rintro ⟨here, -⟩
            exact here
        | some lo =>
          dsimp only at done
          split at done
          · cases done
          · rename_i loAvd loXperms above
            cases done
            have higher := (ih above).allowed
            refine ⟨fun k => ?_, auditallow, auditdeny⟩
            dsimp only
            rw [getLsbD_masked, allowed k]
            constructor
            · rintro ⟨here, there⟩
              refine ⟨here, fun bounds bounded => ?_⟩
              rw [upBounds_some bounded] at up
              cases up
              exact (higher k).mp there
            · rintro ⟨here, there⟩
              refine ⟨here, (higher k).mpr ?_⟩
              unfold upBounds at up
              obtain ⟨bounds, bounded, made⟩ := Option.map_eq_some_iff.mp up
              rw [← made]
              exact there bounds bounded

theorem computeAv_decides (shape : PolicyShape p)
    (known : ¬ (tclass = 0 ∨ p.pClasses.nprim < tclass.zeroExtend 32))
    (done : contextStructComputeAv p scontext tcontext tclass avd xperms = .ok r) :
    Decides p tclass scontext tcontext r.1 :=
  computeAvDepth_decides shape known done

end Bounds

section Answers

variable {avd : AvDecision} {xperms : Option ExtendedPerms} {r : Acc}

/-- A type that is there has an attribute map. -/
theorem attrMap_of_type (shape : PolicyShape p) {type : U32} (there : TypeThere p type) :
    ∃ attrs, atValue p.typeAttrMapArray type = .ok attrs := by
  obtain ⟨datum, read⟩ := there
  obtain ⟨inside, -⟩ := List.getElem?_eq_some_iff.mp (atValue_ok read)
  rw [shape.types, ← shape.attrMaps] at inside
  unfold atValue
  rw [List.getElem?_eq_getElem inside]
  exact ⟨_, rfl⟩

theorem typeThere_bound (shape : PolicyShape p) {type bounds : U32} (there : TypeThere p type)
    (bounded : typeBound p type = some bounds) : TypeThere p bounds := by
  obtain ⟨datum, read⟩ := there
  rw [typeBound_datum read] at bounded
  split at bounded
  · cases bounded
  · rename_i nonzero
    cases bounded
    exact LoadedSlots.bounds_filled shape read nonzero

/-- What is needed for a pair of contexts is there for its bounds. -/
theorem Evaluable.up (shape : PolicyShape p) (evaluable : Evaluable p tclass scontext tcontext)
    {bounds : U32} (bounded : typeBound p scontext.type = some bounds) :
    Evaluable p tclass { scontext with type := bounds } (boundTarget p tcontext) := by
  constructor
  · exact evaluable.cls
  · exact typeThere_bound shape evaluable.source bounded
  · unfold boundTarget
    cases above : typeBound p tcontext.type with
    | none => exact evaluable.target
    | some bounds => exact typeThere_bound shape evaluable.target above
  · exact fun pair later => evaluable.constraints pair (.head (upBounds_some bounded) later)

/-- A decision is made where the one for the bounds is. -/
theorem computeAvDepth_succ {depth : Nat} (shape : PolicyShape p)
    (evaluable : Evaluable p tclass scontext tcontext)
    (above : ∀ bounds, typeBound p scontext.type = some bounds → ∀ avd xperms, ∃ r,
      contextStructComputeAvDepth p depth { scontext with type := bounds } (boundTarget p tcontext) tclass
        avd xperms = .ok r)
    (avd : AvDecision) (xperms : Option ExtendedPerms) :
    ∃ r, contextStructComputeAvDepth p (depth + 1) scontext tcontext tclass avd xperms = .ok r := by
  unfold contextStructComputeAvDepth
  dsimp only
  split
  · exact ⟨_, rfl⟩
  · obtain ⟨⟨avd', xperms'⟩, unbounded⟩ :=
      computeAvUnbounded_ok evaluable.cls (attrMap_of_type shape evaluable.source)
        (attrMap_of_type shape evaluable.target) (evaluable.constraints _ .refl)
        ({ avd with allowed := 0, auditallow := 0, auditdeny := 0xffffffff },
          xperms.map fun _ => { len := 0, drivers := .zero })
    rw [unbounded]
    dsimp only
    obtain ⟨lo, bounding⟩ := boundingContexts_there evaluable.source evaluable.target
    rw [bounding]
    have up := boundingContexts_up bounding
    cases lo with
    | none => exact ⟨_, rfl⟩
    | some lo =>
      unfold upBounds at up
      obtain ⟨bounds, bounded, made⟩ := Option.map_eq_some_iff.mp up
      obtain ⟨⟨loAvd, loXperms⟩, done⟩ := above bounds bounded
        { allowed := 0, auditallow := 0, auditdeny := 0, seqno := 0, flags := 0 } none
      rw [← made]
      dsimp only
      rw [done]
      exact ⟨_, rfl⟩

/-- A decision is made where the walk along the bounds ends, by induction on its length. -/
theorem computeAvDepth_ok {n : Nat} (shape : PolicyShape p)
    (ends : EndsWithin (typeBound p) n scontext.type)
    (evaluable : Evaluable p tclass scontext tcontext) (avd : AvDecision) (xperms : Option ExtendedPerms) :
    ∃ r, contextStructComputeAvDepth p (n + 1) scontext tcontext tclass avd xperms = .ok r := by
  induction n generalizing scontext tcontext avd xperms with
  | zero =>
    apply computeAvDepth_succ shape evaluable
    intro bounds bounded
    rw [show typeBound p scontext.type = none from ends] at bounded
    cases bounded
  | succ n ih =>
    apply computeAvDepth_succ shape evaluable
    intro bounds bounded avd xperms
    exact ih (ends.tail bounded) (evaluable.up shape bounded) avd xperms

theorem computeAv_ok (shape : PolicyShape p) (evaluable : Evaluable p tclass scontext tcontext)
    (avd : AvDecision) (xperms : Option ExtendedPerms) :
    ∃ r, contextStructComputeAv p scontext tcontext tclass avd xperms = .ok r := by
  have ends := shape_bounds_end shape scontext.type
  obtain ⟨r, done⟩ := computeAvDepth_ok shape ends evaluable avd xperms
  refine ⟨r, ?_⟩
  unfold contextStructComputeAv
  rw [← done, ← computeAv_depth ends p.typeValToStruct.length, Nat.add_comm]
  rfl

end Answers

/-- What the decisions about pairs of contexts are. -/
structure Reference (p : Policydb) (tclass : U16) (scontext tcontext : Context) : Prop where
  returns : Evaluable p tclass scontext tcontext → ∀ avd xperms,
    ∃ r, contextStructComputeAv p scontext tcontext tclass avd xperms = .ok r
  decides : ∀ avd xperms r, contextStructComputeAv p scontext tcontext tclass avd xperms = .ok r →
    Decides p tclass scontext tcontext r.1
  nested : ∀ bounds, typeBound p scontext.type = some bounds → ∀ avd avd' xperms xperms' r r',
    contextStructComputeAv p scontext tcontext tclass avd xperms = .ok r →
    contextStructComputeAv p { scontext with type := bounds } (boundTarget p tcontext) tclass avd'
      xperms' = .ok r' → r.1.allowed &&& ~~~r'.1.allowed = 0

section Concrete

/-- A context of the role `object_r`. -/
def objectContext (type : U32) : Context := { contextInit with user := 1, role := 1, type }

def noDecision : AvDecision := { allowed := 0, auditallow := 0, auditdeny := 0, seqno := 0, flags := 0 }

/-- The type `a` is bounded by `b` and has a permission that `b` does not have. -/
def maskedImage : PolicyImage :=
  { boundedImage with rules := counted [ruleBytes 1 1 1 1 3, ruleBytes 2 2 1 1 1] }

/-- A rule with the specifier, among others, whose types are in the maps of both contexts. -/
def StatedRule (p : Policydb) (scontext tcontext : Context) (tclass flag : U16) (n : AvtabNode) : Prop :=
  n.key.sourceType.zeroExtend 32 ∈ typesOf p scontext.type ∧
    n.key.targetType.zeroExtend 32 ∈ typesOf p tcontext.type ∧ n.key.targetClass = tclass ∧
      n.key.specified &&& flag ≠ 0

instance (p : Policydb) (scontext tcontext : Context) (tclass flag : U16) (n : AvtabNode) :
    Decidable (StatedRule p scontext tcontext tclass flag n) :=
  inferInstanceAs (Decidable (_ ∧ _))

/-- The map of the type `a` has the bits 0 and 65537; a rule about `a` has a bit beside its specifier;
a third type is not there. -/
def wideImage : PolicyImage :=
  { smallImage with
    types := symbols 3 [typeBytes 1 1 0 (cstr ['a']), typeBytes 2 1 0 (cstr ['b'])]
    rules := counted [ruleBytes 2 1 1 1 1, ruleBytes 1 1 1 0x8001 2]
    typeAttrs := bitmapBytes 65600 [(0, 1), (65536, 2)] ++ bitmapBytes 64 [(0, 2)] ++
      bitmapBytes 64 [(0, 4)] }

end Concrete

end Ksrc.Guarantees.AccessDecisions

import Ksrc.Guarantees.AvRules
import Ksrc.Guarantees.AvcPolicyDecisions

/-!
# Adding extended rules of unknown kinds to a policy

Source: `security/selinux/ss/services.c` (`context_struct_compute_av`, `security_compute_av`,
`services_compute_xperms_drivers`).

An access vector depends on the rules of the two tables as sets. Extended rules whose kind is
neither that of functions nor that of drivers add no bit to a vector and no driver to the map, but
they make its length 1 as the others do.
-/
namespace Ksrc.Guarantees.AvRuleSets

open Library Source AvcNodeContent AvcPolicyDecisions
  AvRules AvtabEnumeration PolicydbShape

abbrev Rule := AvtabKey × AvtabDatum

/-- The rules of a table, wherever its nodes are. -/
def ruleSet (h : Avtab) : Set Rule := {r | ∃ n ∈ h.nodes, (n.key, n.datum) = r}

/-- An extended rule of unknown kind. -/
structure UnknownRule (r : Rule) : Prop where
  extended : r.1.specified &&& avtabXperms ≠ 0
  notPlain : r.1.specified &&& avtabAv = 0
  unknown : ∃ x, r.2 = .xperms x ∧ x.specified ≠ avtabXpermsIoctlfunction ∧
    x.specified ≠ avtabXpermsIoctldriver

/-- The policy with other access vector rules. -/
def withRules (p : Policydb) (teAvtab teCondAvtab : Avtab) (condList : List CondNode) : Policydb :=
  { p with teAvtab, teCondAvtab, condList }

/-- `p'` is `p` with the rules of `te` added to `te_avtab` and those of `cond` to `te_cond_avtab`. -/
structure AddsRules (p p' : Policydb) (te cond : Set Rule) : Prop where
  same : p' = withRules p p'.teAvtab p'.teCondAvtab p'.condList
  te : ruleSet p'.teAvtab = ruleSet p.teAvtab ∪ te
  cond : ruleSet p'.teCondAvtab = ruleSet p.teCondAvtab ∪ cond

section Sets

variable {h h' : Avtab} {added : Set Rule} {sattr tattr : Ebitmap} {tclass : U16}

/-- A rule whose key is that of a pair of attributes. -/
def Paired (sattr tattr : Ebitmap) (tclass : U16) (key : AvtabKey) : Prop :=
  ∃ i ∈ ebitmapPositiveBits sattr, ∃ j ∈ ebitmapPositiveBits tattr,
    avtabMatch (attrKey i j tclass avSpecified) avSpecified key = true

theorem ruleFor_set {adds : Rule → Prop} :
    (∃ n, RuleFor h sattr tattr tclass n ∧ adds (n.key, n.datum)) ↔
      ∃ r ∈ ruleSet h, Paired sattr tattr tclass r.1 ∧ adds r := by
  constructor
  · rintro ⟨n, ⟨listed, paired⟩, adding⟩
    exact ⟨(n.key, n.datum), ⟨n, listed, rfl⟩, paired, adding⟩
  · rintro ⟨_, ⟨n, listed, rfl⟩, paired, adding⟩
    exact ⟨n, ⟨listed, paired⟩, adding⟩

theorem exists_union {te te' : Set Rule} {adds : Rule → Prop} :
    (∃ r ∈ te ∪ te', Paired sattr tattr tclass r.1 ∧ adds r) ↔
      (∃ r ∈ te, Paired sattr tattr tclass r.1 ∧ adds r) ∨
        ∃ r ∈ te', Paired sattr tattr tclass r.1 ∧ adds r := by
  constructor
  · rintro ⟨r, old | new, adding⟩
    · exact .inl ⟨r, old, adding⟩
    · exact .inr ⟨r, new, adding⟩
  · rintro (⟨r, old, adding⟩ | ⟨r, new, adding⟩)
    · exact ⟨r, .inl old, adding⟩
    · exact ⟨r, .inr new, adding⟩

/-- Rules that add nothing can be added. -/
theorem ruleFor_union {adds : Rule → Prop} (rules : ruleSet h' = ruleSet h ∪ added)
    (nothing : ∀ r ∈ added, ¬ adds r) :
    (∃ n, RuleFor h' sattr tattr tclass n ∧ adds (n.key, n.datum)) ↔
      ∃ n, RuleFor h sattr tattr tclass n ∧ adds (n.key, n.datum) := by
  rw [ruleFor_set, ruleFor_set, rules, exists_union, or_iff_left]
  rintro ⟨r, new, -, adding⟩
  exact nothing r new adding

end Sets

section Vectors

variable {p p' : Policydb} {te cond : Set Rule} {tclass : U16} {scontext tcontext : Context}

theorem unknown_adds_no_te {r : Rule} (unknown : UnknownRule r) (bit : AvBit) :
    ¬ (r.1.specified = bit.code ∧ bit.sets r.2.u) := by
  rintro ⟨specified, -⟩
  have extended := unknown.extended
  rw [specified] at extended
  apply extended
  rcases bit.code_cases with code | code | code <;> rw [code] <;> decide

theorem unknown_adds_no_cond {r : Rule} (unknown : UnknownRule r) (bit : AvBit) :
    ¬ (r.1.specified &&& (bit.code ||| avtabEnabled) = bit.code ||| avtabEnabled ∧ bit.sets r.2.u) := by
  rintro ⟨both, -⟩
  have facts : (bit.code ||| avtabEnabled) &&& avtabAv ≠ 0 ∧
      (bit.code ||| avtabEnabled) &&& avtabAv = avtabAv &&& (bit.code ||| avtabEnabled) := by
    rcases bit.code_cases with code | code | code <;> rw [code] <;> decide
  apply facts.1
  -- the plain specifiers among those of the code are plain specifiers of the rule
  calc (bit.code ||| avtabEnabled) &&& avtabAv
      = (r.1.specified &&& avtabAv) &&& (bit.code ||| avtabEnabled) := by
        rw [BitVec.and_assoc, ← facts.2, ← BitVec.and_assoc, both]
    _ = 0 := by
        rw [unknown.notPlain]
        exact BitVec.zero_and

/-- The loops leave the same vectors. -/
theorem computeAvRules_same (shape : PolicyShape p) (shape' : PolicyShape p')
    (adds : AddsRules p p' te cond) (teUnknown : ∀ r ∈ te, UnknownRule r)
    (condUnknown : ∀ r ∈ cond, UnknownRule r) (sattr tattr : Ebitmap) {acc acc' : Acc}
    (start : acc'.1 = acc.1) :
    (computeAvRules p' tclass sattr tattr acc').1 = (computeAvRules p tclass sattr tattr acc).1 := by
  have bits : ∀ bit : AvBit, bit.seen (computeAvRules p' tclass sattr tattr acc') ↔
      bit.seen (computeAvRules p tclass sattr tattr acc) := by
    intro bit
    have stamped : Stamped acc.1.seqno acc.1.flags acc := ⟨rfl, rfl⟩
    have stamped' : Stamped acc.1.seqno acc.1.flags acc' := by
      rw [Stamped, start]
      exact ⟨rfl, rfl⟩
    have before : bit.seen acc' ↔ bit.seen acc := by
      cases bit <;> simp only [AvBit.seen, start]
    rw [(computeAvRules_seen shape.teAvtab shape.teCondAvtab (teBit bit) (condBit bit) sattr tattr
        stamped).2,
      (computeAvRules_seen shape'.teAvtab shape'.teCondAvtab (teBit bit) (condBit bit) sattr tattr
        stamped').2, before]
    have teSame := @ruleFor_union _ _ _ sattr tattr tclass
      (fun r => r.1.specified = bit.code ∧ bit.sets r.2.u) adds.te
      fun r new => unknown_adds_no_te (teUnknown r new) bit
    have condSame := @ruleFor_union _ _ _ sattr tattr tclass
      (fun r => r.1.specified &&& (bit.code ||| avtabEnabled) = bit.code ||| avtabEnabled ∧
        bit.sets r.2.u) adds.cond
      fun r new => unknown_adds_no_cond (condUnknown r new) bit
    exact or_congr_right (or_congr teSame condSame)
  have stamp : Stamped acc.1.seqno acc.1.flags (computeAvRules p tclass sattr tattr acc) :=
    computeAvRules_stamp shape.teAvtab shape.teCondAvtab sattr tattr
  have stamp' : Stamped acc'.1.seqno acc'.1.flags (computeAvRules p' tclass sattr tattr acc') :=
    computeAvRules_stamp shape'.teAvtab shape'.teCondAvtab sattr tattr
  generalize computeAvRules p' tclass sattr tattr acc' = left at bits stamp'
  generalize computeAvRules p tclass sattr tattr acc = right at bits stamp
  obtain ⟨⟨allowed, auditallow, auditdeny, seqno, flags⟩, xperms⟩ := left
  obtain ⟨⟨allowed₂, auditallow₂, auditdeny₂, seqno₂, flags₂⟩, xperms₂⟩ := right
  rw [start] at stamp'
  obtain ⟨rfl, rfl⟩ := stamp
  obtain ⟨rfl, rfl⟩ := stamp'
  have same : allowed = allowed₂ ∧ auditallow = auditallow₂ ∧ auditdeny = auditdeny₂ := by
    refine ⟨BitVec.eq_of_getLsbD_eq fun k _ => ?_, BitVec.eq_of_getLsbD_eq fun k _ => ?_,
      BitVec.eq_of_getLsbD_eq fun k _ => ?_⟩
    · exact Bool.eq_iff_iff.mpr (bits (.allowed k))
    · exact Bool.eq_iff_iff.mpr (bits (.auditallow k))
    · have cleared := bits (.quiet k)
      simp only [AvBit.seen] at cleared
      cases left : auditdeny.getLsbD k <;> cases right : auditdeny₂.getLsbD k <;> simp_all
  obtain ⟨rfl, rfl, rfl⟩ := same
  rfl

end Vectors

section Frame

variable {p : Policydb} {a b : Avtab} {l : List CondNode} {scontext tcontext : Context}

theorem constraintExprEval_withRules (xcontext : Option Context) (expr : List ConstraintExpr)
    (stack : List Bool) :
    constraintExprEval (withRules p a b l) scontext tcontext xcontext expr stack =
      constraintExprEval p scontext tcontext xcontext expr stack := by
  have attr : ∀ e, cexprEvalAttr (withRules p a b l) scontext tcontext e =
    cexprEvalAttr p scontext tcontext e := fun _ => rfl
  induction expr generalizing stack with
  | nil =>
    cases stack with
    | nil => rfl
    | cons v stack => cases stack <;> rfl
  | cons e rest ih =>
    unfold constraintExprEval
    simp only [ih, attr]

/-- The constraints of a class do not depend on the rules. -/
theorem computeAvConstraints_withRules (constraints : List ConstraintNode) (allowed : U32) :
    computeAvConstraints (withRules p a b l) scontext tcontext constraints allowed =
      computeAvConstraints p scontext tcontext constraints allowed := by
  induction constraints generalizing allowed with
  | nil => rfl
  | cons constraint rest ih =>
    unfold computeAvConstraints
    simp only [constraintExprEval_withRules, ih]

end Frame

section Depth

variable {p p' : Policydb} {te cond : Set Rule} {tclass : U16} {scontext tcontext : Context}

/-- Two results whose decisions are the same, or the same fault. -/
inductive SameAv : Except Fault Acc → Except Fault Acc → Prop
  | fault (e : Fault) : SameAv (.error e) (.error e)
  | decided (avd : AvDecision) (xperms' xperms : Option ExtendedPerms) :
    SameAv (.ok (avd, xperms')) (.ok (avd, xperms))

theorem SameAv.ok {r' r : Except Fault Acc} (same : SameAv r' r) {acc : Acc} (computed : r = .ok acc) :
    ∃ xperms', r' = .ok (acc.1, xperms') := by
  cases same with
  | fault e => cases computed
  | decided avd xperms' xperms =>
    cases computed
    exact ⟨xperms', rfl⟩

theorem computeAvUnbounded_withRules {a b : Avtab} {l : List CondNode} {acc acc' : Acc}
    (vectors : ∀ sattr tattr, (computeAvRules (withRules p a b l) tclass sattr tattr acc').1 =
      (computeAvRules p tclass sattr tattr acc).1) :
    SameAv (computeAvUnbounded (withRules p a b l) scontext tcontext tclass acc')
      (computeAvUnbounded p scontext tcontext tclass acc) := by
  have classes : (withRules p a b l).classValToStruct = p.classValToStruct := rfl
  have attrs : (withRules p a b l).typeAttrMapArray = p.typeAttrMapArray := rfl
  have roles : ∀ allowed, computeAvRoles (withRules p a b l) scontext tcontext tclass allowed =
    computeAvRoles p scontext tcontext tclass allowed := fun _ => rfl
  unfold computeAvUnbounded
  simp only [classes, attrs, roles, vectors, computeAvConstraints_withRules, bind, Except.bind]
  cases atValue p.classValToStruct (tclass.zeroExtend 32) with
  | error e => exact .fault e
  | ok cls =>
    cases atValue p.typeAttrMapArray scontext.type with
    | error e => exact .fault e
    | ok sattr =>
      cases atValue p.typeAttrMapArray tcontext.type with
      | error e => exact .fault e
      | ok tattr =>
        dsimp only
        cases derefPtr cls with
        | error e => exact .fault e
        | ok datum =>
          dsimp only
          cases computeAvConstraints p scontext tcontext datum.constraints
            (computeAvRules p tclass sattr tattr acc).1.allowed with
          | error e => exact .fault e
          | ok allowed => exact .decided _ _ _

section Added

variable (shape : PolicyShape p) (shape' : PolicyShape p') (adds : AddsRules p p' te cond)
  (teUnknown : ∀ r ∈ te, UnknownRule r) (condUnknown : ∀ r ∈ cond, UnknownRule r)

include shape shape' adds teUnknown condUnknown

theorem computeAvUnbounded_same {acc acc' : Acc} (start : acc'.1 = acc.1) :
    SameAv (computeAvUnbounded p' scontext tcontext tclass acc')
      (computeAvUnbounded p scontext tcontext tclass acc) := by
  have vectors := fun sattr tattr => @computeAvRules_same p p' te cond tclass shape shape' adds
    teUnknown condUnknown sattr tattr acc acc' start
  rw [adds.same] at vectors ⊢
  exact computeAvUnbounded_withRules vectors

/-- A decision is the same, whatever is asked about extended permissions. -/
theorem contextStructComputeAvDepth_same (depth : Nat) (scontext tcontext : Context)
    (avd : AvDecision) (xperms xperms' : Option ExtendedPerms) :
    SameAv (contextStructComputeAvDepth p' depth scontext tcontext tclass avd xperms')
      (contextStructComputeAvDepth p depth scontext tcontext tclass avd xperms) := by
  have classes : p'.pClasses = p.pClasses := by
    rw [adds.same]
    rfl
  have bounding : ∀ s t, boundingContexts p' s t = boundingContexts p s t := by
    intro s t
    rw [adds.same]
    rfl
  induction depth generalizing scontext tcontext avd xperms xperms' with
  | zero => exact .fault .oops
  | succ depth ih =>
    unfold contextStructComputeAvDepth
    simp only [classes, bounding]
    split
    · exact .decided _ _ _
    · have unbounded : SameAv
          (computeAvUnbounded p' scontext tcontext tclass
            ({ avd with allowed := 0, auditallow := 0, auditdeny := 0xffffffff },
              xperms'.map fun _ => { len := 0, drivers := .zero }))
          (computeAvUnbounded p scontext tcontext tclass
            ({ avd with allowed := 0, auditallow := 0, auditdeny := 0xffffffff },
              xperms.map fun _ => { len := 0, drivers := .zero })) :=
        computeAvUnbounded_same shape shape' adds teUnknown condUnknown rfl
      revert unbounded
      generalize computeAvUnbounded p' scontext tcontext tclass _ = left
      generalize computeAvUnbounded p scontext tcontext tclass _ = right
      intro unbounded
      cases unbounded with
      | fault e => exact .fault e
      | decided avd₁ x' x =>
        dsimp only
        cases boundingContexts p scontext tcontext with
        | error e => exact .fault e
        | ok bounds =>
          cases bounds with
          | none => exact .decided _ _ _
          | some pair =>
            obtain ⟨loScontext, loTcontext⟩ := pair
            have lower := ih loScontext loTcontext
              { allowed := 0, auditallow := 0, auditdeny := 0, seqno := 0, flags := 0 } none none
            revert lower
            dsimp only
            generalize contextStructComputeAvDepth p' depth loScontext loTcontext tclass _ none = left
            generalize contextStructComputeAvDepth p depth loScontext loTcontext tclass _ none = right
            intro lower
            cases lower with
            | fault e => exact .fault e
            | decided loAvd y' y => exact .decided _ _ _

end Added

end Depth

section Request

variable {policy : SelinuxPolicy} {ssid tsid : U32} {origTclass tclass : U16} {avd : AvDecision}
  {xp : ExtendedPerms} {sattr tattr : Ebitmap}

/-- The attributes and the class a request comes to. -/
structure Request (policy : SelinuxPolicy) (ssid tsid : U32) (origTclass : U16)
    (sattr tattr : Ebitmap) : Prop where
  source : ∃ scontext, sidtabSearch policy.sidtab ssid = .ok (some scontext) ∧
    atValue policy.policydb.typeAttrMapArray scontext.type = .ok sattr
  target : ∃ tcontext, sidtabSearch policy.sidtab tsid = .ok (some tcontext) ∧
    atValue policy.policydb.typeAttrMapArray tcontext.type = .ok tattr
  known : ¬ (unmapClass policy.map origTclass = 0 ∨
    policy.policydb.pClasses.nprim < (unmapClass policy.map origTclass).zeroExtend 32)

/-- Some extended rule in force, of those given, is for the attributes and the class and has such
data. -/
def Asked (te cond : Set Rule) (sattr tattr : Ebitmap) (tclass : U16) (about : AvtabDatum → Prop) :
    Prop :=
  ∃ r : Rule, (r ∈ te ∨ (r ∈ cond ∧ r.1.specified &&& avtabEnabled ≠ 0)) ∧
    r.1.specified &&& avtabXperms ≠ 0 ∧ about r.2 ∧ Paired sattr tattr tclass r.1

theorem asked_union {te te' cond cond' : Set Rule} {about : AvtabDatum → Prop} :
    Asked (te ∪ te') (cond ∪ cond') sattr tattr tclass about ↔
      Asked te cond sattr tattr tclass about ∨ Asked te' cond' sattr tattr tclass about := by
  unfold Asked
  rw [← exists_or]
  apply exists_congr
  intro r
  simp only [Set.mem_union]
  tauto

/-- Some extended rule of the two sets applies to the request. -/
def RequestAsks (policy : SelinuxPolicy) (ssid tsid : U32) (origTclass : U16) (te cond : Set Rule)
    (about : AvtabDatum → Prop) : Prop :=
  ∃ sattr tattr, Request policy ssid tsid origTclass sattr tattr ∧
    Asked te cond sattr tattr (unmapClass policy.map origTclass) about

theorem request_unique {sattr' tattr' : Ebitmap} (first : Request policy ssid tsid origTclass sattr tattr)
    (second : Request policy ssid tsid origTclass sattr' tattr') : sattr' = sattr ∧ tattr' = tattr := by
  obtain ⟨s, found, here⟩ := first.source
  obtain ⟨s', found', here'⟩ := second.source
  obtain ⟨t, foundT, hereT⟩ := first.target
  obtain ⟨t', foundT', hereT'⟩ := second.target
  rw [found] at found'
  rw [foundT] at foundT'
  cases found'
  cases foundT'
  rw [here] at here'
  rw [hereT] at hereT'
  cases here'
  cases hereT'
  exact ⟨rfl, rfl⟩

/-- What the loops see of the driver map, in terms of the rules. -/
theorem rules_asked {p : Policydb} (shape : PolicyShape p) {seen : Acc → Prop}
    {about : AvtabDatum → Prop} {acc : Acc} (start : Wanted acc) (unseen : ¬ seen acc)
    (teStep : Accumulates Wanted seen
      (fun n => n.key.specified &&& avtabXperms ≠ 0 ∧ about n.datum) computeAvNode)
    (condStep : Accumulates Wanted seen (fun n => EnabledXperms n ∧ about n.datum) condComputeNode) :
    Wanted (computeAvRules p tclass sattr tattr acc) ∧
      (seen (computeAvRules p tclass sattr tattr acc) ↔
        Asked (ruleSet p.teAvtab) (ruleSet p.teCondAvtab) sattr tattr tclass about) := by
  obtain ⟨wanted, sees⟩ := computeAvRules_seen (p := p) shape.teAvtab shape.teCondAvtab teStep
    condStep sattr tattr start
  refine ⟨wanted, sees.trans ?_⟩
  rw [or_iff_right unseen]
  constructor
  · rintro (⟨n, ⟨listed, paired⟩, extended, saying⟩ | ⟨n, ⟨listed, paired⟩, ⟨enabled, extended⟩, saying⟩)
    · exact ⟨(n.key, n.datum), .inl ⟨n, listed, rfl⟩, extended, saying, paired⟩
    · exact ⟨(n.key, n.datum), .inr ⟨⟨n, listed, rfl⟩, enabled⟩, extended, saying, paired⟩
  · rintro ⟨r, inForce, extended, saying, paired⟩
    rcases inForce with ⟨n, listed, rfl⟩ | ⟨⟨n, listed, rfl⟩, enabled⟩
    · exact .inl ⟨n, ⟨listed, paired⟩, extended, saying⟩
    · exact .inr ⟨n, ⟨listed, paired⟩, ⟨enabled, extended⟩, saying⟩

/-- The driver map of a decision comes from the loops over the rules. -/
theorem depth_drivers {p : Policydb} {depth : Nat} {scontext tcontext : Context} {x₀ : ExtendedPerms}
    {answer : Acc} (known : ¬ (tclass = 0 ∨ p.pClasses.nprim < tclass.zeroExtend 32))
    (computed : contextStructComputeAvDepth p (depth + 1) scontext tcontext tclass avd (some x₀) =
      .ok answer) :
    ∃ sattr tattr acc, atValue p.typeAttrMapArray scontext.type = .ok sattr ∧
      atValue p.typeAttrMapArray tcontext.type = .ok tattr ∧
        acc.2 = some { len := 0, drivers := .zero } ∧
          answer.2 = (computeAvRules p tclass sattr tattr acc).2 := by
  unfold contextStructComputeAvDepth at computed
  simp only [if_neg known] at computed
  split at computed
  · cases computed
  · rename_i avd₁ xperms₁ unbounded
    unfold computeAvUnbounded at unbounded
    simp only [exceptBind_ok] at unbounded
    obtain ⟨_, -, sattr, sources, tattr, targets, _, -, _, -, done⟩ := unbounded
    cases done
    refine ⟨sattr, tattr, ({ avd with allowed := 0, auditallow := 0, auditdeny := 0xffffffff },
      some { len := 0, drivers := .zero }), sources, targets, rfl, ?_⟩
    split at computed
    · cases computed
    · rw [← Except.ok.inj computed]
      rfl
    · split at computed
      · cases computed
      · rw [← Except.ok.inj computed]
        rfl

/-- The length of the driver map tells whether an extended rule applies, and the map which drivers
such rules name. -/
theorem computeAv_asked (shape : PolicyShape policy.policydb)
    (computed : securityComputeAv (some policy) ssid tsid origTclass = .ok (avd, xp)) :
    (xp.len ≠ 0 ↔ RequestAsks policy ssid tsid origTclass (ruleSet policy.policydb.teAvtab)
      (ruleSet policy.policydb.teCondAvtab) IsXperms) ∧
    ∀ driver, securityXpermTest xp.drivers driver = true ↔
      RequestAsks policy ssid tsid origTclass (ruleSet policy.policydb.teAvtab)
        (ruleSet policy.policydb.teCondAvtab) (Drives driver) := by
  have nothing : (∀ sattr tattr, ¬ Request policy ssid tsid origTclass sattr tattr) →
      xp = { len := 0, drivers := .zero } →
      (xp.len ≠ 0 ↔ RequestAsks policy ssid tsid origTclass (ruleSet policy.policydb.teAvtab)
        (ruleSet policy.policydb.teCondAvtab) IsXperms) ∧
      ∀ driver, securityXpermTest xp.drivers driver = true ↔
        RequestAsks policy ssid tsid origTclass (ruleSet policy.policydb.teAvtab)
          (ruleSet policy.policydb.teCondAvtab) (Drives driver) := by
    rintro none rfl
    refine ⟨?_, fun driver => ?_⟩
    · apply iff_of_false
      · simp
      · rintro ⟨sattr, tattr, request, -⟩
        exact none sattr tattr request
    · rw [test_zero]
      apply iff_of_false
      · exact Bool.false_ne_true
      · rintro ⟨sattr, tattr, request, -⟩
        exact none sattr tattr request
  unfold securityComputeAv at computed
  simp only [exceptBind_ok] at computed
  obtain ⟨scontext, source, computed⟩ := computed
  cases scontext with
  | none =>
    cases computed
    apply nothing _ rfl
    rintro sattr tattr ⟨⟨s, found, -⟩, -, -⟩
    rw [source] at found
    cases found
  | some scontext =>
    simp only [exceptBind_ok] at computed
    obtain ⟨tcontext, target, computed⟩ := computed
    cases tcontext with
    | none =>
      cases computed
      apply nothing _ rfl
      rintro sattr tattr ⟨-, ⟨t, found, -⟩, -⟩
      rw [target] at found
      cases found
    | some tcontext =>
      simp only at computed
      split at computed
      · rename_i unmapped
        have none : ∀ sattr tattr, ¬ Request policy ssid tsid origTclass sattr tattr := by
          rintro sattr tattr ⟨-, -, known⟩
          exact known (.inl unmapped.2)
        split at computed
        · cases computed
          exact nothing none rfl
        · cases computed
          exact nothing none rfl
      · simp only [exceptBind_ok] at computed
        obtain ⟨answer, decided, done⟩ := computed
        cases done
        obtain ⟨depth, enough⟩ : ∃ depth, policy.policydb.typeValToStruct.length +
          policydbBoundsMaxdepth = depth + 1 := ⟨_, rfl⟩
        unfold contextStructComputeAv at decided
        rw [enough] at decided
        by_cases known : unmapClass policy.map origTclass = 0 ∨
            policy.policydb.pClasses.nprim < (unmapClass policy.map origTclass).zeroExtend 32
        · unfold contextStructComputeAvDepth at decided
          simp only [if_pos known] at decided
          cases decided
          apply nothing _ rfl
          rintro sattr tattr ⟨-, -, real⟩
          exact real known
        · obtain ⟨sattr, tattr, acc, sources, targets, zeroed, same⟩ := depth_drivers known decided
          have request : Request policy ssid tsid origTclass sattr tattr :=
            ⟨⟨scontext, source, sources⟩, ⟨tcontext, target, targets⟩, known⟩
          have only : ∀ about, RequestAsks policy ssid tsid origTclass
              (ruleSet policy.policydb.teAvtab) (ruleSet policy.policydb.teCondAvtab) about ↔
              Asked (ruleSet policy.policydb.teAvtab) (ruleSet policy.policydb.teCondAvtab) sattr tattr
                (unmapClass policy.map origTclass) about := by
            intro about
            constructor
            · rintro ⟨sattr', tattr', request', asked⟩
              obtain ⟨rfl, rfl⟩ := request_unique request request'
              exact asked
            · exact fun asked => ⟨sattr, tattr, request, asked⟩
          have start : Wanted acc := ⟨_, zeroed⟩
          have notExtended : ¬ Extended acc := by
            rintro ⟨x, here, long⟩
            rw [zeroed] at here
            cases here
            exact long rfl
          have notDriven : ∀ driver, ¬ Driven driver acc := by
            rintro driver ⟨x, here, set⟩
            rw [zeroed] at here
            cases here
            rw [test_zero] at set
            cases set
          obtain ⟨⟨x, held⟩, extended⟩ := rules_asked shape start notExtended teExtended condExtended
          rw [held] at same
          rw [same]
          refine ⟨?_, fun driver => ?_⟩
          · rw [only, ← extended]
            unfold Extended
            rw [held]
            simp
          · rw [only, ← (rules_asked shape start (notDriven driver) teDriven condDriven).2]
            unfold Driven
            rw [held]
            simp

end Request

end Ksrc.Guarantees.AvRuleSets

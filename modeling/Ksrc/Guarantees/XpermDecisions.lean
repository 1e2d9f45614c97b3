import Ksrc.Guarantees.AvcNodeContent
import Ksrc.Guarantees.PoliciesInForce
import Ksrc.Guarantees.PolicyImages
import Ksrc.Library.Accumulation
import Ksrc.Source.Services

/-!
# Which extended rules a decision counts

Source: `security/selinux/ss/services.c` (`services_compute_xperms_decision`,
`security_compute_xperms_decision`), `conditional.c` (`cond_compute_xperms`).

`services_compute_xperms_decision` compares the whole specifier of a rule with the code of its map.
A conditional rule that is enabled has `AVTAB_ENABLED` in it as well and is equal to none of them, so
it counts for nothing; the driver map of the access vector does count it.
-/
namespace Ksrc.Guarantees.XpermDecisions

open Library Source AvcNodeContent AvtabEnumeration
  PoliciesInForce PolicyImages

/-- The three uses of an extended rule. -/
inductive XpermUse where
  | allowed | auditallow | dontaudit
  deriving DecidableEq, Repr

namespace XpermUse

/-- The specifier of its rules. -/
def code : XpermUse → U16
  | allowed => avtabXpermsAllowed
  | auditallow => avtabXpermsAuditallow
  | dontaudit => avtabXpermsDontaudit

/-- Its flag in `used`. -/
def flag : XpermUse → U8
  | allowed => xpermsAllowed
  | auditallow => xpermsAuditallow
  | dontaudit => xpermsDontaudit

/-- Its map in a decision. -/
def map : XpermUse → ExtendedPermsDecision → Option ExtendedPermsData
  | allowed, d => d.allowed
  | auditallow, d => d.auditallow
  | dontaudit, d => d.dontaudit

/-- The decision after a rule of the use that applies to its driver. -/
def add (x : AvtabExtendedPerms) (d : ExtendedPermsDecision) : XpermUse → ExtendedPermsDecision
  | allowed => { d with used := d.used ||| xpermsAllowed, allowed := xpermsMap x d.allowed }
  | auditallow => { d with used := d.used ||| xpermsAuditallow, auditallow := xpermsMap x d.auditallow }
  | dontaudit => { d with used := d.used ||| xpermsDontaudit, dontaudit := xpermsMap x d.dontaudit }

end XpermUse

/-- An extended rule of the use that says something about the driver. -/
def Speaks (use : XpermUse) (driver : U8) (n : AvtabNode) : Prop :=
  n.key.specified &&& use.code ≠ 0 ∧ ∃ x, n.datum = .xperms x ∧ xpermsApplies x driver = true

/-- The permissions a rule names: all of a driver, or those of its map. -/
def Names (x : AvtabExtendedPerms) (perm : U8) : Prop :=
  x.specified = avtabXpermsIoctldriver ∨ securityXpermTest x.perms perm = true

/-- A rule that adds a permission of the driver to the map of the use. -/
def Adds (use : XpermUse) (driver perm : U8) (n : AvtabNode) : Prop :=
  n.key.specified &&& use.code ≠ 0 ∧
    ∃ x, n.datum = .xperms x ∧ xpermsApplies x driver = true ∧ Names x perm

def HasPerm (map : Option ExtendedPermsData) (perm : U8) : Prop :=
  ∃ m, map = some m ∧ securityXpermTest m perm = true

/-- The decision is the union of the rules: its flags and its maps. -/
structure UnionOf (rules : AvtabNode → Prop) (driver : U8) (d : ExtendedPermsDecision) : Prop where
  flags : ∀ use : XpermUse, d.used &&& use.flag ≠ 0 ↔ ∃ n, rules n ∧ Speaks use driver n
  others : d.used &&& ~~~(xpermsAllowed ||| xpermsAuditallow ||| xpermsDontaudit) = 0
  maps : ∀ (use : XpermUse) (perm : U8),
    HasPerm (use.map d) perm ↔ ∃ n, rules n ∧ Adds use driver perm n

/-- The extended rules between two contexts for a class: those of `te_avtab`, and the enabled ones
of `te_cond_avtab`, of the attributes of the two types. -/
structure Matching (p : Policydb) (scontext tcontext : Context) (tclass : U16) (n : AvtabNode) :
    Prop where
  inForce : n ∈ p.teAvtab.nodes ∨ (n ∈ p.teCondAvtab.nodes ∧ n.key.specified &&& avtabEnabled ≠ 0)
  types : ∃ sattr tattr, atValue p.typeAttrMapArray scontext.type = .ok sattr ∧
    atValue p.typeAttrMapArray tcontext.type = .ok tattr ∧
      ∃ i ∈ ebitmapPositiveBits sattr, ∃ j ∈ ebitmapPositiveBits tattr,
        avtabMatch (attrKey i j tclass avtabXperms) avtabXperms n.key = true

/-- What a rule with more in its specifier than the code of its use adds, a rule with the code alone
adds too. -/
def BareRulesSuffice (rules : AvtabNode → Prop) (driver : U8) : Prop :=
  ∀ n (use : XpermUse), rules n → n.key.specified ≠ use.code →
    (Speaks use driver n → ∃ m, rules m ∧ m.key.specified = use.code ∧ Speaks use driver m) ∧
      ∀ perm, Adds use driver perm n →
        ∃ m, rules m ∧ m.key.specified = use.code ∧ Adds use driver perm m

section Maps

variable {x : AvtabExtendedPerms} {perm driver : U8}

theorem test_ones (perm : U8) : securityXpermTest .ones perm = true := by
  have word : ∀ k : Fin 8, ExtendedPermsData.ones.p.get k = BitVec.allOnes 32 := by decide
  have small : (perm &&& 0x1f).toNat < 32 := by
    rw [BitVec.toNat_and]
    exact lt_of_le_of_lt Nat.and_le_right (by decide)
  rw [securityXpermTest_eq, word, BitVec.getLsbD_allOnes]
  exact decide_eq_true small

theorem test_or (a b : ExtendedPermsData) (perm : U8) :
    securityXpermTest (a.or b) perm = (securityXpermTest a perm || securityXpermTest b perm) := by
  have word : ∀ k : Fin 8, (a.or b).p.get k = a.p.get k ||| b.p.get k := by
    intro k
    show (Vector.zipWith (· ||| ·) a.p b.p)[k] = a.p[k] ||| b.p[k]
    simp
  rw [securityXpermTest_eq, securityXpermTest_eq, securityXpermTest_eq, word, BitVec.getLsbD_or]

/-- A rule that applies is of one of the two known kinds. -/
theorem kind_of_applies (applies : xpermsApplies x driver = true) :
    x.specified = avtabXpermsIoctlfunction ∨ x.specified = avtabXpermsIoctldriver := by
  unfold xpermsApplies at applies
  split at applies
  · rename_i function
    exact .inl function
  · split at applies
    · rename_i whole
      exact .inr whole
    · cases applies

theorem hasPerm_xpermsMap (applies : xpermsApplies x driver = true) (m : ExtendedPermsData) :
    HasPerm (xpermsMap x (some m)) perm ↔ HasPerm (some m) perm ∨ Names x perm := by
  unfold HasPerm xpermsMap Names
  rcases kind_of_applies applies with function | whole
  · have apart : avtabXpermsIoctlfunction ≠ avtabXpermsIoctldriver := by decide
    simp [function, apart, test_or]
  · simp [whole, test_ones]

theorem flags_or {a f g : U8} : (a ||| f) &&& g ≠ 0 ↔ a &&& g ≠ 0 ∨ f &&& g ≠ 0 := by
  have zero : (a &&& g) ||| (f &&& g) = 0 ↔ a &&& g = 0 ∧ f &&& g = 0 := BitVec.or_eq_zero_iff
  rw [BitVec.and_or_distrib_right, ne_eq, zero]
  grind

end Maps

section Step

variable {use use' : XpermUse} {d : ExtendedPermsDecision} {n : AvtabNode} {driver perm : U8}
  {x : AvtabExtendedPerms}

theorem flag_apart : use.flag &&& use'.flag ≠ 0 ↔ use = use' := by
  cases use <;> cases use' <;> decide

theorem code_inj : use.code = use'.code ↔ use = use' := by
  cases use <;> cases use' <;> decide

theorem code_speaks (bare : n.key.specified = use.code) :
    n.key.specified &&& use'.code ≠ 0 ↔ use = use' := by
  rw [bare]
  cases use <;> cases use' <;> decide

/-- The three maps are there, no flag is set but the three, and the driver is the one asked for. -/
structure Begun (driver : U8) (d : ExtendedPermsDecision) : Prop where
  driver : d.driver = driver
  maps : ∀ use : XpermUse, ∃ m, use.map d = some m
  others : d.used &&& ~~~(xpermsAllowed ||| xpermsAuditallow ||| xpermsDontaudit) = 0

theorem add_used (use : XpermUse) : (use.add x d).used = d.used ||| use.flag := by
  cases use <;> rfl

theorem add_driver (use : XpermUse) : (use.add x d).driver = d.driver := by
  cases use <;> rfl

theorem add_map (use use' : XpermUse) :
    use'.map (use.add x d) = if use = use' then xpermsMap x (use'.map d) else use'.map d := by
  cases use <;> cases use' <;> rfl

theorem add_begun (begun : Begun driver d) (use : XpermUse) : Begun driver (use.add x d) := by
  constructor
  · rw [add_driver]
    exact begun.driver
  · intro use'
    obtain ⟨m, present⟩ := begun.maps use'
    rw [add_map, present]
    unfold xpermsMap
    split
    · split
      · exact ⟨_, rfl⟩
      · split
        · exact ⟨_, rfl⟩
        · exact ⟨_, rfl⟩
    · exact ⟨_, rfl⟩
  · have known : use.flag &&& ~~~(xpermsAllowed ||| xpermsAuditallow ||| xpermsDontaudit) = 0 := by
      cases use <;> decide
    rw [add_used, BitVec.and_or_distrib_right, begun.others, known]
    rfl

/-- What `services_compute_xperms_decision` does with a rule. -/
theorem decision_cases (d : ExtendedPermsDecision) (n : AvtabNode) :
    (∃ use x, n.key.specified = XpermUse.code use ∧ n.datum = .xperms x ∧
      xpermsApplies x d.driver = true ∧ servicesComputeXpermsDecision d n = use.add x d) ∨
    (servicesComputeXpermsDecision d n = d ∧
      ∀ (use : XpermUse) x, n.key.specified = use.code → n.datum = .xperms x →
        xpermsApplies x d.driver = false) := by
  unfold servicesComputeXpermsDecision
  cases n.datum with
  | data u =>
    refine .inr ⟨rfl, ?_⟩
    intro use x _ same
    cases same
  | xperms x =>
    dsimp only
    split
    · rename_i applies
      split
      · rename_i bare
        exact .inl ⟨.allowed, x, bare, rfl, applies, rfl⟩
      · rename_i notAllowed
        split
        · rename_i bare
          exact .inl ⟨.auditallow, x, bare, rfl, applies, rfl⟩
        · rename_i notAuditallow
          split
          · rename_i bare
            exact .inl ⟨.dontaudit, x, bare, rfl, applies, rfl⟩
          · rename_i notDontaudit
            refine .inr ⟨rfl, ?_⟩
            intro use x' bare _
            cases use with
            | allowed => exact absurd bare notAllowed
            | auditallow => exact absurd bare notAuditallow
            | dontaudit => exact absurd bare notDontaudit
    · rename_i silent
      refine .inr ⟨rfl, ?_⟩
      intro use x' _ same
      cases same
      exact Bool.not_eq_true _ ▸ silent

theorem decision_begun (begun : Begun driver d) (n : AvtabNode) :
    Begun driver (servicesComputeXpermsDecision d n) := by
  rcases decision_cases d n with ⟨use, x, -, -, -, added⟩ | ⟨same, -⟩
  · rw [added]
    exact add_begun begun use
  · rw [same]
    exact begun

/-- A rule adds the flag of its use if its specifier is the code alone. -/
theorem decision_flag : Accumulates (Begun driver) (fun d => d.used &&& use.flag ≠ 0)
    (fun n => n.key.specified = use.code ∧ Speaks use driver n) servicesComputeXpermsDecision := by
  constructor
  · exact fun d n begun => decision_begun begun n
  · intro d n begun
    rcases decision_cases d n with ⟨use', x, bare, extended, applies, added⟩ | ⟨same, silent⟩
    · rw [added, add_used, flags_or, flag_apart, bare, code_inj]
      apply or_congr_right
      constructor
      · rintro rfl
        exact ⟨rfl, (code_speaks bare).mpr rfl, x, extended, begun.driver ▸ applies⟩
      · exact fun both => both.1
    · rw [same]
      constructor
      · exact .inl
      · rintro (old | ⟨bare, -, x, extended, applies⟩)
        · exact old
        · have mute := silent use x bare extended
          rw [begun.driver, applies] at mute
          cases mute

/-- A rule adds its permissions to the map of its use if its specifier is the code alone. -/
theorem decision_map : Accumulates (Begun driver) (fun d => HasPerm (use.map d) perm)
    (fun n => n.key.specified = use.code ∧ Adds use driver perm n)
    servicesComputeXpermsDecision := by
  constructor
  · exact fun d n begun => decision_begun begun n
  · intro d n begun
    rcases decision_cases d n with ⟨use', x, bare, extended, applies, added⟩ | ⟨same, silent⟩
    · obtain ⟨m, present⟩ := begun.maps use
      rw [added, add_map, present]
      by_cases here : use' = use
      · subst here
        rw [if_pos rfl, hasPerm_xpermsMap applies]
        apply or_congr_right
        constructor
        · intro names
          exact ⟨bare, (code_speaks bare).mpr rfl, x, extended, begun.driver ▸ applies, names⟩
        · rintro ⟨-, -, x', extended', -, names⟩
          rw [extended] at extended'
          cases extended'
          exact names
      · rw [if_neg here, bare, code_inj]
        simp [here]
    · rw [same]
      constructor
      · exact .inl
      · rintro (old | ⟨bare, -, x, extended, applies, -⟩)
        · exact old
        · have mute := silent use x bare extended
          rw [begun.driver, applies] at mute
          cases mute

end Step

section Loops

variable {p : Policydb} {tclass : U16} {seen : ExtendedPermsDecision → Prop}
  {adds : AvtabNode → Prop} {driver : U8} {d : ExtendedPermsDecision}

/-- The rules of the two tables for a pair of types. -/
def OfPair (p : Policydb) (tclass : U16) (i j : U32) (n : AvtabNode) : Prop :=
  n ∈ avtabMatches p.teAvtab (attrKey i j tclass avtabXperms) ∨
    (n ∈ avtabMatches p.teCondAvtab (attrKey i j tclass avtabXperms) ∧
      n.key.specified &&& avtabEnabled ≠ 0)

/-- `cond_compute_xperms` passes over the rules that are not enabled. -/
theorem cond_accumulates
    (step : Accumulates (Begun driver) seen adds servicesComputeXpermsDecision) :
    Accumulates (Begun driver) seen (fun n => n.key.specified &&& avtabEnabled ≠ 0 ∧ adds n)
      (fun d n => if n.key.specified &&& avtabEnabled ≠ 0 then servicesComputeXpermsDecision d n
        else d) := by
  constructor
  · intro d n begun
    split
    · exact step.keeps d n begun
    · exact begun
  · intro d n begun
    split
    · rename_i enabled
      rw [step.grows d n begun, and_iff_right enabled]
    · rename_i disabled
      constructor
      · exact .inl
      · rintro (old | ⟨enabled, -⟩)
        · exact old
        · exact absurd enabled disabled

theorem pair_accumulates
    (step : Accumulates (Begun driver) seen adds servicesComputeXpermsDecision) (i : U32) :
    Accumulates (Begun driver) seen (fun j => ∃ n, OfPair p tclass i j n ∧ adds n)
      (fun d j => computeXpermsPair p tclass i j d) := by
  have unconditional : Accumulates (Begun driver) seen
      (fun j => ∃ n ∈ avtabMatches p.teAvtab (attrKey i j tclass avtabXperms), adds n)
      (fun d j => (avtabMatches p.teAvtab (attrKey i j tclass avtabXperms)).foldl
        servicesComputeXpermsDecision d) :=
    Accumulates.nest (fun _ => step) fun _ _ => rfl
  have conditional : Accumulates (Begun driver) seen
      (fun j => ∃ n ∈ avtabMatches p.teCondAvtab (attrKey i j tclass avtabXperms),
        n.key.specified &&& avtabEnabled ≠ 0 ∧ adds n)
      (fun d j => condComputeXperms p.teCondAvtab (attrKey i j tclass avtabXperms) d) :=
    Accumulates.nest (fun _ => cond_accumulates step) fun _ _ => rfl
  have both := Accumulates.seq (g := fun d j => computeXpermsPair p tclass i j d) unconditional
    conditional fun _ _ => rfl
  constructor
  · exact both.keeps
  · intro d j begun
    rw [both.grows d j begun]
    apply or_congr_right
    constructor
    · rintro (⟨n, listed, adding⟩ | ⟨n, listed, enabled, adding⟩)
      · exact ⟨n, .inl listed, adding⟩
      · exact ⟨n, .inr ⟨listed, enabled⟩, adding⟩
    · rintro ⟨n, listed | ⟨listed, enabled⟩, adding⟩
      · exact .inl ⟨n, listed, adding⟩
      · exact .inr ⟨n, listed, enabled, adding⟩

/-- The loops over the attributes of both types. -/
theorem pairs_accumulate
    (step : Accumulates (Begun driver) seen adds servicesComputeXpermsDecision)
    (sattr tattr : Ebitmap) (start : Begun driver d) :
    let decided := (ebitmapPositiveBits sattr).foldl
      (fun d i => (ebitmapPositiveBits tattr).foldl
        (fun d j => computeXpermsPair p tclass i j d) d) d
    Begun driver decided ∧ (seen decided ↔ seen d ∨
      ∃ i ∈ ebitmapPositiveBits sattr, ∃ j ∈ ebitmapPositiveBits tattr,
        ∃ n, OfPair p tclass i j n ∧ adds n) := by
  have rows : Accumulates (Begun driver) seen
      (fun i => ∃ j ∈ ebitmapPositiveBits tattr, ∃ n, OfPair p tclass i j n ∧ adds n)
      (fun d i => (ebitmapPositiveBits tattr).foldl
        (fun d j => computeXpermsPair p tclass i j d) d) :=
    Accumulates.nest (pair_accumulates step) fun _ _ => rfl
  exact ⟨rows.foldl_keeps _ start, rows.foldl_grows _ start⟩

/-- The loops come to the matching rules. -/
theorem pairs_matching (te : AvtabOk p.teAvtab) (cond : AvtabOk p.teCondAvtab)
    {scontext tcontext : Context} {sattr tattr : Ebitmap}
    (sources : atValue p.typeAttrMapArray scontext.type = .ok sattr)
    (targets : atValue p.typeAttrMapArray tcontext.type = .ok tattr) {n : AvtabNode} :
    (∃ i ∈ ebitmapPositiveBits sattr, ∃ j ∈ ebitmapPositiveBits tattr, OfPair p tclass i j n) ↔
      Matching p scontext tcontext tclass n := by
  have bare : avtabSpecified avtabXperms = avtabXperms := by decide
  have listed : ∀ i j, OfPair p tclass i j n ↔
      (n ∈ p.teAvtab.nodes ∨ (n ∈ p.teCondAvtab.nodes ∧ n.key.specified &&& avtabEnabled ≠ 0)) ∧
        avtabMatch (attrKey i j tclass avtabXperms) avtabXperms n.key = true := by
    intro i j
    unfold OfPair
    rw [mem_avtabMatches te, mem_avtabMatches cond]
    simp only [attrKey, bare]
    grind
  constructor
  · rintro ⟨i, source, j, target, ofPair⟩
    obtain ⟨inForce, matched⟩ := (listed i j).mp ofPair
    exact ⟨inForce, sattr, tattr, sources, targets, i, source, j, target, matched⟩
  · rintro ⟨inForce, sattr', tattr', sources', targets', i, source, j, target, matched⟩
    rw [sources] at sources'
    rw [targets] at targets'
    cases sources'
    cases targets'
    exact ⟨i, source, j, target, (listed i j).mpr ⟨inForce, matched⟩⟩

/-- An attribute map is there for every valid type. -/
theorem attrMap_of_valid (maps : p.typeAttrMapArray.length = p.pTypes.nprim.toNat) {type : U32}
    (valid : policydbTypeIsvalid p type = true) :
    ∃ attrs, atValue p.typeAttrMapArray type = .ok attrs := by
  simp only [policydbTypeIsvalid, valueIsvalid, Bool.and_eq_true, decide_eq_true_eq] at valid
  obtain ⟨nonzero, small⟩ := valid
  have inside : (type - 1).toNat < p.typeAttrMapArray.length := by
    rw [maps]
    bv_omega
  unfold atValue
  rw [List.getElem?_eq_getElem inside]
  exact ⟨_, rfl⟩

end Loops

section Decision

variable {policy : SelinuxPolicy} {ssid tsid : U32} {origTclass : U16} {scontext tcontext : Context}

/-- A decision on a class of the policy counts the matching rules with a bare specifier. -/
theorem decision_of_bare (shape : PolicydbShape.PolicyShape policy.policydb)
    (source : sidtabSearch policy.sidtab ssid = .ok (some scontext))
    (target : sidtabSearch policy.sidtab tsid = .ok (some tcontext)) {sattr tattr : Ebitmap}
    (sources : atValue policy.policydb.typeAttrMapArray scontext.type = .ok sattr)
    (targets : atValue policy.policydb.typeAttrMapArray tcontext.type = .ok tattr)
    (known : policydbClassIsvalid policy.policydb
      ((unmapClass policy.map origTclass).zeroExtend 32) = true) (driver : U8) :
    ∃ d, securityComputeXpermsDecision (some policy) ssid tsid origTclass driver = .ok d ∧
      Begun driver d ∧
      (∀ use : XpermUse, d.used &&& use.flag ≠ 0 ↔
        ∃ n, Matching policy.policydb scontext tcontext (unmapClass policy.map origTclass) n ∧
          n.key.specified = use.code ∧ Speaks use driver n) ∧
      ∀ (use : XpermUse) (perm : U8), HasPerm (use.map d) perm ↔
        ∃ n, Matching policy.policydb scontext tcontext (unmapClass policy.map origTclass) n ∧
          n.key.specified = use.code ∧ Adds use driver perm n := by
  generalize tclassIs : unmapClass policy.map origTclass = tclass at known ⊢
  simp only [policydbClassIsvalid, valueIsvalid, Bool.and_eq_true, decide_eq_true_eq] at known
  have nonzero : tclass ≠ 0 := by
    rintro rfl
    exact known.1 rfl
  have small : ¬ policy.policydb.pClasses.nprim < tclass.zeroExtend 32 := by
    exact BitVec.not_lt.mpr known.2
  have matching := @pairs_matching _ tclass shape.teAvtab shape.teCondAvtab scontext tcontext
    sattr tattr sources targets
  let xpermd : ExtendedPermsDecision :=
    { used := 0, driver, allowed := some .zero, auditallow := some .zero, dontaudit := some .zero }
  have start : Begun driver xpermd := by
    constructor
    · rfl
    · intro use
      cases use <;> exact ⟨_, rfl⟩
    · show (0 : U8) &&& ~~~(xpermsAllowed ||| xpermsAuditallow ||| xpermsDontaudit) = 0
      decide
  have noFlag : ∀ use : XpermUse, ¬ xpermd.used &&& use.flag ≠ 0 := by
    intro use
    show ¬ (0 : U8) &&& use.flag ≠ 0
    cases use <;> decide
  have noPerm : ∀ (use : XpermUse) (perm : U8), ¬ HasPerm (use.map xpermd) perm := by
    rintro use perm ⟨m, same, set⟩
    have zero : m = .zero := by
      cases use <;> exact (Option.some.inj same).symm
    rw [zero, test_zero] at set
    cases set
  refine ⟨(ebitmapPositiveBits sattr).foldl
    (fun d i => (ebitmapPositiveBits tattr).foldl
      (fun d j => computeXpermsPair policy.policydb tclass i j d) d) xpermd, ?_, ?_, ?_, ?_⟩
  · unfold securityComputeXpermsDecision
    simp only [source, target, bind, Except.bind, tclassIs, nonzero, small, and_false, or_false,
      if_false, sources, targets]
    rfl
  · exact (pairs_accumulate (@decision_flag .allowed driver) sattr tattr start).1
  · intro use
    rw [(pairs_accumulate (@decision_flag use driver) sattr tattr start).2, or_iff_right (noFlag use)]
    simp only [← matching]
    grind
  · intro use perm
    rw [(pairs_accumulate (@decision_map use driver perm) sattr tattr start).2,
      or_iff_right (noPerm use perm)]
    simp only [← matching]
    grind

/-- A decision is the union of the matching rules just when those with a bare specifier add all that
the others add. -/
theorem xperms_decision_iff (inForce : InForce policy.policydb)
    (source : sidtabSearch policy.sidtab ssid = .ok (some scontext))
    (sourceType : policydbTypeIsvalid policy.policydb scontext.type = true)
    (target : sidtabSearch policy.sidtab tsid = .ok (some tcontext))
    (targetType : policydbTypeIsvalid policy.policydb tcontext.type = true)
    (known : policydbClassIsvalid policy.policydb
      ((unmapClass policy.map origTclass).zeroExtend 32) = true) (driver : U8) :
    ∃ d, securityComputeXpermsDecision (some policy) ssid tsid origTclass driver = .ok d ∧
      (UnionOf (Matching policy.policydb scontext tcontext (unmapClass policy.map origTclass)) driver
          d ↔
        BareRulesSuffice
          (Matching policy.policydb scontext tcontext (unmapClass policy.map origTclass)) driver) := by
  have shape := inForce.shape
  obtain ⟨sattr, sources⟩ := attrMap_of_valid shape.attrMaps sourceType
  obtain ⟨tattr, targets⟩ := attrMap_of_valid shape.attrMaps targetType
  obtain ⟨d, decided, begun, flags, maps⟩ := decision_of_bare shape source target sources targets
    known driver
  refine ⟨d, decided, ?_⟩
  constructor
  · intro union n use matching _
    constructor
    · intro speaks
      exact (flags use).mp ((union.flags use).mpr ⟨n, matching, speaks⟩)
    · intro perm adds
      exact (maps use perm).mp ((union.maps use perm).mpr ⟨n, matching, adds⟩)
  · intro suffice
    constructor
    · intro use
      rw [flags]
      constructor
      · rintro ⟨n, matching, -, speaks⟩
        exact ⟨n, matching, speaks⟩
      · rintro ⟨n, matching, speaks⟩
        by_cases bare : n.key.specified = use.code
        · exact ⟨n, matching, bare, speaks⟩
        · exact (suffice n use matching bare).1 speaks
    · exact begun.others
    · intro use perm
      rw [maps]
      constructor
      · rintro ⟨n, matching, -, adds⟩
        exact ⟨n, matching, adds⟩
      · rintro ⟨n, matching, adds⟩
        by_cases bare : n.key.specified = use.code
        · exact ⟨n, matching, bare, adds⟩
        · exact (suffice n use matching bare).2 perm adds

end Decision

section Concrete

/-- One enabled conditional rule: the ioctl 3 of driver 7 is allowed between contexts of type 2. -/
def condXpermImage : PolicyImage :=
  { smallImage with
    bools := symbols 1 [boolBytes 1 1 (cstr ['x'])]
    conds := counted [condBytes 1 [(1, 1)] [xpermsBytes 2 2 1 0x8100 1 7 8] []] }

/-- A policy with one initial SID, of type 2. -/
def oneSid (p : Policydb) : SelinuxPolicy :=
  { sidtab := { sidtabInit with isids := fun sid =>
      { set := sid == 1
        entry := { sid := 1, hash := 0, context := { contextInit with user := 1, role := 1, type := 2 } } } }
    policydb := p
    map := { mapping := [] }
    latestGranting := 1 }

def bareContext : Context := { contextInit with user := 1, role := 1, type := 2 }

theorem oneSid_context (p : Policydb) : sidtabSearch (oneSid p).sidtab 1 = .ok (some bareContext) := by
  rfl

def condXpermTest (p : Policydb) : Bool :=
  policydbTypeIsvalid p 2 && policydbClassIsvalid p 1

theorem xperms_decision_iff_conditional : ∃ p rest,
    policydbRead condXpermImage.bytes = .ok (p, rest) ∧
      ∃ d, securityComputeXpermsDecision (some (oneSid p)) 1 1 1 7 = .ok d ∧
        (UnionOf (Matching p bareContext bareContext 1) 7 d ↔
          BareRulesSuffice (Matching p bareContext bareContext 1) 7) := by
  have read : condXpermImage.accepts condXpermTest = true := by decide +kernel
  obtain ⟨p, rest, accepted, test⟩ := PolicyImage.accepts_iff.mp read
  simp only [condXpermTest, Bool.and_eq_true] at test
  have inForce : InForce (oneSid p).policydb := .loaded accepted
  have known : policydbClassIsvalid (oneSid p).policydb
      ((unmapClass (oneSid p).map 1).zeroExtend 32) = true := test.2
  exact ⟨p, rest, accepted, xperms_decision_iff inForce (oneSid_context p) test.1 (oneSid_context p)
    test.1 known 7⟩

/-- The enabled rule of the image, and what the decision is without it. -/
def condXpermMissed (p : Policydb) : Bool :=
  match securityComputeXpermsDecision (some (oneSid p)) 1 1 1 7 with
  | .error _ => false
  | .ok d => d.used == 0 &&
    match atValue p.typeAttrMapArray 2 with
    | .error _ => false
    | .ok attrs =>
      (ebitmapPositiveBits attrs).contains 1 &&
        p.teCondAvtab.nodes.any fun n =>
          n.key.specified &&& avtabEnabled ≠ 0 && avtabMatch (attrKey 1 1 1 avtabXperms) avtabXperms n.key &&
            n.key.specified &&& avtabXpermsAllowed ≠ 0 &&
              match n.datum with
              | .data _ => false
              | .xperms x => xpermsApplies x 7

/-- An enabled conditional rule for the driver is left out of the decision. -/
theorem conditional_xperm_left_out : ∃ p rest,
    policydbRead condXpermImage.bytes = .ok (p, rest) ∧
      ∃ d, securityComputeXpermsDecision (some (oneSid p)) 1 1 1 7 = .ok d ∧
        ¬ UnionOf (Matching p bareContext bareContext 1) 7 d := by
  have read : condXpermImage.accepts condXpermMissed = true := by decide +kernel
  obtain ⟨p, rest, accepted, test⟩ := PolicyImage.accepts_iff.mp read
  refine ⟨p, rest, accepted, ?_⟩
  unfold condXpermMissed at test
  split at test
  · cases test
  · rename_i d decided
    refine ⟨d, decided, ?_⟩
    intro union
    rw [Bool.and_eq_true] at test
    obtain ⟨unused, test⟩ := test
    split at test
    · cases test
    · rename_i attrs found
      simp only [Bool.and_eq_true, List.any_eq_true, List.contains_iff_mem, decide_eq_true_eq] at test
      obtain ⟨attr, n, listed, ⟨⟨enabled, matched⟩, allowed⟩, extended⟩ := test
      have speaks : Speaks .allowed 7 n := by
        refine ⟨allowed, ?_⟩
        cases datum : n.datum with
        | data u =>
          rw [datum] at extended
          cases extended
        | xperms x =>
          rw [datum] at extended
          exact ⟨x, rfl, extended⟩
      have matching : Matching p bareContext bareContext 1 n :=
        ⟨.inr ⟨listed, enabled⟩, attrs, attrs, found, found, 1, attr, 1, attr, matched⟩
      apply (union.flags .allowed).mpr ⟨n, matching, speaks⟩
      rw [beq_iff_eq.mp unused]
      rfl

end Concrete

end Ksrc.Guarantees.XpermDecisions

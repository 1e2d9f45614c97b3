import Ksrc.Guarantees.AvRuleSets
import Ksrc.Guarantees.AvcResults

/-!
# Extended rules of unknown kinds are not ignored

Source: `security/selinux/ss/services.c` (`services_compute_xperms_drivers`,
`services_compute_xperms_decision`), `security/selinux/avc.c` (`avc_has_extended_perms`).

`services_compute_xperms_decision` ignores a rule of unknown kind, as its warning says.
`services_compute_xperms_drivers` does so for the driver map but sets the length of the map, and
`avc_has_extended_perms` takes a length for the sign that extended permissions are defined. The first
extended rule of a request, if it is of unknown kind, turns every grant into a denial.
-/
namespace Ksrc.Guarantees.UnknownXperms

open Library Source AvcNodeContent AvcPolicyDecisions
  AvcResults AvcTransparency AvRules
  AvRuleSets AvtabEnumeration PoliciesInForce
  PolicydbShape PolicyImages XpermDecisions

variable {policy : SelinuxPolicy} {p' : Policydb} {te cond : Set Rule} {ssid tsid : U32}
  {tclass : U16} {avd : AvDecision} {xp : ExtendedPerms}

/-- The loaded policy with another policy database. -/
def withPolicydb (policy : SelinuxPolicy) (p' : Policydb) : SelinuxPolicy := { policy with policydb := p' }

section Unknown

/-- An unknown rule says nothing about any driver. -/
theorem unknown_silent {r : Rule} (unknown : UnknownRule r) (driver : U8) : ¬ Drives driver r.2 := by
  rintro ⟨x, here, applies⟩
  obtain ⟨y, same, notFunction, notDriver⟩ := unknown.unknown
  rw [same] at here
  cases here
  rcases kind_of_applies applies with function | whole
  · exact notFunction function
  · exact notDriver whole

/-- What a decision answers, by its flag and its map. -/
theorem hasPerm_iff (d : ExtendedPermsDecision) (xperm : U8) :
    avcXpermsHasPerm d xperm xpermsAllowed = true ↔
      d.used &&& XpermUse.allowed.flag ≠ 0 ∧ HasPerm (XpermUse.allowed.map d) xperm := by
  rw [hasPerm_allowed]
  show (if d.used &&& xpermsAllowed ≠ 0 then dataTest d.allowed xperm else false) = true ↔
    d.used &&& xpermsAllowed ≠ 0 ∧ HasPerm d.allowed xperm
  by_cases used : d.used &&& xpermsAllowed ≠ 0
  · rw [if_pos used, and_iff_right used]
    unfold dataTest HasPerm
    cases d.allowed with
    | none => simp
    | some m => simp
  · rw [if_neg used]
    exact iff_of_false Bool.false_ne_true fun both => used both.1

end Unknown

section Added

variable (shape : PolicyShape policy.policydb) (shape' : PolicyShape p')
  (adds : AddsRules policy.policydb p' te cond)
  (teUnknown : ∀ r ∈ te, UnknownRule r) (condUnknown : ∀ r ∈ cond, UnknownRule r)

include shape shape' adds teUnknown condUnknown

/-- The access vector stays as it is. -/
theorem securityComputeAv_added
    (computed : securityComputeAv (some policy) ssid tsid tclass = .ok (avd, xp)) :
    ∃ xp', securityComputeAv (some (withPolicydb policy p')) ssid tsid tclass = .ok (avd, xp') := by
  have map : p'.permissiveMap = policy.policydb.permissiveMap := by
    rw [adds.same]
    rfl
  have unknown : p'.allowUnknown = policy.policydb.allowUnknown := by
    rw [adds.same]
    rfl
  have types : p'.typeValToStruct = policy.policydb.typeValToStruct := by
    rw [adds.same]
    rfl
  have start : avdInit (some (withPolicydb policy p')) = avdInit (some policy) := rfl
  unfold securityComputeAv at computed ⊢
  simp only [exceptBind_ok] at computed
  obtain ⟨scontext, source, computed⟩ := computed
  simp only [start]
  simp only [withPolicydb, source, bind, Except.bind, map, unknown]
  cases scontext with
  | none =>
    cases computed
    exact ⟨_, rfl⟩
  | some scontext =>
    simp only [exceptBind_ok] at computed
    obtain ⟨tcontext, target, computed⟩ := computed
    simp only [target]
    cases tcontext with
    | none =>
      cases computed
      exact ⟨_, rfl⟩
    | some tcontext =>
      dsimp only at computed ⊢
      split
      · rename_i unmapped
        rw [if_pos unmapped] at computed
        split
        · rename_i allow
          rw [if_pos allow] at computed
          cases computed
          exact ⟨_, rfl⟩
        · rename_i allow
          rw [if_neg allow] at computed
          cases computed
          exact ⟨_, rfl⟩
      · rename_i mapped
        rw [if_neg mapped] at computed
        simp only [exceptBind_ok] at computed
        obtain ⟨answer, decided, done⟩ := computed
        unfold contextStructComputeAv at decided ⊢
        rw [types]
        obtain ⟨xperms', again⟩ := SameAv.ok (contextStructComputeAvDepth_same shape shape' adds
          teUnknown condUnknown _ scontext tcontext _ _ (some { len := 0, drivers := .zero })) decided
        simp only [again]
        cases done
        exact ⟨_, rfl⟩

/-- The driver map has the same drivers, and a length if it had one or an added rule applies. -/
theorem driverMap_added {xp' : ExtendedPerms}
    (computed : securityComputeAv (some policy) ssid tsid tclass = .ok (avd, xp))
    (computed' : securityComputeAv (some (withPolicydb policy p')) ssid tsid tclass = .ok (avd, xp')) :
    (xp'.len ≠ 0 ↔ xp.len ≠ 0 ∨ RequestAsks policy ssid tsid tclass te cond IsXperms) ∧
      ∀ driver, securityXpermTest xp'.drivers driver = securityXpermTest xp.drivers driver := by
  obtain ⟨len, drivers⟩ := computeAv_asked shape computed
  have shapeNew : PolicyShape (withPolicydb policy p').policydb := shape'
  obtain ⟨len', drivers'⟩ := computeAv_asked shapeNew computed'
  have requests : ∀ sattr tattr, Request (withPolicydb policy p') ssid tsid tclass sattr tattr ↔
      Request policy ssid tsid tclass sattr tattr := by
    intro sattr tattr
    have attrs : p'.typeAttrMapArray = policy.policydb.typeAttrMapArray := by
      rw [adds.same]
      rfl
    have classes : p'.pClasses = policy.policydb.pClasses := by
      rw [adds.same]
      rfl
    constructor
    · rintro ⟨source, target, known⟩
      simp only [withPolicydb, attrs, classes] at source target known
      exact ⟨source, target, known⟩
    · rintro ⟨source, target, known⟩
      constructor
      · simp only [withPolicydb, attrs]
        exact source
      · simp only [withPolicydb, attrs]
        exact target
      · simp only [withPolicydb, classes]
        exact known
  have asks : ∀ about, RequestAsks (withPolicydb policy p') ssid tsid tclass (ruleSet p'.teAvtab)
      (ruleSet p'.teCondAvtab) about ↔
      RequestAsks policy ssid tsid tclass (ruleSet policy.policydb.teAvtab)
        (ruleSet policy.policydb.teCondAvtab) about ∨
        RequestAsks policy ssid tsid tclass te cond about := by
    intro about
    unfold RequestAsks
    simp only [requests, adds.te, adds.cond, asked_union]
    constructor
    · rintro ⟨sattr, tattr, request, old | new⟩
      · exact .inl ⟨sattr, tattr, request, old⟩
      · exact .inr ⟨sattr, tattr, request, new⟩
    · rintro (⟨sattr, tattr, request, old⟩ | ⟨sattr, tattr, request, new⟩)
      · exact ⟨sattr, tattr, request, .inl old⟩
      · exact ⟨sattr, tattr, request, .inr new⟩
  constructor
  · rw [len', len]
    exact asks IsXperms
  · intro driver
    rw [Bool.eq_iff_iff, drivers', drivers]
    refine (asks (Drives driver)).trans (or_iff_left ?_)
    rintro ⟨sattr, tattr, -, r, inForce, -, drives, -⟩
    rcases inForce with unconditional | ⟨conditional, -⟩
    · exact unknown_silent (teUnknown r unconditional) driver drives
    · exact unknown_silent (condUnknown r conditional) driver drives

omit shape shape' in
/-- The matching rules that say something are the same. -/
theorem matching_added {scontext tcontext : Context} {c : U16} {about : Rule → Prop}
    (silent : ∀ r, UnknownRule r → ¬ about r) :
    (∃ n, Matching p' scontext tcontext c n ∧ about (n.key, n.datum)) ↔
      ∃ n, Matching policy.policydb scontext tcontext c n ∧ about (n.key, n.datum) := by
  have attrs : p'.typeAttrMapArray = policy.policydb.typeAttrMapArray := by
    rw [adds.same]
    rfl
  constructor
  · rintro ⟨n, ⟨inForce, types⟩, speaks⟩
    rw [attrs] at types
    rcases inForce with listed | ⟨listed, enabled⟩
    · have member : (n.key, n.datum) ∈ ruleSet p'.teAvtab := ⟨n, listed, rfl⟩
      rw [adds.te] at member
      rcases member with ⟨m, old, same⟩ | new
      · rw [Prod.mk.injEq] at same
        refine ⟨m, ⟨.inl old, ?_⟩, ?_⟩
        · rw [same.1]
          exact types
        · rw [same.1, same.2]
          exact speaks
      · exact absurd speaks (silent _ (teUnknown _ new))
    · have member : (n.key, n.datum) ∈ ruleSet p'.teCondAvtab := ⟨n, listed, rfl⟩
      rw [adds.cond] at member
      rcases member with ⟨m, old, same⟩ | new
      · rw [Prod.mk.injEq] at same
        refine ⟨m, ⟨.inr ⟨old, ?_⟩, ?_⟩, ?_⟩
        · rw [same.1]
          exact enabled
        · rw [same.1]
          exact types
        · rw [same.1, same.2]
          exact speaks
      · exact absurd speaks (silent _ (condUnknown _ new))
  · rintro ⟨n, ⟨inForce, types⟩, speaks⟩
    rw [← attrs] at types
    rcases inForce with listed | ⟨listed, enabled⟩
    · have member : (n.key, n.datum) ∈ ruleSet p'.teAvtab := by
        rw [adds.te]
        exact .inl ⟨n, listed, rfl⟩
      obtain ⟨m, new, same⟩ := member
      rw [Prod.mk.injEq] at same
      refine ⟨m, ⟨.inl new, ?_⟩, ?_⟩
      · rw [same.1]
        exact types
      · rw [same.1, same.2]
        exact speaks
    · have member : (n.key, n.datum) ∈ ruleSet p'.teCondAvtab := by
        rw [adds.cond]
        exact .inl ⟨n, listed, rfl⟩
      obtain ⟨m, new, same⟩ := member
      rw [Prod.mk.injEq] at same
      refine ⟨m, ⟨.inr ⟨new, ?_⟩, ?_⟩, ?_⟩
      · rw [same.1]
        exact enabled
      · rw [same.1]
        exact types
      · rw [same.1, same.2]
        exact speaks

/-- Where an extended rule applies, both policies decide on the driver alike. -/
theorem decision_added (extended : xp.len ≠ 0)
    (computed : securityComputeAv (some policy) ssid tsid tclass = .ok (avd, xp)) (driver : U8)
    {d d' : ExtendedPermsDecision}
    (decided : securityComputeXpermsDecision (some policy) ssid tsid tclass driver = .ok d)
    (decided' : securityComputeXpermsDecision (some (withPolicydb policy p')) ssid tsid tclass driver =
      .ok d') (xperm : U8) :
    avcXpermsHasPerm d' xperm xpermsAllowed = avcXpermsHasPerm d xperm xpermsAllowed := by
  obtain ⟨sattr, tattr, request, -⟩ := (computeAv_asked shape computed).1.mp extended
  obtain ⟨⟨scontext, source, sources⟩, ⟨tcontext, target, targets⟩, known⟩ := request
  have classes : p'.pClasses = policy.policydb.pClasses := by
    rw [adds.same]
    rfl
  have attrs : p'.typeAttrMapArray = policy.policydb.typeAttrMapArray := by
    rw [adds.same]
    rfl
  have valid : policydbClassIsvalid policy.policydb
      ((unmapClass policy.map tclass).zeroExtend 32) = true := by
    rw [not_or] at known
    simp only [policydbClassIsvalid, valueIsvalid, Bool.and_eq_true, decide_eq_true_eq]
    refine ⟨?_, BitVec.not_lt.mp known.2⟩
    intro zero
    apply known.1
    apply BitVec.eq_of_toNat_eq
    have small := (unmapClass policy.map tclass).isLt
    have nat := congrArg BitVec.toNat zero
    simp only [BitVec.toNat_setWidth, BitVec.ofNat_eq_ofNat, BitVec.toNat_ofNat] at nat
    show (unmapClass policy.map tclass).toNat = 0
    omega
  have valid' : policydbClassIsvalid (withPolicydb policy p').policydb
      ((unmapClass (withPolicydb policy p').map tclass).zeroExtend 32) = true := by
    unfold policydbClassIsvalid at valid ⊢
    simp only [withPolicydb, classes]
    exact valid
  obtain ⟨e, same, -, flags, maps⟩ := decision_of_bare shape source target sources targets valid
    driver
  have shapeNew : PolicyShape (withPolicydb policy p').policydb := shape'
  obtain ⟨e', same', -, flags', maps'⟩ := decision_of_bare shapeNew source target
    (by rw [withPolicydb, attrs]; exact sources) (by rw [withPolicydb, attrs]; exact targets) valid'
    driver
  rw [decided] at same
  rw [decided'] at same'
  cases same
  cases same'
  have silentFlag : ∀ r : Rule, UnknownRule r → ¬ (r.1.specified = XpermUse.allowed.code ∧
      r.1.specified &&& XpermUse.allowed.code ≠ 0 ∧
        ∃ x, r.2 = .xperms x ∧ xpermsApplies x driver = true) := by
    rintro r unknown ⟨-, -, speaks⟩
    exact unknown_silent unknown driver speaks
  have silentMap : ∀ r : Rule, UnknownRule r → ¬ (r.1.specified = XpermUse.allowed.code ∧
      r.1.specified &&& XpermUse.allowed.code ≠ 0 ∧
        ∃ x, r.2 = .xperms x ∧ xpermsApplies x driver = true ∧ Names x xperm) := by
    rintro r unknown ⟨-, -, x, here, applies, -⟩
    exact unknown_silent unknown driver ⟨x, here, applies⟩
  have flag := (flags' .allowed).trans
    ((matching_added adds teUnknown condUnknown silentFlag).trans (flags .allowed).symm)
  have map := (maps' .allowed xperm).trans
    ((matching_added adds teUnknown condUnknown silentMap).trans
      (maps .allowed xperm).symm)
  rw [Bool.eq_iff_iff, hasPerm_iff, hasPerm_iff]
  exact and_congr flag map

end Added

section Check

/-- The domain of a request is permissive just when its decision is flagged so. -/
theorem permissive_flag
    (computed : securityComputeAv (some policy) ssid tsid tclass = .ok (avd, xp)) :
    avd.flags &&& avdFlagsPermissive ≠ 0 ↔ PermissiveDomain policy ssid := by
  refine ⟨(securityComputeAv_shape computed).1, ?_⟩
  rintro ⟨s, found, bit⟩
  have flagged : ∀ flags : U32, (flags ||| avdFlagsPermissive) &&& avdFlagsPermissive ≠ 0 := by
    intro flags zero
    have low := congrArg (BitVec.getLsbD · 0) zero
    simp [avdFlagsPermissive] at low
  unfold securityComputeAv at computed
  simp only [exceptBind_ok] at computed
  obtain ⟨scontext, source, computed⟩ := computed
  rw [found] at source
  cases source
  simp only [exceptBind_ok, bit, if_true] at computed
  obtain ⟨tcontext, -, computed⟩ := computed
  cases tcontext with
  | none =>
    cases computed
    exact flagged _
  | some tcontext =>
    simp only at computed
    split at computed
    · split at computed
      · cases computed
        exact flagged _
      · cases computed
        exact flagged _
    · simp only [exceptBind_ok] at computed
      obtain ⟨answer, decided, done⟩ := computed
      have shape := contextStructComputeAvDepth_shape decided
      cases done
      rw [mapDecision_flags, shape.1]
      exact flagged _

/-- The call is granted by the access vector, and only added rules make it ask for extended
permissions. -/
structure AddedDeny (policy : SelinuxPolicy) (te cond : Set Rule) (enforcing : Bool) (ssid tsid : U32)
    (tclass : U16) (requested : U32) (avd : AvDecision) : Prop where
  enforcing : enforcing = true
  strict : ¬ PermissiveDomain policy ssid
  asked : requested ≠ 0
  granted : requested &&& ~~~avd.allowed = 0
  added : RequestAsks policy ssid tsid tclass te cond IsXperms
  first : ¬ RequestAsks policy ssid tsid tclass (ruleSet policy.policydb.teAvtab)
    (ruleSet policy.policydb.teCondAvtab) IsXperms

/-- Added rules of unknown kinds leave the result of a call alone just when they do not bring the
first extended rule to a request that is granted. -/
theorem unknown_rules_iff (inForce : InForce policy.policydb) (inForce' : InForce p')
    (adds : AddsRules policy.policydb p' te cond) (teUnknown : ∀ r ∈ te, UnknownRule r)
    (condUnknown : ∀ r ∈ cond, UnknownRule r)
    (computed : securityComputeAv (some policy) ssid tsid tclass = .ok (avd, xp))
    {enforcing : Bool} {c c' : AvcCache}
    (reached : enforcing = true → (avcCallMachine (loadedServer policy)).Reachable Machine.free c)
    (reached' : enforcing = true →
      (avcCallMachine (loadedServer (withPolicydb policy p'))).Reachable Machine.free c')
    (requested : U32) (driver xperm : U8) (stack stack' : ExtendedPermsData) (t t' : Tape) :
    (avcHasExtendedPerms (loadedServer policy) enforcing c ssid tsid tclass requested driver xperm
        stack (.ok ()) t).1 =
      (avcHasExtendedPerms (loadedServer (withPolicydb policy p')) enforcing c' ssid tsid tclass
        requested driver xperm stack' (.ok ()) t').1 ↔
      ¬ AddedDeny policy te cond enforcing ssid tsid tclass requested avd := by
  have shape := inForce.shape
  have shape' := inForce'.shape
  by_cases asked : requested = 0
  · apply iff_of_true
    · unfold avcHasExtendedPerms
      rw [if_pos asked, if_pos asked]
    · exact fun deny => deny.asked asked
  · cases enforcing with
    | false =>
      apply iff_of_true
      · rw [permissive_mode asked, permissive_mode asked]
      · exact fun deny => Bool.false_ne_true deny.enforcing
    | true =>
      obtain ⟨xp', computed'⟩ := securityComputeAv_added shape shape' adds teUnknown condUnknown
        computed
      have reached := reached rfl
      have reached' := reached' rfl
      obtain ⟨rc, c₁, t₁, done⟩ : ∃ rc c₁ t₁, avcHasExtendedPerms (loadedServer policy) true c ssid
          tsid tclass requested driver xperm stack (.ok ()) t = (rc, c₁, t₁) := ⟨_, _, _, rfl⟩
      obtain ⟨rc', c₁', t₁', done'⟩ : ∃ rc' c₁' t₁', avcHasExtendedPerms
          (loadedServer (withPolicydb policy p')) true c' ssid tsid tclass requested driver xperm
          stack' (.ok ()) t' = (rc', c₁', t₁') := ⟨_, _, _, rfl⟩
      obtain ⟨-, two, lax⟩ := hasExtendedPerms_results (reachable_kept reached) asked done
      obtain ⟨-, two', lax'⟩ := hasExtendedPerms_results (reachable_kept reached') asked done'
      rw [done, done']
      by_cases permissive : PermissiveDomain policy ssid
      · have key : PermissiveKey (loadedServer policy) ssid tsid tclass := by
          unfold PermissiveKey
          simp only [loadedServer, computed]
          exact (permissive_flag computed).mpr permissive
        have key' : PermissiveKey (loadedServer (withPolicydb policy p')) ssid tsid tclass := by
          unfold PermissiveKey
          simp only [loadedServer, computed']
          exact (permissive_flag computed).mpr permissive
        apply iff_of_true
        · rw [lax (.inr key), lax' (.inr key')]
        · exact fun deny => deny.strict permissive
      · have permissive' : ¬ PermissiveDomain (withPolicydb policy p') ssid := by
          intro still
          apply permissive
          rw [← permissive_flag computed]
          rw [← permissive_flag computed'] at still
          exact still
        obtain ⟨-, extended⟩ := avc_transparent reached asked permissive computed
        obtain ⟨-, extended'⟩ := avc_transparent reached' asked permissive' computed'
        obtain ⟨d, decided, grants⟩ := extended driver
        obtain ⟨d', decided', grants'⟩ := extended' driver
        have grants := grants xperm stack t
        have grants' := grants' xperm stack' t'
        rw [done] at grants
        rw [done'] at grants'
        obtain ⟨len, drivers⟩ := driverMap_added shape shape' adds teUnknown condUnknown computed
          computed'
        have results : rc = rc' ↔ (rc = .ok () ↔ rc' = .ok ()) := by
          rcases two with rfl | rfl <;> rcases two' with rfl | rfl <;> simp
        dsimp only at grants grants' ⊢
        rw [results, grants, grants']
        have asks := (computeAv_asked shape computed).1
        by_cases old : xp.len ≠ 0
        · have new : xp'.len ≠ 0 := len.mpr (.inl old)
          apply iff_of_true
          · rw [drivers, decision_added shape shape' adds teUnknown condUnknown old computed driver
              decided decided']
            exact and_congr_right fun _ => ⟨fun permits _ => permits old, fun permits _ => permits new⟩
          · exact fun deny => deny.first (asks.mp old)
        · by_cases new : xp'.len ≠ 0
          · -- no driver is in the map, so the request is denied now
            have none : securityXpermTest xp'.drivers driver ≠ true := by
              rw [drivers, ne_eq, (computeAv_asked shape computed).2]
              rintro ⟨sattr, tattr, request, r, inForce, extended, ⟨x, here, -⟩, paired⟩
              exact old (asks.mpr ⟨sattr, tattr, request, r, inForce, extended, ⟨x, here⟩, paired⟩)
            have added := (len.mp new).resolve_left old
            constructor
            · intro same deny
              exact none (((same.mp ⟨deny.granted, fun long => absurd long old⟩).2 new).1)
            · intro noDeny
              have refused : ¬ requested &&& ~~~avd.allowed = 0 := fun granted =>
                noDeny ⟨rfl, permissive, asked, granted, added, fun asking => old (asks.mpr asking)⟩
              exact iff_of_false (fun both => refused both.1) fun both => refused both.1
          · apply iff_of_true
            · exact and_congr_right fun _ =>
                ⟨fun _ long => absurd long new, fun _ long => absurd long old⟩
            · exact fun deny => new (len.mpr (.inr deny.added))

end Check

section Concrete

deriving instance DecidableEq for Policydb

/-- The small image and an extended rule of kind 3 between its types. -/
def unknownKindImage : PolicyImage :=
  { smallImage with rules := counted [ruleBytes 2 2 1 1 1, xpermsBytes 2 2 1 0x100 3 0 0] }

/-- The rule that is added. -/
def unknownKindRule : Rule :=
  ({ sourceType := 2, targetType := 2, targetClass := 1, specified := avtabXpermsAllowed },
    .xperms { specified := 3, driver := 0, perms := .zero })

def plainRule : Rule :=
  ({ sourceType := 2, targetType := 2, targetClass := 1, specified := avtabAllowed }, .data 1)

/-- A call for the one permission, from an empty cache. -/
def smallCall (p : Policydb) : Except Errno Unit :=
  (avcHasExtendedPerms (loadedServer (oneSid p)) true selinuxAvcInit 1 1 1 1 0 0 .zero (.ok ())
    { allocs := [], trylocks := [] }).1

def smallAnswer (p : Policydb) : Option U32 :=
  match securityComputeAv (some (oneSid p)) 1 1 1 with
  | .ok (avd, _) => some avd.allowed
  | .error _ => none

/-- What the two images differ in. -/
def unknownKindTest (p p' : Policydb) : Bool :=
  decide (p' = withRules p p'.teAvtab p'.teCondAvtab p'.condList) &&
    decide (p.teAvtab.nodes.map (fun n => (n.key, n.datum)) = [plainRule]) &&
    decide (p'.teAvtab.nodes.map (fun n => (n.key, n.datum)) = [plainRule, unknownKindRule]) &&
    decide (p'.teCondAvtab.nodes = p.teCondAvtab.nodes) && decide (smallAnswer p = some 1)

def unknownKindPair (test : Policydb → Policydb → Bool) : Bool :=
  smallImage.accepts fun p => unknownKindImage.accepts fun p' => test p p'

theorem unknownKindPair_iff {test : Policydb → Policydb → Bool} : unknownKindPair test = true ↔
    ∃ p rest p' rest', policydbRead smallImage.bytes = .ok (p, rest) ∧
      policydbRead unknownKindImage.bytes = .ok (p', rest') ∧ test p p' = true := by
  unfold unknownKindPair
  rw [PolicyImage.accepts_iff]
  constructor
  · rintro ⟨p, rest, read, other⟩
    obtain ⟨p', rest', read', holds⟩ := PolicyImage.accepts_iff.mp other
    exact ⟨p, rest, p', rest', read, read', holds⟩
  · rintro ⟨p, rest, p', rest', read, read', holds⟩
    exact ⟨p, rest, read, PolicyImage.accepts_iff.mpr ⟨p', rest', read', holds⟩⟩

theorem mem_ruleSet {h : Avtab} {r : Rule} :
    r ∈ ruleSet h ↔ r ∈ h.nodes.map fun n => (n.key, n.datum) := by
  rw [List.mem_map]
  exact Iff.rfl

/-- The second image adds the rule to the first. -/
theorem unknownKind_adds {p p' : Policydb} (test : unknownKindTest p p' = true) :
    AddsRules p p' {unknownKindRule} ∅ ∧
      ∃ avd xp, securityComputeAv (some (oneSid p)) 1 1 1 = .ok (avd, xp) ∧ avd.allowed = 1 := by
  simp only [unknownKindTest, Bool.and_eq_true, decide_eq_true_eq] at test
  obtain ⟨⟨⟨⟨same, rules⟩, rules'⟩, cond⟩, answer⟩ := test
  refine ⟨⟨same, ?_, ?_⟩, ?_⟩
  · ext r
    rw [Set.mem_union, mem_ruleSet, mem_ruleSet, rules, rules']
    simp
  · unfold ruleSet
    rw [cond, Set.union_empty]
  · unfold smallAnswer at answer
    split at answer
    · rename_i avd xp computed
      exact ⟨avd, xp, computed, Option.some.inj answer⟩
    · cases answer

theorem unknownKindRule_unknown : ∀ r ∈ ({unknownKindRule} : Set Rule), UnknownRule r := by
  rintro r rfl
  constructor
  · decide
  · decide
  · exact ⟨_, rfl, by decide, by decide⟩

/-- Both images are accepted, and only the first one lets the call through. -/
theorem unknownKind_read : ∃ p rest p' rest',
    policydbRead smallImage.bytes = .ok (p, rest) ∧
      policydbRead unknownKindImage.bytes = .ok (p', rest') ∧ unknownKindTest p p' = true ∧
        (smallCall p).isOk = true ∧ (smallCall p').isOk = false := by
  have pair : unknownKindPair (fun p p' =>
      unknownKindTest p p' && (smallCall p).isOk && !(smallCall p').isOk) = true := by
    decide +kernel
  obtain ⟨p, rest, p', rest', read, read', test⟩ := unknownKindPair_iff.mp pair
  simp only [Bool.and_eq_true, Bool.not_eq_true'] at test
  obtain ⟨⟨differ, granted⟩, denied⟩ := test
  exact ⟨p, rest, p', rest', read, read', differ, granted, denied⟩

theorem unknown_rules_iff_small : ∃ p rest p' rest',
    policydbRead smallImage.bytes = .ok (p, rest) ∧
      policydbRead unknownKindImage.bytes = .ok (p', rest') ∧
        ∃ avd xp, securityComputeAv (some (oneSid p)) 1 1 1 = .ok (avd, xp) ∧
          (smallCall p = smallCall p' ↔
            ¬ AddedDeny (oneSid p) {unknownKindRule} ∅ true 1 1 1 1 avd) := by
  obtain ⟨p, rest, p', rest', read, read', test, -⟩ := unknownKind_read
  obtain ⟨adds, avd, xp, computed, -⟩ := unknownKind_adds test
  have empty : ∀ server, (avcCallMachine server).Reachable Machine.free selinuxAvcInit :=
    fun server => ⟨selinuxAvcInit, rfl, Relation.ReflTransGen.refl⟩
  have inForce : InForce (oneSid p).policydb := .loaded read
  exact ⟨p, rest, p', rest', read, read', avd, xp, computed,
    unknown_rules_iff inForce (.loaded read') adds unknownKindRule_unknown (fun r none => none.elim)
      computed (fun _ => empty _) (fun _ => empty _) 1 0 0 .zero .zero _ _⟩

/-- The added rule, which is to be ignored, denies what was granted. -/
theorem unknown_rule_denies : ∃ p rest p' rest',
    policydbRead smallImage.bytes = .ok (p, rest) ∧
      policydbRead unknownKindImage.bytes = .ok (p', rest') ∧
        AddsRules p p' {unknownKindRule} ∅ ∧ UnknownRule unknownKindRule ∧
          smallCall p ≠ smallCall p' := by
  obtain ⟨p, rest, p', rest', read, read', differ, granted, denied⟩ := unknownKind_read
  refine ⟨p, rest, p', rest', read, read', (unknownKind_adds differ).1,
    unknownKindRule_unknown _ rfl, ?_⟩
  intro same
  rw [same, denied] at granted
  cases granted

end Concrete

end Ksrc.Guarantees.UnknownXperms

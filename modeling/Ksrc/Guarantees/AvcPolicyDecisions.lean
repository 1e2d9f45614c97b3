import Ksrc.Source.Services
import Ksrc.Guarantees.AvcTransparency

/-!
# The cache of a loaded policy

Source: `security/selinux/avc.c`, `security/selinux/ss/services.c` (`security_compute_av`,
`security_compute_xperms_decision`).

A loaded policy keeps what the cache asks of a security server, so the cache decides as
its two functions do.
-/
namespace Ksrc.Guarantees.AvcPolicyDecisions

open Library Source AvcNodeContent AvcTransparency

/-- The security server of a loaded policy. Where a function ends in an oops there is
nothing to answer, and the answer here denies. -/
def loadedServer (policy : SelinuxPolicy) : SecurityServer :=
  { securityComputeAv := fun ssid tsid tclass =>
      match securityComputeAv (some policy) ssid tsid tclass with
      | .ok answer => answer
      | .error _ => (avdInit none, { len := 0, drivers := .zero })
    securityComputeXpermsDecision := fun ssid tsid tclass driver =>
      match securityComputeXpermsDecision (some policy) ssid tsid tclass driver with
      | .ok xpermd => xpermd
      | .error _ =>
        { used := 0, driver, allowed := none, auditallow := none, dontaudit := none } }

/-- The domain of a SID is permissive in the policy. -/
def PermissiveDomain (policy : SelinuxPolicy) (ssid : U32) : Prop :=
  ∃ scontext, sidtabSearch policy.sidtab ssid = .ok (some scontext) ∧
    ebitmapGetBit policy.policydb.permissiveMap scontext.type.toNat = true

section Shape

variable {p : Policydb} {flags : U32}

/-- What the loops over the rules keep of a decision in the making: its flags, and a
count of at most 1. -/
def Shape (flags : U32) (acc : AvDecision × Option ExtendedPerms) : Prop :=
  acc.1.flags = flags ∧ ∀ x, acc.2 = some x → x.len.toNat ≤ 1

theorem foldl_shape {α : Type} {f : AvDecision × Option ExtendedPerms → α →
    AvDecision × Option ExtendedPerms} (step : ∀ acc a, Shape flags acc → Shape flags (f acc a))
    (as : List α) {acc : AvDecision × Option ExtendedPerms} (shape : Shape flags acc) :
    Shape flags (as.foldl f acc) := by
  induction as generalizing acc with
  | nil => exact shape
  | cons a rest ih => exact ih (step acc a shape)

/-- A rule with extended permissions makes the count 1. -/
theorem drivers_len {x : ExtendedPerms} (small : x.len.toNat ≤ 1) (node : AvtabNode) :
    (servicesComputeXpermsDrivers x node).len.toNat ≤ 1 := by
  unfold servicesComputeXpermsDrivers
  split
  · exact small
  · simp

theorem map_drivers_len {xperms : Option ExtendedPerms} (node : AvtabNode)
    (small : ∀ x, xperms = some x → x.len.toNat ≤ 1) :
    ∀ x, xperms.map (servicesComputeXpermsDrivers · node) = some x → x.len.toNat ≤ 1 := by
  intro x mapped
  obtain ⟨old, here, rfl⟩ := Option.map_eq_some_iff.mp mapped
  exact drivers_len (small old here) node

theorem computeAvNode_shape (acc : AvDecision × Option ExtendedPerms) (node : AvtabNode)
    (shape : Shape flags acc) : Shape flags (computeAvNode acc node) := by
  unfold computeAvNode
  simp only
  split
  · exact shape
  · split
    · exact shape
    · split
      · exact shape
      · split
        · exact ⟨shape.1, map_drivers_len node shape.2⟩
        · exact shape

theorem condComputeNode_shape (acc : AvDecision × Option ExtendedPerms) (node : AvtabNode)
    (shape : Shape flags acc) : Shape flags (condComputeNode acc node) := by
  unfold condComputeNode
  constructor
  · have kept := shape.1
    simp only
    split <;> split <;> split <;> exact kept
  · simp only
    split
    · exact map_drivers_len node shape.2
    · exact shape.2

theorem computeAvRules_shape (tclass : U16) (sattr tattr : Ebitmap)
    {acc : AvDecision × Option ExtendedPerms} (shape : Shape flags acc) :
    Shape flags (computeAvRules p tclass sattr tattr acc) := by
  unfold computeAvRules
  apply foldl_shape _ _ shape
  intro acc i shape
  apply foldl_shape _ _ shape
  intro acc j shape
  unfold computeAvPair condComputeAv
  exact foldl_shape condComputeNode_shape _ (foldl_shape computeAvNode_shape _ shape)

theorem computeAvUnbounded_shape {scontext tcontext : Context} {tclass : U16}
    {acc answer : AvDecision × Option ExtendedPerms}
    (computed : computeAvUnbounded p scontext tcontext tclass acc = .ok answer)
    (shape : Shape flags acc) : Shape flags answer := by
  unfold computeAvUnbounded at computed
  simp only [exceptBind_ok] at computed
  obtain ⟨_, -, sattr, -, tattr, -, _, -, _, -, computed⟩ := computed
  cases computed
  have rules := computeAvRules_shape (p := p) tclass sattr tattr shape
  exact ⟨rules.1, rules.2⟩

/-- Of two contexts `context_struct_compute_av` keeps the flags and counts at most 1. -/
theorem contextStructComputeAvDepth_shape {depth : Nat} {scontext tcontext : Context} {tclass : U16}
    {avd : AvDecision} {xperms : Option ExtendedPerms} {answer : AvDecision × Option ExtendedPerms}
    (computed : contextStructComputeAvDepth p depth scontext tcontext tclass avd xperms =
      .ok answer) : Shape avd.flags answer := by
  have cleared : ∀ x, xperms.map (fun _ => { len := 0, drivers := .zero }) = some x →
      (x : ExtendedPerms).len.toNat ≤ 1 := by
    intro x mapped
    obtain ⟨old, -, rfl⟩ := Option.map_eq_some_iff.mp mapped
    simp
  cases depth with
  | zero => cases computed
  | succ depth =>
    unfold contextStructComputeAvDepth at computed
    simp only at computed
    split at computed
    · cases computed
      exact ⟨rfl, cleared⟩
    · split at computed
      · cases computed
      · rename_i avd₁ xperms₁ unbounded
        have shape : Shape avd.flags (avd₁, xperms₁) :=
          computeAvUnbounded_shape unbounded ⟨rfl, cleared⟩
        split at computed
        · cases computed
        · cases computed
          exact shape
        · split at computed
          · cases computed
          · cases computed
            exact ⟨shape.1, shape.2⟩

end Shape

section Map

theorem mapDecision_flags (map : SelinuxMap) (tclass : U16) (avd : AvDecision) (allowUnknown : Bool) :
    (mapDecision map tclass avd allowUnknown).flags = avd.flags := by
  unfold mapDecision
  split <;> rfl

/-- A computed decision has read the attribute maps of both types. -/
theorem attributes_of_computed {p : Policydb} {scontext tcontext : Context} {tclass : U16}
    {avd : AvDecision} {xperms : Option ExtendedPerms} {answer : AvDecision × Option ExtendedPerms}
    (known : ¬ (tclass = 0 ∨ p.pClasses.nprim < tclass.zeroExtend 32))
    (computed : contextStructComputeAv p scontext tcontext tclass avd xperms = .ok answer) :
    ∃ sattr tattr, atValue p.typeAttrMapArray scontext.type = .ok sattr ∧
      atValue p.typeAttrMapArray tcontext.type = .ok tattr := by
  obtain ⟨depth, enough⟩ :
    ∃ depth, p.typeValToStruct.length + policydbBoundsMaxdepth = depth + 1 := ⟨_, rfl⟩
  unfold contextStructComputeAv at computed
  rw [enough] at computed
  unfold contextStructComputeAvDepth at computed
  simp only [if_neg known] at computed
  split at computed
  · cases computed
  · rename_i avd₁ xperms₁ unbounded
    unfold computeAvUnbounded at unbounded
    simp only [exceptBind_ok] at unbounded
    obtain ⟨_, -, sattr, sources, tattr, targets, -⟩ := unbounded
    exact ⟨sattr, tattr, sources, targets⟩

end Map

section Driver

variable {driver : U8}

theorem foldl_driver {α : Type} {f : ExtendedPermsDecision → α → ExtendedPermsDecision}
    (step : ∀ xpermd a, xpermd.driver = driver → (f xpermd a).driver = driver) (as : List α)
    {xpermd : ExtendedPermsDecision} (same : xpermd.driver = driver) :
    (as.foldl f xpermd).driver = driver := by
  induction as generalizing xpermd with
  | nil => exact same
  | cons a rest ih => exact ih (step xpermd a same)

theorem servicesComputeXpermsDecision_driver (xpermd : ExtendedPermsDecision) (node : AvtabNode) :
    (servicesComputeXpermsDecision xpermd node).driver = xpermd.driver := by
  unfold servicesComputeXpermsDecision
  split
  · rfl
  · split
    · split
      · rfl
      · split
        · rfl
        · split <;> rfl
    · rfl

theorem computeXpermsPair_driver {p : Policydb} {tclass : U16} {i j : U32}
    {xpermd : ExtendedPermsDecision} (same : xpermd.driver = driver) :
    (computeXpermsPair p tclass i j xpermd).driver = driver := by
  unfold computeXpermsPair condComputeXperms
  apply foldl_driver
  · intro xpermd node same
    split
    · exact (servicesComputeXpermsDecision_driver xpermd node).trans same
    · exact same
  · apply foldl_driver _ _ same
    intro xpermd node same
    exact (servicesComputeXpermsDecision_driver xpermd node).trans same

end Driver

section Server

variable {policy : SelinuxPolicy} {ssid tsid : U32} {tclass : U16} {avd : AvDecision}
  {xp : ExtendedPerms}

theorem avdInit_flags (policy : Option SelinuxPolicy) :
    (avdInit policy).flags &&& avdFlagsPermissive = 0 := by
  simp [avdInit]

/-- The decision of a policy is flagged permissive only for a permissive domain, and it
counts at most 1. -/
theorem securityComputeAv_shape
    (computed : securityComputeAv (some policy) ssid tsid tclass = .ok (avd, xp)) :
    (avd.flags &&& avdFlagsPermissive ≠ 0 → PermissiveDomain policy ssid) ∧ xp.len.toNat ≤ 1 := by
  unfold securityComputeAv at computed
  simp only [exceptBind_ok] at computed
  obtain ⟨scontext, source, computed⟩ := computed
  cases scontext with
  | none =>
    cases computed
    exact ⟨fun flagged => absurd (avdInit_flags _) flagged, Nat.zero_le 1⟩
  | some scontext =>
    simp only [exceptBind_ok] at computed
    obtain ⟨tcontext, -, computed⟩ := computed
    have domain : ∀ flags, flags = (if ebitmapGetBit policy.policydb.permissiveMap
        scontext.type.toNat then (avdInit (some policy)).flags ||| avdFlagsPermissive
        else (avdInit (some policy)).flags) → flags &&& avdFlagsPermissive ≠ 0 →
        PermissiveDomain policy ssid := by
      rintro flags rfl flagged
      split at flagged
      · rename_i bit
        exact ⟨scontext, source, bit⟩
      · exact absurd (avdInit_flags _) flagged
    cases tcontext with
    | none =>
      cases computed
      exact ⟨domain _ rfl, Nat.zero_le 1⟩
    | some tcontext =>
      simp only at computed
      split at computed
      · split at computed
        · cases computed
          exact ⟨domain _ rfl, Nat.zero_le 1⟩
        · cases computed
          exact ⟨domain _ rfl, Nat.zero_le 1⟩
      · simp only [exceptBind_ok] at computed
        obtain ⟨⟨avd₁, xp₁⟩, decided, computed⟩ := computed
        have shape := contextStructComputeAvDepth_shape decided
        cases computed
        constructor
        · intro flagged
          apply domain _ rfl
          rw [mapDecision_flags] at flagged
          rw [shape.1] at flagged
          exact flagged
        · cases xp₁ with
          | none => exact Nat.zero_le 1
          | some x => exact shape.2 x rfl

/-- Where a policy decides on access, it decides on extended permissions as well. -/
theorem securityComputeXpermsDecision_total (driver : U8)
    (computed : securityComputeAv (some policy) ssid tsid tclass = .ok (avd, xp)) :
    ∃ xpermd, securityComputeXpermsDecision (some policy) ssid tsid tclass driver = .ok xpermd := by
  unfold securityComputeAv at computed
  simp only [exceptBind_ok] at computed
  obtain ⟨scontext, source, computed⟩ := computed
  unfold securityComputeXpermsDecision
  simp only [source, bind, Except.bind]
  cases scontext with
  | none => exact ⟨_, rfl⟩
  | some scontext =>
    simp only [exceptBind_ok] at computed
    obtain ⟨tcontext, target, computed⟩ := computed
    simp only [target]
    cases tcontext with
    | none => exact ⟨_, rfl⟩
    | some tcontext =>
      simp only at computed ⊢
      split
      · split
        · exact ⟨_, rfl⟩
        · exact ⟨_, rfl⟩
      · rename_i mapped
        rw [if_neg mapped] at computed
        simp only [exceptBind_ok] at computed
        obtain ⟨answer, decided, -⟩ := computed
        split
        · exact ⟨_, rfl⟩
        · rename_i known
          obtain ⟨sattr, tattr, sources, targets⟩ := attributes_of_computed known decided
          simp only [sources, targets]
          exact ⟨_, rfl⟩

/-- A decision on extended permissions carries the driver it was asked for. -/
theorem securityComputeXpermsDecision_driver {driver : U8} {xpermd : ExtendedPermsDecision}
    (computed : securityComputeXpermsDecision (some policy) ssid tsid tclass driver = .ok xpermd) :
    xpermd.driver = driver := by
  unfold securityComputeXpermsDecision at computed
  simp only [exceptBind_ok] at computed
  obtain ⟨scontext, -, computed⟩ := computed
  cases scontext with
  | none => cases computed; rfl
  | some scontext =>
    simp only [exceptBind_ok] at computed
    obtain ⟨tcontext, -, computed⟩ := computed
    cases tcontext with
    | none => cases computed; rfl
    | some tcontext =>
      simp only at computed
      split at computed
      · split at computed <;> cases computed <;> rfl
      · split at computed
        · cases computed; rfl
        · simp only [exceptBind_ok] at computed
          obtain ⟨sattr, -, tattr, -, computed⟩ := computed
          cases computed
          apply foldl_driver _ _ rfl
          intro xpermd i same
          exact foldl_driver (fun xpermd j same => computeXpermsPair_driver same) _ same

theorem loadedServer_ok (policy : SelinuxPolicy) : ServerOk (loadedServer policy) := by
  constructor
  · intro ssid tsid tclass
    simp only [loadedServer]
    split
    · rename_i answer computed
      exact (securityComputeAv_shape computed).2
    · exact Nat.zero_le 1
  · intro ssid tsid tclass driver
    simp only [loadedServer]
    split
    · rename_i xpermd computed
      exact securityComputeXpermsDecision_driver computed
    · rfl

/-- A key of a domain that is not permissive is not a permissive key. -/
theorem permissiveKey_domain (permissive : PermissiveKey (loadedServer policy) ssid tsid tclass) :
    PermissiveDomain policy ssid := by
  unfold PermissiveKey loadedServer at permissive
  simp only at permissive
  split at permissive
  · rename_i answer computed
    exact (securityComputeAv_shape computed).1 permissive
  · exact absurd (avdInit_flags _) permissive

end Server

section Decisions

variable {policy : SelinuxPolicy} {c : AvcCache} {ssid tsid : U32} {tclass : U16}
  {requested : U32} {avd : AvDecision} {xp : ExtendedPerms}

/-- In enforcing mode both checks decide as `security_compute_av` and
`security_compute_xperms_decision` do, from every cache a run of calls, failed
allocations and reclaims leads to. -/
theorem avc_transparent
    (reached : (avcCallMachine (loadedServer policy)).Reachable Machine.free c)
    (asked : requested ≠ 0) (strict : ¬ PermissiveDomain policy ssid)
    (computed : securityComputeAv (some policy) ssid tsid tclass = .ok (avd, xp)) :
    (∀ flags t, (avcHasPermNoaudit (loadedServer policy) true c ssid tsid tclass requested flags
        t).1 = .ok () ↔ requested &&& ~~~avd.allowed = 0) ∧
    ∀ driver, ∃ xpermd,
      securityComputeXpermsDecision (some policy) ssid tsid tclass driver = .ok xpermd ∧
      ∀ xperm stack t, (avcHasExtendedPerms (loadedServer policy) true c ssid tsid tclass requested
          driver xperm stack (.ok ()) t).1 = .ok () ↔
        requested &&& ~~~avd.allowed = 0 ∧ (xp.len ≠ 0 →
          securityXpermTest xp.drivers driver = true ∧
            avcXpermsHasPerm xpermd xperm xpermsAllowed = true) := by
  have serverOk := loadedServer_ok policy
  have ok := reachable_ok serverOk reached
  have notPermissive : ¬ PermissiveKey (loadedServer policy) ssid tsid tclass :=
    fun permissive => strict (permissiveKey_domain permissive)
  have answer : (loadedServer policy).securityComputeAv ssid tsid tclass = (avd, xp) := by
    simp only [loadedServer, computed]
  constructor
  · intro flags t
    obtain ⟨rc, out, c', t', done⟩ : ∃ rc out c' t', avcHasPermNoaudit (loadedServer policy) true c
        ssid tsid tclass requested flags t = (rc, out, c', t') := ⟨_, _, _, _, rfl⟩
    have spec := (avcHasPermNoaudit_spec ok asked done).2 notPermissive
    rw [permAllowed, answer] at spec
    rw [done]
    exact spec
  · intro driver
    obtain ⟨xpermd, decided⟩ := securityComputeXpermsDecision_total driver computed
    refine ⟨xpermd, decided, fun xperm stack t => ?_⟩
    have decision :
        (loadedServer policy).securityComputeXpermsDecision ssid tsid tclass driver = xpermd := by
      simp only [loadedServer, decided]
    obtain ⟨rc, c', t', done⟩ : ∃ rc c' t', avcHasExtendedPerms (loadedServer policy) true c ssid
        tsid tclass requested driver xperm stack (.ok ()) t = (rc, c', t') := ⟨_, _, _, rfl⟩
    have spec := (avcHasExtendedPerms_spec serverOk ok asked done).2 notPermissive
    rw [extendedAllowed, permAllowed, answer, decision] at spec
    rw [done]
    exact spec

/-- The policy of one class and one type that allows permission 1 and, of driver 7, the
ioctl 3. -/
def ioctlPolicy : SelinuxPolicy :=
  let cladatum : ClassDatum :=
    { value := 1, comkey := none, comdatum := none, permissions := symtabZero, constraints := []
      validatetrans := [], defaultUser := 0, defaultRole := 0, defaultType := 0, defaultRange := 0 }
  let typdatum : TypeDatum := { value := 1, bounds := 0, primary := 1, isAttribute := 0 }
  let rule (addr : Nat) (specified : U16) (datum : AvtabDatum) : AvtabNode :=
    { addr, key := { sourceType := 1, targetType := 1, targetClass := 1, specified }, datum }
  let ioctl : AvtabExtendedPerms :=
    { specified := avtabXpermsIoctlfunction, driver := 7, perms := securityXpermSet .zero 3 }
  let isid : SidtabIsidEntry :=
    { set := true
      entry := { sid := 1, hash := 0, context := { contextInit with user := 1, role := 1, type := 1 } } }
  { sidtab := { sidtabInit with isids := fun sid =>
      if sid = 1 then isid else { set := false, entry := zeroEntry } }
    policydb := { policydbInit with
      pClasses := { symtabZero with nprim := 1 }
      classValToStruct := [some cladatum]
      typeValToStruct := [some typdatum]
      typeAttrMapArray := [ebitmapSetBit ebitmapInit 0 true]
      teAvtab := { htable := [[rule 0 avtabAllowed (.data 1),
        rule 1 avtabXpermsAllowed (.xperms ioctl)]], nel := 2 } }
    map := { mapping := [] }
    latestGranting := 1 }

/-- The cache after a first call for ioctl 3 of the driver. -/
def ioctlCache : AvcCache :=
  AvcCall.cache (loadedServer ioctlPolicy) selinuxAvcInit
    (.hasExtendedPerms 1 1 1 1 7 3 .zero { allocs := [], trylocks := [] })

theorem ioctlCache_reachable :
    (avcCallMachine (loadedServer ioctlPolicy)).Reachable Machine.free ioctlCache :=
  ⟨selinuxAvcInit, rfl, Relation.ReflTransGen.single ⟨_, trivial, rfl⟩⟩

/-- The type of the one context is not in the empty permissive map. -/
theorem ioctlPolicy_strict : ¬ PermissiveDomain ioctlPolicy 1 := by
  rintro ⟨scontext, -, bit⟩
  simp [ioctlPolicy, policydbInit, ebitmapInit, ebitmapGetBit, ebitmapGetBitNodes] at bit

/-- The two decisions of the policy: the permission, and ioctl 3 of the driver only. -/
theorem ioctlPolicy_decisions :
    (∃ avd xp, securityComputeAv (some ioctlPolicy) 1 1 1 = .ok (avd, xp) ∧ avd.allowed = 1 ∧
      xp.len = 1) ∧
    ∃ xpermd, securityComputeXpermsDecision (some ioctlPolicy) 1 1 1 7 = .ok xpermd ∧
      avcXpermsHasPerm xpermd 4 xpermsAllowed = false := by
  constructor
  · refine ⟨_, _, rfl, ?_, ?_⟩
    · decide
    · decide
  · refine ⟨_, rfl, ?_⟩
    decide +kernel

/-- After the first call the permission is granted and ioctl 4 of the driver denied,
whatever is allocated. -/
theorem avc_transparent_ioctl :
    (∀ flags t, (avcHasPermNoaudit (loadedServer ioctlPolicy) true ioctlCache 1 1 1 1 flags t).1 =
      .ok ()) ∧
    ∀ t, (avcHasExtendedPerms (loadedServer ioctlPolicy) true ioctlCache 1 1 1 1 7 4 .zero
      (.ok ()) t).1 ≠ .ok () := by
  obtain ⟨⟨avd, xp, computed, allowed, len⟩, xpermd, decided, lacks⟩ := ioctlPolicy_decisions
  obtain ⟨plain, extended⟩ := avc_transparent ioctlCache_reachable (by decide : (1 : U32) ≠ 0)
    ioctlPolicy_strict computed
  obtain ⟨xpermd', decided', answers⟩ := extended 7
  rw [decided] at decided'
  cases decided'
  constructor
  · intro flags t
    rw [plain, allowed]
    decide
  · intro t granted
    rw [answers, len, lacks] at granted
    exact absurd (granted.2 (by decide)).2 Bool.false_ne_true

end Decisions

end Ksrc.Guarantees.AvcPolicyDecisions

import Mathlib.Data.List.Nodup
import Mathlib.Data.List.Perm.Subperm
import Ksrc.Guarantees.AvcCacheEffects

/-!
# What a cached node says

Source: `security/selinux/avc.c` (`avc_insert`, `avc_xperms_populate`,
`avc_add_xperms_decision`, `avc_quick_copy_xperms_decision`).

A node of a domain that is not permissive holds the decision of the security server,
and each extended decision on its list answers as the server's decision of the driver
does, through every copy.
-/
namespace Ksrc.Guarantees.AvcNodeContent

open Source AvcCacheEffects

/-- The two decisions give the same answer for every permission. -/
def SameAnswer (xpd d : ExtendedPermsDecision) : Prop :=
  ∀ perm, avcXpermsHasPerm xpd perm xpermsAllowed = avcXpermsHasPerm d perm xpermsAllowed

/-- A cached decision has the map its `used` bit promises. -/
def MapPresent (xpd : ExtendedPermsDecision) : Prop :=
  xpd.used &&& xpermsAllowed ≠ 0 → xpd.allowed ≠ none

theorem hasPerm_allowed (xpd : ExtendedPermsDecision) (perm : U8) :
    avcXpermsHasPerm xpd perm xpermsAllowed =
      if xpd.used &&& xpermsAllowed ≠ 0 then dataTest xpd.allowed perm else false := by
  have apart : xpermsAllowed ≠ xpermsAuditallow ∧ xpermsAllowed ≠ xpermsDontaudit := by decide
  simp only [avcXpermsHasPerm, true_and, apart.1, apart.2, false_and, if_false]

theorem test_zero (perm : U8) : securityXpermTest .zero perm = false := by
  rw [securityXpermTest_eq]
  simp [ExtendedPermsData.zero, Vector.get]

section Copies

variable {src dest xpd : ExtendedPermsDecision} {t t' : Tape}

theorem allocXpermsData_some {wanted : Bool} {map : Option ExtendedPermsData}
    (allocated : allocXpermsData wanted t = (some map, t')) :
    map = if wanted then some .zero else none := by
  unfold allocXpermsData at allocated
  split at allocated
  · rename_i asked
    split at allocated
    · cases allocated
      rw [if_pos asked]
    · cases allocated
  · rename_i notAsked
    cases allocated
    rw [if_neg notAsked]

/-- A fresh decision has a zeroed map where `which` asks for one. -/
theorem decisionAlloc_allowed {which : U8}
    (allocated : avcXpermsDecisionAlloc which t = (some dest, t')) :
    which &&& xpermsAllowed ≠ 0 → dest.allowed = some .zero := by
  intro wanted
  unfold avcXpermsDecisionAlloc at allocated
  split at allocated
  · cases allocated
  · split at allocated
    · cases allocated
    · rename_i first
      have zeroed := allocXpermsData_some first
      split at allocated
      · cases allocated
      · split at allocated
        · cases allocated
        · simp only [Prod.mk.injEq, Option.some.injEq] at allocated
          obtain ⟨rfl, -⟩ := allocated
          rw [zeroed, if_pos (decide_eq_true wanted)]

/-- The copy of a decision into a fresh one answers as the original. -/
theorem copy_sameAnswer (allocated : avcXpermsDecisionAlloc src.used t = (some dest, t')) :
    SameAnswer (avcCopyXpermsDecision dest src) src ∧
      MapPresent (avcCopyXpermsDecision dest src) := by
  have fresh := decisionAlloc_allowed allocated
  constructor
  · intro perm
    rw [hasPerm_allowed, hasPerm_allowed]
    by_cases used : src.used &&& xpermsAllowed ≠ 0
    · simp only [avcCopyXpermsDecision, used, not_false_eq_true, if_true, fresh used, ne_eq]
      cases src.allowed with
      | none => simp only [copyData, dataTest, test_zero]
      | some map => rfl
    · simp only [avcCopyXpermsDecision, used, if_false]
  · intro used
    have sameUsed : (avcCopyXpermsDecision dest src).used = src.used := rfl
    rw [sameUsed] at used
    simp only [avcCopyXpermsDecision, used, not_false_eq_true, if_true, fresh used, ne_eq]
    cases src.allowed <;> simp [copyData]

/-- The quick copy answers as the original for the permission it was made for. -/
theorem quickCopy_answer (perm : U8) {stack : ExtendedPermsData}
    (held : dest.allowed = some stack) (present : MapPresent src) :
    avcXpermsHasPerm (avcQuickCopyXpermsDecision perm dest src) perm xpermsAllowed =
      avcXpermsHasPerm src perm xpermsAllowed := by
  rw [hasPerm_allowed, hasPerm_allowed]
  by_cases used : src.used &&& xpermsAllowed ≠ 0
  · obtain ⟨map, here⟩ := Option.ne_none_iff_exists'.mp (present used)
    simp only [avcQuickCopyXpermsDecision, used, not_false_eq_true, if_true, held, here, copyWord,
      dataTest, ne_eq, securityXpermTest, Vector.getElem_set_self]
  · simp only [avcQuickCopyXpermsDecision, used, if_false]

end Copies

/-- A list of cached decisions answers as the server's decisions of their drivers, one
for each driver of the map at most. -/
structure DecisionsOk (decide : U8 → ExtendedPermsDecision) (drivers : ExtendedPermsData)
    (xpds : List ExtendedPermsDecision) : Prop where
  answer : ∀ xpd ∈ xpds, SameAnswer xpd (decide xpd.driver)
  present : ∀ xpd ∈ xpds, MapPresent xpd
  driven : ∀ xpd ∈ xpds, securityXpermTest drivers xpd.driver = true
  once : (xpds.map ExtendedPermsDecision.driver).Nodup

/-- The extended part of a node is absent when the server reports no extended rules, and
otherwise has the server's driver map and decisions of it. -/
def ExtendedOk (decide : U8 → ExtendedPermsDecision) (xp : ExtendedPerms) :
    Option AvcXpermsNode → Prop
  | none => xp.len = 0
  | some x => xp.len ≠ 0 ∧ x.xp.drivers = xp.drivers ∧
      x.xp.len.toNat = xp.len.toNat + x.xpdHead.length ∧ DecisionsOk decide xp.drivers x.xpdHead

/-- What the server says of a key is permissive. -/
def PermissiveKey (server : SecurityServer) (ssid tsid : U32) (tclass : U16) : Prop :=
  (server.securityComputeAv ssid tsid tclass).1.flags &&& avdFlagsPermissive ≠ 0

/-- The content of a node whose source domain is not permissive. -/
def NodeOk (server : SecurityServer) (n : AvcNode) : Prop :=
  ¬ PermissiveKey server n.ssid n.tsid n.tclass →
    n.avd = (server.securityComputeAv n.ssid n.tsid n.tclass).1 ∧
      ExtendedOk (server.securityComputeXpermsDecision n.ssid n.tsid n.tclass)
        (server.securityComputeAv n.ssid n.tsid n.tclass).2 n.xpNode

/-- The key of a node. -/
def nodeKey (n : AvcNode) : U32 × U32 × U16 := (n.ssid, n.tsid, n.tclass)

/-- Every node has its content, and no slot has two nodes of one key. -/
structure CacheOk (server : SecurityServer) (c : AvcCache) : Prop where
  content : ∀ h, ∀ n ∈ c.slots h, NodeOk server n
  once : ∀ h, ((c.slots h).map nodeKey).Nodup

/-- What the security server promises: the count it reports is 0 or 1, and a decision
carries the driver it was asked for. -/
structure ServerOk (server : SecurityServer) : Prop where
  len : ∀ ssid tsid tclass, (server.securityComputeAv ssid tsid tclass).2.len.toNat ≤ 1
  driver : ∀ ssid tsid tclass driver,
    (server.securityComputeXpermsDecision ssid tsid tclass driver).driver = driver

section Decisions

variable {decide : U8 → ExtendedPermsDecision} {drivers : ExtendedPermsData}
  {xpds dest copies : List ExtendedPermsDecision} {t t' : Tape}

/-- There are at most 256 decisions on a list. -/
theorem DecisionsOk.length_le (ok : DecisionsOk decide drivers xpds) : xpds.length ≤ 256 := by
  have numbers : ((xpds.map ExtendedPermsDecision.driver).map BitVec.toNat).Nodup :=
    ok.once.map fun _ _ equal => BitVec.eq_of_toNat_eq equal
  have inside : ((xpds.map ExtendedPermsDecision.driver).map BitVec.toNat) ⊆ List.range 256 := by
    intro n member
    obtain ⟨driver, -, rfl⟩ := List.mem_map.mp member
    exact List.mem_range.mpr driver.isLt
  have bound := (numbers.subperm inside).length_le
  simpa using bound

theorem DecisionsOk.nil : DecisionsOk decide drivers [] := by
  constructor <;> simp

/-- The copy loop turns the list around and keeps its answers. -/
theorem populateLoop_ok (done : avcXpermsPopulateLoop xpds dest t = (some copies, t'))
    (ok : DecisionsOk decide drivers xpds) (old : DecisionsOk decide drivers dest)
    (apart : ∀ xpd ∈ xpds, ∀ d ∈ dest, xpd.driver ≠ d.driver) :
    DecisionsOk decide drivers copies ∧ copies.length = xpds.length + dest.length := by
  induction xpds generalizing dest t with
  | nil =>
    simp only [avcXpermsPopulateLoop, Prod.mk.injEq, Option.some.injEq] at done
    obtain ⟨rfl, -⟩ := done
    exact ⟨old, by simp⟩
  | cons src rest ih =>
    unfold avcXpermsPopulateLoop at done
    split at done
    · cases done
    · rename_i fresh t₁ allocated
      obtain ⟨same, present⟩ := copy_sameAnswer allocated
      have srcOk := ok.answer src List.mem_cons_self
      have onceParts := ok.once
      rw [List.map_cons, List.nodup_cons] at onceParts
      have restOk : DecisionsOk decide drivers rest :=
        ⟨fun xpd member => ok.answer xpd (List.mem_cons_of_mem _ member),
          fun xpd member => ok.present xpd (List.mem_cons_of_mem _ member),
          fun xpd member => ok.driven xpd (List.mem_cons_of_mem _ member), onceParts.2⟩
      have newOk : DecisionsOk decide drivers (avcCopyXpermsDecision fresh src :: dest) := by
        constructor
        · intro xpd member
          rcases List.mem_cons.mp member with rfl | member
          · intro perm
            exact (same perm).trans (srcOk perm)
          · exact old.answer xpd member
        · intro xpd member
          rcases List.mem_cons.mp member with rfl | member
          · exact present
          · exact old.present xpd member
        · intro xpd member
          rcases List.mem_cons.mp member with rfl | member
          · exact ok.driven src List.mem_cons_self
          · exact old.driven xpd member
        · rw [List.map_cons, List.nodup_cons]
          refine ⟨fun member => ?_, old.once⟩
          obtain ⟨d, inside, equal⟩ := List.mem_map.mp member
          exact apart src List.mem_cons_self d inside equal.symm
      obtain ⟨copiesOk, count⟩ := ih done restOk newOk (by
        intro xpd member d inside
        rcases List.mem_cons.mp inside with rfl | inside
        · intro equal
          exact onceParts.1 (List.mem_map.mpr ⟨xpd, member, equal⟩)
        · exact apart xpd (List.mem_cons_of_mem _ member) d inside)
      refine ⟨copiesOk, ?_⟩
      rw [count, List.length_cons, List.length_cons]
      omega

/-- A populated node has the extended part it was populated from. -/
theorem populate_ok {node out : AvcNode} {src : AvcXpermsNode} {xp : ExtendedPerms}
    (done : avcXpermsPopulate node src t = (.ok out, t')) (blank : node.xpNode = none)
    (driverMap : src.xp.drivers = xp.drivers)
    (count : src.xp.len.toNat = xp.len.toNat + src.xpdHead.length) (zero : src.xp.len = 0 ↔ xp.len = 0)
    (ok : DecisionsOk decide xp.drivers src.xpdHead) : ExtendedOk decide xp out.xpNode := by
  unfold avcXpermsPopulate at done
  split at done
  · rename_i empty
    simp only [Prod.mk.injEq, Except.ok.injEq] at done
    obtain ⟨rfl, -⟩ := done
    rw [blank]
    exact zero.mp empty
  · rename_i some
    split at done
    · cases done
    · split at done
      · cases done
      · rename_i copies t₁ copied
        simp only [Prod.mk.injEq, Except.ok.injEq] at done
        obtain ⟨rfl, -⟩ := done
        obtain ⟨copiesOk, sameCount⟩ := populateLoop_ok copied ok .nil (by simp)
        refine ⟨fun none => some (zero.mpr none), driverMap, ?_, copiesOk⟩
        simp only [count, sameCount, List.length_nil, Nat.add_zero]

/-- The copy loop keeps the drivers. -/
theorem populateLoop_drivers (done : avcXpermsPopulateLoop xpds dest t = (some copies, t')) :
    copies.map ExtendedPermsDecision.driver =
      (xpds.map ExtendedPermsDecision.driver).reverse ++ dest.map ExtendedPermsDecision.driver := by
  induction xpds generalizing dest t with
  | nil =>
    simp only [avcXpermsPopulateLoop, Prod.mk.injEq, Option.some.injEq] at done
    obtain ⟨rfl, -⟩ := done
    rfl
  | cons src rest ih =>
    unfold avcXpermsPopulateLoop at done
    split at done
    · cases done
    · rw [ih done]
      simp [avcCopyXpermsDecision]

/-- So does populating a node. -/
theorem populate_drivers {node out : AvcNode} {src x : AvcXpermsNode}
    (done : avcXpermsPopulate node src t = (.ok out, t')) (blank : node.xpNode = none)
    (here : out.xpNode = some x) {xpd : ExtendedPermsDecision} (member : xpd ∈ x.xpdHead) :
    ∃ old ∈ src.xpdHead, old.driver = xpd.driver := by
  unfold avcXpermsPopulate at done
  split at done
  · cases done
    rw [blank] at here
    cases here
  · split at done
    · cases done
    · split at done
      · cases done
      · rename_i copied
        cases done
        cases here
        have drivers := populateLoop_drivers copied
        have inside : xpd.driver ∈ List.map ExtendedPermsDecision.driver _ :=
          List.mem_map.mpr ⟨xpd, member, rfl⟩
        rw [drivers, List.map_nil, List.append_nil, List.mem_reverse] at inside
        exact List.mem_map.mp inside

end Decisions

end Ksrc.Guarantees.AvcNodeContent

import Ksrc.Guarantees.AvcTransparency

/-!
# What the extended check returns

Source: `security/selinux/avc.c` (`avc_has_extended_perms`, `avc_denied`).

A node keeps the flags the security server gave with its decision, whatever happens to the node, so
the check of a permissive domain never denies, and no check fails with another error than `-EACCES`.
-/
namespace Ksrc.Guarantees.AvcResults

open Library Source AvcCacheEffects AvcNodeContent
  AvcTransparency

variable {server : SecurityServer} {c c' : AvcCache} {t t' : Tape} {ssid tsid : U32} {tclass : U16}
  {requested : U32} {driver xperm : U8} {stack : ExtendedPermsData}

/-- The flags the server gives for a key. -/
def serverFlags (server : SecurityServer) (ssid tsid : U32) (tclass : U16) : U32 :=
  (server.securityComputeAv ssid tsid tclass).1.flags

/-- Every node has the flags of its key. -/
def FlagsKept (server : SecurityServer) (c : AvcCache) : Prop :=
  ∀ h, ∀ n ∈ c.slots h, n.avd.flags = serverFlags server n.ssid n.tsid n.tclass

section Kept

theorem kept_shrunk (kept : FlagsKept server c) (shrunk : Shrunk c c') : FlagsKept server c' :=
  fun h n linked => kept h n (shrunk.mem linked)

theorem kept_insert {xpNode : AvcXpermsNode} (kept : FlagsKept server c) :
    FlagsKept server (avcInsert c ssid tsid tclass (server.securityComputeAv ssid tsid tclass).1
      xpNode t).1 := by
  have shrunk := avcAllocNode_shrunk c t
  unfold avcInsert
  split
  · exact kept
  · split
    · rename_i allocated
      rw [allocated] at shrunk
      exact kept_shrunk kept shrunk
    · rename_i allocated
      rw [allocated] at shrunk
      have fewer := kept_shrunk kept shrunk
      split
      · exact kept_shrunk fewer (avcNodeKill_shrunk _)
      · rename_i node t₂ populated
        obtain ⟨ssidEq, tsidEq, tclassEq, avdEq⟩ := avcXpermsPopulate_frame populated
        intro h n linked
        rcases mem_avcInsertLink linked with old | ⟨rfl, -⟩
        · exact fewer h n old
        · rw [ssidEq, tsidEq, tclassEq, avdEq]
          rfl

theorem kept_update {event : AvcEvent} {perms flags seqno : U32} {xpd : Option ExtendedPermsDecision}
    (kept : FlagsKept server c) :
    FlagsKept server (avcUpdateNode c event perms driver xperm ssid tsid tclass seqno xpd flags
      t).2.1 := by
  have shrunk := avcAllocNode_shrunk c t
  unfold avcUpdateNode
  split
  · rename_i allocated
    rw [allocated] at shrunk
    exact kept_shrunk kept shrunk
  · rename_i allocated
    rw [allocated] at shrunk
    have fewer := kept_shrunk kept shrunk
    intro h n linked
    rcases mem_avcUpdateLocked linked with
      old | ⟨-, orig, member, ssidEq, tsidEq, tclassEq, origSsid, origTsid, origTclass, -, -, flags, -⟩
    · exact fewer h n old
    · rw [flags, fewer h orig member, ssidEq, tsidEq, tclassEq, origSsid, origTsid, origTclass]

theorem kept_denied {enforcing : Bool} {flags : U32} {avd : AvDecision} (kept : FlagsKept server c) :
    FlagsKept server (avcDenied enforcing c ssid tsid tclass requested driver xperm flags avd
      t).2.1 := by
  unfold avcDenied
  split
  · exact kept
  · split
    · exact kept
    · exact kept_update kept

theorem kept_computeAv (kept : FlagsKept server c) :
    FlagsKept server (avcComputeAv server c ssid tsid tclass t).2.2.1 :=
  kept_insert kept

theorem kept_permNonode {enforcing : Bool} {flags : U32} (kept : FlagsKept server c) :
    FlagsKept server (avcPermNonode server enforcing c ssid tsid tclass requested flags t).2.2.1 := by
  have computed : FlagsKept server (avcComputeAv server c ssid tsid tclass t).2.2.1 :=
    kept_computeAv kept
  unfold avcPermNonode
  generalize avcComputeAv server c ssid tsid tclass t = answer at computed
  obtain ⟨avd, xpNode, c₁, t₁⟩ := answer
  dsimp only at computed ⊢
  split
  · exact kept_denied computed
  · exact computed

theorem kept_hasPermNoaudit {enforcing : Bool} {flags : U32} (kept : FlagsKept server c) :
    FlagsKept server
      (avcHasPermNoaudit server enforcing c ssid tsid tclass requested flags t).2.2.1 := by
  unfold avcHasPermNoaudit
  split
  · exact kept
  · split
    · exact kept_permNonode kept
    · split
      · exact kept_denied kept
      · exact kept

/-- The node at hand has the flags of the key. -/
theorem extendedNode_kept (kept : FlagsKept server c) {avd : AvDecision}
    {xpNode : Option AvcXpermsNode}
    (atHand : avcExtendedNode server c ssid tsid tclass t = (avd, xpNode, c', t')) :
    FlagsKept server c' ∧ avd.flags = serverFlags server ssid tsid tclass := by
  unfold avcExtendedNode at atHand
  split at atHand
  · have computed : FlagsKept server (avcComputeAv server c ssid tsid tclass t).2.2.1 :=
      kept_computeAv kept
    have answer : (avcComputeAv server c ssid tsid tclass t).1.flags =
      serverFlags server ssid tsid tclass := rfl
    generalize avcComputeAv server c ssid tsid tclass t = whole at computed answer atHand
    cases atHand
    exact ⟨computed, answer⟩
  · rename_i node found
    cases atHand
    refine ⟨kept, ?_⟩
    unfold avcLookup avcSearchNode at found
    have key := List.find?_some found
    rw [AvcNode.keyEq_iff] at key
    rw [kept _ node (List.mem_of_find?_eq_some found), key.1, key.2.1, key.2.2]

/-- No decision on extended permissions changes the flags. -/
theorem extendedDecision_kept (kept : FlagsKept server c) {avd avd' : AvDecision}
    {xpNode : Option AvcXpermsNode} {xpd : Option ExtendedPermsDecision}
    (decided : avcExtendedDecision server c ssid tsid tclass requested driver xperm stack avd xpNode
      t = (avd', xpd, c', t')) : FlagsKept server c' ∧ avd'.flags = avd.flags := by
  have masked : ∀ d, (avcXpermsMask requested xperm avd d).flags = avd.flags := by
    intro d
    unfold avcXpermsMask
    split <;> rfl
  unfold avcExtendedDecision at decided
  split at decided
  · rename_i answer
    cases decided
    refine ⟨kept, ?_⟩
    unfold avcExtendedAnswer at answer
    split at answer
    · cases answer
      rfl
    · split at answer
      · cases answer
        rfl
      · split at answer
        · split at answer
          · cases answer
            rfl
          · cases answer
        · cases answer
          exact masked _
  · cases decided
    exact ⟨kept_update kept, masked _⟩

end Kept

section Results

variable {enforcing : Bool}

/-- What a denial ends in. -/
theorem avcDenied_cases (enforcing : Bool) (c : AvcCache) (avd : AvDecision) (t : Tape) :
    ((avcDenied enforcing c ssid tsid tclass requested driver xperm avcExtendedPerms avd t).1 = .ok () ∧
        ¬ (enforcing = true ∧ avd.flags &&& avdFlagsPermissive = 0)) ∨
      ((avcDenied enforcing c ssid tsid tclass requested driver xperm avcExtendedPerms avd t).1 =
        .error .EACCES ∧ enforcing = true ∧ avd.flags &&& avdFlagsPermissive = 0) := by
  have notStrict : ¬ avcExtendedPerms &&& avcStrict ≠ 0 := by decide
  unfold avcDenied
  rw [if_neg notStrict]
  split
  · rename_i strict
    exact .inr ⟨rfl, strict⟩
  · rename_i lax
    exact .inl ⟨rfl, lax⟩

/-- The check returns 0 or `-EACCES`, and 0 in permissive mode and for permissive domains; and it
keeps the flags. -/
theorem hasExtendedPerms_results (kept : FlagsKept server c) (asked : requested ≠ 0)
    {rc : Except Errno Unit}
    (done : avcHasExtendedPerms server enforcing c ssid tsid tclass requested driver xperm stack
      (.ok ()) t = (rc, c', t')) :
    FlagsKept server c' ∧ (rc = .ok () ∨ rc = .error .EACCES) ∧
      (enforcing = false ∨ PermissiveKey server ssid tsid tclass → rc = .ok ()) := by
  unfold avcHasExtendedPerms at done
  rw [if_neg asked] at done
  obtain ⟨avd, xpNode, c₁, t₁, atHand⟩ : ∃ avd xpNode c₁ t₁,
      avcExtendedNode server c ssid tsid tclass t = (avd, xpNode, c₁, t₁) := ⟨_, _, _, _, rfl⟩
  obtain ⟨kept₁, flags⟩ := extendedNode_kept kept atHand
  simp only [atHand] at done
  obtain ⟨avd', xpd, c₂, t₂, decided⟩ : ∃ avd' xpd c₂ t₂, avcExtendedDecision server c₁ ssid tsid
      tclass requested driver xperm stack avd xpNode t₁ = (avd', xpd, c₂, t₂) :=
    ⟨_, _, _, _, rfl⟩
  obtain ⟨kept₂, sameFlags⟩ := extendedDecision_kept kept₁ decided
  simp only [decided, avcXpermsAudit_ok] at done
  split at done
  · have kept₃ : FlagsKept server (avcDenied enforcing c₂ ssid tsid tclass requested driver xperm
        avcExtendedPerms avd' t₂).2.1 := kept_denied kept₂
    have cases := @avcDenied_cases ssid tsid tclass requested driver xperm enforcing c₂ avd' t₂
    generalize avcDenied enforcing c₂ ssid tsid tclass requested driver xperm avcExtendedPerms avd'
      t₂ = outcome at kept₃ cases done
    obtain ⟨rc₁, c₃, t₃⟩ := outcome
    cases done
    refine ⟨kept₃, ?_⟩
    rcases cases with ⟨granted, -⟩ | ⟨denied, on, strict⟩
    · exact ⟨.inl granted, fun _ => granted⟩
    · refine ⟨.inr denied, ?_⟩
      rintro (off | permissive)
      · rw [on] at off
        cases off
      · rw [sameFlags, flags] at strict
        exact absurd strict permissive
  · cases done
    exact ⟨kept₂, .inl rfl, fun _ => rfl⟩

theorem call_kept (kept : FlagsKept server c) (call : AvcCall) :
    FlagsKept server (call.cache server c) := by
  cases call with
  | hasPermNoaudit ssid tsid tclass requested flags t => exact kept_hasPermNoaudit kept
  | hasExtendedPerms ssid tsid tclass requested driver xperm stack t =>
    by_cases asked : requested = 0
    · simp only [AvcCall.cache, avcHasExtendedPerms, if_pos asked]
      exact kept
    · exact (hasExtendedPerms_results kept asked rfl).1
  | reclaim t => exact kept_shrunk kept (avcReclaimScan_shrunk _ _ c t)
  | setCacheThreshold threshold => exact kept

/-- Every cache a run of calls leads to has the flags of its keys. -/
theorem reachable_kept (reached : (avcCallMachine server).Reachable Machine.free c) :
    FlagsKept server c := by
  apply reached.invariant
  · rintro c rfl h n linked
    cases linked
  · intro c call c' kept _ stepped
    cases stepped
    exact call_kept kept call

/-- In permissive mode the check returns 0 from any cache. -/
theorem permissive_mode (asked : requested ≠ 0) :
    (avcHasExtendedPerms server false c ssid tsid tclass requested driver xperm stack (.ok ()) t).1 =
      .ok () := by
  unfold avcHasExtendedPerms
  rw [if_neg asked]
  simp only [avcXpermsAudit_ok]
  split
  · rcases @avcDenied_cases ssid tsid tclass requested driver xperm false _ _ _ with
      ⟨granted, -⟩ | ⟨-, on, -⟩
    · exact granted
    · cases on
  · rfl

end Results

end Ksrc.Guarantees.AvcResults

import Ksrc.Library.Transition
import Ksrc.Guarantees.AvcNodeContent

/-!
# The cache answers as the security server does

Source: `security/selinux/avc.c` (`avc_has_perm_noaudit`, `avc_has_extended_perms`).

Every operation keeps the content of the nodes of domains that are not permissive, so
each call in enforcing mode decides as an evaluation without the cache would.
-/
namespace Ksrc.Guarantees.AvcTransparency

open Library Source AvcCacheEffects AvcNodeContent

variable {server : SecurityServer} {c c' : AvcCache} {t t' : Tape} {ssid tsid : U32} {tclass : U16}

theorem cache_shrunk (ok : CacheOk server c) (shrunk : Shrunk c c') : CacheOk server c' := by
  constructor
  · intro h n linked
    exact ok.content h n (shrunk.mem linked)
  · intro h
    exact (ok.once h).sublist ((shrunk.suffix h).sublist.map nodeKey)

theorem lookup_ok {n : AvcNode} (ok : CacheOk server c)
    (found : avcLookup c ssid tsid tclass = some n) :
    NodeOk server n ∧ n ∈ c.slots (avcHash ssid tsid tclass) ∧ nodeKey n = (ssid, tsid, tclass) := by
  unfold avcLookup avcSearchNode at found
  have key := List.find?_some found
  rw [AvcNode.keyEq_iff] at key
  have member := List.mem_of_find?_eq_some found
  refine ⟨ok.content _ n member, member, ?_⟩
  rw [nodeKey, key.1, key.2.1, key.2.2]

theorem lookup_none (absent : avcLookup c ssid tsid tclass = none) :
    ∀ n ∈ c.slots (avcHash ssid tsid tclass), nodeKey n ≠ (ssid, tsid, tclass) := by
  intro n member same
  have differs := List.find?_eq_none.mp absent n member
  rw [AvcNode.keyEq_iff] at differs
  simp only [nodeKey, Prod.mk.injEq] at same
  exact differs ⟨same.1.symm, same.2.1.symm, same.2.2.symm⟩

/-- Putting a node in the place of one with its key keeps the keys. -/
theorem replaceFirst_keys {old : AvcNode → Bool} {new : AvcNode} {nodes : List AvcNode}
    (same : ∀ pos ∈ nodes, old pos = true → nodeKey pos = nodeKey new) :
    (replaceFirst old new nodes).map nodeKey = nodes.map nodeKey := by
  induction nodes with
  | nil => rfl
  | cons pos rest ih =>
    simp only [replaceFirst, List.replaceF] at ih ⊢
    cases matched : old pos with
    | true =>
      simp only [if_true, List.map_cons]
      rw [same pos List.mem_cons_self matched]
    | false =>
      simp only [Bool.false_eq_true, if_false, List.map_cons]
      rw [ih fun p member => same p (List.mem_cons_of_mem _ member)]

theorem setSlot_once {nodes : List AvcNode} {h : Fin avcCacheSlots}
    (once : ∀ k, ((c.slots k).map nodeKey).Nodup) (new : (nodes.map nodeKey).Nodup)
    (k : Fin avcCacheSlots) : (((c.setSlot h nodes).slots k).map nodeKey).Nodup := by
  by_cases equal : k = h
  · rw [equal, AvcCache.setSlot_same]
    exact new
  · rw [AvcCache.setSlot_other _ _ equal]
    exact once k

section Insert

theorem insertLink_once (once : ∀ k, ((c.slots k).map nodeKey).Nodup) (node : AvcNode)
    (k : Fin avcCacheSlots) : (((avcInsertLink c node).slots k).map nodeKey).Nodup := by
  unfold avcInsertLink
  simp only
  split
  · refine setSlot_once once ?_ k
    rw [replaceFirst_keys]
    · exact once _
    · intro pos _ matched
      rw [AvcNode.keyEq_iff] at matched
      rw [nodeKey, nodeKey, matched.1, matched.2.1, matched.2.2]
  · rename_i absent
    refine setSlot_once once ?_ k
    rw [List.map_cons, List.nodup_cons]
    refine ⟨fun member => absent ?_, once _⟩
    obtain ⟨pos, inside, same⟩ := List.mem_map.mp member
    simp only [nodeKey, Prod.mk.injEq] at same
    refine List.any_eq_true.mpr ⟨pos, inside, ?_⟩
    rw [AvcNode.keyEq_iff]
    exact ⟨same.1.symm, same.2.1.symm, same.2.2.symm⟩

/-- An insertion adds at most a node of the key with the server's decision and no
extended decisions yet. -/
theorem avcInsert_ok (ok : CacheOk server c) {c₁ : AvcCache} {t₁ : Tape}
    (done : avcInsert c ssid tsid tclass (server.securityComputeAv ssid tsid tclass).1
      { xp := (server.securityComputeAv ssid tsid tclass).2, xpdHead := [] } t = (c₁, t₁)) :
    CacheOk server c₁ ∧ ∀ h, ∀ n ∈ c₁.slots h, n ∈ c.slots h ∨
      ∀ x, n.xpNode = some x → x.xpdHead = [] := by
  unfold avcInsert at done
  split at done
  · cases done
    exact ⟨ok, fun h n linked => .inl linked⟩
  · have shrunk := avcAllocNode_shrunk c t
    split at done
    · rename_i allocated
      rw [allocated] at shrunk
      cases done
      exact ⟨cache_shrunk ok shrunk, fun h n linked => .inl (shrunk.mem linked)⟩
    · rename_i cAlloc tAlloc allocated
      rw [allocated] at shrunk
      have okAlloc := cache_shrunk ok shrunk
      split at done
      · cases done
        exact ⟨cache_shrunk okAlloc (avcNodeKill_shrunk _), fun h n linked => .inl (shrunk.mem linked)⟩
      · rename_i node t₂ populated
        cases done
        obtain ⟨ssidEq, tsidEq, tclassEq, avdEq⟩ := avcXpermsPopulate_frame populated
        refine ⟨⟨?_, insertLink_once okAlloc.once node⟩, ?_⟩
        · intro h n linked
          rcases mem_avcInsertLink linked with old | ⟨rfl, -⟩
          · exact okAlloc.content h n old
          · intro _
            rw [ssidEq, tsidEq, tclassEq, avdEq]
            exact ⟨rfl, populate_ok populated rfl rfl rfl Iff.rfl .nil⟩
        · intro h n linked
          rcases mem_avcInsertLink linked with old | ⟨rfl, -⟩
          · exact .inl (shrunk.mem old)
          · right
            intro x here
            unfold avcXpermsPopulate at populated
            split at populated
            · cases populated
              cases here
            · split at populated
              · cases populated
              · simp only [avcXpermsPopulateLoop] at populated
                cases populated
                cases here
                rfl

end Insert

section Update

variable {event : AvcEvent} {perms flags seqno : U32} {driver xperm : U8}
  {xpd : Option ExtendedPermsDecision}

/-- The copy an update works on has the key asked for and the decision of the node. -/
theorem copy_key {orig copy : AvcNode} {t₁ : Tape}
    (populated : (match orig.xpNode with
      | some src => avcXpermsPopulate (avcNodePopulate ssid tsid tclass orig.avd) src t
      | none => (.ok (avcNodePopulate ssid tsid tclass orig.avd), t)) = (.ok copy, t₁)) :
    copy.ssid = ssid ∧ copy.tsid = tsid ∧ copy.tclass = tclass ∧ copy.avd = orig.avd := by
  split at populated
  · exact avcXpermsPopulate_frame populated
  · cases populated
    exact ⟨rfl, rfl, rfl, rfl⟩

/-- What an update can leave in a slot: an old node, or what the event makes of the copy
of the node of the key. -/
theorem mem_update {n : AvcNode} {h : Fin avcCacheSlots}
    (linked : n ∈ (avcUpdateLocked c event perms driver xperm ssid tsid tclass seqno xpd
      flags t).2.1.slots h) :
    n ∈ c.slots h ∨ ∃ orig ∈ c.slots h, ∃ copy t₁ t₂ t₃,
      orig.ssid = ssid ∧ orig.tsid = tsid ∧ orig.tclass = tclass ∧
      h = avcHash ssid tsid tclass ∧
      (match orig.xpNode with
        | some src => avcXpermsPopulate (avcNodePopulate ssid tsid tclass orig.avd) src t
        | none => (.ok (avcNodePopulate ssid tsid tclass orig.avd), t)) = (.ok copy, t₁) ∧
      avcUpdateEvent event perms driver xperm flags xpd copy t₂ = (.ok n, t₃) := by
  unfold avcUpdateLocked at linked
  simp only at linked
  split at linked
  · exact .inl linked
  · rename_i orig found
    have member := List.mem_of_find?_eq_some found
    have matched := List.find?_some found
    simp only [Bool.and_eq_true, AvcNode.keyEq_iff, beq_iff_eq] at matched
    obtain ⟨⟨ssidEq, tsidEq, tclassEq⟩, -⟩ := matched
    split at linked
    · exact .inl linked
    · rename_i copy t₁ populated
      split at linked
      · exact .inl linked
      · rename_i dest t₂ updated
        by_cases equal : h = avcHash ssid tsid tclass
        · subst equal
          simp only [AvcCache.setSlot_same] at linked
          rcases mem_replaceFirst linked with old | rfl
          · exact .inl old
          · exact .inr ⟨orig, member, copy, t₁, t₁, t₂, ssidEq.symm, tsidEq.symm, tclassEq.symm,
              rfl, populated, updated⟩
        · simp only [AvcCache.setSlot_other _ _ equal] at linked
          exact .inl linked

theorem updateLocked_once (once : ∀ k, ((c.slots k).map nodeKey).Nodup) (k : Fin avcCacheSlots) :
    (((avcUpdateLocked c event perms driver xperm ssid tsid tclass seqno xpd
      flags t).2.1.slots k).map nodeKey).Nodup := by
  unfold avcUpdateLocked
  simp only
  split
  · exact once k
  · rename_i orig found
    split
    · exact once k
    · rename_i copy t₁ populated
      split
      · exact once k
      · rename_i dest t₂ updated
        refine setSlot_once once ?_ k
        rw [replaceFirst_keys]
        · exact once _
        · intro pos _ matched
          simp only [Bool.and_eq_true, AvcNode.keyEq_iff] at matched
          have frame := avcUpdateEvent_frame updated
          have copied := copy_key populated
          rw [nodeKey, nodeKey, frame.1, frame.2.1, frame.2.2.1, copied.1, copied.2.1,
            copied.2.2.1, matched.1.1, matched.1.2.1, matched.1.2.2]

/-- A grant to a permissive domain leaves the other nodes alone. -/
theorem grant_ok (ok : CacheOk server c) (permissive : PermissiveKey server ssid tsid tclass) :
    CacheOk server (avcUpdateLocked c .grant perms driver xperm ssid tsid tclass seqno xpd
      flags t).2.1 := by
  refine ⟨?_, updateLocked_once ok.once⟩
  intro h n linked
  rcases mem_update linked with old | ⟨orig, -, copy, t₁, t₂, t₃, -, -, -, -, populated, updated⟩
  · exact ok.content h n old
  · have frame := avcUpdateEvent_frame updated
    have copied := copy_key populated
    intro strict
    rw [frame.1, frame.2.1, frame.2.2.1, copied.1, copied.2.1, copied.2.2.1] at strict
    exact absurd permissive strict

/-- It has the extended part of the node too. -/
theorem copy_ok {orig copy : AvcNode} {t₁ : Tape}
    (populated : (match orig.xpNode with
      | some src => avcXpermsPopulate (avcNodePopulate ssid tsid tclass orig.avd) src t
      | none => (.ok (avcNodePopulate ssid tsid tclass orig.avd), t)) = (.ok copy, t₁))
    {decide : U8 → ExtendedPermsDecision} {xp : ExtendedPerms}
    (ok : ExtendedOk decide xp orig.xpNode) :
    ExtendedOk decide xp copy.xpNode := by
  split at populated
  · rename_i src here
    rw [here] at ok
    obtain ⟨real, drivers, count, decisions⟩ := ok
    have nonzero : src.xp.len ≠ 0 := by
      intro zero
      rw [zero] at count
      have positive : xp.len.toNat ≠ 0 := fun none => real (BitVec.eq_of_toNat_eq none)
      simp only [BitVec.ofNat_eq_ofNat, BitVec.toNat_ofNat, Nat.zero_mod] at count
      omega
    exact populate_ok populated rfl drivers count
      ⟨fun zero => absurd zero nonzero, fun zero => absurd zero real⟩ decisions
  · rename_i none
    cases populated
    rw [none] at ok
    exact ok

/-- Adding the server's decision of a driver of the map that has none yet. -/
theorem addXperms_ok {node out : AvcNode} {t₁ t₂ : Tape} {d : U8}
    {decide : U8 → ExtendedPermsDecision} {xp : ExtendedPerms}
    (added : avcAddXpermsDecision node (decide d) t₁ = (.ok out, t₂))
    (ok : ExtendedOk decide xp node.xpNode) (short : xp.len.toNat ≤ 1)
    (named : (decide d).driver = d) (driven : securityXpermTest xp.drivers d = true)
    (missing : ∀ x, node.xpNode = some x → ∀ xpd ∈ x.xpdHead, xpd.driver ≠ d) :
    out.ssid = node.ssid ∧ out.tsid = node.tsid ∧ out.tclass = node.tclass ∧ out.avd = node.avd ∧
      ExtendedOk decide xp out.xpNode := by
  unfold avcAddXpermsDecision at added
  split at added
  · cases added
  · rename_i dest t₃ allocated
    split at added
    · cases added
    · rename_i x here
      simp only [Prod.mk.injEq, Except.ok.injEq] at added
      obtain ⟨rfl, -⟩ := added
      rw [here] at ok
      obtain ⟨real, drivers, count, decisions⟩ := ok
      obtain ⟨same, present⟩ := copy_sameAnswer allocated
      have few := decisions.length_le
      refine ⟨rfl, rfl, rfl, rfl, real, drivers, ?_, ?_⟩
      · rw [List.length_cons, BitVec.toNat_add, count]
        have one : (1#16).toNat = 1 := by decide
        change (xp.len.toNat + x.xpdHead.length + (1#16).toNat) % 2 ^ 16 = _
        rw [one]
        omega
      · constructor
        · intro xpd member
          rcases List.mem_cons.mp member with rfl | old
          · intro perm
            rw [same perm]
            change _ = avcXpermsHasPerm (decide (decide d).driver) perm xpermsAllowed
            rw [named]
          · exact decisions.answer xpd old
        · intro xpd member
          rcases List.mem_cons.mp member with rfl | old
          · exact present
          · exact decisions.present xpd old
        · intro xpd member
          rcases List.mem_cons.mp member with rfl | old
          · change securityXpermTest xp.drivers (decide d).driver = true
            rw [named]
            exact driven
          · exact decisions.driven xpd old
        · rw [List.map_cons, List.nodup_cons]
          refine ⟨fun member => ?_, decisions.once⟩
          obtain ⟨xpd, inside, equal⟩ := List.mem_map.mp member
          have isDriver : (avcCopyXpermsDecision dest (decide d)).driver = d := named
          rw [isDriver] at equal
          exact missing x here xpd inside equal

/-- The update that adds the server's decision of a driver: the node of the key, when
there still is one, gets the decision. -/
theorem add_ok {d : U8} (serverOk : ServerOk server) (ok : CacheOk server c)
    (driven : ¬ PermissiveKey server ssid tsid tclass →
      securityXpermTest (server.securityComputeAv ssid tsid tclass).2.drivers d = true)
    (missing : ∀ n ∈ c.slots (avcHash ssid tsid tclass), nodeKey n = (ssid, tsid, tclass) →
      ∀ x, n.xpNode = some x → ∀ xpd ∈ x.xpdHead, xpd.driver ≠ d) :
    CacheOk server (avcUpdateLocked c .addXperms perms driver xperm ssid tsid tclass seqno
      (some (server.securityComputeXpermsDecision ssid tsid tclass d)) flags t).2.1 := by
  refine ⟨?_, updateLocked_once ok.once⟩
  intro h n linked
  rcases mem_update linked with
    old | ⟨orig, member, copy, t₁, t₂, t₃, rfl, rfl, rfl, place, populated, updated⟩
  · exact ok.content h n old
  · intro strict
    have key := copy_key populated
    have frame := avcUpdateEvent_frame updated
    rw [frame.1, frame.2.1, frame.2.2.1, key.1, key.2.1, key.2.2.1] at strict ⊢
    obtain ⟨avd, extended⟩ := ok.content h orig member strict
    have copied := copy_ok populated extended
    have missingCopy : ∀ x, copy.xpNode = some x → ∀ xpd ∈ x.xpdHead, xpd.driver ≠ d := by
      intro x here xpd inside
      split at populated
      · rename_i src hasSrc
        obtain ⟨old, oldInside, same⟩ := populate_drivers populated rfl here inside
        rw [← same]
        exact missing orig (place ▸ member) rfl src hasSrc old oldInside
      · cases populated
        cases here
    have added := addXperms_ok updated copied (serverOk.len _ _ _) (serverOk.driver _ _ _ d)
      (driven strict) missingCopy
    exact ⟨by rw [added.2.2.2.1, key.2.2.2, avd], added.2.2.2.2⟩

end Update

section Calls

variable {requested flags : U32} {driver xperm : U8} {stack : ExtendedPermsData}

/-- The uncached decision of `avc_has_perm_noaudit`. -/
def permAllowed (server : SecurityServer) (ssid tsid : U32) (tclass : U16) (requested : U32) :
    Prop :=
  requested &&& ~~~(server.securityComputeAv ssid tsid tclass).1.allowed = 0

/-- The uncached decision of `avc_has_extended_perms`. -/
def extendedAllowed (server : SecurityServer) (ssid tsid : U32) (tclass : U16) (requested : U32)
    (driver xperm : U8) : Prop :=
  permAllowed server ssid tsid tclass requested ∧
    ((server.securityComputeAv ssid tsid tclass).2.len ≠ 0 →
      securityXpermTest (server.securityComputeAv ssid tsid tclass).2.drivers driver = true ∧
        avcXpermsHasPerm (server.securityComputeXpermsDecision ssid tsid tclass driver) xperm
          xpermsAllowed = true)

/-- In enforcing mode a denial is an error, unless the flags of the decision are
permissive; then only nodes of the key change. -/
theorem avcDenied_spec {avd : AvDecision} {rc : Except Errno Unit} (ok : CacheOk server c)
    (known : avd.flags = (server.securityComputeAv ssid tsid tclass).1.flags ∨
      PermissiveKey server ssid tsid tclass)
    (done : avcDenied true c ssid tsid tclass requested driver xperm flags avd t = (rc, c', t')) :
    CacheOk server c' ∧ (¬ PermissiveKey server ssid tsid tclass → rc = .error .EACCES) := by
  unfold avcDenied at done
  split at done
  · cases done
    exact ⟨ok, fun _ => rfl⟩
  · split at done
    · cases done
      exact ⟨ok, fun _ => rfl⟩
    · rename_i permissive
      have key : PermissiveKey server ssid tsid tclass := by
        rcases known with same | key
        · simp only [true_and] at permissive
          rw [same] at permissive
          exact permissive
        · exact key
      refine ⟨?_, fun strict => absurd key strict⟩
      cases done
      have shrunk := avcAllocNode_shrunk c t
      split
      · rename_i allocated
        rw [allocated] at shrunk
        exact cache_shrunk ok shrunk
      · rename_i allocated
        rw [allocated] at shrunk
        exact grant_ok (cache_shrunk ok shrunk) key

/-- A computed decision is the server's, and caching it keeps the cache right. -/
theorem avcComputeAv_ok {avd : AvDecision} {x : AvcXpermsNode} (ok : CacheOk server c)
    (done : avcComputeAv server c ssid tsid tclass t = (avd, x, c', t')) :
    avd = (server.securityComputeAv ssid tsid tclass).1 ∧
      x = { xp := (server.securityComputeAv ssid tsid tclass).2, xpdHead := [] } ∧
      CacheOk server c' ∧ ∀ h, ∀ n ∈ c'.slots h, n ∈ c.slots h ∨
        ∀ x, n.xpNode = some x → x.xpdHead = [] := by
  unfold avcComputeAv at done
  simp only [Prod.mk.injEq] at done
  obtain ⟨rfl, rfl, rfl, rfl⟩ := done
  exact ⟨rfl, rfl, avcInsert_ok ok rfl⟩

/-- A cached decision of a domain that is not permissive is the server's. -/
theorem known_flags {n : AvcNode} (node : NodeOk server n)
    (key : nodeKey n = (ssid, tsid, tclass)) :
    n.avd.flags = (server.securityComputeAv ssid tsid tclass).1.flags ∨
      PermissiveKey server ssid tsid tclass := by
  simp only [nodeKey, Prod.mk.injEq] at key
  obtain ⟨rfl, rfl, rfl⟩ := key
  by_cases permissive : PermissiveKey server n.ssid n.tsid n.tclass
  · exact .inr permissive
  · left
    rw [(node permissive).1]

/-- `avc_has_perm_noaudit` in enforcing mode. -/
theorem avcHasPermNoaudit_spec {rc : Except Errno Unit} {out : Option AvDecision}
    (ok : CacheOk server c) (asked : requested ≠ 0)
    (done : avcHasPermNoaudit server true c ssid tsid tclass requested flags t =
      (rc, out, c', t')) :
    CacheOk server c' ∧ (¬ PermissiveKey server ssid tsid tclass →
      (rc = .ok () ↔ permAllowed server ssid tsid tclass requested)) := by
  unfold avcHasPermNoaudit at done
  rw [if_neg asked] at done
  split at done
  · unfold avcPermNonode at done
    obtain ⟨avd, x, c₁, t₁, computed⟩ :
      ∃ avd x c₁ t₁, avcComputeAv server c ssid tsid tclass t = (avd, x, c₁, t₁) :=
      ⟨_, _, _, _, rfl⟩
    obtain ⟨avdEq, -, ok₁, -⟩ := avcComputeAv_ok ok computed
    simp only [computed] at done
    split at done
    · rename_i denied
      obtain ⟨rc₁, c₂, t₂, refused⟩ : ∃ rc₁ c₂ t₂,
          avcDenied true c₁ ssid tsid tclass requested 0 0 flags avd t₁ = (rc₁, c₂, t₂) :=
        ⟨_, _, _, rfl⟩
      simp only [refused] at done
      cases done
      obtain ⟨ok₂, error⟩ := avcDenied_spec ok₁ (.inl (by rw [avdEq])) refused
      refine ⟨ok₂, fun strict => ?_⟩
      rw [error strict, permAllowed, ← avdEq]
      exact ⟨fun absurdity => (by cases absurdity), fun allowed => absurd allowed denied⟩
    · rename_i granted
      cases done
      refine ⟨ok₁, fun _ => ?_⟩
      rw [permAllowed, ← avdEq]
      exact ⟨fun _ => not_not.mp granted, fun _ => rfl⟩
  · rename_i node found
    obtain ⟨content, -, key⟩ := lookup_ok ok found
    have known := known_flags content key
    have decision : ¬ PermissiveKey server ssid tsid tclass →
        node.avd = (server.securityComputeAv ssid tsid tclass).1 := by
      intro strict
      simp only [nodeKey, Prod.mk.injEq] at key
      obtain ⟨rfl, rfl, rfl⟩ := key
      exact (content strict).1
    split at done
    · rename_i denied
      obtain ⟨rc₁, c₂, t₂, refused⟩ : ∃ rc₁ c₂ t₂,
          avcDenied true c ssid tsid tclass requested 0 0 flags node.avd t = (rc₁, c₂, t₂) :=
        ⟨_, _, _, rfl⟩
      simp only [refused] at done
      cases done
      obtain ⟨ok₂, error⟩ := avcDenied_spec ok known refused
      refine ⟨ok₂, fun strict => ?_⟩
      rw [error strict, permAllowed, ← decision strict]
      exact ⟨fun absurdity => (by cases absurdity), fun allowed => absurd allowed denied⟩
    · rename_i granted
      cases done
      refine ⟨ok, fun strict => ?_⟩
      rw [permAllowed, ← decision strict]
      exact ⟨fun _ => not_not.mp granted, fun _ => rfl⟩

section Extended

variable {decide : U8 → ExtendedPermsDecision} {xp : ExtendedPerms} {avd : AvDecision}
  {xpNode : Option AvcXpermsNode}

/-- What `avc_has_extended_perms` relies on in the node at hand, cached or on the stack. -/
def AnswersOk (decide : U8 → ExtendedPermsDecision) (xp : ExtendedPerms) :
    Option AvcXpermsNode → Prop
  | none => xp.len = 0
  | some x => (x.xp.len = 0 ↔ xp.len = 0) ∧ x.xp.drivers = xp.drivers ∧
      DecisionsOk decide xp.drivers x.xpdHead

theorem answers_of_extended (ok : ExtendedOk decide xp xpNode) (short : xp.len.toNat ≤ 1) :
    AnswersOk decide xp xpNode := by
  cases xpNode with
  | none => exact ok
  | some x =>
    obtain ⟨real, drivers, count, decisions⟩ := ok
    refine ⟨⟨fun zero => ?_, fun zero => absurd zero real⟩, drivers, decisions⟩
    rw [zero] at count
    apply BitVec.eq_of_toNat_eq
    simp only [BitVec.ofNat_eq_ofNat, BitVec.toNat_ofNat, Nat.zero_mod] at count ⊢
    omega

/-- What the decision amounts to for the permission asked for. -/
def Permits (decide : U8 → ExtendedPermsDecision) (xp : ExtendedPerms) (driver xperm : U8) :
    Prop :=
  xp.len ≠ 0 → securityXpermTest xp.drivers driver = true ∧
    avcXpermsHasPerm (decide driver) xperm xpermsAllowed = true

/-- Taking the requested bits away denies them all. -/
theorem masked_denied (asked : requested ≠ 0) (allowed : U32) :
    requested &&& ~~~(allowed &&& ~~~requested) ≠ 0 := by
  have all : requested &&& ~~~(allowed &&& ~~~requested) = requested := by
    apply BitVec.eq_of_getLsbD_eq
    intro i inside
    simp only [BitVec.getLsbD_and, BitVec.getLsbD_not, inside, decide_true, Bool.true_and]
    cases requested.getLsbD i <;> simp
  rw [all]
  exact asked

/-- The masked decision allows the request exactly when the extended decision does too. -/
theorem mask_allows (asked : requested ≠ 0) (xperm : U8) (avd : AvDecision)
    (xpd : ExtendedPermsDecision) :
    (avcXpermsMask requested xperm avd xpd).flags = avd.flags ∧
      (requested &&& ~~~(avcXpermsMask requested xperm avd xpd).allowed = 0 ↔
        requested &&& ~~~avd.allowed = 0 ∧ avcXpermsHasPerm xpd xperm xpermsAllowed = true) := by
  unfold avcXpermsMask
  split
  · rename_i has
    simp [has]
  · rename_i lacks
    refine ⟨rfl, fun allowed => absurd allowed (masked_denied asked avd.allowed),
      fun both => absurd both.2 lacks⟩

/-- What the node can answer alone is right. -/
theorem extendedAnswer_some {avd' : AvDecision} {xpd : Option ExtendedPermsDecision}
    (asked : requested ≠ 0) (ok : AnswersOk decide xp xpNode)
    (answer : avcExtendedAnswer requested driver xperm stack avd xpNode = some (avd', xpd)) :
    avd'.flags = avd.flags ∧ (requested &&& ~~~avd'.allowed = 0 ↔
      requested &&& ~~~avd.allowed = 0 ∧ Permits decide xp driver xperm) := by
  unfold avcExtendedAnswer at answer
  split at answer
  · cases answer
    have empty : xp.len = 0 := ok
    simp [Permits, empty]
  · rename_i x
    obtain ⟨zero, drivers, decisions⟩ := ok
    split at answer
    · rename_i empty
      cases answer
      simp [Permits, zero.mp empty]
    · rename_i nonempty
      have real : xp.len ≠ 0 := fun none => nonempty (zero.mpr none)
      split at answer
      · split at answer
        · rename_i undriven
          cases answer
          refine ⟨rfl, fun allowed => absurd allowed (masked_denied asked avd.allowed), ?_⟩
          rintro ⟨-, permits⟩
          rw [drivers] at undriven
          exact absurd (permits real).1 undriven
        · cases answer
      · rename_i found here
        cases answer
        have member := List.mem_of_find?_eq_some here
        have named := List.find?_some here
        rw [beq_iff_eq] at named
        refine ⟨(mask_allows asked xperm avd _).1, (mask_allows asked xperm avd _).2.trans ?_⟩
        rw [quickCopy_answer xperm rfl (decisions.present found member),
          decisions.answer found member xperm, named]
        refine and_congr_right fun _ => ⟨fun has _ => ⟨?_, has⟩, fun permits => (permits real).2⟩
        rw [← named]
        exact decisions.driven found member

/-- The node cannot answer only when the driver is in the map and has no decision yet. -/
theorem extendedAnswer_none
    (answer : avcExtendedAnswer requested driver xperm stack avd xpNode = none) :
    ∃ x, xpNode = some x ∧ x.xp.len ≠ 0 ∧ (∀ xpd ∈ x.xpdHead, xpd.driver ≠ driver) ∧
      securityXpermTest x.xp.drivers driver = true := by
  unfold avcExtendedAnswer at answer
  split at answer
  · cases answer
  · rename_i x
    split at answer
    · cases answer
    · rename_i nonempty
      split at answer
      · rename_i absent
        split at answer
        · cases answer
        · rename_i driven
          refine ⟨x, rfl, nonempty, ?_, not_not.mp driven⟩
          intro xpd member equal
          have differs := List.find?_eq_none.mp absent xpd member
          simp only [beq_iff_eq] at differs
          exact differs equal
      · cases answer

/-- The decision `avc_has_extended_perms` comes to, and the cache it leaves. -/
theorem avcExtendedDecision_spec {avd' : AvDecision} {xpd : Option ExtendedPermsDecision}
    (serverOk : ServerOk server) (ok : CacheOk server c) (asked : requested ≠ 0)
    (answers : ¬ PermissiveKey server ssid tsid tclass →
      AnswersOk (server.securityComputeXpermsDecision ssid tsid tclass)
        (server.securityComputeAv ssid tsid tclass).2 xpNode)
    (latest : ∀ n ∈ c.slots (avcHash ssid tsid tclass), nodeKey n = (ssid, tsid, tclass) →
      n.xpNode = xpNode ∨ ∀ x, n.xpNode = some x → x.xpdHead = [])
    (done : avcExtendedDecision server c ssid tsid tclass requested driver xperm stack avd
      xpNode t = (avd', xpd, c', t')) :
    CacheOk server c' ∧ (¬ PermissiveKey server ssid tsid tclass → avd'.flags = avd.flags ∧
      (requested &&& ~~~avd'.allowed = 0 ↔ requested &&& ~~~avd.allowed = 0 ∧
        Permits (server.securityComputeXpermsDecision ssid tsid tclass)
          (server.securityComputeAv ssid tsid tclass).2 driver xperm)) := by
  unfold avcExtendedDecision at done
  split at done
  · rename_i answer
    cases done
    exact ⟨ok, fun strict => extendedAnswer_some asked (answers strict) answer⟩
  · rename_i answer
    obtain ⟨x, here, nonempty, missing, driven⟩ := extendedAnswer_none answer
    obtain ⟨rc, c₁, t₁, updated⟩ : ∃ rc c₁ t₁, avcUpdateNode c .addXperms requested driver xperm
        ssid tsid tclass avd.seqno
        (some (server.securityComputeXpermsDecision ssid tsid tclass driver)) 0 t =
          (rc, c₁, t₁) := ⟨_, _, _, rfl⟩
    simp only [updated] at done
    have serverDriven : ¬ PermissiveKey server ssid tsid tclass → securityXpermTest
        (server.securityComputeAv ssid tsid tclass).2.drivers driver = true := by
      intro strict
      have node := answers strict
      rw [here] at node
      rw [← node.2.1]
      exact driven
    constructor
    · cases done
      unfold avcUpdateNode at updated
      have shrunk := avcAllocNode_shrunk c t
      split at updated
      · rename_i allocated
        rw [allocated] at shrunk
        cases updated
        exact cache_shrunk ok shrunk
      · rename_i c₂ t₂ allocated
        rw [allocated] at shrunk
        have added : CacheOk server (avcUpdateLocked c₂ .addXperms requested driver xperm ssid tsid
            tclass avd.seqno (some (server.securityComputeXpermsDecision ssid tsid tclass driver)) 0
            t₂).2.1 := by
          apply add_ok serverOk (cache_shrunk ok shrunk) serverDriven
          intro n linked key y hasY xpd member
          rcases latest n (shrunk.mem linked) key with same | empty
          · rw [same, here] at hasY
            cases hasY
            exact missing xpd member
          · rw [empty y hasY] at member
            cases member
        rw [updated] at added
        exact added
    · intro strict
      cases done
      have node := answers strict
      rw [here] at node
      have real : (server.securityComputeAv ssid tsid tclass).2.len ≠ 0 :=
        fun none => nonempty (node.1.mpr none)
      obtain ⟨flags, allows⟩ := mask_allows asked xperm avd
        (server.securityComputeXpermsDecision ssid tsid tclass driver)
      refine ⟨flags, allows.trans (and_congr_right fun _ => ?_)⟩
      exact ⟨fun has _ => ⟨serverDriven strict, has⟩, fun permits => (permits real).2⟩

end Extended

/-- Auditing that returns 0 does not change the outcome. -/
theorem avcXpermsAudit_ok (avd : AvDecision) (xpd : Option ExtendedPermsDecision)
    (result : Except Errno Unit) :
    avcXpermsAudit requested avd xpd xperm result (.ok ()) = .ok () := by
  simp only [avcXpermsAudit, ite_self]

/-- The decision at hand is the server's, and so is what the node at hand answers. -/
theorem avcExtendedNode_spec {avd : AvDecision} {xpNode : Option AvcXpermsNode}
    (serverOk : ServerOk server) (ok : CacheOk server c)
    (atHand : avcExtendedNode server c ssid tsid tclass t = (avd, xpNode, c', t')) :
    CacheOk server c' ∧
      (avd.flags = (server.securityComputeAv ssid tsid tclass).1.flags ∨
        PermissiveKey server ssid tsid tclass) ∧
      (¬ PermissiveKey server ssid tsid tclass →
        avd = (server.securityComputeAv ssid tsid tclass).1 ∧
        AnswersOk (server.securityComputeXpermsDecision ssid tsid tclass)
          (server.securityComputeAv ssid tsid tclass).2 xpNode) ∧
      ∀ n ∈ c'.slots (avcHash ssid tsid tclass), nodeKey n = (ssid, tsid, tclass) →
        n.xpNode = xpNode ∨ ∀ x, n.xpNode = some x → x.xpdHead = [] := by
  unfold avcExtendedNode at atHand
  split at atHand
  · rename_i absent
    obtain ⟨avd₂, x₂, c₂, t₂, computed⟩ :
      ∃ avd x c₁ t₁, avcComputeAv server c ssid tsid tclass t = (avd, x, c₁, t₁) :=
      ⟨_, _, _, _, rfl⟩
    obtain ⟨avdEq, xEq, ok₂, added⟩ := avcComputeAv_ok ok computed
    simp only [computed] at atHand
    cases atHand
    refine ⟨ok₂, .inl (by rw [avdEq]), fun _ => ⟨avdEq, ?_⟩, ?_⟩
    · rw [xEq]
      exact ⟨Iff.rfl, rfl, .nil⟩
    · intro n linked key
      rcases added _ n linked with old | empty
      · exact absurd key (lookup_none absent n old)
      · exact .inr empty
  · rename_i node found
    cases atHand
    obtain ⟨content, member, key⟩ := lookup_ok ok found
    refine ⟨ok, known_flags content key, fun strict => ?_, ?_⟩
    · simp only [nodeKey, Prod.mk.injEq] at key
      obtain ⟨rfl, rfl, rfl⟩ := key
      obtain ⟨avdEq, extended⟩ := content strict
      exact ⟨avdEq, answers_of_extended extended (serverOk.len _ _ _)⟩
    · intro n linked same
      left
      have equal : n = node := List.inj_on_of_nodup_map (ok.once _) linked member
        (same.trans key.symm)
      rw [equal]

/-- `avc_has_extended_perms` in enforcing mode. -/
theorem avcHasExtendedPerms_spec {rc : Except Errno Unit} (serverOk : ServerOk server)
    (ok : CacheOk server c) (asked : requested ≠ 0)
    (done : avcHasExtendedPerms server true c ssid tsid tclass requested driver xperm stack
      (.ok ()) t = (rc, c', t')) :
    CacheOk server c' ∧ (¬ PermissiveKey server ssid tsid tclass →
      (rc = .ok () ↔ extendedAllowed server ssid tsid tclass requested driver xperm)) := by
  unfold avcHasExtendedPerms at done
  rw [if_neg asked] at done
  obtain ⟨avd, xpNode, c₁, t₁, atHand⟩ : ∃ avd xpNode c₁ t₁,
      avcExtendedNode server c ssid tsid tclass t = (avd, xpNode, c₁, t₁) := ⟨_, _, _, _, rfl⟩
  have found := avcExtendedNode_spec serverOk ok atHand
  obtain ⟨ok₁, known, decision, latest⟩ := found
  simp only [atHand] at done
  obtain ⟨avd', xpd, c₂, t₂, decided⟩ : ∃ avd' xpd c₂ t₂, avcExtendedDecision server c₁ ssid tsid
      tclass requested driver xperm stack avd xpNode t₁ = (avd', xpd, c₂, t₂) :=
    ⟨_, _, _, _, rfl⟩
  obtain ⟨ok₂, allows⟩ := avcExtendedDecision_spec serverOk ok₁ asked
    (fun strict => (decision strict).2) latest decided
  simp only [decided, avcXpermsAudit_ok] at done
  have extended : ¬ PermissiveKey server ssid tsid tclass →
      (requested &&& ~~~avd'.allowed = 0 ↔
        extendedAllowed server ssid tsid tclass requested driver xperm) := by
    intro strict
    rw [(allows strict).2, (decision strict).1]
    rfl
  split at done
  · rename_i denied
    obtain ⟨rc₁, c₃, t₃, refused⟩ : ∃ rc₁ c₃ t₃, avcDenied true c₂ ssid tsid tclass requested
        driver xperm avcExtendedPerms avd' t₂ = (rc₁, c₃, t₃) := ⟨_, _, _, rfl⟩
    simp only [refused] at done
    cases done
    have flags : avd'.flags = (server.securityComputeAv ssid tsid tclass).1.flags ∨
        PermissiveKey server ssid tsid tclass := by
      by_cases permissive : PermissiveKey server ssid tsid tclass
      · exact .inr permissive
      · left
        rw [(allows permissive).1, (decision permissive).1]
    obtain ⟨ok₃, error⟩ := avcDenied_spec ok₂ flags refused
    refine ⟨ok₃, fun strict => ?_⟩
    rw [error strict, ← extended strict]
    exact ⟨fun absurdity => (by cases absurdity), fun allowed => absurd allowed denied⟩
  · rename_i granted
    cases done
    refine ⟨ok₂, fun strict => ?_⟩
    rw [← extended strict]
    exact ⟨fun _ => not_not.mp granted, fun _ => rfl⟩

end Calls

/-- What may happen to the cache of one loaded policy in enforcing mode: the two kinds of
call, with the outcomes of the allocations and locks on a tape, a reclaim, and a new
threshold. -/
inductive AvcCall where
  | hasPermNoaudit (ssid tsid : U32) (tclass : U16) (requested flags : U32) (t : Tape)
  | hasExtendedPerms (ssid tsid : U32) (tclass : U16) (requested : U32) (driver xperm : U8)
      (stack : ExtendedPermsData) (t : Tape)
  | reclaim (t : Tape)
  | setCacheThreshold (threshold : Nat)

namespace AvcCall

/-- The cache after the call. -/
def cache (server : SecurityServer) (c : AvcCache) : AvcCall → AvcCache
  | hasPermNoaudit ssid tsid tclass requested flags t =>
    (avcHasPermNoaudit server true c ssid tsid tclass requested flags t).2.2.1
  | hasExtendedPerms ssid tsid tclass requested driver xperm stack t =>
    (avcHasExtendedPerms server true c ssid tsid tclass requested driver xperm stack
      (.ok ()) t).2.1
  | reclaim t => (avcReclaimNode c t).1
  | setCacheThreshold threshold => { c with threshold }

end AvcCall

/-- The cache from `selinux_avc_init` on. -/
def avcCallMachine (server : SecurityServer) : Machine AvcCache AvcCall :=
  { start := fun c => c = selinuxAvcInit
    step := fun c call => some (call.cache server c) }

theorem avcCall_ok (serverOk : ServerOk server) (ok : CacheOk server c) (call : AvcCall) :
    CacheOk server (call.cache server c) := by
  cases call with
  | hasPermNoaudit ssid tsid tclass requested flags t =>
    by_cases asked : requested = 0
    · simp only [AvcCall.cache, avcHasPermNoaudit, if_pos asked]
      exact ok
    · exact (avcHasPermNoaudit_spec ok asked rfl).1
  | hasExtendedPerms ssid tsid tclass requested driver xperm stack t =>
    by_cases asked : requested = 0
    · simp only [AvcCall.cache, avcHasExtendedPerms, if_pos asked]
      exact ok
    · exact (avcHasExtendedPerms_spec serverOk ok asked rfl).1
  | reclaim t => exact cache_shrunk ok (avcReclaimScan_shrunk _ _ c t)
  | setCacheThreshold threshold => exact ⟨ok.content, ok.once⟩

theorem init_ok (server : SecurityServer) : CacheOk server selinuxAvcInit := by
  constructor
  · intro h n linked
    cases linked
  · intro h
    exact List.nodup_nil

/-- Every cache a run of calls leads to has its content. -/
theorem reachable_ok (serverOk : ServerOk server)
    (reached : (avcCallMachine server).Reachable Machine.free c) : CacheOk server c := by
  apply reached.invariant
  · rintro c rfl
    exact init_ok server
  · intro c call c' ok _ stepped
    cases stepped
    exact avcCall_ok serverOk ok call

end Ksrc.Guarantees.AvcTransparency

import Ksrc.Source.Security

/-!
# Access vector cache

Source: `security/selinux/avc.c`. The functions keep the source's order of
tests, allocations and list operations. A list head (`hlist_head`, `list_head`)
is a Lean list in traversal order, so `list_add` and `hlist_add_head_rcu` are
`cons`.

Two things a caller cannot choose are supplied by a `Tape`: the outcome of each
slab allocation and of each `spin_trylock` in the reclaim scan. An exhausted
tape answers success. Statistics counters and audit text are not modelled.
-/
namespace Ksrc.Source

def avcCacheSlots : Nat := 512
def avcDefCacheThreshold : Nat := 512
def avcCacheReclaim : Nat := 16

/-- `AVC_STRICT`, `AVC_EXTENDED_PERMS` of `avc.h`. -/
def avcStrict : U32 := 1
def avcExtendedPerms : U32 := 2

/-- The events `avc_update_node` distinguishes. -/
inductive AvcEvent where
  | grant | tryRevoke | revoke | reset
  | auditallowEnable | auditallowDisable | auditdenyEnable | auditdenyDisable
  | addXperms
  deriving DecidableEq, Repr

/-- `struct avc_xperms_node`: the driver map and the decisions made so far. -/
structure AvcXpermsNode where
  xp : ExtendedPerms
  xpdHead : List ExtendedPermsDecision
  deriving DecidableEq, Repr

/-- `struct avc_node` without its list linkage. -/
structure AvcNode where
  ssid : U32
  tsid : U32
  tclass : U16
  avd : AvDecision
  xpNode : Option AvcXpermsNode
  deriving DecidableEq, Repr

structure AvcCache where
  slots : Fin avcCacheSlots → List AvcNode
  lruHint : U32
  activeNodes : Int
  threshold : Nat
  latestNotif : U32

/-- Outcomes of the allocations and lock attempts still to come. -/
structure Tape where
  allocs : List Bool
  trylocks : List Bool
  deriving DecidableEq, Repr

namespace Tape

/-- One slab allocation: whether it succeeds. -/
def alloc (t : Tape) : Bool × Tape :=
  match t.allocs with
  | [] => (true, t)
  | ok :: rest => (ok, { t with allocs := rest })

/-- One `spin_trylock_irqsave`: whether the lock was taken. -/
def trylock (t : Tape) : Bool × Tape :=
  match t.trylocks with
  | [] => (true, t)
  | ok :: rest => (ok, { t with trylocks := rest })

end Tape

/-- `selinux_avc_init`. -/
def selinuxAvcInit : AvcCache :=
  { slots := fun _ => [], lruHint := 0, activeNodes := 0,
    threshold := avcDefCacheThreshold, latestNotif := 0 }

/-- `avc_hash`, as an index below `AVC_CACHE_SLOTS`. -/
def avcHash (ssid tsid : U32) (tclass : U16) : Fin avcCacheSlots :=
  ⟨((ssid ^^^ (tsid <<< 2) ^^^ (tclass.zeroExtend 32 <<< 4)) &&& 0x1ff).toNat, by
    simp only [BitVec.toNat_and]
    exact Nat.lt_of_le_of_lt Nat.and_le_right (by decide)⟩

/-- `avc_xperms_decision_lookup`. -/
def avcXpermsDecisionLookup (driver : U8) (xpNode : AvcXpermsNode) :
    Option ExtendedPermsDecision :=
  xpNode.xpdHead.find? (fun xpd => xpd.driver == driver)

/-- A test through a pointer that `used` promises is not `NULL`. -/
def dataTest (data : Option ExtendedPermsData) (perm : U8) : Bool :=
  match data with
  | some d => securityXpermTest d perm
  | none => false

/-- `avc_xperms_has_perm`; `which` is one of the three `XPERMS_` values. -/
def avcXpermsHasPerm (xpd : ExtendedPermsDecision) (perm which : U8) : Bool :=
  if which = xpermsAllowed ∧ xpd.used &&& xpermsAllowed ≠ 0 then
    dataTest xpd.allowed perm
  else if which = xpermsAuditallow ∧ xpd.used &&& xpermsAuditallow ≠ 0 then
    dataTest xpd.auditallow perm
  else if which = xpermsDontaudit ∧ xpd.used &&& xpermsDontaudit ≠ 0 then
    dataTest xpd.dontaudit perm
  else false

/-- `avc_xperms_allow_perm`: the first decision of the driver is edited in place. -/
def avcXpermsAllowPerm (xpNode : AvcXpermsNode) (driver perm : U8) : AvcXpermsNode :=
  let setFirst : List ExtendedPermsDecision → List ExtendedPermsDecision :=
    List.replaceF (fun xpd =>
      if xpd.driver == driver then
        some { xpd with allowed := xpd.allowed.map (securityXpermSet · perm) }
      else none)
  { xp := { xpNode.xp with drivers := securityXpermSet xpNode.xp.drivers driver }
    xpdHead := setFirst xpNode.xpdHead }

/-- `memcpy` of a whole map between two pointees. -/
def copyData (dest src : Option ExtendedPermsData) : Option ExtendedPermsData :=
  match dest, src with
  | some _, some s => some s
  | d, _ => d

/-- Copy of the one word that holds `perm`. -/
def copyWord (perm : U8) (dest src : Option ExtendedPermsData) : Option ExtendedPermsData :=
  have hi : (perm >>> 5).toNat < 8 := shiftRight_five_lt perm
  match dest, src with
  | some d, some s => some ⟨d.p.set (perm >>> 5).toNat s.p[(perm >>> 5).toNat]⟩
  | d, _ => d

/-- `avc_copy_xperms_decision`. -/
def avcCopyXpermsDecision (dest src : ExtendedPermsDecision) : ExtendedPermsDecision :=
  { driver := src.driver
    used := src.used
    allowed := if src.used &&& xpermsAllowed ≠ 0 then copyData dest.allowed src.allowed
      else dest.allowed
    auditallow := if src.used &&& xpermsAuditallow ≠ 0 then copyData dest.auditallow src.auditallow
      else dest.auditallow
    dontaudit := if src.used &&& xpermsDontaudit ≠ 0 then copyData dest.dontaudit src.dontaudit
      else dest.dontaudit }

/-- `avc_quick_copy_xperms_decision`: only the word of `perm`; `driver` stays. -/
def avcQuickCopyXpermsDecision (perm : U8) (dest src : ExtendedPermsDecision) :
    ExtendedPermsDecision :=
  { driver := dest.driver
    used := src.used
    allowed := if src.used &&& xpermsAllowed ≠ 0 then copyWord perm dest.allowed src.allowed
      else dest.allowed
    auditallow := if src.used &&& xpermsAuditallow ≠ 0 then
        copyWord perm dest.auditallow src.auditallow
      else dest.auditallow
    dontaudit := if src.used &&& xpermsDontaudit ≠ 0 then
        copyWord perm dest.dontaudit src.dontaudit
      else dest.dontaudit }

/-- One `kmem_cache_zalloc(avc_xperms_data_cachep)` if `which` asks for it;
the outer `none` is a failed allocation. -/
def allocXpermsData (wanted : Bool) (t : Tape) : Option (Option ExtendedPermsData) × Tape :=
  if wanted then
    match t.alloc with
    | (true, t') => (some (some .zero), t')
    | (false, t') => (none, t')
  else (some none, t)

/-- `avc_xperms_decision_alloc`. -/
def avcXpermsDecisionAlloc (which : U8) (t : Tape) : Option ExtendedPermsDecision × Tape :=
  match t.alloc with
  | (false, t) => (none, t)
  | (true, t) =>
    match allocXpermsData (which &&& xpermsAllowed ≠ 0) t with
    | (none, t) => (none, t)
    | (some allowed, t) =>
      match allocXpermsData (which &&& xpermsAuditallow ≠ 0) t with
      | (none, t) => (none, t)
      | (some auditallow, t) =>
        match allocXpermsData (which &&& xpermsDontaudit ≠ 0) t with
        | (none, t) => (none, t)
        | (some dontaudit, t) =>
          (some { used := 0, driver := 0, allowed, auditallow, dontaudit }, t)

/-- `avc_add_xperms_decision`. A node without an xperms node would fault in the
source; `EFAULT` marks it. -/
def avcAddXpermsDecision (node : AvcNode) (src : ExtendedPermsDecision) (t : Tape) :
    Except Errno AvcNode × Tape :=
  match avcXpermsDecisionAlloc src.used t with
  | (none, t) => (.error .ENOMEM, t)
  | (some dest, t) =>
    match node.xpNode with
    | none => (.error .EFAULT, t)
    | some xpNode =>
      let xpNode : AvcXpermsNode :=
        { xp := { xpNode.xp with len := xpNode.xp.len + 1 }
          xpdHead := avcCopyXpermsDecision dest src :: xpNode.xpdHead }
      (.ok { node with xpNode := some xpNode }, t)

/-- The copy loop of `avc_xperms_populate`; `list_add` puts each copy in front. -/
def avcXpermsPopulateLoop :
    List ExtendedPermsDecision → List ExtendedPermsDecision → Tape →
      Option (List ExtendedPermsDecision) × Tape
  | [], dest, t => (some dest, t)
  | src :: rest, dest, t =>
    match avcXpermsDecisionAlloc src.used t with
    | (none, t) => (none, t)
    | (some xpd, t) => avcXpermsPopulateLoop rest (avcCopyXpermsDecision xpd src :: dest) t

/-- `avc_xperms_populate` into a node whose `xp_node` is still `NULL`. -/
def avcXpermsPopulate (node : AvcNode) (src : AvcXpermsNode) (t : Tape) :
    Except Errno AvcNode × Tape :=
  if src.xp.len = 0 then (.ok node, t)
  else
    match t.alloc with
    | (false, t) => (.error .ENOMEM, t)
    | (true, t) =>
      match avcXpermsPopulateLoop src.xpdHead [] t with
      | (none, t) => (.error .ENOMEM, t)
      | (some xpdHead, t) =>
        let dest : AvcXpermsNode :=
          { xp := { len := src.xp.len, drivers := src.xp.drivers }, xpdHead }
        (.ok { node with xpNode := some dest }, t)

/-- `avc_xperms_audit_required`, with the denied mask it also returns. -/
def avcXpermsAuditRequired (requested : U32) (avd : AvDecision)
    (xpd : Option ExtendedPermsDecision) (perm : U8) (result : Bool) : U32 × U32 :=
  let denied := requested &&& ~~~avd.allowed
  if denied ≠ 0 then
    let audited := denied &&& avd.auditdeny
    match xpd with
    | some x =>
      if audited ≠ 0 ∧ avcXpermsHasPerm x perm xpermsDontaudit then
        (audited &&& ~~~requested, denied)
      else (audited, denied)
    | none => (audited, denied)
  else if result then (requested, requested)
  else
    let audited := requested &&& avd.auditallow
    match xpd with
    | some x =>
      if audited ≠ 0 ∧ ¬ avcXpermsHasPerm x perm xpermsAuditallow then
        (audited &&& ~~~requested, denied)
      else (audited, denied)
    | none => (audited, denied)

/-- `avc_xperms_audit`; `slowAudit` is what `slow_avc_audit` would return. -/
def avcXpermsAudit (requested : U32) (avd : AvDecision)
    (xpd : Option ExtendedPermsDecision) (perm : U8) (result : Except Errno Unit)
    (slowAudit : Except Errno Unit) : Except Errno Unit :=
  let failed := match result with | .ok _ => false | .error _ => true
  if (avcXpermsAuditRequired requested avd xpd perm failed).1 = 0 then .ok ()
  else slowAudit

namespace AvcCache

/-- Replace the list of one slot. -/
def setSlot (c : AvcCache) (h : Fin avcCacheSlots) (nodes : List AvcNode) : AvcCache :=
  { c with slots := Function.update c.slots h nodes }

@[simp] theorem setSlot_same (c : AvcCache) (h : Fin avcCacheSlots) (nodes : List AvcNode) :
    (c.setSlot h nodes).slots h = nodes := by
  simp [setSlot]

@[simp] theorem setSlot_other (c : AvcCache) {h k : Fin avcCacheSlots} (nodes : List AvcNode)
    (hk : k ≠ h) : (c.setSlot h nodes).slots k = c.slots k := by
  simp [setSlot, hk]

end AvcCache

/-- The scan of `avc_reclaim_node` with `tries` slots left and `ecx` nodes gone.
`avc_node_delete` unlinks from the head until the slot or the quota is used up. -/
def avcReclaimScan : Nat → Nat → AvcCache → Tape → AvcCache × Tape
  | 0, _, c, t => (c, t)
  | tries + 1, ecx, c, t =>
    let hint := c.lruHint + 1
    let c := { c with lruHint := hint }
    let hvalue : Fin avcCacheSlots :=
      ⟨(hint &&& 0x1ff).toNat, by
        simp only [BitVec.toNat_and]
        exact Nat.lt_of_le_of_lt Nat.and_le_right (by decide)⟩
    match t.trylock with
    | (false, t) => avcReclaimScan tries ecx c t
    | (true, t) =>
      let gone := min (c.slots hvalue).length (avcCacheReclaim - ecx)
      let c := { c.setSlot hvalue ((c.slots hvalue).drop gone) with
        activeNodes := c.activeNodes - gone }
      if avcCacheReclaim ≤ ecx + gone then (c, t)
      else avcReclaimScan tries (ecx + gone) c t

/-- `avc_reclaim_node`. -/
def avcReclaimNode (c : AvcCache) (t : Tape) : AvcCache × Tape :=
  avcReclaimScan avcCacheSlots 0 c t

/-- `avc_alloc_node`: whether a node was allocated, and the cache after a
reclaim the new node may have triggered. -/
def avcAllocNode (c : AvcCache) (t : Tape) : Bool × AvcCache × Tape :=
  match t.alloc with
  | (false, t) => (false, c, t)
  | (true, t) =>
    let c := { c with activeNodes := c.activeNodes + 1 }
    if (c.threshold : Int) < c.activeNodes then
      match avcReclaimNode c t with
      | (c, t) => (true, c, t)
    else (true, c, t)

/-- `avc_node_populate`. -/
def avcNodePopulate (ssid tsid : U32) (tclass : U16) (avd : AvDecision) : AvcNode :=
  { ssid, tsid, tclass, avd, xpNode := none }

namespace AvcNode

/-- The key comparison of `avc_search_node`, `avc_insert` and `avc_update_node`. -/
def keyEq (node : AvcNode) (ssid tsid : U32) (tclass : U16) : Bool :=
  ssid == node.ssid && tclass == node.tclass && tsid == node.tsid

theorem keyEq_iff (node : AvcNode) (ssid tsid : U32) (tclass : U16) :
    node.keyEq ssid tsid tclass = true ↔
      ssid = node.ssid ∧ tsid = node.tsid ∧ tclass = node.tclass := by
  simp only [keyEq, Bool.and_eq_true, beq_iff_eq]
  tauto

end AvcNode

/-- `avc_search_node`. -/
def avcSearchNode (c : AvcCache) (ssid tsid : U32) (tclass : U16) : Option AvcNode :=
  (c.slots (avcHash ssid tsid tclass)).find? (·.keyEq ssid tsid tclass)

/-- `avc_lookup`. -/
def avcLookup (c : AvcCache) (ssid tsid : U32) (tclass : U16) : Option AvcNode :=
  avcSearchNode c ssid tsid tclass

/-- `avc_latest_notif_update(seqno, 1)`: whether an insertion may go on. -/
def avcLatestNotifCheck (c : AvcCache) (seqno : U32) : Except Errno Unit :=
  if seqno.toNat < c.latestNotif.toNat then .error .EAGAIN else .ok ()

/-- `avc_latest_notif_update(seqno, 0)`. -/
def avcLatestNotifUpdate (c : AvcCache) (seqno : U32) : AvcCache :=
  if c.latestNotif.toNat < seqno.toNat then { c with latestNotif := seqno } else c

/-- `avc_node_kill`. -/
def avcNodeKill (c : AvcCache) : AvcCache :=
  { c with activeNodes := c.activeNodes - 1 }

/-- `avc_node_replace` of the first node that `old` accepts. -/
def replaceFirst (old : AvcNode → Bool) (new : AvcNode) (nodes : List AvcNode) : List AvcNode :=
  nodes.replaceF (fun pos => if old pos then some new else none)

/-- The locked part of `avc_insert`: replace the node of the same key, else add
in front. -/
def avcInsertLink (c : AvcCache) (node : AvcNode) : AvcCache :=
  let h := avcHash node.ssid node.tsid node.tclass
  let same := fun pos : AvcNode => pos.keyEq node.ssid node.tsid node.tclass
  if (c.slots h).any same then
    { c.setSlot h (replaceFirst same node (c.slots h)) with activeNodes := c.activeNodes - 1 }
  else c.setSlot h (node :: c.slots h)

/-- `avc_insert`. -/
def avcInsert (c : AvcCache) (ssid tsid : U32) (tclass : U16) (avd : AvDecision)
    (xpNode : AvcXpermsNode) (t : Tape) : AvcCache × Tape :=
  match avcLatestNotifCheck c avd.seqno with
  | .error _ => (c, t)
  | .ok _ =>
    match avcAllocNode c t with
    | (false, c, t) => (c, t)
    | (true, c, t) =>
      match avcXpermsPopulate (avcNodePopulate ssid tsid tclass avd) xpNode t with
      | (.error _, t) => (avcNodeKill c, t)
      | (.ok node, t) => (avcInsertLink c node, t)

/-- The event switch of `avc_update_node`, on the private copy. -/
def avcUpdateEvent (event : AvcEvent) (perms : U32) (driver xperm : U8) (flags : U32)
    (xpd : Option ExtendedPermsDecision) (node : AvcNode) (t : Tape) :
    Except Errno AvcNode × Tape :=
  match event with
  | .grant =>
    let node := { node with avd := { node.avd with allowed := node.avd.allowed ||| perms } }
    match node.xpNode with
    | some xpNode =>
      if flags &&& avcExtendedPerms ≠ 0 then
        (.ok { node with xpNode := some (avcXpermsAllowPerm xpNode driver xperm) }, t)
      else (.ok node, t)
    | none => (.ok node, t)
  | .tryRevoke | .revoke =>
    (.ok { node with avd := { node.avd with allowed := node.avd.allowed &&& ~~~perms } }, t)
  | .auditallowEnable =>
    (.ok { node with avd := { node.avd with auditallow := node.avd.auditallow ||| perms } }, t)
  | .auditallowDisable =>
    (.ok { node with avd := { node.avd with auditallow := node.avd.auditallow &&& ~~~perms } }, t)
  | .auditdenyEnable =>
    (.ok { node with avd := { node.avd with auditdeny := node.avd.auditdeny ||| perms } }, t)
  | .auditdenyDisable =>
    (.ok { node with avd := { node.avd with auditdeny := node.avd.auditdeny &&& ~~~perms } }, t)
  | .addXperms =>
    match xpd with
    | some src => avcAddXpermsDecision node src t
    | none => (.error .EFAULT, t)
  | .reset => (.ok node, t)

/-- The locked part of `avc_update_node`, after a node was allocated. -/
def avcUpdateLocked (c : AvcCache) (event : AvcEvent) (perms : U32) (driver xperm : U8)
    (ssid tsid : U32) (tclass : U16) (seqno : U32) (xpd : Option ExtendedPermsDecision)
    (flags : U32) (t : Tape) : Except Errno Unit × AvcCache × Tape :=
  let h := avcHash ssid tsid tclass
  let isOrig := fun pos : AvcNode => pos.keyEq ssid tsid tclass && seqno == pos.avd.seqno
  match (c.slots h).find? isOrig with
  | none => (.error .ENOENT, avcNodeKill c, t)
  | some orig =>
    let node := avcNodePopulate ssid tsid tclass orig.avd
    let populated := match orig.xpNode with
      | some src => avcXpermsPopulate node src t
      | none => (.ok node, t)
    match populated with
    | (.error e, t) => (.error e, avcNodeKill c, t)
    | (.ok node, t) =>
      match avcUpdateEvent event perms driver xperm flags xpd node t with
      | (.error e, t) => (.error e, avcNodeKill c, t)
      | (.ok node, t) =>
        (.ok (), { c.setSlot h (replaceFirst isOrig node (c.slots h)) with
          activeNodes := c.activeNodes - 1 }, t)

/-- `avc_update_node`. -/
def avcUpdateNode (c : AvcCache) (event : AvcEvent) (perms : U32) (driver xperm : U8)
    (ssid tsid : U32) (tclass : U16) (seqno : U32) (xpd : Option ExtendedPermsDecision)
    (flags : U32) (t : Tape) : Except Errno Unit × AvcCache × Tape :=
  match avcAllocNode c t with
  | (false, c, t) => (.error .ENOMEM, c, t)
  | (true, c, t) =>
    avcUpdateLocked c event perms driver xperm ssid tsid tclass seqno xpd flags t

/-- One iteration of `avc_flush`: every node of the slot is deleted. -/
def avcFlushSlot (c : AvcCache) (h : Fin avcCacheSlots) : AvcCache :=
  { c.setSlot h [] with activeNodes := c.activeNodes - (c.slots h).length }

/-- The iterations of `avc_flush` from slot `i` on, `count` of them. -/
def avcFlushFrom (c : AvcCache) (i : Nat) : Nat → AvcCache
  | 0 => c
  | count + 1 =>
    if h : i < avcCacheSlots then avcFlushFrom (avcFlushSlot c ⟨i, h⟩) (i + 1) count else c

/-- `avc_flush`. -/
def avcFlush (c : AvcCache) : AvcCache := avcFlushFrom c 0 avcCacheSlots

/-- `avc_compute_av`. The driver map of the stack node is read only when
`security_compute_av` has set `len`, and then it has cleared the map first. -/
def avcComputeAv (server : SecurityServer) (c : AvcCache) (ssid tsid : U32) (tclass : U16)
    (t : Tape) : AvDecision × AvcXpermsNode × AvcCache × Tape :=
  let (avd, xp) := server.securityComputeAv ssid tsid tclass
  let xpNode : AvcXpermsNode := { xp, xpdHead := [] }
  let (c, t) := avcInsert c ssid tsid tclass avd xpNode t
  (avd, xpNode, c, t)

/-- `avc_denied`. -/
def avcDenied (enforcing : Bool) (c : AvcCache) (ssid tsid : U32) (tclass : U16)
    (requested : U32) (driver xperm : U8) (flags : U32) (avd : AvDecision) (t : Tape) :
    Except Errno Unit × AvcCache × Tape :=
  if flags &&& avcStrict ≠ 0 then (.error .EACCES, c, t)
  else if enforcing ∧ avd.flags &&& avdFlagsPermissive = 0 then (.error .EACCES, c, t)
  else
    let (_, c, t) := avcUpdateNode c .grant requested driver xperm ssid tsid tclass
      avd.seqno none flags t
    (.ok (), c, t)

/-- `avc_perm_nonode`. -/
def avcPermNonode (server : SecurityServer) (enforcing : Bool) (c : AvcCache)
    (ssid tsid : U32) (tclass : U16) (requested flags : U32) (t : Tape) :
    Except Errno Unit × AvDecision × AvcCache × Tape :=
  let (avd, _, c, t) := avcComputeAv server c ssid tsid tclass t
  if requested &&& ~~~avd.allowed ≠ 0 then
    let (rc, c, t) := avcDenied enforcing c ssid tsid tclass requested 0 0 flags avd t
    (rc, avd, c, t)
  else (.ok (), avd, c, t)

/-- `avc_has_perm_noaudit`; the decision is `none` where the source leaves it unset. -/
def avcHasPermNoaudit (server : SecurityServer) (enforcing : Bool) (c : AvcCache)
    (ssid tsid : U32) (tclass : U16) (requested flags : U32) (t : Tape) :
    Except Errno Unit × Option AvDecision × AvcCache × Tape :=
  if requested = 0 then (.error .EACCES, none, c, t)
  else
    match avcLookup c ssid tsid tclass with
    | none =>
      let (rc, avd, c, t) :=
        avcPermNonode server enforcing c ssid tsid tclass requested flags t
      (rc, some avd, c, t)
    | some node =>
      if requested &&& ~~~node.avd.allowed ≠ 0 then
        let (rc, c, t) :=
          avcDenied enforcing c ssid tsid tclass requested 0 0 flags node.avd t
        (rc, some node.avd, c, t)
      else (.ok (), some node.avd, c, t)

/-- `avc_has_extended_perms` after a decision is at hand: the requested bits are
taken away unless the decision allows the permission. -/
def avcXpermsMask (requested : U32) (xperm : U8) (avd : AvDecision)
    (xpd : ExtendedPermsDecision) : AvDecision :=
  if avcXpermsHasPerm xpd xperm xpermsAllowed then avd
  else { avd with allowed := avd.allowed &&& ~~~requested }

/-- What `avc_has_extended_perms` can answer from the node alone; `none` when the
decision of the driver must be computed. `stack` is what the three
uninitialised maps on the stack hold. -/
def avcExtendedAnswer (requested : U32) (driver xperm : U8) (stack : ExtendedPermsData)
    (avd : AvDecision) (xpNode : Option AvcXpermsNode) :
    Option (AvDecision × Option ExtendedPermsDecision) :=
  match xpNode with
  | none => some (avd, none)
  | some xpNode =>
    if xpNode.xp.len = 0 then some (avd, none)
    else
      match avcXpermsDecisionLookup driver xpNode with
      | none =>
        if ¬ securityXpermTest xpNode.xp.drivers driver then
          some ({ avd with allowed := avd.allowed &&& ~~~requested }, none)
        else none
      | some found =>
        let xpd := avcQuickCopyXpermsDecision xperm
          { used := 0, driver := 0, allowed := some stack, auditallow := some stack,
            dontaudit := some stack } found
        some (avcXpermsMask requested xperm avd xpd, some xpd)

/-- The part of `avc_has_extended_perms` between the node lookup and `decision:`. -/
def avcExtendedDecision (server : SecurityServer) (c : AvcCache) (ssid tsid : U32)
    (tclass : U16) (requested : U32) (driver xperm : U8) (stack : ExtendedPermsData)
    (avd : AvDecision) (xpNode : Option AvcXpermsNode) (t : Tape) :
    AvDecision × Option ExtendedPermsDecision × AvcCache × Tape :=
  match avcExtendedAnswer requested driver xperm stack avd xpNode with
  | some (avd, xpd) => (avd, xpd, c, t)
  | none =>
    let xpd := server.securityComputeXpermsDecision ssid tsid tclass driver
    let (_, c, t) := avcUpdateNode c .addXperms requested driver xperm ssid tsid tclass
      avd.seqno (some xpd) 0 t
    (avcXpermsMask requested xperm avd xpd, some xpd, c, t)

/-- The node of `avc_has_extended_perms`: the cached one, else the one that
`avc_compute_av` fills on the stack. -/
def avcExtendedNode (server : SecurityServer) (c : AvcCache) (ssid tsid : U32) (tclass : U16)
    (t : Tape) : AvDecision × Option AvcXpermsNode × AvcCache × Tape :=
  match avcLookup c ssid tsid tclass with
  | none =>
    let (avd, xpNode, c, t) := avcComputeAv server c ssid tsid tclass t
    (avd, some xpNode, c, t)
  | some node => (node.avd, node.xpNode, c, t)

/-- `avc_has_extended_perms`. -/
def avcHasExtendedPerms (server : SecurityServer) (enforcing : Bool) (c : AvcCache)
    (ssid tsid : U32) (tclass : U16) (requested : U32) (driver xperm : U8)
    (stack : ExtendedPermsData) (slowAudit : Except Errno Unit) (t : Tape) :
    Except Errno Unit × AvcCache × Tape :=
  if requested = 0 then (.error .EACCES, c, t)
  else
    let (avd, xpNode, c, t) := avcExtendedNode server c ssid tsid tclass t
    let (avd, xpd, c, t) :=
      avcExtendedDecision server c ssid tsid tclass requested driver xperm stack avd xpNode t
    let (rc, c, t) :=
      if requested &&& ~~~avd.allowed ≠ 0 then
        avcDenied enforcing c ssid tsid tclass requested driver xperm avcExtendedPerms avd t
      else (.ok (), c, t)
    match avcXpermsAudit requested avd xpd xperm rc slowAudit with
    | .error e => (.error e, c, t)
    | .ok _ => (rc, c, t)

end Ksrc.Source

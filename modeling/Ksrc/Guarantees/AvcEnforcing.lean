import Ksrc.Guarantees.AvcThreadSteps

/-!
# Permissive grants after a switch to enforcing

Source: `security/selinux/avc.c` (`avc_denied`, `avc_update_node`,
`avc_ss_reset`), `security/selinux/selinuxfs.c` (`sel_write_enforce`).

A thread reads the mode, and later adds the requested bits to whatever node then
has its key and sequence number. The reset of a mode switch flushes the slots but
keeps the sequence number, so the flush does not stop a grant decided before it.
-/
namespace Ksrc.Guarantees.AvcEnforcing

open Library Source AvcCacheEffects AvcThreadSteps

/-- The policy's own answer for the key of a node. -/
def policyAvd (s : AvcMachine) (ssid tsid : U32) (tclass : U16) : AvDecision :=
  (s.policy.server.securityComputeAv ssid tsid tclass).1

/-- Each bit the node allows is allowed by the policy, unless its source domain is
permissive there. -/
def WithinPolicy (s : AvcMachine) (n : AvcNode) : Prop :=
  (policyAvd s n.ssid n.tsid n.tclass).flags &&& avdFlagsPermissive = 0 →
    n.avd.allowed &&& ~~~(policyAvd s n.ssid n.tsid n.tclass).allowed = 0

/-- After the reset of a switch to enforcing has returned, and while the mode
stays, the cache allows nothing the policy does not. -/
def NoPermissiveGrant (s : AvcMachine) : Prop :=
  s.enforcing = true → s.setenforce = .finished →
    ∀ h, ∀ n ∈ s.cache.slots h, WithinPolicy s n

/-- Runs in which the policy stays. -/
def FixedPolicy (_ : AvcMachine) : AvcAction → Prop
  | .installPolicy _ => False
  | _ => True

/-- The reset of the last switch to enforcing has passed slot `h`. -/
def EnforceFlushed (s : AvcMachine) (h : Fin avcCacheSlots) : Prop :=
  match s.setenforce with
  | .idle => False
  | .flushing i => h.val < i
  | .notifying | .finished => True

/-- A grant that finds its node in a slot the reset has already flushed adds only
bits the policy allows, or serves a permissive domain. -/
def GrantInTime (s : AvcMachine) : AvcAction → Prop
  | .grant t _ => ∀ q avd, s.thread t = .grantAllocated q avd → EnforceFlushed s q.slot →
      (∃ orig ∈ s.cache.slots q.slot, orig.ssid = q.ssid ∧ orig.tsid = q.tsid ∧
        orig.tclass = q.tclass ∧ orig.avd.seqno = avd.seqno) →
      (policyAvd s q.ssid q.tsid q.tclass).flags &&& avdFlagsPermissive = 0 →
      q.requested &&& ~~~(policyAvd s q.ssid q.tsid q.tclass).allowed = 0
  | _ => True

def FixedPolicyGrantInTime (s : AvcMachine) (a : AvcAction) : Prop :=
  FixedPolicy s a ∧ GrantInTime s a

/-- A decision on its way into the cache is the policy's. -/
def InsertOk (s : AvcMachine) : AvcThread → Prop
  | .computed q avd _ | .checked q avd _ | .allocated q avd _ =>
    avd = policyAvd s q.ssid q.tsid q.tclass
  | _ => True

structure Kept (s : AvcMachine) : Prop where
  inserts : ∀ t, InsertOk s (s.thread t)
  linked : ∀ h, EnforceFlushed s h → ∀ n ∈ s.cache.slots h, WithinPolicy s n
  slots : ∀ h, ∀ n ∈ s.cache.slots h, h = avcHash n.ssid n.tsid n.tclass

theorem Kept.noPermissiveGrant {s : AvcMachine} (kept : Kept s) : NoPermissiveGrant s := by
  intro _ finished h n linked
  exact kept.linked h (by simp [EnforceFlushed, finished]) n linked

theorem kept_start {s : AvcMachine} (start : AvcStart s) : Kept s := by
  refine ⟨?_, ?_, ?_⟩
  · intro t
    simp [start.thread, InsertOk]
  · intro h _ n linked
    simp [start.cache, selinuxAvcInit] at linked
  · intro h n linked
    simp [start.cache, selinuxAvcInit] at linked

theorem policyAvd_of_policy {s s' : AvcMachine} (policy : s'.policy = s.policy) :
    policyAvd s' = policyAvd s := by
  funext ssid tsid tclass
  rw [policyAvd, policyAvd, policy]

theorem insertOk_of_policy {s s' : AvcMachine} {phase : AvcThread} (policy : s'.policy = s.policy)
    (before : InsertOk s phase) : InsertOk s' phase := by
  cases phase <;> simp only [InsertOk, policyAvd_of_policy policy] at before ⊢ <;> exact before

theorem withinPolicy_of_policy {s s' : AvcMachine} {n : AvcNode} (policy : s'.policy = s.policy)
    (before : WithinPolicy s n) : WithinPolicy s' n := by
  rw [WithinPolicy, policyAvd_of_policy policy]
  exact before

/-- The acting thread's own phase after its step. -/
theorem turn_insertOk {s s' : AvcMachine} {a : AvcAction} {t : Nat}
    (own : InsertOk s (s.thread t)) (turn : AvcTurn s t a s') : InsertOk s' (s'.thread t) := by
  cases turn with
  | computed q phase =>
    simp only [AvcMachine.setThread, Function.update_self]
    rfl
  | current q avd xpNode phase passes =>
    rw [phase] at own
    simp only [AvcMachine.setThread, Function.update_self]
    exact own
  | insertAlloc q avd xpNode tape tape' cache phase alloc =>
    rw [phase] at own
    simp only [AvcMachine.setThread, Function.update_self]
    exact own
  | _ => simp [AvcMachine.finish, AvcMachine.setThread, InsertOk]

theorem or_and_eq_zero {a b mask : U32} (left : a &&& mask = 0) (right : b &&& mask = 0) :
    (a ||| b) &&& mask = 0 := by
  ext i bound
  have leftBit := congrArg (·.getLsbD i) left
  have rightBit := congrArg (·.getLsbD i) right
  simp only [BitVec.getLsbD_and] at leftBit rightBit
  simp_all
  rintro (set | set)
  · exact leftBit set
  · exact rightBit set

theorem right_eq_zero_of_or_and {a b mask : U32} (both : (a ||| b) &&& mask = 0) :
    b &&& mask = 0 := by
  ext i bound
  have bit := congrArg (·.getLsbD i) both
  simp only [BitVec.getLsbD_and, BitVec.getLsbD_or] at bit
  simp_all

/-- An updated node is within the policy if the vector the event leaves is. -/
theorem Updated.withinPolicy {s : AvcMachine} {orig n : AvcNode} {event : AvcEvent}
    {perms : U32} (copy : Updated orig n event perms)
    (added : (policyAvd s orig.ssid orig.tsid orig.tclass).flags &&& avdFlagsPermissive = 0 →
      eventAllowed event perms orig.avd.allowed &&&
        ~~~(policyAvd s orig.ssid orig.tsid orig.tclass).allowed = 0) :
    WithinPolicy s n := by
  intro enforced
  rw [copy.ssid, copy.tsid, copy.tclass] at enforced ⊢
  rw [copy.allowed]
  exact added enforced

theorem threadStep_kept {s s' : AvcMachine} {a : AvcAction} (kept : Kept s)
    (meets : GrantInTime s a) (stepped : s.threadStep a = some s') : Kept s' := by
  obtain ⟨t, acts, turn⟩ := threadStep_cases stepped
  have frame := turn.frame
  have flushedSame : ∀ h, EnforceFlushed s' h → EnforceFlushed s h := by
    intro h flushed
    simpa only [EnforceFlushed, frame.setenforce] using flushed
  refine ⟨?_, ?_, ?_⟩
  · intro t'
    by_cases equal : t' = t
    · subst equal
      exact turn_insertOk (kept.inserts t') turn
    · rw [frame.thread t' equal]
      exact insertOk_of_policy frame.policy (kept.inserts t')
  · intro h flushed n linked
    have before := kept.linked h (flushedSame h flushed)
    refine withinPolicy_of_policy frame.policy ?_
    rcases threadStep_linked stepped linked with old | ⟨t₁, tape, q, xpNode, new⟩ |
      ⟨orig, member, perms, copy⟩ | ⟨orig, member, t₁, tape, q, avd, grant, copy⟩
    · exact before n old
    · have answer := kept.inserts t₁
      rw [new.phase] at answer
      intro _
      rw [new.ssid, new.tsid, new.tclass, answer, BitVec.and_not_self]
    · exact Updated.withinPolicy copy (before orig member)
    · refine Updated.withinPolicy copy fun enforced => ?_
      have old := before orig member enforced
      have slot : h = q.slot := by
        rw [kept.slots h orig member, grant.ssid, grant.tsid, grant.tclass]
        rfl
      subst slot
      rw [grant.ssid, grant.tsid, grant.tclass] at enforced old ⊢
      rw [grant.action] at meets
      have added := meets q avd grant.phase (flushedSame q.slot flushed)
        ⟨orig, member, grant.ssid, grant.tsid, grant.tclass, grant.seqno⟩ enforced
      exact or_and_eq_zero old added
  · intro h n linked
    rcases threadStep_linked stepped linked with old | ⟨t₁, tape, q, xpNode, new⟩ |
      ⟨orig, member, perms, copy⟩ | ⟨orig, member, t₁, tape, q, avd, -, copy⟩
    · exact kept.slots h n old
    · rw [new.slot, new.ssid, new.tsid, new.tclass]
      rfl
    · rw [copy.ssid, copy.tsid, copy.tclass]
      exact kept.slots h orig member
    · rw [copy.ssid, copy.tsid, copy.tclass]
      exact kept.slots h orig member

/-- A step that only takes nodes away keeps `Kept`, if every slot that newly
counts as flushed is empty. -/
theorem kept_of_suffix {s s' : AvcMachine} (kept : Kept s)
    (suffix : ∀ h, s'.cache.slots h <:+ s.cache.slots h)
    (thread : s'.thread = s.thread) (policy : s'.policy = s.policy)
    (passed : ∀ h, EnforceFlushed s' h → EnforceFlushed s h ∨ s'.cache.slots h = []) :
    Kept s' := by
  refine ⟨?_, ?_, ?_⟩
  · intro t
    rw [thread]
    exact insertOk_of_policy policy (kept.inserts t)
  · intro h flushed n linked
    rcases passed h flushed with before | empty
    · exact withinPolicy_of_policy policy (kept.linked h before n ((suffix h).subset linked))
    · simp [empty] at linked
  · intro h n linked
    exact kept.slots h n ((suffix h).subset linked)

theorem avcLatestNotifUpdate_suffix (c : AvcCache) (seqno : U32) (h : Fin avcCacheSlots) :
    (avcLatestNotifUpdate c seqno).slots h <:+ c.slots h := by
  have same := avcLatestNotifUpdate_slots c seqno
  exact same ▸ List.suffix_rfl

theorem writerStep_kept {s s' : AvcMachine} {a : AvcAction} (kept : Kept s)
    (meets : FixedPolicy s a) (stepped : s.writerStep a = some s') : Kept s' := by
  have same : ∀ h, s.cache.slots h <:+ s.cache.slots h := fun _ => List.suffix_rfl
  cases writerStep_cases stepped with
  | installed server phase => exact absurd meets id
  | waited phase => exact kept_of_suffix kept same rfl rfl fun _ flushed => .inl flushed
  | commitFlushed i phase bound =>
    exact kept_of_suffix kept (avcFlushSlot_shrunk _ _).suffix rfl rfl fun _ flushed => .inl flushed
  | commitEmptied i phase past => exact kept_of_suffix kept same rfl rfl fun _ flushed => .inl flushed
  | commitNotified phase =>
    exact kept_of_suffix kept (avcLatestNotifUpdate_suffix _ _) rfl rfl fun _ flushed => .inl flushed
  | unchanged value same => exact kept
  | switched value phase differs =>
    have cleared : ∀ h, ¬ EnforceFlushed { s with
        enforcing := value, setenforce := if value then .flushing 0 else .idle } h := by
      intro h
      cases value <;> simp [EnforceFlushed]
    exact kept_of_suffix kept same rfl rfl fun h now => absurd now (cleared h)
  | enforceFlushed i phase bound =>
    refine kept_of_suffix kept (avcFlushSlot_shrunk _ _).suffix rfl rfl fun h flushed => ?_
    by_cases equal : h = ⟨i, bound⟩
    · subst equal
      exact .inr (avcFlushSlot_same _ _)
    · left
      have apart : h.val ≠ i := fun same => equal (Fin.ext same)
      have passed : h.val < i + 1 := flushed
      simp only [EnforceFlushed, phase]
      omega
  | enforceEmptied i phase past =>
    refine kept_of_suffix kept same rfl rfl fun h _ => .inl ?_
    have below := h.isLt
    simp only [EnforceFlushed, phase]
    omega
  | enforceNotified phase =>
    refine kept_of_suffix kept (avcLatestNotifUpdate_suffix _ _) rfl rfl fun h _ => .inl ?_
    simp [EnforceFlushed, phase]

/-- In every run in which no grant comes after the flush of its slot, the cache
allows nothing beyond the policy once the reset has returned. -/
theorem setenforce_no_permissive_grant {s : AvcMachine}
    (run : avcMachine.Reachable FixedPolicyGrantInTime s) : NoPermissiveGrant s := by
  refine Kept.noPermissiveGrant (run.invariant (fun _ => kept_start) ?_)
  intro s a s' kept meets stepped
  simp only [avcMachine, avcStep] at stepped
  split at stepped
  · exact writerStep_kept kept meets.1 stepped
  · exact threadStep_kept kept meets.2 stepped

/-- A write of `1` to `enforce` with its whole reset. -/
def wholeSwitch : List AvcAction :=
  [.writeEnforce true] ++ List.replicate (avcCacheSlots + 1) .enforceFlush ++ [.enforceNotify]

/-- The switch runs to its end and leaves an empty cache. -/
theorem exec_wholeSwitch {s : AvcMachine} (idle : s.setenforce = .idle)
    (permissive : s.enforcing = false) :
    avcMachine.exec s wholeSwitch = some { s with
      enforcing := true
      setenforce := .finished
      cache := avcLatestNotifUpdate (avcFlush s.cache) 0
      resets := 0 :: s.resets } := by
  have first : avcMachine.exec s [.writeEnforce true] = some { s with
      enforcing := true, setenforce := .flushing 0 } := by
    simp [Machine.exec, avcMachine, avcStep, AvcAction.ofWriter, AvcMachine.writerStep, idle,
      permissive]
  have flushed := exec_enforceFlush (s := { s with
      enforcing := true, setenforce := .flushing 0 }) rfl (Nat.zero_add avcCacheSlots)
  rw [wholeSwitch, Machine.exec_append, Machine.exec_append, first, Option.bind_some, flushed,
    Option.bind_some]
  simp only [Machine.exec, avcMachine, avcStep, AvcAction.ofWriter, AvcMachine.writerStep,
    avcFlush, if_true, Option.bind_some]

theorem wholeSwitch_fixed {a : AvcAction} (member : a ∈ wholeSwitch) (s : AvcMachine) :
    FixedPolicyGrantInTime s a := by
  simp only [wholeSwitch, List.cons_append, List.nil_append, List.mem_cons, List.mem_append,
    List.mem_replicate, List.not_mem_nil, or_false] at member
  rcases member with rfl | ⟨-, rfl⟩ | rfl <;> exact ⟨trivial, trivial⟩

/-- A grant finds the only node of its slot and adds the requested bits to it. -/
theorem avcUpdateLocked_grant_only {c : AvcCache} {node : AvcNode} {perms flags seqno : U32}
    {driver xperm : U8} (only : c.slots (avcHash node.ssid node.tsid node.tclass) = [node])
    (plain : node.xpNode = none) (number : node.avd.seqno = seqno) (t : Tape) :
    { node with avd := { node.avd with allowed := node.avd.allowed ||| perms } } ∈
      (avcUpdateLocked c .grant perms driver xperm node.ssid node.tsid node.tclass seqno none flags
        t).2.1.slots (avcHash node.ssid node.tsid node.tclass) := by
  subst number
  simp [avcUpdateLocked, only, AvcNode.keyEq, plain, avcNodePopulate, avcUpdateEvent,
    replaceFirst]

/-- A grant decided in permissive mode, when another thread re-inserts the node
after the whole reset, leaves a bit the policy does not allow. -/
theorem late_grant_exceeds_policy {s : AvcMachine} {t u : Nat} {q : AvcQuery}
    {avd : AvDecision} (apart : u ≠ t) (other : s.thread u = .idle)
    (pending : s.thread t = .grantAllocated q avd) (idle : s.setenforce = .idle)
    (permissive : s.enforcing = false) (bare : q.extended = false)
    (plain : (s.policy.server.securityComputeAv q.ssid q.tsid q.tclass).2.len = 0)
    (current : avd.seqno = s.policy.latestGranting)
    (notified : ¬ s.policy.latestGranting.toNat < s.cache.latestNotif.toNat)
    (enforced : (policyAvd s q.ssid q.tsid q.tclass).flags &&& avdFlagsPermissive = 0)
    (exceeds : q.requested &&& ~~~(policyAvd s q.ssid q.tsid q.tclass).allowed ≠ 0) :
    ∃ s', avcMachine.Reaches FixedPolicy s s' ∧ ¬ NoPermissiveGrant s' := by
  let answer := policyAvd s q.ssid q.tsid q.tclass
  let xpNode : AvcXpermsNode :=
    { xp := (s.policy.server.securityComputeAv q.ssid q.tsid q.tclass).2, xpdHead := [] }
  let node := avcNodePopulate q.ssid q.tsid q.tclass answer
  -- the reset empties the cache and keeps the sequence number
  let c₁ := avcLatestNotifUpdate (avcFlush s.cache) 0
  have empty₁ : ∀ h, c₁.slots h = [] := by
    intro h
    simp only [c₁, avcLatestNotifUpdate_slots]
    exact avcFlush_empty _ h
  have notif₁ : c₁.latestNotif = s.cache.latestNotif := by
    have kept := (avcFlushFrom_shrunk s.cache 0 avcCacheSlots).latestNotif
    have same : ∀ c : AvcCache, avcLatestNotifUpdate c 0 = c := by
      intro c
      simp [avcLatestNotifUpdate]
    simp only [c₁, same]
    exact kept
  -- the other thread misses, computes and links the policy's decision
  obtain ⟨c₂, tape₂, alloc₂⟩ : ∃ c₂ tape₂, avcAllocNode c₁ ⟨[], []⟩ = (true, c₂, tape₂) := by
    simp only [avcAllocNode, Tape.alloc]
    split <;> exact ⟨_, _, rfl⟩
  have empty₂ : ∀ h, c₂.slots h = [] := by
    intro h
    have shrunk := (avcAllocNode_shrunk c₁ ⟨[], []⟩).suffix h
    rw [alloc₂, empty₁ h] at shrunk
    exact List.suffix_nil.mp shrunk
  have only : (avcInsertLink c₂ node).slots (avcHash node.ssid node.tsid node.tclass) =
      [node] := by
    simp [avcInsertLink, empty₂]
  let s₁ : AvcMachine := { s with
    enforcing := true, setenforce := .finished, cache := c₁, resets := 0 :: s.resets }
  let s₂ := s₁.setThread u (.missed q)
  let s₃ := s₂.setThread u (.computed q answer xpNode)
  let s₄ := s₃.setThread u (.checked q answer xpNode)
  let s₅ := ({ s₄ with cache := c₂ } : AvcMachine).setThread u (.allocated q answer xpNode)
  let s₆ := ({ s₅ with cache := avcInsertLink c₂ node } : AvcMachine).setThread u
    (.answered q answer (some xpNode))
  have switched : avcMachine.Reaches FixedPolicy s s₁ :=
    Machine.exec_reaches_guard (exec_wholeSwitch idle permissive)
      fun a member st => (wholeSwitch_fixed member st).1
  have run₂ : avcMachine.Reaches FixedPolicy s s₂ := switched.snoc (.lookup u q) trivial (by
    simp [avcMachine, avcStep, AvcAction.ofWriter, AvcMachine.threadStep, s₁, other, avcLookup,
      avcSearchNode, empty₁, AvcMachine.readLock, bare, s₂])
  have run₃ : avcMachine.Reaches FixedPolicy s s₃ := run₂.snoc (.computeAv u) trivial (by
    simp [avcMachine, avcStep, AvcAction.ofWriter, AvcMachine.threadStep, s₂, s₃,
      AvcMachine.setThread, s₁, answer, policyAvd, xpNode])
  have number : answer.seqno = s.policy.latestGranting := s.policy.stamped _ _ _
  have run₄ : avcMachine.Reaches FixedPolicy s s₄ := run₃.snoc (.notifCheck u) trivial (by
    simp [avcMachine, avcStep, AvcAction.ofWriter, AvcMachine.threadStep, s₂, s₃, s₄,
      AvcMachine.setThread, s₁, avcLatestNotifCheck, number, notif₁, notified])
  have run₅ : avcMachine.Reaches FixedPolicy s s₅ := run₄.snoc (.allocNode u ⟨[], []⟩) trivial (by
    simp [avcMachine, avcStep, AvcAction.ofWriter, AvcMachine.threadStep, s₂, s₃, s₄, s₅,
      AvcMachine.setThread, s₁, alloc₂])
  have run₆ : avcMachine.Reaches FixedPolicy s s₆ := run₅.snoc (.link u ⟨[], []⟩) trivial (by
    simp [avcMachine, avcStep, AvcAction.ofWriter, AvcMachine.threadStep, s₅, s₆,
      AvcMachine.setThread, avcXpermsPopulate, xpNode, plain, node])
  have still : s₆.thread t = .grantAllocated q avd := by
    simp [s₆, s₅, s₄, s₃, s₂, s₁, AvcMachine.setThread, Ne.symm apart, pending]
  have run₇ := run₆.snoc (.grant t ⟨[], []⟩) trivial (by
    simp only [avcMachine, avcStep, AvcAction.ofWriter, AvcMachine.threadStep, still]
    rfl)
  refine ⟨_, run₇, fun within => ?_⟩
  have granted := within rfl rfl _ _
    (avcUpdateLocked_grant_only only rfl (number.trans current.symm) ⟨[], []⟩) enforced
  exact exceeds (right_eq_zero_of_or_and granted)

/-- Thread `t` inserts a decision, is denied, reads a permissive mode and has
allocated the copy its grant will link. -/
def upToGrant (t : Nat) (q : AvcQuery) : List AvcAction :=
  insertUpToAlloc t q ++ [.link t ⟨[], []⟩, .extendedAnswer t .zero, .decide t,
    .readEnforcing t, .allocNode t ⟨[], []⟩]

theorem permissive_grant_survives :
    ¬ ∀ s, avcMachine.Reachable FixedPolicy s → NoPermissiveGrant s := by
  intro claim
  obtain ⟨s, ran, pending, other, idle, permissive, plain, current, notified, enforced, exceeds⟩ :
      ∃ s, avcMachine.exec (bootMachine (constantServer 0) false)
          (upToGrant 0 (plainQuery 1 2 3)) = some s ∧
        s.thread 0 = .grantAllocated (plainQuery 1 2 3) (policyAvd s 1 2 3) ∧
        s.thread 1 = .idle ∧ s.setenforce = .idle ∧ s.enforcing = false ∧
        (s.policy.server.securityComputeAv 1 2 3).2.len = 0 ∧
        (policyAvd s 1 2 3).seqno = s.policy.latestGranting ∧
        ¬ s.policy.latestGranting.toNat < s.cache.latestNotif.toNat ∧
        (policyAvd s 1 2 3).flags &&& avdFlagsPermissive = 0 ∧
        (plainQuery 1 2 3).requested &&& ~~~(policyAvd s 1 2 3).allowed ≠ 0 :=
    ⟨_, rfl, rfl, rfl, rfl, rfl, rfl, rfl, Nat.lt_irrefl 0, rfl, by decide⟩
  have before : avcMachine.Reaches FixedPolicy _ s := Machine.exec_reaches_guard ran (by
    intro a member st
    simp only [upToGrant, insertUpToAlloc, List.cons_append, List.nil_append, List.mem_cons,
      List.not_mem_nil, or_false] at member
    rcases member with rfl | rfl | rfl | rfl | rfl | rfl | rfl | rfl | rfl <;> trivial)
  obtain ⟨s', run, exceeded⟩ := late_grant_exceeds_policy (by decide) other pending idle permissive
    rfl plain current notified enforced exceeds
  exact exceeded (claim s' ⟨_, bootMachine_start _ _, before.trans run⟩)

/-- A grant made in time is flushed by the switch. -/
theorem setenforce_no_permissive_grant_flushed :
    ∃ s s', avcMachine.exec (bootMachine (constantServer 0) false)
        (upToGrant 0 (plainQuery 1 2 3) ++ [.grant 0 ⟨[], []⟩]) = some s ∧
      (∃ n ∈ s.cache.slots (avcHash 1 2 3), ¬ WithinPolicy s n) ∧
      avcMachine.exec s wholeSwitch = some s' ∧ s'.setenforce = .finished ∧
      NoPermissiveGrant s' := by
  obtain ⟨pending, ran, notYet⟩ : ∃ pending,
      avcMachine.exec (bootMachine (constantServer 0) false) (upToGrant 0 (plainQuery 1 2 3)) =
        some pending ∧ pending.setenforce = .idle := ⟨_, rfl, rfl⟩
  obtain ⟨s, granted, idle, permissive, node, linked, exceeds⟩ : ∃ s,
      avcMachine.exec (bootMachine (constantServer 0) false)
        (upToGrant 0 (plainQuery 1 2 3) ++ [.grant 0 ⟨[], []⟩]) = some s ∧
      s.setenforce = .idle ∧ s.enforcing = false ∧
      ∃ n, s.cache.slots (avcHash 1 2 3) = [n] ∧ ¬ WithinPolicy s n :=
    ⟨_, rfl, rfl, rfl, _, rfl, fun within => absurd (within rfl) (by decide)⟩
  have stepped : avcMachine.step pending (.grant 0 ⟨[], []⟩) = some s := by
    rw [Machine.exec_append, ran, Option.bind_some] at granted
    simpa [Machine.exec] using granted
  have switched := exec_wholeSwitch idle permissive
  refine ⟨s, _, granted, ⟨node, linked ▸ List.mem_cons_self, exceeds⟩, switched, rfl, ?_⟩
  have before : avcMachine.Reaches FixedPolicyGrantInTime _ pending :=
    Machine.exec_reaches_guard ran (by
      intro a member st
      simp only [upToGrant, insertUpToAlloc, List.cons_append, List.nil_append, List.mem_cons,
        List.not_mem_nil, or_false] at member
      rcases member with rfl | rfl | rfl | rfl | rfl | rfl | rfl | rfl | rfl <;>
        exact ⟨trivial, trivial⟩)
  have inTime : FixedPolicyGrantInTime pending (.grant 0 ⟨[], []⟩) := by
    refine ⟨trivial, fun q avd _ flushed => ?_⟩
    simp [EnforceFlushed, notYet] at flushed
  have after : avcMachine.Reaches FixedPolicyGrantInTime s _ :=
    Machine.exec_reaches_guard switched fun a member st => wholeSwitch_fixed member st
  exact setenforce_no_permissive_grant
    ⟨_, bootMachine_start _ _, (before.snoc _ inTime stepped).trans after⟩

end Ksrc.Guarantees.AvcEnforcing

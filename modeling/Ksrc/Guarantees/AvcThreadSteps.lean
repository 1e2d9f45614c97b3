import Ksrc.Guarantees.AvcCacheEffects
import Ksrc.Source.AvcThreads

/-!
# What one step of a thread can do

Source: `security/selinux/avc.c`. A thread changes its own phase, its own place
among the readers and the slots; everything else is framed here once, so that an
invariant of the machine only has to look at the slots and at one phase.
-/
namespace Ksrc.Guarantees.AvcThreadSteps

open Library Source AvcCacheEffects

/-- The thread that takes the step; writers' actions have none. -/
def owner : AvcAction → Option Nat
  | .lookup t _ | .computeAv t | .notifCheck t | .allocNode t _ | .link t _
  | .extendedAnswer t _ | .computeXperms t | .addXperms t _ | .decide t
  | .readEnforcing t | .grant t _ => some t
  | _ => none

/-- What a thread can do next: what the action needs of its phase, and what it makes of the
machine. -/
inductive AvcTurn (s : AvcMachine) (t : Nat) : AvcAction → AvcMachine → Prop
  | missed (q : AvcQuery) (idle : s.thread t = .idle)
      (absent : avcLookup s.cache q.ssid q.tsid q.tclass = none) :
      AvcTurn s t (.lookup t q) ((s.readLock t q).setThread t (.missed q))
  | found (q : AvcQuery) (node : AvcNode) (idle : s.thread t = .idle)
      (present : avcLookup s.cache q.ssid q.tsid q.tclass = some node) :
      AvcTurn s t (.lookup t q) ((s.readLock t q).setThread t (.answered q node.avd node.xpNode))
  | computed (q : AvcQuery) (phase : s.thread t = .missed q) :
      AvcTurn s t (.computeAv t) (s.setThread t (.computed q
        (s.policy.server.securityComputeAv q.ssid q.tsid q.tclass).1
        { xp := (s.policy.server.securityComputeAv q.ssid q.tsid q.tclass).2, xpdHead := [] }))
  | current (q : AvcQuery) (avd : AvDecision) (xpNode : AvcXpermsNode)
      (phase : s.thread t = .computed q avd xpNode)
      (passes : avcLatestNotifCheck s.cache avd.seqno = .ok ()) :
      AvcTurn s t (.notifCheck t) (s.setThread t (.checked q avd xpNode))
  | outdated (q : AvcQuery) (avd : AvDecision) (xpNode : AvcXpermsNode) (e : Errno)
      (phase : s.thread t = .computed q avd xpNode)
      (fails : avcLatestNotifCheck s.cache avd.seqno = .error e) :
      AvcTurn s t (.notifCheck t) (s.setThread t (.answered q avd (some xpNode)))
  | insertAlloc (q : AvcQuery) (avd : AvDecision) (xpNode : AvcXpermsNode) (tape tape' : Tape)
      (cache : AvcCache) (phase : s.thread t = .checked q avd xpNode)
      (alloc : avcAllocNode s.cache tape = (true, cache, tape')) :
      AvcTurn s t (.allocNode t tape) ({ s with cache }.setThread t (.allocated q avd xpNode))
  | insertNoAlloc (q : AvcQuery) (avd : AvDecision) (xpNode : AvcXpermsNode) (tape tape' : Tape)
      (cache : AvcCache) (phase : s.thread t = .checked q avd xpNode)
      (alloc : avcAllocNode s.cache tape = (false, cache, tape')) :
      AvcTurn s t (.allocNode t tape)
        ({ s with cache }.setThread t (.answered q avd (some xpNode)))
  | addAlloc (q : AvcQuery) (avd : AvDecision) (xpd : ExtendedPermsDecision) (tape tape' : Tape)
      (cache : AvcCache) (phase : s.thread t = .adding q avd xpd)
      (alloc : avcAllocNode s.cache tape = (true, cache, tape')) :
      AvcTurn s t (.allocNode t tape) ({ s with cache }.setThread t (.addAllocated q avd xpd))
  | addNoAlloc (q : AvcQuery) (avd : AvDecision) (xpd : ExtendedPermsDecision) (tape tape' : Tape)
      (cache : AvcCache) (phase : s.thread t = .adding q avd xpd)
      (alloc : avcAllocNode s.cache tape = (false, cache, tape')) :
      AvcTurn s t (.allocNode t tape) ({ s with cache }.setThread t
        (.decided q (avcXpermsMask q.requested q.xperm avd xpd)))
  | grantAlloc (q : AvcQuery) (avd : AvDecision) (tape tape' : Tape) (cache : AvcCache)
      (phase : s.thread t = .granting q avd)
      (alloc : avcAllocNode s.cache tape = (true, cache, tape')) :
      AvcTurn s t (.allocNode t tape) ({ s with cache }.setThread t (.grantAllocated q avd))
  | grantNoAlloc (q : AvcQuery) (avd : AvDecision) (tape tape' : Tape) (cache : AvcCache)
      (phase : s.thread t = .granting q avd)
      (alloc : avcAllocNode s.cache tape = (false, cache, tape')) :
      AvcTurn s t (.allocNode t tape) ({ s with cache }.finish t)
  | linked (q : AvcQuery) (avd : AvDecision) (xpNode : AvcXpermsNode) (node : AvcNode)
      (tape tape' : Tape) (phase : s.thread t = .allocated q avd xpNode)
      (populated : avcXpermsPopulate (avcNodePopulate q.ssid q.tsid q.tclass avd) xpNode tape =
        (.ok node, tape')) :
      AvcTurn s t (.link t tape) ({ s with cache := avcInsertLink s.cache node }.setThread t
        (.answered q avd (some xpNode)))
  | killed (q : AvcQuery) (avd : AvDecision) (xpNode : AvcXpermsNode) (e : Errno)
      (tape tape' : Tape) (phase : s.thread t = .allocated q avd xpNode)
      (unpopulated : avcXpermsPopulate (avcNodePopulate q.ssid q.tsid q.tclass avd) xpNode tape =
        (.error e, tape')) :
      AvcTurn s t (.link t tape) ({ s with cache := avcNodeKill s.cache }.setThread t
        (.answered q avd (some xpNode)))
  | decided (q : AvcQuery) (avd avd' : AvDecision) (xpNode : Option AvcXpermsNode)
      (stack : ExtendedPermsData) (phase : s.thread t = .answered q avd xpNode)
      (answer : if q.extended then
          (avcExtendedAnswer q.requested q.driver q.xperm stack avd xpNode).map Prod.fst = some avd'
        else avd' = avd) :
      AvcTurn s t (.extendedAnswer t stack) (s.setThread t (.decided q avd'))
  | unlocked (q : AvcQuery) (avd : AvDecision) (xpNode : Option AvcXpermsNode)
      (stack : ExtendedPermsData) (phase : s.thread t = .answered q avd xpNode)
      (extended : q.extended = true)
      (unanswered : avcExtendedAnswer q.requested q.driver q.xperm stack avd xpNode = none) :
      AvcTurn s t (.extendedAnswer t stack) ((s.readUnlock t).setThread t (.unlocked q avd))
  | xpermsComputed (q : AvcQuery) (avd : AvDecision) (phase : s.thread t = .unlocked q avd) :
      AvcTurn s t (.computeXperms t) ((s.readLock t q).setThread t (.adding q avd
        (s.policy.server.securityComputeXpermsDecision q.ssid q.tsid q.tclass q.driver)))
  | xpermsAdded (q : AvcQuery) (avd : AvDecision) (xpd : ExtendedPermsDecision) (tape : Tape)
      (phase : s.thread t = .addAllocated q avd xpd) :
      AvcTurn s t (.addXperms t tape) ({ s with cache :=
          (avcUpdateLocked s.cache .addXperms q.requested q.driver q.xperm q.ssid q.tsid q.tclass
            avd.seqno (some xpd) 0 tape).2.1 }.setThread t
        (.decided q (avcXpermsMask q.requested q.xperm avd xpd)))
  | denied (q : AvcQuery) (avd : AvDecision) (phase : s.thread t = .decided q avd)
      (denies : q.requested &&& ~~~avd.allowed ≠ 0) :
      AvcTurn s t (.decide t) (s.setThread t (.denied q avd))
  | allowed (q : AvcQuery) (avd : AvDecision) (phase : s.thread t = .decided q avd)
      (allows : q.requested &&& ~~~avd.allowed = 0) : AvcTurn s t (.decide t) (s.finish t)
  | refused (q : AvcQuery) (avd : AvDecision) (phase : s.thread t = .denied q avd)
      (refuses : q.deniedFlags &&& avcStrict ≠ 0 ∨
        s.enforcing = true ∧ avd.flags &&& avdFlagsPermissive = 0) :
      AvcTurn s t (.readEnforcing t) (s.finish t)
  | permitted (q : AvcQuery) (avd : AvDecision) (phase : s.thread t = .denied q avd)
      (permits : ¬ (s.enforcing = true ∧ avd.flags &&& avdFlagsPermissive = 0)) :
      AvcTurn s t (.readEnforcing t) (s.setThread t (.granting q avd))
  | granted (q : AvcQuery) (avd : AvDecision) (tape : Tape)
      (phase : s.thread t = .grantAllocated q avd) :
      AvcTurn s t (.grant t tape) ({ s with cache :=
          (avcUpdateLocked s.cache .grant q.requested q.driver q.xperm q.ssid q.tsid q.tclass
            avd.seqno none q.deniedFlags tape).2.1 }.finish t)

theorem threadStep_cases {s s' : AvcMachine} {a : AvcAction}
    (stepped : s.threadStep a = some s') : ∃ t, owner a = some t ∧ AvcTurn s t a s' := by
  unfold AvcMachine.threadStep at stepped
  cases a with
  | lookup t q =>
    refine ⟨t, rfl, ?_⟩
    dsimp only at stepped
    split at stepped
    · rename_i idle
      split at stepped <;> cases stepped <;> rename_i here
      · exact .missed q idle here
      · exact .found q _ idle here
    · cases stepped
  | computeAv t =>
    refine ⟨t, rfl, ?_⟩
    dsimp only at stepped
    split at stepped
    · rename_i q phase
      cases stepped
      exact .computed q phase
    · cases stepped
  | notifCheck t =>
    refine ⟨t, rfl, ?_⟩
    dsimp only at stepped
    split at stepped
    · rename_i q avd xpNode phase
      split at stepped <;> cases stepped <;> rename_i outcome
      · exact .current q avd xpNode phase outcome
      · exact .outdated q avd xpNode _ phase outcome
    · cases stepped
  | allocNode t tape =>
    refine ⟨t, rfl, ?_⟩
    dsimp only at stepped
    split at stepped
    · rename_i q avd xpNode phase
      split at stepped <;> cases stepped <;> rename_i alloc
      · exact .insertAlloc q avd xpNode tape _ _ phase alloc
      · exact .insertNoAlloc q avd xpNode tape _ _ phase alloc
    · rename_i q avd xpd phase
      split at stepped <;> cases stepped <;> rename_i alloc
      · exact .addAlloc q avd xpd tape _ _ phase alloc
      · exact .addNoAlloc q avd xpd tape _ _ phase alloc
    · rename_i q avd phase
      split at stepped <;> cases stepped <;> rename_i alloc
      · exact .grantAlloc q avd tape _ _ phase alloc
      · exact .grantNoAlloc q avd tape _ _ phase alloc
    · cases stepped
  | link t tape =>
    refine ⟨t, rfl, ?_⟩
    dsimp only at stepped
    split at stepped
    · rename_i q avd xpNode phase
      split at stepped <;> cases stepped <;> rename_i populated
      · exact .killed q avd xpNode _ tape _ phase populated
      · exact .linked q avd xpNode _ tape _ phase populated
    · cases stepped
  | extendedAnswer t stack =>
    refine ⟨t, rfl, ?_⟩
    dsimp only at stepped
    split at stepped
    · rename_i q avd xpNode phase
      split at stepped
      · rename_i extended
        split at stepped <;> cases stepped <;> rename_i answer
        · refine .decided q avd _ xpNode stack phase ?_
          rw [if_pos extended, answer]
          rfl
        · exact .unlocked q avd xpNode stack phase extended answer
      · rename_i plain
        cases stepped
        refine .decided q avd avd xpNode stack phase ?_
        rw [if_neg plain]
    · cases stepped
  | computeXperms t =>
    refine ⟨t, rfl, ?_⟩
    dsimp only at stepped
    split at stepped
    · rename_i q avd phase
      cases stepped
      exact .xpermsComputed q avd phase
    · cases stepped
  | addXperms t tape =>
    refine ⟨t, rfl, ?_⟩
    dsimp only at stepped
    split at stepped
    · rename_i q avd xpd phase
      cases stepped
      exact .xpermsAdded q avd xpd tape phase
    · cases stepped
  | decide t =>
    refine ⟨t, rfl, ?_⟩
    dsimp only at stepped
    split at stepped
    · rename_i q avd phase
      split at stepped <;> cases stepped <;> rename_i denies
      · exact .denied q avd phase denies
      · exact .allowed q avd phase (not_not.mp denies)
    · cases stepped
  | readEnforcing t =>
    refine ⟨t, rfl, ?_⟩
    dsimp only at stepped
    split at stepped
    · rename_i q avd phase
      split at stepped
      · rename_i strict
        cases stepped
        exact .refused q avd phase (.inl strict)
      · split at stepped <;> cases stepped <;> rename_i enforced
        · exact .refused q avd phase (.inr enforced)
        · exact .permitted q avd phase enforced
    · cases stepped
  | grant t tape =>
    refine ⟨t, rfl, ?_⟩
    dsimp only at stepped
    split at stepped
    · rename_i q avd phase
      cases stepped
      exact .granted q avd tape phase
    · cases stepped
  | _ => cases stepped

/-- What a commit or a write to `enforce` can do next. -/
inductive WriterTurn (s : AvcMachine) : AvcAction → AvcMachine → Prop
  | installed (server : SecurityServer) (phase : s.commit = .idle) :
      WriterTurn s (.installPolicy server)
        { s with policy := .make server (s.policy.latestGranting + 1), commit := .waiting s.readers }
  | waited (phase : s.commit = .waiting []) :
      WriterTurn s .gracePeriod { s with commit := .flushing 0 }
  | commitFlushed (i : Nat) (phase : s.commit = .flushing i) (bound : i < avcCacheSlots) :
      WriterTurn s .commitFlush
        { s with cache := avcFlushSlot s.cache ⟨i, bound⟩, commit := .flushing (i + 1) }
  | commitEmptied (i : Nat) (phase : s.commit = .flushing i) (past : ¬ i < avcCacheSlots) :
      WriterTurn s .commitFlush { s with commit := .notifying }
  | commitNotified (phase : s.commit = .notifying) :
      WriterTurn s .commitNotify { s with
        cache := avcLatestNotifUpdate s.cache s.policy.latestGranting
        commit := .idle
        resets := s.policy.latestGranting :: s.resets }
  | unchanged (value : Bool) (same : value = s.enforcing) : WriterTurn s (.writeEnforce value) s
  | switched (value : Bool) (phase : s.setenforce = .idle ∨ s.setenforce = .finished)
      (differs : value ≠ s.enforcing) :
      WriterTurn s (.writeEnforce value) { s with
        enforcing := value
        setenforce := if value then .flushing 0 else .idle }
  | enforceFlushed (i : Nat) (phase : s.setenforce = .flushing i) (bound : i < avcCacheSlots) :
      WriterTurn s .enforceFlush
        { s with cache := avcFlushSlot s.cache ⟨i, bound⟩, setenforce := .flushing (i + 1) }
  | enforceEmptied (i : Nat) (phase : s.setenforce = .flushing i) (past : ¬ i < avcCacheSlots) :
      WriterTurn s .enforceFlush { s with setenforce := .notifying }
  | enforceNotified (phase : s.setenforce = .notifying) :
      WriterTurn s .enforceNotify { s with
        cache := avcLatestNotifUpdate s.cache 0
        setenforce := .finished
        resets := 0 :: s.resets }

theorem writerStep_cases {s s' : AvcMachine} {a : AvcAction}
    (stepped : s.writerStep a = some s') : WriterTurn s a s' := by
  unfold AvcMachine.writerStep at stepped
  cases a with
  | installPolicy server =>
    dsimp only at stepped
    split at stepped
    · rename_i phase
      cases stepped
      exact .installed server phase
    · cases stepped
  | gracePeriod =>
    dsimp only at stepped
    split at stepped
    · rename_i phase
      cases stepped
      exact .waited phase
    · cases stepped
  | commitFlush =>
    dsimp only at stepped
    split at stepped
    · rename_i i phase
      split at stepped <;> cases stepped <;> rename_i bound
      · exact .commitFlushed i phase bound
      · exact .commitEmptied i phase bound
    · cases stepped
  | commitNotify =>
    dsimp only at stepped
    split at stepped
    · rename_i phase
      cases stepped
      exact .commitNotified phase
    · cases stepped
  | writeEnforce value =>
    dsimp only at stepped
    split at stepped
    · rename_i phase
      split at stepped <;> cases stepped <;> rename_i same
      · exact .unchanged value same
      · exact .switched value (.inl phase) same
    · rename_i phase
      split at stepped <;> cases stepped <;> rename_i same
      · exact .unchanged value same
      · exact .switched value (.inr phase) same
    · cases stepped
  | enforceFlush =>
    dsimp only at stepped
    split at stepped
    · rename_i i phase
      split at stepped <;> cases stepped <;> rename_i bound
      · exact .enforceFlushed i phase bound
      · exact .enforceEmptied i phase bound
    · cases stepped
  | enforceNotify =>
    dsimp only at stepped
    split at stepped
    · rename_i phase
      cases stepped
      exact .enforceNotified phase
    · cases stepped
  | _ => cases stepped

/-- What a step of thread `t` leaves alone. -/
structure ThreadFrame (s s' : AvcMachine) (t : Nat) : Prop where
  policy : s'.policy = s.policy
  enforcing : s'.enforcing = s.enforcing
  setenforce : s'.setenforce = s.setenforce
  resets : s'.resets = s.resets
  latestNotif : s'.cache.latestNotif = s.cache.latestNotif
  thread : ∀ t', t' ≠ t → s'.thread t' = s.thread t'
  readers : ∀ t', t' ≠ t → t' ∈ s.readers → t' ∈ s'.readers
  commit : s'.commit = s.commit ∨
    ∃ rs, s.commit = .waiting rs ∧ s'.commit = .waiting (rs.filter (· ≠ t))

theorem ThreadFrame.setThread {s s' : AvcMachine} {t : Nat} (frame : ThreadFrame s s' t)
    (phase : AvcThread) : ThreadFrame s (s'.setThread t phase) t := by
  refine ⟨frame.policy, frame.enforcing, frame.setenforce, frame.resets, frame.latestNotif,
    ?_, frame.readers, frame.commit⟩
  intro t' different
  simp [AvcMachine.setThread, different, frame.thread t' different]

theorem ThreadFrame.cached {s : AvcMachine} (t : Nat) {cache : AvcCache}
    (same : cache.latestNotif = s.cache.latestNotif) :
    ThreadFrame s { s with cache } t :=
  ⟨rfl, rfl, rfl, rfl, same, fun _ _ => rfl, fun _ _ member => member, .inl rfl⟩

theorem ThreadFrame.refl (s : AvcMachine) (t : Nat) : ThreadFrame s s t := .cached t rfl

theorem ThreadFrame.readLock (s : AvcMachine) (t : Nat) (q : AvcQuery) :
    ThreadFrame s (s.readLock t q) t := by
  simp only [AvcMachine.readLock]
  split
  · exact ⟨rfl, rfl, rfl, rfl, rfl, fun _ _ => rfl,
      fun _ _ member => List.mem_cons_of_mem _ member, .inl rfl⟩
  · exact .refl s t

theorem ThreadFrame.readUnlock {s s' : AvcMachine} {t : Nat} (frame : ThreadFrame s s' t)
    (same : s'.commit = s.commit) : ThreadFrame s (s'.readUnlock t) t := by
  refine ⟨frame.policy, frame.enforcing, frame.setenforce, frame.resets, frame.latestNotif,
    frame.thread, ?_, ?_⟩
  · intro t' different member
    simp [AvcMachine.readUnlock, frame.readers t' different member, different]
  · cases phase : s.commit with
    | waiting rs => exact .inr ⟨rs, rfl, by simp [AvcMachine.readUnlock, same, phase]⟩
    | _ => exact .inl (by simp [AvcMachine.readUnlock, same, phase])

theorem ThreadFrame.finish {s s' : AvcMachine} {t : Nat} (frame : ThreadFrame s s' t)
    (same : s'.commit = s.commit) : ThreadFrame s (s'.finish t) t :=
  (frame.readUnlock same).setThread .idle

theorem allocated_frame {s : AvcMachine} (t : Nat) {tape tape' : Tape} {cache : AvcCache}
    {ok : Bool} (alloc : avcAllocNode s.cache tape = (ok, cache, tape')) :
    ThreadFrame s { s with cache } t := by
  have shrunk := avcAllocNode_shrunk s.cache tape
  rw [alloc] at shrunk
  exact .cached t shrunk.latestNotif

/-- Every step of a thread keeps the frame of that thread. -/
theorem AvcTurn.frame {s s' : AvcMachine} {t : Nat} {a : AvcAction} (turn : AvcTurn s t a s') :
    ThreadFrame s s' t := by
  have still : ThreadFrame s s t := .refl s t
  cases turn with
  | missed q => exact (ThreadFrame.readLock s t q).setThread _
  | found q => exact (ThreadFrame.readLock s t q).setThread _
  | insertAlloc _ _ _ _ _ _ _ alloc => exact (allocated_frame t alloc).setThread _
  | insertNoAlloc _ _ _ _ _ _ _ alloc => exact (allocated_frame t alloc).setThread _
  | addAlloc _ _ _ _ _ _ _ alloc => exact (allocated_frame t alloc).setThread _
  | addNoAlloc _ _ _ _ _ _ _ alloc => exact (allocated_frame t alloc).setThread _
  | grantAlloc _ _ _ _ _ _ alloc => exact (allocated_frame t alloc).setThread _
  | grantNoAlloc _ _ _ _ _ _ alloc => exact (allocated_frame t alloc).finish rfl
  | linked => exact (ThreadFrame.cached t (by simp)).setThread _
  | killed => exact (ThreadFrame.cached t (avcNodeKill_shrunk s.cache).latestNotif).setThread _
  | unlocked => exact (still.readUnlock rfl).setThread _
  | xpermsComputed q => exact (ThreadFrame.readLock s t q).setThread _
  | xpermsAdded => exact (ThreadFrame.cached t (by simp)).setThread _
  | allowed => exact still.finish rfl
  | refused => exact still.finish rfl
  | granted => exact (ThreadFrame.cached t (by simp)).finish rfl
  | _ => exact still.setThread _

/-- A node a link put into a slot: the decision the thread brought with it. -/
structure Linked (s : AvcMachine) (a : AvcAction) (h : Fin avcCacheSlots) (n : AvcNode)
    (t : Nat) (tape : Tape) (q : AvcQuery) (xpNode : AvcXpermsNode) : Prop where
  action : a = .link t tape
  phase : s.thread t = .allocated q n.avd xpNode
  slot : h = q.slot
  ssid : n.ssid = q.ssid
  tsid : n.tsid = q.tsid
  tclass : n.tclass = q.tclass

/-- A node an update put in the place of `orig`. -/
structure Updated (orig n : AvcNode) (event : AvcEvent) (perms : U32) : Prop where
  ssid : n.ssid = orig.ssid
  tsid : n.tsid = orig.tsid
  tclass : n.tclass = orig.tclass
  seqno : n.avd.seqno = orig.avd.seqno
  allowed : n.avd.allowed = eventAllowed event perms orig.avd.allowed

/-- A grant of thread `t` found `orig` under its own key and sequence number. -/
structure Granted (s : AvcMachine) (a : AvcAction) (orig : AvcNode) (t : Nat) (tape : Tape)
    (q : AvcQuery) (avd : AvDecision) : Prop where
  action : a = .grant t tape
  phase : s.thread t = .grantAllocated q avd
  ssid : orig.ssid = q.ssid
  tsid : orig.tsid = q.tsid
  tclass : orig.tclass = q.tclass
  seqno : orig.avd.seqno = avd.seqno

/-- Where a node in a slot comes from after a thread's step. -/
theorem threadStep_linked {s s' : AvcMachine} {a : AvcAction} {h : Fin avcCacheSlots}
    {n : AvcNode} (stepped : s.threadStep a = some s') (linked : n ∈ s'.cache.slots h) :
    n ∈ s.cache.slots h ∨
    (∃ t tape q xpNode, Linked s a h n t tape q xpNode) ∨
    (∃ orig ∈ s.cache.slots h, ∃ perms, Updated orig n .addXperms perms) ∨
    (∃ orig ∈ s.cache.slots h, ∃ t tape q avd,
      Granted s a orig t tape q avd ∧ Updated orig n .grant q.requested) := by
  have allocOld : ∀ {tape tape' : Tape} {cache : AvcCache} {ok : Bool},
      avcAllocNode s.cache tape = (ok, cache, tape') → n ∈ cache.slots h →
      n ∈ s.cache.slots h := by
    intro tape tape' cache ok alloc member
    have shrunk := avcAllocNode_shrunk s.cache tape
    rw [alloc] at shrunk
    exact shrunk.mem member
  have lockOld : ∀ t q, n ∈ (s.readLock t q).cache.slots h → n ∈ s.cache.slots h := by
    intro t q member
    unfold AvcMachine.readLock at member
    split at member <;> exact member
  obtain ⟨t, acts, turn⟩ := threadStep_cases stepped
  cases turn with
  | missed q => exact .inl (lockOld t q linked)
  | found q => exact .inl (lockOld t q linked)
  | insertAlloc _ _ _ _ _ _ _ alloc => exact .inl (allocOld alloc linked)
  | insertNoAlloc _ _ _ _ _ _ _ alloc => exact .inl (allocOld alloc linked)
  | addAlloc _ _ _ _ _ _ _ alloc => exact .inl (allocOld alloc linked)
  | addNoAlloc _ _ _ _ _ _ _ alloc => exact .inl (allocOld alloc linked)
  | grantAlloc _ _ _ _ _ _ alloc => exact .inl (allocOld alloc linked)
  | grantNoAlloc _ _ _ _ _ _ alloc => exact .inl (allocOld alloc linked)
  | linked q avd xpNode node tape tape' phase populated =>
    obtain ⟨ssid, tsid, tclass, avdEq⟩ := avcXpermsPopulate_frame populated
    rcases mem_avcInsertLink linked with old | ⟨rfl, slot⟩
    · exact .inl old
    · refine .inr (.inl ⟨t, tape, q, xpNode, rfl, ?_, ?_, ssid, tsid, tclass⟩)
      · rw [avdEq]
        exact phase
      · rw [slot, ssid, tsid, tclass]
        rfl
  | xpermsComputed q => exact .inl (lockOld t q linked)
  | xpermsAdded q avd xpd tape phase =>
    rcases mem_avcUpdateLocked linked with old | ⟨-, orig, member, ssid, tsid, tclass, ossid,
      otsid, otclass, oseqno, seqno, -, allowed⟩
    · exact .inl old
    · exact .inr (.inr (.inl ⟨orig, member, _, ssid.trans ossid.symm, tsid.trans otsid.symm,
        tclass.trans otclass.symm, seqno.trans oseqno.symm, allowed⟩))
  | granted q avd tape phase =>
    rcases mem_avcUpdateLocked linked with old | ⟨-, orig, member, ssid, tsid, tclass, ossid,
      otsid, otclass, oseqno, seqno, -, allowed⟩
    · exact .inl old
    · exact .inr (.inr (.inr ⟨orig, member, t, tape, q, avd,
        ⟨rfl, phase, ossid, otsid, otclass, oseqno⟩, ssid.trans ossid.symm,
        tsid.trans otsid.symm, tclass.trans otclass.symm, seqno.trans oseqno.symm, allowed⟩))
  | _ => exact .inl linked

/-- The flush of a commit runs to its end. -/
theorem exec_commitFlush {count i : Nat} {s : AvcMachine} (phase : s.commit = .flushing i)
    (left : i + count = avcCacheSlots) :
    avcMachine.exec s (List.replicate (count + 1) .commitFlush) =
      some { s with cache := avcFlushFrom s.cache i count, commit := .notifying } := by
  induction count generalizing s i with
  | zero =>
    have done : ¬ i < avcCacheSlots := by omega
    simp [List.replicate, Machine.exec, avcMachine, avcStep, AvcAction.ofWriter,
      AvcMachine.writerStep, phase, done, avcFlushFrom]
  | succ count ih =>
    have bound : i < avcCacheSlots := by omega
    have stepped : avcMachine.step s .commitFlush =
        some { s with cache := avcFlushSlot s.cache ⟨i, bound⟩, commit := .flushing (i + 1) } := by
      simp [avcMachine, avcStep, AvcAction.ofWriter, AvcMachine.writerStep, phase, bound]
    rw [List.replicate_succ]
    simp only [Machine.exec, stepped, Option.bind_some]
    rw [ih rfl (by omega)]
    simp only [avcFlushFrom, bound, dite_true]

/-- So does the flush of a mode switch. -/
theorem exec_enforceFlush {count i : Nat} {s : AvcMachine} (phase : s.setenforce = .flushing i)
    (left : i + count = avcCacheSlots) :
    avcMachine.exec s (List.replicate (count + 1) .enforceFlush) =
      some { s with cache := avcFlushFrom s.cache i count, setenforce := .notifying } := by
  induction count generalizing s i with
  | zero =>
    have done : ¬ i < avcCacheSlots := by omega
    simp [List.replicate, Machine.exec, avcMachine, avcStep, AvcAction.ofWriter,
      AvcMachine.writerStep, phase, done, avcFlushFrom]
  | succ count ih =>
    have bound : i < avcCacheSlots := by omega
    have stepped : avcMachine.step s .enforceFlush =
        some { s with cache := avcFlushSlot s.cache ⟨i, bound⟩,
                      setenforce := .flushing (i + 1) } := by
      simp [avcMachine, avcStep, AvcAction.ofWriter, AvcMachine.writerStep, phase, bound]
    rw [List.replicate_succ]
    simp only [Machine.exec, stepped, Option.bind_some]
    rw [ih rfl (by omega)]
    simp only [avcFlushFrom, bound, dite_true]

/-- A server whose decisions allow `allowed` and nothing else. -/
def constantServer (allowed : U32) : SecurityServer :=
  { securityComputeAv := fun _ _ _ =>
      ({ allowed, auditallow := 0, auditdeny := 0xffffffff, seqno := 0, flags := 0 },
        { len := 0, drivers := .zero })
    securityComputeXpermsDecision := fun _ _ _ driver =>
      { used := 0, driver, allowed := none, auditallow := none, dontaudit := none } }

/-- Boot with a policy already in force. -/
def bootMachine (server : SecurityServer) (enforcing : Bool) : AvcMachine :=
  { cache := selinuxAvcInit, policy := .make server 0, enforcing, thread := fun _ => .idle,
    readers := [], commit := .idle, setenforce := .idle, resets := [] }

theorem bootMachine_start (server : SecurityServer) (enforcing : Bool) :
    AvcStart (bootMachine server enforcing) := ⟨rfl, rfl, rfl, rfl, rfl, rfl⟩

/-- A check through `avc_has_perm_noaudit` for one permission. -/
def plainQuery (ssid tsid : U32) (tclass : U16) : AvcQuery :=
  { ssid, tsid, tclass, requested := 1, driver := 0, xperm := 0, flags := 0, extended := false }

/-- An insertion by thread `t` up to the allocation of its node. -/
def insertUpToAlloc (t : Nat) (q : AvcQuery) : List AvcAction :=
  [.lookup t q, .computeAv t, .notifCheck t, .allocNode t ⟨[], []⟩]

end Ksrc.Guarantees.AvcThreadSteps

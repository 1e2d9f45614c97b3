import Ksrc.Library.Transition
import Ksrc.Source.Avc

/-!
# Threads, policy commits and mode switches around the cache

Source: `security/selinux/avc.c` (`avc_has_perm_noaudit`,
`avc_has_extended_perms`, `avc_compute_av`, `avc_insert`, `avc_denied`,
`avc_update_node`, `avc_ss_reset`), `security/selinux/ss/services.c`
(`selinux_policy_commit`, `selinux_notify_policy_change`),
`security/selinux/selinuxfs.c` (`sel_write_enforce`).

Each action is what one thread does under one lock, so an action is atomic and
any two actions of different threads may follow each other. Commits exclude each
other (`policy_mutex`); the mode has one writer.
-/
namespace Ksrc.Source

open Library

/-- A policy in force: every decision it makes carries its `latest_granting`. -/
structure LoadedPolicy where
  server : SecurityServer
  latestGranting : U32
  stamped : ∀ ssid tsid tclass,
    (server.securityComputeAv ssid tsid tclass).1.seqno = latestGranting

namespace SecurityServer

/-- `avd_init` puts the policy's `latest_granting` into each decision. -/
def stamp (server : SecurityServer) (seqno : U32) : SecurityServer :=
  { server with
    securityComputeAv := fun ssid tsid tclass =>
      let (avd, xperms) := server.securityComputeAv ssid tsid tclass
      ({ avd with seqno }, xperms) }

end SecurityServer

/-- A policy with the given number, from the answers its database gives. -/
def LoadedPolicy.make (server : SecurityServer) (seqno : U32) : LoadedPolicy :=
  { server := server.stamp seqno, latestGranting := seqno, stamped := fun _ _ _ => rfl }

/-- The arguments of one permission check. `extended` tells
`avc_has_extended_perms`, which holds `rcu_read_lock` from its lookup to its
answer, from `avc_has_perm_noaudit`, which drops it before `avc_perm_nonode`. -/
structure AvcQuery where
  ssid : U32
  tsid : U32
  tclass : U16
  requested : U32
  driver : U8
  xperm : U8
  flags : U32
  extended : Bool
  deriving DecidableEq, Repr

namespace AvcQuery

def slot (q : AvcQuery) : Fin avcCacheSlots := avcHash q.ssid q.tsid q.tclass

/-- The flags `avc_denied` is called with. -/
def deniedFlags (q : AvcQuery) : U32 := if q.extended then avcExtendedPerms else q.flags

end AvcQuery

/-- Where a thread is; each name says what it has just done. -/
inductive AvcThread where
  | idle
  | missed (q : AvcQuery)
  | computed (q : AvcQuery) (avd : AvDecision) (xpNode : AvcXpermsNode)
  | checked (q : AvcQuery) (avd : AvDecision) (xpNode : AvcXpermsNode)
  | allocated (q : AvcQuery) (avd : AvDecision) (xpNode : AvcXpermsNode)
  | answered (q : AvcQuery) (avd : AvDecision) (xpNode : Option AvcXpermsNode)
  | unlocked (q : AvcQuery) (avd : AvDecision)
  | adding (q : AvcQuery) (avd : AvDecision) (xpd : ExtendedPermsDecision)
  | addAllocated (q : AvcQuery) (avd : AvDecision) (xpd : ExtendedPermsDecision)
  | decided (q : AvcQuery) (avd : AvDecision)
  | denied (q : AvcQuery) (avd : AvDecision)
  | granting (q : AvcQuery) (avd : AvDecision)
  | grantAllocated (q : AvcQuery) (avd : AvDecision)

/-- Progress of `selinux_policy_commit` after the new policy is installed:
`synchronize_rcu` with the readers it still waits for, then `avc_ss_reset`. -/
inductive CommitPhase where
  | idle
  | waiting (readers : List Nat)
  | flushing (slot : Nat)
  | notifying
  deriving DecidableEq, Repr

/-- Progress of the `avc_ss_reset(0)` of `sel_write_enforce`; `finished` is kept
until the next write. -/
inductive EnforcePhase where
  | idle
  | flushing (slot : Nat)
  | notifying
  | finished
  deriving DecidableEq, Repr

/-- The cache, what it depends on, and every thread. `readers` are the threads
inside a read-side section, `resets` the arguments of the `avc_ss_reset` calls
that have returned. -/
structure AvcMachine where
  cache : AvcCache
  policy : LoadedPolicy
  enforcing : Bool
  thread : Nat → AvcThread
  readers : List Nat
  commit : CommitPhase
  setenforce : EnforcePhase
  resets : List U32

inductive AvcAction where
  | lookup (t : Nat) (q : AvcQuery)
  | computeAv (t : Nat)
  | notifCheck (t : Nat)
  | allocNode (t : Nat) (tape : Tape)
  | link (t : Nat) (tape : Tape)
  | extendedAnswer (t : Nat) (stack : ExtendedPermsData)
  | computeXperms (t : Nat)
  | addXperms (t : Nat) (tape : Tape)
  | decide (t : Nat)
  | readEnforcing (t : Nat)
  | grant (t : Nat) (tape : Tape)
  | installPolicy (server : SecurityServer)
  | gracePeriod
  | commitFlush
  | commitNotify
  | writeEnforce (value : Bool)
  | enforceFlush
  | enforceNotify

namespace AvcMachine

def setThread (s : AvcMachine) (t : Nat) (phase : AvcThread) : AvcMachine :=
  { s with thread := Function.update s.thread t phase }

/-- `rcu_read_lock`, for a query that keeps the lock. -/
def readLock (s : AvcMachine) (t : Nat) (q : AvcQuery) : AvcMachine :=
  if q.extended then { s with readers := t :: s.readers } else s

/-- `rcu_read_unlock`: a grace period no longer waits for the thread. -/
def readUnlock (s : AvcMachine) (t : Nat) : AvcMachine :=
  { s with
    readers := s.readers.filter (· ≠ t)
    commit := match s.commit with
      | .waiting readers => .waiting (readers.filter (· ≠ t))
      | phase => phase }

/-- The answer is returned to the caller. -/
def finish (s : AvcMachine) (t : Nat) : AvcMachine := (s.readUnlock t).setThread t .idle

/-- What one thread does next, as far as its own phase decides it. -/
def threadStep (s : AvcMachine) : AvcAction → Option AvcMachine
  | .lookup t q =>
    match s.thread t with
    | .idle =>
      match avcLookup s.cache q.ssid q.tsid q.tclass with
      | none => some ((s.readLock t q).setThread t (.missed q))
      | some node => some ((s.readLock t q).setThread t (.answered q node.avd node.xpNode))
    | _ => none
  | .computeAv t =>
    match s.thread t with
    | .missed q =>
      let (avd, xp) := s.policy.server.securityComputeAv q.ssid q.tsid q.tclass
      some (s.setThread t (.computed q avd { xp, xpdHead := [] }))
    | _ => none
  | .notifCheck t =>
    match s.thread t with
    | .computed q avd xpNode =>
      match avcLatestNotifCheck s.cache avd.seqno with
      | .ok _ => some (s.setThread t (.checked q avd xpNode))
      | .error _ => some (s.setThread t (.answered q avd (some xpNode)))
    | _ => none
  | .allocNode t tape =>
    match s.thread t with
    | .checked q avd xpNode =>
      match avcAllocNode s.cache tape with
      | (true, cache, _) => some ({ s with cache }.setThread t (.allocated q avd xpNode))
      | (false, cache, _) => some ({ s with cache }.setThread t (.answered q avd (some xpNode)))
    | .adding q avd xpd =>
      match avcAllocNode s.cache tape with
      | (true, cache, _) => some ({ s with cache }.setThread t (.addAllocated q avd xpd))
      | (false, cache, _) => some ({ s with cache }.setThread t
          (.decided q (avcXpermsMask q.requested q.xperm avd xpd)))
    | .granting q avd =>
      match avcAllocNode s.cache tape with
      | (true, cache, _) => some ({ s with cache }.setThread t (.grantAllocated q avd))
      | (false, cache, _) => some ({ s with cache }.finish t)
    | _ => none
  | .link t tape =>
    match s.thread t with
    | .allocated q avd xpNode =>
      let answer := AvcThread.answered q avd (some xpNode)
      match avcXpermsPopulate (avcNodePopulate q.ssid q.tsid q.tclass avd) xpNode tape with
      | (.error _, _) => some ({ s with cache := avcNodeKill s.cache }.setThread t answer)
      | (.ok node, _) => some ({ s with cache := avcInsertLink s.cache node }.setThread t answer)
    | _ => none
  | .extendedAnswer t stack =>
    match s.thread t with
    | .answered q avd xpNode =>
      if q.extended then
        match avcExtendedAnswer q.requested q.driver q.xperm stack avd xpNode with
        | some (avd, _) => some (s.setThread t (.decided q avd))
        | none => some ((s.readUnlock t).setThread t (.unlocked q avd))
      else some (s.setThread t (.decided q avd))
    | _ => none
  | .computeXperms t =>
    match s.thread t with
    | .unlocked q avd =>
      let xpd := s.policy.server.securityComputeXpermsDecision q.ssid q.tsid q.tclass q.driver
      some ((s.readLock t q).setThread t (.adding q avd xpd))
    | _ => none
  | .addXperms t tape =>
    match s.thread t with
    | .addAllocated q avd xpd =>
      let (_, cache, _) := avcUpdateLocked s.cache .addXperms q.requested q.driver q.xperm
        q.ssid q.tsid q.tclass avd.seqno (some xpd) 0 tape
      some ({ s with cache }.setThread t
        (.decided q (avcXpermsMask q.requested q.xperm avd xpd)))
    | _ => none
  | .decide t =>
    match s.thread t with
    | .decided q avd =>
      if q.requested &&& ~~~avd.allowed ≠ 0 then some (s.setThread t (.denied q avd))
      else some (s.finish t)
    | _ => none
  | .readEnforcing t =>
    match s.thread t with
    | .denied q avd =>
      if q.deniedFlags &&& avcStrict ≠ 0 then some (s.finish t)
      else if s.enforcing ∧ avd.flags &&& avdFlagsPermissive = 0 then some (s.finish t)
      else some (s.setThread t (.granting q avd))
    | _ => none
  | .grant t tape =>
    match s.thread t with
    | .grantAllocated q avd =>
      let (_, cache, _) := avcUpdateLocked s.cache .grant q.requested q.driver q.xperm
        q.ssid q.tsid q.tclass avd.seqno none q.deniedFlags tape
      some ({ s with cache }.finish t)
    | _ => none
  | _ => none

/-- The steps of a commit and of a write to `enforce`. -/
def writerStep (s : AvcMachine) : AvcAction → Option AvcMachine
  | .installPolicy server =>
    match s.commit with
    | .idle =>
      some { s with
        policy := .make server (s.policy.latestGranting + 1)
        commit := .waiting s.readers }
    | _ => none
  | .gracePeriod =>
    match s.commit with
    | .waiting [] => some { s with commit := .flushing 0 }
    | _ => none
  | .commitFlush =>
    match s.commit with
    | .flushing i =>
      if h : i < avcCacheSlots then
        some { s with cache := avcFlushSlot s.cache ⟨i, h⟩, commit := .flushing (i + 1) }
      else some { s with commit := .notifying }
    | _ => none
  | .commitNotify =>
    match s.commit with
    | .notifying =>
      some { s with
        cache := avcLatestNotifUpdate s.cache s.policy.latestGranting
        commit := .idle
        resets := s.policy.latestGranting :: s.resets }
    | _ => none
  | .writeEnforce value =>
    match s.setenforce with
    | .idle | .finished =>
      if value = s.enforcing then some s
      else some { s with
        enforcing := value
        setenforce := if value then .flushing 0 else .idle }
    | _ => none
  | .enforceFlush =>
    match s.setenforce with
    | .flushing i =>
      if h : i < avcCacheSlots then
        some { s with cache := avcFlushSlot s.cache ⟨i, h⟩, setenforce := .flushing (i + 1) }
      else some { s with setenforce := .notifying }
    | _ => none
  | .enforceNotify =>
    match s.setenforce with
    | .notifying =>
      some { s with
        cache := avcLatestNotifUpdate s.cache 0
        setenforce := .finished
        resets := 0 :: s.resets }
    | _ => none
  | _ => none

end AvcMachine

/-- Actions of the commit and of the mode writer. -/
def AvcAction.ofWriter : AvcAction → Bool
  | .installPolicy _ | .gracePeriod | .commitFlush | .commitNotify
  | .writeEnforce _ | .enforceFlush | .enforceNotify => true
  | _ => false

def avcStep (s : AvcMachine) (a : AvcAction) : Option AvcMachine :=
  if a.ofWriter then s.writerStep a else s.threadStep a

/-- Boot: an empty cache, no thread inside a check, no writer at work. -/
structure AvcStart (s : AvcMachine) : Prop where
  cache : s.cache = selinuxAvcInit
  thread : s.thread = fun _ => .idle
  readers : s.readers = []
  commit : s.commit = .idle
  setenforce : s.setenforce = .idle
  resets : s.resets = []

/-- The cache with its threads and writers, as a transition system. -/
def avcMachine : Machine AvcMachine AvcAction where
  start := AvcStart
  step := avcStep

end Ksrc.Source

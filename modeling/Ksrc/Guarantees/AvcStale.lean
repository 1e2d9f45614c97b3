import Ksrc.Guarantees.AvcThreadSteps

/-!
# Decisions of a replaced policy

Source: `security/selinux/avc.c` (`avc_insert`, `avc_flush`, `avc_ss_reset`,
`avc_latest_notif_update`), `security/selinux/ss/services.c`
(`selinux_policy_commit`).

A reset flushes slot by slot and raises `latest_notif` only at its end. The check
of `avc_insert` and its link are apart, so a thread that holds no read-side lock
may link a decision of the old policy behind the flush. Under
`rcu_read_lock` this cannot happen: the commit waits for such threads.
-/
namespace Ksrc.Guarantees.AvcStale

open Library Source AvcCacheEffects AvcThreadSteps

/-- No linked node is older than a reset that has returned. -/
def NoStale (s : AvcMachine) : Prop :=
  ∀ seqno ∈ s.resets, ∀ h, ∀ n ∈ s.cache.slots h, ¬ n.avd.seqno < seqno

/-- The resets that have passed slot `h`, the one under way included. -/
def flushedBy (s : AvcMachine) (h : Fin avcCacheSlots) : List U32 :=
  match s.commit with
  | .flushing i => if h.val < i then s.policy.latestGranting :: s.resets else s.resets
  | .notifying => s.policy.latestGranting :: s.resets
  | _ => s.resets

/-- `avc_insert`, outside a read-side section, links no node into a slot that a
reset with a larger sequence number has flushed. -/
def NoLateLink (s : AvcMachine) : AvcAction → Prop
  | .link t _ => ∀ q avd xpNode, s.thread t = .allocated q avd xpNode →
      q.extended = false → ∀ seqno ∈ flushedBy s q.slot, ¬ avd.seqno < seqno
  | _ => True

theorem resets_subset_flushedBy {s : AvcMachine} {h : Fin avcCacheSlots} {seqno : U32}
    (member : seqno ∈ s.resets) : seqno ∈ flushedBy s h := by
  simp only [flushedBy]
  split
  · split
    · exact List.mem_cons_of_mem _ member
    · exact member
  · exact List.mem_cons_of_mem _ member
  · exact member

/-- The decision is the current policy's, or the commit still waits for `t`. -/
def Current (s : AvcMachine) (t : Nat) (seqno : U32) : Prop :=
  seqno = s.policy.latestGranting ∨ ∃ rs, s.commit = .waiting rs ∧ t ∈ rs

/-- What holds of a thread that inserts inside a read-side section. -/
def ReaderOk (s : AvcMachine) (t : Nat) : AvcThread → Prop
  | .missed q => q.extended = true → t ∈ s.readers
  | .computed q avd _ => q.extended = true → t ∈ s.readers ∧ Current s t avd.seqno
  | .checked q avd _ | .allocated q avd _ => q.extended = true →
      t ∈ s.readers ∧ Current s t avd.seqno ∧ ∀ seqno ∈ s.resets, ¬ avd.seqno < seqno
  | _ => True

structure Fresh (s : AvcMachine) : Prop where
  notified : ∀ seqno ∈ s.resets, seqno ≤ s.cache.latestNotif
  readers : ∀ t, ReaderOk s t (s.thread t)
  linked : ∀ h, ∀ n ∈ s.cache.slots h, ∀ seqno ∈ flushedBy s h, ¬ n.avd.seqno < seqno

theorem Fresh.noStale {s : AvcMachine} (fresh : Fresh s) : NoStale s :=
  fun _ member h n linked => fresh.linked h n linked _ (resets_subset_flushedBy member)

theorem fresh_start {s : AvcMachine} (start : AvcStart s) : Fresh s := by
  refine ⟨?_, ?_, ?_⟩
  · simp [start.resets]
  · intro t
    simp [start.thread, ReaderOk]
  · intro h n linked
    simp [start.cache, selinuxAvcInit] at linked

theorem current_of_frame {s s' : AvcMachine} {t t' : Nat} {seqno : U32}
    (frame : ThreadFrame s s' t) (different : t' ≠ t) (current : Current s t' seqno) :
    Current s' t' seqno := by
  rcases current with equal | ⟨rs, waiting, member⟩
  · exact .inl (equal.trans (congrArg _ frame.policy.symm))
  · rcases frame.commit with same | ⟨rs', waiting', filtered⟩
    · exact .inr ⟨rs, same.trans waiting, member⟩
    · rw [waiting] at waiting'
      cases waiting'
      exact .inr ⟨_, filtered, by simp [member, different]⟩

/-- A step of another thread keeps what holds of this one. -/
theorem readerOk_of_frame {s s' : AvcMachine} {t t' : Nat} {phase : AvcThread}
    (frame : ThreadFrame s s' t) (different : t' ≠ t) (before : ReaderOk s t' phase) :
    ReaderOk s' t' phase := by
  cases phase with
  | missed q => exact fun extended => frame.readers t' different (before extended)
  | computed q avd xpNode =>
    intro extended
    obtain ⟨reader, current⟩ := before extended
    exact ⟨frame.readers t' different reader, current_of_frame frame different current⟩
  | checked q avd xpNode | allocated q avd xpNode =>
    intro extended
    obtain ⟨reader, current, passed⟩ := before extended
    refine ⟨frame.readers t' different reader, current_of_frame frame different current, ?_⟩
    rw [frame.resets]
    exact passed
  | _ => trivial

/-- A thread's step does not change which resets have passed a slot. -/
theorem flushedBy_of_frame {s s' : AvcMachine} {t : Nat} (frame : ThreadFrame s s' t)
    (h : Fin avcCacheSlots) : flushedBy s' h = flushedBy s h := by
  simp only [flushedBy]
  rcases frame.commit with same | ⟨rs, waiting, filtered⟩
  · rw [same, frame.policy, frame.resets]
  · simp only [waiting, filtered, frame.resets]

/-- The acting thread's own phase after its step. -/
theorem turn_readerOk {s s' : AvcMachine} {a : AvcAction} {t : Nat} (fresh : Fresh s)
    (turn : AvcTurn s t a s') : ReaderOk s' t (s'.thread t) := by
  have own := fresh.readers t
  cases turn with
  | missed q idle absent =>
    simp only [AvcMachine.setThread, Function.update_self]
    intro extended
    simp [AvcMachine.readLock, extended]
  | computed q phase =>
    rw [phase] at own
    simp only [AvcMachine.setThread, Function.update_self]
    exact fun extended => ⟨own extended, .inl (s.policy.stamped _ _ _)⟩
  | current q avd xpNode phase passes =>
    rw [phase] at own
    simp only [AvcMachine.setThread, Function.update_self]
    intro extended
    refine ⟨(own extended).1, (own extended).2, fun seqno member => ?_⟩
    have notified := fresh.notified seqno member
    simp only [avcLatestNotifCheck] at passes
    split at passes
    · cases passes
    · simp only [BitVec.lt_def, BitVec.le_def] at *
      omega
  | insertAlloc q avd xpNode tape tape' cache phase alloc =>
    rw [phase] at own
    simp only [AvcMachine.setThread, Function.update_self]
    exact own
  | _ => simp [AvcMachine.finish, AvcMachine.setThread, ReaderOk]

/-- Inside a read-side section the sequence check is enough for every slot. -/
theorem reader_link_fresh {s : AvcMachine} {t : Nat} {q : AvcQuery} {avd : AvDecision}
    {xpNode : AvcXpermsNode} (fresh : Fresh s) (phase : s.thread t = .allocated q avd xpNode)
    (extended : q.extended = true) :
    ∀ seqno ∈ flushedBy s q.slot, ¬ avd.seqno < seqno := by
  have own := fresh.readers t
  rw [phase] at own
  obtain ⟨-, current, passed⟩ := own extended
  intro seqno member
  rcases current with equal | ⟨rs, waiting, -⟩
  · have cases : seqno = s.policy.latestGranting ∨ seqno ∈ s.resets := by
      simp only [flushedBy] at member
      split at member
      · split at member
        · exact List.mem_cons.mp member
        · exact .inr member
      · exact List.mem_cons.mp member
      · exact .inr member
    rcases cases with rfl | returned
    · rw [equal]
      exact BitVec.lt_irrefl _
    · exact passed seqno returned
  · simp only [flushedBy, waiting] at member
    exact passed seqno member

theorem threadStep_fresh {s s' : AvcMachine} {a : AvcAction} (fresh : Fresh s)
    (meets : NoLateLink s a) (stepped : s.threadStep a = some s') : Fresh s' := by
  obtain ⟨t, acts, turn⟩ := threadStep_cases stepped
  have frame := turn.frame
  refine ⟨?_, ?_, ?_⟩
  · rw [frame.resets, frame.latestNotif]
    exact fresh.notified
  · intro t'
    by_cases equal : t' = t
    · subst equal
      exact turn_readerOk fresh turn
    · rw [frame.thread t' equal]
      exact readerOk_of_frame frame equal (fresh.readers t')
  · intro h n linked
    rw [flushedBy_of_frame frame h]
    rcases threadStep_linked stepped linked with old | ⟨t₁, tape, q, xpNode, new⟩ |
      ⟨orig, member, perms, copy⟩ | ⟨orig, member, t₁, tape, q, avd, -, copy⟩
    · exact fresh.linked h n old
    · rw [new.slot]
      cases extended : q.extended with
      | true => exact reader_link_fresh fresh new.phase extended
      | false =>
        rw [new.action] at meets
        exact meets q _ xpNode new.phase extended
    · rw [copy.seqno]
      exact fresh.linked h orig member
    · rw [copy.seqno]
      exact fresh.linked h orig member

/-- A step that moves no thread and keeps the readers, the policy and `resets`
keeps what holds of the readers, if it does not end the wait for them. -/
theorem readerOk_of_same {s s' : AvcMachine} {t : Nat} {phase : AvcThread}
    (readers : s'.readers = s.readers) (policy : s'.policy = s.policy)
    (resets : s'.resets = s.resets)
    (waits : ∀ rs, s.commit = .waiting rs → t ∈ rs → s'.commit = .waiting rs)
    (before : ReaderOk s t phase) : ReaderOk s' t phase := by
  have current : ∀ {seqno : U32}, Current s t seqno → Current s' t seqno := by
    rintro seqno (equal | ⟨rs, waiting, member⟩)
    · exact .inl (by rw [policy, equal])
    · exact .inr ⟨rs, waits rs waiting member, member⟩
  cases phase with
  | missed q =>
    intro extended
    rw [readers]
    exact before extended
  | computed q avd xpNode =>
    intro extended
    rw [readers]
    exact ⟨(before extended).1, current (before extended).2⟩
  | checked q avd xpNode | allocated q avd xpNode =>
    intro extended
    rw [readers, resets]
    exact ⟨(before extended).1, current (before extended).2.1, (before extended).2.2⟩
  | _ => trivial

/-- Taking nodes away keeps `Fresh`, if every reset that newly counts for a slot
finds that slot empty. -/
theorem fresh_of_shrunk {s s' : AvcMachine} (fresh : Fresh s) (shrunk : Shrunk s.cache s'.cache)
    (thread : s'.thread = s.thread) (readers : s'.readers = s.readers)
    (policy : s'.policy = s.policy) (resets : s'.resets = s.resets)
    (waits : ∀ t rs, s.commit = .waiting rs → t ∈ rs → s'.commit = .waiting rs)
    (passed : ∀ h, flushedBy s' h ⊆ flushedBy s h ∨ s'.cache.slots h = []) : Fresh s' := by
  refine ⟨?_, ?_, ?_⟩
  · rw [resets, shrunk.latestNotif]
    exact fresh.notified
  · intro t
    rw [thread]
    exact readerOk_of_same readers policy resets (waits t) (fresh.readers t)
  · intro h n linked seqno member
    rcases passed h with subset | empty
    · exact fresh.linked h n (shrunk.mem linked) seqno (subset member)
    · simp [empty] at linked

theorem commitFlushed_fresh {s : AvcMachine} {i : Nat} (fresh : Fresh s)
    (phase : s.commit = .flushing i) (bound : i < avcCacheSlots) :
    Fresh { s with cache := avcFlushSlot s.cache ⟨i, bound⟩, commit := .flushing (i + 1) } := by
  refine fresh_of_shrunk fresh (avcFlushSlot_shrunk _ _) rfl rfl rfl rfl ?_ fun h => ?_
  · simp [phase]
  · by_cases equal : h = ⟨i, bound⟩
    · subst equal
      exact .inr (avcFlushSlot_same _ _)
    · left
      have apart : h.val ≠ i := fun same => equal (Fin.ext same)
      intro seqno member
      simp only [flushedBy, phase] at member ⊢
      split at member
      · rw [if_pos (by omega)]
        exact member
      · rw [if_neg (by omega)]
        exact member

theorem commitNotified_fresh {s : AvcMachine} (fresh : Fresh s) (phase : s.commit = .notifying) :
    Fresh { s with
      cache := avcLatestNotifUpdate s.cache s.policy.latestGranting
      commit := .idle
      resets := s.policy.latestGranting :: s.resets } := by
  refine ⟨?_, ?_, ?_⟩
  · intro seqno member
    have raised : ∀ c : AvcCache, ∀ n : U32, c.latestNotif ≤ (avcLatestNotifUpdate c n).latestNotif ∧
        n ≤ (avcLatestNotifUpdate c n).latestNotif := by
      intro c n
      simp only [avcLatestNotifUpdate]
      split <;> simp only [BitVec.le_def] <;> omega
    rcases List.mem_cons.mp member with rfl | returned
    · exact (raised _ _).2
    · exact BitVec.le_trans (fresh.notified seqno returned) (raised _ _).1
  · intro t
    have before := fresh.readers t
    -- no grace period is pending, so a reader's decision is the current policy's
    have newest : ∀ {avd : AvDecision}, Current s t avd.seqno →
        avd.seqno = s.policy.latestGranting := by
      rintro avd (equal | ⟨rs, waiting, -⟩)
      · exact equal
      · simp [phase] at waiting
    cases at_phase : s.thread t with
    | missed q =>
      rw [at_phase] at before
      simpa [ReaderOk] using before
    | computed q avd xpNode =>
      rw [at_phase] at before
      intro extended
      exact ⟨(before extended).1, .inl (newest (before extended).2)⟩
    | checked q avd xpNode | allocated q avd xpNode =>
      rw [at_phase] at before
      intro extended
      obtain ⟨reader, current, passed⟩ := before extended
      refine ⟨reader, .inl (newest current), fun seqno member => ?_⟩
      rcases List.mem_cons.mp member with rfl | returned
      · rw [newest current]
        exact BitVec.lt_irrefl _
      · exact passed seqno returned
    | _ => trivial
  · intro h n linked seqno member
    simp only [avcLatestNotifUpdate_slots] at linked
    refine fresh.linked h n linked seqno ?_
    simpa [flushedBy, phase] using member

theorem enforceNotified_fresh {s : AvcMachine} (fresh : Fresh s) :
    Fresh { s with
      cache := avcLatestNotifUpdate s.cache 0
      setenforce := .finished
      resets := 0 :: s.resets } := by
  have notBelow : ∀ n : U32, ¬ n < 0 := by
    intro n
    simp [BitVec.lt_def]
  refine ⟨?_, ?_, ?_⟩
  · intro seqno member
    have same : (avcLatestNotifUpdate s.cache 0).latestNotif = s.cache.latestNotif := by
      simp [avcLatestNotifUpdate]
    rw [same]
    rcases List.mem_cons.mp member with rfl | returned
    · simp [BitVec.le_def]
    · exact fresh.notified seqno returned
  · intro t
    have before := fresh.readers t
    cases at_phase : s.thread t with
    | missed q | computed q avd xpNode =>
      rw [at_phase] at before
      exact before
    | checked q avd xpNode | allocated q avd xpNode =>
      rw [at_phase] at before
      intro extended
      obtain ⟨reader, current, passed⟩ := before extended
      refine ⟨reader, current, fun seqno member => ?_⟩
      rcases List.mem_cons.mp member with rfl | returned
      · exact notBelow _
      · exact passed seqno returned
    | _ => trivial
  · intro h n linked seqno member
    simp only [avcLatestNotifUpdate_slots] at linked
    have cases : seqno = 0 ∨ seqno ∈ flushedBy s h := by
      cases phase : s.commit with
      | flushing i =>
        by_cases passed : h.val < i
        · simp only [flushedBy, phase, passed, if_true, List.mem_cons] at member ⊢
          exact or_left_comm.mp member
        · simpa [flushedBy, phase, passed] using member
      | notifying =>
        simp only [flushedBy, phase, List.mem_cons] at member ⊢
        exact or_left_comm.mp member
      | _ => simpa [flushedBy, phase] using member
    rcases cases with rfl | passed
    · exact notBelow _
    · exact fresh.linked h n linked seqno passed

theorem installed_fresh {s : AvcMachine} (server : SecurityServer) (fresh : Fresh s)
    (phase : s.commit = .idle) :
    Fresh { s with
      policy := .make server (s.policy.latestGranting + 1), commit := .waiting s.readers } := by
  refine ⟨fresh.notified, fun t => ?_, fun h n linked seqno member => ?_⟩
  · have before := fresh.readers t
    cases at_phase : s.thread t with
    | missed q =>
      rw [at_phase] at before
      exact before
    | computed q avd xpNode =>
      rw [at_phase] at before
      exact fun extended =>
        ⟨(before extended).1, .inr ⟨s.readers, rfl, (before extended).1⟩⟩
    | checked q avd xpNode | allocated q avd xpNode =>
      rw [at_phase] at before
      exact fun extended => ⟨(before extended).1,
        .inr ⟨s.readers, rfl, (before extended).1⟩, (before extended).2.2⟩
    | _ => trivial
  · refine fresh.linked h n linked seqno ?_
    simpa [flushedBy, phase] using member

/-- A writer's step moves no thread. -/
theorem writerStep_fresh {s s' : AvcMachine} {a : AvcAction} (fresh : Fresh s)
    (stepped : s.writerStep a = some s') : Fresh s' := by
  cases writerStep_cases stepped with
  | installed server phase => exact installed_fresh server fresh phase
  | waited phase =>
    refine fresh_of_shrunk fresh (Shrunk.refl _) rfl rfl rfl rfl ?_ fun h => .inl ?_
    · intro t rs waiting member
      rw [phase] at waiting
      cases waiting
      simp at member
    · simp [flushedBy, phase]
  | commitFlushed i phase bound => exact commitFlushed_fresh fresh phase bound
  | commitEmptied i phase past =>
    refine fresh_of_shrunk fresh (Shrunk.refl _) rfl rfl rfl rfl ?_ fun h => .inl ?_
    · simp [phase]
    · intro seqno member
      have below := h.isLt
      simpa [flushedBy, phase, show h.val < i by omega] using member
  | commitNotified phase => exact commitNotified_fresh fresh phase
  | unchanged value same => exact fresh
  | switched value phase differs =>
    refine fresh_of_shrunk fresh (Shrunk.refl _) rfl rfl rfl rfl ?_ fun h => .inl fun _ member => member
    exact fun _ _ waiting _ => waiting
  | enforceFlushed i phase bound =>
    refine fresh_of_shrunk fresh (avcFlushSlot_shrunk _ _) rfl rfl rfl rfl ?_ ?_
    · exact fun _ _ waiting _ => waiting
    · exact fun h => .inl fun _ member => member
  | enforceEmptied i phase past =>
    refine fresh_of_shrunk fresh (Shrunk.refl _) rfl rfl rfl rfl ?_ ?_
    · exact fun _ _ waiting _ => waiting
    · exact fun h => .inl fun _ member => member
  | enforceNotified phase => exact enforceNotified_fresh fresh

/-- In every run without a late link, no reset that has returned left an older
decision in the cache. -/
theorem avc_ss_reset_no_stale {s : AvcMachine} (run : avcMachine.Reachable NoLateLink s) :
    NoStale s := by
  refine Fresh.noStale (run.invariant (fun _ => fresh_start) ?_)
  intro s a s' fresh meets stepped
  simp only [avcMachine, avcStep] at stepped
  split at stepped
  · exact writerStep_fresh fresh stepped
  · exact threadStep_fresh fresh meets stepped

/-- A commit from start to end, with no reader to wait for. -/
def wholeCommit (server : SecurityServer) : List AvcAction :=
  [.installPolicy server, .gracePeriod] ++
    List.replicate (avcCacheSlots + 1) .commitFlush ++ [.commitNotify]

/-- A commit with no reader runs to its end, empties the cache and raises
`latest_notif`. -/
theorem exec_wholeCommit {s : AvcMachine} (server : SecurityServer) (idle : s.commit = .idle)
    (readers : s.readers = []) :
    avcMachine.exec s (wholeCommit server) = some { s with
      policy := .make server (s.policy.latestGranting + 1)
      commit := .idle
      cache := avcLatestNotifUpdate (avcFlush s.cache) (s.policy.latestGranting + 1)
      resets := (s.policy.latestGranting + 1) :: s.resets } := by
  have first : avcMachine.exec s [.installPolicy server, .gracePeriod] = some { s with
      policy := .make server (s.policy.latestGranting + 1), commit := .flushing 0 } := by
    simp [Machine.exec, avcMachine, avcStep, AvcAction.ofWriter, AvcMachine.writerStep, idle,
      readers]
  have flushed := exec_commitFlush (s := { s with
      policy := .make server (s.policy.latestGranting + 1), commit := .flushing 0 })
    rfl (Nat.zero_add avcCacheSlots)
  rw [wholeCommit, Machine.exec_append, Machine.exec_append, first, Option.bind_some, flushed,
    Option.bind_some]
  simp only [Machine.exec, avcMachine, avcStep, AvcAction.ofWriter, AvcMachine.writerStep,
    LoadedPolicy.make, avcFlush, if_true, Option.bind_some]

/-- A thread outside a read-side section that has passed the sequence check and
now sees a whole commit links its old decision afterwards. -/
theorem late_link_is_stale {s : AvcMachine} {t : Nat} {q : AvcQuery} {avd : AvDecision}
    {xpNode : AvcXpermsNode} (server : SecurityServer) (idle : s.commit = .idle)
    (readers : s.readers = []) (phase : s.thread t = .allocated q avd xpNode)
    (plain : xpNode.xp.len = 0) (older : avd.seqno < s.policy.latestGranting + 1) :
    ∃ s', avcMachine.Reaches Machine.free s s' ∧ ¬ NoStale s' := by
  have committed := Machine.exec_reaches (exec_wholeCommit server idle readers)
  let node := avcNodePopulate q.ssid q.tsid q.tclass avd
  let cache := avcLatestNotifUpdate (avcFlush s.cache) (s.policy.latestGranting + 1)
  refine ⟨_, committed.snoc (.link t ⟨[], []⟩) trivial (by
    simp [avcMachine, avcStep, AvcAction.ofWriter, AvcMachine.threadStep, phase,
      avcXpermsPopulate, plain]
    rfl), ?_⟩
  intro fresh
  exact fresh (s.policy.latestGranting + 1) List.mem_cons_self _ node
    (avcInsertLink_self cache node) older

/-- Thread 0 has passed the check and allocated; its decision allows one bit. -/
def aboutToLink : AvcMachine :=
  let avd : AvDecision :=
    { allowed := 1, auditallow := 0, auditdeny := 0xffffffff, seqno := 0, flags := 0 }
  let xpNode : AvcXpermsNode := { xp := { len := 0, drivers := .zero }, xpdHead := [] }
  let q := plainQuery 1 2 3
  ((((({ bootMachine (constantServer 1) true with
    cache := { selinuxAvcInit with activeNodes := 1 } }).setThread 0 (.missed q)).setThread 0
    (.computed q avd xpNode)).setThread 0 (.checked q avd xpNode)).setThread 0
    (.allocated q avd xpNode))

theorem stale_decision_linked :
    ¬ ∀ s, avcMachine.Reachable Machine.free s → NoStale s := by
  intro claim
  have ran : avcMachine.exec (bootMachine (constantServer 1) true)
      (insertUpToAlloc 0 (plainQuery 1 2 3)) = some aboutToLink := rfl
  have phase : aboutToLink.thread 0 = .allocated (plainQuery 1 2 3)
      { allowed := 1, auditallow := 0, auditdeny := 0xffffffff, seqno := 0, flags := 0 }
      { xp := { len := 0, drivers := .zero }, xpdHead := [] } := rfl
  obtain ⟨s', run, stale⟩ := late_link_is_stale (constantServer 0) rfl rfl phase rfl (by decide)
  exact stale (claim s' ⟨_, bootMachine_start _ _, (Machine.exec_reaches ran).trans run⟩)

/-- A decision linked under the first policy is gone after the commit of the
second. -/
theorem avc_ss_reset_no_stale_committed :
    ∃ s s', avcMachine.exec (bootMachine (constantServer 1) true)
        (insertUpToAlloc 0 (plainQuery 1 2 3) ++ [.link 0 ⟨[], []⟩]) = some s ∧
      avcMachine.exec s (wholeCommit (constantServer 0)) = some s' ∧
      s'.resets = [1] ∧ NoStale s' := by
  have ran : avcMachine.exec (bootMachine (constantServer 1) true)
      (insertUpToAlloc 0 (plainQuery 1 2 3)) = some aboutToLink := rfl
  obtain ⟨linked, stepped⟩ : ∃ linked, avcMachine.step aboutToLink (.link 0 ⟨[], []⟩) =
      some linked ∧ linked.commit = .idle ∧ linked.readers = [] ∧ linked.resets = [] ∧
        linked.policy = aboutToLink.policy :=
    ⟨_, rfl, rfl, rfl, rfl, rfl⟩
  obtain ⟨stepped, idle, readers, resets, policy⟩ := stepped
  have committed := exec_wholeCommit (constantServer 0) idle readers
  refine ⟨linked, _, ?_, committed, ?_, ?_⟩
  · rw [Machine.exec_append, ran, Option.bind_some]
    simp [Machine.exec, stepped]
  · rw [resets, policy]
    rfl
  · have inserted : avcMachine.Reaches NoLateLink _ aboutToLink :=
      Machine.exec_reaches_guard ran (by
        intro a member s
        simp only [insertUpToAlloc, List.mem_cons, List.not_mem_nil, or_false] at member
        rcases member with rfl | rfl | rfl | rfl <;> trivial)
    have onTime : NoLateLink aboutToLink (.link 0 ⟨[], []⟩) := by
      intro q avd xpNode _ _ seqno member
      simp [flushedBy, aboutToLink, AvcMachine.setThread, bootMachine] at member
    have rest : avcMachine.Reaches NoLateLink linked _ := Machine.exec_reaches_guard committed (by
      intro a member s
      simp only [wholeCommit, List.cons_append, List.nil_append, List.mem_cons, List.mem_append,
        List.mem_replicate, List.not_mem_nil, or_false] at member
      rcases member with rfl | rfl | ⟨-, rfl⟩ | rfl <;> trivial)
    exact avc_ss_reset_no_stale
      ⟨_, bootMachine_start _ _, (inserted.snoc _ onTime stepped).trans rest⟩

end Ksrc.Guarantees.AvcStale

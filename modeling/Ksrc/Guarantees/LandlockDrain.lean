import Ksrc.Guarantees.LandlockShutdown

/-!
# What `hook_sb_delete` waits for

Source: `landlock/src/fs.c` (`release_inode`, `hook_sb_delete`). A `release_inode` holds the
lock of its object until `inode_refs` counts it. The walk leaves no inode behind whose tied
object is not about to be reset, and nothing is tied to the inodes of the superblock meanwhile.
-/
namespace Ksrc.Guarantees.LandlockDrain

open Library Source LandlockInodes LandlockLives
open LandlockShutdown

/-- The object whose lock a thread holds between its steps. -/
def locking : ObjectThread → Option Nat
  | .releasing object => some object
  | .releaseTook object _ => some object
  | _ => none

/-- The inode of a `release_inode` that `inode_refs` counts. -/
def draining : ObjectThread → Option Nat
  | .releaseCounted _ inode => some inode
  | .releaseCleared _ inode => some inode
  | .releasePut _ inode => some inode
  | _ => none

/-- The thread resets `inode_sec->object` next. -/
def settling : ObjectThread → Option (Nat × Nat)
  | .releaseCounted object inode => some (object, inode)
  | .hookTook _ inode object _ _ => some (object, inode)
  | _ => none

/-- The superblock of a `hook_sb_delete`. -/
def hookOf : ObjectThread → Option Nat
  | .walking sb _ _ => some sb
  | .referenced sb _ _ _ => some sb
  | .pinned sb _ _ _ _ => some sb
  | .hookTook sb _ _ _ _ => some sb
  | .hookCleared sb _ _ _ _ => some sb
  | .passed sb _ _ _ => some sb
  | .waiting sb => some sb
  | _ => none

/-- The inodes that the walk is not done with. -/
def remaining : ObjectThread → List Nat
  | .walking _ rest _ => rest
  | .referenced _ inode rest _ => inode :: rest
  | .pinned _ inode _ rest _ => inode :: rest
  | .hookTook _ _ _ rest _ => rest
  | .hookCleared _ _ _ rest _ => rest
  | .passed _ _ rest _ => rest
  | _ => []

/-- A thread that holds the lock of an object is in the object, and an object that nobody uses
is untied, or the thread that found it so is about to untie it. -/
structure Locked (s : ObjectRun) : Prop where
  holders : ∀ t o, locking (s.code.thread t) = some o →
    ∃ x, s.code.object o = some x ∧ x.lock = some t
  unused : ∀ o x, s.code.object o = some x → x.usage = 0 → x.underobj ≠ none →
    ∃ t, s.code.thread t = .releasing o

section Locks

open InodeObjects

variable {fs : Superblocks} {s s' : ObjectRun} {life : Nat → Life} {t object : Nat}
  {c' : InodeObjects} {p q : ObjectThread}

/-- A step that leaves the objects. -/
theorem Locked.quiet (locked : Locked s) (thread : s'.code.thread = Function.update s.code.thread t q)
    (objects : s'.code.object = s.code.object) (isPhase : s.code.thread t = p)
    (before : locking p = none) (after : locking q = none) : Locked s' := by
  constructor
  · intro u o locks
    rw [thread] at locks
    rw [objects]
    by_cases isT : u = t
    · rw [isT, Function.update_self, after] at locks
      cases locks
    · rw [Function.update_of_ne isT] at locks
      exact locked.holders u o locks
  · intro o x here zero tied
    rw [objects] at here
    obtain ⟨u, releases⟩ := locked.unused o x here zero tied
    refine ⟨u, ?_⟩
    have isOther : u ≠ t := by
      rintro rfl
      rw [← isPhase, releases] at before
      cases before
    rw [thread, Function.update_of_ne isOther, releases]

/-- A step that writes one object; who holds its lock is the thread itself, or it stays. -/
theorem Locked.write {k : Nat} {y : Option LandlockObject} (locked : Locked s)
    (thread : s'.code.thread = Function.update s.code.thread t q)
    (objects : s'.code.object = Function.update s.code.object k y)
    (isPhase : s.code.thread t = p) (before : ∀ o, locking p = some o → o = k)
    (after : ∀ o, locking q = some o → o = k ∧ ∃ x, y = some x ∧ x.lock = some t)
    (lock : ∀ u, u ≠ t → locking (s.code.thread u) = some k → ∃ x, y = some x ∧ x.lock = some u)
    (unused : ∀ x, y = some x → x.usage = 0 → x.underobj ≠ none → q = .releasing k ∨
      ∃ x₀, s.code.object k = some x₀ ∧ x₀.usage = 0 ∧ x₀.underobj ≠ none ∧ p ≠ .releasing k) :
    Locked s' := by
  constructor
  · intro u o locks
    rw [thread] at locks
    rw [objects]
    by_cases isT : u = t
    · rw [isT, Function.update_self] at locks
      obtain ⟨isK, mine⟩ := after o locks
      rw [isK, isT, Function.update_self]
      exact mine
    · rw [Function.update_of_ne isT] at locks
      by_cases isK : o = k
      · rw [isK] at locks ⊢
        rw [Function.update_self]
        exact lock u isT locks
      · rw [Function.update_of_ne isK]
        exact locked.holders u o locks
  · intro o x here zero tied
    rw [objects] at here
    by_cases isK : o = k
    · subst isK
      rw [Function.update_self] at here
      rcases unused x here zero tied with releases | ⟨x₀, there, wasZero, wasTied, other⟩
      · exact ⟨t, by rw [thread, Function.update_self, releases]⟩
      · obtain ⟨u, releases⟩ := locked.unused o x₀ there wasZero wasTied
        refine ⟨u, ?_⟩
        have isOther : u ≠ t := by
          rintro rfl
          exact other (isPhase.symm.trans releases)
        rw [thread, Function.update_of_ne isOther, releases]
    · rw [Function.update_of_ne isK] at here
      obtain ⟨u, releases⟩ := locked.unused o x here zero tied
      refine ⟨u, ?_⟩
      have isOther : u ≠ t := by
        rintro rfl
        refine isK (before o ?_)
        rw [← isPhase, releases]
        rfl
      rw [thread, Function.update_of_ne isOther, releases]

theorem unlocking {claim : Prop} {k : Nat} (nothing : locking q = none)
    (locks : locking q = some k) : claim := by
  rw [nothing] at locks
  cases locks

/-- The lock of an object has one holder. -/
theorem Locked.only (locked : Locked s) {u k : Nat} {o : LandlockObject} (isOther : u ≠ t)
    (here : s.code.object k = some o) (lock : o.lock = none ∨ o.lock = some t) :
    locking (s.code.thread u) ≠ some k := by
  intro locks
  obtain ⟨x, there, holder⟩ := locked.holders u k locks
  cases here.symm.trans there
  rcases lock with unlocked | mine
  · rw [unlocked] at holder
    cases holder
  · rw [mine] at holder
    exact isOther (Option.some.inj holder).symm

/-- Nobody has locked the object of a creator. -/
theorem Agrees.unlocked (agrees : Agrees s life) {inode : Nat}
    (isPhase : s.code.thread t = .created inode object) (u : Nat) :
    locking (s.code.thread u) ≠ some object := by
  have isLife : life object = .held t .creator := by
    have holds : holding (s.code.thread t) = some (object, inode, .creator) := by
      rw [isPhase]
      rfl
    exact (agrees.holder holds).1
  intro locks
  cases phase : s.code.thread u with
  | releasing o =>
    rw [phase] at locks
    have shown := agrees.puts u o (by rw [phase]; rfl)
    rw [Option.some.inj locks, isLife] at shown
    cases shown
  | releaseTook o i =>
    rw [phase] at locks
    have holds : holding (s.code.thread u) = some (o, i, .taker) := by
      rw [phase]
      rfl
    have taken := (agrees.holder holds).1
    rw [Option.some.inj locks, isLife] at taken
    cases taken
  | _ =>
    rw [phase] at locks
    cases locks

/-- A step that only changes how often an object is used. -/
theorem Locked.reused (locked : Locked s) {k : Nat} {o : LandlockObject} {usage : Nat}
    (here : s.code.object k = some o) (used : usage = 0 → o.usage = 0)
    (thread : s'.code.thread = Function.update s.code.thread t q)
    (objects : s'.code.object = Function.update s.code.object k (some { o with usage }))
    (isPhase : s.code.thread t = p) (before : locking p = none) (after : locking q = none) :
    Locked s' := by
  refine locked.write thread objects isPhase ?_ ?_ ?_ ?_
  · intro o locks
    rw [before] at locks
    cases locks
  · intro o locks
    rw [after] at locks
    cases locks
  · intro u _ locks
    obtain ⟨x, there, holder⟩ := locked.holders u k locks
    cases here.symm.trans there
    exact ⟨_, rfl, holder⟩
  · intro x isX zero tied
    cases isX
    refine .inr ⟨o, here, used zero, tied, ?_⟩
    rintro rfl
    cases before

theorem step_locked (locked : Locked s) (agrees : Agrees s life) (isPhase : s.code.thread t = p)
    (step : ThreadStep fs s.code t p c') : Locked (s.record t c') := by
  have code : (s.record t c').code = c' := record_code
  have threads := congrArg InodeObjects.thread code
  have objects := congrArg InodeObjects.object code
  cases step with
  | gets inode object o here used =>
    refine locked.reused here ?_ threads objects isPhase rfl rfl
    intro zero
    cases zero
  | puts p object o either here more =>
    have before : locking p = none := by rcases either with rfl | rfl <;> rfl
    refine locked.reused here ?_ threads objects isPhase before rfl
    omega
  | creates inode object fresh =>
    refine locked.write threads objects isPhase
      (fun _ => unlocking rfl) (fun _ => unlocking rfl) ?_ ?_
    · intro u _ locks
      obtain ⟨x, there, -⟩ := locked.holders u object locks
      rw [fresh] at there
      cases there
    · intro x isX zero
      cases isX
      cases zero
  | discards inode object pointer =>
    refine locked.write threads objects isPhase
      (fun _ => unlocking rfl) (fun _ => unlocking rfl) ?_ fun _ isX => by cases isX
    exact fun u _ locks => absurd locks (Agrees.unlocked agrees isPhase u)
  | releases object o here unlocked one =>
    refine locked.write threads objects isPhase
      (fun _ => unlocking rfl) ?_ ?_ ?_
    · intro k locks
      cases locks
      exact ⟨rfl, _, rfl, rfl⟩
    · exact fun u isOther locks => absurd locks (locked.only isOther here (.inl unlocked))
    · exact fun x _ _ _ => .inl rfl
  | untied object o here nothing =>
    obtain ⟨x, there, mine⟩ := locked.holders t object (by rw [isPhase]; rfl)
    cases here.symm.trans there
    refine locked.write threads objects isPhase
      ?_ (fun _ => unlocking rfl) ?_ ?_
    · exact fun k locks => (Option.some.inj locks).symm
    · exact fun u isOther locks => absurd locks (locked.only isOther here (.inr mine))
    · intro x isX zero tied
      cases isX
      exact absurd nothing tied
  | takes object inode o here underobj =>
    obtain ⟨x, there, mine⟩ := locked.holders t object (by rw [isPhase]; rfl)
    cases here.symm.trans there
    refine locked.write threads objects isPhase ?_ ?_ ?_ ?_
    · exact fun k locks => (Option.some.inj locks).symm
    · intro k locks
      cases locks
      exact ⟨rfl, _, rfl, mine⟩
    · exact fun u isOther locks => absurd locks (locked.only isOther here (.inr mine))
    · intro x isX zero tied
      cases isX
      exact absurd rfl tied
  | counts object inode o here =>
    obtain ⟨x, there, mine⟩ := locked.holders t object (by rw [isPhase]; rfl)
    cases here.symm.trans there
    refine locked.write threads objects isPhase
      ?_ (fun _ => unlocking rfl) ?_ ?_
    · exact fun k locks => (Option.some.inj locks).symm
    · exact fun u isOther locks => absurd locks (locked.only isOther here (.inr mine))
    · intro x isX zero tied
      cases isX
      -- the reference has been taken over
      have holds : holding (s.code.thread t) = some (object, inode, .taker) := by
        rw [isPhase]
        rfl
      have under := agrees.underobjs object
      rw [here, (agrees.holder holds).1] at under
      exact absurd (Option.some.inj under) tied
  | hookTakes sb inode object rest prev o here unlocked underobj =>
    refine locked.write threads objects isPhase
      (fun _ => unlocking rfl) (fun _ => unlocking rfl) ?_ ?_
    · exact fun u isOther locks => absurd locks (locked.only isOther here (.inl unlocked))
    · intro x isX zero tied
      cases isX
      exact absurd rfl tied
  | ends sb prev =>
    refine locked.quiet (q := .waiting sb) (threads.trans ?_)
      (objects.trans (object_iputPrev s.code prev)) isPhase rfl rfl
    exact congrArg (Function.update · t _) (thread_iputPrev s.code prev)
  | passes sb inode rest prev =>
    refine locked.quiet (q := .walking sb rest (some inode)) (threads.trans ?_)
      (objects.trans (object_iputPrev s.code prev)) isPhase rfl rfl
    exact congrArg (Function.update · t _) (thread_iputPrev s.code prev)
  | _ => exact locked.quiet threads objects isPhase rfl rfl

theorem act_locked {a : ObjectAct} (locked : Locked s) (agrees : Agrees s life)
    (stepped : act fs s a = some s') : Locked s' := by
  cases act_cases stepped with
  | getInodeObject t inode idle live owns => exact locked.quiet rfl rfl idle rfl rfl
  | putObject t object idle owns => exact locked.quiet rfl rfl idle rfl rfl
  | sbDelete t sb idle => exact locked.quiet rfl rfl idle rfl rfl
  | step t new c turn => exact step_locked locked agrees rfl turn
  | getObject object o owns here =>
    constructor
    · intro u k locks
      obtain ⟨x, there, holder⟩ := locked.holders u k locks
      by_cases isObject : k = object
      · subst isObject
        cases here.symm.trans there
        exact ⟨_, Function.update_self k _ s.code.object, holder⟩
      · exact ⟨x, (Function.update_of_ne isObject _ s.code.object).trans there, holder⟩
    · intro k x there zero tied
      by_cases isObject : k = object
      · subst isObject
        cases (Function.update_self k _ s.code.object).symm.trans there
        cases zero
      · exact locked.unused k x
          ((Function.update_of_ne isObject _ s.code.object).symm.trans there) zero tied
  | _ => exact ⟨locked.holders, locked.unused⟩

theorem untied_locked (untied : Untied s) : Locked s := by
  constructor
  · intro t o locks
    rw [untied.threads] at locks
    cases locks
  · intro o x here
    rw [untied.objects] at here
    cases here

end Locks

/-- The thread is a `release_inode` that the `inode_refs` of a superblock counts. -/
def DrainsFrom (fs : Superblocks) (s : ObjectRun) (sb t : Nat) : Prop :=
  ∃ inode, draining (s.code.thread t) = some inode ∧ fs.superblock inode = sb

/-- `inode_refs` counts the `release_inode` calls that are not done. -/
def RefsCount (fs : Superblocks) (s : ObjectRun) : Prop :=
  ∀ sb, Tally (s.code.inodeRefs sb) (DrainsFrom fs s sb)

section Refs

open InodeObjects

variable {fs : Superblocks} {s s' : ObjectRun} {t : Nat} {c' : InodeObjects} {p q : ObjectThread}

theorem RefsCount.quiet (refs : RefsCount fs s)
    (thread : s'.code.thread = Function.update s.code.thread t q)
    (counters : s'.code.inodeRefs = s.code.inodeRefs) (isPhase : s.code.thread t = p)
    (same : draining q = draining p) : RefsCount fs s' := by
  intro sb
  rw [counters]
  refine (refs sb).congr fun u => ?_
  unfold DrainsFrom
  rw [thread]
  by_cases isT : u = t
  · rw [isT, Function.update_self, same, isPhase]
  · rw [Function.update_of_ne isT]

theorem RefsCount.still (refs : RefsCount fs s) (thread : s'.code.thread = s.code.thread)
    (counters : s'.code.inodeRefs = s.code.inodeRefs) : RefsCount fs s' := by
  intro sb
  rw [counters]
  refine (refs sb).congr fun u => ?_
  unfold DrainsFrom
  rw [thread]

theorem drains_elsewhere {sb u : Nat} (thread : s'.code.thread = Function.update s.code.thread t q)
    (isT : u ≠ t) : DrainsFrom fs s' sb u ↔ DrainsFrom fs s sb u := by
  unfold DrainsFrom
  rw [thread, Function.update_of_ne isT]

theorem drains_own {sb : Nat} (thread : s'.code.thread = Function.update s.code.thread t q) :
    DrainsFrom fs s' sb t ↔ ∃ inode, draining q = some inode ∧ fs.superblock inode = sb := by
  unfold DrainsFrom
  rw [thread, Function.update_self]

theorem RefsCount.more {inode : Nat} (refs : RefsCount fs s)
    (thread : s'.code.thread = Function.update s.code.thread t q)
    (counters : s'.code.inodeRefs = Function.update s.code.inodeRefs (fs.superblock inode)
      (s.code.inodeRefs (fs.superblock inode) + 1))
    (isPhase : s.code.thread t = p) (before : draining p = none) (after : draining q = some inode) :
    RefsCount fs s' := by
  intro sb
  have outside : ¬ DrainsFrom fs s sb t := by
    rintro ⟨i, drains, -⟩
    rw [isPhase, before] at drains
    cases drains
  have own : DrainsFrom fs s' sb t ↔ fs.superblock inode = sb := by
    rw [drains_own thread, after]
    simp only [Option.some.injEq, exists_eq_left']
  rw [counters]
  by_cases isSb : fs.superblock inode = sb
  · rw [isSb, Function.update_self]
    refine (refs sb).gain outside fun u => ?_
    by_cases isT : u = t
    · simp only [isT, own, isSb, true_or]
    · rw [drains_elsewhere thread isT]
      simp only [isT, false_or]
  · rw [Function.update_of_ne (Ne.symm isSb)]
    refine (refs sb).congr fun u => ?_
    by_cases isT : u = t
    · simp only [isT, own, isSb, outside]
    · exact drains_elsewhere thread isT

theorem RefsCount.less {inode : Nat} (refs : RefsCount fs s)
    (thread : s'.code.thread = Function.update s.code.thread t q)
    (counters : s'.code.inodeRefs = Function.update s.code.inodeRefs (fs.superblock inode)
      (s.code.inodeRefs (fs.superblock inode) - 1))
    (isPhase : s.code.thread t = p) (before : draining p = some inode) (after : draining q = none) :
    RefsCount fs s' := by
  intro sb
  have outside : ¬ DrainsFrom fs s' sb t := by
    rw [drains_own thread, after]
    rintro ⟨i, drains, -⟩
    cases drains
  have own : DrainsFrom fs s sb t ↔ fs.superblock inode = sb := by
    unfold DrainsFrom
    rw [isPhase, before]
    simp only [Option.some.injEq, exists_eq_left']
  rw [counters]
  by_cases isSb : fs.superblock inode = sb
  · rw [isSb, Function.update_self]
    refine (refs sb).lose (own.mpr isSb) fun u => ?_
    by_cases isT : u = t
    · simp only [isT, outside, ne_eq, not_true_eq_false, false_and]
    · rw [drains_elsewhere thread isT]
      simp only [ne_eq, isT, not_false_eq_true, true_and]
  · rw [Function.update_of_ne (Ne.symm isSb)]
    refine (refs sb).congr fun u => ?_
    by_cases isT : u = t
    · simp only [isT, own, isSb, outside]
    · exact drains_elsewhere thread isT

theorem step_refs (refs : RefsCount fs s) (isPhase : s.code.thread t = p)
    (step : ThreadStep fs s.code t p c') : RefsCount fs (s.record t c') := by
  have code : (s.record t c').code = c' := record_code
  have threads := congrArg thread code
  have counters := congrArg inodeRefs code
  cases step with
  | counts object inode o here =>
    exact refs.more threads counters isPhase rfl rfl
  | released object inode =>
    exact refs.less threads counters isPhase rfl rfl
  | puts p object o either here more =>
    refine refs.quiet threads counters isPhase ?_
    rcases either with rfl | rfl <;> rfl
  | ends sb prev =>
    refine refs.quiet (q := .waiting sb) (threads.trans ?_)
      (counters.trans (inodeRefs_iputPrev s.code prev)) isPhase rfl
    exact congrArg (Function.update · t _) (thread_iputPrev s.code prev)
  | passes sb inode rest prev =>
    refine refs.quiet (q := .walking sb rest (some inode)) (threads.trans ?_)
      (counters.trans (inodeRefs_iputPrev s.code prev)) isPhase rfl
    exact congrArg (Function.update · t _) (thread_iputPrev s.code prev)
  | _ => exact refs.quiet threads counters isPhase rfl

theorem act_refs {a : ObjectAct} (refs : RefsCount fs s) (stepped : act fs s a = some s') :
    RefsCount fs s' := by
  cases act_cases stepped with
  | getInodeObject t inode idle live owns => exact refs.quiet rfl rfl idle rfl
  | putObject t object idle owns => exact refs.quiet rfl rfl idle rfl
  | sbDelete t sb idle => exact refs.quiet rfl rfl idle rfl
  | step t new c turn => exact step_refs refs rfl turn
  | _ => exact refs.still rfl rfl

theorem untied_refs (untied : Untied s) : RefsCount fs s := by
  intro sb
  rw [untied.refs]
  refine Tally.zero ?_
  rintro t ⟨inode, drains, -⟩
  rw [untied.threads] at drains
  cases drains

end Refs

/-- Who has a pointer to a tied object in hand resets it. -/
def Settled (c : InodeObjects) (inode : Nat) : Prop :=
  ∀ o, (c.inode inode).object = some o → ∃ t, settling (c.thread t) = some (o, inode)

/-- What holds of superblocks from the call of `hook_sb_delete` on, where nobody calls
`get_inode_object` for their inodes any more. -/
structure Closing (fs : Superblocks) (s : ObjectRun) : Prop where
  callers : ∀ t i, refOf .caller (s.code.thread t) = some i → s.closing (fs.superblock i) = false
  hooks : ∀ t sb, hookOf (s.code.thread t) = some sb → s.closing sb = true
  pinned : ∀ t sb i o rest prev, s.code.thread t = .pinned sb i o rest prev →
    fs.superblock i = sb → (s.code.inode i).object = some o ∨ (s.code.inode i).object = none
  passed : ∀ t sb, hookOf (s.code.thread t) = some sb → ∀ i, fs.superblock i = sb →
    i ∉ remaining (s.code.thread t) → Settled s.code i
  closed : ∀ sb, s.deleted sb = true → s.closing sb = true
  deleted : ∀ sb, s.deleted sb = true → ∀ i, fs.superblock i = sb → Settled s.code i
  drained : ∀ sb, s.deleted sb = true → ∀ t, ¬ DrainsFrom fs s sb t

section Closings

open InodeObjects

variable {fs : Superblocks} {s s' : ObjectRun} {life : Nat → Life} {t : Nat} {c c' : InodeObjects}
  {p q : ObjectThread}

/-- What a step does to the pointers, and which phases it may lead to. -/
structure Effect (c : InodeObjects) (t : Nat) (p q : ObjectThread) (c' : InodeObjects) : Prop where
  thread : c'.thread = Function.update c.thread t q
  callers : ∀ i, refOf .caller q = some i → refOf .caller p = some i
  pointers : ∀ i, (c'.inode i).object = (c.inode i).object ∨ (c'.inode i).object = none ∨
    refOf .caller p = some i
  settled : ∀ o i, settling p = some (o, i) → (c'.inode i).object = none
  hooks : ∀ sb, hookOf q = some sb → hookOf p = some sb
  pinned : ∀ sb i o rest prev, q = .pinned sb i o rest prev → (c'.inode i).object = some o
  drains : ∀ i, draining q = some i → draining p = some i ∨ ∃ o, p = .releaseTook o i

/-- A step that leaves the pointers. -/
theorem Effect.still (thread : c'.thread = Function.update c.thread t q)
    (pointers : ∀ i, (c'.inode i).object = (c.inode i).object)
    (callers : refOf .caller q = none ∨ refOf .caller q = refOf .caller p)
    (settled : settling p = none) (hooks : hookOf q = none ∨ hookOf q = hookOf p)
    (pinned : ∀ sb i o rest prev, q = .pinned sb i o rest prev → (c.inode i).object = some o)
    (drains : draining q = none ∨ draining q = draining p) : Effect c t p q c' := by
  refine ⟨thread, fun i caller => ?_, fun i => .inl (pointers i), fun o i settles => ?_,
    fun sb hook => ?_, fun sb i o rest prev phase => ?_, fun i drain => ?_⟩
  · rcases callers with nobody | same
    · rw [nobody] at caller
      cases caller
    · rwa [same] at caller
  · rw [settled] at settles
    cases settles
  · rcases hooks with nobody | same
    · rw [nobody] at hook
      cases hook
    · rwa [same] at hook
  · rw [pointers]
    exact pinned sb i o rest prev phase
  · rcases drains with nobody | same
    · rw [nobody] at drain
      cases drain
    · exact .inl (same ▸ drain)

theorem pointer_reset (inode i : Nat) : ((c.assign inode none).inode i).object =
    if i = inode then none else (c.inode i).object := pointer_assign none i

theorem threadStep_effect (step : ThreadStep fs c t p c') : ∃ q, Effect c t p q c' := by
  cases step with
  | ties inode object pointer =>
    refine ⟨.idle, rfl, nofun, fun i => ?_, nofun, nofun, nofun, nofun⟩
    have assigned : (((c.iget inode).assign inode (some object)).inode i).object =
        if i = inode then some object else ((c.iget inode).inode i).object :=
      pointer_assign (some object) i
    by_cases here : i = inode
    · exact .inr (.inr (congrArg some here.symm))
    · rw [if_neg here] at assigned
      exact .inl (assigned.trans (pointer_iget c inode i))
  | clears object inode =>
    refine ⟨.releaseCleared object inode, rfl, nofun, fun i => ?_, ?_, nofun, nofun, ?_⟩
    · have reset := pointer_reset (c := c) inode i
      by_cases here : i = inode
      · rw [if_pos here] at reset
        exact .inr (.inl reset)
      · rw [if_neg here] at reset
        exact .inl reset
    · intro o i settles
      cases settles
      exact (pointer_reset (c := c) inode inode).trans (if_pos rfl)
    · exact fun i drain => .inl drain
  | hookClears sb inode object rest prev =>
    refine ⟨.hookCleared sb inode object rest prev, rfl, nofun, fun i => ?_, ?_, ?_, nofun, nofun⟩
    · have reset := pointer_reset (c := c) inode i
      by_cases here : i = inode
      · rw [if_pos here] at reset
        exact .inr (.inl reset)
      · rw [if_neg here] at reset
        exact .inl reset
    · intro o i settles
      cases settles
      exact (pointer_reset (c := c) inode inode).trans (if_pos rfl)
    · exact fun sb' hook => hook
  | counts object inode o here =>
    refine ⟨.releaseCounted object inode, rfl, nofun, fun i => .inl rfl, nofun, nofun, nofun, ?_⟩
    intro i drain
    cases drain
    exact .inr ⟨object, rfl⟩
  | pins sb inode object rest prev live pointer =>
    refine ⟨.pinned sb inode object rest prev, Effect.still rfl (pointer_iget c inode) (.inl rfl) rfl
      (.inr rfl) ?_ (.inl rfl)⟩
    intro sb' i o rest' prev' phase
    cases phase
    exact pointer
  | puts p object o either here more =>
    refine ⟨.idle, Effect.still rfl (fun _ => rfl) (.inl rfl) ?_ (.inl rfl) nofun (.inl rfl)⟩
    rcases either with rfl | rfl <;> rfl
  | iputs object inode =>
    exact ⟨.releasePut object inode, Effect.still rfl (pointer_iput c inode) (.inl rfl) rfl
      (.inl rfl) nofun (.inr rfl)⟩
  | hookIputs sb inode object rest prev =>
    exact ⟨.passed sb inode rest prev, Effect.still rfl (pointer_iput c inode) (.inl rfl) rfl
      (.inr rfl) nofun (.inl rfl)⟩
  | ends sb prev =>
    refine ⟨.waiting sb, Effect.still ?_ (pointer_iputPrev c prev) (.inl rfl) rfl (.inr rfl) nofun
      (.inl rfl)⟩
    exact congrArg (Function.update · t _) (thread_iputPrev c prev)
  | passes sb inode rest prev =>
    refine ⟨.walking sb rest (some inode), Effect.still ?_ (pointer_iputPrev c prev) (.inl rfl) rfl
      (.inr rfl) nofun (.inl rfl)⟩
    exact congrArg (Function.update · t _) (thread_iputPrev c prev)
  | _ =>
    refine ⟨_, Effect.still rfl (fun _ => rfl) ?_ rfl ?_ nofun ?_⟩
    · first
      | exact .inl rfl
      | exact .inr rfl
    · first
      | exact .inl rfl
      | exact .inr rfl
    · exact .inl rfl

theorem record_closing : (s.record t c').closing = s.closing := by
  unfold ObjectRun.record
  split <;> rfl

theorem record_deleted {sb : Nat} (deleted : (s.record t c').deleted sb = true) :
    s.deleted sb = true ∨ s.code.thread t = .waiting sb := by
  unfold ObjectRun.record at deleted
  split at deleted
  case h_7 _ _ sb' phase =>
    dsimp only at deleted
    by_cases isSb : sb = sb'
    · rw [isSb]
      exact .inr phase
    · rw [Function.update_of_ne isSb] at deleted
      exact .inl deleted
  all_goals exact .inl deleted

/-- What is settled stays so while no caller has the inode. -/
theorem Effect.settles (effect : Effect c t p q c') (isPhase : c.thread t = p) {inode : Nat}
    (nobody : refOf .caller p ≠ some inode) (before : Settled c inode) : Settled c' inode := by
  intro o pointer
  rcases effect.pointers inode with same | reset | caller
  · rw [same] at pointer
    obtain ⟨u, settles⟩ := before o pointer
    refine ⟨u, ?_⟩
    rw [effect.thread]
    by_cases isT : u = t
    · rw [isT, isPhase] at settles
      rw [← same, effect.settled o inode settles] at pointer
      cases pointer
    · rwa [Function.update_of_ne isT]
  · rw [reset] at pointer
    cases pointer
  · exact absurd caller nobody

theorem holding_of_settling {u object inode : Nat}
    (settles : settling (c.thread u) = some (object, inode)) :
    holding (c.thread u) = some (object, inode, .taker) := by
  cases phase : c.thread u with
  | releaseCounted o i =>
    rw [phase] at settles
    cases settles
    rfl
  | hookTook sb i o rest prev =>
    rw [phase] at settles
    cases settles
    rfl
  | _ =>
    rw [phase] at settles
    cases settles

/-- The thread that has taken over a reference settles the inode once the lock of the object is
given back. -/
theorem settled_of_free (agrees : Agrees s life) (locked : Locked s) {inode object : Nat}
    {o : LandlockObject} (pointer : (s.code.inode inode).object = some object)
    (here : s.code.object object = some o) (unlocked : o.lock = none)
    (other : o.underobj ≠ some inode) : ∃ u, settling (s.code.thread u) = some (object, inode) := by
  obtain ⟨pointed, home⟩ := (agrees.pointers inode object).mp pointer
  have under := agrees.underobjs object
  rw [here, Option.map_some, home] at under
  cases isLife : life object with
  | absent =>
    rw [isLife] at pointed
    exact pointed.elim
  | dropped =>
    rw [isLife] at pointed
    exact pointed.elim
  | tied =>
    rw [isLife] at under
    exact absurd (Option.some.inj under) other
  | held u part =>
    rw [isLife] at pointed
    cases part with
    | creator => exact pointed.elim
    | resetter => exact pointed.elim
    | taker =>
      have holds : holding (s.code.thread u) = some (object, inode, .taker) := by
        rw [agrees.holders, isLife]
        exact ⟨rfl, home⟩
      refine ⟨u, ?_⟩
      cases phase : s.code.thread u with
      | releaseTook o' i' =>
        rw [phase] at holds
        cases holds
        obtain ⟨x, there, holder⟩ := locked.holders u object (by rw [phase]; rfl)
        cases here.symm.trans there
        rw [unlocked] at holder
        cases holder
      | releaseCounted o' i' =>
        rw [phase] at holds
        cases holds
        rfl
      | hookTook sb' i' o' rest' prev' =>
        rw [phase] at holds
        cases holds
        rfl
      | _ =>
        rw [phase] at holds
        cases holds

/-- A pointer to an object whose reference is not dropped keeps the inode from the walk. -/
theorem unpointed (agrees : Agrees s life) (counted : Counted s) {inode : Nat}
    (skipped : (s.code.inode inode).count = 0 ∨ (s.code.inode inode).state ≠ .live) :
    Settled s.code inode := by
  intro object pointer
  obtain ⟨pointed, home⟩ := (agrees.pointers inode object).mp pointer
  have shown := (agrees.shown_of_pointer pointer).1
  have unput : (life object).iputs = 0 := by
    cases isLife : life object with
    | dropped =>
      rw [isLife] at pointed
      exact pointed.elim
    | _ => rfl
  have holds : Holds s inode (.object object) :=
    ⟨home, (agrees.iholds object).trans shown, (agrees.iputs object).trans unput⟩
  rcases skipped with zero | dead
  · have positive := (counted.counts inode).pos holds
    omega
  · exact absurd holds (counted.dead inode dead _)

/-- What the walk is done with after a step is settled. -/
theorem step_left (agrees : Agrees s life) (counted : Counted s) (locked : Locked s)
    (closing : Closing fs s) (isPhase : s.code.thread t = p) (step : ThreadStep fs s.code t p c')
    (effect : Effect s.code t p q c') {sb inode : Nat} (hook : hookOf q = some sb)
    (home : fs.superblock inode = sb) (before : inode ∈ remaining p) (after : inode ∉ remaining q) :
    Settled c' inode := by
  have nobody : refOf .caller p ≠ some inode := by
    intro caller
    have isOpen := closing.callers t inode (by rw [isPhase]; exact caller)
    have closes := closing.hooks t sb (by rw [isPhase]; exact effect.hooks sb hook)
    rw [home, closes] at isOpen
    cases isOpen
  have threads := effect.thread
  have isQ : c'.thread t = q := by
    rw [threads, Function.update_self]
  cases step with
  | unused sb' inode' rest prev zero =>
    cases (Function.update_self t _ s.code.thread).symm.trans isQ
    rcases List.mem_cons.mp before with isInode | inside
    · rw [isInode]
      exact effect.settles isPhase (isInode ▸ nobody) (unpointed agrees counted (.inl zero))
    · exact absurd inside after
  | sees sb' inode' rest prev used =>
    cases (Function.update_self t _ s.code.thread).symm.trans isQ
    exact absurd before after
  | skips sb' inode' rest prev skipped =>
    cases (Function.update_self t _ s.code.thread).symm.trans isQ
    rcases List.mem_cons.mp before with isInode | inside
    · rw [isInode]
      refine effect.settles isPhase (isInode ▸ nobody) ?_
      rcases skipped with dead | unpointing
      · exact unpointed agrees counted (.inr dead)
      · intro o pointer
        rw [unpointing] at pointer
        cases pointer
    · exact absurd inside after
  | pins sb' inode' object rest prev live pointer =>
    cases (Function.update_self t _ s.code.thread).symm.trans isQ
    exact absurd before after
  | hookTakes sb' inode' object rest prev o here unlocked underobj =>
    cases (Function.update_self t _ s.code.thread).symm.trans isQ
    rcases List.mem_cons.mp before with isInode | inside
    · subst isInode
      cases hook
      intro o' pointer
      refine ⟨t, ?_⟩
      rw [isQ]
      have was : (s.code.inode inode).object = some o' := pointer
      rcases closing.pinned t sb inode object rest prev isPhase home with same | reset
      · rw [same] at was
        cases was
        rfl
      · rw [reset] at was
        cases was
    · exact absurd inside after
  | leaves sb' inode' object rest prev o here unlocked other =>
    cases (Function.update_self t _ s.code.thread).symm.trans isQ
    rcases List.mem_cons.mp before with isInode | inside
    · subst isInode
      cases hook
      refine effect.settles isPhase nobody fun o' pointer => ?_
      rcases closing.pinned t sb inode object rest prev isPhase home with same | reset
      · rw [same] at pointer
        cases pointer
        exact settled_of_free agrees locked same here unlocked other
      · rw [reset] at pointer
        cases pointer
    · exact absurd inside after
  | hookClears sb' inode' object rest prev =>
    cases (Function.update_self t _ s.code.thread).symm.trans isQ
    exact absurd before after
  | hookIputs sb' inode' object rest prev =>
    cases (Function.update_self t _ s.code.thread).symm.trans isQ
    exact absurd before after
  | passes sb' inode' rest prev =>
    cases (Function.update_self t _ (s.code.iputPrev prev).thread).symm.trans isQ
    exact absurd before after
  | puts p object o either here more =>
    rcases either with rfl | rfl <;> exact absurd before List.not_mem_nil
  | _ => exact absurd before List.not_mem_nil

/-- A step of a thread that gets no new caller. -/
theorem step_closing (closing : Closing fs s) (agrees : Agrees s life) (counted : Counted s)
    (locked : Locked s) (refs : RefsCount fs s) (isPhase : s.code.thread t = p)
    (step : ThreadStep fs s.code t p c') : Closing fs (s.record t c') := by
  obtain ⟨q, effect⟩ := threadStep_effect step
  have code : (s.record t c').code = c' := record_code
  have threads : (s.record t c').code.thread = Function.update s.code.thread t q := by
    rw [code, effect.thread]
  have own : (s.record t c').code.thread t = q := by rw [threads, Function.update_self]
  have other : ∀ u, u ≠ t → (s.record t c').code.thread u = s.code.thread u := by
    intro u isT
    rw [threads, Function.update_of_ne isT]
  have quiet : ∀ i, s.closing (fs.superblock i) = true → refOf .caller p ≠ some i := by
    intro i closes caller
    have isOpen := closing.callers t i (by rw [isPhase]; exact caller)
    rw [closes] at isOpen
    cases isOpen
  have stays : ∀ i, s.closing (fs.superblock i) = true → Settled s.code i → Settled c' i :=
    fun i closes before => effect.settles isPhase (quiet i closes) before
  have hooking : ∀ sb, hookOf q = some sb → hookOf (s.code.thread t) = some sb := by
    intro sb hook
    rw [isPhase]
    exact effect.hooks sb hook
  constructor
  · intro u i caller
    rw [record_closing]
    by_cases isT : u = t
    · rw [isT, own] at caller
      exact closing.callers t i (by rw [isPhase]; exact effect.callers i caller)
    · rw [other u isT] at caller
      exact closing.callers u i caller
  · intro u sb hook
    rw [record_closing]
    by_cases isT : u = t
    · rw [isT, own] at hook
      exact closing.hooks t sb (hooking sb hook)
    · rw [other u isT] at hook
      exact closing.hooks u sb hook
  · intro u sb i o rest prev phase home
    rw [code]
    by_cases isT : u = t
    · rw [isT, own] at phase
      exact .inl (effect.pinned sb i o rest prev phase)
    · rw [other u isT] at phase
      have closes := closing.hooks u sb (by rw [phase]; rfl)
      rw [← home] at closes
      rcases effect.pointers i with same | reset | caller
      · rw [same]
        exact closing.pinned u sb i o rest prev phase home
      · exact .inr reset
      · exact absurd caller (quiet i closes)
  · intro u sb hook i home outside
    rw [code]
    by_cases isT : u = t
    · rw [isT, own] at hook outside
      have closes := closing.hooks t sb (hooking sb hook)
      by_cases before : i ∈ remaining p
      · exact step_left agrees counted locked closing isPhase step effect hook home before outside
      · refine stays i (home ▸ closes) (closing.passed t sb (hooking sb hook) i home ?_)
        rwa [isPhase]
    · rw [other u isT] at hook outside
      exact stays i (home ▸ closing.hooks u sb hook) (closing.passed u sb hook i home outside)
  · intro sb deleted
    rw [record_closing]
    rcases record_deleted deleted with before | waits
    · exact closing.closed sb before
    · exact closing.hooks t sb (by rw [waits]; rfl)
  · intro sb deleted i home
    rw [code]
    rcases record_deleted deleted with before | waits
    · exact stays i (home ▸ closing.closed sb before) (closing.deleted sb before i home)
    · have hook : hookOf (s.code.thread t) = some sb := by
        rw [waits]
        rfl
      refine stays i (home ▸ closing.hooks t sb hook) (closing.passed t sb hook i home ?_)
      rw [waits]
      exact List.not_mem_nil
  · intro sb deleted u drains
    obtain ⟨i, drain, home⟩ := drains
    rcases record_deleted deleted with before | waits
    · by_cases isT : u = t
      · rw [isT, own] at drain
        rcases effect.drains i drain with already | ⟨o, took⟩
        · exact closing.drained sb before t ⟨i, by rw [isPhase]; exact already, home⟩
        · -- nobody else has taken over the reference, so the inode is not settled
          have holds : holding (s.code.thread t) = some (o, i, .taker) := by
            rw [isPhase, took]
            rfl
          obtain ⟨isLife, isHome⟩ := agrees.holder holds
          have pointer : (s.code.inode i).object = some o := by
            rw [agrees.pointers, isLife]
            exact ⟨trivial, isHome⟩
          obtain ⟨v, settles⟩ := closing.deleted sb before i home o pointer
          have taker := holding_of_settling settles
          have same := (agrees.holder taker).1
          rw [isLife] at same
          cases same
          rw [isPhase, took] at settles
          cases settles
      · rw [other u isT] at drain
        exact closing.drained sb before u ⟨i, drain, home⟩
    · have none_left : s.code.inodeRefs sb = 0 := by
        rw [isPhase] at waits
        subst waits
        cases step with
        | returns sb' zero => exact zero
        | puts p object o either here more => rcases either with isP | isP <;> cases isP
      have tally := refs sb
      rw [none_left] at tally
      by_cases isT : u = t
      · rw [isT, own] at drain
        rcases effect.drains i drain with already | ⟨o, took⟩
        · rw [isPhase] at waits
          rw [waits] at already
          cases already
        · rw [isPhase, took] at waits
          cases waits
      · rw [other u isT] at drain
        exact tally.of_zero u ⟨i, drain, home⟩

/-- The contract of `generic_shutdown_super`: from the call of `hook_sb_delete` on, nobody is in
`get_inode_object` for an inode of the superblock. -/
def Unmounts (fs : Superblocks) (s : ObjectRun) : ObjectAct → Prop
  | .getInodeObject _ inode => s.closing (fs.superblock inode) = false
  | .sbDelete _ sb => ∀ t inode, refOf .caller (s.code.thread t) = some inode →
      fs.superblock inode ≠ sb
  | _ => True

/-- What other code does leaves pointers and threads. -/
theorem Closing.still (closing : Closing fs s) (threads : s'.code.thread = s.code.thread)
    (pointers : ∀ i, (s'.code.inode i).object = (s.code.inode i).object)
    (isClosing : s'.closing = s.closing) (isDeleted : s'.deleted = s.deleted) : Closing fs s' := by
  have stays : ∀ i, Settled s.code i → Settled s'.code i := by
    intro i before o pointer
    rw [pointers] at pointer
    rw [threads]
    exact before o pointer
  constructor
  · intro t i caller
    rw [threads] at caller
    rw [isClosing]
    exact closing.callers t i caller
  · intro t sb hook
    rw [threads] at hook
    rw [isClosing]
    exact closing.hooks t sb hook
  · intro t sb i o rest prev phase home
    rw [threads] at phase
    rw [pointers]
    exact closing.pinned t sb i o rest prev phase home
  · intro t sb hook i home outside
    rw [threads] at hook outside
    exact stays i (closing.passed t sb hook i home outside)
  · intro sb deleted
    rw [isDeleted] at deleted
    rw [isClosing]
    exact closing.closed sb deleted
  · intro sb deleted i home
    rw [isDeleted] at deleted
    exact stays i (closing.deleted sb deleted i home)
  · intro sb deleted t drains
    rw [isDeleted] at deleted
    unfold DrainsFrom at drains
    rw [threads] at drains
    exact closing.drained sb deleted t drains

/-- A thread that was idle starts a call. -/
theorem Closing.calls (closing : Closing fs s) (idle : s.code.thread t = .idle)
    (threads : s'.code.thread = Function.update s.code.thread t q)
    (pointers : s'.code.inode = s.code.inode) (isDeleted : s'.deleted = s.deleted)
    (callers : ∀ u i, refOf .caller (s'.code.thread u) = some i →
      s'.closing (fs.superblock i) = false)
    (closes : ∀ sb, s.closing sb = true → s'.closing sb = true)
    (hooks : ∀ sb, hookOf q = some sb → s'.closing sb = true)
    (unpinned : ∀ sb i o rest prev, q ≠ .pinned sb i o rest prev)
    (passed : ∀ sb, hookOf q = some sb → ∀ i, fs.superblock i = sb → i ∈ remaining q)
    (undrained : draining q = none) : Closing fs s' := by
  have own : s'.code.thread t = q := by rw [threads, Function.update_self]
  have other : ∀ u, u ≠ t → s'.code.thread u = s.code.thread u := by
    intro u isT
    rw [threads, Function.update_of_ne isT]
  have stays : ∀ i, Settled s.code i → Settled s'.code i := by
    intro i before o pointer
    rw [pointers] at pointer
    obtain ⟨u, settles⟩ := before o pointer
    refine ⟨u, ?_⟩
    rw [other u ?_]
    · exact settles
    · rintro rfl
      rw [idle] at settles
      cases settles
  refine ⟨callers, ?_, ?_, ?_, ?_, ?_, ?_⟩
  · intro u sb hook
    by_cases isT : u = t
    · rw [isT, own] at hook
      exact hooks sb hook
    · rw [other u isT] at hook
      exact closes sb (closing.hooks u sb hook)
  · intro u sb i o rest prev phase home
    by_cases isT : u = t
    · rw [isT, own] at phase
      exact absurd phase (unpinned sb i o rest prev)
    · rw [other u isT] at phase
      rw [pointers]
      exact closing.pinned u sb i o rest prev phase home
  · intro u sb hook i home outside
    by_cases isT : u = t
    · rw [isT, own] at hook outside
      exact absurd (passed sb hook i home) outside
    · rw [other u isT] at hook outside
      exact stays i (closing.passed u sb hook i home outside)
  · intro sb deleted
    rw [isDeleted] at deleted
    exact closes sb (closing.closed sb deleted)
  · intro sb deleted i home
    rw [isDeleted] at deleted
    exact stays i (closing.deleted sb deleted i home)
  · rintro sb deleted u ⟨i, drain, home⟩
    rw [isDeleted] at deleted
    by_cases isT : u = t
    · rw [isT, own, undrained] at drain
      cases drain
    · rw [other u isT] at drain
      exact closing.drained sb deleted u ⟨i, drain, home⟩

/-- Callers are the old ones and the new one. -/
theorem callers_of_call (closing : Closing fs s)
    (threads : s'.code.thread = Function.update s.code.thread t q)
    (same : s'.closing = s.closing)
    (isOpen : ∀ i, refOf .caller q = some i → s.closing (fs.superblock i) = false) (u i : Nat)
    (caller : refOf .caller (s'.code.thread u) = some i) :
    s'.closing (fs.superblock i) = false := by
  rw [same]
  rw [threads] at caller
  by_cases isT : u = t
  · rw [isT, Function.update_self] at caller
    exact isOpen i caller
  · rw [Function.update_of_ne isT] at caller
    exact closing.callers u i caller

theorem act_closing {a : ObjectAct} (closing : Closing fs s) (agrees : Agrees s life)
    (counted : Counted s) (locked : Locked s) (refs : RefsCount fs s) (guard : Unmounts fs s a)
    (stepped : act fs s a = some s') : Closing fs s' := by
  cases act_cases stepped with
  | getInodeObject t inode idle live owns =>
    refine closing.calls idle rfl rfl rfl ?_ (fun _ closes => closes) nofun nofun nofun rfl
    refine callers_of_call closing rfl rfl fun i caller => ?_
    cases caller
    exact guard
  | putObject t object idle owns =>
    refine closing.calls idle rfl rfl rfl ?_ (fun _ closes => closes) nofun nofun nofun rfl
    exact callers_of_call closing rfl rfl nofun
  | sbDelete t sb idle =>
    refine closing.calls idle rfl rfl rfl ?_ (fun sb' closes => ?_) (fun sb' hook => ?_) nofun
      (fun sb' hook i home => ?_) rfl
    · intro u i caller
      dsimp only [setThread] at caller ⊢
      by_cases isT : u = t
      · rw [isT, Function.update_self] at caller
        cases caller
      · rw [Function.update_of_ne isT] at caller
        rw [Function.update_of_ne (guard u i caller)]
        exact closing.callers u i caller
    · dsimp only
      by_cases isSb : sb' = sb
      · rw [isSb, Function.update_self]
      · rw [Function.update_of_ne isSb]
        exact closes
    · cases hook
      exact Function.update_self _ _ _
    · cases hook
      exact fs.listed sb i home
  | step t new c turn => exact step_closing closing agrees counted locked refs rfl turn
  | getObject object o owns here => exact closing.still rfl (fun _ => rfl) rfl rfl
  | iget inode live => exact closing.still rfl (pointer_iget s.code inode) rfl rfl
  | iput inode owns => exact closing.still rfl (pointer_iput s.code inode) rfl rfl
  | evict inode live unused => exact closing.still rfl (pointer_setInode rfl) rfl rfl
  | unlockNew inode new => exact closing.still rfl (pointer_setInode rfl) rfl rfl

theorem untied_closing (untied : Untied s) : Closing fs s := by
  constructor
  · intro t i _
    exact untied.open_ _
  · intro t sb hook
    rw [untied.threads] at hook
    cases hook
  · intro t sb i o rest prev phase
    rw [untied.threads] at phase
    cases phase
  · intro t sb hook
    rw [untied.threads] at hook
    cases hook
  · intro sb deleted
    rw [untied.mounted] at deleted
    cases deleted
  · intro sb deleted
    rw [untied.mounted] at deleted
    cases deleted
  · intro sb deleted
    rw [untied.mounted] at deleted
    cases deleted

end Closings

end Ksrc.Guarantees.LandlockDrain

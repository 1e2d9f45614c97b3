import Ksrc.Library.Transition
import Ksrc.Source.LandlockObjects

/-!
# References to inodes taken for Landlock objects

Source: `landlock/src/fs.c`, `object.c`. Threads call the three functions in any order and
number, the rest of the kernel takes and drops its own references. A ledger counts for each
object the `ihold` of `get_inode_object` and the `iput` of `release_inode` and of
`hook_sb_delete`.
-/
namespace Ksrc.Guarantees.LandlockInodes

open Library Source

/-- The code with what callers own and with the ledger. `users` are references to inodes and
`owned` references to objects that callers may give to a call; `closing` and `deleted` say of
which superblocks `hook_sb_delete` was called and returned. -/
structure ObjectRun where
  code : InodeObjects
  users : Nat → Nat
  owned : Nat → Nat
  inodeOf : Nat → Nat
  iholds : Nat → Nat
  releaseIputs : Nat → Nat
  hookIputs : Nat → Nat
  closing : Nat → Bool
  deleted : Nat → Bool

inductive ObjectAct where
  | getInodeObject (t inode : Nat)
  | putObject (t object : Nat)
  | sbDelete (t sb : Nat)
  | step (t : Nat) (new : Option Nat)
  | iget (inode : Nat)
  | iput (inode : Nat)
  | evict (inode : Nat)
  | unlockNew (inode : Nat)
  | getObject (object : Nat)

/-- One more at an index. -/
def bump (f : Nat → Nat) (i : Nat) : Nat → Nat := Function.update f i (f i + 1)

/-- One less at an index. -/
def drop (f : Nat → Nat) (i : Nat) : Nat → Nat := Function.update f i (f i - 1)

/-- What a step of a thread adds to the ledger, and what it gives back to its caller. -/
def ObjectRun.record (s : ObjectRun) (t : Nat) (code : InodeObjects) : ObjectRun :=
  match s.code.thread t, code.thread t with
  | .found inode object, .idle =>
    { s with code, users := bump s.users inode, owned := bump s.owned object }
  | .missed inode, .idle => { s with code, users := bump s.users inode }
  | .missed inode, .created _ object =>
    { s with code, inodeOf := Function.update s.inodeOf object inode }
  | .created inode object, .idle =>
    { s with code, users := bump s.users inode, owned := bump s.owned object
             iholds := bump s.iholds object }
  | .releaseCleared object _, _ => { s with code, releaseIputs := bump s.releaseIputs object }
  | .hookCleared _ _ object _ _, _ => { s with code, hookIputs := bump s.hookIputs object }
  | .waiting sb, _ => { s with code, deleted := Function.update s.deleted sb true }
  | _, _ => { s with code }

/-- Callers own what they pass; other code uses only its own references. -/
def act (fs : Superblocks) (s : ObjectRun) : ObjectAct → Option ObjectRun
  | .getInodeObject t inode =>
    if s.code.thread t = .idle ∧ (s.code.inode inode).state = .live ∧ 0 < s.users inode then
      some { s with code := s.code.setThread t (.lookingUp inode), users := drop s.users inode }
    else none
  | .putObject t object =>
    if s.code.thread t = .idle ∧ 0 < s.owned object then
      some { s with code := s.code.setThread t (.putting object), owned := drop s.owned object }
    else none
  | .sbDelete t sb =>
    if s.code.thread t = .idle then
      some { s with code := s.code.setThread t (.walking sb (fs.inodes sb) none)
                    closing := Function.update s.closing sb true }
    else none
  | .step t new => (s.code.threadStep fs t new).map (s.record t)
  | .iget inode =>
    if (s.code.inode inode).state = .live then
      some { s with code := s.code.iget inode, users := bump s.users inode }
    else none
  | .iput inode =>
    if 0 < s.users inode then
      some { s with code := s.code.iput inode, users := drop s.users inode }
    else none
  | .evict inode =>
    if (s.code.inode inode).state = .live ∧ (s.code.inode inode).count = 0 then
      some { s with
        code := s.code.setInode inode { s.code.inode inode with state := .freeing } }
    else none
  | .unlockNew inode =>
    if (s.code.inode inode).state = .new then
      some { s with code := s.code.setInode inode { s.code.inode inode with state := .live } }
    else none
  | .getObject object =>
    if 0 < s.owned object then
      (s.code.object object).map fun o =>
        { s with code := s.code.setObject object (some { o with usage := o.usage + 1 })
                 owned := bump s.owned object }
    else none

/-- Before Landlock is used. -/
structure Untied (s : ObjectRun) : Prop where
  threads : ∀ t, s.code.thread t = .idle
  objects : ∀ o, s.code.object o = none
  pointers : ∀ i, (s.code.inode i).object = none
  counts : ∀ i, (s.code.inode i).count = s.users i
  freed : ∀ i, (s.code.inode i).state = .freeing → s.users i = 0
  refs : ∀ sb, s.code.inodeRefs sb = 0
  owned : ∀ o, s.owned o = 0
  iholds : ∀ o, s.iholds o = 0
  releases : ∀ o, s.releaseIputs o = 0
  hooks : ∀ o, s.hookIputs o = 0
  open_ : ∀ sb, s.closing sb = false
  mounted : ∀ sb, s.deleted sb = false

def inodeObjects (fs : Superblocks) : Machine ObjectRun ObjectAct where
  start := Untied
  step := act fs

/-- The `iput` calls for an object. -/
def ObjectRun.iputs (s : ObjectRun) (object : Nat) : Nat :=
  s.releaseIputs object + s.hookIputs object

section Steps

open InodeObjects

/-- What a thread does next: its phase and what it makes of the state. -/
inductive ThreadStep (fs : Superblocks) (c : InodeObjects) (t : Nat) :
    ObjectThread → InodeObjects → Prop
  | finds (inode object : Nat) (pointer : (c.inode inode).object = some object) :
      ThreadStep fs c t (.lookingUp inode) (c.setThread t (.found inode object))
  | misses (inode : Nat) (pointer : (c.inode inode).object = none) :
      ThreadStep fs c t (.lookingUp inode) (c.setThread t (.missed inode))
  | refused (inode object : Nat) (o : LandlockObject) (here : c.object object = some o)
      (zero : o.usage = 0) :
      ThreadStep fs c t (.found inode object) (c.setThread t (.goingAway inode object))
  | gets (inode object : Nat) (o : LandlockObject) (here : c.object object = some o)
      (used : o.usage ≠ 0) :
      ThreadStep fs c t (.found inode object)
        ((c.setObject object (some { o with usage := o.usage + 1 })).setThread t .idle)
  | waits (inode object : Nat) (o : LandlockObject) (here : c.object object = some o)
      (unlocked : o.lock = none) :
      ThreadStep fs c t (.goingAway inode object) (c.setThread t (.lookingUp inode))
  | fails (inode : Nat) : ThreadStep fs c t (.missed inode) (c.setThread t .idle)
  | creates (inode object : Nat) (fresh : c.object object = none) :
      ThreadStep fs c t (.missed inode)
        ((c.setObject object (some { usage := 1, lock := none, underobj := some inode })).setThread
          t (.created inode object))
  | discards (inode object : Nat) (pointer : (c.inode inode).object ≠ none) :
      ThreadStep fs c t (.created inode object)
        ((c.setObject object none).setThread t (.lookingUp inode))
  | ties (inode object : Nat) (pointer : (c.inode inode).object = none) :
      ThreadStep fs c t (.created inode object)
        (((c.iget inode).assign inode (some object)).setThread t .idle)
  | last (object : Nat) (o : LandlockObject) (here : c.object object = some o)
      (one : o.usage = 1) :
      ThreadStep fs c t (.putting object) (c.setThread t (.puttingLast object))
  | puts (p : ObjectThread) (object : Nat) (o : LandlockObject)
      (phase : p = .putting object ∨ p = .puttingLast object) (here : c.object object = some o)
      (more : o.usage ≠ 1) :
      ThreadStep fs c t p
        ((c.setObject object (some { o with usage := o.usage - 1 })).setThread t .idle)
  | releases (object : Nat) (o : LandlockObject) (here : c.object object = some o)
      (unlocked : o.lock = none) (one : o.usage = 1) :
      ThreadStep fs c t (.puttingLast object)
        ((c.setObject object (some { o with usage := 0, lock := some t })).setThread t
          (.releasing object))
  | untied (object : Nat) (o : LandlockObject) (here : c.object object = some o)
      (nothing : o.underobj = none) :
      ThreadStep fs c t (.releasing object)
        ((c.setObject object (some { o with lock := none })).setThread t .idle)
  | takes (object inode : Nat) (o : LandlockObject) (here : c.object object = some o)
      (underobj : o.underobj = some inode) :
      ThreadStep fs c t (.releasing object)
        ((c.setObject object (some { o with underobj := none })).setThread t
          (.releaseTook object inode))
  | counts (object inode : Nat) (o : LandlockObject) (here : c.object object = some o) :
      ThreadStep fs c t (.releaseTook object inode)
        (((c.setInodeRefs (fs.superblock inode) (c.inodeRefs (fs.superblock inode) + 1)).setObject
          object (some { o with lock := none })).setThread t (.releaseCounted object inode))
  | clears (object inode : Nat) :
      ThreadStep fs c t (.releaseCounted object inode)
        ((c.assign inode none).setThread t (.releaseCleared object inode))
  | iputs (object inode : Nat) :
      ThreadStep fs c t (.releaseCleared object inode)
        ((c.iput inode).setThread t (.releasePut object inode))
  | released (object inode : Nat) :
      ThreadStep fs c t (.releasePut object inode)
        ((c.setInodeRefs (fs.superblock inode) (c.inodeRefs (fs.superblock inode) - 1)).setThread
          t .idle)
  | ends (sb : Nat) (prev : Option Nat) :
      ThreadStep fs c t (.walking sb [] prev) ((c.iputPrev prev).setThread t (.waiting sb))
  | unused (sb inode : Nat) (rest : List Nat) (prev : Option Nat)
      (zero : (c.inode inode).count = 0) :
      ThreadStep fs c t (.walking sb (inode :: rest) prev) (c.setThread t (.walking sb rest prev))
  | sees (sb inode : Nat) (rest : List Nat) (prev : Option Nat)
      (used : (c.inode inode).count ≠ 0) :
      ThreadStep fs c t (.walking sb (inode :: rest) prev)
        (c.setThread t (.referenced sb inode rest prev))
  | skips (sb inode : Nat) (rest : List Nat) (prev : Option Nat)
      (skipped : (c.inode inode).state ≠ .live ∨ (c.inode inode).object = none) :
      ThreadStep fs c t (.referenced sb inode rest prev) (c.setThread t (.walking sb rest prev))
  | pins (sb inode object : Nat) (rest : List Nat) (prev : Option Nat)
      (live : (c.inode inode).state = .live) (pointer : (c.inode inode).object = some object) :
      ThreadStep fs c t (.referenced sb inode rest prev)
        ((c.iget inode).setThread t (.pinned sb inode object rest prev))
  | hookTakes (sb inode object : Nat) (rest : List Nat) (prev : Option Nat) (o : LandlockObject)
      (here : c.object object = some o) (unlocked : o.lock = none)
      (underobj : o.underobj = some inode) :
      ThreadStep fs c t (.pinned sb inode object rest prev)
        ((c.setObject object (some { o with underobj := none })).setThread t
          (.hookTook sb inode object rest prev))
  | leaves (sb inode object : Nat) (rest : List Nat) (prev : Option Nat) (o : LandlockObject)
      (here : c.object object = some o) (unlocked : o.lock = none)
      (other : o.underobj ≠ some inode) :
      ThreadStep fs c t (.pinned sb inode object rest prev)
        (c.setThread t (.passed sb inode rest prev))
  | hookClears (sb inode object : Nat) (rest : List Nat) (prev : Option Nat) :
      ThreadStep fs c t (.hookTook sb inode object rest prev)
        ((c.assign inode none).setThread t (.hookCleared sb inode object rest prev))
  | hookIputs (sb inode object : Nat) (rest : List Nat) (prev : Option Nat) :
      ThreadStep fs c t (.hookCleared sb inode object rest prev)
        ((c.iput inode).setThread t (.passed sb inode rest prev))
  | passes (sb inode : Nat) (rest : List Nat) (prev : Option Nat) :
      ThreadStep fs c t (.passed sb inode rest prev)
        ((c.iputPrev prev).setThread t (.walking sb rest (some inode)))
  | returns (sb : Nat) (zero : c.inodeRefs sb = 0) :
      ThreadStep fs c t (.waiting sb) (c.setThread t .idle)

theorem getStep_cases {fs : Superblocks} {c c' : InodeObjects} {t : Nat} {new : Option Nat}
    (stepped : c.getStep t new = some c') : ThreadStep fs c t (c.thread t) c' := by
  unfold getStep at stepped
  split at stepped
  · rename_i inode phase
    rw [phase]
    split at stepped
    · rename_i object pointer
      cases stepped
      exact .finds inode object pointer
    · rename_i pointer
      cases stepped
      exact .misses inode pointer
  · rename_i inode object phase
    rw [phase]
    obtain ⟨o, here, next⟩ := Option.map_eq_some_iff.mp stepped
    split at next
    · rename_i zero
      rw [← next]
      exact .refused inode object o here zero
    · rename_i used
      rw [← next]
      exact .gets inode object o here used
  · rename_i inode object phase
    rw [phase]
    obtain ⟨o, here, next⟩ := Option.bind_eq_some_iff.mp stepped
    split at next
    · rename_i unlocked
      cases next
      exact .waits inode object o here unlocked
    · cases next
  · rename_i inode phase
    rw [phase]
    split at stepped
    · cases stepped
      exact .fails inode
    · rename_i object
      split at stepped
      · rename_i fresh
        cases stepped
        exact .creates inode object fresh
      · cases stepped
  · rename_i inode object phase
    rw [phase]
    split at stepped
    · rename_i pointer
      cases stepped
      exact .discards inode object pointer
    · rename_i pointer
      cases stepped
      exact .ties inode object (not_not.mp pointer)
  · cases stepped

theorem putStep_cases {fs : Superblocks} {c c' : InodeObjects} {t : Nat}
    (stepped : c.putStep fs t = some c') : ThreadStep fs c t (c.thread t) c' := by
  unfold putStep at stepped
  split at stepped
  · rename_i object phase
    rw [phase]
    obtain ⟨o, here, next⟩ := Option.map_eq_some_iff.mp stepped
    split at next
    · rename_i one
      rw [← next]
      exact .last object o here one
    · rename_i more
      rw [← next]
      exact .puts _ object o (.inl rfl) here more
  · rename_i object phase
    rw [phase]
    obtain ⟨o, here, next⟩ := Option.bind_eq_some_iff.mp stepped
    split at next
    · cases next
    · rename_i unlocked
      split at next
      · rename_i one
        cases next
        exact .releases object o here (not_not.mp unlocked) one
      · rename_i more
        cases next
        exact .puts _ object o (.inr rfl) here more
  · rename_i object phase
    rw [phase]
    obtain ⟨o, here, next⟩ := Option.map_eq_some_iff.mp stepped
    split at next
    · rename_i nothing
      rw [← next]
      exact .untied object o here nothing
    · rename_i inode underobj
      rw [← next]
      exact .takes object inode o here underobj
  · rename_i object inode phase
    rw [phase]
    obtain ⟨o, here, next⟩ := Option.map_eq_some_iff.mp stepped
    rw [← next]
    exact .counts object inode o here
  · rename_i object inode phase
    rw [phase]
    cases stepped
    exact .clears object inode
  · rename_i object inode phase
    rw [phase]
    cases stepped
    exact .iputs object inode
  · rename_i object inode phase
    rw [phase]
    cases stepped
    exact .released object inode
  · cases stepped

theorem hookStep_cases {fs : Superblocks} {c c' : InodeObjects} {t : Nat}
    (stepped : c.hookStep t = some c') : ThreadStep fs c t (c.thread t) c' := by
  unfold hookStep at stepped
  split at stepped
  · rename_i sb prev phase
    rw [phase]
    cases stepped
    exact .ends sb prev
  · rename_i sb inode rest prev phase
    rw [phase]
    split at stepped
    · rename_i zero
      cases stepped
      exact .unused sb inode rest prev zero
    · rename_i used
      cases stepped
      exact .sees sb inode rest prev used
  · rename_i sb inode rest prev phase
    rw [phase]
    split at stepped
    · rename_i other
      cases stepped
      exact .skips sb inode rest prev (.inl other)
    · rename_i live
      split at stepped
      · rename_i pointer
        cases stepped
        exact .skips sb inode rest prev (.inr pointer)
      · rename_i object pointer
        cases stepped
        exact .pins sb inode object rest prev (not_not.mp live) pointer
  · rename_i sb inode object rest prev phase
    rw [phase]
    obtain ⟨o, here, next⟩ := Option.bind_eq_some_iff.mp stepped
    split at next
    · cases next
    · rename_i unlocked
      split at next
      · rename_i underobj
        cases next
        exact .hookTakes sb inode object rest prev o here (not_not.mp unlocked) underobj
      · rename_i other
        cases next
        exact .leaves sb inode object rest prev o here (not_not.mp unlocked) other
  · rename_i sb inode object rest prev phase
    rw [phase]
    cases stepped
    exact .hookClears sb inode object rest prev
  · rename_i sb inode object rest prev phase
    rw [phase]
    cases stepped
    exact .hookIputs sb inode object rest prev
  · rename_i sb inode rest prev phase
    rw [phase]
    cases stepped
    exact .passes sb inode rest prev
  · rename_i sb phase
    rw [phase]
    split at stepped
    · rename_i zero
      cases stepped
      exact .returns sb zero
    · cases stepped
  · cases stepped

theorem threadStep_cases {fs : Superblocks} {c c' : InodeObjects} {t : Nat} {new : Option Nat}
    (stepped : c.threadStep fs t new = some c') : ThreadStep fs c t (c.thread t) c' := by
  unfold threadStep at stepped
  split at stepped
  · cases stepped
  all_goals first
    | exact getStep_cases stepped
    | exact putStep_cases stepped
    | exact hookStep_cases stepped

/-- What an act needs, and what it makes of the state. -/
inductive ActStep (fs : Superblocks) (s : ObjectRun) : ObjectAct → ObjectRun → Prop
  | getInodeObject (t inode : Nat) (idle : s.code.thread t = .idle)
      (live : (s.code.inode inode).state = .live) (owns : 0 < s.users inode) :
      ActStep fs s (.getInodeObject t inode)
        { s with code := s.code.setThread t (.lookingUp inode), users := drop s.users inode }
  | putObject (t object : Nat) (idle : s.code.thread t = .idle) (owns : 0 < s.owned object) :
      ActStep fs s (.putObject t object)
        { s with code := s.code.setThread t (.putting object), owned := drop s.owned object }
  | sbDelete (t sb : Nat) (idle : s.code.thread t = .idle) :
      ActStep fs s (.sbDelete t sb)
        { s with code := s.code.setThread t (.walking sb (fs.inodes sb) none)
                 closing := Function.update s.closing sb true }
  | step (t : Nat) (new : Option Nat) (c : InodeObjects)
      (turn : ThreadStep fs s.code t (s.code.thread t) c) :
      ActStep fs s (.step t new) (s.record t c)
  | iget (inode : Nat) (live : (s.code.inode inode).state = .live) :
      ActStep fs s (.iget inode)
        { s with code := s.code.iget inode, users := bump s.users inode }
  | iput (inode : Nat) (owns : 0 < s.users inode) :
      ActStep fs s (.iput inode)
        { s with code := s.code.iput inode, users := drop s.users inode }
  | evict (inode : Nat) (live : (s.code.inode inode).state = .live)
      (unused : (s.code.inode inode).count = 0) :
      ActStep fs s (.evict inode)
        { s with code := s.code.setInode inode { s.code.inode inode with state := .freeing } }
  | unlockNew (inode : Nat) (new : (s.code.inode inode).state = .new) :
      ActStep fs s (.unlockNew inode)
        { s with code := s.code.setInode inode { s.code.inode inode with state := .live } }
  | getObject (object : Nat) (o : LandlockObject) (owns : 0 < s.owned object)
      (here : s.code.object object = some o) :
      ActStep fs s (.getObject object)
        { s with code := s.code.setObject object (some { o with usage := o.usage + 1 })
                 owned := bump s.owned object }

theorem act_cases {fs : Superblocks} {s s' : ObjectRun} {a : ObjectAct}
    (stepped : act fs s a = some s') : ActStep fs s a s' := by
  unfold act at stepped
  cases a with
  | step t new =>
    obtain ⟨c, ran, recorded⟩ := Option.map_eq_some_iff.mp stepped
    rw [← recorded]
    exact .step t new c (threadStep_cases ran)
  | getObject object =>
    obtain ⟨owns, found⟩ := Option.ite_none_right_eq_some.mp stepped
    obtain ⟨o, here, next⟩ := Option.map_eq_some_iff.mp found
    rw [← next]
    exact .getObject object o owns here
  | getInodeObject t inode =>
    obtain ⟨enabled, next⟩ := Option.ite_none_right_eq_some.mp stepped
    cases next
    exact .getInodeObject t inode enabled.1 enabled.2.1 enabled.2.2
  | putObject t object =>
    obtain ⟨enabled, next⟩ := Option.ite_none_right_eq_some.mp stepped
    cases next
    exact .putObject t object enabled.1 enabled.2
  | sbDelete t sb =>
    obtain ⟨idle, next⟩ := Option.ite_none_right_eq_some.mp stepped
    cases next
    exact .sbDelete t sb idle
  | iget inode =>
    obtain ⟨live, next⟩ := Option.ite_none_right_eq_some.mp stepped
    cases next
    exact .iget inode live
  | iput inode =>
    obtain ⟨owns, next⟩ := Option.ite_none_right_eq_some.mp stepped
    cases next
    exact .iput inode owns
  | evict inode =>
    obtain ⟨enabled, next⟩ := Option.ite_none_right_eq_some.mp stepped
    cases next
    exact .evict inode enabled.1 enabled.2
  | unlockNew inode =>
    obtain ⟨new, next⟩ := Option.ite_none_right_eq_some.mp stepped
    cases next
    exact .unlockNew inode new

end Steps

section Ledger

open InodeObjects

variable {s : ObjectRun} {t inode object : Nat} {c' : InodeObjects}

/-- Phases whose steps the ledger does not see. -/
def Plain : ObjectThread → Prop
  | .found _ _ | .missed _ | .created _ _ | .releaseCleared _ _ | .hookCleared _ _ _ _ _
  | .waiting _ => False
  | _ => True

theorem record_plain (plain : Plain (s.code.thread t)) : s.record t c' = { s with code := c' } := by
  cases phase : s.code.thread t <;> rw [phase] at plain <;>
    first | exact plain.elim | simp only [ObjectRun.record, phase]

theorem record_code : (s.record t c').code = c' := by
  unfold ObjectRun.record
  split <;> rfl

section Records

variable {x : Option LandlockObject}

theorem record_refused (isPhase : s.code.thread t = .found inode object) :
    s.record t (s.code.setThread t (.goingAway inode object)) =
      { s with code := s.code.setThread t (.goingAway inode object) } := by
  simp only [ObjectRun.record, isPhase, setThread, Function.update_self]

theorem record_gets (isPhase : s.code.thread t = .found inode object) :
    s.record t ((s.code.setObject object x).setThread t .idle) =
      { s with code := (s.code.setObject object x).setThread t .idle
               users := bump s.users inode, owned := bump s.owned object } := by
  simp only [ObjectRun.record, isPhase, setThread, Function.update_self]

theorem record_fails (isPhase : s.code.thread t = .missed inode) :
    s.record t (s.code.setThread t .idle) =
      { s with code := s.code.setThread t .idle, users := bump s.users inode } := by
  simp only [ObjectRun.record, isPhase, setThread, Function.update_self]

theorem record_creates (isPhase : s.code.thread t = .missed inode) :
    s.record t ((s.code.setObject object x).setThread t (.created inode object)) =
      { s with code := (s.code.setObject object x).setThread t (.created inode object)
               inodeOf := Function.update s.inodeOf object inode } := by
  simp only [ObjectRun.record, isPhase, setThread, Function.update_self]

theorem record_discards (isPhase : s.code.thread t = .created inode object) :
    s.record t ((s.code.setObject object none).setThread t (.lookingUp inode)) =
      { s with code := (s.code.setObject object none).setThread t (.lookingUp inode) } := by
  simp only [ObjectRun.record, isPhase, setThread, Function.update_self]

theorem record_ties (isPhase : s.code.thread t = .created inode object) :
    s.record t (((s.code.iget inode).assign inode (some object)).setThread t .idle) =
      { s with code := ((s.code.iget inode).assign inode (some object)).setThread t .idle
               users := bump s.users inode, owned := bump s.owned object
               iholds := bump s.iholds object } := by
  simp only [ObjectRun.record, isPhase, setThread, Function.update_self]

theorem record_iputs (isPhase : s.code.thread t = .releaseCleared object inode) :
    s.record t ((s.code.iput inode).setThread t (.releasePut object inode)) =
      { s with code := (s.code.iput inode).setThread t (.releasePut object inode)
               releaseIputs := bump s.releaseIputs object } := by
  simp only [ObjectRun.record, isPhase]

theorem record_hookIputs {sb : Nat} {rest : List Nat} {prev : Option Nat}
    (isPhase : s.code.thread t = .hookCleared sb inode object rest prev) :
    s.record t ((s.code.iput inode).setThread t (.passed sb inode rest prev)) =
      { s with code := (s.code.iput inode).setThread t (.passed sb inode rest prev)
               hookIputs := bump s.hookIputs object } := by
  simp only [ObjectRun.record, isPhase]

theorem record_returns {sb : Nat} (isPhase : s.code.thread t = .waiting sb) :
    s.record t (s.code.setThread t .idle) =
      { s with code := s.code.setThread t .idle
               deleted := Function.update s.deleted sb true } := by
  simp only [ObjectRun.record, isPhase, setThread, Function.update_self]

end Records

end Ledger

end Ksrc.Guarantees.LandlockInodes

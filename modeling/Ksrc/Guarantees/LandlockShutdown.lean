import Ksrc.Library.Tally
import Ksrc.Guarantees.LandlockLives

/-!
# Landlock objects at the shutdown of a superblock

Source: `landlock/src/fs.c` (`hook_sb_delete`). An inode with a tied object has a reference,
so that the walk over the inodes skips none of them; what the walk has passed stays untied,
and `inode_refs` counts the `release_inode` calls that are not done with their inode.
-/
namespace Ksrc.Guarantees.LandlockShutdown

open Library Source LandlockInodes LandlockLives

/-- For what a thread has a reference to an inode: its caller keeps the inode for
`get_inode_object`, the walk has taken it last, or it is `prev_inode`. -/
inductive Role where
  | caller
  | cursor
  | previous
  deriving DecidableEq

def refOf : Role → ObjectThread → Option Nat
  | .caller, .lookingUp inode => some inode
  | .caller, .found inode _ => some inode
  | .caller, .goingAway inode _ => some inode
  | .caller, .missed inode => some inode
  | .caller, .created inode _ => some inode
  | .cursor, .pinned _ inode _ _ _ => some inode
  | .cursor, .hookTook _ inode _ _ _ => some inode
  | .cursor, .hookCleared _ inode _ _ _ => some inode
  | .cursor, .passed _ inode _ _ => some inode
  | .previous, .walking _ _ prev => prev
  | .previous, .referenced _ _ _ prev => prev
  | .previous, .pinned _ _ _ _ prev => prev
  | .previous, .hookTook _ _ _ _ prev => prev
  | .previous, .hookCleared _ _ _ _ prev => prev
  | .previous, .passed _ _ _ prev => prev
  | _, _ => none

/-- The references to an inode that are not of other code. -/
inductive Holder where
  | thread (t : Nat) (role : Role)
  | object (o : Nat)
  deriving DecidableEq

/-- The reference of an object is taken and not dropped. -/
def Outstanding (s : ObjectRun) (inode object : Nat) : Prop :=
  s.inodeOf object = inode ∧ s.iholds object = 1 ∧ s.iputs object = 0

/-- Who has a reference to an inode. -/
def Holds (s : ObjectRun) (inode : Nat) : Holder → Prop
  | .thread t role => refOf role (s.code.thread t) = some inode
  | .object o => Outstanding s inode o

/-- `i_count` counts the references of other code and of these holders. -/
def CountedAt (s : ObjectRun) (inode : Nat) : Prop :=
  ∃ n, (s.code.inode inode).count = s.users inode + n ∧ Tally n (Holds s inode)

structure Counted (s : ObjectRun) : Prop where
  counts : ∀ inode, CountedAt s inode
  dead : ∀ inode, (s.code.inode inode).state ≠ .live → ∀ h, ¬ Holds s inode h

section Counts

variable {s s' : ObjectRun} {inode : Nat} {h k : Holder}

theorem CountedAt.same (counted : CountedAt s inode)
    (balance : (s'.code.inode inode).count + s.users inode =
      (s.code.inode inode).count + s'.users inode)
    (holds : ∀ h, Holds s' inode h ↔ Holds s inode h) : CountedAt s' inode := by
  obtain ⟨n, count, tally⟩ := counted
  exact ⟨n, by omega, tally.congr holds⟩

theorem CountedAt.gain (counted : CountedAt s inode) (new : ¬ Holds s inode h)
    (balance : (s'.code.inode inode).count + s.users inode =
      (s.code.inode inode).count + s'.users inode + 1)
    (holds : ∀ k, Holds s' inode k ↔ k = h ∨ Holds s inode k) : CountedAt s' inode := by
  obtain ⟨n, count, tally⟩ := counted
  exact ⟨n + 1, by omega, tally.gain new holds⟩

theorem CountedAt.lose (counted : CountedAt s inode) (old : Holds s inode h)
    (balance : (s'.code.inode inode).count + s.users inode + 1 =
      (s.code.inode inode).count + s'.users inode)
    (holds : ∀ k, Holds s' inode k ↔ k ≠ h ∧ Holds s inode k) : CountedAt s' inode := by
  obtain ⟨n, count, tally⟩ := counted
  have positive := tally.pos old
  exact ⟨n - 1, by omega, tally.lose old holds⟩

theorem CountedAt.swap (counted : CountedAt s inode) (old : Holds s inode h)
    (new : ¬ Holds s inode k)
    (balance : (s'.code.inode inode).count + s.users inode =
      (s.code.inode inode).count + s'.users inode)
    (holds : ∀ j, Holds s' inode j ↔ j = k ∨ j ≠ h ∧ Holds s inode j) :
    CountedAt s' inode := by
  obtain ⟨n, count, tally⟩ := counted
  exact ⟨n, by omega, tally.swap old new holds⟩

theorem CountedAt.pos (counted : CountedAt s inode) (holds : Holds s inode h) :
    0 < (s.code.inode inode).count := by
  obtain ⟨n, count, tally⟩ := counted
  have positive := tally.pos holds
  omega

end Counts

section Steps

open InodeObjects

variable {fs : Superblocks} {s s' : ObjectRun} {life : Nat → Life} {t inode object : Nat}
  {c c' : InodeObjects} {p q : ObjectThread}

/-- Inodes read as before, up to the object that is tied to them. -/
structure SameInodes (s s' : ObjectRun) : Prop where
  counts : ∀ i, (s'.code.inode i).count = (s.code.inode i).count
  states : ∀ i, (s'.code.inode i).state = (s.code.inode i).state
  users : s'.users = s.users

theorem Counted.same (counted : Counted s) (same : SameInodes s s')
    (holds : ∀ i h, Holds s' i h ↔ Holds s i h) : Counted s' := by
  constructor
  · intro i
    refine (counted.counts i).same ?_ (holds i)
    rw [same.counts, same.users]
  · intro i dead h
    rw [holds]
    rw [same.states] at dead
    exact counted.dead i dead h

/-- Who has references after a move of a thread that changes one role. -/
theorem holds_move {r : Role} {i : Nat}
    (thread : s'.code.thread = Function.update s.code.thread t q) (isPhase : s.code.thread t = p)
    (others : ∀ role, role ≠ r → refOf role q = refOf role p) {h : Holder} (other : h ≠ .thread t r)
    (outstanding : ∀ object, Outstanding s' i object ↔ Outstanding s i object) :
    Holds s' i h ↔ Holds s i h := by
  cases h with
  | thread u role =>
    unfold Holds
    dsimp only
    rw [thread]
    by_cases isT : u = t
    · subst isT
      have differs : role ≠ r := by
        rintro rfl
        exact other rfl
      rw [Function.update_self, others role differs, isPhase]
    · rw [Function.update_of_ne isT]
  | object o => exact outstanding o

theorem holds_own {r : Role} {i : Nat}
    (thread : s'.code.thread = Function.update s.code.thread t q) :
    Holds s' i (.thread t r) ↔ refOf r q = some i := by
  unfold Holds
  dsimp only
  rw [thread, Function.update_self]

/-- A thread gives a reference away. -/
theorem holds_lose {r : Role} (thread : s'.code.thread = Function.update s.code.thread t q)
    (isPhase : s.code.thread t = p) (others : ∀ role, role ≠ r → refOf role q = refOf role p)
    (after : refOf r q = none)
    (outstanding : ∀ object, Outstanding s' inode object ↔ Outstanding s inode object)
    (k : Holder) : Holds s' inode k ↔ k ≠ .thread t r ∧ Holds s inode k := by
  by_cases own : k = .thread t r
  · subst own
    rw [holds_own thread, after]
    simp only [reduceCtorEq, ne_eq, not_true_eq_false, false_and]
  · rw [holds_move thread isPhase others own outstanding]
    simp only [ne_eq, own, not_false_eq_true, true_and]

/-- A thread gets a reference. -/
theorem holds_gain {r : Role} (thread : s'.code.thread = Function.update s.code.thread t q)
    (isPhase : s.code.thread t = p) (others : ∀ role, role ≠ r → refOf role q = refOf role p)
    (after : refOf r q = some inode)
    (outstanding : ∀ object, Outstanding s' inode object ↔ Outstanding s inode object)
    (k : Holder) : Holds s' inode k ↔ k = .thread t r ∨ Holds s inode k := by
  by_cases own : k = .thread t r
  · subst own
    rw [holds_own thread, after]
    simp only [true_or]
  · rw [holds_move thread isPhase others own outstanding]
    simp only [own, false_or]

/-- The references to other inodes stay. -/
theorem holds_elsewhere {r : Role} {i : Nat}
    (thread : s'.code.thread = Function.update s.code.thread t q) (isPhase : s.code.thread t = p)
    (others : ∀ role, role ≠ r → refOf role q = refOf role p)
    (before : refOf r p ≠ some i) (after : refOf r q ≠ some i)
    (outstanding : ∀ object, Outstanding s' i object ↔ Outstanding s i object) (k : Holder) :
    Holds s' i k ↔ Holds s i k := by
  by_cases own : k = .thread t r
  · subst own
    rw [holds_own thread]
    unfold Holds
    dsimp only
    rw [isPhase]
    simp only [before, after]
  · exact holds_move thread isPhase others own outstanding

/-- A step that leaves the references. -/
theorem Counted.step (counted : Counted s) (same : SameInodes s s')
    (thread : s'.code.thread = Function.update s.code.thread t q)
    (outstanding : ∀ i object, Outstanding s' i object ↔ Outstanding s i object)
    (isPhase : s.code.thread t = p) (refs : ∀ role, refOf role q = refOf role p) : Counted s' := by
  subst isPhase
  refine counted.same same fun i h => ?_
  cases h with
  | thread u role =>
    unfold Holds
    dsimp only
    rw [thread]
    by_cases isT : u = t
    · rw [isT, Function.update_self, refs]
    · rw [Function.update_of_ne isT]
  | object o => exact outstanding i o

theorem count_setInode {x : TiedInode} (i : Nat) : ((c.setInode inode x).inode i).count =
    if i = inode then x.count else (c.inode i).count := by
  unfold setInode
  dsimp only
  by_cases here : i = inode
  · rw [here, Function.update_self, if_pos rfl]
  · rw [Function.update_of_ne here, if_neg here]

/-- A write of the state of an inode leaves its count. -/
theorem count_setState (c : InodeObjects) (inode : Nat) (state : InodeState) (i : Nat) :
    ((c.setInode inode { c.inode inode with state }).inode i).count = (c.inode i).count := by
  rw [count_setInode]
  by_cases here : i = inode
  · rw [if_pos here, here]
  · rw [if_neg here]

theorem state_setInode {x : TiedInode} (i : Nat) : ((c.setInode inode x).inode i).state =
    if i = inode then x.state else (c.inode i).state := by
  unfold setInode
  dsimp only
  by_cases here : i = inode
  · rw [here, Function.update_self, if_pos rfl]
  · rw [Function.update_of_ne here, if_neg here]

theorem count_iget (i : Nat) : ((c.iget inode).inode i).count =
    (c.inode i).count + if i = inode then 1 else 0 := by
  unfold iget
  rw [count_setInode]
  split
  · rename_i here
    rw [here]
  · rfl

theorem count_iput (i : Nat) : ((c.iput inode).inode i).count =
    (c.inode i).count - if i = inode then 1 else 0 := by
  unfold InodeObjects.iput
  rw [count_setInode]
  split
  · rename_i here
    rw [here]
  · rfl

theorem count_assign (value : Option Nat) (i : Nat) :
    ((c.assign inode value).inode i).count = (c.inode i).count := by
  unfold assign
  rw [count_setInode]
  split
  · rename_i here
    rw [here]
  · rfl

theorem state_iget (i : Nat) : ((c.iget inode).inode i).state = (c.inode i).state := by
  unfold iget
  rw [state_setInode]
  split
  · rename_i here
    rw [here]
  · rfl

theorem state_iput (i : Nat) : ((c.iput inode).inode i).state = (c.inode i).state := by
  unfold InodeObjects.iput
  rw [state_setInode]
  split
  · rename_i here
    rw [here]
  · rfl

theorem state_assign (value : Option Nat) (i : Nat) :
    ((c.assign inode value).inode i).state = (c.inode i).state := by
  unfold assign
  rw [state_setInode]
  split
  · rename_i here
    rw [here]
  · rfl

theorem bump_apply (f : Nat → Nat) (a i : Nat) : bump f a i = f i + if i = a then 1 else 0 := by
  unfold bump
  by_cases here : i = a
  · rw [here, Function.update_self, if_pos rfl]
  · rw [Function.update_of_ne here, if_neg here, Nat.add_zero]

theorem drop_apply (f : Nat → Nat) (a i : Nat) : drop f a i = f i - if i = a then 1 else 0 := by
  unfold drop
  by_cases here : i = a
  · rw [here, Function.update_self, if_pos rfl]
  · rw [Function.update_of_ne here, if_neg here, Nat.sub_zero]

/-- A thread gives its reference back to its caller. -/
theorem counted_returned (counted : Counted s)
    (thread : s'.code.thread = Function.update s.code.thread t .idle)
    (isPhase : s.code.thread t = p) (caller : refOf .caller p = some inode)
    (others : ∀ role, role ≠ .caller → refOf role p = none)
    (outstanding : ∀ i object, Outstanding s' i object ↔ Outstanding s i object)
    (inodes : s'.code.inode = s.code.inode) (users : s'.users = bump s.users inode) :
    Counted s' := by
  have roles : ∀ role, role ≠ .caller → refOf role .idle = refOf role p := by
    intro role other
    rw [others role other]
    cases role <;> rfl
  have old : Holds s inode (.thread t .caller) := by
    unfold Holds
    dsimp only
    rw [isPhase]
    exact caller
  have shrinks := holds_lose thread isPhase roles rfl (outstanding inode)
  constructor
  · intro i
    by_cases here : i = inode
    · subst here
      refine (counted.counts i).lose old ?_ shrinks
      rw [inodes, users, bump_apply, if_pos rfl]
      omega
    · refine (counted.counts i).same ?_ (holds_elsewhere thread isPhase roles ?_ ?_ (outstanding i))
      · rw [inodes, users, bump_apply, if_neg here, Nat.add_zero]
      · rw [caller, Ne, Option.some.injEq]
        exact Ne.symm here
      · exact (Option.some_ne_none _).symm
  · intro i dead h holds
    rw [inodes] at dead
    refine counted.dead i dead h ?_
    by_cases here : i = inode
    · subst here
      exact ((shrinks h).mp holds).2
    · refine (holds_elsewhere thread isPhase roles ?_ ?_ (outstanding i) h).mp holds
      · rw [caller, Ne, Option.some.injEq]
        exact Ne.symm here
      · exact (Option.some_ne_none _).symm

/-- A thread gets a reference to a live inode. -/
theorem counted_gained (counted : Counted s) {r : Role}
    (thread : s'.code.thread = Function.update s.code.thread t q)
    (isPhase : s.code.thread t = p) (before : refOf r p = none) (after : refOf r q = some inode)
    (others : ∀ role, role ≠ r → refOf role q = refOf role p)
    (outstanding : ∀ i object, Outstanding s' i object ↔ Outstanding s i object)
    (live : (s.code.inode inode).state = .live)
    (states : ∀ i, (s'.code.inode i).state = (s.code.inode i).state)
    (balance : ∀ i, (s'.code.inode i).count + s.users i =
      (s.code.inode i).count + s'.users i + if i = inode then 1 else 0) : Counted s' := by
  have new : ¬ Holds s inode (.thread t r) := by
    unfold Holds
    dsimp only
    rw [isPhase, before]
    exact (Option.some_ne_none _).symm
  have grows := holds_gain thread isPhase others after (outstanding inode)
  have elsewhere : ∀ i, i ≠ inode → ∀ k, Holds s' i k ↔ Holds s i k := by
    intro i here k
    refine holds_elsewhere thread isPhase others ?_ ?_ (outstanding i) k
    · rw [before]
      exact (Option.some_ne_none _).symm
    · rw [after, Ne, Option.some.injEq]
      exact Ne.symm here
  constructor
  · intro i
    have exact_ := balance i
    by_cases here : i = inode
    · subst here
      rw [if_pos rfl] at exact_
      exact (counted.counts i).gain new exact_ grows
    · rw [if_neg here] at exact_
      exact (counted.counts i).same exact_ (elsewhere i here)
  · intro i dead h holds
    rw [states] at dead
    by_cases here : i = inode
    · rw [here, live] at dead
      exact dead rfl
    · exact counted.dead i dead h ((elsewhere i here h).mp holds)

/-- The reference of an object is dropped. -/
theorem counted_dropped (counted : Counted s)
    (thread : s'.code.thread = Function.update s.code.thread t q)
    (isPhase : s.code.thread t = p) (refs : ∀ role, refOf role q = refOf role p)
    (before : Outstanding s inode object)
    (outstanding : ∀ i o, Outstanding s' i o ↔ o ≠ object ∧ Outstanding s i o)
    (counts : ∀ i, (s'.code.inode i).count =
      (s.code.inode i).count - if i = inode then 1 else 0)
    (states : ∀ i, (s'.code.inode i).state = (s.code.inode i).state)
    (users : s'.users = s.users) : Counted s' := by
  subst isPhase
  have shrinks : ∀ i k, Holds s' i k ↔ k ≠ .object object ∧ Holds s i k := by
    intro i k
    cases k with
    | thread u role =>
      unfold Holds
      dsimp only
      rw [thread]
      simp only [ne_eq, reduceCtorEq, not_false_eq_true, true_and]
      by_cases isT : u = t
      · rw [isT, Function.update_self, refs]
      · rw [Function.update_of_ne isT]
    | object o =>
      have change := outstanding i o
      simp only [ne_eq, Holder.object.injEq]
      exact change
  have positive : 0 < (s.code.inode inode).count :=
    (counted.counts inode).pos (h := .object object) before
  constructor
  · intro i
    by_cases here : i = inode
    · subst here
      refine (counted.counts i).lose (h := .object object) before ?_ (shrinks i)
      rw [counts, users, if_pos rfl]
      omega
    · refine (counted.counts i).same ?_ fun k => ?_
      · rw [counts, users, if_neg here, Nat.sub_zero]
      · rw [shrinks i k]
        constructor
        · exact fun both => both.2
        · intro holds
          refine ⟨?_, holds⟩
          rintro rfl
          exact here (holds.1.symm.trans before.1)
  · intro i dead h holds
    rw [states] at dead
    exact counted.dead i dead h ((shrinks i h).mp holds).2

/-- The creator ties its object, and gives its reference back to its caller. -/
theorem counted_tied (counted : Counted s)
    (thread : s'.code.thread = Function.update s.code.thread t .idle)
    (isPhase : s.code.thread t = .created inode object) (fresh : ¬ Outstanding s inode object)
    (outstanding : ∀ i o, Outstanding s' i o ↔ o = object ∧ i = inode ∨ Outstanding s i o)
    (counts : ∀ i, (s'.code.inode i).count = (s.code.inode i).count + if i = inode then 1 else 0)
    (states : ∀ i, (s'.code.inode i).state = (s.code.inode i).state)
    (users : s'.users = bump s.users inode) : Counted s' := by
  have old : Holds s inode (.thread t .caller) := by
    unfold Holds
    dsimp only
    rw [isPhase]
    rfl
  have idle : ∀ role, refOf role .idle = none := by
    intro role
    cases role <;> rfl
  have others : ∀ role, role ≠ .caller → refOf role (.created inode object) = none := by
    intro role other
    cases role with
    | caller => exact absurd rfl other
    | cursor => rfl
    | previous => rfl
  have threads : ∀ i u role, Holds s' i (.thread u role) ↔
      (Holder.thread u role ≠ .thread t .caller ∧ Holds s i (.thread u role)) := by
    intro i u role
    unfold Holds
    dsimp only
    rw [thread]
    by_cases isT : u = t
    · subst isT
      rw [Function.update_self, idle, isPhase]
      by_cases isCaller : role = .caller
      · simp only [isCaller, ne_eq, not_true_eq_false, false_and, reduceCtorEq]
      · rw [others role isCaller]
        simp only [reduceCtorEq, and_false]
    · rw [Function.update_of_ne isT]
      simp only [ne_eq, Holder.thread.injEq, isT, false_and, not_false_eq_true, true_and]
  constructor
  · intro i
    by_cases here : i = inode
    · subst here
      refine (counted.counts i).swap (k := .object object) old fresh ?_ fun k => ?_
      · rw [counts, users, bump_apply, if_pos rfl]
        omega
      · cases k with
        | thread u role =>
          rw [threads]
          simp only [reduceCtorEq, false_or]
        | object o =>
          have change : Holds s' i (.object o) ↔ o = object ∧ i = i ∨ Holds s i (.object o) :=
            outstanding i o
          simp only [Holder.object.injEq, ne_eq, reduceCtorEq, not_false_eq_true, true_and]
          simpa only [and_true] using change
    · refine (counted.counts i).same ?_ fun k => ?_
      · rw [counts, users, bump_apply, if_neg here, Nat.add_zero, Nat.add_zero]
      · cases k with
        | thread u role =>
          rw [threads]
          refine and_iff_right_of_imp fun holds same => ?_
          cases same
          unfold Holds at holds
          dsimp only at holds
          rw [isPhase] at holds
          cases holds
          exact here rfl
        | object o =>
          have change : Holds s' i (.object o) ↔ o = object ∧ i = inode ∨ Holds s i (.object o) :=
            outstanding i o
          simpa only [here, and_false, false_or] using change
  · intro i dead h holds
    rw [states] at dead
    cases h with
    | thread u role => exact counted.dead i dead _ ((threads i u role).mp holds).2
    | object o =>
      rcases (outstanding i o).mp holds with ⟨-, here⟩ | before
      · rw [here] at dead
        exact counted.dead inode dead _ old
      · exact counted.dead i dead (.object o) before

/-- The walk drops `prev_inode`. -/
theorem counted_prev (counted : Counted s) {prev : Option Nat}
    (isPhase : s.code.thread t = p) (before : refOf .previous p = prev)
    (after : refOf .previous q = none)
    (others : ∀ role, role ≠ .previous → refOf role q = refOf role p) :
    Counted { s with code := (s.code.iputPrev prev).setThread t q } := by
  cases prev with
  | none =>
    refine counted.step (q := q) ⟨fun _ => rfl, fun _ => rfl, rfl⟩ rfl (fun _ _ => Iff.rfl)
      isPhase fun role => ?_
    by_cases isPrevious : role = .previous
    · rw [isPrevious, before, after]
    · exact others role isPrevious
  | some inode =>
    have old : Holds s inode (.thread t .previous) := by
      unfold Holds
      dsimp only
      rw [isPhase]
      exact before
    have counts : ∀ i, (((s.code.iput inode).setThread t q).inode i).count =
        (s.code.inode i).count - if i = inode then 1 else 0 := fun i => count_iput i
    have states : ∀ i, (((s.code.iput inode).setThread t q).inode i).state =
        (s.code.inode i).state := fun i => state_iput i
    have positive := (counted.counts inode).pos old
    have thread : ({ s with code := (s.code.iput inode).setThread t q } : ObjectRun).code.thread =
        Function.update s.code.thread t q := rfl
    have elsewhere : ∀ i, i ≠ inode → ∀ k,
        Holds { s with code := (s.code.iput inode).setThread t q } i k ↔ Holds s i k := by
      intro i here k
      refine holds_elsewhere thread isPhase others ?_ ?_ (fun _ => Iff.rfl) k
      · rw [before, Ne, Option.some.injEq]
        exact Ne.symm here
      · rw [after]
        exact (Option.some_ne_none _).symm
    have shrinks : ∀ k, Holds { s with code := (s.code.iput inode).setThread t q } inode k ↔
        k ≠ .thread t .previous ∧ Holds s inode k :=
      holds_lose thread isPhase others after fun _ => Iff.rfl
    constructor
    · intro i
      by_cases here : i = inode
      · subst here
        refine (counted.counts i).lose old ?_ shrinks
        have less := counts i
        rw [if_pos rfl] at less
        change (((s.code.iput i).setThread t q).inode i).count + s.users i + 1 =
          (s.code.inode i).count + s.users i
        omega
      · refine (counted.counts i).same ?_ (elsewhere i here)
        have less := counts i
        rw [if_neg here, Nat.sub_zero] at less
        change (((s.code.iput inode).setThread t q).inode i).count + s.users i =
          (s.code.inode i).count + s.users i
        omega
    · intro i dead h holds
      change (((s.code.iput inode).setThread t q).inode i).state ≠ .live at dead
      rw [states] at dead
      by_cases here : i = inode
      · subst here
        exact counted.dead i dead h ((shrinks h).mp holds).2
      · exact counted.dead i dead h ((elsewhere i here h).mp holds)

/-- The inode the walk took last becomes `prev_inode`. -/
theorem counted_passed (counted : Counted s) {sb : Nat} {rest : List Nat}
    (isPhase : s.code.thread t = .passed sb inode rest none) :
    Counted { s with code := s.code.setThread t (.walking sb rest (some inode)) } := by
  have old : Holds s inode (.thread t .cursor) := by
    unfold Holds
    dsimp only
    rw [isPhase]
    rfl
  have new : ¬ Holds s inode (.thread t .previous) := by
    unfold Holds
    dsimp only
    rw [isPhase]
    exact (Option.some_ne_none _).symm
  have moves : ∀ i k, Holds { s with code := s.code.setThread t (.walking sb rest (some inode)) } i k ↔
      k = .thread t .previous ∧ i = inode ∨ k ≠ .thread t .cursor ∧ Holds s i k := by
    intro i k
    cases k with
    | object o =>
      simp only [reduceCtorEq, false_and, ne_eq, not_false_eq_true, true_and, false_or]
      exact Iff.rfl
    | thread u role =>
      unfold Holds setThread
      dsimp only
      by_cases isT : u = t
      · subst isT
        rw [Function.update_self, isPhase]
        cases role with
        | caller => simp only [refOf, reduceCtorEq, Holder.thread.injEq, and_false, false_and, or_self]
        | cursor =>
          simp only [refOf, reduceCtorEq, Holder.thread.injEq, and_false, false_and, ne_eq,
            not_true_eq_false, or_self]
        | previous =>
          simp only [refOf, Option.some.injEq, true_and, reduceCtorEq, and_false, or_false]
          exact eq_comm
      · rw [Function.update_of_ne isT]
        simp only [Holder.thread.injEq, isT, false_and, ne_eq, not_false_eq_true, true_and, false_or]
  constructor
  · intro i
    by_cases here : i = inode
    · subst here
      refine (counted.counts i).swap old new rfl fun k => ?_
      simpa only [and_true] using moves i k
    · refine (counted.counts i).same rfl fun k => ?_
      rw [moves i k]
      simp only [here, and_false, false_or]
      refine and_iff_right_of_imp fun holds same => ?_
      subst same
      unfold Holds at holds
      dsimp only at holds
      rw [isPhase] at holds
      cases holds
      exact here rfl
  · intro i dead h holds
    rcases (moves i h).mp holds with ⟨-, here⟩ | ⟨-, before⟩
    · rw [here] at dead
      exact counted.dead inode dead _ old
    · exact counted.dead i dead h before

/-- The step that drops the reference of an object. -/
theorem step_dropped (counted : Counted s) (agrees : Agrees s life)
    (isPhase : s.code.thread t = p) (holds : holding p = some (object, inode, .resetter))
    (refs : ∀ role, refOf role q = refOf role p) {releases hooks : Nat → Nat}
    (more : ∀ o, releases o + hooks o =
      s.releaseIputs o + s.hookIputs o + if o = object then 1 else 0) :
    Counted { s with code := (s.code.iput inode).setThread t q
                     releaseIputs := releases, hookIputs := hooks } := by
  have before : holding (s.code.thread t) = some (object, inode, .resetter) := by
    rw [isPhase]
    exact holds
  obtain ⟨isLife, home⟩ := agrees.holder before
  have one : s.iholds object = 1 := by
    rw [agrees.iholds, isLife]
    rfl
  have unput : s.iputs object = 0 := by
    rw [agrees.iputs, isLife]
    rfl
  refine counted_dropped counted rfl isPhase refs ⟨home, one, unput⟩ (fun i o => ?_)
    (fun i => count_iput i) (fun i => state_iput i) rfl
  have change := more o
  unfold Outstanding ObjectRun.iputs
  dsimp only
  by_cases isObject : o = object
  · rw [if_pos isObject] at change
    simp only [isObject, ne_eq, not_true_eq_false, false_and, iff_false, not_and]
    intro _ _
    rw [isObject] at change
    omega
  · rw [if_neg isObject, Nat.add_zero] at change
    rw [change]
    simp only [ne_eq, isObject, not_false_eq_true, true_and]

/-- A step that the ledger does not see and that leaves inodes and references. -/
theorem Counted.leaves (counted : Counted s) (inodes : c.inode = s.code.inode)
    (threads : c.thread = s.code.thread) (isPhase : s.code.thread t = p)
    (refs : ∀ role, refOf role q = refOf role p) :
    Counted { s with code := c.setThread t q } := by
  refine counted.step ⟨fun i => ?_, fun i => ?_, rfl⟩ ?_ (fun _ _ => Iff.rfl) isPhase refs
  · exact congrArg (fun inode => (inode i).count) inodes
  · exact congrArg (fun inode => (inode i).state) inodes
  · unfold setThread
    dsimp only
    rw [threads]

/-- A step that only resets `inode_sec->object`. -/
theorem Counted.resets (counted : Counted s) (isPhase : s.code.thread t = p)
    (refs : ∀ role, refOf role q = refOf role p) :
    Counted { s with code := (s.code.assign inode none).setThread t q } :=
  counted.step ⟨count_assign none, state_assign none, rfl⟩ rfl (fun _ _ => Iff.rfl) isPhase refs

theorem step_counted (counted : Counted s) (agrees : Agrees s life)
    (isPhase : s.code.thread t = p) (step : ThreadStep fs s.code t p c') :
    Counted (s.record t c') := by
  cases step with
  | finds inode object pointer =>
    rw [record_plain (by rw [isPhase]; trivial)]
    exact counted.leaves rfl rfl isPhase fun role => by cases role <;> rfl
  | misses inode pointer =>
    rw [record_plain (by rw [isPhase]; trivial)]
    exact counted.leaves rfl rfl isPhase fun role => by cases role <;> rfl
  | waits inode object o here unlocked =>
    rw [record_plain (by rw [isPhase]; trivial)]
    exact counted.leaves rfl rfl isPhase fun role => by cases role <;> rfl
  | last object o here one =>
    rw [record_plain (by rw [isPhase]; trivial)]
    exact counted.leaves rfl rfl isPhase fun role => by cases role <;> rfl
  | releases object o here unlocked one =>
    rw [record_plain (by rw [isPhase]; trivial)]
    exact counted.leaves rfl rfl isPhase fun role => by cases role <;> rfl
  | untied object o here nothing =>
    rw [record_plain (by rw [isPhase]; trivial)]
    exact counted.leaves rfl rfl isPhase fun role => by cases role <;> rfl
  | takes object inode o here underobj =>
    rw [record_plain (by rw [isPhase]; trivial)]
    exact counted.leaves rfl rfl isPhase fun role => by cases role <;> rfl
  | counts object inode o here =>
    rw [record_plain (by rw [isPhase]; trivial)]
    exact counted.leaves rfl rfl isPhase fun role => by cases role <;> rfl
  | released object inode =>
    rw [record_plain (by rw [isPhase]; trivial)]
    exact counted.leaves rfl rfl isPhase fun role => by cases role <;> rfl
  | unused sb inode rest prev zero =>
    rw [record_plain (by rw [isPhase]; trivial)]
    exact counted.leaves rfl rfl isPhase fun role => by cases role <;> rfl
  | sees sb inode rest prev used =>
    rw [record_plain (by rw [isPhase]; trivial)]
    exact counted.leaves rfl rfl isPhase fun role => by cases role <;> rfl
  | skips sb inode rest prev skipped =>
    rw [record_plain (by rw [isPhase]; trivial)]
    exact counted.leaves rfl rfl isPhase fun role => by cases role <;> rfl
  | hookTakes sb inode object rest prev o here unlocked underobj =>
    rw [record_plain (by rw [isPhase]; trivial)]
    exact counted.leaves rfl rfl isPhase fun role => by cases role <;> rfl
  | leaves sb inode object rest prev o here unlocked other =>
    rw [record_plain (by rw [isPhase]; trivial)]
    exact counted.leaves rfl rfl isPhase fun role => by cases role <;> rfl
  | puts p object o either here more =>
    have refs : ∀ role, refOf role .idle = refOf role p := by
      intro role
      rcases either with rfl | rfl <;> cases role <;> rfl
    have plain : Plain (s.code.thread t) := by
      rw [isPhase]
      rcases either with rfl | rfl <;> trivial
    rw [record_plain plain]
    exact counted.leaves rfl rfl isPhase refs
  | clears object inode =>
    rw [record_plain (by rw [isPhase]; trivial)]
    exact counted.resets isPhase fun role => by cases role <;> rfl
  | hookClears sb inode object rest prev =>
    rw [record_plain (by rw [isPhase]; trivial)]
    exact counted.resets isPhase fun role => by cases role <;> rfl
  | refused inode object o here zero =>
    rw [record_refused isPhase]
    exact counted.leaves rfl rfl isPhase fun role => by cases role <;> rfl
  | gets inode object o here used =>
    rw [record_gets isPhase]
    refine counted_returned counted rfl isPhase rfl ?_ (fun _ _ => Iff.rfl) rfl rfl
    intro role other
    cases role with
    | caller => exact absurd rfl other
    | cursor => rfl
    | previous => rfl
  | fails inode =>
    rw [record_fails isPhase]
    refine counted_returned counted rfl isPhase rfl ?_ (fun _ _ => Iff.rfl) rfl rfl
    intro role other
    cases role with
    | caller => exact absurd rfl other
    | cursor => rfl
    | previous => rfl
  | creates inode object fresh =>
    rw [record_creates isPhase]
    have absent := agrees.absent fresh
    refine counted.step ⟨fun _ => rfl, fun _ => rfl, rfl⟩ rfl (fun i o => ?_) isPhase
      fun role => by cases role <;> rfl
    unfold Outstanding
    dsimp only
    by_cases isObject : o = object
    · have none : s.iholds o = 0 := by
        rw [agrees.iholds, isObject, absent]
        rfl
      rw [none]
      simp only [zero_ne_one, false_and, and_false]
    · rw [Function.update_of_ne isObject]
      exact Iff.rfl
  | discards inode object pointer =>
    rw [record_discards isPhase]
    exact counted.leaves rfl rfl isPhase fun role => by cases role <;> rfl
  | ties inode object pointer =>
    rw [record_ties isPhase]
    have holds : holding (s.code.thread t) = some (object, inode, .creator) := by
      rw [isPhase]
      rfl
    obtain ⟨isLife, home⟩ := agrees.holder holds
    have unheld : s.iholds object = 0 := by
      rw [agrees.iholds, isLife]
      rfl
    have unput : s.iputs object = 0 := by
      rw [agrees.iputs, isLife]
      rfl
    refine counted_tied counted rfl isPhase ?_ (fun i o => ?_) (fun i => ?_) (fun i => ?_) rfl
    · intro outstanding
      rw [outstanding.2.1] at unheld
      cases unheld
    · unfold Outstanding ObjectRun.iputs
      dsimp only
      by_cases isObject : o = object
      · subst isObject
        have zero : s.releaseIputs o + s.hookIputs o = 0 := unput
        rw [bump_apply, if_pos rfl, unheld, home, zero]
        simp only [zero_add, true_and, and_true, zero_ne_one, and_false, or_false]
        exact eq_comm
      · rw [bump_apply, if_neg isObject, Nat.add_zero]
        simp only [isObject, false_and, false_or]
    · exact (count_assign (some object) i).trans (count_iget i)
    · exact (state_assign (some object) i).trans (state_iget i)
  | iputs object inode =>
    rw [record_iputs isPhase]
    refine step_dropped counted agrees isPhase rfl (fun role => by cases role <;> rfl) fun o => ?_
    rw [bump_apply]
    omega
  | hookIputs sb inode object rest prev =>
    rw [record_hookIputs isPhase]
    refine step_dropped counted agrees isPhase rfl (fun role => by cases role <;> rfl) fun o => ?_
    rw [bump_apply]
    omega
  | ends sb prev =>
    rw [record_plain (by rw [isPhase]; trivial)]
    refine counted_prev counted isPhase rfl rfl fun role other => ?_
    cases role with
    | previous => exact absurd rfl other
    | caller => rfl
    | cursor => rfl
  | pins sb inode object rest prev live pointer =>
    rw [record_plain (by rw [isPhase]; trivial)]
    refine counted_gained (r := .cursor) counted rfl isPhase rfl rfl ?_ (fun _ _ => Iff.rfl) live
      (fun i => state_iget i) fun i => ?_
    · intro role other
      cases role with
      | cursor => exact absurd rfl other
      | caller => rfl
      | previous => rfl
    · have more : ((s.code.iget inode).inode i).count =
          (s.code.inode i).count + if i = inode then 1 else 0 := count_iget i
      change ((s.code.iget inode).inode i).count + s.users i = _
      rw [more]
      dsimp only
      omega
  | passes sb inode rest prev =>
    rw [record_plain (by rw [isPhase]; trivial)]
    have dropped : Counted { s with
        code := (s.code.iputPrev prev).setThread t (.passed sb inode rest none) } := by
      refine counted_prev counted isPhase rfl rfl fun role other => ?_
      cases role with
      | previous => exact absurd rfl other
      | caller => rfl
      | cursor => rfl
    have phase : ((s.code.iputPrev prev).setThread t (.passed sb inode rest none)).thread t =
        .passed sb inode rest none := Function.update_self _ _ _
    have passed := counted_passed dropped phase
    have same : ((s.code.iputPrev prev).setThread t (.passed sb inode rest none)).setThread t
        (.walking sb rest (some inode)) =
          (s.code.iputPrev prev).setThread t (.walking sb rest (some inode)) := by
      unfold setThread
      dsimp only
      rw [Function.update_idem]
    rw [same] at passed
    exact passed
  | returns sb zero =>
    rw [record_returns isPhase]
    exact counted.step ⟨fun _ => rfl, fun _ => rfl, rfl⟩ rfl (fun _ _ => Iff.rfl) isPhase
      fun role => by cases role <;> rfl

/-- Other code takes and drops its own references. -/
theorem Counted.outside (counted : Counted s) (threads : c.thread = s.code.thread)
    {users owned : Nat → Nat}
    (balance : ∀ i, (c.inode i).count + s.users i = (s.code.inode i).count + users i)
    (states : ∀ i, (c.inode i).state = (s.code.inode i).state) :
    Counted { s with code := c, users, owned } := by
  have same : ∀ i h, Holds { s with code := c, users, owned } i h ↔ Holds s i h := by
    intro i h
    unfold Holds Outstanding ObjectRun.iputs
    dsimp only
    rw [threads]
  constructor
  · exact fun i => (counted.counts i).same (balance i) (same i)
  · intro i dead h
    change (c.inode i).state ≠ .live at dead
    rw [states] at dead
    rw [same]
    exact counted.dead i dead h

theorem act_counted {a : ObjectAct} (counted : Counted s) (agrees : Agrees s life)
    (stepped : act fs s a = some s') : Counted s' := by
  cases act_cases stepped with
  | getInodeObject t inode idle live owns =>
    refine counted_gained (r := .caller) counted rfl idle rfl rfl ?_ (fun _ _ => Iff.rfl)
      live (fun _ => rfl) fun i => ?_
    · intro role other
      cases role with
      | caller => exact absurd rfl other
      | cursor => rfl
      | previous => rfl
    · have users := drop_apply s.users inode i
      change (s.code.inode i).count + s.users i = (s.code.inode i).count + drop s.users inode i + _
      by_cases here : i = inode
      · rw [if_pos here] at users ⊢
        rw [here] at users ⊢
        omega
      · rw [if_neg here] at users ⊢
        omega
  | putObject t object idle owns =>
    exact counted.step ⟨fun _ => rfl, fun _ => rfl, rfl⟩ rfl (fun _ _ => Iff.rfl) idle
      fun role => by cases role <;> rfl
  | sbDelete t sb idle =>
    exact counted.step ⟨fun _ => rfl, fun _ => rfl, rfl⟩ rfl (fun _ _ => Iff.rfl) idle
      fun role => by cases role <;> rfl
  | step t new c turn => exact step_counted counted agrees rfl turn
  | iget inode live =>
    refine counted.outside (c := s.code.iget inode) rfl (fun i => ?_) (fun i => state_iget i)
    rw [count_iget, bump_apply]
    omega
  | iput inode owns =>
    refine counted.outside (c := s.code.iput inode) rfl (fun i => ?_) (fun i => state_iput i)
    obtain ⟨n, count, -⟩ := counted.counts i
    rw [count_iput, drop_apply]
    by_cases here : i = inode
    · rw [if_pos here]
      rw [here] at count ⊢
      omega
    · rw [if_neg here]
      omega
  | evict inode live unused =>
    have counts := count_setState s.code inode .freeing
    constructor
    · exact fun i => (counted.counts i).same (by rw [counts i]) fun _ => Iff.rfl
    · intro i dead h holds
      by_cases here : i = inode
      · -- nobody has a reference to an inode that is evicted
        have positive := (counted.counts i).pos (h := h) holds
        rw [here, unused] at positive
        exact absurd positive (Nat.lt_irrefl 0)
      · change ((s.code.setInode inode _).inode i).state ≠ .live at dead
        rw [state_setInode, if_neg here] at dead
        exact counted.dead i dead h holds
  | unlockNew inode new =>
    have counts := count_setState s.code inode .live
    constructor
    · exact fun i => (counted.counts i).same (by rw [counts i]) fun _ => Iff.rfl
    · intro i dead h holds
      change ((s.code.setInode inode _).inode i).state ≠ .live at dead
      rw [state_setInode] at dead
      by_cases here : i = inode
      · rw [if_pos here] at dead
        exact absurd rfl dead
      · rw [if_neg here] at dead
        exact counted.dead i dead h holds
  | getObject object o owns here =>
    exact counted.outside (c := s.code.setObject object _) rfl (fun _ => rfl) fun _ => rfl

theorem untied_counted (untied : Untied s) : Counted s := by
  have nobody : ∀ i h, ¬ Holds s i h := by
    intro i h
    cases h with
    | thread u role =>
      unfold Holds
      dsimp only
      rw [untied.threads]
      cases role <;> exact (Option.some_ne_none _).symm
    | object o =>
      intro outstanding
      have one := outstanding.2.1
      rw [untied.iholds] at one
      cases one
  constructor
  · exact fun i => ⟨0, untied.counts i, Tally.zero (nobody i)⟩
  · exact fun i _ => nobody i

end Steps

end Ksrc.Guarantees.LandlockShutdown

import Ksrc.Guarantees.LandlockInodes

/-!
# The life of a reference

Source: `landlock/src/fs.c`, `object.c`. The reference of an object is taken by the creator
of the object, tied to the inode, taken over by one thread, and dropped. The code and the
ledger follow such lives through every step of every thread.
-/
namespace Ksrc.Guarantees.LandlockLives

open Library Source LandlockInodes

/-- What the thread that has an object of its own does with it: it has created it, it has taken
over its reference, or it has reset `inode_sec->object` too. -/
inductive Part where
  | creator
  | taker
  | resetter
  deriving DecidableEq, Repr

/-- The object a thread has of its own, and its inode. -/
def holding : ObjectThread → Option (Nat × Nat × Part)
  | .created inode object => some (object, inode, .creator)
  | .releaseTook object inode => some (object, inode, .taker)
  | .releaseCounted object inode => some (object, inode, .taker)
  | .hookTook _ inode object _ _ => some (object, inode, .taker)
  | .releaseCleared object inode => some (object, inode, .resetter)
  | .hookCleared _ inode object _ _ => some (object, inode, .resetter)
  | _ => none

/-- An object that a thread found tied to an inode. -/
def knowing : ObjectThread → Option (Nat × Nat)
  | .found inode object => some (object, inode)
  | .goingAway inode object => some (object, inode)
  | .pinned _ inode object _ _ => some (object, inode)
  | _ => none

/-- The object of a `landlock_put_object`. -/
def putOf : ObjectThread → Option Nat
  | .putting object => some object
  | .puttingLast object => some object
  | .releasing object => some object
  | _ => none

/-- The life of the reference of an object: none yet, in the hands of a thread, tied to the
inode, dropped. -/
inductive Life where
  | absent
  | held (t : Nat) (part : Part)
  | tied
  | dropped
  deriving DecidableEq, Repr

namespace Life

def holder : Life → Option (Nat × Part)
  | held t part => some (t, part)
  | _ => none

/-- `underobj` of an object, where there is one. -/
def underobj (inode : Nat) : Life → Option (Option Nat)
  | absent => none
  | held _ .creator => some (some inode)
  | tied => some (some inode)
  | _ => some none

/-- Whether `ihold` was done. -/
def iholds : Life → Nat
  | absent => 0
  | held _ .creator => 0
  | _ => 1

def iputs : Life → Nat
  | dropped => 1
  | _ => 0

/-- Whether `inode_sec->object` points to the object. -/
def Pointed : Life → Prop
  | tied => True
  | held _ .taker => True
  | _ => False

end Life

/-- The code and the ledger follow the lives of the references. -/
structure Agrees (s : ObjectRun) (life : Nat → Life) : Prop where
  underobjs : ∀ o, (s.code.object o).map LandlockObject.underobj = (life o).underobj (s.inodeOf o)
  iholds : ∀ o, s.iholds o = (life o).iholds
  iputs : ∀ o, s.iputs o = (life o).iputs
  pointers : ∀ i o, (s.code.inode i).object = some o ↔ (life o).Pointed ∧ s.inodeOf o = i
  holders : ∀ t o i part, holding (s.code.thread t) = some (o, i, part) ↔
    (life o).holder = some (t, part) ∧ s.inodeOf o = i
  known : ∀ t o i, knowing (s.code.thread t) = some (o, i) → (life o).iholds = 1 ∧ s.inodeOf o = i
  puts : ∀ t o, putOf (s.code.thread t) = some o → (life o).iholds = 1
  owned : ∀ o, 0 < s.owned o → (life o).iholds = 1

section Moves

variable {s s' : ObjectRun} {life : Nat → Life} {t object : Nat} {q : ObjectThread} {a : Life}

/-- An object reads as before. -/
structure SameObject (s s' : ObjectRun) (o : Nat) : Prop where
  underobj : (s'.code.object o).map LandlockObject.underobj =
    (s.code.object o).map LandlockObject.underobj
  inodeOf : s'.inodeOf o = s.inodeOf o
  iholds : s'.iholds o = s.iholds o
  iputs : s'.iputs o = s.iputs o
  pointer : ∀ i, (s'.code.inode i).object = some o ↔ (s.code.inode i).object = some o

/-- An object reads as a stage of its life says. -/
structure Reads (s : ObjectRun) (o : Nat) (a : Life) : Prop where
  underobj : (s.code.object o).map LandlockObject.underobj = a.underobj (s.inodeOf o)
  iholds : s.iholds o = a.iholds
  iputs : s.iputs o = a.iputs
  pointer : ∀ i, (s.code.inode i).object = some o ↔ a.Pointed ∧ s.inodeOf o = i

theorem Agrees.reads (agrees : Agrees s life) (o : Nat) : Reads s o (life o) :=
  ⟨agrees.underobjs o, agrees.iholds o, agrees.iputs o, fun i => agrees.pointers i o⟩

theorem Reads.same {o : Nat} (reads : Reads s o a) (same : SameObject s s' o) : Reads s' o a := by
  constructor
  · rw [same.underobj, same.inodeOf, reads.underobj]
  · rw [same.iholds, reads.iholds]
  · rw [same.iputs, reads.iputs]
  · intro i
    rw [same.pointer, same.inodeOf, reads.pointer]

/-- A move of a thread that changes at most one object, which is nobody's or its own. -/
structure Move (s s' : ObjectRun) (life : Nat → Life) (t : Nat) (q : ObjectThread) (object : Nat)
    (a : Life) : Prop where
  thread : s'.code.thread = Function.update s.code.thread t q
  others : ∀ o, o ≠ object → SameObject s s' o
  reads : Reads s' object a
  rest : ∀ u part, u ≠ t → (a.holder = some (u, part) ↔ (life object).holder = some (u, part))
  home : life object ≠ .absent → s'.inodeOf object = s.inodeOf object
  holds : ∀ i part, holding q = some (object, i, part) ↔
    a.holder = some (t, part) ∧ s'.inodeOf object = i
  elsewhere : ∀ o i part, o ≠ object →
    (holding q = some (o, i, part) ↔ holding (s.code.thread t) = some (o, i, part))
  shown : (life object).iholds = 1 → a.iholds = 1
  knows : ∀ o i, knowing q = some (o, i) →
    knowing (s.code.thread t) = some (o, i) ∨ (s.code.inode i).object = some o
  puts : ∀ o, putOf q = some o → putOf (s.code.thread t) = some o ∨ 0 < s.owned o
  owned : ∀ o, 0 < s'.owned o → 0 < s.owned o ∨ (∃ i, knowing (s.code.thread t) = some (o, i)) ∨
    o = object ∧ a.iholds = 1

theorem Agrees.shown_of_pointer (agrees : Agrees s life) {i o : Nat}
    (pointer : (s.code.inode i).object = some o) : (life o).iholds = 1 ∧ s.inodeOf o = i := by
  obtain ⟨pointed, home⟩ := (agrees.pointers i o).mp pointer
  refine ⟨?_, home⟩
  cases isLife : life o with
  | absent =>
    rw [isLife] at pointed
    exact pointed.elim
  | held u part =>
    rw [isLife] at pointed
    cases part with
    | creator => exact pointed.elim
    | taker => rfl
    | resetter => exact pointed.elim
  | tied => rfl
  | dropped => rfl

theorem Agrees.move (agrees : Agrees s life) (move : Move s s' life t q object a) :
    Agrees s' (Function.update life object a) := by
  have reads : ∀ o, Reads s' o (Function.update life object a o) := by
    intro o
    by_cases isObject : o = object
    · rw [isObject, Function.update_self]
      exact move.reads
    · rw [Function.update_of_ne isObject]
      exact (agrees.reads o).same (move.others o isObject)
  have shown : ∀ o, (life o).iholds = 1 → (Function.update life object a o).iholds = 1 ∧
      s'.inodeOf o = s.inodeOf o := by
    intro o before
    by_cases isObject : o = object
    · rw [isObject, Function.update_self]
      rw [isObject] at before
      have present : life object ≠ .absent := by
        intro absent
        rw [absent] at before
        cases before
      exact ⟨move.shown before, move.home present⟩
    · rw [Function.update_of_ne isObject]
      exact ⟨before, (move.others o isObject).inodeOf⟩
  refine ⟨fun o => (reads o).underobj, fun o => (reads o).iholds, fun o => (reads o).iputs,
    fun i o => (reads o).pointer i, ?_, ?_, ?_, ?_⟩
  · intro u o i part
    rw [move.thread]
    by_cases isObject : o = object
    · subst isObject
      rw [Function.update_self]
      by_cases isT : u = t
      · rw [isT, Function.update_self]
        exact move.holds i part
      · rw [Function.update_of_ne isT, agrees.holders]
        rw [move.rest u part isT]
        apply and_congr_right
        intro holder
        have present : life o ≠ .absent := by
          intro absent
          rw [absent] at holder
          cases holder
        rw [move.home present]
    · rw [Function.update_of_ne isObject, (move.others o isObject).inodeOf]
      by_cases isT : u = t
      · rw [isT, Function.update_self, move.elsewhere o i part isObject]
        exact agrees.holders t o i part
      · rw [Function.update_of_ne isT]
        exact agrees.holders u o i part
  · intro u o i knower
    have before : (life o).iholds = 1 ∧ s.inodeOf o = i := by
      rw [move.thread] at knower
      by_cases isT : u = t
      · rw [isT, Function.update_self] at knower
        rcases move.knows o i knower with knew | pointer
        · exact agrees.known t o i knew
        · exact agrees.shown_of_pointer pointer
      · rw [Function.update_of_ne isT] at knower
        exact agrees.known u o i knower
    have after := shown o before.1
    exact ⟨after.1, after.2.trans before.2⟩
  · intro u o putter
    have before : (life o).iholds = 1 := by
      rw [move.thread] at putter
      by_cases isT : u = t
      · rw [isT, Function.update_self] at putter
        rcases move.puts o putter with put | owner
        · exact agrees.puts t o put
        · exact agrees.owned o owner
      · rw [Function.update_of_ne isT] at putter
        exact agrees.puts u o putter
    exact (shown o before).1
  · intro o owner
    rcases move.owned o owner with before | ⟨i, knew⟩ | ⟨isObject, one⟩
    · exact (shown o (agrees.owned o before)).1
    · exact (shown o (agrees.known t o i knew).1).1
    · rw [isObject, Function.update_self]
      exact one

/-- A move that leaves all objects. -/
theorem Agrees.quiet (agrees : Agrees s life)
    (thread : s'.code.thread = Function.update s.code.thread t q)
    (same : ∀ o, SameObject s s' o) (holds : holding q = holding (s.code.thread t))
    (knows : ∀ o i, knowing q = some (o, i) →
      knowing (s.code.thread t) = some (o, i) ∨ (s.code.inode i).object = some o)
    (puts : ∀ o, putOf q = some o → putOf (s.code.thread t) = some o ∨ 0 < s.owned o)
    (owned : ∀ o, 0 < s'.owned o →
      0 < s.owned o ∨ ∃ i, knowing (s.code.thread t) = some (o, i)) : Agrees s' life := by
  have move : Move s s' life t q 0 (life 0) := by
    constructor
    · exact thread
    · exact fun o _ => same o
    · exact (agrees.reads 0).same (same 0)
    · exact fun u part _ => Iff.rfl
    · exact fun _ => (same 0).inodeOf
    · intro i part
      rw [holds, (same 0).inodeOf]
      exact agrees.holders t 0 i part
    · intro o i part _
      rw [holds]
    · exact fun one => one
    · exact knows
    · exact puts
    · exact fun o owner => (owned o owner).imp_right .inl
  have moved := agrees.move move
  rwa [Function.update_eq_self] at moved

end Moves

section Lives

open InodeObjects

variable {fs : Superblocks} {s : ObjectRun} {life : Nat → Life} {t : Nat} {c c' : InodeObjects}
  {inode object : Nat} {q : ObjectThread}

theorem pointer_setInode {x : TiedInode} (same : x.object = (c.inode inode).object) (i : Nat) :
    ((c.setInode inode x).inode i).object = (c.inode i).object := by
  unfold setInode
  dsimp only
  by_cases here : i = inode
  · rw [here, Function.update_self, same]
  · rw [Function.update_of_ne here]

theorem pointer_iget (c : InodeObjects) (inode i : Nat) :
    ((c.iget inode).inode i).object = (c.inode i).object := by
  apply pointer_setInode
  rfl

theorem pointer_iput (c : InodeObjects) (inode i : Nat) :
    ((c.iput inode).inode i).object = (c.inode i).object := by
  apply pointer_setInode
  rfl

theorem pointer_iputPrev (c : InodeObjects) (prev : Option Nat) (i : Nat) :
    ((c.iputPrev prev).inode i).object = (c.inode i).object := by
  cases prev with
  | none => rfl
  | some inode => exact pointer_iput c inode i

theorem underobj_setObject {o o' : LandlockObject} (here : c.object object = some o)
    (same : o'.underobj = o.underobj) (k : Nat) :
    ((c.setObject object (some o')).object k).map LandlockObject.underobj =
      (c.object k).map LandlockObject.underobj := by
  unfold setObject
  by_cases isObject : k = object
  · rw [isObject, here]
    dsimp only
    rw [Function.update_self, Option.map_some, Option.map_some, same]
  · dsimp only
    rw [Function.update_of_ne isObject]

/-- Objects read alike in two states of the code under one ledger. -/
structure SameCode (c c' : InodeObjects) : Prop where
  underobj : ∀ o, (c'.object o).map LandlockObject.underobj =
    (c.object o).map LandlockObject.underobj
  pointer : ∀ i, (c'.inode i).object = (c.inode i).object

theorem SameCode.sameObject {s' : ObjectRun} (same : SameCode s.code s'.code)
    (inodeOf : s'.inodeOf = s.inodeOf) (iholds : s'.iholds = s.iholds)
    (releases : s'.releaseIputs = s.releaseIputs) (hooks : s'.hookIputs = s.hookIputs) (o : Nat) :
    SameObject s s' o := by
  constructor
  · exact same.underobj o
  · rw [inodeOf]
  · rw [iholds]
  · unfold ObjectRun.iputs
    rw [releases, hooks]
  · intro i
    rw [same.pointer]

theorem SameCode.refl (c : InodeObjects) : SameCode c c := ⟨fun _ => rfl, fun _ => rfl⟩

theorem SameCode.trans {c'' : InodeObjects} (first : SameCode c c') (second : SameCode c' c'') :
    SameCode c c'' :=
  ⟨fun o => (second.underobj o).trans (first.underobj o),
    fun i => (second.pointer i).trans (first.pointer i)⟩

/-- A step of a thread that leaves objects and ledger, and gives nothing to its caller. -/
theorem Agrees.step (agrees : Agrees s life) (same : SameCode s.code c)
    (threads : c.thread = s.code.thread) (holds : holding q = holding (s.code.thread t))
    (knows : ∀ o i, knowing q = some (o, i) →
      knowing (s.code.thread t) = some (o, i) ∨ (s.code.inode i).object = some o)
    (puts : ∀ o, putOf q = some o → putOf (s.code.thread t) = some o ∨ 0 < s.owned o)
    {users : Nat → Nat} {closing deleted : Nat → Bool} :
    Agrees { s with code := c.setThread t q, users, closing, deleted } life := by
  refine agrees.quiet ?_ (SameCode.sameObject ?_ rfl rfl rfl rfl) holds knows puts
    fun o owner => .inl owner
  · unfold setThread
    dsimp only
    rw [threads]
  · exact ⟨same.underobj, same.pointer⟩

theorem sameCode_reused {o : LandlockObject} (here : c.object object = some o) (usage : Nat)
    (lock : Option Nat) : SameCode c (c.setObject object (some { o with usage, lock })) :=
  ⟨underobj_setObject here rfl, fun _ => rfl⟩

theorem sameCode_setInodeRefs (c : InodeObjects) (sb value : Nat) :
    SameCode c (c.setInodeRefs sb value) := ⟨fun _ => rfl, fun _ => rfl⟩

theorem sameCode_iget (c : InodeObjects) (inode : Nat) : SameCode c (c.iget inode) :=
  ⟨fun _ => rfl, pointer_iget c inode⟩

theorem sameCode_setState (c : InodeObjects) (inode : Nat) (state : InodeState) :
    SameCode c (c.setInode inode { c.inode inode with state }) :=
  ⟨fun _ => rfl, pointer_setInode rfl⟩

theorem sameCode_iput (c : InodeObjects) (inode : Nat) : SameCode c (c.iput inode) :=
  ⟨fun _ => rfl, pointer_iput c inode⟩

theorem sameCode_iputPrev (c : InodeObjects) (prev : Option Nat) : SameCode c (c.iputPrev prev) := by
  refine ⟨fun o => ?_, pointer_iputPrev c prev⟩
  cases prev with
  | none => rfl
  | some inode => rfl

theorem thread_iputPrev (c : InodeObjects) (prev : Option Nat) :
    (c.iputPrev prev).thread = c.thread := by
  cases prev with
  | none => rfl
  | some inode => rfl

theorem object_iputPrev (c : InodeObjects) (prev : Option Nat) :
    (c.iputPrev prev).object = c.object := by
  cases prev with
  | none => rfl
  | some inode => rfl

theorem inodeRefs_iputPrev (c : InodeObjects) (prev : Option Nat) :
    (c.iputPrev prev).inodeRefs = c.inodeRefs := by
  cases prev with
  | none => rfl
  | some inode => rfl

/-- What only one function looks at: the thread has no object in its hands. -/
structure Empty (q : ObjectThread) : Prop where
  holds : holding q = none
  knows : knowing q = none
  puts : putOf q = none

theorem Agrees.leave (agrees : Agrees s life) (same : SameCode s.code c)
    (threads : c.thread = s.code.thread) (before : holding (s.code.thread t) = none)
    (empty : Empty q) {users : Nat → Nat} {closing deleted : Nat → Bool} :
    Agrees { s with code := c.setThread t q, users, closing, deleted } life := by
  refine agrees.step same threads ?_ ?_ ?_
  · rw [before, empty.holds]
  · intro o i knower
    rw [empty.knows] at knower
    cases knower
  · intro o putter
    rw [empty.puts] at putter
    cases putter

section Effects

variable {part : Part}

theorem Agrees.absent (agrees : Agrees s life) (here : s.code.object object = none) :
    life object = .absent := by
  have under := agrees.underobjs object
  rw [here, Option.map_none] at under
  cases isLife : life object with
  | absent => rfl
  | held u part =>
    rw [isLife] at under
    cases part <;> cases under
  | tied =>
    rw [isLife] at under
    cases under
  | dropped =>
    rw [isLife] at under
    cases under

theorem Agrees.holder (agrees : Agrees s life)
    (holds : holding (s.code.thread t) = some (object, inode, part)) :
    life object = .held t part ∧ s.inodeOf object = inode := by
  obtain ⟨holder, home⟩ := (agrees.holders t object inode part).mp holds
  refine ⟨?_, home⟩
  cases isLife : life object with
  | held u part' =>
    rw [isLife] at holder
    cases holder
    rfl
  | _ =>
    rw [isLife] at holder
    cases holder

theorem Agrees.tied (agrees : Agrees s life) {o : LandlockObject}
    (here : s.code.object object = some o) (underobj : o.underobj = some inode)
    (one : (life object).iholds = 1) : life object = .tied ∧ s.inodeOf object = inode := by
  have under := agrees.underobjs object
  rw [here, Option.map_some, underobj] at under
  cases isLife : life object with
  | absent =>
    rw [isLife] at one
    cases one
  | held u part =>
    rw [isLife] at under one
    cases part with
    | creator => cases one
    | taker => cases under
    | resetter => cases under
  | tied =>
    rw [isLife] at under
    cases under
    exact ⟨rfl, rfl⟩
  | dropped =>
    rw [isLife] at under
    cases under

/-- Another object does not see what one object is set to. -/
theorem underobj_other {x : Option LandlockObject} {k : Nat} (other : k ≠ object) :
    ((c.setObject object x).object k).map LandlockObject.underobj =
      (c.object k).map LandlockObject.underobj := by
  unfold setObject
  dsimp only
  rw [Function.update_of_ne other]

theorem get_setObject (x : Option LandlockObject) : (c.setObject object x).object object = x := by
  unfold setObject
  dsimp only
  rw [Function.update_self]

/-- A thread without an object gets one. -/
theorem holds_from_none {before : ObjectThread} (holds : holding q = some (object, inode, part))
    (none : holding before = none) (o i : Nat) (part' : Part) (other : o ≠ object) :
    holding q = some (o, i, part') ↔ holding before = some (o, i, part') := by
  rw [holds, none]
  simp only [Option.some.injEq, Prod.mk.injEq, Ne.symm other, false_and, reduceCtorEq]

/-- A thread gives its object away. -/
theorem holds_to_none {before : ObjectThread}
    (holds : holding before = some (object, inode, part)) (none : holding q = none) (o i : Nat)
    (part' : Part) (other : o ≠ object) :
    holding q = some (o, i, part') ↔ holding before = some (o, i, part') := by
  rw [holds, none]
  simp only [Option.some.injEq, Prod.mk.injEq, Ne.symm other, false_and, reduceCtorEq]

/-- Nobody but the thread has the object before and after. -/
theorem rest_of_own {a : Life} (before : life object = .held t part)
    (after : ∀ u part', a.holder = some (u, part') → u = t) (u : Nat) (part' : Part) (other : u ≠ t) :
    a.holder = some (u, part') ↔ (life object).holder = some (u, part') := by
  constructor
  · intro holder
    exact absurd (after u part' holder) other
  · intro holder
    rw [before] at holder
    cases holder
    exact absurd rfl other

theorem creates_agrees (agrees : Agrees s life) (isPhase : s.code.thread t = .missed inode)
    (fresh : s.code.object object = none) :
    Agrees { s with
      code := (s.code.setObject object
        (some { usage := 1, lock := none, underobj := some inode })).setThread t
          (.created inode object)
      inodeOf := Function.update s.inodeOf object inode }
      (Function.update life object (.held t .creator)) := by
  have isLife := agrees.absent fresh
  have reads := agrees.reads object
  rw [isLife] at reads
  have home : Function.update s.inodeOf object inode object = inode := Function.update_self _ _ _
  refine agrees.move (q := .created inode object) ⟨rfl, ?_, ?_, ?_, ?_, ?_, ?_, ?_, ?_, ?_, ?_⟩
  · intro o other
    exact ⟨underobj_other other, Function.update_of_ne other _ _, rfl, rfl, fun _ => Iff.rfl⟩
  · refine ⟨?_, reads.iholds, reads.iputs, fun i => ?_⟩
    · dsimp only [setThread]
      rw [get_setObject, home]
      rfl
    · exact (reads.pointer i).trans (by simp only [Life.Pointed, false_and])
  · intro u part other
    rw [isLife]
    simp only [Life.holder, Option.some.injEq, Prod.mk.injEq, Ne.symm other, false_and, reduceCtorEq]
  · intro present
    exact absurd isLife present
  · intro i part
    dsimp only
    rw [home]
    simp only [holding, Life.holder, Option.some.injEq, Prod.mk.injEq, true_and]
    exact and_comm
  · intro o i part other
    rw [isPhase]
    exact holds_from_none rfl rfl o i part other
  · intro one
    rw [isLife] at one
    cases one
  · intro o i knower
    cases knower
  · intro o putter
    cases putter
  · intro o owner
    exact .inl owner

theorem discards_agrees (agrees : Agrees s life) (isPhase : s.code.thread t = .created inode object) :
    Agrees { s with code := (s.code.setObject object none).setThread t (.lookingUp inode) }
      (Function.update life object .absent) := by
  have holds : holding (s.code.thread t) = some (object, inode, .creator) := by
    rw [isPhase]
    rfl
  have isLife := (agrees.holder holds).1
  have reads := agrees.reads object
  rw [isLife] at reads
  refine agrees.move (q := .lookingUp inode) ⟨rfl, ?_, ?_, ?_, ?_, ?_, ?_, ?_, ?_, ?_, ?_⟩
  · intro o other
    exact ⟨underobj_other other, rfl, rfl, rfl, fun _ => Iff.rfl⟩
  · refine ⟨?_, reads.iholds, reads.iputs, fun i => ?_⟩
    · dsimp only [setThread]
      rw [get_setObject]
      rfl
    · exact (reads.pointer i).trans (by simp only [Life.Pointed, false_and])
  · exact rest_of_own isLife fun u part' holder => by cases holder
  · exact fun _ => rfl
  · intro i part
    simp only [holding, Life.holder, reduceCtorEq, false_and]
  · exact holds_to_none holds rfl
  · intro one
    rw [isLife] at one
    cases one
  · intro o i knower
    cases knower
  · intro o putter
    cases putter
  · intro o owner
    exact .inl owner

theorem pointer_assign (value : Option Nat) (i : Nat) :
    ((c.assign inode value).inode i).object =
      if i = inode then value else (c.inode i).object := by
  unfold assign setInode
  dsimp only
  by_cases here : i = inode
  · rw [here, Function.update_self, if_pos rfl]
  · rw [Function.update_of_ne here, if_neg here]

theorem ties_agrees (agrees : Agrees s life) (isPhase : s.code.thread t = .created inode object)
    (pointer : (s.code.inode inode).object = none) :
    Agrees { s with
      code := ((s.code.iget inode).assign inode (some object)).setThread t .idle
      users := bump s.users inode, owned := bump s.owned object
      iholds := bump s.iholds object } (Function.update life object .tied) := by
  have holds : holding (s.code.thread t) = some (object, inode, .creator) := by
    rw [isPhase]
    rfl
  obtain ⟨isLife, home⟩ := agrees.holder holds
  have reads := agrees.reads object
  rw [isLife] at reads
  have pointers : ∀ i, (((s.code.iget inode).assign inode (some object)).inode i).object =
      if i = inode then some object else (s.code.inode i).object := by
    intro i
    rw [pointer_assign, pointer_iget]
  refine agrees.move (q := .idle) ⟨rfl, ?_, ?_, ?_, ?_, ?_, ?_, ?_, ?_, ?_, ?_⟩
  · intro o other
    refine ⟨rfl, rfl, Function.update_of_ne other _ _, rfl, fun i => ?_⟩
    change (((s.code.iget inode).assign inode (some object)).inode i).object = some o ↔ _
    rw [pointers]
    split
    · rename_i here
      rw [here, pointer]
      simp only [Option.some.injEq, Ne.symm other, reduceCtorEq]
    · exact Iff.rfl
  · refine ⟨reads.underobj, ?_, reads.iputs, fun i => ?_⟩
    · dsimp only [bump]
      rw [Function.update_self, reads.iholds]
      rfl
    · change (((s.code.iget inode).assign inode (some object)).inode i).object = some object ↔ _
      rw [pointers]
      dsimp only
      rw [home]
      split
      · rename_i here
        simp only [Life.Pointed, here, and_self]
      · rename_i elsewhere
        rw [reads.pointer]
        simp only [Life.Pointed, false_and, true_and, Ne.symm elsewhere]
  · exact rest_of_own isLife fun u part' holder => by cases holder
  · exact fun _ => rfl
  · intro i part
    simp only [holding, Life.holder, reduceCtorEq, false_and]
  · exact holds_to_none holds rfl
  · exact fun _ => rfl
  · intro o i knower
    cases knower
  · intro o putter
    cases putter
  · intro o owner
    by_cases isObject : o = object
    · exact .inr (.inr ⟨isObject, rfl⟩)
    · dsimp only [bump] at owner
      rw [Function.update_of_ne isObject] at owner
      exact .inl owner

/-- `release_inode` or `hook_sb_delete` resets `underobj`. -/
theorem takes_agrees (agrees : Agrees s life) {o : LandlockObject}
    (here : s.code.object object = some o) (underobj : o.underobj = some inode)
    (one : (life object).iholds = 1) (before : holding (s.code.thread t) = none)
    (holds : holding q = some (object, inode, .taker)) (knows : knowing q = none)
    (puts : putOf q = none) :
    Agrees { s with
      code := (s.code.setObject object (some { o with underobj := none })).setThread t q }
      (Function.update life object (.held t .taker)) := by
  obtain ⟨isLife, home⟩ := agrees.tied here underobj one
  have reads := agrees.reads object
  rw [isLife] at reads
  refine agrees.move (q := q) ⟨rfl, ?_, ?_, ?_, ?_, ?_, ?_, ?_, ?_, ?_, ?_⟩
  · intro o other
    exact ⟨underobj_other other, rfl, rfl, rfl, fun _ => Iff.rfl⟩
  · refine ⟨?_, reads.iholds, reads.iputs, fun i => reads.pointer i⟩
    dsimp only [setThread]
    rw [get_setObject]
    rfl
  · intro u part other
    rw [isLife]
    simp only [Life.holder, Option.some.injEq, Prod.mk.injEq, Ne.symm other, false_and, reduceCtorEq]
  · exact fun _ => rfl
  · intro i part
    rw [holds]
    dsimp only
    rw [home]
    simp only [Life.holder, Option.some.injEq, Prod.mk.injEq, true_and]
    exact and_comm
  · exact holds_from_none holds before
  · exact fun _ => rfl
  · intro o i knower
    rw [knows] at knower
    cases knower
  · intro o putter
    rw [puts] at putter
    cases putter
  · intro o owner
    exact .inl owner

/-- Then it resets `inode_sec->object`. -/
theorem clears_agrees (agrees : Agrees s life)
    (before : holding (s.code.thread t) = some (object, inode, .taker))
    (holds : holding q = some (object, inode, .resetter)) (knows : knowing q = none)
    (puts : putOf q = none) :
    Agrees { s with code := (s.code.assign inode none).setThread t q }
      (Function.update life object (.held t .resetter)) := by
  obtain ⟨isLife, home⟩ := agrees.holder before
  have reads := agrees.reads object
  rw [isLife] at reads
  have pointer : (s.code.inode inode).object = some object :=
    (reads.pointer inode).mpr ⟨trivial, home⟩
  refine agrees.move (q := q) ⟨rfl, ?_, ?_, ?_, ?_, ?_, ?_, ?_, ?_, ?_, ?_⟩
  · intro o other
    refine ⟨rfl, rfl, rfl, rfl, fun i => ?_⟩
    change ((s.code.assign inode none).inode i).object = some o ↔ _
    rw [pointer_assign]
    split
    · rename_i here
      rw [here, pointer]
      simp only [reduceCtorEq, Option.some.injEq, Ne.symm other]
    · exact Iff.rfl
  · refine ⟨reads.underobj, reads.iholds, reads.iputs, fun i => ?_⟩
    change ((s.code.assign inode none).inode i).object = some object ↔ _
    rw [pointer_assign]
    split
    · simp only [reduceCtorEq, Life.Pointed, false_and]
    · rename_i elsewhere
      rw [reads.pointer, home]
      simp only [Life.Pointed, true_and, false_and, Ne.symm elsewhere]
  · refine rest_of_own isLife fun u part' holder => ?_
    cases holder
    rfl
  · exact fun _ => rfl
  · intro i part
    rw [holds]
    dsimp only
    rw [home]
    simp only [Life.holder, Option.some.injEq, Prod.mk.injEq, true_and]
    exact and_comm
  · intro o i part other
    rw [holds, before]
    simp only [Option.some.injEq, Prod.mk.injEq, Ne.symm other, false_and]
  · exact fun _ => rfl
  · intro o i knower
    rw [knows] at knower
    cases knower
  · intro o putter
    rw [puts] at putter
    cases putter
  · intro o owner
    exact .inl owner

/-- Last it drops the reference. -/
theorem iputs_agrees (agrees : Agrees s life) {s' : ObjectRun}
    (before : holding (s.code.thread t) = some (object, inode, .resetter))
    (empty : Empty q) (code : s'.code = (s.code.iput inode).setThread t q)
    (inodeOf : s'.inodeOf = s.inodeOf) (iholds : s'.iholds = s.iholds)
    (owned : s'.owned = s.owned) (others : ∀ o, o ≠ object → s'.iputs o = s.iputs o)
    (more : s'.iputs object = s.iputs object + 1) :
    Agrees s' (Function.update life object .dropped) := by
  obtain ⟨isLife, home⟩ := agrees.holder before
  have reads := agrees.reads object
  rw [isLife] at reads
  have pointers : ∀ i, (s'.code.inode i).object = (s.code.inode i).object := by
    intro i
    rw [code]
    exact pointer_iput s.code inode i
  have objects : s'.code.object = s.code.object := by
    rw [code]
    rfl
  refine agrees.move (t := t) (q := q) ⟨?_, ?_, ?_, ?_, ?_, ?_, ?_, ?_, ?_, ?_, ?_⟩
  · rw [code]
    rfl
  · intro o other
    refine ⟨?_, ?_, ?_, others o other, fun i => ?_⟩
    · rw [objects]
    · rw [inodeOf]
    · rw [iholds]
    · rw [pointers]
  · refine ⟨?_, ?_, ?_, fun i => ?_⟩
    · rw [objects, reads.underobj]
      rfl
    · rw [iholds, reads.iholds]
      rfl
    · rw [more, reads.iputs]
      rfl
    · rw [pointers, reads.pointer]
      simp only [Life.Pointed, false_and]
  · exact rest_of_own isLife fun u part' holder => by cases holder
  · intro _
    rw [inodeOf]
  · intro i part
    rw [empty.holds]
    simp only [Life.holder, reduceCtorEq, false_and]
  · exact holds_to_none before empty.holds
  · exact fun _ => rfl
  · intro o i knower
    rw [empty.knows] at knower
    cases knower
  · intro o putter
    rw [empty.puts] at putter
    cases putter
  · intro o owner
    rw [owned] at owner
    exact .inl owner

end Effects

/-- Every step of a thread goes along with a step in the life of at most one object. -/
theorem step_agrees (agrees : Agrees s life) {phase : ObjectThread}
    (isPhase : s.code.thread t = phase) (step : ThreadStep fs s.code t phase c') :
    ∃ life', Agrees (s.record t c') life' := by
  cases step with
  | finds inode object pointer =>
    rw [record_plain (by rw [isPhase]; trivial)]
    refine ⟨life, agrees.step (.refl _) rfl ?_ ?_ ?_⟩
    · rw [isPhase]
      rfl
    · intro o i knower
      cases knower
      exact .inr pointer
    · intro o putter
      cases putter
  | misses inode pointer =>
    rw [record_plain (by rw [isPhase]; trivial)]
    exact ⟨life, agrees.leave (.refl _) rfl (by rw [isPhase]; rfl) ⟨rfl, rfl, rfl⟩⟩
  | refused inode object o here zero =>
    rw [record_refused isPhase]
    refine ⟨life, agrees.step (.refl _) rfl ?_ ?_ ?_⟩
    · rw [isPhase]
      rfl
    · intro o i knower
      rw [isPhase]
      exact .inl knower
    · intro o putter
      cases putter
  | gets inode object o here used =>
    rw [record_gets isPhase]
    refine ⟨life, agrees.quiet rfl
      (SameCode.sameObject ⟨(sameCode_reused here (o.usage + 1) o.lock).underobj, fun _ => rfl⟩
        rfl rfl rfl rfl) ?_ ?_ ?_ ?_⟩
    · rw [isPhase]
      rfl
    · intro o i knower
      cases knower
    · intro o putter
      cases putter
    · intro o owner
      rw [isPhase]
      by_cases isObject : o = object
      · exact .inr ⟨inode, by rw [isObject]; rfl⟩
      · dsimp only [bump] at owner
        rw [Function.update_of_ne isObject] at owner
        exact .inl owner
  | waits inode object o here unlocked =>
    rw [record_plain (by rw [isPhase]; trivial)]
    exact ⟨life, agrees.leave (.refl _) rfl (by rw [isPhase]; rfl) ⟨rfl, rfl, rfl⟩⟩
  | fails inode =>
    rw [record_fails isPhase]
    exact ⟨life, agrees.leave (.refl _) rfl (by rw [isPhase]; rfl) ⟨rfl, rfl, rfl⟩⟩
  | last object o here one =>
    rw [record_plain (by rw [isPhase]; trivial)]
    refine ⟨life, agrees.step (.refl _) rfl ?_ ?_ ?_⟩
    · rw [isPhase]
      rfl
    · intro o i knower
      cases knower
    · intro o putter
      rw [isPhase]
      exact .inl putter
  | puts p object o either here more =>
    have empty : holding (s.code.thread t) = none ∧ Plain (s.code.thread t) := by
      rw [isPhase]
      rcases either with rfl | rfl
      · exact ⟨rfl, trivial⟩
      · exact ⟨rfl, trivial⟩
    rw [record_plain empty.2]
    exact ⟨life, agrees.leave (sameCode_reused here (o.usage - 1) o.lock) rfl empty.1 ⟨rfl, rfl, rfl⟩⟩
  | releases object o here unlocked one =>
    rw [record_plain (by rw [isPhase]; trivial)]
    refine ⟨life, agrees.step (sameCode_reused here 0 (some t)) rfl ?_ ?_ ?_⟩
    · rw [isPhase]
      rfl
    · intro o i knower
      cases knower
    · intro o putter
      rw [isPhase]
      exact .inl putter
  | untied object o here nothing =>
    rw [record_plain (by rw [isPhase]; trivial)]
    exact ⟨life, agrees.leave (sameCode_reused here o.usage none) rfl (by rw [isPhase]; rfl)
      ⟨rfl, rfl, rfl⟩⟩
  | counts object inode o here =>
    rw [record_plain (by rw [isPhase]; trivial)]
    have there : (s.code.setInodeRefs (fs.superblock inode)
      (s.code.inodeRefs (fs.superblock inode) + 1)).object object = some o := here
    have same := (sameCode_setInodeRefs s.code (fs.superblock inode)
      (s.code.inodeRefs (fs.superblock inode) + 1)).trans (sameCode_reused there o.usage none)
    refine ⟨life, agrees.step same rfl ?_ ?_ ?_⟩
    · rw [isPhase]
      rfl
    · intro o i knower
      cases knower
    · intro o putter
      cases putter
  | released object inode =>
    rw [record_plain (by rw [isPhase]; trivial)]
    exact ⟨life, agrees.leave (sameCode_setInodeRefs _ _ _) rfl (by rw [isPhase]; rfl)
      ⟨rfl, rfl, rfl⟩⟩
  | ends sb prev =>
    rw [record_plain (by rw [isPhase]; trivial)]
    exact ⟨life, agrees.leave (sameCode_iputPrev s.code prev) (thread_iputPrev s.code prev)
      (by rw [isPhase]; rfl) ⟨rfl, rfl, rfl⟩⟩
  | unused sb inode rest prev zero =>
    rw [record_plain (by rw [isPhase]; trivial)]
    exact ⟨life, agrees.leave (.refl _) rfl (by rw [isPhase]; rfl) ⟨rfl, rfl, rfl⟩⟩
  | sees sb inode rest prev used =>
    rw [record_plain (by rw [isPhase]; trivial)]
    exact ⟨life, agrees.leave (.refl _) rfl (by rw [isPhase]; rfl) ⟨rfl, rfl, rfl⟩⟩
  | skips sb inode rest prev skipped =>
    rw [record_plain (by rw [isPhase]; trivial)]
    exact ⟨life, agrees.leave (.refl _) rfl (by rw [isPhase]; rfl) ⟨rfl, rfl, rfl⟩⟩
  | pins sb inode object rest prev live pointer =>
    rw [record_plain (by rw [isPhase]; trivial)]
    refine ⟨life, agrees.step (sameCode_iget s.code inode) rfl ?_ ?_ ?_⟩
    · rw [isPhase]
      rfl
    · intro o i knower
      cases knower
      exact .inr pointer
    · intro o putter
      cases putter
  | leaves sb inode object rest prev o here unlocked other =>
    rw [record_plain (by rw [isPhase]; trivial)]
    exact ⟨life, agrees.leave (.refl _) rfl (by rw [isPhase]; rfl) ⟨rfl, rfl, rfl⟩⟩
  | passes sb inode rest prev =>
    rw [record_plain (by rw [isPhase]; trivial)]
    exact ⟨life, agrees.leave (sameCode_iputPrev s.code prev) (thread_iputPrev s.code prev)
      (by rw [isPhase]; rfl) ⟨rfl, rfl, rfl⟩⟩
  | returns sb zero =>
    rw [record_returns isPhase]
    exact ⟨life, agrees.leave (.refl _) rfl (by rw [isPhase]; rfl) ⟨rfl, rfl, rfl⟩⟩
  | creates inode object fresh =>
    rw [record_creates isPhase]
    exact ⟨_, creates_agrees agrees isPhase fresh⟩
  | discards inode object pointer =>
    rw [record_discards isPhase]
    exact ⟨_, discards_agrees agrees isPhase⟩
  | ties inode object pointer =>
    rw [record_ties isPhase]
    exact ⟨_, ties_agrees agrees isPhase pointer⟩
  | takes object inode o here underobj =>
    rw [record_plain (by rw [isPhase]; trivial)]
    have one := agrees.puts t object (by rw [isPhase]; rfl)
    exact ⟨_, takes_agrees agrees here underobj one (by rw [isPhase]; rfl) rfl rfl rfl⟩
  | hookTakes sb inode object rest prev o here unlocked underobj =>
    rw [record_plain (by rw [isPhase]; trivial)]
    have one := (agrees.known t object inode (by rw [isPhase]; rfl)).1
    exact ⟨_, takes_agrees agrees here underobj one (by rw [isPhase]; rfl) rfl rfl rfl⟩
  | clears object inode =>
    rw [record_plain (by rw [isPhase]; trivial)]
    have before : holding (s.code.thread t) = some (object, inode, .taker) := by
      rw [isPhase]
      rfl
    exact ⟨_, clears_agrees agrees before rfl rfl rfl⟩
  | hookClears sb inode object rest prev =>
    rw [record_plain (by rw [isPhase]; trivial)]
    have before : holding (s.code.thread t) = some (object, inode, .taker) := by
      rw [isPhase]
      rfl
    exact ⟨_, clears_agrees agrees before rfl rfl rfl⟩
  | iputs object inode =>
    have before : holding (s.code.thread t) = some (object, inode, .resetter) := by
      rw [isPhase]
      rfl
    rw [record_iputs isPhase]
    refine ⟨_, iputs_agrees agrees before ⟨rfl, rfl, rfl⟩ rfl rfl rfl rfl (fun o other => ?_) ?_⟩
    · unfold ObjectRun.iputs bump
      dsimp only
      rw [Function.update_of_ne other]
    · unfold ObjectRun.iputs bump
      dsimp only
      rw [Function.update_self]
      omega
  | hookIputs sb inode object rest prev =>
    have before : holding (s.code.thread t) = some (object, inode, .resetter) := by
      rw [isPhase]
      rfl
    rw [record_hookIputs isPhase]
    refine ⟨_, iputs_agrees agrees before ⟨rfl, rfl, rfl⟩ rfl rfl rfl rfl (fun o other => ?_) ?_⟩
    · unfold ObjectRun.iputs bump
      dsimp only
      rw [Function.update_of_ne other]
    · unfold ObjectRun.iputs bump
      dsimp only
      rw [Function.update_self]
      omega

/-- What other code does leaves the threads. -/
theorem Agrees.outside (agrees : Agrees s life) (same : SameCode s.code c)
    (threads : c.thread = s.code.thread) {users owned : Nat → Nat}
    (owners : ∀ o, 0 < owned o → 0 < s.owned o) :
    Agrees { s with code := c, users, owned } life := by
  have stays : c.thread = Function.update s.code.thread 0 (s.code.thread 0) := by
    rw [threads, Function.update_eq_self]
  exact agrees.quiet stays (SameCode.sameObject same rfl rfl rfl rfl) rfl
    (fun o i knower => .inl knower) (fun o putter => .inl putter)
    fun o owner => .inl (owners o owner)

theorem act_agrees {s' : ObjectRun} (agrees : Agrees s life) {a : ObjectAct}
    (stepped : act fs s a = some s') : ∃ life', Agrees s' life' := by
  cases act_cases stepped with
  | getInodeObject t inode idle live owns =>
    exact ⟨life, agrees.leave (.refl _) rfl (by rw [idle]; rfl) ⟨rfl, rfl, rfl⟩⟩
  | putObject t object idle owns =>
    refine ⟨life, agrees.quiet rfl (SameCode.sameObject ⟨fun _ => rfl, fun _ => rfl⟩
      rfl rfl rfl rfl) ?_ ?_ ?_ ?_⟩
    · rw [idle]
      rfl
    · intro o i knower
      cases knower
    · intro o putter
      cases putter
      exact .inr owns
    · intro o owner
      by_cases isObject : o = object
      · exact .inl (by rw [isObject]; exact owns)
      · dsimp only [drop] at owner
        rw [Function.update_of_ne isObject] at owner
        exact .inl owner
  | sbDelete t sb idle =>
    exact ⟨life, agrees.leave (.refl _) rfl (by rw [idle]; rfl) ⟨rfl, rfl, rfl⟩⟩
  | step t new c turn => exact step_agrees agrees rfl turn
  | iget inode live =>
    exact ⟨life, agrees.outside (sameCode_iget s.code inode) rfl fun _ owner => owner⟩
  | iput inode owns =>
    exact ⟨life, agrees.outside (sameCode_iput s.code inode) rfl fun _ owner => owner⟩
  | evict inode live unused =>
    exact ⟨life, agrees.outside (sameCode_setState s.code inode .freeing) rfl fun _ owner => owner⟩
  | unlockNew inode new =>
    exact ⟨life, agrees.outside (sameCode_setState s.code inode .live) rfl fun _ owner => owner⟩
  | getObject object o owns here =>
    refine ⟨life, agrees.outside (sameCode_reused here (o.usage + 1) o.lock) rfl fun k more => ?_⟩
    by_cases isObject : k = object
    · rw [isObject]
      exact owns
    · dsimp only [bump] at more
      rw [Function.update_of_ne isObject] at more
      exact more

theorem untied_agrees (untied : Untied s) : Agrees s fun _ => .absent := by
  constructor
  · intro o
    rw [untied.objects]
    rfl
  · exact untied.iholds
  · intro o
    unfold ObjectRun.iputs
    rw [untied.releases, untied.hooks]
    rfl
  · intro i o
    rw [untied.pointers]
    simp only [reduceCtorEq, Life.Pointed, false_and]
  · intro t o i part
    rw [untied.threads]
    simp only [holding, Life.holder, reduceCtorEq, false_and]
  · intro t o i knower
    rw [untied.threads] at knower
    cases knower
  · intro t o putter
    rw [untied.threads] at putter
    cases putter
  · intro o owner
    rw [untied.owned] at owner
    cases owner

end Lives

end Ksrc.Guarantees.LandlockLives
